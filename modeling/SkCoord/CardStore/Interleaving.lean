import SkCoord.CardStore.Equiv.FoldedGraph

/-!
# Amendments and creations that overlap

A call reads the graph and writes in two steps, and other calls come between them.  An amendment
holds the lock of its own card from the first step to the second, a creation the lock of the
creation governor, and neither holds a lock on the graph.  `InFlight.step` is one step of one call;
a step that has to wait for a lock is none.
-/

namespace SkCoord

open Python

/-- The store and the calls that have passed their checks. -/
structure InFlight where
  store : Store
  wf : store.WellFormed
  /-- The amendments that hold the lock of their card. -/
  amending : List Amendment := []
  /-- The creation that holds the lock of the governor. -/
  creating : Option CardCore := none

/-- One step of one call. -/
inductive CallStep where
  /-- Take the lock of the card, read the graph and check. -/
  | checkAmendment (a : Amendment)
  /-- Append the event and return. -/
  | appendAmendment (a : Amendment) (stamp : Stamp)
  /-- End without an event. -/
  | abandonAmendment (a : Amendment)
  /-- Take the lock of the governor, read the graph and check. -/
  | checkCreation (core : CardCore)
  /-- Publish the core and return. -/
  | publishCreation
  /-- End without a core: the governor refuses for another reason, or the call dies. -/
  | abandonCreation

/-- Why a step is not taken. -/
inductive Waits where
  | lockHeld
  | notStarted
  deriving DecidableEq, Repr

/-- The steps that write to the store. -/
def CallStep.IsWrite : CallStep → Prop
  | .appendAmendment _ _ => True
  | .publishCreation => True
  | _ => False

/-- The schedule lets no other call write between the check of a call and the write of that call.
The check of a write is the last one before it: the check of the same amendment, and for the core
that is published the check of any creation, since there is one lock for all of them. -/
structure Undisturbed (run : List CallStep) : Prop where
  amendments : ∀ p q r a stamp, run = p ++ .checkAmendment a :: (q ++ .appendAmendment a stamp :: r) →
    .checkAmendment a ∉ q → ∀ act ∈ q, ¬act.IsWrite
  creations : ∀ p q r core, run = p ++ .checkCreation core :: (q ++ .publishCreation :: r) →
    (∀ core', .checkCreation core' ∉ q) → ∀ act ∈ q, ¬act.IsWrite

namespace InFlight

/-- `amend_dependency` up to its write.  A call that raises or has nothing to add is over. -/
def checkAmendment (env : Env) (tasks : List String) (s : InFlight) (a : Amendment) :
    Except Waits InFlight :=
  if s.amending.any fun b => b.cardId = a.cardId then throw .lockHeld
  else match s.store.amendRequire tasks a, s.store.requireLockAnchor env a.cardId,
      s.store.amendCheck env a with
    | .ok (), .ok (), .ok true => pure { s with amending := a :: s.amending }
    | _, _, _ => pure s

/-- The write of `amend_dependency`. -/
def appendAmendment (env : Env) (s : InFlight) (a : Amendment) (stamp : Stamp) :
    Except Waits InFlight :=
  if a ∈ s.amending then
    match h : s.store.amendAppend env a stamp with
    | .ok (st', e) => pure
        { s with
          store := st'
          wf := Store.amendAppend_wellFormed (e := e) s.wf h
          amending := s.amending.erase a }
    | .error _ => pure { s with amending := s.amending.erase a }
  else throw .notStarted

/-- `create` up to its write.  A call that raises, or finds the core, is over. -/
def checkCreation (env : Env) (s : InFlight) (core : CardCore) : Except Waits InFlight :=
  if s.creating.isSome then throw .lockHeld
  else match s.store.loadCore core.id, s.store.governDependencies env core with
    | .ok none, .ok () => pure { s with creating := some core }
    | _, _ => pure s

/-- The write of `create`. -/
def publishCreation (s : InFlight) : Except Waits InFlight :=
  match s.creating with
  | some core => pure
      { s with
        store := s.store.publishCore core
        wf := Store.publishCore_wellFormed s.wf core
        creating := none }
  | none => throw .notStarted

/-- One step. -/
def step (env : Env) (tasks : List String) (s : InFlight) : CallStep → Except Waits InFlight
  | .checkAmendment a => s.checkAmendment env tasks a
  | .appendAmendment a stamp => s.appendAmendment env a stamp
  | .abandonAmendment a => pure { s with amending := s.amending.erase a }
  | .checkCreation core => s.checkCreation env core
  | .publishCreation => s.publishCreation
  | .abandonCreation => pure { s with creating := none }

end InFlight

end SkCoord
