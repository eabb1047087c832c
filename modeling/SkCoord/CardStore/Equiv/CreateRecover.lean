import SkCoord.CardStore.Equiv.CreateOnce

/-!
# Recovery of an interrupted creation

Attempts at one request leave, between them, one of a few states: nothing or a pending intent
without a core, a core with its pending intent, or a core with its acceptance (`Recoverable`).  The
`except` clause of `createExplicit` is the way out of them: a rejection that it appends may reserve
the identifier or contradict an acceptance, and an intent that it clears may leave a core that
nothing explains (`Wedged`).  `Plan.wedges` says which faults do that, and `recovers_iff` that the
identifier can be created again exactly when no attempt had such faults.
-/

namespace SkCoord

open Python Python.Effect

variable {env : CreationEnv} {plan : Plan} {core : CardCore} {digest actor : String}
  {s t : CreationState}

/-! ### The faults of a plan -/

namespace Plan

/-- The fault of writing the pending intent. -/
def writeFault (plan : Plan) : Fault :=
  plan.write.asFault "creation-pending intent cannot be written"

/-- The fault of appending the acceptance. -/
def appendFault (plan : Plan) : Fault :=
  plan.append.asFault "creation-attempt log cannot be written"

/-- The fault of clearing the intent behind the acceptance. -/
def clearFault (plan : Plan) : Fault :=
  plan.clear.asFault "creation-pending intent cannot be cleared"

/-- The fault of clearing the intent of a rejected attempt. -/
def rejectClearFault (plan : Plan) : Fault :=
  plan.rejectClear.asFault "creation-pending intent cannot be cleared"

/-- The fault of appending the rejection. -/
def rejectFault (plan : Plan) : Fault :=
  plan.reject.asFault "creation-attempt log cannot be written"

/-- The fault of clearing the intent when the rejection could not be appended. -/
def lastClearFault (plan : Plan) : Fault :=
  plan.lastClear.asFault "creation-pending intent cannot be cleared"

/-- Every step fails before or after it takes effect, never in the middle of a line. -/
def isWhole (plan : Plan) : Bool := plan.appendFault.isWhole && plan.rejectFault.isWhole

/-- Where a creation stops: the error of the first step that fails, and whether the core has been
published and the acceptance appended by then. -/
structure Halt where
  error : PyError
  core : Bool
  accepted : Bool
  deriving DecidableEq, Repr

/-- The first of the durable steps that fails; the intent is written unless it is pending. -/
def halt (plan : Plan) (pending : Bool) : Option Halt :=
  match if pending then none else plan.writeFault.error with
  | some e => some ⟨e, false, false⟩
  | none =>
    match plan.publish.error with
    | some e => some ⟨e, plan.publish.took, false⟩
    | none =>
      match plan.appendFault.error with
      | some e => some ⟨e, true, plan.appendFault.took⟩
      | none => plan.clearFault.error.map fun e => ⟨e, true, true⟩

/-- The `except` clause appends its rejection. -/
def rejects (plan : Plan) : Bool :=
  plan.rejectClearFault.error != some .killed && plan.rejectFault.took

/-- The `except` clause clears the pending intent. -/
def clears (plan : Plan) : Bool :=
  plan.rejectClearFault.took ||
    plan.rejectClearFault.error != some .killed && plan.rejectFault.error != none &&
      plan.rejectFault.error != some .killed && plan.lastClearFault.took

/-- The `except` clause loses the identifier: its rejection contradicts an acceptance or does not
read as an input/output abort, or it clears the intent of a core that has not been accepted. -/
def loses (plan : Plan) (h : Halt) : Bool :=
  plan.rejects && (h.accepted || !isCrashRejectReason h.error.reason) ||
    h.core && !h.accepted && plan.clears

/-- The faults that lose the identifier: a step fails, so that the `except` clause runs, and it
loses the identifier. -/
def wedges (plan : Plan) (pending : Bool) : Bool :=
  match plan.halt pending with
  | none => false
  | some h => h.error != .killed && plan.loses h

end Plan

/-! ### The steps -/

theorem run_recoveryStep {f : StepFault} {msg : String} (whole : CreationState → CreationState)
    (s : CreationState) :
    (recoveryStep f msg whole fun _ s => s).run s =
      (match (f.asFault msg).error with
        | none => .ok ()
        | some e => .error e, if (f.asFault msg).took then whole s else s) := by
  rw [recoveryStep_eq_io]
  exact run_ioAtomic _ _ _

theorem run_appendCreationAttempt {f : StepFault} {r : AttemptRecord}
    (hf : (f.asFault "creation-attempt log cannot be written").isWhole = true)
    (s : CreationState) :
    (appendCreationAttempt f r).run s =
      (match (f.asFault "creation-attempt log cannot be written").error with
        | none => .ok ()
        | some e => .error e,
        if (f.asFault "creation-attempt log cannot be written").took then
          { s with ledger := s.ledger.append r } else s) := by
  unfold appendCreationAttempt
  rw [recoveryStep_eq_io]
  exact run_io_of_isWhole hf _ _ _

/-! ### The `except` clause -/

/-- The record of the rejection that the `except` clause appends. -/
def rejectedRecord (env : CreationEnv) (core : CardCore) (digest actor : String) (e : PyError) :
    AttemptRecord :=
  { cardId := core.id, requestDigest := digest, actor, outcome := .rejected, reason := e.reason,
    semanticDigest := semanticDigestFor env core }

/-- The state behind a step that clears the pending intent. -/
def clearedBy (f : Fault) (cardId : String) (s : CreationState) : CreationState :=
  if f.took then { s with pending := Assoc.erase s.pending cardId } else s

/-- The state behind a step that appends to the ledger. -/
def appendedBy (f : Fault) (r : AttemptRecord) (s : CreationState) : CreationState :=
  if f.took then { s with ledger := s.ledger.append r } else s

theorem run_clearPendingIntent (f : StepFault) (cardId : String) (s : CreationState) :
    (clearPendingIntent f cardId).run s =
      (match (f.asFault "creation-pending intent cannot be cleared").error with
        | none => .ok ()
        | some e => .error e,
        clearedBy (f.asFault "creation-pending intent cannot be cleared") cardId s) :=
  run_recoveryStep _ _

/-- A `_reject_explicit` whose process died on the way: nothing was appended. -/
theorem run_rejectExplicit_of_killed {cardId reason semanticDigest : String}
    (h : plan.rejectClearFault.error = some .killed) (s : CreationState) :
    (rejectExplicit plan cardId digest actor reason semanticDigest).run s =
      (.error .killed, clearedBy plan.rejectClearFault cardId s) := by
  have hclear := run_clearPendingIntent plan.rejectClear cardId s
  rw [← Plan.rejectClearFault, h] at hclear
  exact run_bind_of_error (run_tryExcept_of_killed hclear)

/-- Any other `_reject_explicit` ends with its append, whatever befell the clearing. -/
theorem run_rejectExplicit {cardId reason semanticDigest : String}
    (h : plan.rejectClearFault.error ≠ some .killed) (hwhole : plan.rejectFault.isWhole = true)
    (s : CreationState) :
    (rejectExplicit plan cardId digest actor reason semanticDigest).run s =
      (match plan.rejectFault.error with
        | none => .ok ()
        | some e => .error e,
        appendedBy plan.rejectFault
          { cardId, requestDigest := digest, actor, outcome := .rejected, reason, semanticDigest }
          (clearedBy plan.rejectClearFault cardId s)) := by
  have hclear := run_clearPendingIntent plan.rejectClear cardId s
  rw [← Plan.rejectClearFault] at hclear
  have htry : (tryExcept (clearPendingIntent plan.rejectClear cardId) fun _ => pure ()).run s =
      (.ok (), clearedBy plan.rejectClearFault cardId s) := by
    cases herr : plan.rejectClearFault.error with
    | none =>
      rw [herr] at hclear
      exact run_tryExcept_of_ok hclear
    | some e =>
      rw [herr] at hclear h
      exact run_tryExcept_of_error hclear fun he => h (congrArg some he)
  unfold rejectExplicit
  rw [run_bind_of_ok htry]
  exact run_appendCreationAttempt hwhole _

@[simp] theorem store_clearedBy (f : Fault) (cardId : String) (s : CreationState) :
    (clearedBy f cardId s).store = s.store := by
  unfold clearedBy; split <;> rfl

@[simp] theorem ledger_clearedBy (f : Fault) (cardId : String) (s : CreationState) :
    (clearedBy f cardId s).ledger = s.ledger := by
  unfold clearedBy; split <;> rfl

@[simp] theorem pending_clearedBy (f : Fault) (cardId : String) (s : CreationState) :
    Assoc.get? (clearedBy f cardId s).pending cardId =
      if f.took then none else Assoc.get? s.pending cardId := by
  unfold clearedBy; split <;> simp

@[simp] theorem store_appendedBy (f : Fault) (r : AttemptRecord) (s : CreationState) :
    (appendedBy f r s).store = s.store := by
  unfold appendedBy; split <;> rfl

@[simp] theorem ledger_appendedBy (f : Fault) (r : AttemptRecord) (s : CreationState) :
    (appendedBy f r s).ledger = if f.took then s.ledger.append r else s.ledger := by
  unfold appendedBy; split <;> rfl

@[simp] theorem pending_appendedBy (f : Fault) (r : AttemptRecord) (s : CreationState) :
    (appendedBy f r s).pending = s.pending := by
  unfold appendedBy; split <;> rfl

/-- What the `except` clause leaves: `plan.rejects` and `plan.clears` say what it has done. -/
theorem publishFailed_spec (hwhole : plan.rejectFault.isWhole = true) (e : PyError)
    (s : CreationState) :
    ∃ e' t, (publishFailed env plan core digest actor e).run s = (.error e', t) ∧
      t.store = s.store ∧
      t.ledger = (if plan.rejects then s.ledger.append (rejectedRecord env core digest actor e)
        else s.ledger) ∧
      Assoc.get? t.pending core.id =
        (if plan.clears then none else Assoc.get? s.pending core.id) := by
  unfold publishFailed
  by_cases hkilled : plan.rejectClearFault.error = some .killed
  · refine ⟨_, _, run_bind_of_error (run_tryExcept_of_killed
      (run_rejectExplicit_of_killed hkilled s)), ?_, ?_, ?_⟩ <;>
      simp [Plan.rejects, Plan.clears, hkilled]
  · have hreject : (rejectExplicit plan core.id digest actor e.reason
        (semanticDigestFor env core)).run s = _ := run_rejectExplicit hkilled hwhole s
    cases herr : plan.rejectFault.error with
    | none =>
      rw [herr] at hreject
      refine ⟨_, _, run_bind_of_ok (run_tryExcept_of_ok hreject), ?_, ?_, ?_⟩ <;>
        simp [Plan.rejects, Plan.clears, hkilled, herr, rejectedRecord]
    | some e' =>
      rw [herr] at hreject
      by_cases he' : e' = .killed
      · rw [he'] at hreject herr
        refine ⟨_, _, run_bind_of_error (run_tryExcept_of_killed hreject), ?_, ?_, ?_⟩ <;>
          simp [Plan.rejects, Plan.clears, hkilled, herr, rejectedRecord]
      · -- the append failed, and the intent is cleared once more
        rw [run_bind, run_tryExcept_of_error hreject he', run_clearPendingIntent,
          ← Plan.lastClearFault]
        have hpending : ∀ r, Assoc.get? (clearedBy plan.lastClearFault core.id
            (appendedBy plan.rejectFault r (clearedBy plan.rejectClearFault core.id s))).pending
              core.id = if plan.clears then none else Assoc.get? s.pending core.id := by
          intro r
          by_cases hl : plan.lastClearFault.took = true <;>
            simp [Plan.clears, hkilled, herr, he', hl]
        cases plan.lastClearFault.error with
        | none =>
          refine ⟨_, _, rfl, ?_, ?_, hpending _⟩ <;> simp [Plan.rejects, hkilled, rejectedRecord]
        | some e'' =>
          refine ⟨_, _, rfl, ?_, ?_, hpending _⟩ <;> simp [Plan.rejects, hkilled, rejectedRecord]

/-! ### The durable steps -/

/-- The intent of this request is pending. -/
def HasIntent (env : CreationEnv) (core : CardCore) (digest : String) (s : CreationState) : Prop :=
  ∃ actor, Assoc.get? s.pending core.id = some (.record (pendingIntent env core digest actor))

/-- Behind the first step the intent is pending, or that step failed without effect. -/
theorem writeStep_spec {pending : Option PendingIntent}
    (hpending : pending.isSome = true → HasIntent env core digest s) :
    ∃ s₁, (if pending.isNone then writePendingIntent plan.write (pendingIntent env core digest actor)
        else pure () : Effect CreationState Unit).run s =
          (match if pending.isSome then none else plan.writeFault.error with
            | none => .ok ()
            | some e => .error e, s₁) ∧
      s₁.store = s.store ∧ s₁.ledger = s.ledger ∧
      (HasIntent env core digest s₁ ∨
        pending.isSome = false ∧ plan.writeFault.error ≠ none ∧ s₁.pending = s.pending) := by
  cases pending with
  | some p => exact ⟨s, rfl, rfl, rfl, .inl (hpending rfl)⟩
  | none =>
    refine ⟨_, run_recoveryStep _ s, ?_⟩
    by_cases htook : plan.writeFault.took = true
    · rw [Plan.writeFault] at htook
      rw [if_pos htook]
      exact ⟨rfl, rfl, .inl ⟨actor, Assoc.get?_set_self _ _ _⟩⟩
    · have herr : plan.writeFault.error ≠ none := fun h => htook (Fault.took_of_error h)
      rw [Plan.writeFault] at htook
      rw [if_neg htook]
      exact ⟨rfl, rfl, .inr ⟨rfl, herr, rfl⟩⟩

/-- The state in which the durable steps have stopped. -/
structure StoppedAt (env : CreationEnv) (core : CardCore) (digest actor : String)
    (s : CreationState) (halt : Option Plan.Halt) (t : CreationState) : Prop where
  store : t.store = if halt.elim true (·.core) then s.store.publishCore core else s.store
  ledger : t.ledger = if halt.elim true (·.accepted) then
    s.ledger.append (acceptedRecord env core digest actor) else s.ledger
  intent : halt.elim true (·.accepted) = false → HasIntent env core digest t ∨
    halt.elim true (·.core) = false ∧ t.pending = s.pending
  cleared : halt.elim true (·.accepted) = true → HasIntent env core digest t ∨
    Assoc.get? t.pending core.id = none

/-- **The durable steps** stop at the first that fails. -/
theorem publishSteps_spec {pending : Option PendingIntent}
    (hwhole : plan.appendFault.isWhole = true)
    (hpending : pending.isSome = true → HasIntent env core digest s) :
    ∃ t, (publishSteps env plan core digest actor pending).run s =
        (match plan.halt pending.isSome with
          | none => .ok ()
          | some h => .error h.error, t) ∧
      StoppedAt env core digest actor s (plan.halt pending.isSome) t := by
  -- the intent comes first, unless an earlier attempt has left one
  obtain ⟨s₁, hrun₁, hstore₁, hledger₁, hintent₁⟩ :=
    @writeStep_spec env plan core digest actor s pending hpending
  unfold publishSteps
  rw [run_bind, hrun₁]
  unfold Plan.halt
  cases hW : if pending.isSome then none else plan.writeFault.error with
  | some e =>
    refine ⟨s₁, rfl, hstore₁, hledger₁, fun _ => ?_, fun h => by cases h⟩
    rcases hintent₁ with h | ⟨-, -, h⟩
    · exact .inl h
    · exact .inr ⟨rfl, h⟩
  | none =>
    have hintent : HasIntent env core digest s₁ := by
      rcases hintent₁ with h | ⟨hp, h, -⟩
      · exact h
      · rw [hp] at hW
        exact absurd hW h
    dsimp only
    -- behind the intent the core is published
    rw [run_bind, publishExplicitCore, run_ioAtomic]
    cases hP : plan.publish.error with
    | some e =>
      refine ⟨_, rfl, ?_, ?_, fun _ => .inl ?_, fun h => by cases h⟩
      · by_cases htook : plan.publish.took = true <;> simp [htook, hstore₁]
      · by_cases htook : plan.publish.took = true <;> simp [htook, hledger₁]
      · by_cases htook : plan.publish.took = true <;> simp only [htook] <;> exact hintent
    | none =>
      have htook : plan.publish.took = true := Fault.took_of_error hP
      dsimp only
      -- behind the core the acceptance is recorded
      rw [if_pos htook, run_bind, run_appendCreationAttempt hwhole, ← Plan.appendFault]
      cases hA : plan.appendFault.error with
      | some e =>
        refine ⟨_, rfl, ?_, ?_, fun _ => .inl ?_, fun _ => .inl ?_⟩
        · by_cases htook : plan.appendFault.took = true <;> simp [htook, hstore₁]
        · by_cases htook : plan.appendFault.took = true <;> simp [htook, hledger₁]
        · by_cases htook : plan.appendFault.took = true <;> simp only [htook] <;> exact hintent
        · by_cases htook : plan.appendFault.took = true <;> simp only [htook] <;> exact hintent
      | none =>
        have htook : plan.appendFault.took = true := Fault.took_of_error hA
        dsimp only
        rw [if_pos htook, run_clearPendingIntent, ← Plan.clearFault]
        -- a clearing that fails may have removed the intent or left it
        have hcleared : ∀ s₂ : CreationState, s₂.pending = s₁.pending →
            HasIntent env core digest (clearedBy plan.clearFault core.id s₂) ∨
              Assoc.get? (clearedBy plan.clearFault core.id s₂).pending core.id = none := by
          intro s₂ hs₂
          rw [HasIntent, pending_clearedBy, hs₂]
          split
          · exact .inr rfl
          · exact .inl hintent
        cases plan.clearFault.error with
        | none =>
          exact ⟨_, rfl, by simp [hstore₁], by simp [hledger₁], fun h => (by cases h),
            fun _ => hcleared _ rfl⟩
        | some e =>
          exact ⟨_, rfl, by simp [hstore₁], by simp [hledger₁], fun h => (by cases h),
            fun _ => hcleared _ rfl⟩

theorem Plan.core_of_accepted {pending : Bool} {h : Plan.Halt} (hh : plan.halt pending = some h)
    (hacc : h.accepted = true) : h.core = true := by
  unfold Plan.halt at hh
  split at hh
  · cases hh; cases hacc
  · split at hh
    · cases hh; cases hacc
    · split at hh
      · cases hh; rfl
      · obtain ⟨e, -, rfl⟩ := Option.map_eq_some_iff.mp hh
        rfl

/-! ### What attempts leave -/

/-- A request that the creation of a fresh identifier admits. -/
structure Admitted (env : CreationEnv) (core : CardCore) (digest : String) (st : Store) :
    Prop where
  cardId : validateCardLockIdentifier core.id = .ok core.id
  digest : isHex 64 digest = true
  absent : (st.dir core.id).core = .absent
  governed : governCreate env st core = .ok ()

/-- The states that interrupted attempts at a request leave, from the store `st`: no core, with or
without the intent; the core with the intent; the core with the acceptance. -/
inductive Recoverable (env : CreationEnv) (core : CardCore) (digest : String) (st : Store)
    (s : CreationState) : Prop where
  | absent (hstore : s.store = st)
      (hintent : Assoc.get? s.pending core.id = none ∨ HasIntent env core digest s)
      (hquiet : s.ledger.Quiet core.id)
  | published (hstore : s.store = st.publishCore core) (hintent : HasIntent env core digest s)
      (hquiet : s.ledger.Quiet core.id)
  | accepted (hstore : s.store = st.publishCore core)
      (hintent : HasIntent env core digest s ∨ Assoc.get? s.pending core.id = none) (actor : String)
      (hattempt : attemptFor s.ledger core.id = .ok (some (acceptedRecord env core digest actor)))

/-- The states from which no attempt returns: conflicting attempts, a rejection, or a core without
its intent and without an attempt. -/
inductive Wedged (core : CardCore) (s : CreationState) : Prop where
  | conflicting (e : PyError) (h : attemptFor s.ledger core.id = .error e)
  | reserved (a : AttemptRecord) (h : attemptFor s.ledger core.id = .ok (some a))
      (hout : a.outcome = .rejected)
  | unexplained (stored : CardCore) (h : attemptFor s.ledger core.id = .ok none)
      (hpending : Assoc.get? s.pending core.id = none)
      (hcore : (s.store.dir core.id).core = .present stored)

theorem isWellFormed_acceptedRecord (hdigest : isHex 64 digest = true) :
    (acceptedRecord env core digest actor).isWellFormed = true := by
  have hsem : isHex 64 (semanticDigestFor env core) = true := env.isHex_explicitSemanticDigest _
  simp [AttemptRecord.isWellFormed, acceptedRecord, hdigest, hsem]

theorem isWellFormed_rejectedRecord (hdigest : isHex 64 digest = true) (e : PyError) :
    (rejectedRecord env core digest actor e).isWellFormed = true := by
  have hsem : isHex 64 (semanticDigestFor env core) = true := env.isHex_explicitSemanticDigest _
  simp [AttemptRecord.isWellFormed, rejectedRecord, hdigest, hsem]

/-- What an interruption leaves where the `except` clause does not run. -/
theorem recoverable_of_stoppedAt {st : Store} {pending : Bool}
    (hadm : Admitted env core digest st) (hstore : s.store = st)
    (hintent : Assoc.get? s.pending core.id = none ∨ HasIntent env core digest s)
    (hquiet : s.ledger.Quiet core.id)
    (hstop : StoppedAt env core digest actor s (plan.halt pending) t) :
    Recoverable env core digest st t := by
  have haccepted : (plan.halt pending).elim true (·.accepted) = true →
      (plan.halt pending).elim true (·.core) = true := by
    cases hh : plan.halt pending with
    | none => exact fun _ => rfl
    | some h => exact Plan.core_of_accepted hh
  by_cases hacc : (plan.halt pending).elim true (·.accepted) = true
  · refine .accepted ?_ (hstop.cleared hacc) actor ?_
    · rw [hstop.store, if_pos (haccepted hacc), hstore]
    · rw [hstop.ledger, if_pos hacc]
      exact @attemptFor_append s.ledger (acceptedRecord env core digest actor) hquiet
        (isWellFormed_acceptedRecord hadm.digest)
  · have hledger : t.ledger = s.ledger := by rw [hstop.ledger, if_neg hacc]
    have hint := hstop.intent (by simpa using hacc)
    by_cases hcore : (plan.halt pending).elim true (·.core) = true
    · refine .published ?_ (hint.resolve_right fun h => ?_) (hledger ▸ hquiet)
      · rw [hstop.store, if_pos hcore, hstore]
      · rw [hcore] at h
        cases h.1
    · refine .absent ?_ ?_ (hledger ▸ hquiet)
      · rw [hstop.store, if_neg hcore, hstore]
      · rcases hint with h | ⟨-, h⟩
        · exact .inr h
        · rw [HasIntent, h]
          exact hintent

/-- What an interruption leaves where the `except` clause runs. -/
theorem publishFailed_recovers {st : Store} {pending : Bool} {h : Plan.Halt} {t' : CreationState}
    (hadm : Admitted env core digest st) (hstore : s.store = st)
    (hintent : Assoc.get? s.pending core.id = none ∨ HasIntent env core digest s)
    (hquiet : s.ledger.Quiet core.id) (hh : plan.halt pending = some h)
    (hstop : StoppedAt env core digest actor s (some h) t)
    (hstore' : t'.store = t.store)
    (hledger' : t'.ledger = if plan.rejects then
      t.ledger.append (rejectedRecord env core digest actor h.error) else t.ledger)
    (hpending' : Assoc.get? t'.pending core.id =
      if plan.clears then none else Assoc.get? t.pending core.id) :
    (plan.loses h = true → Wedged core t') ∧
      (plan.loses h = false → Recoverable env core digest st t') := by
  have hledger : t.ledger = if h.accepted then
      s.ledger.append (acceptedRecord env core digest actor) else s.ledger := hstop.ledger
  have hcore : t.store = if h.core then s.store.publishCore core else s.store := hstop.store
  have hint : h.accepted = false → HasIntent env core digest t ∨
      h.core = false ∧ t.pending = s.pending := hstop.intent
  unfold Plan.loses
  by_cases hacc : h.accepted = true
  · -- the acceptance is there: a rejection contradicts it
    have hpub : h.core = true := Plan.core_of_accepted hh hacc
    rw [if_pos hacc] at hledger
    rw [if_pos hpub] at hcore
    by_cases hrej : plan.rejects = true
    · refine ⟨fun _ => ?_, fun hlost => by simp [hacc, hrej] at hlost⟩
      rw [if_pos hrej, hledger] at hledger'
      obtain ⟨e, he⟩ := @attemptFor_conflict s.ledger (acceptedRecord env core digest actor)
        (rejectedRecord env core digest actor h.error) hquiet rfl
        (isWellFormed_acceptedRecord hadm.digest) (isWellFormed_rejectedRecord hadm.digest _)
        rfl rfl
      exact .conflicting e (by rw [hledger']; exact he)
    · refine ⟨fun hlost => by simp [hacc, hrej] at hlost, fun _ => ?_⟩
      rw [if_neg hrej] at hledger'
      refine .accepted (by rw [hstore', hcore, hstore]) ?_ actor ?_
      · rw [HasIntent, hpending']
        split
        · exact .inr rfl
        · exact hstop.cleared hacc
      rw [hledger', hledger]
      exact @attemptFor_append s.ledger (acceptedRecord env core digest actor) hquiet
        (isWellFormed_acceptedRecord hadm.digest)
  · rw [if_neg hacc] at hledger
    rw [hledger] at hledger'
    have hint := hint (by simpa using hacc)
    by_cases hbinds : plan.rejects = true ∧ isCrashRejectReason h.error.reason = false
    · -- a rejection that is taken for a decision
      refine ⟨fun _ => ?_, fun hlost => by simp [hbinds.1, hbinds.2] at hlost⟩
      rw [if_pos hbinds.1] at hledger'
      have hattempt := @attemptFor_append s.ledger (rejectedRecord env core digest actor h.error)
        hquiet (isWellFormed_rejectedRecord hadm.digest _)
      rw [if_neg (by simp [AttemptRecord.isCrashReject, rejectedRecord, hbinds.2])] at hattempt
      exact .reserved _ (by rw [hledger']; exact hattempt) rfl
    · have hquiet' : t'.ledger.Quiet core.id := by
        rw [hledger']
        split
        · rename_i hrej
          refine @quiet_append s.ledger (rejectedRecord env core digest actor h.error) hquiet
            (isWellFormed_rejectedRecord hadm.digest _) ?_
          simpa [AttemptRecord.isCrashReject, rejectedRecord, hrej] using hbinds
        · exact hquiet
      have hlost : (plan.rejects && (h.accepted || !isCrashRejectReason h.error.reason)) = false := by
        simpa [hacc] using hbinds
      rw [hlost, Bool.false_or]
      by_cases hpub : h.core = true
      · rw [if_pos hpub, hstore] at hcore
        by_cases hclears : plan.clears = true
        · -- a core that nothing explains
          refine ⟨fun _ => ?_, fun h => by simp [hpub, hacc, hclears] at h⟩
          rw [if_pos hclears] at hpending'
          refine .unexplained core hquiet'.2 hpending' ?_
          rw [hstore', hcore]
          exact core_publishCore_self hadm.absent
        · refine ⟨fun h => by simp [hclears] at h, fun _ => ?_⟩
          rw [if_neg hclears] at hpending'
          refine .published (by rw [hstore', hcore]) ?_ hquiet'
          rw [HasIntent, hpending']
          exact hint.resolve_right fun h => by rw [hpub] at h; cases h.1
      · refine ⟨fun h => by simp [hpub] at h, fun _ => ?_⟩
        rw [if_neg hpub, hstore] at hcore
        refine .absent (by rw [hstore', hcore]) ?_ hquiet'
        rw [HasIntent, hpending']
        split
        · exact .inl rfl
        · rcases hint with h | ⟨-, h⟩
          · exact .inr h
          · rw [h]; exact hintent

/-! ### One attempt -/

theorem readPendingIntent_none (h : Assoc.get? s.pending core.id = none) :
    readPendingIntent s core.id = .ok none := by
  unfold readPendingIntent
  rw [h]
  rfl

theorem readPendingIntent_intent (hdigest : isHex 64 digest = true)
    (h : Assoc.get? s.pending core.id = some (.record (pendingIntent env core digest actor))) :
    readPendingIntent s core.id = .ok (some (pendingIntent env core digest actor)) := by
  unfold readPendingIntent
  rw [h]
  exact if_pos ⟨rfl, hdigest, env.isHex_explicitSemanticDigest _⟩

/-- A call whose reads succeed answers what it has read. -/
theorem run_createExplicit {attempt : Option AttemptRecord} {existing : Option CardCore}
    {pending : Option PendingIntent} (hid : validateCardLockIdentifier core.id = .ok core.id)
    (hdigest : isHex 64 digest = true) (hattempt : attemptFor s.ledger core.id = .ok attempt)
    (hexisting : s.store.loadCore core.id = .ok existing)
    (hpending : readPendingIntent s core.id = .ok pending) :
    (createExplicit env plan core digest actor).run s =
      (answerExplicit env plan core digest actor attempt existing pending).run s := by
  have hreq : createExplicit.requireDigest digest = .ok () := if_pos hdigest
  unfold createExplicit
  rw [hid, hreq, run_lift_bind, run_lift_bind, run_get_bind, hattempt, hexisting, hpending]
  rfl

/-- **A lost identifier stays lost**: every attempt raises and writes nothing. -/
theorem wedged_raises (hid : validateCardLockIdentifier core.id = .ok core.id)
    (hdigest : isHex 64 digest = true) (hw : Wedged core s) :
    ∃ e, (createExplicit env plan core digest actor).run s = (.error e, s) := by
  have hreq : createExplicit.requireDigest digest = .ok () := if_pos hdigest
  cases hw with
  | conflicting e h =>
    unfold createExplicit
    rw [hid, hreq, run_lift_bind, run_lift_bind, run_get_bind, h]
    exact ⟨e, rfl⟩
  | reserved a h hout =>
    cases hexisting : s.store.loadCore core.id with
    | error e =>
      unfold createExplicit
      rw [hid, hreq, run_lift_bind, run_lift_bind, run_get_bind, h, hexisting]
      exact ⟨e, rfl⟩
    | ok existing =>
      cases hpending : readPendingIntent s core.id with
      | error e =>
        unfold createExplicit
        rw [hid, hreq, run_lift_bind, run_lift_bind, run_get_bind, h, hexisting, hpending]
        exact ⟨e, rfl⟩
      | ok pending =>
        rw [run_createExplicit hid hdigest h hexisting hpending]
        unfold answerExplicit
        dsimp only
        rw [hout]
        exact ⟨_, rfl⟩
  | unexplained stored h hpending hcore =>
    rw [run_createExplicit hid hdigest h (Store.loadCore_of_present hid hcore)
      (readPendingIntent_none hpending)]
    exact ⟨_, rfl⟩

/-- The anchor leaves the state as it is. -/
theorem run_ensureCardLockAnchor_state (f : Fault) (cardId : String) (s : CreationState) :
    ((ensureCardLockAnchor f cardId).run s).2 = s :=
  @keeps_ensureCardLockAnchor (fun t => t = s) f cardId s rfl

/-- A creation behind the governor or behind its intent: lost or recoverable, as its faults say. -/
theorem createCore_recovers {st : Store} {pending : Option PendingIntent}
    (hadm : Admitted env core digest st) (hwhole : plan.isWhole = true) (hstore : s.store = st)
    (hquiet : s.ledger.Quiet core.id)
    (hintent : if pending.isSome then HasIntent env core digest s
      else Assoc.get? s.pending core.id = none) :
    (plan.wedges pending.isSome = true →
        Wedged core ((createCore env plan core digest actor pending).run s).2) ∧
      (plan.wedges pending.isSome = false →
        Recoverable env core digest st ((createCore env plan core digest actor pending).run s).2) := by
  obtain ⟨hwholeA, hwholeR⟩ := Bool.and_eq_true_iff.mp hwhole
  have hpending : pending.isSome = true → HasIntent env core digest s := by
    intro h
    rwa [if_pos h] at hintent
  have hintent' : Assoc.get? s.pending core.id = none ∨ HasIntent env core digest s := by
    split at hintent
    · exact .inr hintent
    · exact .inl hintent
  obtain ⟨t, hrun, hstop⟩ :=
    @publishSteps_spec env plan core digest actor s pending hwholeA hpending
  -- wherever the steps stopped, the state they leave is recoverable before the handler runs
  have hrec := recoverable_of_stoppedAt hadm hstore hintent' hquiet hstop
  unfold createCore Plan.wedges
  cases hh : plan.halt pending.isSome with
  | none =>
    rw [hh] at hrun
    refine ⟨fun h => (by cases h), fun _ => ?_⟩
    rw [run_bind, run_tryExcept_of_ok hrun]
    dsimp only
    -- no step failed, and the lock anchor writes nothing that the recovery reads
    have hanchor := run_ensureCardLockAnchor_state plan.anchor core.id t
    rw [run_bind]
    cases hr : (ensureCardLockAnchor plan.anchor core.id).run t with
    | mk r t' =>
      rw [hr] at hanchor
      obtain rfl : t' = t := hanchor
      cases r <;> exact hrec
  | some h =>
    rw [hh] at hrun hstop
    by_cases hkilled : h.error = .killed
    · dsimp only at hrun
      rw [hkilled] at hrun
      refine ⟨fun hw => by simp [hkilled] at hw, fun _ => ?_⟩
      rw [run_bind, run_tryExcept_of_killed hrun]
      exact hrec
    · -- an error is recorded by the handler, which may fail on its part
      obtain ⟨e, t', hfailed, hstore', hledger', hpending'⟩ :=
        @publishFailed_spec env plan core digest actor hwholeR h.error t
      have hlost := publishFailed_recovers hadm hstore hintent' hquiet hh hstop hstore' hledger'
        hpending'
      have hne : (h.error != .killed) = true := by simpa using hkilled
      rw [run_bind, run_tryExcept_of_error hrun hkilled, hfailed]
      dsimp only
      rw [hne, Bool.true_and]
      exact hlost

/-- The faults of an attempt lose the identifier at a state without its core. -/
def wedgesAt (core : CardCore) (s : CreationState) (plan : Plan) : Bool :=
  !(s.store.dir core.id).core.exists && plan.wedges (Assoc.get? s.pending core.id).isSome

theorem exists_publishCore {st : Store} (h : (st.dir core.id).core = .absent) :
    ((st.publishCore core).dir core.id).core.exists = true := by
  rw [core_publishCore_self h]
  rfl

/-- A core with its intent: the attempt appends the acceptance, whatever befalls it. -/
theorem published_recovers {st : Store} (hadm : Admitted env core digest st)
    (hwhole : plan.isWhole = true) (hstore : s.store = st.publishCore core)
    (hintent : HasIntent env core digest s) (hquiet : s.ledger.Quiet core.id) :
    Recoverable env core digest st ((createExplicit env plan core digest actor).run s).2 ∧
      (plan = {} → ((createExplicit env plan core digest actor).run s).1 = .ok false) := by
  obtain ⟨hwholeA, -⟩ := Bool.and_eq_true_iff.mp hwhole
  obtain ⟨writer, hsome⟩ := id hintent
  have hcore : (s.store.dir core.id).core = .present core := by
    rw [hstore]
    exact core_publishCore_self hadm.absent
  -- the acceptance will be the attempt that the next call finds
  have hattempt := @attemptFor_append s.ledger (acceptedRecord env core digest actor) hquiet
    (isWellFormed_acceptedRecord hadm.digest)
  rw [run_createExplicit hadm.cardId hadm.digest hquiet.2 (Store.loadCore_of_present hadm.cardId hcore)
    (readPendingIntent_intent hadm.digest hsome)]
  unfold answerExplicit
  dsimp only
  rw [if_neg (by simp [pendingIntent]), if_neg (by simp), run_bind,
    run_appendCreationAttempt hwholeA, ← Plan.appendFault]
  cases herr : plan.appendFault.error with
  | some e =>
    refine ⟨?_, fun hplan => by rw [hplan] at herr; cases herr⟩
    dsimp only
    by_cases htook : plan.appendFault.took = true
    · rw [if_pos htook]
      exact .accepted hstore (.inl hintent) actor hattempt
    · rw [if_neg htook]
      exact .published hstore hintent hquiet
  | none =>
    dsimp only
    rw [if_pos (Fault.took_of_error herr), run_bind, run_clearPendingIntent, ← Plan.clearFault]
    -- once it is recorded, the intent may stay or go
    have hrec : Recoverable env core digest st (clearedBy plan.clearFault core.id
        { s with ledger := s.ledger.append (acceptedRecord env core digest actor) }) := by
      refine .accepted ?_ ?_ actor ?_
      · rw [store_clearedBy]
        exact hstore
      · rw [HasIntent, pending_clearedBy]
        split
        · exact .inr rfl
        · exact .inl hintent
      · rw [ledger_clearedBy]
        exact hattempt
    cases herr' : plan.clearFault.error with
    | some e => exact ⟨hrec, fun hplan => by rw [hplan] at herr'; cases herr'⟩
    | none => exact ⟨hrec, fun _ => rfl⟩

/-- A core with its acceptance: the attempt is a replay. -/
theorem accepted_replays {st : Store} {writer : String} (hadm : Admitted env core digest st)
    (hstore : s.store = st.publishCore core)
    (hintent : HasIntent env core digest s ∨ Assoc.get? s.pending core.id = none)
    (hattempt : attemptFor s.ledger core.id =
      .ok (some (acceptedRecord env core digest writer))) :
    (createExplicit env plan core digest actor).run s = (.ok false, s) := by
  have hcore : (s.store.dir core.id).core = .present core := by
    rw [hstore]
    exact core_publishCore_self hadm.absent
  have hpending : ∃ pending, readPendingIntent s core.id = .ok pending := by
    rcases hintent with ⟨writer', h⟩ | h
    · exact ⟨_, readPendingIntent_intent hadm.digest h⟩
    · exact ⟨_, readPendingIntent_none h⟩
  obtain ⟨pending, hpending⟩ := hpending
  have hreplay : requireReplay env core digest (acceptedRecord env core digest writer)
      (some core) = .ok () := by
    unfold requireReplay
    dsimp only
    rw [if_neg (by simp [acceptedRecord]), if_neg (by simp [acceptedRecord]),
      if_neg (by simp [semanticEq_refl])]
    rfl
  rw [run_createExplicit hadm.cardId hadm.digest hattempt (Store.loadCore_of_present hadm.cardId hcore)
    hpending]
  exact run_lift_bind_eq_ok.mpr ⟨(), hreplay, rfl⟩

/-- **One attempt** at a recoverable state leaves one, unless its faults lose the identifier. -/
theorem attempt_recovers {st : Store} (hadm : Admitted env core digest st)
    (hwhole : plan.isWhole = true) (hrec : Recoverable env core digest st s) :
    (wedgesAt core s plan = true →
        Wedged core ((createExplicit env plan core digest actor).run s).2) ∧
      (wedgesAt core s plan = false →
        Recoverable env core digest st ((createExplicit env plan core digest actor).run s).2) := by
  unfold wedgesAt
  cases hrec with
  | absent hstore hintent hquiet =>
    have habsent : (s.store.dir core.id).core = .absent := by rw [hstore]; exact hadm.absent
    have hload := Store.loadCore_of_absent hadm.cardId habsent
    rw [habsent, CoreFile.exists, Bool.not_false, Bool.true_and]
    rcases hintent with hnone | hintent
    · rw [run_createExplicit hadm.cardId hadm.digest hquiet.2 hload (readPendingIntent_none hnone),
        hnone]
      have hgovern : (governExplicit env plan core digest actor).run s = (.ok (), s) := by
        unfold governExplicit
        rw [run_get_bind, hstore, hadm.governed]
        rfl
      unfold answerExplicit
      dsimp only
      rw [run_bind_of_ok hgovern]
      exact @createCore_recovers env plan core digest actor s st none hadm hwhole hstore hquiet hnone
    · obtain ⟨writer, hsome⟩ := hintent
      rw [run_createExplicit hadm.cardId hadm.digest hquiet.2 hload
        (readPendingIntent_intent hadm.digest hsome), hsome]
      unfold answerExplicit
      dsimp only
      rw [if_neg (by simp [pendingIntent])]
      exact @createCore_recovers env plan core digest actor s st (some _) hadm hwhole hstore hquiet
        ⟨writer, hsome⟩
  | published hstore hintent hquiet =>
    rw [hstore, exists_publishCore hadm.absent, Bool.not_true, Bool.false_and]
    exact ⟨fun h => (by cases h),
      fun _ => (published_recovers hadm hwhole hstore hintent hquiet).1⟩
  | accepted hstore hintent writer hattempt =>
    rw [accepted_replays hadm hstore hintent hattempt, hstore, exists_publishCore hadm.absent,
      Bool.not_true, Bool.false_and]
    exact ⟨fun h => (by cases h), fun _ => .accepted hstore hintent writer hattempt⟩

/-! ### Sequences of attempts -/

/-- An attempt at the request: who makes it and what befalls it. -/
structure Attempt where
  actor : String
  plan : Plan

/-- The state that attempts at one request leave. -/
def runAttempts (env : CreationEnv) (core : CardCore) (digest : String) (attempts : List Attempt)
    (s : CreationState) : CreationState :=
  attempts.foldl (fun s a => ((createExplicit env a.plan core digest a.actor).run s).2) s

/-- An attempt in which no step fails returns, and `core.json` holds the requested core. -/
def Recovers (env : CreationEnv) (core : CardCore) (digest actor : String) (s : CreationState) :
    Prop :=
  ∃ b t, (createExplicit env {} core digest actor).run s = (.ok b, t) ∧
    (t.store.dir core.id).core = .present core

/-- Without faults the durable steps and the anchor run through. -/
theorem createCore_returns {st : Store} {pending : Option PendingIntent}
    (hadm : Admitted env core digest st) (hstore : s.store = st)
    (hpending : pending.isSome = true → HasIntent env core digest s) :
    ∃ t, (createCore env {} core digest actor pending).run s = (.ok true, t) ∧
      (t.store.dir core.id).core = .present core := by
  obtain ⟨t, hrun, hstop⟩ :=
    @publishSteps_spec env {} core digest actor s pending rfl hpending
  have hhalt : ({} : Plan).halt pending.isSome = none := by
    cases pending.isSome <;> rfl
  rw [hhalt] at hrun hstop
  have hcore : (t.store.dir core.id).core = .present core := by
    rw [hstop.store, hstore]
    exact core_publishCore_self hadm.absent
  have hanchor : (ensureCardLockAnchor .ok core.id).run t = (.ok (), t) := by
    unfold ensureCardLockAnchor
    rw [run_get_bind, Store.loadCore_of_present hadm.cardId hcore, run_lift_bind]
    dsimp only
    rw [if_pos rfl]
    rfl
  refine ⟨t, ?_, hcore⟩
  unfold createCore
  rw [run_bind_of_ok (run_tryExcept_of_ok hrun), run_bind_of_ok hanchor]
  rfl

/-- From a recoverable state an attempt without faults returns. -/
theorem recovers_of_recoverable {st : Store} (hadm : Admitted env core digest st)
    (hrec : Recoverable env core digest st s) : Recovers env core digest actor s := by
  -- the ledger only grows, so a core that is there stays
  have hlater : s.Later ((createExplicit env {} core digest actor).run s).2 :=
    keeps_createExplicit (CreationState.stable_later _) s (.refl s)
  have hpublished : s.store = st.publishCore core →
      (s.store.dir core.id).core = .present core := by
    intro hstore
    rw [hstore]
    exact core_publishCore_self hadm.absent
  cases hrec with
  | absent hstore hintent hquiet =>
    have habsent : (s.store.dir core.id).core = .absent := by rw [hstore]; exact hadm.absent
    have hload := Store.loadCore_of_absent hadm.cardId habsent
    rcases hintent with hnone | ⟨writer, hsome⟩
    · obtain ⟨t, hrun, hcore⟩ :=
        @createCore_returns env core digest actor s st none hadm hstore fun h => by cases h
      refine ⟨true, t, ?_, hcore⟩
      have hgovern : (governExplicit env {} core digest actor).run s = (.ok (), s) := by
        unfold governExplicit
        rw [run_get_bind, hstore, hadm.governed]
        rfl
      rw [run_createExplicit hadm.cardId hadm.digest hquiet.2 hload (readPendingIntent_none hnone)]
      unfold answerExplicit
      dsimp only
      rw [run_bind_of_ok hgovern]
      exact hrun
    · obtain ⟨t, hrun, hcore⟩ :=
        @createCore_returns env core digest actor s st (some (pendingIntent env core digest writer))
          hadm hstore fun _ => ⟨writer, hsome⟩
      refine ⟨true, t, ?_, hcore⟩
      rw [run_createExplicit hadm.cardId hadm.digest hquiet.2 hload
        (readPendingIntent_intent hadm.digest hsome)]
      unfold answerExplicit
      dsimp only
      rw [if_neg (by simp [pendingIntent])]
      exact hrun
  | published hstore hintent hquiet =>
    have hret : ((createExplicit env {} core digest actor).run s).1 = .ok false :=
      (published_recovers hadm rfl hstore hintent hquiet).2 rfl
    exact ⟨false, _, Prod.ext hret rfl, hlater.core (hpublished hstore)⟩
  | accepted hstore hintent writer hattempt =>
    exact ⟨false, s, accepted_replays hadm hstore hintent hattempt, hpublished hstore⟩

/-- A lost identifier is lost behind every further attempt. -/
theorem wedged_runAttempts (hid : validateCardLockIdentifier core.id = .ok core.id)
    (hdigest : isHex 64 digest = true) (hw : Wedged core s) :
    ∀ attempts : List Attempt, runAttempts env core digest attempts s = s
  | [] => rfl
  | a :: attempts => by
    obtain ⟨e, he⟩ := @wedged_raises env a.plan core digest a.actor s hid hdigest hw
    have hstep : runAttempts env core digest (a :: attempts) s =
        runAttempts env core digest attempts
          ((createExplicit env a.plan core digest a.actor).run s).2 := rfl
    rw [hstep, he]
    exact wedged_runAttempts hid hdigest hw attempts

/-- From any recoverable state: the identifier is recovered exactly when no attempt loses it. -/
theorem recovers_iff_of_recoverable {st : Store} (hadm : Admitted env core digest st) :
    ∀ (attempts : List Attempt) (s : CreationState), (∀ a ∈ attempts, a.plan.isWhole = true) →
      Recoverable env core digest st s →
      (Recovers env core digest actor (runAttempts env core digest attempts s) ↔
        ∀ before a after, attempts = before ++ a :: after →
          wedgesAt core (runAttempts env core digest before s) a.plan = false)
  | [], s, _, hrec => by
    refine ⟨fun _ before a after h => ?_, fun _ => recovers_of_recoverable hadm hrec⟩
    exact absurd h.symm (by simp)
  | a :: attempts, s, hwhole, hrec => by
    obtain ⟨hlost, hkept⟩ := @attempt_recovers env a.plan core digest a.actor s st hadm
      (hwhole a List.mem_cons_self) hrec
    have hstep : runAttempts env core digest (a :: attempts) s =
        runAttempts env core digest attempts
          ((createExplicit env a.plan core digest a.actor).run s).2 := rfl
    by_cases hw : wedgesAt core s a.plan = true
    · -- this attempt loses the identifier
      have hwedged := hlost hw
      constructor
      · rintro ⟨b, t, hrun, -⟩
        rw [hstep, wedged_runAttempts hadm.cardId hadm.digest hwedged] at hrun
        obtain ⟨e, he⟩ := @wedged_raises env {} core digest actor _ hadm.cardId hadm.digest hwedged
        rw [he] at hrun
        cases hrun
      · intro h
        have hfalse := h [] a attempts rfl
        rw [show runAttempts env core digest [] s = s from rfl, hw] at hfalse
        cases hfalse
    · have hw' : wedgesAt core s a.plan = false := by simpa using hw
      rw [hstep, recovers_iff_of_recoverable hadm attempts _
        (fun a' h => hwhole a' (List.mem_cons_of_mem _ h)) (hkept hw')]
      constructor
      · intro h before a' after heq
        cases before with
        | nil => cases heq; exact hw'
        | cons a₀ before =>
          obtain ⟨rfl, hrest⟩ := List.cons.inj heq
          exact h before a' after hrest
      · intro h before a' after heq
        exact h (a :: before) a' after (by rw [heq, List.cons_append])

/-- **Recovery, exactly.**  Of a fresh identifier and a request that the governor admits, after any
sequence of attempts whose steps fail before or after they take effect or whose process dies
between them: a further attempt without faults returns and `core.json` holds the requested core if
and only if no attempt lost the identifier, that is, at no state without the core a step failed with
an error that ran the `except` clause, and the clause appended a rejection although the acceptance
was there or for a reason that does not read as an input/output abort, or cleared the intent of a
core that had no acceptance. -/
theorem recovers_iff (hadm : Admitted env core digest s.store)
    (hpending : Assoc.get? s.pending core.id = none) (hquiet : s.ledger.Quiet core.id)
    (attempts : List Attempt) (hwhole : ∀ a ∈ attempts, a.plan.isWhole = true) :
    Recovers env core digest actor (runAttempts env core digest attempts s) ↔
      ∀ before a after, attempts = before ++ a :: after →
        wedgesAt core (runAttempts env core digest before s) a.plan = false :=
  recovers_iff_of_recoverable hadm attempts s hwhole (.absent rfl (.inl hpending) hquiet)

/-- Publication of the core fails with an error that does not read as an input/output abort. -/
def publishFails : Plan := { publish := .fails false (.os "[Errno 5] Input/output error") }

/-- After one attempt whose publication failed without effect the identifier is reserved by the
rejection of that attempt: no later attempt without faults returns. -/
theorem not_recovers : ¬ Recovers titledEnv titledCore titledDigest "maker"
    (runAttempts titledEnv titledCore titledDigest [⟨"maker", publishFails⟩] {}) := by
  rintro ⟨b, t, hrun, -⟩
  have hraise : ((createExplicit titledEnv {} titledCore titledDigest "maker").run
      (runAttempts titledEnv titledCore titledDigest [⟨"maker", publishFails⟩] {})).1 =
        .error (reservedByRejection "c1") := rfl
  rw [hrun] at hraise
  cases hraise

/-- An attempt whose publication fails for lack of space does not lose the identifier. -/
theorem recovers_iff_titled :
    Recovers titledEnv titledCore titledDigest "maker"
        (runAttempts titledEnv titledCore titledDigest
          [⟨"maker", { publish := .fails false (.os "[Errno 28] No space left on device") }⟩] {}) ↔
      ∀ before a after,
        [⟨"maker", { publish := .fails false (.os "[Errno 28] No space left on device") }⟩] =
          before ++ a :: after →
        wedgesAt titledCore (runAttempts titledEnv titledCore titledDigest before {}) a.plan =
          false :=
  @recovers_iff titledEnv titledCore titledDigest "maker" {} ⟨rfl, rfl, rfl, rfl⟩ rfl ⟨rfl, rfl⟩
    [⟨"maker", { publish := .fails false (.os "[Errno 28] No space left on device") }⟩]
    (by intro a ha; rw [List.mem_singleton.mp ha]; rfl)

end SkCoord
