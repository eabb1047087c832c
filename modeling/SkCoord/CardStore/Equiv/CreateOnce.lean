import SkCoord.CardStore.Equiv.Attempts

/-!
# An identifier is bound once

`CreationState.Later`: what is in `core.json` stays there and the ledger is only extended.  Every
call keeps it, whatever befalls its steps (`later_run`, `later_runCalls`).  A `createExplicit` that
returned leaves a core that answers the request and a ledger that binds the identifier to its
digest (`bound_of_createExplicit`), and both stay in every later state: `bound_once`.
-/

namespace SkCoord

open Python Python.Effect

variable {env : CreationEnv} {plan : Plan} {core : CardCore} {digest actor : String}
  {s s₀ t : CreationState}

/-! ### What no call undoes -/

/-- Cores stay and the ledger is extended. -/
structure CreationState.Later (s t : CreationState) : Prop where
  core : ∀ {cardId : String} {c : CardCore},
    (s.store.dir cardId).core = .present c → (t.store.dir cardId).core = .present c
  ledger : s.ledger.Extends t.ledger

theorem CreationState.Later.refl (s : CreationState) : s.Later s :=
  ⟨fun h => h, Ledger.Extends.refl _⟩

/-- An exclusive write spares the cores that are there. -/
theorem core_publishCore {st : Store} {cardId : String} {c : CardCore}
    (h : (st.dir cardId).core = .present c) :
    ((st.publishCore core).dir cardId).core = .present c := by
  unfold Store.publishCore
  split
  · exact h
  · rename_i hcore
    by_cases hid : cardId = core.id
    · rw [hid] at h
      rw [h] at hcore
      exact absurd rfl hcore
    · rw [Store.dir_setCore_of_ne _ hid]
      exact h

theorem core_tearCore {st : Store} {cardId : String} {c : CardCore} (full : Bool)
    (h : (st.dir cardId).core = .present c) :
    ((st.tearCore core full).dir cardId).core = .present c := by
  unfold Store.tearCore
  split
  · exact h
  · rename_i hcore
    have hid : cardId ≠ core.id := by
      intro hid
      rw [hid] at h
      rw [h] at hcore
      exact hcore rfl
    split
    · rw [Store.dir_setCore_of_ne _ hid]
      exact h
    · unfold Store.dir at h ⊢
      rw [Assoc.get?_set_ne _ _ hid]
      exact h

theorem keeps_recoveryStep {I : CreationState → Prop} {f : StepFault} {msg : String}
    {whole : CreationState → CreationState} {part : Bool → CreationState → CreationState}
    (hw : ∀ s, I s → I (whole s)) (hp : ∀ full s, I s → I (part full s)) :
    Keeps I (recoveryStep f msg whole part) := by
  rw [recoveryStep_eq_io]
  exact keeps_io hw hp

/-- What no step of an explicit creation of `core` undoes. -/
structure CreationState.Stable (core : CardCore) (I : CreationState → Prop) : Prop where
  pending : ∀ {s : CreationState} (p : Assoc String PendingFile), I s → I { s with pending := p }
  append : ∀ {s : CreationState} (r : AttemptRecord),
    I s → I { s with ledger := s.ledger.append r }
  tear : ∀ {s : CreationState} (full : Bool) (r : AttemptRecord),
    I s → I { s with ledger := s.ledger.tear full r }
  publish : ∀ {s : CreationState}, I s → I { s with store := s.store.publishCore core }

theorem CreationState.stable_later (s₀ : CreationState) : Stable core s₀.Later where
  pending _ hs := ⟨hs.core, hs.ledger⟩
  append _ hs := ⟨hs.core, hs.ledger.trans (Ledger.extends_append _ _)⟩
  tear _ _ hs := ⟨hs.core, hs.ledger.trans (Ledger.extends_tear _ _ _)⟩
  publish hs := ⟨fun h => core_publishCore (hs.core h), hs.ledger⟩

theorem keeps_ensureCardLockAnchor {I : CreationState → Prop} {f : Fault} {cardId : String} :
    Keeps I (ensureCardLockAnchor f cardId) := by
  unfold ensureCardLockAnchor
  refine keeps_get.bind fun s => (keeps_lift _).bind fun c => ?_
  split
  · exact keeps_raise _
  · split
    · exact keeps_io (fun _ hs => hs) fun _ _ hs => hs
    · exact keeps_raise _

section

variable {I : CreationState → Prop} (hI : CreationState.Stable core I)

include hI

theorem keeps_clearPendingIntent {f : StepFault} {cardId : String} :
    Keeps I (clearPendingIntent f cardId) :=
  keeps_recoveryStep (fun _ hs => hI.pending _ hs) fun _ _ hs => hs

theorem keeps_writePendingIntent {f : StepFault} {p : PendingIntent} :
    Keeps I (writePendingIntent f p) :=
  keeps_recoveryStep (fun _ hs => hI.pending _ hs) fun _ _ hs => hs

theorem keeps_appendCreationAttempt {f : StepFault} {r : AttemptRecord} :
    Keeps I (appendCreationAttempt f r) :=
  keeps_recoveryStep (fun _ hs => hI.append _ hs) fun _ _ hs => hI.tear _ _ hs

theorem keeps_publishExplicitCore {f : Fault} : Keeps I (publishExplicitCore f core) :=
  keeps_io (fun _ hs => hI.publish hs) fun _ _ hs => hs

theorem keeps_rejectExplicit {cardId reason semanticDigest : String} :
    Keeps I (rejectExplicit plan cardId digest actor reason semanticDigest) :=
  ((keeps_clearPendingIntent hI).tryExcept fun _ => keeps_pure _).bind fun _ =>
    keeps_appendCreationAttempt hI

theorem keeps_governExplicit : Keeps I (governExplicit env plan core digest actor) := by
  unfold governExplicit
  refine keeps_get.bind fun s => ?_
  split
  · exact keeps_pure _
  · exact (keeps_rejectExplicit hI).bind fun _ => keeps_raise _
  · exact keeps_raise _

theorem keeps_publishSteps {pending : Option PendingIntent} :
    Keeps I (publishSteps env plan core digest actor pending) := by
  unfold publishSteps
  refine Keeps.bind ?_ fun _ => (keeps_publishExplicitCore hI).bind fun _ =>
    (keeps_appendCreationAttempt hI).bind fun _ => keeps_clearPendingIntent hI
  split
  · exact keeps_writePendingIntent hI
  · exact keeps_pure _

theorem keeps_publishFailed {e : PyError} :
    Keeps I (publishFailed env plan core digest actor e) :=
  ((keeps_rejectExplicit hI).tryExcept fun _ => keeps_clearPendingIntent hI).bind fun _ =>
    keeps_raise _

theorem keeps_createCore {pending : Option PendingIntent} :
    Keeps I (createCore env plan core digest actor pending) :=
  ((keeps_publishSteps hI).tryExcept fun _ => keeps_publishFailed hI).bind fun _ =>
    keeps_ensureCardLockAnchor.bind fun _ => keeps_pure _

theorem keeps_answerExplicit {attempt : Option AttemptRecord} {existing : Option CardCore}
    {pending : Option PendingIntent} :
    Keeps I (answerExplicit env plan core digest actor attempt existing pending) := by
  unfold answerExplicit
  split
  · split
    · exact keeps_raise _
    · exact (keeps_lift _).bind fun _ => keeps_pure _
  · split
    · split
      · exact keeps_raise _
      · split
        · split
          · exact keeps_raise _
          · exact (keeps_appendCreationAttempt hI).bind fun _ =>
              (keeps_clearPendingIntent hI).bind fun _ => keeps_pure _
        · exact keeps_createCore hI
    · split
      · exact keeps_raise _
      · exact (keeps_governExplicit hI).bind fun _ => keeps_createCore hI

/-- **An explicit creation** undoes nothing stable, whatever befalls its steps. -/
theorem keeps_createExplicit : Keeps I (createExplicit env plan core digest actor) := by
  unfold createExplicit
  exact (keeps_lift _).bind fun _ => (keeps_lift _).bind fun _ => keeps_get.bind fun s =>
    (keeps_lift _).bind fun attempt => (keeps_lift _).bind fun existing =>
    (keeps_lift _).bind fun pending => keeps_answerExplicit hI

theorem keeps_reserveExplicitRejection {cardId reason : String} :
    Keeps I (reserveExplicitRejection plan cardId digest actor reason) := by
  unfold reserveExplicitRejection
  refine (keeps_lift _).bind fun _ => keeps_get.bind fun s => (keeps_lift _).bind fun attempt =>
    (keeps_lift _).bind fun existing => ?_
  split
  · exact keeps_pure _
  · split
    · exact keeps_rejectExplicit hI
    · exact keeps_pure _

end

theorem keeps_create {f anchor : Fault} : Keeps s₀.Later (create env f anchor core) := by
  unfold create
  refine keeps_get.bind fun s => (keeps_lift _).bind fun _ => (keeps_lift _).bind fun _ =>
    (keeps_lift _).bind fun existing => ?_
  split
  · exact keeps_pure _
  · refine (keeps_lift _).bind fun _ => Keeps.bind ?_ fun _ =>
      keeps_ensureCardLockAnchor.bind fun _ => keeps_pure _
    exact keeps_io (fun _ hs => ⟨fun h => core_publishCore (hs.core h), hs.ledger⟩)
      fun full _ hs => ⟨fun h => core_tearCore full (hs.core h), hs.ledger⟩

/-- **One call** keeps the cores and extends the ledger, whatever befalls its steps. -/
theorem later_run (hs : s₀.Later s) (call : CreationCall) : s₀.Later (call.run env s) := by
  cases call with
  | createExplicit plan core digest actor => exact keeps_createExplicit (CreationState.stable_later _) s hs
  | create f anchor core => exact keeps_create s hs
  | reserveExplicitRejection plan cardId digest actor reason =>
    -- no core is published, so any will do
    exact keeps_reserveExplicitRejection
      (@CreationState.stable_later { id := cardId, title := "", createdAt := "" } _) s hs

/-- **Any sequence of calls** keeps the cores and extends the ledger. -/
theorem later_runCalls (calls : List CreationCall) (s : CreationState) :
    s.Later (runCalls env calls s) := by
  have hrun : ∀ (calls : List CreationCall) (t : CreationState), s.Later t →
      s.Later (runCalls env calls t) := by
    intro calls
    induction calls with
    | nil => intro t ht; exact ht
    | cons call calls ih => intro t ht; exact ih _ (later_run ht call)
  exact hrun calls s (.refl s)

/-! ### A call that returns -/

theorem recoveryStep_eq_ok {f : StepFault} {msg : String} {whole : CreationState → CreationState}
    {part : Bool → CreationState → CreationState} {u : Unit}
    (h : (recoveryStep f msg whole part).run s = (.ok u, t)) : t = whole s := by
  rw [recoveryStep_eq_io] at h
  exact run_io_eq_ok h

theorem publishExplicitCore_eq_ok {f : Fault} {u : Unit}
    (h : (publishExplicitCore f core).run s = (.ok u, t)) :
    t = { s with store := s.store.publishCore core } :=
  run_io_eq_ok h

/-- A creation whose steps all return has published the core and appended the acceptance. -/
theorem publishSteps_eq_ok {pending : Option PendingIntent} {u : Unit}
    (h : (publishSteps env plan core digest actor pending).run s = (.ok u, t)) :
    t.store = s.store.publishCore core ∧
      t.ledger = s.ledger.append (acceptedRecord env core digest actor) := by
  unfold publishSteps at h
  obtain ⟨_, s₁, h₁, h⟩ := run_bind_eq_ok.mp h
  obtain ⟨_, s₂, h₂, h⟩ := run_bind_eq_ok.mp h
  obtain ⟨_, s₃, h₃, h₄⟩ := run_bind_eq_ok.mp h
  have hs₁ : s₁.store = s.store ∧ s₁.ledger = s.ledger := by
    split at h₁
    · rw [recoveryStep_eq_ok h₁]
      exact ⟨rfl, rfl⟩
    · cases h₁
      exact ⟨rfl, rfl⟩
  rw [recoveryStep_eq_ok h₄, recoveryStep_eq_ok h₃, publishExplicitCore_eq_ok h₂]
  exact ⟨congrArg (Store.publishCore · core) hs₁.1,
    congrArg (Ledger.append · (acceptedRecord env core digest actor)) hs₁.2⟩

/-- The `except` clause raises. -/
theorem publishFailed_ne_ok {e : PyError} {u : Unit} :
    (publishFailed env plan core digest actor e).run s ≠ (.ok u, t) := by
  intro h
  obtain ⟨_, _, _, h⟩ := run_bind_eq_ok.mp h
  cases h

theorem ensureCardLockAnchor_eq_ok {f : Fault} {cardId : String} {u : Unit}
    (h : (ensureCardLockAnchor f cardId).run s = (.ok u, t)) : t = s := by
  unfold ensureCardLockAnchor at h
  rw [run_get_bind] at h
  obtain ⟨c?, -, h⟩ := run_lift_bind_eq_ok.mp h
  cases c? with
  | none => cases h
  | some c =>
    dsimp only at h
    split_ifs at h
    · exact run_io_eq_ok h
    · cases h

theorem createCore_eq_ok {pending : Option PendingIntent} {b : Bool}
    (h : (createCore env plan core digest actor pending).run s = (.ok b, t)) :
    t.store = s.store.publishCore core ∧
      t.ledger = s.ledger.append (acceptedRecord env core digest actor) := by
  unfold createCore at h
  obtain ⟨_, s₁, h₁, h⟩ := run_bind_eq_ok.mp h
  obtain ⟨_, s₂, h₂, h⟩ := run_bind_eq_ok.mp h
  cases h
  obtain rfl := ensureCardLockAnchor_eq_ok h₂
  rw [run_tryExcept] at h₁
  split at h₁
  · rename_i hsteps
    cases h₁
    exact publishSteps_eq_ok hsteps
  · cases h₁
  · exact absurd h₁ publishFailed_ne_ok

theorem governExplicit_eq_ok {u : Unit}
    (h : (governExplicit env plan core digest actor).run s = (.ok u, t)) : t = s := by
  unfold governExplicit at h
  rw [run_get_bind] at h
  split at h
  · cases h; rfl
  · obtain ⟨_, _, _, h⟩ := run_bind_eq_ok.mp h
    cases h
  · cases h

/-- An answer that returned replayed an acceptance, completed a pending creation, or created the
core. -/
theorem answerExplicit_eq_ok {attempt : Option AttemptRecord} {existing : Option CardCore}
    {pending : Option PendingIntent} {b : Bool}
    (h : (answerExplicit env plan core digest actor attempt existing pending).run s =
      (.ok b, t)) :
    (∃ a, attempt = some a ∧ a.outcome = .accepted ∧
        requireReplay env core digest a existing = .ok () ∧ t = s) ∨
      (attempt = none ∧ t.ledger = s.ledger.append (acceptedRecord env core digest actor) ∧
        ((∃ stored, existing = some stored ∧
            semanticDigestFor env stored = semanticDigestFor env core ∧ t.store = s.store) ∨
          (existing = none ∧ t.store = s.store.publishCore core))) := by
  unfold answerExplicit at h
  split at h
  · rename_i a
    left
    split at h
    · cases h
    · rename_i hout
      obtain ⟨_, hreplay, h⟩ := run_lift_bind_eq_ok.mp h
      cases h
      exact ⟨a, rfl, hout, hreplay, rfl⟩
  · right
    refine ⟨rfl, ?_⟩
    split at h
    · split at h
      · cases h
      · split at h
        · rename_i stored
          split at h
          · cases h
          · -- a pending creation that has published its core
            rename_i hsem
            obtain ⟨_, s₁, h₁, h⟩ := run_bind_eq_ok.mp h
            obtain ⟨_, s₂, h₂, h⟩ := run_bind_eq_ok.mp h
            cases h
            rw [recoveryStep_eq_ok h₂, recoveryStep_eq_ok h₁]
            exact ⟨rfl, .inl ⟨stored, rfl, not_not.mp hsem, rfl⟩⟩
        · obtain ⟨hstore, hledger⟩ := createCore_eq_ok h
          exact ⟨hledger, .inr ⟨rfl, hstore⟩⟩
    · split at h
      · cases h
      · obtain ⟨_, s₁, h₁, h⟩ := run_bind_eq_ok.mp h
        rw [governExplicit_eq_ok h₁] at h
        obtain ⟨hstore, hledger⟩ := createCore_eq_ok h
        exact ⟨hledger, .inr ⟨rfl, hstore⟩⟩

/-- A call that returned has read the ledger, the core and the intent, and answered. -/
theorem createExplicit_eq_ok {b : Bool}
    (h : (createExplicit env plan core digest actor).run s = (.ok b, t)) :
    ∃ attempt existing pending, attemptFor s.ledger core.id = .ok attempt ∧
      s.store.loadCore core.id = .ok existing ∧
      (answerExplicit env plan core digest actor attempt existing pending).run s = (.ok b, t) := by
  unfold createExplicit at h
  obtain ⟨_, -, h⟩ := run_lift_bind_eq_ok.mp h
  obtain ⟨_, -, h⟩ := run_lift_bind_eq_ok.mp h
  rw [run_get_bind] at h
  obtain ⟨attempt, hattempt, h⟩ := run_lift_bind_eq_ok.mp h
  obtain ⟨existing, hexisting, h⟩ := run_lift_bind_eq_ok.mp h
  obtain ⟨pending, -, h⟩ := run_lift_bind_eq_ok.mp h
  exact ⟨attempt, existing, pending, hattempt, hexisting, h⟩

theorem requireReplay_eq_ok {a : AttemptRecord} {existing : Option CardCore}
    (h : requireReplay env core digest a existing = .ok ()) :
    ∃ stored, existing = some stored ∧ a.requestDigest = digest ∧
      semanticEq stored core = true := by
  unfold requireReplay at h
  split at h
  · cases h
  · rename_i stored
    split_ifs at h with hledger hdig hsem
    exact ⟨stored, rfl, not_not.mp hdig, by simpa using hsem⟩

/-! ### The identifier is bound -/

/-- Two cores are the same to the creation of cards: their dumps are equal up to the timestamp, or
they have one semantic digest. -/
def SameSemantics (env : CreationEnv) (a b : CardCore) : Prop :=
  semanticEq a b = true ∨ semanticDigestFor env a = semanticDigestFor env b

/-- A core that is published where there was none. -/
theorem core_publishCore_self {st : Store} (h : (st.dir core.id).core = .absent) :
    ((st.publishCore core).dir core.id).core = .present core := by
  unfold Store.publishCore
  rw [h]
  show ((st.setCore core).dir core.id).core = .present core
  rw [Store.dir_setCore_self]

/-- **A call that returned** leaves a core that answers the request, and a ledger that binds the
identifier to the digest of the request. -/
theorem bound_of_createExplicit {b : Bool}
    (h : (createExplicit env plan core digest actor).run s = (.ok b, t)) :
    ∃ stored, (t.store.dir core.id).core = .present stored ∧ SameSemantics env stored core ∧
      t.ledger.Binds core.id digest := by
  obtain ⟨attempt, existing, pending, hattempt, hexisting, h⟩ := createExplicit_eq_ok h
  rcases answerExplicit_eq_ok h with ⟨a, rfl, hout, hreplay, rfl⟩ | ⟨rfl, hledger, hcore⟩
  · obtain ⟨stored, rfl, hdig, hsem⟩ := requireReplay_eq_ok hreplay
    refine ⟨stored, Store.loadCore_eq_some hexisting, .inl hsem, ?_⟩
    obtain ⟨records, rest, hread, hfirst, -⟩ := attemptFor_eq_some_iff.mp hattempt
    intro records' hread'
    rw [hread] at hread'
    cases hread'
    exact ⟨a, rest, hfirst, hout, hdig⟩
  · have hbinds : t.ledger.Binds core.id digest := by
      rw [hledger]
      exact @binds_append s.ledger (acceptedRecord env core digest actor) hattempt rfl
    rcases hcore with ⟨stored, rfl, hsem, hstore⟩ | ⟨rfl, hstore⟩
    · exact ⟨stored, by rw [hstore]; exact Store.loadCore_eq_some hexisting, .inr hsem, hbinds⟩
    · refine ⟨core, ?_, .inr rfl, hbinds⟩
      rw [hstore]
      exact core_publishCore_self (Store.loadCore_eq_none hexisting)

/-- A call that returned for a bound identifier asked for the same digest and for the core that is
stored. -/
theorem createExplicit_of_binds {bound : String} {stored : CardCore} {b : Bool}
    (hbinds : s.ledger.Binds core.id bound) (hcore : (s.store.dir core.id).core = .present stored)
    (h : (createExplicit env plan core digest actor).run s = (.ok b, t)) :
    digest = bound ∧ semanticEq stored core = true := by
  obtain ⟨attempt, existing, pending, hattempt, hexisting, h⟩ := createExplicit_eq_ok h
  obtain ⟨first, hfirst, -, hdig⟩ := hbinds.attemptFor hattempt
  rcases answerExplicit_eq_ok h with ⟨a, ha, -, hreplay, -⟩ | ⟨hnone, -⟩
  · obtain ⟨stored', rfl, hdig', hsem⟩ := requireReplay_eq_ok hreplay
    have hstored := Store.loadCore_eq_some hexisting
    rw [hcore] at hstored
    cases hstored
    rw [hfirst] at ha
    cases ha
    exact ⟨hdig'.symm.trans hdig, hsem⟩
  · rw [hnone] at hfirst
    cases hfirst

/-- **An identifier is bound once.**  Once a `createExplicit` has returned, the core that it left
answers its request and is in `core.json` after every sequence of calls, with faults, torn writes
and deaths of the process among their steps; and no later `createExplicit` for the identifier
returns unless it has the same digest and a core semantically equal to the stored one. -/
theorem bound_once {b : Bool} (h : (createExplicit env plan core digest actor).run s = (.ok b, t)) :
    ∃ stored, SameSemantics env stored core ∧ ∀ calls : List CreationCall,
      ((runCalls env calls t).store.dir core.id).core = .present stored ∧
      ∀ (plan' : Plan) (core' : CardCore) (digest' actor' : String) (b' : Bool)
        (u : CreationState), core'.id = core.id →
        (createExplicit env plan' core' digest' actor').run (runCalls env calls t) = (.ok b', u) →
        digest' = digest ∧ semanticEq stored core' = true := by
  obtain ⟨stored, hcore, hsem, hbinds⟩ := bound_of_createExplicit h
  refine ⟨stored, hsem, fun calls => ?_⟩
  have hlater : t.Later (runCalls env calls t) := later_runCalls calls t
  refine ⟨hlater.core hcore, ?_⟩
  intro plan' core' digest' actor' b' u hid h'
  refine createExplicit_of_binds ?_ ?_ h'
  · rw [hid]
    exact hbinds.mono hlater.ledger
  · rw [hid]
    exact hlater.core hcore

/-- A core with nothing but a title. -/
def titledCore : CardCore := { id := "c1", title := "t", createdAt := "2026-01-01T00:00:00+00:00" }

/-- The environment of `titledCore`, with a governor that has nothing to say against it and no
authorized replacement. -/
def titledEnv : CreationEnv where
  env := { hostname := "host", writeEnabled := true, lineHash := fun _ => "", repr := fun _ => "" }
  explicitSemanticDigest := fun _ =>
    "d3693dcb41e5212aab69e24e9f2b4849472c3939d6e93a4b7835189ce7c1aedc"
  isHex_explicitSemanticDigest := fun _ => rfl
  governReview := fun _ _ => .ok ()
  authorizedPredecessor := fun _ _ _ _ =>
    .error (.value "review replacement operator authorization invalid")
  cores_of_authorizedPredecessor := fun _ _ _ _ _ h => by cases h

/-- The digest of a request. -/
def titledDigest : String := "0123456789abcdef0123456789abcdef0123456789abcdef0123456789abcdef"

/-- The first `createExplicit` of `titledCore` returns and binds `c1`. -/
theorem bound_once_titled :
    ∃ t, (createExplicit titledEnv {} titledCore titledDigest "maker").run {} = (.ok true, t) ∧
    ∃ stored, SameSemantics titledEnv stored titledCore ∧ ∀ calls : List CreationCall,
      ((runCalls titledEnv calls t).store.dir "c1").core = .present stored ∧
      ∀ (plan' : Plan) (core' : CardCore) (digest' actor' : String) (b' : Bool)
        (u : CreationState), core'.id = "c1" →
        (createExplicit titledEnv plan' core' digest' actor').run (runCalls titledEnv calls t) =
          (.ok b', u) →
        digest' = titledDigest ∧ semanticEq stored core' = true :=
  ⟨_, rfl, @bound_once titledEnv {} titledCore titledDigest "maker" {} _ true rfl⟩

end SkCoord
