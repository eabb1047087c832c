import SkCoord.Itil.Equiv.StatusEvent
import SkCoord.Itil.Equiv.Votes

/-!
# What an update does follows the fold

`effects_follow_fold`: an update of a change does nothing outside that does not go with the status
that the change is folded to.  An update of a problem completes the GTD items of a problem that is
not resolved exactly when it was not analysed before, and an update of an incident those of one that
is open exactly when a later event reopened it.
-/

namespace SkCoord.Itil

open Python

variable {env : Env} {core : Dict} {e : RecordEvent} {events p q : List RecordEvent}

/-! ### The status of a problem -/

/-- An event that asks for a status. -/
def isStatus (e : RecordEvent) : Bool := (e.get "kind").pyEq (.str "status")

/-- The status behind an event. -/
def ProblemStatus.turn (c : ProblemStatus) (e : RecordEvent) : ProblemStatus :=
  if isStatus e then (c.allowed (e.get "to")).toOption.join.getD c else c

/-- Whether a status is looked up does not depend on the one before it. -/
theorem ProblemStatus.allowed_eq (c : ProblemStatus) (target : Json) :
    c.allowed target = target.requireHashable.map fun _ =>
      match target with
      | .str s => (ofValue? s).filter fun c' => c' ∈ c.transitions
      | _ => none := by
  unfold ProblemStatus.allowed
  cases target.requireHashable with
  | error err => rfl
  | ok a => cases target <;> rfl

namespace ProblemState

/-- The variables with another status and timeline. -/
def reset (s : ProblemState) (c : ProblemStatus) (timeline : List Dict) : ProblemState :=
  { s with status := c, timeline := timeline }

/-- A status event does nothing else. -/
theorem foldStatus_reset (env : Env) (s : ProblemState) (c : ProblemStatus) (timeline : List Dict)
    {e : RecordEvent} (h : isStatus e = true) :
    ∃ timeline', (s.reset c timeline).foldStatus env e =
      (e.get "to").requireHashable.map fun _ => s.reset (c.turn e) timeline' := by
  have hlookup := c.allowed_eq (e.get "to")
  unfold foldStatus ProblemStatus.turn
  rw [if_pos h]
  show ∃ timeline', (c.allowed (e.get "to") >>= _) = _
  rw [hlookup]
  cases (e.get "to").requireHashable with
  | error err => exact ⟨timeline, rfl⟩
  | ok a =>
    simp only [Except.map, ok_bind]
    cases (match e.get "to" with
      | .str s => (ProblemStatus.ofValue? s).filter fun c' => c' ∈ c.transitions
      | _ => none : Option ProblemStatus) with
    | none => exact ⟨_, rfl⟩
    | some c' => exact ⟨_, rfl⟩

/-- **One event** does to the other variables the same whatever the status and the timeline are. -/
theorem step_reset (env : Env) (s : ProblemState) (c : ProblemStatus) (timeline : List Dict)
    (e : RecordEvent) :
    ∃ timeline', (s.reset c timeline).step env e =
      (s.step env e).map (·.reset (c.turn e) timeline') := by
  by_cases hstatus : isStatus e = true
  · have hkind := (Json.pyEq_str_right_iff _ _).mp hstatus
    obtain ⟨timeline', h⟩ := foldStatus_reset env s c timeline hstatus
    obtain ⟨timeline'', h'⟩ := foldStatus_reset env s s.status s.timeline hstatus
    have hsame : s.reset s.status s.timeline = s := rfl
    rw [hsame] at h'
    refine ⟨timeline', ?_⟩
    -- Both sides are the status branch, and it reads nothing else of the state.
    have hstep : ∀ s : ProblemState, s.step env e = s.foldStatus env e := by
      intro s
      unfold step
      rw [hkind]
      rfl
    rw [hstep, hstep, h, h']
    cases (e.get "to").requireHashable <;> rfl
  · -- Any other event leaves the status alone, and each branch touches variables of its own.
    have hturn : c.turn e = c := if_neg hstatus
    rw [hturn]
    unfold step
    split
    case h_2 hkind => exact absurd (by rw [isStatus, hkind]; rfl) hstatus
    case h_1 =>
      unfold foldCreated
      by_cases hseen : s.seenCreated = true
      · rw [if_pos hseen, if_pos (show (s.reset c timeline).seenCreated = true from hseen)]
        exact ⟨timeline, rfl⟩
      · rw [if_neg hseen, if_neg (show ¬(s.reset c timeline).seenCreated = true from hseen)]
        exact ⟨_, rfl⟩
    case h_3 => unfold foldRootCause; split <;> exact ⟨timeline, rfl⟩
    case h_4 => unfold foldWorkaround; split <;> exact ⟨timeline, rfl⟩
    case h_5 => unfold foldLinkKedb; split <;> exact ⟨timeline, rfl⟩
    case h_6 => unfold foldLinkChange; split <;> exact ⟨timeline, rfl⟩
    case h_7 => unfold foldTitle; dsimp only; split <;> exact ⟨_, rfl⟩
    case h_8 =>
      unfold foldTags
      cases ((e.get "add").orElse (.arr [])).iter <;> exact ⟨timeline, rfl⟩
    case h_9 => unfold foldGtdLink; split <;> exact ⟨timeline, rfl⟩
    case h_10 => exact ⟨_, rfl⟩
    case h_11 => exact ⟨timeline, rfl⟩

/-- **A run** does so as well. -/
theorem run_reset (env : Env) : ∀ (events : List RecordEvent) (s : ProblemState)
    (c : ProblemStatus) (timeline : List Dict), ∃ timeline',
      events.foldlM (step env) (s.reset c timeline) =
        (events.foldlM (step env) s).map (·.reset (events.foldl ProblemStatus.turn c) timeline')
  | [], s, c, timeline => ⟨timeline, rfl⟩
  | e :: events, s, c, timeline => by
    obtain ⟨timeline₁, hstep⟩ := step_reset env s c timeline e
    rw [List.foldlM_cons, List.foldlM_cons, hstep]
    cases s.step env e with
    | error err => exact ⟨timeline, rfl⟩
    | ok s' => exact run_reset env events s' (c.turn e) timeline₁

end ProblemState

/-- Nothing but the status and the timeline of a problem goes by those of the variables. -/
theorem buildProblem_reset (env : Env) (core : Dict) (s : ProblemState) (c : ProblemStatus)
    (timeline : List Dict) :
    buildProblem env core (s.reset c timeline) =
      (buildProblem env core s).map fun p => { p with status := c, timeline := timeline } := by
  unfold buildProblem
  iterate 13 refine bind_map_congr fun _ => ?_
  rfl

/-- The status behind a run. -/
theorem ProblemState.status_run {s s' : ProblemState}
    (h : events.foldlM (ProblemState.step env) s = .ok s') :
    s'.status = events.foldl ProblemStatus.turn s.status := by
  obtain ⟨timeline, hrun⟩ := run_reset env events s s.status s.timeline
  have hsame : s.reset s.status s.timeline = s := rfl
  rw [hsame, h] at hrun
  exact congrArg ProblemState.status (Except.ok.inj hrun)

theorem initProblem_status {s : ProblemState} (h : initProblem core = .ok s) :
    s.status = .identified := by
  obtain ⟨tags, -, h⟩ := bind_eq_ok.mp h
  rw [← pure_eq_ok.mp h]

/-- The status of a folded problem. -/
theorem foldProblem_status {pr : Problem} (h : foldProblem env core events = .ok pr) :
    pr.status = events.foldl ProblemStatus.turn .identified := by
  obtain ⟨s, hs, h⟩ := bind_eq_ok.mp h
  obtain ⟨s', hs', hbuild⟩ := bind_eq_ok.mp h
  have hreset := buildProblem_reset env core s' s'.status s'.timeline
  have hsame : s'.reset s'.status s'.timeline = s' := rfl
  rw [hsame, hbuild] at hreset
  rw [← initProblem_status hs, ← ProblemState.status_run hs']
  exact congrArg Problem.status (Except.ok.inj hreset)

/-- **One more status event** changes nothing but the status and the timeline. -/
theorem foldProblem_insert (env : Env) (core : Dict) (p q : List RecordEvent) {newStatus : String}
    (he : IsStatusEvent newStatus e) :
    ∃ timeline, foldProblem env core (p ++ e :: q) = (foldProblem env core (p ++ q)).map fun pr =>
      { pr with
        status := (p ++ e :: q).foldl ProblemStatus.turn .identified
        timeline := timeline } := by
  have hstatus : isStatus e = true := by
    rw [isStatus, he.kind]
    rfl
  unfold foldProblem
  cases hs : initProblem core with
  | error err => exact ⟨[], rfl⟩
  | ok s =>
    simp only [ok_bind, List.foldlM_append]
    cases hp : p.foldlM (ProblemState.step env) s with
    | error err => exact ⟨[], rfl⟩
    | ok s' =>
      -- the event sets the status, and what comes behind it goes on from there
      obtain ⟨timeline, hevent⟩ :=
        ProblemState.foldStatus_reset env s' s'.status s'.timeline hstatus
      have hstep : s'.step env e = .ok (s'.reset (s'.status.turn e) timeline) := by
        have hsame : s'.reset s'.status s'.timeline = s' := rfl
        rw [hsame, he.target] at hevent
        unfold ProblemState.step
        rw [he.kind]
        exact hevent
      obtain ⟨timeline', hrun⟩ := ProblemState.run_reset env q s' (s'.status.turn e) timeline
      refine ⟨timeline', ?_⟩
      rw [ok_bind, ok_bind, List.foldlM_cons, hstep, ok_bind, hrun]
      cases q.foldlM (ProblemState.step env) s' with
      | error err => rfl
      | ok s'' =>
        rw [ok_bind, List.foldl_append, List.foldl_cons, ← initProblem_status hs,
          ← ProblemState.status_run hp]
        exact buildProblem_reset env core s'' _ timeline'

/-! ### Problems -/

/-- An event that starts the analysis of a problem. -/
def startsAnalysis (e : RecordEvent) : Bool :=
  isStatus e && (e.get "to").pyEq (.str "analyzing")

namespace ProblemStatus

variable {c : ProblemStatus}

theorem eq_value_of_ofValue? {t : String} (h : ofValue? t = some c) : t = c.value := by
  unfold ofValue? at h
  split at h <;> cases h <;> rfl

/-- A turn that is taken goes to a status of the table. -/
theorem turn_mem (h : c.turn e ≠ c) :
    c.turn e ∈ c.transitions ∧ isStatus e = true ∧ e.get "to" = .str (c.turn e).value := by
  unfold turn at h ⊢
  by_cases hstatus : isStatus e = true
  · rw [if_pos hstatus] at h ⊢
    rw [allowed_eq] at h ⊢
    cases htarget : e.get "to" with
    | str t =>
      rw [htarget] at h
      cases hvalue : (ofValue? t).filter fun c' => c' ∈ c.transitions with
      | none =>
        have hnone : (((Json.str t).requireHashable.map fun _ =>
            (ofValue? t).filter fun c' => c' ∈ c.transitions).toOption.join.getD c) = c := by
          rw [hvalue]
          rfl
        exact absurd hnone h
      | some c' =>
        obtain ⟨hof, hmem⟩ := Option.filter_eq_some_iff.mp hvalue
        have hsome : (((Json.str t).requireHashable.map fun _ =>
            some c').toOption.join.getD c) = c' := rfl
        dsimp only
        rw [hvalue, hsome]
        exact ⟨of_decide_eq_true hmem, hstatus, by rw [eq_value_of_ofValue? hof]⟩
    | _ =>
      rw [htarget] at h
      exact absurd rfl h
  · rw [if_neg hstatus] at h
    exact absurd rfl h

theorem turn_resolved (e : RecordEvent) : resolved.turn e = .resolved := by
  by_contra h
  exact absurd (turn_mem h).1 (by simp [transitions])

theorem turn_ne_identified (hc : c ≠ .identified) (e : RecordEvent) : c.turn e ≠ .identified := by
  intro h
  have hmem := (turn_mem (c := c) (e := e) (by rw [h]; exact hc.symm)).1
  rw [h] at hmem
  cases c <;> exact absurd hmem (by decide)

/-- Nothing but the start of the analysis leads out of `identified`. -/
theorem turn_identified_iff : identified.turn e ≠ .identified ↔ startsAnalysis e = true := by
  unfold startsAnalysis
  rw [Bool.and_eq_true, Json.pyEq_str_right_iff]
  constructor
  · intro h
    obtain ⟨hmem, hstatus, htarget⟩ := turn_mem h
    refine ⟨hstatus, ?_⟩
    rw [htarget, List.mem_singleton.mp hmem]
    rfl
  · rintro ⟨hstatus, htarget⟩
    unfold turn
    rw [if_pos hstatus, htarget]
    decide

/-- A call that asks to resolve a problem does, unless the problem is `identified`. -/
theorem turn_of_resolved (he : IsStatusEvent "resolved" e) :
    c.turn e = if c = .identified then .identified else .resolved := by
  have hstatus : isStatus e = true := by
    rw [isStatus, he.kind]
    rfl
  unfold turn
  rw [if_pos hstatus, he.target]
  cases c <;> rfl

theorem run_resolved : ∀ events : List RecordEvent, events.foldl turn .resolved = .resolved
  | [] => rfl
  | e :: events => by
    rw [List.foldl_cons, turn_resolved]
    exact run_resolved events

theorem run_ne_identified (hc : c ≠ .identified) :
    ∀ events : List RecordEvent, events.foldl turn c ≠ .identified := by
  intro events
  induction events generalizing c with
  | nil => exact hc
  | cons e events ih => exact ih (turn_ne_identified hc e)

/-- A problem is `identified` until its analysis starts. -/
theorem run_identified_iff : ∀ {events : List RecordEvent},
    events.foldl turn .identified ≠ .identified ↔ ∃ x ∈ events, startsAnalysis x = true
  | [] => by simp
  | e :: events => by
    rw [List.foldl_cons]
    by_cases he : startsAnalysis e = true
    · refine ⟨fun _ => ⟨e, List.mem_cons_self, he⟩, fun _ => ?_⟩
      exact run_ne_identified (turn_identified_iff.mpr he) events
    · have hturn : identified.turn e = .identified := by
        by_contra hne
        exact he (turn_identified_iff.mp hne)
      rw [hturn, run_identified_iff]
      refine exists_congr fun x => ⟨fun h => ⟨List.mem_cons_of_mem _ h.1, h.2⟩, fun h => ?_⟩
      rcases List.mem_cons.mp h.1 with rfl | hx
      · exact absurd h.2 he
      · exact ⟨hx, h.2⟩

/-- **A problem that a call asks to resolve is resolved** when it was analysed before or is resolved
anyway. -/
theorem run_insert_iff (he : IsStatusEvent "resolved" e) :
    (p ++ e :: q).foldl turn .identified = .resolved ↔
      (p ++ q).foldl turn .identified = .resolved ∨ ∃ x ∈ p, startsAnalysis x = true := by
  rw [← run_identified_iff, List.foldl_append, List.foldl_append, List.foldl_cons,
    turn_of_resolved he]
  by_cases hc : p.foldl turn .identified = .identified
  · rw [if_pos hc, hc]
    simp
  · rw [if_neg hc, run_resolved]
    exact ⟨fun _ => .inr hc, fun _ => rfl⟩

end ProblemStatus

/-! ### The status of an incident -/

/-- An event that reopens an incident. -/
def isReopen (e : RecordEvent) : Bool := (e.get "kind").pyEq (.str "reopen")

theorem isReopen_of_isStatus (h : isStatus e = true) : isReopen e = false := by
  rw [isReopen, (Json.pyEq_str_right_iff _ _).mp h]
  rfl

namespace IncidentStatus

/-- The status behind an event. -/
def turn (c : IncidentStatus) (e : RecordEvent) : IncidentStatus :=
  if isStatus e then (c.allowed (e.get "to")).toOption.join.getD c
  else if isReopen e && c == .resolved then .investigating
  else c

/-- Whether a status is looked up does not depend on the one before it. -/
theorem allowed_eq (c : IncidentStatus) (target : Json) :
    c.allowed target = target.requireHashable.map fun _ =>
      match target with
      | .str s => (ofValue? s).filter fun c' => c' ∈ c.transitions
      | _ => none := by
  unfold allowed
  cases target.requireHashable with
  | error err => rfl
  | ok a => cases target <;> rfl

end IncidentStatus

/-- The value is a text or absent. -/
def IsOptionalText (j : Json) : Prop := j = .null ∨ ∃ t, j = .str t

/-- The value of a field that is a text or absent. -/
def textOrNone : Json → Option String
  | .str t => some t
  | _ => none

theorem IsOptionalText.optionalTextOf {j : Json} (h : IsOptionalText j) (model field : String) :
    optionalTextOf model field j = .ok (textOrNone j) := by
  rcases h with rfl | ⟨t, rfl⟩ <;> rfl

namespace IncidentState

/-- The variables with the status of others, the timeline and what a status stamps. -/
def reset (s t : IncidentState) : IncidentState :=
  { s with
    status := t.status
    timeline := t.timeline
    acknowledgedAt := t.acknowledgedAt
    resolvedAt := t.resolvedAt
    closedAt := t.closedAt
    resolutionSummary := t.resolutionSummary }

/-- What a status stamps are texts. -/
structure HasTexts (t : IncidentState) : Prop where
  acknowledgedAt : IsOptionalText t.acknowledgedAt
  resolvedAt : IsOptionalText t.resolvedAt
  closedAt : IsOptionalText t.closedAt
  resolutionSummary : IsOptionalText t.resolutionSummary

theorem HasTexts.log {t : IncidentState} (h : t.HasTexts) (entry : Dict) : (t.log entry).HasTexts :=
  ⟨h.acknowledgedAt, h.resolvedAt, h.closedAt, h.resolutionSummary⟩

theorem IsLogged.isOptionalText_ts (h : IsLogged e) : IsOptionalText e.ts := by
  obtain ⟨t, ht⟩ := h.ts
  exact .inr ⟨t, ht⟩

/-- A stamp is a text when the one before and the new one are. -/
theorem isOptionalText_ite {test : Prop} [Decidable test] {x y : Json} (hx : IsOptionalText x)
    (hy : IsOptionalText y) : IsOptionalText (if test then x else y) := by
  split
  · exact hx
  · exact hy

theorem HasTexts.stamp {t : IncidentState} (h : t.HasTexts) (he : IsLogged e)
    (c : IncidentStatus) : (t.stamp e c).HasTexts := by
  have hts := IsLogged.isOptionalText_ts he
  cases c with
  | acknowledged =>
    exact ⟨isOptionalText_ite h.acknowledgedAt hts, h.resolvedAt, h.closedAt, h.resolutionSummary⟩
  | resolved =>
    exact ⟨h.acknowledgedAt, isOptionalText_ite h.resolvedAt hts, h.closedAt,
      isOptionalText_ite he.resolutionSummary h.resolutionSummary⟩
  | closed =>
    exact ⟨h.acknowledgedAt, h.resolvedAt, isOptionalText_ite h.closedAt hts, h.resolutionSummary⟩
  | _ => exact h

theorem status_stamp (t : IncidentState) (e : RecordEvent) (c : IncidentStatus) :
    (t.stamp e c).status = t.status := by
  cases c <;> rfl

theorem reset_stamp (s t : IncidentState) (e : RecordEvent) (c : IncidentStatus) :
    (s.reset t).stamp e c = s.reset (t.stamp e c) := by
  cases c <;> rfl

/-- Variables that come from others by an event with this status behind it. -/
structure Behind (t : IncidentState) (e : RecordEvent) (t' : IncidentState) : Prop where
  status : t'.status = t.status.turn e
  texts : IsLogged e → t.HasTexts → t'.HasTexts

/-- A status event does nothing else. -/
theorem foldStatus_reset (env : Env) (s t : IncidentState) (h : isStatus e = true) :
    ∃ t', t.Behind e t' ∧ (s.reset t).foldStatus env e =
      (e.get "to").requireHashable.map fun _ => s.reset t' := by
  have hlookup := t.status.allowed_eq (e.get "to")
  have hturn : t.status.turn e = (t.status.allowed (e.get "to")).toOption.join.getD t.status :=
    if_pos h
  unfold foldStatus
  show ∃ t', t.Behind e t' ∧ (t.status.allowed (e.get "to") >>= _) = _
  rw [hlookup] at hturn ⊢
  cases hhash : (e.get "to").requireHashable with
  | error err =>
    rw [hhash] at hturn
    exact ⟨t, ⟨hturn.symm, fun _ ht => ht⟩, rfl⟩
  | ok a =>
    rw [hhash] at hturn
    simp only [Except.map, ok_bind] at hturn ⊢
    cases htarget : (match e.get "to" with
      | .str s => (IncidentStatus.ofValue? s).filter fun c' => c' ∈ t.status.transitions
      | _ => none : Option IncidentStatus) with
    | none =>
      rw [htarget] at hturn
      exact ⟨t.log _, ⟨hturn.symm, fun _ ht => ht.log _⟩, rfl⟩
    | some c =>
      rw [htarget] at hturn
      refine ⟨({ t.log _ with status := c } : IncidentState).stamp e c,
        ⟨(status_stamp _ _ _).trans hturn.symm, fun he ht => ?_⟩,
        congrArg Except.ok (reset_stamp s { t.log _ with status := c } e c)⟩
      refine HasTexts.stamp (t := _) ?_ he c
      exact ⟨ht.acknowledgedAt, ht.resolvedAt, ht.closedAt, ht.resolutionSummary⟩

/-- The status behind an event of another kind is the one before it. -/
theorem turn_other (c : IncidentStatus) (hstatus : isStatus e = false)
    (hreopen : isReopen e = false) : c.turn e = c := by
  rw [IncidentStatus.turn, hstatus, hreopen]
  rfl

/-- An event of another kind may log something. -/
theorem Behind.log (t : IncidentState) (hstatus : isStatus e = false)
    (hreopen : isReopen e = false) (entry : Dict) : t.Behind e (t.log entry) :=
  ⟨(turn_other t.status hstatus hreopen).symm, fun _ ht => ht.log entry⟩

/-- An event of another kind may do nothing to the status and its stamps. -/
theorem Behind.same (t : IncidentState) (hstatus : isStatus e = false)
    (hreopen : isReopen e = false) : t.Behind e t :=
  ⟨(turn_other t.status hstatus hreopen).symm, fun _ ht => ht⟩

/-- A reopening does nothing else. -/
theorem foldReopen_reset (s t : IncidentState) (h : e.get "kind" = .str "reopen") :
    ∃ t', t.Behind e t' ∧ (s.reset t).foldReopen e = (s.foldReopen e).reset t' := by
  have hturn : t.status.turn e = if t.status == .resolved then .investigating else t.status := by
    unfold IncidentStatus.turn isStatus isReopen
    rw [h]
    rfl
  have hother : ∀ u : IncidentState, (s.foldReopen e).reset u = s.reset u := by
    intro u
    unfold foldReopen
    split <;> rfl
  refine ⟨t.foldReopen e, ⟨?_, fun _ ht => ?_⟩, ?_⟩
  · rw [hturn]
    unfold foldReopen
    split <;> rfl
  · unfold foldReopen
    split
    · exact ⟨ht.acknowledgedAt, .inl rfl, ht.closedAt, .inl rfl⟩
    · exact ht.log _
  · rw [hother]
    unfold foldReopen
    show (if t.status == .resolved then _ else _) = _
    split <;> rfl

/-- **One event** does to the other variables the same whatever the status and its stamps are: the
status and the reopening branch write these variables only, and the other twelve do not read
them. -/
theorem step_reset (env : Env) (s t : IncidentState) (e : RecordEvent) :
    ∃ t', t.Behind e t' ∧ (s.reset t).step env e = (s.step env e).map (·.reset t') := by
  by_cases hstatus : isStatus e = true
  · have hkind := (Json.pyEq_str_right_iff _ _).mp hstatus
    -- The status branch moves the reset part by the table and leaves the rest.
    obtain ⟨t', hbehind, h⟩ := foldStatus_reset env s t hstatus
    obtain ⟨s', -, h'⟩ := foldStatus_reset env s s hstatus
    have hsame : s.reset s = s := rfl
    rw [hsame] at h'
    have hstep : ∀ s : IncidentState, s.step env e = s.foldStatus env e := by
      intro s
      unfold step
      rw [hkind]
      rfl
    refine ⟨t', hbehind, ?_⟩
    rw [hstep, hstep, h, h']
    cases (e.get "to").requireHashable <;> rfl
  by_cases hreopen : isReopen e = true
  · have hkind := (Json.pyEq_str_right_iff _ _).mp hreopen
    -- So does the reopening branch.
    obtain ⟨t', hbehind, h⟩ := foldReopen_reset s t hkind
    have hstep : ∀ s : IncidentState, s.step env e = .ok (s.foldReopen e) := by
      intro s
      unfold step
      rw [hkind]
      rfl
    refine ⟨t', hbehind, ?_⟩
    rw [hstep, hstep, h]
    rfl
  -- No other branch looks at the status: the same entry, or none, is added on both sides.
  have hstatus := Bool.eq_false_of_not_eq_true hstatus
  have hreopen := Bool.eq_false_of_not_eq_true hreopen
  unfold step
  split
  case h_2 hkind => exact absurd hstatus (by rw [isStatus, hkind]; decide)
  case h_3 hkind => exact absurd hreopen (by rw [isReopen, hkind]; decide)
  case h_1 =>
    unfold foldCreated
    by_cases hseen : s.seenCreated = true
    · rw [if_pos hseen, if_pos (show (s.reset t).seenCreated = true from hseen)]
      exact ⟨t, .same t hstatus hreopen, rfl⟩
    · rw [if_neg hseen, if_neg (show ¬(s.reset t).seenCreated = true from hseen)]
      exact ⟨_, .log t hstatus hreopen _, rfl⟩
  case h_4 =>
    unfold foldSeverity
    refine ⟨t.log (e.entry ("severity:" ++ env.format s.severity ++ "->" ++
      env.format (e.get "to")) e.note), .log t hstatus hreopen _, ?_⟩
    show (maxSeverity s.severity (e.get "to") >>= _) = Except.map _ (_ >>= _)
    cases maxSeverity s.severity (e.get "to") <;> rfl
  case h_5 =>
    refine ⟨t.foldAck e, ⟨(turn_other t.status hstatus hreopen).symm, fun he ht => ?_⟩, rfl⟩
    exact ⟨isOptionalText_ite ht.acknowledgedAt (IsLogged.isOptionalText_ts he), ht.resolvedAt,
      ht.closedAt, ht.resolutionSummary⟩
  case h_6 =>
    unfold foldResolution
    split
    · refine ⟨{ t with resolutionSummary := e.get "resolution_summary" },
        ⟨(turn_other t.status hstatus hreopen).symm, fun he ht => ?_⟩, rfl⟩
      exact ⟨ht.acknowledgedAt, ht.resolvedAt, ht.closedAt, he.resolutionSummary⟩
    · exact ⟨t, .same t hstatus hreopen, rfl⟩
  case h_7 => unfold foldLinkProblem; split <;> exact ⟨t, .same t hstatus hreopen, rfl⟩
  case h_8 =>
    unfold foldTitle
    dsimp only
    split <;> exact ⟨_, .log t hstatus hreopen _, rfl⟩
  case h_9 =>
    unfold foldAssignment
    split
    · exact ⟨_, .log t hstatus hreopen _, rfl⟩
    · exact ⟨t, .same t hstatus hreopen, rfl⟩
  case h_10 =>
    unfold foldTags
    cases ((e.get "add").orElse (.arr [])).iter <;>
      exact ⟨t, .same t hstatus hreopen, rfl⟩
  case h_11 => unfold foldGtdLink; split <;> exact ⟨t, .same t hstatus hreopen, rfl⟩
  case h_12 => exact ⟨_, .log t hstatus hreopen _, rfl⟩
  case h_13 => exact ⟨_, .log t hstatus hreopen _, rfl⟩
  case h_14 => exact ⟨t, .same t hstatus hreopen, rfl⟩

/-- **A run** does so as well. -/
theorem run_reset (env : Env) : ∀ (events : List RecordEvent) (s t : IncidentState),
    ∃ t' : IncidentState, t'.status = events.foldl IncidentStatus.turn t.status ∧
      ((∀ e ∈ events, IsLogged e) → t.HasTexts → t'.HasTexts) ∧
      events.foldlM (step env) (s.reset t) = (events.foldlM (step env) s).map (·.reset t')
  | [], s, t => ⟨t, rfl, fun _ ht => ht, rfl⟩
  | e :: events, s, t => by
    obtain ⟨t₁, hbehind, hstep⟩ := step_reset env s t e
    rw [List.foldlM_cons, List.foldlM_cons, hstep]
    cases s.step env e with
    | error err =>
      obtain ⟨t₂, hstatus, htexts, -⟩ := run_reset env events s t₁
      refine ⟨t₂, ?_, fun hlogged ht => ?_, rfl⟩
      · rw [hstatus, hbehind.status]
        rfl
      · exact htexts (fun x hx => hlogged x (List.mem_cons_of_mem _ hx))
          (hbehind.texts (hlogged e List.mem_cons_self) ht)
    | ok s' =>
      obtain ⟨t₂, hstatus, htexts, hrun⟩ := run_reset env events s' t₁
      refine ⟨t₂, ?_, fun hlogged ht => ?_, hrun⟩
      · rw [hstatus, hbehind.status]
        rfl
      · exact htexts (fun x hx => hlogged x (List.mem_cons_of_mem _ hx))
          (hbehind.texts (hlogged e List.mem_cons_self) ht)

end IncidentState

/-- The fields of an incident that come from its status and what it stamps. -/
def Incident.reset (i : Incident) (t : IncidentState) : Incident :=
  { i with
    status := t.status
    timeline := t.timeline
    acknowledgedAt := textOrNone t.acknowledgedAt
    resolvedAt := textOrNone t.resolvedAt
    closedAt := textOrNone t.closedAt
    resolutionSummary := textOrNone t.resolutionSummary }

/-- Nothing else of an incident goes by them. -/
theorem buildIncident_reset (env : Env) (core : Dict) {s t : IncidentState} (hs : s.HasTexts)
    (ht : t.HasTexts) :
    buildIncident env core (s.reset t) = (buildIncident env core s).map (·.reset t) := by
  unfold buildIncident
  have hacknowledged := fun r : IncidentState => fun h : r.HasTexts =>
    h.acknowledgedAt.optionalTextOf "Incident" "acknowledged_at"
  have hresolved := fun r : IncidentState => fun h : r.HasTexts =>
    h.resolvedAt.optionalTextOf "Incident" "resolved_at"
  have hclosed := fun r : IncidentState => fun h : r.HasTexts =>
    h.closedAt.optionalTextOf "Incident" "closed_at"
  have hsummary := fun r : IncidentState => fun h : r.HasTexts =>
    h.resolutionSummary.optionalTextOf "Incident" "resolution_summary"
  have hreset : (s.reset t).HasTexts :=
    ⟨ht.acknowledgedAt, ht.resolvedAt, ht.closedAt, ht.resolutionSummary⟩
  simp only [hacknowledged s hs, hacknowledged _ hreset, hresolved s hs, hresolved _ hreset,
    hclosed s hs, hclosed _ hreset, hsummary s hs, hsummary _ hreset, ok_bind]
  iterate 13 refine bind_map_congr fun _ => ?_
  rfl

/-- The variables behind a run, with their status and its stamps. -/
theorem IncidentState.run_spec {s s' : IncidentState}
    (h : events.foldlM (IncidentState.step env) s = .ok s') :
    s'.status = events.foldl IncidentStatus.turn s.status ∧
      ((∀ e ∈ events, IsLogged e) → s.HasTexts → s'.HasTexts) := by
  obtain ⟨t, hstatus, htexts, hrun⟩ := run_reset env events s s
  have hsame : s.reset s = s := rfl
  rw [hsame, h] at hrun
  have hreset : s' = s'.reset t := Except.ok.inj hrun
  refine ⟨?_, fun hlogged hs => ?_⟩
  · rw [hreset, ← hstatus]
    rfl
  · rw [hreset]
    have ht := htexts hlogged hs
    exact ⟨ht.acknowledgedAt, ht.resolvedAt, ht.closedAt, ht.resolutionSummary⟩

theorem initIncident_spec {s : IncidentState} (h : initIncident core = .ok s) :
    s.status = .detected ∧ s.HasTexts := by
  obtain ⟨tags, -, h⟩ := bind_eq_ok.mp h
  rw [← pure_eq_ok.mp h]
  exact ⟨rfl, .inl rfl, .inl rfl, .inl rfl, .inl rfl⟩

/-- The status of a folded incident. -/
theorem foldIncident_status {i : Incident} (h : foldIncident env core events = .ok i) :
    i.status = events.foldl IncidentStatus.turn .detected := by
  obtain ⟨s, hs, h⟩ := bind_eq_ok.mp h
  obtain ⟨s', hs', hbuild⟩ := bind_eq_ok.mp h
  rw [← (initIncident_spec hs).1, ← (IncidentState.run_spec hs').1]
  unfold buildIncident at hbuild
  iterate 17 obtain ⟨_, -, hbuild⟩ := bind_eq_ok.mp hbuild
  rw [← pure_eq_ok.mp hbuild]

/-- **One more status event** changes nothing but the status of an incident and what it stamps. -/
theorem foldIncident_insert (env : Env) (core : Dict) {p q : List RecordEvent} {newStatus : String}
    (he : IsStatusEvent newStatus e) (hlogged : ∀ x ∈ p ++ q, IsLogged x) :
    ∃ t : IncidentState, t.status = (p ++ e :: q).foldl IncidentStatus.turn .detected ∧
      foldIncident env core (p ++ e :: q) = (foldIncident env core (p ++ q)).map (·.reset t) := by
  obtain ⟨hp, hq⟩ := List.forall_mem_append.mp hlogged
  have hstatus : isStatus e = true := by
    rw [isStatus, he.kind]
    rfl
  have hany : ∃ t : IncidentState, t.status = (p ++ e :: q).foldl IncidentStatus.turn .detected :=
    ⟨⟨_, .null, [], .null, .null, .null, .null, .null, [], [], .null, .null, false⟩, rfl⟩
  unfold foldIncident
  cases hs : initIncident core with
  | error err => exact hany.imp fun t ht => ⟨ht, rfl⟩
  | ok s =>
    obtain ⟨hdetected, htexts⟩ := initIncident_spec hs
    simp only [ok_bind, List.foldlM_append]
    cases hp' : p.foldlM (IncidentState.step env) s with
    | error err => exact hany.imp fun t ht => ⟨ht, rfl⟩
    | ok s' =>
      obtain ⟨hstatus', htexts'⟩ := IncidentState.run_spec hp'
      -- the event sets the status, and what comes behind it goes on from there
      obtain ⟨t, hbehind, hevent⟩ := IncidentState.foldStatus_reset env s' s' hstatus
      have hstep : s'.step env e = .ok (s'.reset t) := by
        have hsame : s'.reset s' = s' := rfl
        rw [hsame, he.target] at hevent
        unfold IncidentState.step
        rw [he.kind]
        exact hevent
      obtain ⟨t', hturned, htexts'', hrun⟩ := IncidentState.run_reset env q s' t
      refine ⟨t', ?_, ?_⟩
      · rw [List.foldl_append, List.foldl_cons, hturned, hbehind.status, hstatus', hdetected]
      · rw [ok_bind, ok_bind, List.foldlM_cons, hstep, ok_bind, hrun]
        cases hq' : q.foldlM (IncidentState.step env) s' with
        | error err => rfl
        | ok s'' =>
          have ht := htexts' hp htexts
          exact buildIncident_reset env core ((IncidentState.run_spec hq').2 hq ht)
            (htexts'' hq (hbehind.texts he.logged ht))

/-! ### Incidents -/

/-- What a call that completes GTD items must find of an incident. -/
inductive Phase where
  | opened
  | resolved
  | closed
  deriving DecidableEq, Repr

/-- The phase of a status. -/
def IncidentStatus.phase : IncidentStatus → Phase
  | .resolved => .resolved
  | .closed => .closed
  | _ => .opened

/-- The phase behind an event: an open incident can be resolved, and one that is resolved closed or
reopened. -/
def Phase.turn (φ : Phase) (e : RecordEvent) : Phase :=
  match φ with
  | .opened => if isStatus e && (e.get "to").pyEq (.str "resolved") then .resolved else .opened
  | .resolved =>
    if isStatus e && (e.get "to").pyEq (.str "closed") then .closed
    else if isReopen e then .opened
    else .resolved
  | .closed => .closed

namespace IncidentStatus

variable {c : IncidentStatus}

theorem value_of_ofValue? {t : String} (h : ofValue? t = some c) : t = c.value := by
  unfold ofValue? at h
  split at h <;> cases h <;> rfl

/-- A status event with its target. -/
theorem turn_str {t : String} (h : isStatus e = true) (htarget : e.get "to" = .str t) :
    c.turn e = ((ofValue? t).filter fun c' => c' ∈ c.transitions).getD c := by
  rw [turn, if_pos h, allowed_eq, htarget]
  rfl

/-- A status event whose target is no text is refused. -/
theorem turn_of_not_str (h : isStatus e = true) (htarget : ∀ t, e.get "to" ≠ .str t) :
    c.turn e = c := by
  rw [turn, if_pos h, allowed_eq]
  cases hvalue : e.get "to" with
  | str t => exact absurd hvalue (htarget t)
  | _ => rfl

/-- **The phase of an incident** goes by the phase before. -/
theorem phase_turn (c : IncidentStatus) (e : RecordEvent) : (c.turn e).phase = c.phase.turn e := by
  by_cases hstatus : isStatus e = true
  · have hreopen := isReopen_of_isStatus hstatus
    by_cases htarget : ∃ t, e.get "to" = .str t
    · obtain ⟨t, htarget⟩ := htarget
      rw [turn_str hstatus htarget]
      cases ht : ofValue? t with
      | none =>
        have hne : ∀ c' : IncidentStatus, t ≠ c'.value := by
          rintro c' rfl
          cases c' <;> exact absurd ht (by decide)
        have hresolved : (Json.str t).pyEq (.str "resolved") = false :=
          Bool.eq_false_iff.mpr fun h =>
            hne .resolved (Json.str.inj ((Json.pyEq_str_right_iff _ _).mp h))
        have hclosed : (Json.str t).pyEq (.str "closed") = false :=
          Bool.eq_false_iff.mpr fun h =>
            hne .closed (Json.str.inj ((Json.pyEq_str_right_iff _ _).mp h))
        show c.phase = _
        cases c <;> simp [phase, Phase.turn, hstatus, hreopen, htarget, hresolved, hclosed]
      | some c' =>
        rw [value_of_ofValue? ht] at htarget
        cases c <;> cases c' <;>
          simp [phase, Phase.turn, hstatus, hreopen, htarget, transitions, value, Option.filter,
            Json.pyEq_str_right_iff]
    · rw [not_exists] at htarget
      rw [turn_of_not_str hstatus htarget]
      have hne : ∀ t, (e.get "to").pyEq (.str t) = false := fun t =>
        Bool.eq_false_iff.mpr fun h => htarget t ((Json.pyEq_str_right_iff _ _).mp h)
      cases c <;> simp [phase, Phase.turn, hreopen, hne]
  · have hfalse := Bool.eq_false_of_not_eq_true hstatus
    unfold turn
    rw [if_neg hstatus]
    cases hreopen : isReopen e <;> cases c <;> simp [phase, Phase.turn, hfalse, hreopen]

theorem phase_run (events : List RecordEvent) (c : IncidentStatus) :
    (events.foldl turn c).phase = events.foldl Phase.turn c.phase := by
  induction events generalizing c with
  | nil => rfl
  | cons e events ih =>
    rw [List.foldl_cons, List.foldl_cons, ih, phase_turn]

theorem phase_ne_opened_iff : c.phase ≠ .opened ↔ c.value ∈ ["resolved", "closed"] := by
  cases c <;> decide

end IncidentStatus

namespace Phase

/-- How far a phase is. -/
def rank : Phase → ℕ
  | opened => 0
  | resolved => 1
  | closed => 2

theorem ne_opened_iff {φ : Phase} : φ ≠ opened ↔ 0 < φ.rank := by cases φ <;> decide

/-- An incident that is further stays at least as far. -/
theorem turn_mono {φ ψ : Phase} (h : φ.rank ≤ ψ.rank) (e : RecordEvent) :
    (φ.turn e).rank ≤ (ψ.turn e).rank := by
  by_cases hresolved : (isStatus e && (e.get "to").pyEq (.str "resolved")) = true
  · -- an event that resolves neither closes nor reopens
    have hstatus := (Bool.and_eq_true_iff.mp hresolved).1
    have htarget := (Json.pyEq_str_right_iff _ _).mp (Bool.and_eq_true_iff.mp hresolved).2
    have hreopen := isReopen_of_isStatus hstatus
    have hclosed : (isStatus e && (e.get "to").pyEq (.str "closed")) = false := by
      rw [htarget, hstatus]
      rfl
    cases φ <;> cases ψ <;>
      simp only [turn, hresolved, hclosed, hreopen, rank, if_true, Bool.false_eq_true,
        if_false, le_refl, zero_le, Nat.one_le_ofNat] at h ⊢ <;> omega
  · cases φ <;> cases ψ <;> simp only [turn, if_neg hresolved, rank] at h ⊢ <;>
      first
      | omega
      | (repeat' split) <;> decide

theorem run_mono {φ ψ : Phase} (h : φ.rank ≤ ψ.rank) (events : List RecordEvent) :
    (events.foldl turn φ).rank ≤ (events.foldl turn ψ).rank := by
  induction events generalizing φ ψ with
  | nil => exact h
  | cons e events ih => exact ih (turn_mono h e)

theorem run_closed (events : List RecordEvent) : events.foldl turn closed = closed := by
  induction events with
  | nil => rfl
  | cons e events ih => exact ih

/-- The phase behind a call that asks to resolve an incident. -/
theorem turn_of_resolved (φ : Phase) (he : IsStatusEvent "resolved" e) :
    φ.turn e = if φ = .opened then .resolved else φ := by
  have hstatus : isStatus e = true := by
    rw [isStatus, he.kind]
    rfl
  have hreopen := isReopen_of_isStatus hstatus
  cases φ <;> simp [turn, hstatus, hreopen, he.target, Json.pyEq_str_right_iff]

end Phase

/-- **An incident that a call asks to resolve is resolved** when no later event opens it again or it
is resolved anyway. -/
theorem IncidentStatus.run_insert_iff (he : IsStatusEvent "resolved" e) :
    ((p ++ e :: q).foldl turn .detected).value ∈ ["resolved", "closed"] ↔
      ((p ++ q).foldl turn .detected).value ∈ ["resolved", "closed"] ∨
        q.foldl Phase.turn .resolved ≠ .opened := by
  rw [← phase_ne_opened_iff, ← phase_ne_opened_iff, List.foldl_append, List.foldl_append,
    List.foldl_cons, phase_run, phase_run, phase_turn, Phase.turn_of_resolved _ he]
  cases (p.foldl turn .detected).phase with
  | opened =>
    rw [if_pos rfl, Phase.ne_opened_iff, Phase.ne_opened_iff]
    have hmono := Phase.run_mono (φ := .opened) (ψ := .resolved) (Nat.zero_le _) q
    exact ⟨.inr, fun h => h.elim (fun h => Nat.lt_of_lt_of_le h hmono) id⟩
  | resolved =>
    rw [if_neg (by decide)]
    exact (or_self_iff).symm
  | closed =>
    rw [if_neg (by decide), Phase.run_closed]
    simp

/-! ### The record behind the status event -/

section

variable {α : Type} {f : Dict → List RecordEvent → Except PyError α}
variable {u : Updater} {tree : RecordTree} {recordId : String} {agent : AgentName}

/-- `_fold_record` of a type of record without votes. -/
def Updater.foldOf (u : Updater) (f : Dict → List RecordEvent → Except PyError α) : Updater.Fold α :=
  fun tree recordId =>
    foldRecord u.machine.reader (fun _ => f) tree u.machine.reader.redirects recordId

/-- The fold of a record whose core is read. -/
theorem Updater.foldOf_eq_some {core : Json} {a : α}
    (hcore : loadCore u.machine.reader (tree.recDir recordId) = some core) :
    u.foldOf f tree recordId = .ok (some a) ↔
      ∃ fields events, core = .obj fields ∧
        readEvents u.machine.reader (tree.recDir recordId) = .ok events ∧
          f fields events = .ok a := by
  unfold foldOf foldRecord
  rw [hcore]
  dsimp only
  constructor
  · intro h
    obtain ⟨events, hread, h⟩ := bind_eq_ok.mp h
    cases core with
    | obj fields =>
      have hsome := pure_eq_ok.mp h
      cases hf : f fields events with
      | error e =>
        rw [hf] at hsome
        cases hsome
      | ok a' =>
        rw [hf] at hsome
        exact ⟨fields, events, rfl, hread, hf.trans (congrArg _ (Option.some.inj hsome))⟩
    | _ =>
      have hnone := pure_eq_ok.mp h
      cases hnone
  · rintro ⟨fields, events, rfl, hread, hf⟩
    rw [hread, ok_bind]
    show Except.ok (f fields events).toOption = _
    rw [hf]
    rfl

/-- A status event that asks to resolve a record leaves all of it but what goes with its status, and
settles it when it was settled or what is read around the event lets it. -/
structure SettledBy (f : Dict → List RecordEvent → Except PyError α) (gtdItemIds : α → List String)
    (settled : α → Prop) (lets : List RecordEvent → List RecordEvent → Prop) : Prop where
  insert : ∀ (core : Dict) (e : RecordEvent) (p q : List RecordEvent),
    IsStatusEvent "resolved" e → (∀ x ∈ p ++ q, IsLogged x) →
      ∃ g : α → α, f core (p ++ e :: q) = (f core (p ++ q)).map g ∧
        ∀ a, f core (p ++ q) = .ok a →
          gtdItemIds (g a) = gtdItemIds a ∧ (settled (g a) ↔ settled a ∨ lets p q)

/-- **The record behind a call that asks to resolve it** is settled, or has no GTD items, exactly
when it had none, or was settled, or what is read around the event lets it. -/
theorem SettledBy.resolvedRecord_iff {limit : ℕ} {payload : Dict} {gtdItemIds : α → List String}
    {settled : α → Prop} {lets : List RecordEvent → List RecordEvent → Prop}
    (h : SettledBy f gtdItemIds settled lets)
    (hreads : u.machine.reader.ReadsShallow limit) (hpayload : IsStatusPayload "resolved" payload)
    (hkeeps : u.KeepsLogs limit (tree.recDir recordId) agent) :
    (∀ a, u.resolvedRecord (u.foldOf f) tree recordId agent payload = .ok (some a) →
        gtdItemIds a ≠ [] → settled a) ↔
      (∀ a, u.foldOf f tree recordId = .ok (some a) → gtdItemIds a ≠ [] →
        settled a ∨ (loadCore u.machine.reader (tree.recDir recordId)).isSome ∧
          lets (u.earlierEvents (tree.recDir recordId) agent)
            (u.laterEvents (tree.recDir recordId) agent)) := by
  obtain ⟨e, tree', happend, he, hplaces⟩ :=
    @appendStatus_spec u tree _ recordId _ _ _ hreads hpayload hkeeps
  obtain ⟨logs, hdir⟩ := hplaces.dir
  have hrecord : u.resolvedRecord (u.foldOf f) tree recordId agent payload =
      u.foldOf f tree' recordId := by
    unfold Updater.resolvedRecord
    rw [happend, ok_bind]
  rw [hrecord]
  cases hcore : loadCore u.machine.reader (tree.recDir recordId) with
  | none =>
    -- a record that was merged is the one it was merged into
    have hsame : u.foldOf f tree' recordId = u.foldOf f tree recordId := by
      rw [hdir]
      exact foldRecord_put hcore logs _ _
    rw [hsame]
    simp
  | some core =>
    have hcore' : loadCore u.machine.reader (tree'.recDir recordId) = some core := by
      rw [hdir, recDir_put_self]
      exact hcore
    simp only [Updater.foldOf_eq_some hcore, Updater.foldOf_eq_some hcore', Option.isSome_some,
      true_and]
    set d := tree.recDir recordId
    have hevents : ∀ events, readEvents u.machine.reader d = .ok events →
        events = u.earlierEvents d agent ++ u.laterEvents d agent ∧
          ∀ x ∈ events, IsLogged x := by
      intro events hread
      refine ⟨?_, fun x hx => ?_⟩
      · rw [Updater.earlierEvents, Updater.laterEvents, List.takeWhile_append_dropWhile,
          Updater.eventsOf, hread]
        rfl
      · rw [readEvents_eq hread, List.mem_insertionSort] at hx
        exact (hkeeps.logged x hx).1
    constructor
    · rintro hall a ⟨fields, events, rfl, hread, ha⟩ hne
      obtain ⟨hsplit, hlogged⟩ := hevents events hread
      rw [hsplit] at hlogged ha
      obtain ⟨g, hinsert, hg⟩ := h.insert fields e _ _ he hlogged
      obtain ⟨hids, hsettled⟩ := hg a ha
      rw [ha] at hinsert
      refine hsettled.mp (hall (g a) ⟨fields, _, rfl, hplaces.reads events hread, hinsert⟩ ?_)
      rwa [hids]
    · rintro hall a ⟨fields, events', rfl, hread', ha⟩ hne
      obtain ⟨events, hread⟩ :=
        exists_readEvents_iff.mpr (hplaces.readable.mp (exists_readEvents_iff.mp ⟨_, hread'⟩))
      obtain ⟨hsplit, hlogged⟩ := hevents events hread
      cases hread'.symm.trans (hplaces.reads events hread)
      rw [hsplit] at hlogged
      obtain ⟨g, hinsert, hg⟩ := h.insert fields e _ _ he hlogged
      rw [hinsert] at ha
      cases hbefore : f fields (u.earlierEvents d agent ++ u.laterEvents d agent) with
      | error err =>
        rw [hbefore] at ha
        cases ha
      | ok b =>
        rw [hbefore] at ha
        cases ha
        obtain ⟨hids, hsettled⟩ := hg b hbefore
        rw [hids] at hne
        refine hsettled.mpr (hall b ⟨fields, events, rfl, hread, ?_⟩ hne)
        rw [hsplit, hbefore]

end

/-- A problem is settled when its analysis started before. -/
theorem settledBy_foldProblem (env : Env) :
    SettledBy (foldProblem env) Problem.gtdItemIds (fun pr => pr.status.value ∈ ["resolved", "closed"])
      fun p _ => ∃ x ∈ p, startsAnalysis x = true := by
  refine ⟨fun core e p q he _ => ?_⟩
  have hresolved : ∀ c : ProblemStatus, c.value ∈ ["resolved", "closed"] ↔ c = .resolved := by
    intro c
    cases c <;> decide
  obtain ⟨timeline, hinsert⟩ := foldProblem_insert env core p q he
  refine ⟨_, hinsert, fun pr hpr => ⟨rfl, ?_⟩⟩
  rw [hresolved, hresolved, foldProblem_status hpr]
  exact ProblemStatus.run_insert_iff he

/-- An incident is settled when no event behind opens it again. -/
theorem settledBy_foldIncident (env : Env) :
    SettledBy (foldIncident env) Incident.gtdItemIds
      (fun i => i.status.value ∈ ["resolved", "closed"])
      fun _ q => q.foldl Phase.turn .resolved ≠ .opened := by
  refine ⟨fun core e p q he hlogged => ?_⟩
  obtain ⟨t, hstatus, hinsert⟩ := foldIncident_insert env core he hlogged
  refine ⟨_, hinsert, fun i hi => ⟨rfl, ?_⟩⟩
  have hreset : (i.reset t).status = (p ++ e :: q).foldl IncidentStatus.turn .detected := hstatus
  rw [hreset, foldIncident_status hi]
  exact IncidentStatus.run_insert_iff he

/-! ### The updates -/

/-- **What an update does outside follows the fold**: always for a change.  A call that asks to
resolve an open incident, or a problem that is not resolved, with GTD items does otherwise exactly
when a later event opens the incident again, when the analysis of the problem did not start before,
or when the core of the record cannot be read. -/
theorem effects_follow_fold (u : Updater) (tree : RecordTree) {limit : ℕ}
    (hreads : u.machine.reader.ReadsShallow limit) :
    (∀ call : IncidentUpdate,
      (∀ recordId, u.findRecord "Incident" call.incidentId tree = .ok recordId →
        u.KeepsLogs limit (tree.recDir recordId) call.agent) →
      (call.Follows u tree ↔ ∀ recordId,
        u.findRecord "Incident" call.incidentId tree = .ok recordId →
          call.newStatus = "resolved" → ∀ i,
            u.foldIncident tree recordId = .ok (some i) → i.gtdItemIds ≠ [] →
              i.status.value ∈ ["resolved", "closed"] ∨
                (loadCore u.machine.reader (tree.recDir recordId)).isSome ∧
                  (u.laterEvents (tree.recDir recordId) call.agent).foldl Phase.turn .resolved ≠
                    .opened)) ∧
    (∀ call : ProblemUpdate,
      (∀ recordId, u.findRecord "Problem" call.problemId tree = .ok recordId →
        u.KeepsLogs limit (tree.recDir recordId) call.agent) →
      (call.Follows u tree ↔ ∀ recordId,
        u.findRecord "Problem" call.problemId tree = .ok recordId →
          call.newStatus = "resolved" → ∀ pr,
            u.foldProblem tree recordId = .ok (some pr) → pr.gtdItemIds ≠ [] →
              pr.status.value ∈ ["resolved", "closed"] ∨
                (loadCore u.machine.reader (tree.recDir recordId)).isSome ∧
                  ∃ x ∈ u.earlierEvents (tree.recDir recordId) call.agent,
                    startsAnalysis x = true)) ∧
    ∀ call : ChangeUpdate, call.Follows u tree := by
  refine ⟨fun call hkeeps => ?_, fun call hkeeps => ?_, fun call => call.follows u tree⟩
  · refine IncidentUpdate.follows_iff.trans ?_
    refine forall_congr' fun recordId => forall_congr' fun hfind => forall_congr' fun hstatus => ?_
    have hpayload := call.isStatusPayload
    rw [hstatus] at hpayload
    exact (settledBy_foldIncident u.machine.env).resolvedRecord_iff hreads hpayload
      (hkeeps recordId hfind)
  · refine ProblemUpdate.follows_iff.trans ?_
    refine forall_congr' fun recordId => forall_congr' fun hfind => forall_congr' fun hstatus => ?_
    rw [hstatus]
    exact (settledBy_foldProblem u.machine.env).resolvedRecord_iff hreads ⟨call.note, .inl rfl⟩
      (hkeeps recordId hfind)

/-! ### A problem that was not analysed -/

/-- An updater whose files are all in one directory. -/
def sampleUpdater : Updater where
  machine := sampleMachine
  disk := flatDisk
  votes := []
  stamps := fun _ => ⟨"e9", "2026-09-30T10:00:00"⟩
  gtdEmit := fun _ _ _ _ => none
  kedb := ⟨"ke-00000000", "2026-09-30T10:00:01"⟩

/-- A problem with the GTD item `g1` and these events. -/
def problemTree (events : List RecordEvent) : RecordTree :=
  treeOf [("prb-1",
    { core := some (encodeUtf8 ((Json.obj [("id", .str "prb-1")]).dumps zeroFloats .compact))
      logs := [("ops@box.jsonl", encodeUtf8 (
        (([("kind", .str "gtd_link"), ("id", .str "g1"), ("ts", .str "2026-09-30T08:00:00")] ::
          events).flatMap (lineOf plainReader))))] })]

theorem isFileName_cto : IsFileName "cto" := by decide +kernel

/-- A call that asks to resolve the problem. -/
def resolveProblem : ProblemUpdate where
  problemId := "prb-1"
  agent := ⟨"cto", isFileName_cto⟩
  newStatus := "resolved"

/-- The analysis of a problem starts. -/
def analysis : RecordEvent := incidentEvent "status" "analyzing" "2026-09-30T09:00:00"

/-- An event is such as `_append_event` writes it and is before the one of `resolveProblem`. -/
def isLoggedBefore (key : SortKey) (x : RecordEvent) : Bool :=
  (match x.getD "ts" (.str ""), x.getD "node" (.str ""), x.getD "writer" (.str ""),
      x.getD "seq" (.int 0), x.get "resolution_summary" with
    | .str _, .str _, .str _, .int _, .null => true
    | _, _, _, _, _ => false) && decide (recordKey x < key)

theorem isLogged_of_isLoggedBefore {key : SortKey} {x : RecordEvent}
    (h : isLoggedBefore key x = true) : IsLogged x ∧ recordKey x ≠ key := by
  obtain ⟨htexts, hkey⟩ := Bool.and_eq_true_iff.mp h
  refine ⟨?_, (of_decide_eq_true hkey).ne⟩
  split at htexts
  · rename_i ht hn hw hk hs
    exact ⟨⟨_, ht⟩, ⟨_, hn⟩, ⟨_, hw⟩, ⟨_, hk⟩, .inl hs⟩
  · exact absurd htexts Bool.false_ne_true

theorem keepsLogs_analysed :
    sampleUpdater.KeepsLogs 1 ((problemTree [analysis]).recDir "prb-1") "cto" := by
  refine ⟨⟨[], ⟨?_, endsWith_logName _ _, ?_, .inl rfl⟩, by decide⟩, fun x hx => ?_⟩
  · decide
  · decide +kernel
  · have hall : (((problemTree [analysis]).recDir "prb-1").objects plainReader).all (isLoggedBefore
        (sampleUpdater.eventKey ((problemTree [analysis]).recDir "prb-1") "cto")) = true := by
      decide +kernel
    exact isLogged_of_isLoggedBefore (List.all_eq_true.mp hall x hx)

/-- The items of a problem that was analysed are completed behind its resolution. -/
theorem effects_follow_fold_analysed :
    resolveProblem.Follows sampleUpdater (problemTree [analysis]) := by
  have hfind : ∀ recordId, sampleUpdater.findRecord "Problem" resolveProblem.problemId
      (problemTree [analysis]) = .ok recordId → recordId = "prb-1" := by
    intro recordId h
    have hfound : (sampleUpdater.findRecord "Problem" resolveProblem.problemId
        (problemTree [analysis])).toOption = some "prb-1" := by
      decide +kernel
    rw [h] at hfound
    exact Option.some.inj hfound
  refine ((effects_follow_fold sampleUpdater (problemTree [analysis])
    (readsShallow_plain 1)).2.1 resolveProblem fun recordId h => ?_).mpr
      fun recordId h _ pr _ _ => .inr ?_
  · rw [hfind recordId h]
    exact keepsLogs_analysed
  · rw [hfind recordId h]
    refine ⟨by decide +kernel, List.any_eq_true.mp ?_⟩
    decide +kernel

/-- The item of a problem that was not analysed is completed, and the problem stays `identified`. -/
theorem identified_problem_completes :
    (sentBy (sampleUpdater.updateProblem resolveProblem) (problemTree [])).map Outward.statuses =
        [some ["resolved", "closed"]] ∧
      resolveProblem.statusAfter sampleUpdater (problemTree []) = .ok (some "identified") ∧
      ¬resolveProblem.Follows sampleUpdater (problemTree []) := by
  have hsent : (sentBy (sampleUpdater.updateProblem resolveProblem)
      (problemTree [])).map Outward.statuses = [some ["resolved", "closed"]] := by
    decide +kernel
  have hafter : (resolveProblem.statusAfter sampleUpdater (problemTree [])).toOption =
      some (some "identified") := by
    decide +kernel
  have hafter' := toOption_eq_some.mp hafter
  refine ⟨hsent, hafter', fun h => ?_⟩
  obtain ⟨o, ho, hstatuses⟩ := List.mem_map.mp (hsent ▸ List.mem_singleton_self _)
  obtain ⟨-, s, hs, hfolded⟩ := h o ho _ hstatuses
  rw [hafter'] at hfolded
  rw [← Option.some.inj (Except.ok.inj hfolded)] at hs
  exact absurd hs (by decide)

end SkCoord.Itil
