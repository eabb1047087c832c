import SkCoord.Itil.Equiv.Approval
import SkCoord.Itil.Incident

/-!
# The timeline fields of an incident

`step_cases`: an event keeps the status, takes a transition of the table, reopens a resolved
incident, or raises the severity.  `incident_timeline`: `resolved_at` and `closed_at` are there
exactly in the statuses they belong to, a closed incident stays as it is, and the severity is the
most severe that anybody gave.
-/

namespace SkCoord.Itil

open Python

variable {env : Env} {core : Dict} {e : RecordEvent} {s s' : IncidentState}
  {events : List RecordEvent} {i : Incident}

namespace IncidentStatus

/-- The incident counts as resolved. -/
def isDone : IncidentStatus → Bool
  | resolved => true
  | closed => true
  | _ => false

theorem isDone_iff {c : IncidentStatus} : c.isDone = true ↔ c = .resolved ∨ c = .closed := by
  cases c <;> simp [isDone]

theorem allowed_mem {c g : IncidentStatus} {target : Json} (h : g.allowed target = .ok (some c)) :
    c ∈ g.transitions := by
  unfold allowed at h
  obtain ⟨⟨⟩, -, h⟩ := bind_eq_ok.mp h
  split at h
  · rw [pure_eq_ok, Option.filter_eq_some_iff] at h
    exact of_decide_eq_true h.2
  · cases h

end IncidentStatus

/-! ### One event -/

/-- An event of the kind `severity`. -/
def isSeverity (e : RecordEvent) : Bool := (e.get "kind").pyEq (.str "severity")

namespace IncidentState

/-- The same status, with the fields that go with it. -/
structure Same (s s' : IncidentState) : Prop where
  status : s'.status = s.status
  resolvedAt : s'.resolvedAt = s.resolvedAt
  closedAt : s'.closedAt = s.closedAt

/-- What an event does to the status, its fields and the severity. -/
inductive Move (s : IncidentState) (e : RecordEvent) (s' : IncidentState) : Prop where
  | keep : isSeverity e = false → Same s s' → s'.severity = s.severity → Move s e s'
  | transition : isSeverity e = false → s'.status ∈ s.status.transitions →
      s'.resolvedAt =
        (if s'.status = .resolved ∧ s.resolvedAt.truthy = false then e.ts else s.resolvedAt) →
      s'.closedAt =
        (if s'.status = .closed ∧ s.closedAt.truthy = false then e.ts else s.closedAt) →
      s'.severity = s.severity → Move s e s'
  | reopen : isSeverity e = false → s.status = .resolved → s'.status = .investigating →
      s'.resolvedAt = .null → s'.closedAt = s.closedAt → s'.severity = s.severity → Move s e s'
  | severity : isSeverity e = true → Same s s' →
      maxSeverity s.severity (e.get "to") = .ok s'.severity → Move s e s'

theorem foldStatus_move (he : isSeverity e = false) (h : s.foldStatus env e = .ok s') :
    Move s e s' := by
  unfold foldStatus at h
  obtain ⟨target, htarget, h⟩ := bind_eq_ok.mp h
  cases target with
  | none =>
    rw [pure_eq_ok] at h
    exact h ▸ .keep he ⟨rfl, rfl, rfl⟩ rfl
  | some c =>
    rw [pure_eq_ok] at h
    subst h
    have hmem := IncidentStatus.allowed_mem htarget
    refine .transition he ?_ ?_ ?_ ?_
    · cases c <;> exact hmem
    · cases c with
      | resolved =>
        cases hr : s.resolvedAt.truthy <;> simp [stamp, log, hr]
      | _ => rfl
    · cases c with
      | closed =>
        cases hr : s.closedAt.truthy <;> simp [stamp, log, hr]
      | _ => rfl
    · cases c <;> rfl

theorem foldReopen_move (he : isSeverity e = false) : Move s e (s.foldReopen e) := by
  unfold foldReopen
  split
  · rename_i hs
    exact .reopen he (eq_of_beq hs) rfl rfl rfl rfl
  · exact .keep he ⟨rfl, rfl, rfl⟩ rfl

theorem foldSeverity_move (he : isSeverity e = true) (h : s.foldSeverity env e = .ok s') :
    Move s e s' := by
  unfold foldSeverity at h
  obtain ⟨severity, hsev, h⟩ := bind_eq_ok.mp h
  rw [pure_eq_ok] at h
  subst h
  exact .severity he ⟨rfl, rfl, rfl⟩ hsev

/-- **One event**: it leaves the status and the severity alone, or it is one of the three moves, one
branch of the fold for each kind of event. -/
theorem step_cases (h : step env s e = .ok s') : Move s e s' := by
  -- A kind that is another string is not the severity kind.
  have hkind : ∀ {k : String}, e.get "kind" = .str k → k ≠ "severity" → isSeverity e = false := by
    intro k hk hne
    unfold isSeverity
    rw [hk, ← Bool.not_eq_true, Json.pyEq_str_iff, Json.str.injEq]
    exact fun heq => hne heq.symm
  unfold step at h
  split at h
  -- The two branches that may raise, and the tags, whose iterable may be none.
  case h_2 hk => exact foldStatus_move (hkind hk (by decide)) h
  case h_4 hk => exact foldSeverity_move (by rw [isSeverity, hk]; rfl) h
  case h_10 hk =>
    obtain ⟨added, -, h⟩ := bind_eq_ok.mp h
    rw [pure_eq_ok] at h
    exact h ▸ .keep (hkind hk (by decide)) ⟨rfl, rfl, rfl⟩ rfl
  -- The rest return a state without a check.
  all_goals rw [pure_eq_ok] at h; subst h
  case h_1 hk =>
    unfold foldCreated
    split <;> exact .keep (hkind hk (by decide)) ⟨rfl, rfl, rfl⟩ rfl
  case h_3 hk => exact foldReopen_move (hkind hk (by decide))
  case h_5 hk => exact .keep (hkind hk (by decide)) ⟨rfl, rfl, rfl⟩ rfl
  case h_6 hk =>
    unfold foldResolution
    split <;> exact .keep (hkind hk (by decide)) ⟨rfl, rfl, rfl⟩ rfl
  case h_7 hk =>
    unfold foldLinkProblem
    split <;> exact .keep (hkind hk (by decide)) ⟨rfl, rfl, rfl⟩ rfl
  case h_8 hk =>
    unfold foldTitle
    dsimp only
    split <;> exact .keep (hkind hk (by decide)) ⟨rfl, rfl, rfl⟩ rfl
  case h_9 hk =>
    unfold foldAssignment
    split <;> exact .keep (hkind hk (by decide)) ⟨rfl, rfl, rfl⟩ rfl
  case h_11 hk =>
    unfold foldGtdLink
    split <;> exact .keep (hkind hk (by decide)) ⟨rfl, rfl, rfl⟩ rfl
  case h_12 hk => exact .keep (hkind hk (by decide)) ⟨rfl, rfl, rfl⟩ rfl
  case h_13 hk => exact .keep (hkind hk (by decide)) ⟨rfl, rfl, rfl⟩ rfl
  case h_14 hk =>
    refine .keep ?_ ⟨rfl, rfl, rfl⟩ rfl
    unfold isSeverity
    rw [← Bool.not_eq_true, Json.pyEq_str_right_iff]
    assumption

end IncidentState

/-! ### The fields of a status -/

/-- The fields that go with a status are there exactly in that status. -/
structure Timed (s : IncidentState) : Prop where
  resolved : s.status.isDone = true → s.resolvedAt.truthy = true
  unresolved : s.status.isDone = false → s.resolvedAt = .null
  closed : s.status = .closed → s.closedAt.truthy = true
  notClosed : s.status ≠ .closed → s.closedAt = .null

theorem Timed.of_same (hs : Timed s) (h : s.Same s') : Timed s' where
  resolved := by rw [h.status, h.resolvedAt]; exact hs.resolved
  unresolved := by rw [h.status, h.resolvedAt]; exact hs.unresolved
  closed := by rw [h.status, h.closedAt]; exact hs.closed
  notClosed := by rw [h.status, h.closedAt]; exact hs.notClosed

/-- An event with a timestamp keeps the fields with the status: a reopening clears the resolution
time, and a transition sets the time of the status that it enters and no other. -/
theorem Timed.step (hts : e.ts.truthy = true) (hs : Timed s) (h : s.step env e = .ok s') :
    Timed s' := by
  cases IncidentState.step_cases h with
  | keep _ hsame => exact hs.of_same hsame
  | severity _ hsame => exact hs.of_same hsame
  | reopen _ hst hst' hr hc =>
    refine ⟨?_, fun _ => hr, ?_, fun _ => ?_⟩
    · rw [hst']
      exact nofun
    · rw [hst']
      exact nofun
    · rw [hc]
      exact hs.notClosed (by rw [hst]; decide)
  | transition _ hmem hr hc =>
    -- The table has no transition out of `closed`, so the incident was not closed before.
    have hopen : s.status ≠ .closed := by
      intro hst
      rw [hst] at hmem
      cases hmem
    have hclosed := hs.notClosed hopen
    cases hst' : s'.status with
    | resolved =>
      -- Only an incident that is not done yet becomes resolved.
      have hnot : s.status.isDone = false := by
        rw [hst'] at hmem
        cases hst : s.status <;> rw [hst] at hmem <;> first | rfl | exact absurd hmem (by decide)
      rw [hst', hs.unresolved hnot] at hr
      rw [hst', hclosed] at hc
      refine ⟨fun _ => ?_, ?_, ?_, fun _ => hc⟩
      · rw [hr]
        exact hts
      · rw [hst']
        exact nofun
      · rw [hst']
        exact nofun
    | closed =>
      -- Only a resolved incident is closed, so its resolution time stands.
      have hdone : s.status.isDone = true := by
        rw [hst'] at hmem
        cases hst : s.status <;> rw [hst] at hmem <;> first | rfl | exact absurd hmem (by decide)
      rw [hst', if_neg (by simp)] at hr
      rw [hst', hclosed] at hc
      refine ⟨fun _ => ?_, ?_, fun _ => ?_, fun hne => absurd hst' hne⟩
      · rw [hr]
        exact hs.resolved hdone
      · rw [hst']
        exact nofun
      · rw [hc]
        exact hts
    | _ =>
      -- The other statuses are entered from statuses that are not done.
      have hnot : s.status.isDone = false := by
        rw [hst'] at hmem
        cases hst : s.status <;> rw [hst] at hmem <;> first | rfl | exact absurd hmem (by decide)
      rw [hst', if_neg (by simp), hs.unresolved hnot] at hr
      rw [hst', if_neg (by simp), hclosed] at hc
      refine ⟨?_, fun _ => hr, ?_, fun _ => hc⟩
      · rw [hst']
        exact nofun
      · rw [hst']
        exact nofun

/-- An event leaves the status of a closed incident and its fields. -/
theorem closed_step (hs : s.status = .closed) (h : s.step env e = .ok s') : s.Same s' := by
  cases IncidentState.step_cases h with
  | keep _ hsame => exact hsame
  | severity _ hsame => exact hsame
  | reopen _ hst => rw [hs] at hst; cases hst
  | transition _ hmem => rw [hs] at hmem; cases hmem

/-! ### Severities -/

/-- The severities that anybody gave an incident: at its creation, and by an event. -/
def severitiesOf (core : Dict) (events : List RecordEvent) : List Json :=
  (core.get "severity_at_creation").orElse (.str "sev3") ::
    (events.filter isSeverity).map fun e => e.get "to"

/-- A value among others that none of them outranks. -/
def MostSevere (severities : List Json) (v : Json) : Prop :=
  v ∈ severities ∧ ∃ n, sevRank v = .ok n ∧ ∀ u ∈ severities, ∃ m, sevRank u = .ok m ∧ m ≤ n

theorem mostSevere_concat {l : List Json} {a b v : Json} (hl : MostSevere l a)
    (h : maxSeverity a b = .ok v) : MostSevere (l ++ [b]) v := by
  obtain ⟨hmem, n, hn, hmax⟩ := hl
  unfold maxSeverity at h
  rw [hn, ok_bind] at h
  obtain ⟨m, hm, h⟩ := bind_eq_ok.mp h
  rw [pure_eq_ok] at h
  subst h
  split
  · rename_i hle
    refine ⟨List.mem_append_left _ hmem, n, hn, fun u hu => ?_⟩
    rcases List.mem_append.mp hu with hu | hu
    · exact hmax u hu
    · rw [List.mem_singleton.mp hu]
      exact ⟨m, hm, hle⟩
  · rename_i hlt
    refine ⟨List.mem_append_right _ List.mem_cons_self, m, hm, fun u hu => ?_⟩
    rcases List.mem_append.mp hu with hu | hu
    · obtain ⟨k, hk, hle⟩ := hmax u hu
      exact ⟨k, hk, hle.trans (le_of_not_ge hlt)⟩
    · rw [List.mem_singleton.mp hu]
      exact ⟨m, hm, le_rfl⟩

/-- The rank of a value tells the severities apart. -/
theorem eq_of_sevRank {u v : Json} {n : ℕ} (hu : sevRank u = .ok n) (hv : sevRank v = .ok n)
    (hn : 0 < n) : u = v := by
  have hcases : ∀ {x : Json}, sevRank x = .ok n →
      x = .str "sev1" ∧ n = 4 ∨ x = .str "sev2" ∧ n = 3 ∨ x = .str "sev3" ∧ n = 2 ∨
        x = .str "sev4" ∧ n = 1 := by
    intro x hx
    unfold sevRank at hx
    obtain ⟨⟨⟩, -, hx⟩ := bind_eq_ok.mp hx
    split at hx <;> rw [pure_eq_ok] at hx
    · exact Or.inl ⟨rfl, hx.symm⟩
    · exact Or.inr (Or.inl ⟨rfl, hx.symm⟩)
    · exact Or.inr (Or.inr (Or.inl ⟨rfl, hx.symm⟩))
    · exact Or.inr (Or.inr (Or.inr ⟨rfl, hx.symm⟩))
    · rw [← hx] at hn
      cases hn
  rcases hcases hu with ⟨rfl, h⟩ | ⟨rfl, h⟩ | ⟨rfl, h⟩ | ⟨rfl, h⟩ <;>
    rcases hcases hv with ⟨rfl, h'⟩ | ⟨rfl, h'⟩ | ⟨rfl, h'⟩ | ⟨rfl, h'⟩ <;>
    first | rfl | omega

/-- Two values that nothing outranks in the same severities are the same severity. -/
theorem MostSevere.unique {l l' : List Json} {u v : Json} (hperm : ∀ w, w ∈ l ↔ w ∈ l')
    (hu : MostSevere l u) (hv : MostSevere l' v) {n : ℕ} (hn : sevRank u = .ok n) (hpos : 0 < n) :
    u = v := by
  obtain ⟨hmu, n', hn', hmaxu⟩ := hu
  obtain rfl : n = n' := Except.ok.inj (hn.symm.trans hn')
  obtain ⟨hmv, m, hm, hmaxv⟩ := hv
  obtain ⟨k, hk, hkn⟩ := hmaxu v ((hperm v).mpr hmv)
  obtain rfl : m = k := Except.ok.inj (hm.symm.trans hk)
  obtain ⟨k, hk, hnk⟩ := hmaxv u ((hperm u).mp hmu)
  obtain rfl : n = k := Except.ok.inj (hn.symm.trans hk)
  obtain rfl : n = m := Nat.le_antisymm hnk hkn
  exact eq_of_sevRank hn hm hpos

/-- A run that ends in a severity of the table starts in a value that has a rank. -/
theorem rank_of_run {n : ℕ} (h : events.foldlM (IncidentState.step env) s = .ok s')
    (hn : sevRank s'.severity = .ok n) : ∃ m, sevRank s.severity = .ok m := by
  induction events generalizing s with
  | nil =>
    rw [List.foldlM_nil, pure_eq_ok] at h
    exact ⟨n, h ▸ hn⟩
  | cons e events ih =>
    obtain ⟨t, hstep, h⟩ := foldlM_cons_eq_ok.mp h
    obtain ⟨m, hm⟩ := ih h
    cases IncidentState.step_cases hstep with
    | keep _ _ hsev | transition _ _ _ _ hsev | reopen _ _ _ _ _ hsev => exact ⟨m, hsev ▸ hm⟩
    | severity _ _ hsev =>
      unfold maxSeverity at hsev
      obtain ⟨k, hk, -⟩ := bind_eq_ok.mp hsev
      exact ⟨k, hk⟩

/-- A run folds the severities of its events into the one before it. -/
theorem mostSevere_run {l : List Json} (hl : MostSevere l s.severity)
    (h : events.foldlM (IncidentState.step env) s = .ok s') :
    MostSevere (l ++ (events.filter isSeverity).map fun e => e.get "to") s'.severity := by
  induction events generalizing s l with
  | nil =>
    rw [List.foldlM_nil, pure_eq_ok] at h
    rw [List.filter_nil, List.map_nil, List.append_nil]
    exact h ▸ hl
  | cons e events ih =>
    obtain ⟨t, hstep, h⟩ := foldlM_cons_eq_ok.mp h
    cases IncidentState.step_cases hstep with
    | keep he _ hsev | transition he _ _ _ hsev | reopen he _ _ _ _ hsev =>
      rw [List.filter_cons_of_neg (by rw [he]; exact Bool.false_ne_true)]
      exact ih (hsev ▸ hl) h
    | severity he _ hsev =>
      rw [List.filter_cons_of_pos he, List.map_cons, List.append_cons]
      exact ih (mostSevere_concat hl hsev) h

/-! ### The whole log -/

/-- The variables behind the loop over `events`. -/
def loopIncident (env : Env) (core : Dict) (events : List RecordEvent) :
    Except PyError IncidentState := do
  let s ← initIncident core
  events.foldlM (IncidentState.step env) s

theorem initIncident_eq_ok (h : initIncident core = .ok s) :
    Timed s ∧ s.severity = (core.get "severity_at_creation").orElse (.str "sev3") := by
  unfold initIncident at h
  obtain ⟨tags, -, h⟩ := bind_eq_ok.mp h
  rw [pure_eq_ok] at h
  subst h
  exact ⟨⟨nofun, fun _ => rfl, nofun, fun _ => rfl⟩, rfl⟩

/-- The loop over a log that goes on from the variables of its beginning. -/
theorem loopIncident_append {p q : List RecordEvent} (hp : loopIncident env core p = .ok s)
    (h : loopIncident env core (p ++ q) = .ok s') :
    q.foldlM (IncidentState.step env) s = .ok s' := by
  unfold loopIncident at hp h
  obtain ⟨s₀, h0, hp⟩ := bind_eq_ok.mp hp
  obtain ⟨s₁, h1, h⟩ := bind_eq_ok.mp h
  obtain rfl : s₀ = s₁ := Except.ok.inj (h0.symm.trans h1)
  obtain ⟨u, hu, h⟩ := foldlM_append_eq_ok.mp h
  obtain rfl : s = u := Except.ok.inj (hp.symm.trans hu)
  exact h

/-- What the record shows of the variables. -/
structure Shows (s : IncidentState) (i : Incident) : Prop where
  status : i.status = s.status
  resolvedAt : optionalTextOf "Incident" "resolved_at" s.resolvedAt = .ok i.resolvedAt
  closedAt : optionalTextOf "Incident" "closed_at" s.closedAt = .ok i.closedAt
  severity : s.severity = .str i.severity
  ranked : ∃ n, sevRank (.str i.severity) = .ok n ∧ 0 < n

theorem buildIncident_shows (h : buildIncident env core s = .ok i) : Shows s i := by
  unfold buildIncident at h
  simp only [bind_eq_ok, pure_eq_ok] at h
  obtain ⟨_, -, severity, hsev, _, -, _, -, _, -, _, -, _, -, _, -, _, -, _, -, _, -, _, hr, _, hc,
    _, -, _, -, _, -, _, -, rfl⟩ := h
  unfold requireMember at hsev
  split at hsev
  · rename_i text htext
    split at hsev
    · rename_i hmem
      rw [pure_eq_ok] at hsev
      subst hsev
      refine ⟨rfl, hr, hc, htext, ?_⟩
      simp only [List.mem_cons, List.not_mem_nil, or_false] at hmem
      rcases hmem with rfl | rfl | rfl | rfl
      · exact ⟨4, rfl, by decide⟩
      · exact ⟨3, rfl, by decide⟩
      · exact ⟨2, rfl, by decide⟩
      · exact ⟨1, rfl, by decide⟩
    · cases hsev
  · cases hsev

theorem foldIncident_eq_ok (h : foldIncident env core events = .ok i) :
    ∃ s, loopIncident env core events = .ok s ∧ Shows s i := by
  unfold foldIncident at h
  obtain ⟨s₀, h0, h⟩ := bind_eq_ok.mp h
  obtain ⟨s, hs, h⟩ := bind_eq_ok.mp h
  exact ⟨s, bind_eq_ok.mpr ⟨s₀, h0, hs⟩, buildIncident_shows h⟩

/-- The severity of a folded incident is the most severe that anybody gave. -/
theorem severity_mostSevere (h : foldIncident env core events = .ok i) :
    MostSevere (severitiesOf core events) (.str i.severity) := by
  obtain ⟨s, hs, hshows⟩ := foldIncident_eq_ok h
  unfold loopIncident at hs
  obtain ⟨s₀, h0, hs⟩ := bind_eq_ok.mp hs
  obtain ⟨n, hn, -⟩ := hshows.ranked
  obtain ⟨m, hm⟩ := rank_of_run hs (hshows.severity ▸ hn)
  have hsev := (initIncident_eq_ok h0).2
  have hone : MostSevere [s₀.severity] s₀.severity := by
    refine ⟨List.mem_cons_self, m, hm, fun u hu => ?_⟩
    rw [List.mem_singleton.mp hu]
    exact ⟨m, hm, le_rfl⟩
  have hrun := mostSevere_run hone hs
  rw [hsev, hshows.severity] at hrun
  exact hrun

theorem isSome_of_truthy {model field : String} {j : Json} {o : Option String}
    (h : optionalTextOf model field j = .ok o) (hj : j.truthy = true) : o.isSome = true := by
  unfold optionalTextOf at h
  split at h
  · cases hj
  · rw [pure_eq_ok] at h
    rw [← h]
    rfl
  · cases h

/-- **Timeline fields**: the resolution time stands exactly while the incident is resolved or
closed, the closing time exactly while it is closed, a closed incident keeps both through every
later event, and the severity is the most severe one raised, in whatever order. -/
theorem incident_timeline (hts : ∀ e ∈ events, e.ts.truthy = true)
    (h : foldIncident env core events = .ok i) :
    (i.resolvedAt.isSome = true ↔ i.status = .resolved ∨ i.status = .closed) ∧
    (i.closedAt.isSome = true ↔ i.status = .closed) ∧
    (∀ p q s, events = p ++ q → loopIncident env core p = .ok s → s.status = .closed →
      i.status = .closed ∧ optionalTextOf "Incident" "resolved_at" s.resolvedAt = .ok i.resolvedAt ∧
        optionalTextOf "Incident" "closed_at" s.closedAt = .ok i.closedAt) ∧
    MostSevere (severitiesOf core events) (.str i.severity) ∧
    ∀ other j, (other.filter isSeverity).Perm (events.filter isSeverity) →
      foldIncident env core other = .ok j → j.severity = i.severity := by
  obtain ⟨s, hs, hshows⟩ := foldIncident_eq_ok h
  have hrun := hs
  unfold loopIncident at hrun
  obtain ⟨s₀, h0, hrun⟩ := bind_eq_ok.mp hrun
  -- The invariant over the run, from the state that the core gives.
  have htimed : Timed s := by
    refine foldlM_invariant_of_turns (I := Timed) (G := fun _ e => e.ts.truthy = true)
      (fun u e u' hu he hstep => hu.step he hstep) events s₀ s (initIncident_eq_ok h0).1 ?_ hrun
    intro p e q u hsplit _
    exact hts e (hsplit ▸ List.mem_append_right p List.mem_cons_self)
  have hresolved : i.resolvedAt.isSome = true ↔ i.status = .resolved ∨ i.status = .closed := by
    rw [hshows.status, ← IncidentStatus.isDone_iff]
    constructor
    · intro hsome
      by_contra hnot
      have hnull := htimed.unresolved (Bool.eq_false_of_not_eq_true hnot)
      have hr := hshows.resolvedAt
      rw [hnull] at hr
      rw [← Except.ok.inj hr] at hsome
      cases hsome
    · exact fun hdone => isSome_of_truthy hshows.resolvedAt (htimed.resolved hdone)
  have hclosed : i.closedAt.isSome = true ↔ i.status = .closed := by
    rw [hshows.status]
    constructor
    · intro hsome
      by_contra hnot
      have hc := hshows.closedAt
      rw [htimed.notClosed hnot] at hc
      rw [← Except.ok.inj hc] at hsome
      cases hsome
    · exact fun hst => isSome_of_truthy hshows.closedAt (htimed.closed hst)
  refine ⟨hresolved, hclosed, ?_, severity_mostSevere h, ?_⟩
  · rintro p q t rfl ht hst
    -- From a closed state on, no event changes the status or the two times.
    have hsame : t.Same s ∧ s.status = .closed := by
      refine foldlM_invariant (I := fun u => t.Same u ∧ u.status = .closed) ?_ q t s
        ⟨⟨rfl, rfl, rfl⟩, hst⟩ (loopIncident_append ht hs)
      rintro u e u' ⟨hu, hcl⟩ hstep
      have h' := closed_step hcl hstep
      exact ⟨⟨h'.status.trans hu.status, h'.resolvedAt.trans hu.resolvedAt,
        h'.closedAt.trans hu.closedAt⟩, h'.status.trans hcl⟩
    refine ⟨hshows.status.trans hsame.2, ?_, ?_⟩
    · rw [← hsame.1.resolvedAt]
      exact hshows.resolvedAt
    · rw [← hsame.1.closedAt]
      exact hshows.closedAt
  · intro other j hperm hj
    -- Both severities are the most severe of the same list, up to its order.
    obtain ⟨t, -, hother⟩ := foldIncident_eq_ok hj
    obtain ⟨n, hn, hpos⟩ := hother.ranked
    refine Json.str.inj (MostSevere.unique ?_ (severity_mostSevere hj) (severity_mostSevere h) hn
      hpos)
    intro w
    unfold severitiesOf
    rw [List.mem_cons, List.mem_cons, (hperm.map _).mem_iff]

/-- An incident that nobody gave a severity. -/
def incidentCore : Dict := [("id", .str "inc-1")]

/-- An event of a kind that names a target. -/
def incidentEvent (kind target ts : String) : RecordEvent :=
  [("kind", .str kind), ("to", .str target), ("writer", .str "bot"), ("ts", .str ts)]

/-- An incident that is resolved, made more and less severe, and closed. -/
def closingLog : List RecordEvent :=
  [incidentEvent "status" "resolved" "2026-09-01", incidentEvent "severity" "sev1" "2026-09-02",
    incidentEvent "severity" "sev4" "2026-09-03", incidentEvent "status" "closed" "2026-09-04",
    incidentEvent "reopen" "" "2026-09-05"]

/-- An incident that is resolved and closed: it has both times, and the most severe of its
severities. -/
theorem incident_timeline_closed : ∃ i : Incident,
    foldIncident plainEnv incidentCore closingLog = .ok i ∧ i.status = .closed ∧
      i.resolvedAt.isSome = true ∧ i.closedAt.isSome = true ∧
      MostSevere (severitiesOf incidentCore closingLog) (.str i.severity) := by
  have hts : ∀ e ∈ closingLog, e.ts.truthy = true := by decide
  obtain ⟨hr, hc, -, hsev, -⟩ := @incident_timeline plainEnv incidentCore closingLog _ hts rfl
  exact ⟨_, rfl, rfl, hr.mpr (Or.inr rfl), hc.mpr rfl, hsev⟩

end SkCoord.Itil
