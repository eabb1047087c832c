import SkCoord.Itil.Equiv.Headline

/-!
# Schedules and windows

A scheduled change carries a window and a change before its schedule carries none.  The window is
set by `schedule` and cleared by `unschedule` and `window_missed`, and a raw `status` event can
take the same two edges without it.  `window_paired_iff`: the status and the window go together in
every prefix of a log exactly when no `status` event of it crosses one of these edges.
-/

namespace SkCoord.Itil

open Python

variable {env : Env} {ct : Json} {core : Dict} {votes : List CABDecision} {e : ChangeEvent}
  {g : ChangeStatus} {s s' t : ChangeState} {c : Change} {events : List ChangeEvent}

/-- A status and a window that go together. -/
structure Paired (status : ChangeStatus) (window : Option Dict) : Prop where
  scheduled : status = .scheduled → window.isSome = true
  unscheduled : status = .proposed ∨ status = .reviewing ∨ status = .approved → window = none

/-- A raw `status` event over an edge between `approved` and `scheduled`, behind a gate. -/
def Crosses (gate : ChangeStatus) (e : ChangeEvent) : Prop :=
  e.kind = .status ∧
    (gate = .approved ∧ e.get "to" = .str "scheduled" ∨
      gate = .scheduled ∧ e.get "to" = .str "approved")

/-- No `status` event of the log crosses an edge between `approved` and `scheduled`. -/
def ByOwnEvents (env : Env) (core : Dict) (votes : List CABDecision) (events : List ChangeEvent) :
    Prop :=
  ∀ p e q s g, events = p ++ e :: q → loopChange env core votes p = .ok s →
    s.gate env (changeTypeOf core) core votes = .ok g → ¬Crosses g e

/-! ### One event -/

namespace ChangeState

/-- The gate of a change that is not pending is its status, and a pending one is undecided,
approved or rejected. -/
theorem gate_eq (h : gate env ct core votes s = .ok g) :
    g = s.status ∨ s.status.isPending = true ∧ (g = .approved ∨ g = .rejected) := by
  by_cases hs : s.status.isPending = true
  · cases gate_cases h with
    | undecided => exact Or.inl rfl
    | standard _ | auto _ | vote _ => exact Or.inr ⟨hs, Or.inl rfl⟩
    | veto _ => exact Or.inr ⟨hs, Or.inr rfl⟩
  · exact Or.inl (gate_of_not_pending (Bool.eq_false_of_not_eq_true hs) h)

end ChangeState

/-- A status that is neither scheduled nor before its schedule has no say about the window. -/
theorem paired_of_past {status : ChangeStatus} {window : Option Dict} (h₁ : status ≠ .proposed)
    (h₂ : status ≠ .reviewing) (h₃ : status ≠ .approved) (h₄ : status ≠ .scheduled) :
    Paired status window where
  scheduled := fun h => absurd h h₄
  unscheduled := by
    rintro (h | h | h)
    · exact absurd h h₁
    · exact absurd h h₂
    · exact absurd h h₃

/-- An event that crosses no edge keeps the status and the window together. -/
theorem Paired.step (hs : Paired s.status s.scheduledWindow)
    (hcross : ∀ g, s.gate env ct core votes = .ok g → ¬Crosses g e)
    (h : s.step env ct core votes e = .ok s') : Paired s'.status s'.scheduledWindow := by
  cases ChangeState.step_cases h with
  | keep hst _ hw | draft _ hst _ hw => rw [hst, hw]; exact hs
  | review hst hst' _ hw =>
    rw [hst', hw]
    exact ⟨nofun, fun _ => hs.unscheduled (Or.inl hst)⟩
  | back _ hst _ hw =>
    rw [hst, hw]
    exact ⟨nofun, fun _ => rfl⟩
  | transition g hg hmem _ _ hwindow =>
    rcases hwindow with ⟨hk, hto, hw⟩ | ⟨hst, hw⟩
    swap
    · rw [hst]
      exact ⟨fun _ => hw, by rintro (h | h | h) <;> cases h⟩
    rw [hw]
    generalize s'.status = c at hto hmem ⊢
    have hnot := hcross g hg
    unfold Crosses at hnot
    -- a status that the gate derived is that of a pending change, which has no window
    rcases ChangeState.gate_eq hg with heq | ⟨hpend, -⟩
    · cases g with
      | proposed | reviewing =>
        refine ⟨?_, fun _ => hs.unscheduled ?_⟩
        · rintro rfl
          exact absurd hmem (by decide)
        · rw [← heq]
          simp
      | approved | scheduled =>
        refine paired_of_past ?_ ?_ ?_ ?_ <;> rintro rfl
        all_goals first
          | exact absurd hmem (by decide)
          | exact hnot ⟨hk, Or.inl ⟨rfl, hto⟩⟩
          | exact hnot ⟨hk, Or.inr ⟨rfl, hto⟩⟩
      | _ =>
        refine paired_of_past ?_ ?_ ?_ ?_ <;> rintro rfl <;> exact absurd hmem (by decide)
    · have hnone : s.scheduledWindow = none := by
        refine hs.unscheduled ?_
        cases hst : s.status <;> rw [hst] at hpend <;> first | cases hpend; done | simp
      rw [hnone]
      refine ⟨?_, fun _ => rfl⟩
      rintro rfl
      have happ : g = .approved := by
        cases g <;> first | rfl | exact absurd hmem (by decide)
      exact absurd ⟨hk, Or.inl ⟨happ, hto⟩⟩ hnot

/-- A pending change has no window, whatever its log holds. -/
theorem pending_step (hs : s.status.isPending = true → s.scheduledWindow = none)
    (h : s.step env ct core votes e = .ok s') :
    s'.status.isPending = true → s'.scheduledWindow = none := by
  intro hpend
  cases ChangeState.step_cases h with
  | keep hst _ hw | draft _ hst _ hw => rw [hst] at hpend; rw [hw]; exact hs hpend
  | review hst hst' _ hw => rw [hw]; exact hs (by rw [hst]; rfl)
  | back _ hst _ hw => rw [hst] at hpend; cases hpend
  | transition g hg hmem _ _ hwindow =>
    rcases hwindow with ⟨hk, hto, hw⟩ | ⟨hst, hw⟩
    swap
    · rw [hst] at hpend
      cases hpend
    rw [hw]
    generalize s'.status = c at hpend hmem
    have hgp : g.isPending = true := by
      cases g <;> first | rfl | skip
      all_goals cases c <;> first | exact absurd hmem (by decide) | cases hpend
    rcases ChangeState.gate_eq hg with heq | ⟨hp, -⟩
    · exact hs (heq ▸ hgp)
    · exact hs hp

/-- A raw `status` event over an edge moves the status and leaves the window. -/
theorem step_crosses (hg : s.gate env ct core votes = .ok g) (he : Crosses g e) :
    ∃ s', s.step env ct core votes e = .ok s' ∧ s'.scheduledWindow = s.scheduledWindow ∧
      (g = .approved ∧ s'.status = .scheduled ∨ g = .scheduled ∧ s'.status = .approved) := by
  obtain ⟨hk, hedge⟩ := he
  unfold ChangeState.step
  rw [hk]
  dsimp only
  rw [hg, ok_bind]
  have hcab : ChangeState.cabGated g e = false := by
    have hpend : g.isPending = false := by rcases hedge with ⟨rfl, -⟩ | ⟨rfl, -⟩ <;> rfl
    unfold ChangeState.cabGated
    rw [hpend, Bool.and_false, Bool.false_and]
  have hmissing : ChangeState.noteMissing g e = .ok false := by
    rcases hedge with ⟨rfl, -⟩ | ⟨rfl, -⟩ <;> rfl
  unfold ChangeState.foldStatus
  rw [hcab, hmissing]
  rcases hedge with ⟨rfl, hto⟩ | ⟨rfl, hto⟩ <;> rw [hto]
  · exact ⟨_, rfl, rfl, Or.inl ⟨rfl, rfl⟩⟩
  · exact ⟨_, rfl, rfl, Or.inr ⟨rfl, rfl⟩⟩

/-! ### Behind the loop -/

/-- What the derivations behind the loop do to the status and the window. -/
def Derives (s t : ChangeState) : Prop :=
  t.scheduledWindow = s.scheduledWindow ∧
    (t.status = s.status ∨
      s.status.isPending = true ∧ (t.status = .approved ∨ t.status = .rejected))

theorem Derives.trans {u : ChangeState} (h₁ : Derives s t) (h₂ : Derives t u) : Derives s u := by
  obtain ⟨hw₁, hst₁⟩ := h₁
  obtain ⟨hw₂, hst₂⟩ := h₂
  refine ⟨hw₂.trans hw₁, ?_⟩
  rcases hst₁ with heq | ⟨hpend, hres⟩
  · rw [← heq]
    exact hst₂
  · refine Or.inr ⟨hpend, ?_⟩
    rcases hst₂ with heq | ⟨-, hres'⟩
    · rw [heq]
      exact hres
    · exact hres'

theorem derives_resolveStandard : Derives s (resolveStandard env core s) := by
  unfold resolveStandard
  split
  · rename_i h
    have hst : s.status = .proposed := eq_of_beq (Bool.and_eq_true_iff.mp h).2
    exact ⟨rfl, Or.inr ⟨by rw [hst]; rfl, Or.inl rfl⟩⟩
  · exact ⟨rfl, Or.inl rfl⟩

theorem derives_resolveAutoNormal (h : resolveAutoNormal env core votes s = .ok t) :
    Derives s t := by
  unfold resolveAutoNormal at h
  split at h
  · rename_i hprop
    have hst : s.status = .proposed := eq_of_beq hprop
    obtain ⟨auto, -, h⟩ := bind_eq_ok.mp h
    rw [pure_eq_ok] at h
    subst h
    split
    · exact ⟨rfl, Or.inr ⟨by rw [hst]; rfl, Or.inl rfl⟩⟩
    · exact ⟨rfl, Or.inl rfl⟩
  · rw [pure_eq_ok] at h
    exact h ▸ ⟨rfl, Or.inl rfl⟩

theorem derives_resolveVotes : Derives s (resolveVotes env votes s) := by
  unfold resolveVotes
  split
  · rename_i h
    have hpend := (Bool.and_eq_true_iff.mp h).1
    split
    · exact ⟨rfl, Or.inr ⟨hpend, Or.inr rfl⟩⟩
    · split
      · exact ⟨rfl, Or.inr ⟨hpend, Or.inl rfl⟩⟩
      · exact ⟨rfl, Or.inl rfl⟩
  · exact ⟨rfl, Or.inl rfl⟩

theorem buildChange_window (h : buildChange env core s = .ok c) :
    c.scheduledWindow = s.scheduledWindow := by
  unfold buildChange at h
  simp only [bind_eq_ok, pure_eq_ok] at h
  obtain ⟨_, -, _, -, _, -, _, -, _, -, _, -, _, -, _, -, _, -, _, -, _, -, _, -, _, -, _, -, _,
    -, rfl⟩ := h
  rfl

/-- A folded change has the window of the loop, and its status unless that was pending. -/
theorem foldChange_window (h : foldChange env core events votes = .ok c) :
    ∃ s, loopChange env core votes events = .ok s ∧ c.scheduledWindow = s.scheduledWindow ∧
      (c.status = s.status ∨
        s.status.isPending = true ∧ (c.status = .approved ∨ c.status = .rejected)) := by
  unfold foldChange at h
  obtain ⟨s, hs, h⟩ := bind_eq_ok.mp h
  obtain ⟨t, ht, h⟩ := bind_eq_ok.mp h
  have hvotes : Derives t (resolveVotes env votes t) := derives_resolveVotes
  obtain ⟨hw, hst⟩ :=
    (derives_resolveStandard.trans (derives_resolveAutoNormal ht)).trans hvotes
  refine ⟨s, hs, (buildChange_window h).trans hw, ?_⟩
  rw [(buildChange_eq_ok h).1]
  exact hst

/-! ### The whole log -/

theorem initChange_window (h : initChange core = .ok s) : s.scheduledWindow = none := by
  unfold initChange at h
  obtain ⟨tags, -, h⟩ := bind_eq_ok.mp h
  rw [pure_eq_ok] at h
  rw [← h]

/-- The loop over a log that crosses no edge keeps the status and the window together. -/
theorem loop_paired (hown : ByOwnEvents env core votes events)
    (h : loopChange env core votes events = .ok s) : Paired s.status s.scheduledWindow := by
  unfold loopChange at h
  obtain ⟨s₀, h0, h⟩ := bind_eq_ok.mp h
  refine foldlM_invariant_of_turns (I := fun u : ChangeState => Paired u.status u.scheduledWindow)
    (G := fun u e => ∀ g, u.gate env (changeTypeOf core) core votes = .ok g → ¬Crosses g e)
    (fun u e u' hu hcross hstep => hu.step hcross hstep) events s₀ s ?_ ?_ h
  · rw [initChange_status h0, initChange_window h0]
    exact ⟨nofun, fun _ => rfl⟩
  · intro p e q u hsplit hu g
    exact hown p e q u g hsplit (bind_eq_ok.mpr ⟨s₀, h0, hu⟩)

theorem loopChange_concat {p : List ChangeEvent} (hs : loopChange env core votes p = .ok s)
    (h : s.step env (changeTypeOf core) core votes e = .ok s') :
    loopChange env core votes (p ++ [e]) = .ok s' := by
  unfold loopChange at hs ⊢
  obtain ⟨s₀, h0, hs⟩ := bind_eq_ok.mp hs
  refine bind_eq_ok.mpr ⟨s₀, h0, foldlM_append_eq_ok.mpr ⟨s, hs, ?_⟩⟩
  exact foldlM_cons_eq_ok.mpr ⟨s', h, rfl⟩

theorem loop_pending (h : loopChange env core votes events = .ok s) :
    s.status.isPending = true → s.scheduledWindow = none := by
  unfold loopChange at h
  obtain ⟨s₀, h0, h⟩ := bind_eq_ok.mp h
  exact foldlM_invariant
    (I := fun u : ChangeState => u.status.isPending = true → u.scheduledWindow = none)
    (fun u e u' hu hstep => pending_step hu hstep) events s₀ s
    (fun _ => initChange_window h0) h

/-- **Schedule and window** go together in the fold of a log that crosses no edge by a raw `status`
event, and a log whose prefixes all keep them together crosses none. -/
theorem window_paired_iff :
    (ByOwnEvents env core votes events →
      ∀ c, foldChange env core events votes = .ok c → Paired c.status c.scheduledWindow) ∧
    ((∀ p q, events = p ++ q → ∃ c, foldChange env core p votes = .ok c ∧
      Paired c.status c.scheduledWindow) → ByOwnEvents env core votes events) := by
  constructor
  · intro hown c hc
    obtain ⟨s, hs, hw, hst⟩ := foldChange_window hc
    have hpaired := loop_paired hown hs
    rw [hw]
    rcases hst with heq | ⟨hpend, hres⟩
    · rw [heq]
      exact hpaired
    · rw [loop_pending hs hpend]
      refine ⟨fun hsch => ?_, fun _ => rfl⟩
      rw [hsch] at hres
      rcases hres with h | h <;> cases h
  · intro hall p e q s g hsplit hs hg hcross
    obtain ⟨c, hc, hpc⟩ := hall p (e :: q) hsplit
    obtain ⟨d, hd, hpd⟩ := hall (p ++ [e]) q (by rw [hsplit, List.append_cons])
    obtain ⟨u, hu, hwc, hstc⟩ := foldChange_window hc
    obtain rfl : s = u := Except.ok.inj (hs.symm.trans hu)
    obtain ⟨v, hv, hwd, hstd⟩ := foldChange_window hd
    obtain ⟨s', hstep, hw', hedge⟩ := step_crosses hg hcross
    obtain rfl : s' = v := Except.ok.inj ((loopChange_concat hs hstep).symm.trans hv)
    rw [hwc] at hpc
    rw [hwd, hw'] at hpd
    have hmoved : d.status = s'.status := by
      rcases hstd with heq | ⟨hpend, -⟩
      · exact heq
      · rcases hedge with ⟨-, h⟩ | ⟨-, h⟩ <;> rw [h] at hpend <;> cases hpend
    rcases hedge with ⟨rfl, hsch⟩ | ⟨rfl, happ⟩
    · -- scheduled without a window: the change was approved, or pending, before
      have hsome := hpd.scheduled (hmoved.trans hsch)
      have hnone : s.scheduledWindow = none := by
        rcases ChangeState.gate_eq hg with heq | ⟨hpend, -⟩
        · refine hpc.unscheduled (Or.inr (Or.inr ?_))
          rcases hstc with h | ⟨hpend, -⟩
          · rw [h, ← heq]
          · rw [← heq] at hpend
            cases hpend
        · exact loop_pending hs hpend
      rw [hnone] at hsome
      cases hsome
    · -- approved with the window of the schedule before
      have hnone := hpd.unscheduled (Or.inr (Or.inr (hmoved.trans happ)))
      have hstat : s.status = .scheduled := by
        rcases ChangeState.gate_eq hg with heq | ⟨-, h | h⟩
        · exact heq.symm
        · cases h
        · cases h
      have hsome : s.scheduledWindow.isSome = true := by
        refine hpc.scheduled ?_
        rcases hstc with h | ⟨hpend, -⟩
        · rw [h, hstat]
        · rw [hstat] at hpend
          cases hpend
      rw [hnone] at hsome
      cases hsome

/-- A change that is approved and then scheduled by its own event: it is scheduled and has the
window of the event. -/
theorem window_paired_schedule : ∃ c : Change,
    foldChange plainEnv normalCore [scheduleAt "2026-09-01"] [humanVote "2026-08-31"] = .ok c ∧
    c.status = .scheduled ∧ Paired c.status c.scheduledWindow := by
  refine ⟨_, rfl, rfl, (@window_paired_iff plainEnv normalCore
    [humanVote "2026-08-31"] [scheduleAt "2026-09-01"]).1 ?_ _ rfl⟩
  rintro (_ | ⟨a, p⟩) e q s g hl - - ⟨hk, -⟩
  · cases hl
    cases hk
  · simp at hl

/-- A raw status event at a time. -/
def statusAt (ts target : String) : ChangeEvent :=
  [("kind", .str "status"), ("to", .str target), ("writer", .str "bot"), ("ts", .str ts)]

/-- Raw events schedule a change without a window, and leave the window of an approved one. -/
theorem status_breaks_pairs :
    (∃ c : Change, foldChange plainEnv normalCore [statusAt "2026-09-01" "scheduled"]
        [humanVote "2026-08-31"] = .ok c ∧
      c.status = .scheduled ∧ c.scheduledWindow = none) ∧
    ∃ c : Change, foldChange plainEnv normalCore
        [scheduleAt "2026-09-01", statusAt "2026-09-02" "approved"]
        [humanVote "2026-08-31"] = .ok c ∧
      c.status = .approved ∧ c.scheduledWindow.isSome = true :=
  ⟨⟨_, rfl, rfl, rfl⟩, ⟨_, rfl, rfl, rfl⟩⟩

end SkCoord.Itil
