import SkCoord.Itil.Equiv.Step

/-!
# Approval of changes

For a change that is neither standard nor approves itself as auto-normal, and a log without
migrated events:

* `approval_needs_vote`: every event that takes the change out of `proposed`/`reviewing` finds a
  human approval by somebody else than the drafter known so far, and `vote_after_schedule`: when
  the vote was cast is no part of it.
* `no_self_approval_when`: that somebody is another than the final drafter as long as nobody who
  cast all the approvals drafts the change after it was approved, and not beyond that;
  `drafter_approves` is such a log.
* `veto_supremacy`: one rejection keeps every change that is not standard, migrated events
  included, from being approved.
-/

namespace SkCoord.Itil

open Python

variable {env : Env} {core : Dict} {votes : List CABDecision}

namespace ChangeStatus

/-- An authorized status is entered from another one, or by an approval. -/
theorem isAuthorized_of_mem_transitions {g c : ChangeStatus} (hc : c ∈ g.transitions)
    (hauth : c.isAuthorized = true) : g.isAuthorized = true ∨ g.isPending = true ∧ c = .approved := by
  cases g with
  | proposed | reviewing =>
    refine Or.inr ⟨rfl, ?_⟩
    cases c <;> first | rfl | exact absurd hc (by decide) | exact absurd hauth (by decide)
  | rejected => rw [List.mem_singleton.mp hc] at hauth; cases hauth
  | closed => cases hc
  | _ => exact Or.inl rfl

theorem isPending_of_not_isAuthorized {c : ChangeStatus} (h : c.isAuthorized = false) :
    c.isPending = true ∨ c = .rejected ∨ c = .closed := by
  cases c <;> simp_all [isAuthorized, isPending]

theorem not_isAuthorized_of_isPending {c : ChangeStatus} (h : c.isPending = true) :
    c.isAuthorized = false := by
  cases c <;> simp_all [isAuthorized, isPending]

end ChangeStatus

namespace ChangeState

variable {ct : Json} {s s' : ChangeState} {e : ChangeEvent}

/-- An event that authorizes the change finds an approval by somebody else than the drafter. -/
theorem step_authorizes (hstd : ct.pyEq (.str "standard") = false)
    (hauto : autoNormal ct s.tags core votes ≠ .ok true)
    (hnode : (e.get "node").pyEq (.str "migrated") = false)
    (h : step env ct core votes s e = .ok s') (hs : s.status.isAuthorized = false)
    (hs' : s'.status.isAuthorized = true) :
    ApprovedByOther env votes s.preparedBy ∧ s'.preparedBy = s.preparedBy := by
  cases step_cases h with
  | keep hst hp hw => rw [hst, hs] at hs'; cases hs'
  | draft hk hst hp hw => rw [hst, hs] at hs'; cases hs'
  | review hst hst' hp hw => rw [hst'] at hs'; cases hs'
  | back hst hst' hp hw => rw [hst] at hs; cases hs
  | transition g hg hmem happ hp hw =>
    refine ⟨?_, hp⟩
    have hmig : s'.status = .approved → g.isPending = true → False := by
      intro h1 h2
      rw [happ h1 h2] at hnode
      cases hnode
    cases gate_cases hg with
    | undecided =>
      rcases ChangeStatus.isAuthorized_of_mem_transitions hmem hs' with hg' | ⟨hpend, heq⟩
      · rw [hs] at hg'; cases hg'
      · exact (hmig heq hpend).elim
    | standard hct => rw [hstd] at hct; cases hct
    | auto ha => exact absurd ha hauto
    | veto hrej =>
      rcases ChangeStatus.isAuthorized_of_mem_transitions hmem hs' with hg' | ⟨hpend, -⟩
      · cases hg'
      · cases hpend
    | vote hv => exact hv

/-- A veto keeps a change that is not standard from being authorized. -/
theorem step_veto (hstd : ct.pyEq (.str "standard") = false)
    (hveto : (rejections votes).isEmpty = false) (h : step env ct core votes s e = .ok s')
    (hs : s.status.isAuthorized = false) : s'.status.isAuthorized = false := by
  cases step_cases h with
  | keep hst hp hw => rw [hst, hs]
  | draft hk hst hp hw => rw [hst, hs]
  | review hst hst' hp hw => rw [hst']; rfl
  | back hst hst' hp hw => rw [hst] at hs; cases hs
  | transition g hg hmem happ hp hw =>
    by_contra hauth
    have hgate : g.isAuthorized = false ∧ g.isPending = false := by
      rcases ChangeStatus.isPending_of_not_isAuthorized hs with hpend | hst | hst
      · rw [gate_of_veto hstd hveto hpend hg]; exact ⟨rfl, rfl⟩
      · rw [gate_of_not_pending (by rw [hst]; rfl) hg, hst]; exact ⟨rfl, rfl⟩
      · rw [gate_of_not_pending (by rw [hst]; rfl) hg, hst]; exact ⟨rfl, rfl⟩
    rcases ChangeStatus.isAuthorized_of_mem_transitions hmem
      (Bool.eq_true_of_not_eq_false hauth) with hg' | ⟨hpend, -⟩
    · rw [hgate.1] at hg'; cases hg'
    · rw [hgate.2] at hpend; cases hpend

end ChangeState

/-! ### Behind the loop -/

theorem initChange_status {s : ChangeState} (h : initChange core = .ok s) :
    s.status = .proposed := by
  unfold initChange at h
  obtain ⟨tags, -, h⟩ := bind_eq_ok.mp h
  rw [pure_eq_ok] at h
  rw [← h]

theorem resolveStandard_of_not (hstd : (changeTypeOf core).pyEq (.str "standard") = false)
    (s : ChangeState) : resolveStandard env core s = s := by
  unfold resolveStandard
  rw [hstd, Bool.false_and, if_neg Bool.false_ne_true]

theorem resolveAutoNormal_of_not {s t : ChangeState}
    (hauto : autoNormal (changeTypeOf core) s.tags core votes ≠ .ok true)
    (h : resolveAutoNormal env core votes s = .ok t) : t = s := by
  unfold resolveAutoNormal at h
  split at h
  · obtain ⟨auto, ha, h⟩ := bind_eq_ok.mp h
    cases auto with
    | true => exact absurd ha hauto
    | false => rw [if_neg Bool.false_ne_true, pure_eq_ok] at h; exact h.symm
  · rw [pure_eq_ok] at h
    exact h.symm

theorem resolveVotes_preparedBy (s : ChangeState) :
    (resolveVotes env votes s).preparedBy = s.preparedBy := by
  unfold resolveVotes
  split
  · split
    · rfl
    · split <;> rfl
  · rfl

theorem resolveVotes_of_not_pending {s : ChangeState} (hs : s.status.isPending = false) :
    resolveVotes env votes s = s := by
  unfold resolveVotes
  rw [hs, Bool.false_and, if_neg Bool.false_ne_true]

/-- What the votes authorize, somebody else than the drafter approved. -/
theorem resolveVotes_authorizes {s : ChangeState} (hs : s.status.isAuthorized = false)
    (h : (resolveVotes env votes s).status.isAuthorized = true) :
    ApprovedByOther env votes s.preparedBy := by
  unfold resolveVotes at h
  split at h
  · split at h
    · cases h
    · split at h
      · rename_i hvote
        exact any_approvals_iff.mp hvote
      · rw [hs] at h; cases h
  · rw [hs] at h; cases h

theorem resolveVotes_of_veto {s : ChangeState} (hveto : (rejections votes).isEmpty = false)
    (hs : s.status.isPending = true) : (resolveVotes env votes s).status = .rejected := by
  have hne : votes.isEmpty = false := by
    cases votes with
    | nil => cases hveto
    | cons v l => rfl
  unfold resolveVotes
  rw [hs, hne, hveto]
  rfl

theorem buildChange_eq_ok {s : ChangeState} {c : Change} (h : buildChange env core s = .ok c) :
    c.status = s.status ∧ requireOptionalStr "prepared_by" s.preparedBy = .ok c.preparedBy := by
  unfold buildChange at h
  simp only [bind_eq_ok, pure_eq_ok] at h
  obtain ⟨_, -, _, -, _, -, _, -, _, -, _, -, _, -, _, -, _, -, _, -, _, -, _, -, _, -, _, -, _,
    hp, rfl⟩ := h
  exact ⟨rfl, hp⟩

/-- The drafter of a change is the one of the loop. -/
theorem preparedBy_ne_iff {field : String} {j : Json} {o : Option String}
    (h : requireOptionalStr field j = .ok o) (a : String) :
    (Json.str a).pyEq j = false ↔ o ≠ some a := by
  rw [← Bool.not_eq_true, Json.pyEq_str_iff]
  unfold requireOptionalStr at h
  split at h
  · cases h; simp
  · cases h; simp
  · cases h

/-- A change that is folded without a derivation of its own. -/
theorem foldChange_eq_ok {events : List ChangeEvent} {c : Change}
    (hstd : (changeTypeOf core).pyEq (.str "standard") = false)
    (hauto : ∀ s, loopChange env core votes events = .ok s →
      autoNormal (changeTypeOf core) s.tags core votes ≠ .ok true)
    (h : foldChange env core events votes = .ok c) :
    ∃ s, loopChange env core votes events = .ok s ∧
      c.status = (resolveVotes env votes s).status ∧
      requireOptionalStr "prepared_by" s.preparedBy = .ok c.preparedBy := by
  unfold foldChange at h
  obtain ⟨s, hs, h⟩ := bind_eq_ok.mp h
  obtain ⟨t, ht, h⟩ := bind_eq_ok.mp h
  rw [resolveStandard_of_not hstd] at ht
  obtain ⟨hst, hp⟩ := buildChange_eq_ok h
  rw [resolveAutoNormal_of_not (hauto s hs) ht] at hst hp
  rw [resolveVotes_preparedBy] at hp
  exact ⟨s, hs, hst, hp⟩

/-! ### The whole log -/

/-- Only CAB votes can approve the change: it is not standard, never meets the auto-normal
condition, and no event of its log was migrated. -/
structure NeedsCab (env : Env) (core : Dict) (votes : List CABDecision)
    (events : List ChangeEvent) : Prop where
  notStandard : (changeTypeOf core).pyEq (.str "standard") = false
  notAutoNormal : ∀ p q s, events = p ++ q → loopChange env core votes p = .ok s →
    autoNormal (changeTypeOf core) s.tags core votes ≠ .ok true
  notMigrated : ∀ e ∈ events, (e.get "node").pyEq (.str "migrated") = false

namespace NeedsCab

variable {events : List ChangeEvent}

/-- The condition on the logs that this one continues. -/
theorem of_append {p q : List ChangeEvent} (h : NeedsCab env core votes (p ++ q)) :
    NeedsCab env core votes p where
  notStandard := h.notStandard
  notAutoNormal := fun p' q' s hp =>
    h.notAutoNormal p' (q' ++ q) s (by rw [hp, List.append_assoc])
  notMigrated := fun e he => h.notMigrated e (List.mem_append_left q he)

/-- A change whose core does not name the operator as its author is not auto-normal. -/
theorem of_not_operator (hstd : (changeTypeOf core).pyEq (.str "standard") = false)
    (hop : (core.get "created_by").pyEq (.str "operator") = false)
    (hnode : ∀ e ∈ events, (e.get "node").pyEq (.str "migrated") = false) :
    NeedsCab env core votes events where
  notStandard := hstd
  notAutoNormal := by
    intro p q s _ _ h
    unfold autoNormal at h
    rw [hop, Bool.and_false, Bool.false_and, if_neg Bool.false_ne_true] at h
    cases h
  notMigrated := hnode

/-- **Loop rule**: an invariant of the turns that leave the gate to the votes. -/
theorem loop_invariant (h : NeedsCab env core votes events) {I : ChangeState → Prop}
    (hinit : ∀ s, s.status = .proposed → I s)
    (hstep : ∀ p e q s s', events = p ++ e :: q → loopChange env core votes p = .ok s → I s →
      (∀ (_ : s.status.isAuthorized = false) (_ : s'.status.isAuthorized = true),
        ApprovedByOther env votes s.preparedBy ∧ s'.preparedBy = s.preparedBy) →
      ChangeState.step env (changeTypeOf core) core votes s e = .ok s' → I s')
    {s : ChangeState} (hs : loopChange env core votes events = .ok s) : I s := by
  unfold loopChange at hs
  obtain ⟨s₀, h0, hs⟩ := bind_eq_ok.mp hs
  refine foldlM_invariant_of_turns (I := I)
    (G := fun u e => ∃ p q, events = p ++ e :: q ∧ loopChange env core votes p = .ok u)
    ?_ events s₀ s (hinit s₀ (initChange_status h0)) ?_ hs
  · rintro u e u' hu ⟨p, q, hsplit, hp⟩ hstep'
    refine hstep p e q u u' hsplit hp hu ?_ hstep'
    exact ChangeState.step_authorizes h.notStandard (h.notAutoNormal p (e :: q) u hsplit hp)
      (h.notMigrated e (hsplit ▸ List.mem_append_right p List.mem_cons_self)) hstep'
  · intro p e q u hsplit hu
    exact ⟨p, q, hsplit, bind_eq_ok.mpr ⟨s₀, h0, hu⟩⟩

end NeedsCab

/-- An event that takes the change out of `proposed`/`reviewing` finds a human approval by somebody
else than the drafter known so far among the votes, and so does the fold of a change that was
taken out. -/
theorem approval_needs_vote {events : List ChangeEvent} (h : NeedsCab env core votes events) :
    (∀ p e q s s', events = p ++ e :: q → loopChange env core votes p = .ok s →
      ChangeState.step env (changeTypeOf core) core votes s e = .ok s' →
      s.status.isPending = true → s'.status.isAuthorized = true →
      ApprovedByOther env votes s.preparedBy) ∧
    (∀ c, foldChange env core events votes = .ok c → c.status.isAuthorized = true →
      ∃ v ∈ votes, v.decision = .approved ∧ isHumanApproval env v = true) := by
  constructor
  · intro p e q s s' hsplit hs hstep hpend hauth
    exact (ChangeState.step_authorizes h.notStandard (h.notAutoNormal p (e :: q) s hsplit hs)
      (h.notMigrated e (hsplit ▸ List.mem_append_right p List.mem_cons_self)) hstep
      (ChangeStatus.not_isAuthorized_of_isPending hpend) hauth).1
  · intro c hc hauth
    have hvote : ∀ {j : Json}, ApprovedByOther env votes j →
        ∃ v ∈ votes, v.decision = .approved ∧ isHumanApproval env v = true :=
      fun ⟨v, hv, hdec, _, hhuman⟩ => ⟨v, hv, hdec, hhuman⟩
    obtain ⟨s, hs, hst, -⟩ := foldChange_eq_ok h.notStandard
      (fun s => h.notAutoNormal events [] s (List.append_nil _).symm) hc
    have hinv : s.status.isAuthorized = true →
        ∃ v ∈ votes, v.decision = .approved ∧ isHumanApproval env v = true := by
      refine h.loop_invariant (I := fun u => u.status.isAuthorized = true →
        ∃ v ∈ votes, v.decision = .approved ∧ isHumanApproval env v = true) ?_ ?_ hs
      · intro u hu hauth'
        rw [hu] at hauth'
        cases hauth'
      · intro p e q u u' _ _ hu hauthorizes _ hauth'
        cases hb : u.status.isAuthorized with
        | true => exact hu hb
        | false => exact hvote (hauthorizes hb hauth').1
    cases hb : s.status.isAuthorized with
    | true => exact hinv hb
    | false => exact hvote (resolveVotes_authorizes hb (hst ▸ hauth))

/-- A normal change that somebody proposed. -/
def normalCore : Dict := [("id", .str "chg-1"), ("title", .str "t"), ("created_by", .str "bot")]

/-- An environment without timestamps. -/
def plainEnv : Env := { now := "2026", repr := fun _ => "", fromisoformat := fun _ => none }

/-- The vote of the authenticated human at a time. -/
def humanVote (decidedAt : String) : CABDecision :=
  { changeId := "chg-1", agent := "human", decision := .approved, decidedAt := decidedAt }

/-- A schedule event at a time. -/
def scheduleAt (ts : String) : ChangeEvent :=
  [("kind", .str "schedule"), ("writer", .str "bot"), ("ts", .str ts)]

/-- A draft by a writer. -/
def draftBy (writer : String) : ChangeEvent :=
  [("kind", .str "pr_link"), ("writer", .str writer), ("ts", .str "2026-09-02")]

theorem needsCab_schedule_draft (votes : List CABDecision) (ts writer : String) :
    NeedsCab plainEnv normalCore votes [scheduleAt ts, draftBy writer] :=
  NeedsCab.of_not_operator rfl rfl fun e he => by
    rcases List.mem_pair.mp he with rfl | rfl <;> rfl

/-- A normal change with the vote of a human: the change gets out of `proposed` by that vote, whose
agent is not the drafter. -/
theorem approval_needs_vote_human : ∃ c : Change,
    foldChange plainEnv normalCore [scheduleAt "2026-09-01", draftBy "bot"]
      [humanVote "2026-09-10"] = .ok c ∧
    ApprovedByOther plainEnv [humanVote "2026-09-10"] .null ∧
    ∃ v ∈ [humanVote "2026-09-10"], v.decision = .approved ∧ isHumanApproval plainEnv v = true := by
  have h := approval_needs_vote
    (needsCab_schedule_draft [humanVote "2026-09-10"] "2026-09-01" "bot")
  exact ⟨_, rfl, h.1 [] (scheduleAt "2026-09-01") [draftBy "bot"] _ _ rfl rfl rfl rfl rfl,
    h.2 _ rfl rfl⟩

/-- A schedule event that was refused for lack of approval takes effect when the vote is cast
nine days later. -/
theorem vote_after_schedule : ∃ c d : Change,
    NeedsCab plainEnv normalCore [humanVote "2026-09-10"]
      [scheduleAt "2026-09-01", draftBy "bot"] ∧
    foldChange plainEnv normalCore [scheduleAt "2026-09-01", draftBy "bot"] [] = .ok c ∧
    c.status = .proposed ∧
    foldChange plainEnv normalCore [scheduleAt "2026-09-01", draftBy "bot"]
      [humanVote "2026-09-10"] = .ok d ∧
    d.status = .scheduled ∧ ∀ v ∈ [humanVote "2026-09-10"], "2026-09-01" < v.decidedAt := by
  refine ⟨_, _, needsCab_schedule_draft _ _ _, rfl, rfl, rfl, rfl, ?_⟩
  intro v hv
  rw [List.mem_singleton.mp hv]
  decide

/-- Somebody else than the drafter of a folded change approved it: a human approval whose agent is
not the one that the fold shows as `prepared_by`. -/
def ApprovedByAnother (env : Env) (votes : List CABDecision) (c : Change) : Prop :=
  ∃ v ∈ votes, v.decision = .approved ∧ isHumanApproval env v = true ∧ c.preparedBy ≠ some v.agent

theorem approvedByAnother_iff {j : Json} {c : Change}
    (h : requireOptionalStr "prepared_by" j = .ok c.preparedBy) :
    ApprovedByAnother env votes c ↔ ApprovedByOther env votes j := by
  unfold ApprovedByAnother ApprovedByOther
  constructor
  · rintro ⟨v, hv, hdec, hhuman, hne⟩
    exact ⟨v, hv, hdec, (preparedBy_ne_iff h v.agent).mpr hne, hhuman⟩
  · rintro ⟨v, hv, hdec, hne, hhuman⟩
    exact ⟨v, hv, hdec, hhuman, (preparedBy_ne_iff h v.agent).mp hne⟩

/-- **No self-approval**, when every `pr_link` event that folds on an authorized change has another
writer than the agent of some human approval.  Such an event is what the property hangs on: the
change folded up to it has an approval by another than its drafter exactly when the event meets
the condition. -/
theorem no_self_approval_when {events : List ChangeEvent} (h : NeedsCab env core votes events) :
    ((∀ p e q s, events = p ++ e :: q → loopChange env core votes p = .ok s →
        e.kind = .prLink → s.status.isAuthorized = true → ApprovedByOther env votes e.agent) →
      ∀ c, foldChange env core events votes = .ok c → c.status.isAuthorized = true →
        ApprovedByAnother env votes c) ∧
    (∀ p e q s c, events = p ++ e :: q → loopChange env core votes p = .ok s →
      e.kind = .prLink → s.status.isAuthorized = true →
      foldChange env core (p ++ [e]) votes = .ok c →
      c.status.isAuthorized = true ∧
        (ApprovedByAnother env votes c ↔ ApprovedByOther env votes e.agent)) := by
  constructor
  · intro hdraft c hc hauth
    obtain ⟨s, hs, hst, hp⟩ := foldChange_eq_ok h.notStandard
      (fun s => h.notAutoNormal events [] s (List.append_nil _).symm) hc
    rw [approvedByAnother_iff hp]
    have hinv : s.status.isAuthorized = true → ApprovedByOther env votes s.preparedBy := by
      refine h.loop_invariant (I := fun u => u.status.isAuthorized = true →
        ApprovedByOther env votes u.preparedBy) ?_ ?_ hs
      · intro u hu hauth'
        rw [hu] at hauth'
        cases hauth'
      · intro p e q u u' hsplit hpre hu hauthorizes hstep hauth'
        cases hb : u.status.isAuthorized with
        | false =>
          obtain ⟨hvote, hsame⟩ := hauthorizes hb hauth'
          exact hsame ▸ hvote
        | true =>
          cases ChangeState.step_cases hstep with
          | keep _ hp' _ => exact hp' ▸ hu hb
          | review _ _ hp' _ => exact hp' ▸ hu hb
          | transition g _ _ _ hp' _ => exact hp' ▸ hu hb
          | back _ _ hp' _ => exact hp' ▸ hu hb
          | draft hk _ hp' _ => exact hp' ▸ hdraft p e q u hsplit hpre hk hb
    cases hb : s.status.isAuthorized with
    | true => exact hinv hb
    | false => exact resolveVotes_authorizes hb (hst ▸ hauth)
  · intro p e q s c hsplit hs hk hauth hc
    have hpre : NeedsCab env core votes (p ++ [e]) := by
      rw [hsplit, List.append_cons] at h
      exact h.of_append
    obtain ⟨t, ht, hst, hp⟩ := foldChange_eq_ok hpre.notStandard
      (fun t => hpre.notAutoNormal _ [] t (List.append_nil _).symm) hc
    unfold loopChange at hs ht
    obtain ⟨s₀, h0, hs⟩ := bind_eq_ok.mp hs
    obtain ⟨s₁, h1, ht⟩ := bind_eq_ok.mp ht
    obtain rfl : s₀ = s₁ := Except.ok.inj (h0.symm.trans h1)
    obtain ⟨u, hu, ht⟩ := foldlM_append_eq_ok.mp ht
    obtain rfl : s = u := Except.ok.inj (hs.symm.trans hu)
    obtain ⟨t', hstep, ht⟩ := foldlM_cons_eq_ok.mp ht
    cases ht
    -- the event is the new draft, so the drafter is its writer and the status is unchanged
    have hdraft : t = s.foldPrLink e := by
      unfold ChangeState.step at hstep
      rw [hk] at hstep
      exact (Except.ok.inj hstep).symm
    have hstatus : t.status = s.status := by rw [hdraft]; rfl
    have hwriter : t.preparedBy = e.agent := by rw [hdraft]; rfl
    have hnp : t.status.isPending = false := by
      by_contra hpend
      rw [hstatus] at hpend
      rw [ChangeStatus.not_isAuthorized_of_isPending (Bool.eq_true_of_not_eq_false hpend)] at hauth
      cases hauth
    rw [hwriter] at hp
    refine ⟨?_, approvedByAnother_iff hp⟩
    rw [hst, resolveVotes_of_not_pending hnp, hstatus]
    exact hauth

/-- The vote of a human carries the change although a bot writes its `pr_link` event afterwards: bot
and human are different agents. -/
theorem no_self_approval_when_bot : ∃ c : Change,
    foldChange plainEnv normalCore [scheduleAt "2026-09-01", draftBy "bot"]
      [humanVote "2026-08-31"] = .ok c ∧
    ApprovedByAnother plainEnv [humanVote "2026-08-31"] c := by
  have h := no_self_approval_when
    (needsCab_schedule_draft [humanVote "2026-08-31"] "2026-09-01" "bot")
  refine ⟨_, rfl, h.1 ?_ _ rfl rfl⟩
  rintro (_ | ⟨a, _ | ⟨b, p⟩⟩) e q s hl hs hk hauth
  · cases hl; cases hk
  · cases hl; exact ⟨_, List.mem_cons_self, rfl, rfl, rfl⟩
  · simp at hl

/-- The only approval is the drafter's own, who drafted the change after it was scheduled. -/
theorem drafter_approves : ∃ c : Change,
    NeedsCab plainEnv normalCore [humanVote "2026-08-31"]
      [scheduleAt "2026-09-01", draftBy "human"] ∧
    foldChange plainEnv normalCore [scheduleAt "2026-09-01", draftBy "human"]
      [humanVote "2026-08-31"] = .ok c ∧
    c.status = .scheduled ∧ c.preparedBy = some "human" ∧
    ¬ApprovedByAnother plainEnv [humanVote "2026-08-31"] c := by
  refine ⟨_, needsCab_schedule_draft _ _ _, rfl, rfl, rfl, ?_⟩
  rintro ⟨v, hv, -, -, hne⟩
  rw [List.mem_singleton.mp hv] at hne
  exact hne rfl

/-- **Veto supremacy.** A change that is not a standard one and that has a rejection among its votes
ends rejected or closed, whatever other votes and events it has. -/
theorem veto_supremacy {events : List ChangeEvent} {c : Change}
    (hstd : (changeTypeOf core).pyEq (.str "standard") = false)
    (hveto : ∃ v ∈ votes, v.decision = .rejected) (h : foldChange env core events votes = .ok c) :
    c.status = .rejected ∨ c.status = .closed := by
  have hrej : (rejections votes).isEmpty = false := by
    by_contra hempty
    obtain ⟨v, hv, hdec⟩ := hveto
    exact rejections_isEmpty_iff.mp (Bool.eq_true_of_not_eq_false hempty) v hv hdec
  have hauto : ∀ s : ChangeState, autoNormal (changeTypeOf core) s.tags core votes ≠ .ok true := by
    intro s hs
    cases autoNormal_of_rejection hrej hs
  obtain ⟨s, hs, hst, -⟩ := foldChange_eq_ok hstd (fun s _ => hauto s) h
  have hinv : s.status.isAuthorized = false := by
    unfold loopChange at hs
    obtain ⟨s₀, h0, hs⟩ := bind_eq_ok.mp hs
    refine foldlM_invariant (I := fun u : ChangeState => u.status.isAuthorized = false)
      (fun u e u' hu hstep => ChangeState.step_veto hstd hrej hstep hu) events s₀ s ?_ hs
    rw [initChange_status h0]
    rfl
  rcases ChangeStatus.isPending_of_not_isAuthorized hinv with hpend | hr | hcl
  · exact Or.inl (hst.trans (resolveVotes_of_veto hrej hpend))
  · rw [hst, resolveVotes_of_not_pending (by rw [hr]; rfl)]
    exact Or.inl hr
  · rw [hst, resolveVotes_of_not_pending (by rw [hcl]; rfl)]
    exact Or.inr hcl

/-- One approval and one rejection: the change ends rejected or closed, a schedule event
notwithstanding. -/
theorem veto_supremacy_approved : ∃ c : Change,
    foldChange plainEnv normalCore [scheduleAt "2026-09-01"]
      [humanVote "2026-08-31", { humanVote "2026-08-31" with decision := .rejected }] = .ok c ∧
    (c.status = .rejected ∨ c.status = .closed) :=
  ⟨_, rfl, @veto_supremacy plainEnv normalCore
    [humanVote "2026-08-31", { humanVote "2026-08-31" with decision := .rejected }]
    [scheduleAt "2026-09-01"] _ rfl
    ⟨{ humanVote "2026-08-31" with decision := .rejected }, by simp, rfl⟩ rfl⟩

end SkCoord.Itil
