import SkCoord.Itil.Equiv.Approval

/-!
# The two derivations of an approval

`cabResolvedStatus` is what events of the loop are checked against, and `foldChange` derives the
status of the record behind the loop.  `headline_agrees_iff`: the two agree unless the loop ended in
`reviewing` and the change approves itself, which the fold allows in `proposed` only.
-/

namespace SkCoord.Itil

open Python

variable {env : Env} {core : Dict} {votes : List CABDecision} {s : ChangeState} {c : Change}
  {events : List ChangeEvent}

/-- What the votes make of a pending change. -/
theorem resolveVotes_status (hs : s.status.isPending = true) :
    (resolveVotes env votes s).status =
      if !(rejections votes).isEmpty then .rejected
      else if (approvals votes s.preparedBy).any (isHumanApproval env) then .approved
      else s.status := by
  unfold resolveVotes
  rw [hs, Bool.true_and]
  cases votes with
  | nil => rfl
  | cons v votes =>
    rw [List.isEmpty_cons, Bool.not_false, if_pos rfl]
    split
    · rfl
    · split <;> rfl

/-- The condition of the auto-normal tier raises nothing for a record that is built. -/
theorem exists_autoNormal {t : ChangeState} (h : buildChange env core t = .ok c) (ct : Json)
    (tags : List Json) : ∃ auto, autoNormal ct tags core votes = .ok auto := by
  have hplan : ∃ plan, core.getD "rollback_plan" (.str "") = .str plan := by
    unfold buildChange at h
    simp only [bind_eq_ok, pure_eq_ok] at h
    obtain ⟨_, -, _, -, _, -, _, -, _, -, plan, hplan, -⟩ := h
    unfold requireStr at hplan
    split at hplan
    · rename_i text heq
      exact ⟨text, heq⟩
    · cases hplan
  obtain ⟨plan, hplan⟩ := hplan
  have htext : ∃ text, (core.get "rollback_plan").orElse (.str "") = .str text := by
    unfold Dict.getD at hplan
    unfold Dict.get Json.orElse
    cases hget : Assoc.get? core "rollback_plan" with
    | none => exact ⟨"", rfl⟩
    | some v =>
      rw [hget] at hplan
      obtain rfl : v = .str plan := hplan
      rw [Option.getD_some]
      split <;> exact ⟨_, rfl⟩
  obtain ⟨text, htext⟩ := htext
  unfold autoNormal
  split
  · rw [htext]
    exact ⟨_, rfl⟩
  · exact ⟨_, rfl⟩

/-- The change approves itself: it is standard, or of the auto-normal tier. -/
def SelfApproves (core : Dict) (votes : List CABDecision) (s : ChangeState) : Prop :=
  (changeTypeOf core).pyEq (.str "standard") = true ∨
    autoNormal (changeTypeOf core) s.tags core votes = .ok true

/-- What the helper makes of a pending change. -/
theorem cabResolvedStatus_eq (hs : s.status.isPending = true)
    (hauto : ∃ auto, autoNormal (changeTypeOf core) s.tags core votes = .ok auto) :
    (SelfApproves core votes s ∧
        cabResolvedStatus env s.status (changeTypeOf core) s.tags core votes s.preparedBy
          = .ok .approved) ∨
      (¬SelfApproves core votes s ∧
        cabResolvedStatus env s.status (changeTypeOf core) s.tags core votes s.preparedBy
          = .ok (resolveVotes env votes s).status) := by
  obtain ⟨auto, hauto⟩ := hauto
  unfold cabResolvedStatus SelfApproves
  rw [hs, Bool.not_true, if_neg Bool.false_ne_true, resolveVotes_status hs, hauto]
  cases (changeTypeOf core).pyEq (.str "standard") with
  | true => exact Or.inl ⟨Or.inl rfl, rfl⟩
  | false =>
    rw [if_neg Bool.false_ne_true]
    cases auto with
    | true => exact Or.inl ⟨Or.inr rfl, rfl⟩
    | false =>
      refine Or.inr ⟨?_, ?_⟩
      · rintro (h | h)
        · cases h
        · cases h
      · rw [ok_bind, if_neg Bool.false_ne_true]
        split
        · rfl
        · split <;> rfl

/-- Behind the loop a change that is not `proposed` is left to the votes. -/
theorem resolve_of_not_proposed {t : ChangeState} (hs : s.status ≠ .proposed)
    (h : resolveAutoNormal env core votes (resolveStandard env core s) = .ok t) : t = s := by
  have hne : (s.status == .proposed) = false := beq_false_of_ne hs
  unfold resolveStandard at h
  rw [hne, Bool.and_false, if_neg Bool.false_ne_true] at h
  unfold resolveAutoNormal at h
  rw [hne, if_neg Bool.false_ne_true, pure_eq_ok] at h
  exact h.symm

/-- Behind the loop a `proposed` change that approves itself is approved. -/
theorem resolve_of_selfApproves {t : ChangeState} (hs : s.status = .proposed)
    (hself : SelfApproves core votes s)
    (h : resolveAutoNormal env core votes (resolveStandard env core s) = .ok t) :
    t.status = .approved := by
  unfold resolveStandard at h
  rw [hs, beq_self_eq_true, Bool.and_true] at h
  rcases hself with hstd | hauto
  · rw [hstd, if_pos rfl] at h
    unfold resolveAutoNormal at h
    dsimp only at h
    rw [if_neg (by decide), pure_eq_ok] at h
    rw [← h]
  · split at h
    · unfold resolveAutoNormal at h
      dsimp only at h
      rw [if_neg (by decide), pure_eq_ok] at h
      rw [← h]
    · unfold resolveAutoNormal at h
      rw [hs, beq_self_eq_true, if_pos rfl, hauto, ok_bind, if_pos rfl, pure_eq_ok] at h
      rw [← h]

/-- Behind the loop the votes decide a change that does not approve itself. -/
theorem resolve_of_not_selfApproves {t : ChangeState} (hself : ¬SelfApproves core votes s)
    (h : resolveAutoNormal env core votes (resolveStandard env core s) = .ok t) : t = s := by
  rw [resolveStandard_of_not (Bool.eq_false_of_not_eq_true fun hstd => hself (Or.inl hstd))] at h
  exact resolveAutoNormal_of_not (fun hauto => hself (Or.inr hauto)) h

/-- **The headline and the helper** agree exactly when a change that the loop left in `reviewing`
does not approve itself, or was approved by another than its drafter without a rejection. -/
theorem headline_agrees_iff (h : foldChange env core events votes = .ok c) :
    (∃ s, loopChange env core votes events = .ok s ∧
      cabResolvedStatus env s.status (changeTypeOf core) s.tags core votes s.preparedBy
        = .ok c.status) ↔
    ∀ s, loopChange env core votes events = .ok s → s.status = .reviewing →
      SelfApproves core votes s →
      (rejections votes).isEmpty = true ∧ ApprovedByOther env votes s.preparedBy := by
  unfold foldChange at h
  obtain ⟨s, hs, h⟩ := bind_eq_ok.mp h
  obtain ⟨t, ht, h⟩ := bind_eq_ok.mp h
  have hauto : ∃ auto, autoNormal (changeTypeOf core) s.tags core votes = .ok auto :=
    exists_autoNormal h (changeTypeOf core) s.tags
  have hc : c.status = (resolveVotes env votes t).status := (buildChange_eq_ok h).1
  have hleft : (∃ u, loopChange env core votes events = .ok u ∧
      cabResolvedStatus env u.status (changeTypeOf core) u.tags core votes u.preparedBy
        = .ok c.status) ↔
      cabResolvedStatus env s.status (changeTypeOf core) s.tags core votes s.preparedBy
        = .ok c.status := by
    constructor
    · rintro ⟨u, hu, huc⟩
      obtain rfl : s = u := Except.ok.inj (hs.symm.trans hu)
      exact huc
    · exact fun hsc => ⟨s, hs, hsc⟩
  have hright : (∀ u, loopChange env core votes events = .ok u → u.status = .reviewing →
      SelfApproves core votes u →
      (rejections votes).isEmpty = true ∧ ApprovedByOther env votes u.preparedBy) ↔
      (s.status = .reviewing → SelfApproves core votes s →
        (rejections votes).isEmpty = true ∧ ApprovedByOther env votes s.preparedBy) := by
    constructor
    · exact fun hall => hall s hs
    · intro hone u hu
      obtain rfl : s = u := Except.ok.inj (hs.symm.trans hu)
      exact hone
  rw [hleft, hright, hc]
  by_cases hpend : s.status.isPending = true
  · rcases @cabResolvedStatus_eq env core votes s hpend hauto with ⟨hself, hcab⟩ | ⟨hself, hcab⟩
    · rw [hcab]
      by_cases hprop : s.status = .proposed
      · -- the one status that the fold and the helper treat alike
        have happ := resolve_of_selfApproves hprop hself ht
        have hkept : resolveVotes env votes t = t :=
          resolveVotes_of_not_pending (by rw [happ]; rfl)
        rw [hkept, happ]
        refine iff_of_true rfl fun hrev => ?_
        rw [hprop] at hrev
        cases hrev
      · obtain rfl := resolve_of_not_proposed hprop ht
        have hrev : t.status = .reviewing := by
          cases hst : t.status <;> rw [hst] at hpend hprop <;>
            first | rfl | exact absurd rfl hprop | cases hpend
        rw [resolveVotes_status hpend, hrev]
        constructor
        · intro heq _ _
          by_cases hrej : (rejections votes).isEmpty = true
          · rw [hrej, Bool.not_true, if_neg Bool.false_ne_true] at heq
            split at heq
            · rename_i hvote
              exact ⟨hrej, any_approvals_iff.mp hvote⟩
            · cases heq
          · rw [Bool.eq_false_of_not_eq_true hrej, Bool.not_false, if_pos rfl] at heq
            cases heq
        · intro hcond
          obtain ⟨hrej, hvote⟩ := hcond rfl hself
          rw [hrej, Bool.not_true, if_neg Bool.false_ne_true, if_pos (any_approvals_iff.mpr hvote)]
    · rw [hcab, resolve_of_not_selfApproves hself ht]
      exact iff_of_true rfl fun _ hself' => absurd hself' hself
  · have hnp := Bool.eq_false_of_not_eq_true hpend
    have hne : s.status ≠ .proposed := by
      intro hst
      rw [hst] at hpend
      exact hpend rfl
    rw [resolve_of_not_proposed hne ht, resolveVotes_of_not_pending hnp]
    refine iff_of_true ?_ fun hst => ?_
    · unfold cabResolvedStatus
      rw [hnp, Bool.not_false, if_pos rfl]
      rfl
    · rw [hst] at hnp
      cases hnp

theorem headline_agrees_iff_human : ∃ c : Change,
    foldChange plainEnv normalCore [] [humanVote "2026-08-31"] = .ok c ∧
    ∃ s, loopChange plainEnv normalCore [humanVote "2026-08-31"] [] = .ok s ∧
      cabResolvedStatus plainEnv s.status (changeTypeOf normalCore) s.tags normalCore
        [humanVote "2026-08-31"] s.preparedBy = .ok c.status := by
  refine ⟨_, rfl,
    (@headline_agrees_iff plainEnv normalCore [humanVote "2026-08-31"] _ [] rfl).mpr ?_⟩
  intro s hs hrev
  cases hs
  cases hrev

/-- A standard change. -/
def standardCore : Dict := normalCore ++ [("change_type", .str "standard")]

/-- A validation that passed. -/
def validationPassed : ChangeEvent :=
  [("kind", .str "validation"), ("passed", .bool true), ("writer", .str "bot"),
    ("ts", .str "2026-09-01")]

/-- A standard change stays in `reviewing` behind its validation, and events of the loop are
checked against `approved`. -/
theorem standard_left_reviewing : ∃ c s,
    foldChange plainEnv standardCore [validationPassed] [] = .ok c ∧
    loopChange plainEnv standardCore [] [validationPassed] = .ok s ∧
    c.status = .reviewing ∧
    cabResolvedStatus plainEnv s.status (changeTypeOf standardCore) s.tags standardCore []
      s.preparedBy = .ok .approved :=
  ⟨_, _, rfl, rfl, rfl, rfl⟩

end SkCoord.Itil
