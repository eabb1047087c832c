import SkCoord.Itil.Change
import SkCoord.Python.Except

/-!
# What an event does to the status of a change

`step_cases`: an event keeps the status, the drafter and the window, names a new drafter, starts the
review, takes a transition of the gate, or puts a scheduled change back; `gate_cases`: the gate is
the status itself unless the change is pending and a rejection, the change type, the auto-normal
tier or a vote of somebody else than the drafter decides it.
-/

namespace SkCoord.Itil

open Python

variable {env : Env} {ct : Json} {core : Dict} {votes : List CABDecision}

/-- A human approval by somebody else than the drafter. -/
def ApprovedByOther (env : Env) (votes : List CABDecision) (preparedBy : Json) : Prop :=
  ∃ v ∈ votes, v.decision = .approved ∧ (Json.str v.agent).pyEq preparedBy = false ∧
    isHumanApproval env v = true

theorem any_approvals_iff {preparedBy : Json} :
    (approvals votes preparedBy).any (isHumanApproval env) = true ↔
      ApprovedByOther env votes preparedBy := by
  simp [approvals, ApprovedByOther, List.any_eq_true, and_assoc]

theorem rejections_isEmpty_iff :
    (rejections votes).isEmpty = true ↔ ∀ v ∈ votes, v.decision ≠ .rejected := by
  simp [rejections]

/-- A rejection closes the auto-normal tier. -/
theorem autoNormal_of_rejection {tags : List Json} (hveto : (rejections votes).isEmpty = false)
    {b : Bool} (h : autoNormal ct tags core votes = .ok b) : b = false := by
  unfold autoNormal at h
  split at h
  · obtain ⟨blank, -, h⟩ := bind_eq_ok.mp h
    rw [pure_eq_ok, hveto, Bool.and_false] at h
    exact h.symm
  · rw [pure_eq_ok] at h
    exact h.symm

/-- What decides a pending change. -/
inductive Resolved (env : Env) (ct : Json) (core : Dict) (votes : List CABDecision)
    (s : ChangeState) : ChangeStatus → Prop where
  | undecided : Resolved env ct core votes s s.status
  | standard : ct.pyEq (.str "standard") = true → Resolved env ct core votes s .approved
  | auto : autoNormal ct s.tags core votes = .ok true → Resolved env ct core votes s .approved
  | veto : (rejections votes).isEmpty = false → Resolved env ct core votes s .rejected
  | vote : ApprovedByOther env votes s.preparedBy → Resolved env ct core votes s .approved

namespace ChangeState

variable {s s' : ChangeState} {e : ChangeEvent} {g : ChangeStatus}

/-- A change that is not pending passes the gate as it is. -/
theorem gate_of_not_pending (hs : s.status.isPending = false)
    (h : gate env ct core votes s = .ok g) : g = s.status := by
  unfold gate cabResolvedStatus at h
  rw [hs, Bool.not_false, if_pos rfl, pure_eq_ok] at h
  exact h.symm

theorem gate_cases (h : gate env ct core votes s = .ok g) : Resolved env ct core votes s g := by
  unfold gate cabResolvedStatus at h
  split at h
  · rw [pure_eq_ok] at h
    exact h ▸ .undecided
  · split at h
    · rename_i hstd
      rw [pure_eq_ok] at h
      exact h ▸ .standard hstd
    · obtain ⟨auto, hauto, h⟩ := bind_eq_ok.mp h
      split at h
      · rename_i ht
        rw [pure_eq_ok] at h
        exact h ▸ .auto (ht ▸ hauto)
      · split at h
        · rename_i hrej
          rw [pure_eq_ok] at h
          exact h ▸ .veto (by simpa using hrej)
        · split at h
          · rename_i hvote
            rw [pure_eq_ok] at h
            exact h ▸ .vote (any_approvals_iff.mp hvote)
          · rw [pure_eq_ok] at h
            exact h ▸ .undecided

/-- A veto rejects every pending change that is not standard. -/
theorem gate_of_veto (hstd : ct.pyEq (.str "standard") = false)
    (hveto : (rejections votes).isEmpty = false) (hs : s.status.isPending = true)
    (h : gate env ct core votes s = .ok g) : g = .rejected := by
  unfold gate cabResolvedStatus at h
  rw [hs, hstd, Bool.not_true, if_neg Bool.false_ne_true, if_neg Bool.false_ne_true] at h
  obtain ⟨auto, hauto, h⟩ := bind_eq_ok.mp h
  rw [autoNormal_of_rejection hveto hauto, if_neg Bool.false_ne_true, hveto, Bool.not_false,
    if_pos rfl, pure_eq_ok] at h
  exact h.symm

/-- What a transition does to the window: a raw `status` event leaves it, a schedule sets it. -/
def Windowed (s : ChangeState) (e : ChangeEvent) (s' : ChangeState) : Prop :=
  e.kind = .status ∧ e.get "to" = .str s'.status.value ∧
      s'.scheduledWindow = s.scheduledWindow ∨
    s'.status = .scheduled ∧ s'.scheduledWindow.isSome = true

/-- What an event does to the status, the drafter and the window. -/
inductive Move (env : Env) (ct : Json) (core : Dict) (votes : List CABDecision)
    (s : ChangeState) (e : ChangeEvent) (s' : ChangeState) : Prop where
  | keep : s'.status = s.status → s'.preparedBy = s.preparedBy →
      s'.scheduledWindow = s.scheduledWindow → Move env ct core votes s e s'
  | draft : e.kind = .prLink → s'.status = s.status → s'.preparedBy = e.agent →
      s'.scheduledWindow = s.scheduledWindow → Move env ct core votes s e s'
  | review : s.status = .proposed → s'.status = .reviewing → s'.preparedBy = s.preparedBy →
      s'.scheduledWindow = s.scheduledWindow → Move env ct core votes s e s'
  | transition (g : ChangeStatus) : gate env ct core votes s = .ok g →
      s'.status ∈ g.transitions →
      (s'.status = .approved → g.isPending = true →
        (e.get "node").pyEq (.str "migrated") = true) →
      s'.preparedBy = s.preparedBy → Windowed s e s' → Move env ct core votes s e s'
  | back : s.status = .scheduled → s'.status = .approved → s'.preparedBy = s.preparedBy →
      s'.scheduledWindow = none → Move env ct core votes s e s'

/-- A text that names a status allowed by the gate. -/
theorem allowed_eq_some {target : Json} {c : ChangeStatus} (h : allowed g target = .ok (some c)) :
    c ∈ g.transitions ∧ ∃ t, target = .str t ∧ ChangeStatus.ofValue? t = some c := by
  unfold allowed at h
  obtain ⟨⟨⟩, -, h⟩ := bind_eq_ok.mp h
  split at h
  · rw [pure_eq_ok, Option.filter_eq_some_iff] at h
    exact ⟨of_decide_eq_true h.2, _, rfl, h.1⟩
  · cases h

theorem eq_value_of_ofValue? {t : String} {c : ChangeStatus}
    (h : ChangeStatus.ofValue? t = some c) : t = c.value := by
  unfold ChangeStatus.ofValue? at h
  split at h <;> cases h <;> rfl

theorem refuse_move {missing : Bool} {action : String} :
    Move env ct core votes s e (foldStatus.refuse s e g missing action) := by
  unfold foldStatus.refuse
  split
  · exact .keep rfl rfl rfl
  · split <;> exact .keep rfl rfl rfl

/-- A status event takes a transition of the gate or keeps the status. -/
theorem foldStatus_move (hk : e.kind = .status) (hg : gate env ct core votes s = .ok g)
    (h : s.foldStatus env e g = .ok s') : Move env ct core votes s e s' := by
  unfold foldStatus at h
  obtain ⟨target, htarget, h⟩ := bind_eq_ok.mp h
  obtain ⟨missing, -, h⟩ := bind_eq_ok.mp h
  dsimp only at h
  cases target with
  | none =>
    rw [pure_eq_ok] at h
    exact h ▸ refuse_move
  | some c =>
    dsimp only at h
    split at h
    · rename_i hok
      rw [pure_eq_ok] at h
      obtain ⟨hmem, t, ht, hc⟩ := allowed_eq_some htarget
      subst h
      refine .transition g hg hmem ?_ rfl (.inl ⟨hk, by rw [ht, eq_value_of_ofValue? hc], rfl⟩)
      intro happ hpend
      -- an approval behind a pending gate is what `cab_gated` refuses, unless it was migrated
      have happ' : c = .approved := happ
      have happt : t = "approved" := by rw [eq_value_of_ofValue? hc, happ']; rfl
      rw [happt] at ht
      simpa [cabGated, ht, hpend] using (Bool.and_eq_true_iff.mp hok).2
    · rw [pure_eq_ok] at h
      exact h ▸ refuse_move

theorem foldBackToApproved_move {name dflt : String} :
    Move env ct core votes s e (foldBackToApproved name dflt s e) := by
  unfold foldBackToApproved
  split
  · rename_i hs
    exact .back (eq_of_beq (Bool.and_eq_true_iff.mp hs).1) rfl rfl rfl
  · exact .keep rfl rfl rfl

theorem foldValidation_move : Move env ct core votes s e (s.foldValidation e) := by
  unfold foldValidation
  dsimp only
  by_cases hs : ((e.get "passed").truthy && s.status == .proposed) = true
  · rw [if_pos hs]
    exact .review (eq_of_beq (Bool.and_eq_true_iff.mp hs).2) rfl rfl rfl
  · rw [if_neg hs]
    exact .keep rfl rfl rfl

/-- **One event.** -/
theorem step_cases (h : step env ct core votes s e = .ok s') : Move env ct core votes s e s' := by
  unfold step at h
  cases hk : e.kind <;> rw [hk] at h <;> dsimp only at h
  case status =>
    obtain ⟨g, hg, h⟩ := bind_eq_ok.mp h
    exact foldStatus_move hk hg h
  case schedule =>
    obtain ⟨g, hg, h⟩ := bind_eq_ok.mp h
    rw [pure_eq_ok] at h
    unfold foldSchedule at h
    split at h
    · rename_i hs
      obtain ⟨happ, hmem⟩ := Bool.and_eq_true_iff.mp hs
      subst h
      exact .transition g hg (of_decide_eq_true hmem) nofun rfl (.inr ⟨rfl, rfl⟩)
    · exact h ▸ .keep rfl rfl rfl
  case tags =>
    obtain ⟨added, -, h⟩ := bind_eq_ok.mp h
    rw [pure_eq_ok] at h
    exact h ▸ .keep rfl rfl rfl
  all_goals rw [pure_eq_ok] at h; subst h
  case created => unfold foldCreated; split <;> exact .keep rfl rfl rfl
  case linkProblem => unfold foldLinkProblem; split <;> exact .keep rfl rfl rfl
  case title => unfold foldTitle; dsimp only; split <;> exact .keep rfl rfl rfl
  case gtdLink => unfold foldGtdLink; split <;> exact .keep rfl rfl rfl
  case note => exact .keep rfl rfl rfl
  case autoApproved => exact .keep rfl rfl rfl
  case prLink => exact .draft hk rfl rfl rfl
  case validation => exact foldValidation_move
  case unschedule => exact foldBackToApproved_move
  case windowMissed => exact foldBackToApproved_move
  case other => exact .keep rfl rfl rfl

end ChangeState

end SkCoord.Itil
