import SkCoord.CardStore.Equiv.Void

/-!
# Completed cards

`claim_after_complete`: a claim that sorts behind a completion takes the card out of `DONE` and
gives it an owner.  `completion_final_iff`: a run leaves a completed card in `DONE`, up to moves,
reopenings and cancellations, exactly when no claim folds there, and no release of a claim that
somebody holds there (`ClaimView.undoesDone`).
-/

namespace SkCoord

open Python

namespace ClaimView

variable {v : ClaimView} {e : Event}

/-- The events other than those of `undoesDone` keep the column, unless they name one. -/
theorem next_done (hv : v.FlagCancels) (hdone : v.status = .done) (h : v.undoesDone e = false) :
    ((v.next e).status = .done ∨ e.action = .move ∨ e.action = .reopen ∨ e.action = .void) ∧
      (e.action = .claim → (v.next e).status = .done ∧ (v.next e).owner = .null) := by
  by_cases hvoid : v.voided = true
  · obtain ⟨hc, hst⟩ := next_of_cancelled (e := e) (hv hvoid)
    exact ⟨Or.inl (hst.trans hdone), fun _ => ⟨hst.trans hdone, hc.owner⟩⟩
  · have hnv : v.voided = false := Bool.eq_false_of_not_eq_true hvoid
    unfold next
    rw [hnv, Bool.false_and, if_neg Bool.false_ne_true]
    unfold undoesDone at h
    cases hact : e.action with
    | claim => simp [hact, hnv] at h
    | releaseClaim =>
      have hcur : v.releasesCurrent e = false := by simpa [hact, hnv] using h
      refine ⟨Or.inl ?_, nofun⟩
      dsimp only
      rw [releaseClaim, hcur, if_neg Bool.false_ne_true]
      split <;> exact hdone
    | move => exact ⟨Or.inr (Or.inl rfl), nofun⟩
    | reopen => exact ⟨Or.inr (Or.inr (Or.inl rfl)), nofun⟩
    | void => exact ⟨Or.inr (Or.inr (Or.inr rfl)), nofun⟩
    | complete => exact ⟨Or.inl rfl, nofun⟩
    | _ => exact ⟨Or.inl hdone, nofun⟩

/-- The events of `undoesDone` leave `DONE`. -/
theorem next_undoesDone (hdone : v.status = .done) (h : v.undoesDone e = true) :
    (v.next e).status ≠ .done ∧ (e.action = .claim ∨ e.action = .releaseClaim) := by
  unfold undoesDone at h
  simp only [Bool.and_eq_true, Bool.or_eq_true, Bool.not_eq_true', beq_iff_eq] at h
  obtain ⟨hnv, hact | ⟨hact, hcur⟩⟩ := h
  · have hcon : v.claimConflicts e = false := by simp [claimConflicts, hdone, Column.isActive]
    unfold next
    rw [hnv, Bool.false_and, if_neg Bool.false_ne_true, hact]
    dsimp only
    rw [claim, hcon, if_neg Bool.false_ne_true]
    exact ⟨nofun, Or.inl rfl⟩
  · unfold next
    rw [hnv, Bool.false_and, if_neg Bool.false_ne_true, hact]
    dsimp only
    rw [releaseClaim, if_pos hcur]
    exact ⟨nofun, Or.inr rfl⟩

end ClaimView

open FoldState in
/-- Completed work is un-completed by a late claim: the card is back in `DOING` and `bob` has it. -/
theorem claim_after_complete : ∃ u w : FoldState,
    foldCard "c1" { id := "c1", title := "t", createdAt := "" }
      [Event.claimBy "alice" "r1", Event.ofFields "complete" []] = .ok u ∧
    u.card.status = .done ∧ u.card.owner = .null ∧
    step "c1" u (Event.claimBy "bob" "r2") = .ok w ∧
    w.card.status = .doing ∧ w.card.owner = .str "bob" :=
  ⟨_, _, rfl, rfl, rfl, rfl, rfl, rfl⟩

open FoldState in
/-- **Completion.**  Behind a `complete` event a card leaves `DONE` only by a move, a reopen or a
cancellation, and every claim there leaves it in `DONE` without an owner, exactly when no event of
the run undoes `DONE` in the state where it folds. -/
theorem completion_final_iff (cardId : String) (core : CardCore) (events : List Event) :
    (∀ p e q u w, events = p ++ e :: q → foldCard cardId core p = .ok u →
      step cardId u e = .ok w → (∃ c ∈ p, c.action = .complete) → u.card.status = .done →
      (w.card.status = .done ∨ e.action = .move ∨ e.action = .reopen ∨ e.action = .void) ∧
        (e.action = .claim → w.card.status = .done ∧ w.card.owner = .null)) ↔
    (∀ p e q u w, events = p ++ e :: q → foldCard cardId core p = .ok u →
      step cardId u e = .ok w → (∃ c ∈ p, c.action = .complete) → u.card.status = .done →
      u.view.undoesDone e = false) := by
  constructor
  · intro h p e q u w hsplit hu hw hc hdone
    by_contra hundo
    obtain ⟨hne, hact⟩ :=
      ClaimView.next_undoesDone (v := u.view) hdone (Bool.eq_true_of_not_eq_false hundo)
    rw [← step_view hw] at hne
    obtain ⟨hkeep, -⟩ := h p e q u w hsplit hu hw hc hdone
    rcases hkeep with hst | hm | hm | hm
    · exact hne hst
    all_goals rcases hact with hact | hact <;> · rw [hact] at hm; cases hm
  · intro h p e q u w hsplit hu hw hc hdone
    have hnext := ClaimView.next_done (v := u.view) (foldCard_flagCancels hu) hdone
      (h p e q u w hsplit hu hw hc hdone)
    rw [← step_view hw] at hnext
    exact hnext

end SkCoord
