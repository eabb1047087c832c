import SkCoord.CardStore.Equiv.Claim

/-!
# Cancelled cards

A `void` event cancels a card (`next_void`), every later event leaves it cancelled in the column
it was in (`next_of_cancelled`), and nothing else cancels one: in every state of the fold
the flag `voided` comes with an archived card without owner and claim (`foldCard_flagCancels`).
-/

namespace SkCoord

open Python

namespace ClaimView

variable {v : ClaimView} {e : Event}

@[simp] theorem releaseClaim_voided : (v.releaseClaim e).voided = v.voided := by
  unfold releaseClaim
  split
  · rfl
  · split <;> rfl

@[simp] theorem claim_voided : (v.claim e).voided = v.voided := by
  unfold claim
  split <;> rfl

/-- Only a `void` event sets the flag, and no event clears it. -/
theorem next_voided : (v.next e).voided = (v.voided || e.action == .void) := by
  unfold next
  split
  · rename_i hc
    rw [Bool.and_eq_true] at hc
    rw [hc.1, Bool.true_or]
  · cases hact : e.action <;> simp

theorem next_void (hact : e.action = .void) :
    (v.next e).Cancelled ∧ (v.next e).status = v.status := by
  have hguard : (v.voided && Action.isVoidTerminal .void) = false := Bool.and_false _
  unfold next
  rw [hact, hguard, if_neg Bool.false_ne_true]
  exact ⟨⟨rfl, rfl, rfl, rfl⟩, rfl⟩

/-- A cancelled card stays cancelled, in its column. -/
theorem next_of_cancelled (h : v.Cancelled) :
    (v.next e).Cancelled ∧ (v.next e).status = v.status := by
  unfold next
  rw [h.voided, Bool.true_and]
  split
  · exact ⟨h, rfl⟩
  · rename_i hc
    cases hact : e.action with
    | move | reopen | assign | unassign | claim | releaseClaim | complete =>
      simp [hact, Action.isVoidTerminal] at hc
    | void => exact ⟨⟨rfl, rfl, rfl, rfl⟩, rfl⟩
    | archive => exact ⟨⟨rfl, rfl, h.owner, h.revision⟩, rfl⟩
    | _ => exact ⟨h, rfl⟩

/-- In a card that is not cancelled the flag is not set. -/
def FlagCancels (v : ClaimView) : Prop := v.voided = true → v.Cancelled

theorem next_flagCancels (h : v.FlagCancels) : (v.next e).FlagCancels := by
  intro hv
  rw [next_voided, Bool.or_eq_true] at hv
  rcases hv with hv | hv
  · exact (next_of_cancelled (h hv)).1
  · exact (next_void (eq_of_beq hv)).1

end ClaimView

namespace FoldState

variable {cardId : String} {s t : FoldState} {e : Event} {events : List Event}

theorem step_cancelled (h : step cardId s e = .ok t) (hs : s.view.Cancelled) :
    t.view.Cancelled ∧ t.view.status = s.view.status := by
  rw [step_view h]
  exact ClaimView.next_of_cancelled hs

/-- **Void is terminal**, for any run of events behind it. -/
theorem foldEvents_cancelled (h : s.foldEvents cardId events = .ok t) (hs : s.view.Cancelled) :
    t.view.Cancelled ∧ t.view.status = s.view.status := by
  refine foldlM_invariant (I := fun u => u.view.Cancelled ∧ u.view.status = s.view.status) ?_
    events s t ⟨hs, rfl⟩ h
  intro u e u' hu hstep
  obtain ⟨hc, hst⟩ := step_cancelled hstep hu.1
  exact ⟨hc, hst.trans hu.2⟩

end FoldState

/-- A card at birth is not cancelled. -/
theorem foldInit_voided {cardId : String} {core : CardCore} {s : FoldState}
    (h : foldInit cardId core = .ok s) : s.voided = false := by
  unfold foldInit at h
  dsimp only at h
  split at h
  · rw [pure_eq_ok] at h; rw [← h]
  · split at h
    · split at h
      · cases h
      · rw [pure_eq_ok] at h; rw [← h]
    · cases h

/-- In a folded card the flag comes with what it stands for. -/
theorem foldCard_flagCancels {cardId : String} {core : CardCore} {events : List Event}
    {s : FoldState} (h : foldCard cardId core events = .ok s) : s.view.FlagCancels := by
  unfold foldCard at h
  obtain ⟨s₀, h0, h⟩ := bind_eq_ok.mp h
  refine foldlM_invariant (I := fun u => u.view.FlagCancels) ?_ events s₀ s ?_ h
  · intro u e u' hu hstep
    rw [FoldState.step_view hstep]
    exact ClaimView.next_flagCancels hu
  · intro hv
    have hf : s₀.view.voided = false := foldInit_voided h0
    rw [hf] at hv
    cases hv

/-- A card with an owner is not cancelled. -/
theorem foldCard_not_voided {cardId : String} {core : CardCore} {events : List Event}
    {s : FoldState} (h : foldCard cardId core events = .ok s) (ho : s.card.owner.truthy = true) :
    s.voided = false := by
  by_contra hv
  have hnull : s.card.owner = .null :=
    (foldCard_flagCancels h (Bool.eq_true_of_not_eq_false hv)).owner
  rw [hnull] at ho
  cases ho

end SkCoord
