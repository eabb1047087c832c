import SkCoord.CardStore.Equiv.Void

/-!
# A live claim survives

* `claim_survives`: what holds a card in `READY`, `DOING` or `REVIEW` keeps it through every run of
  events none of which ends the claim (`ClaimView.endsClaim`), a release that names neither the
  claim nor a conflict changes nothing, and a losing claim leaves one entry in `claim_conflicts`.
* `claim_not_kept`: the claim does not outlive the column.  Once a move took the card out of the
  three columns another owner's claim takes it, and a claim event without an owner clears it even
  inside them.

The argument is about `ClaimView.next`, one event at a time (`next_owner_revision`,
`next_releaseClaim`, `next_claim`); the run is `foldlM_invariant_of_turns`.
-/

namespace SkCoord

open Python

namespace ClaimView

variable {v : ClaimView} {e : Event}

/-- A card whose claim has not ended loses neither its owner nor its revision. -/
theorem next_owner_revision (ho : v.owner.truthy = true) (h : v.endsClaim e = false) :
    (v.next e).owner = v.owner ∧ (v.next e).revision = v.revision := by
  unfold endsClaim at h
  unfold next
  split
  · exact ⟨rfl, rfl⟩
  · cases hact : e.action with
    | void | assign | unassign | complete => simp [hact] at h
    | releaseClaim =>
      rw [hact] at h
      have hcur : v.releasesCurrent e = false := h
      dsimp only
      rw [releaseClaim, if_neg (Bool.not_eq_true _ ▸ hcur)]
      split <;> exact ⟨rfl, rfl⟩
    | claim =>
      simp only [hact, Bool.or_eq_false_iff, Bool.not_eq_false'] at h
      -- the three conditions are those under which the claim is a conflict
      have hcon : v.claimConflicts e = true := by
        simp [claimConflicts, h.1.1, h.1.2, h.2, ho]
      dsimp only
      rw [claim, if_pos hcon]
      exact ⟨rfl, rfl⟩
    | _ => exact ⟨rfl, rfl⟩

/-- A release that names neither the claim nor a recorded conflict changes nothing. -/
theorem next_releaseClaim (hact : e.action = .releaseClaim) (hcur : v.releasesCurrent e = false)
    (hmatch : v.matching e = []) : v.next e = v := by
  have hconf : v.releasesConflict e = false := by rw [releasesConflict, hmatch]
  unfold next
  rw [hact]
  split
  · rfl
  · dsimp only
    rw [releaseClaim, hcur, hconf, if_neg Bool.false_ne_true, if_neg Bool.false_ne_true]

/-- A claim by somebody else, on a card that is held, only leaves its entry. -/
theorem next_claim (hact : e.action = .claim) (hv : v.voided = false)
    (hactive : v.status.isActive = true) (ho : v.owner.truthy = true)
    (hstr : (e.get "owner").isNonEmptyStr = true) (hne : v.owner.pyEq (e.get "owner") = false) :
    v.next e = { v with conflicts := some (.arr (v.conflictList ++ [v.conflictEntry e])) } := by
  have hcon : v.claimConflicts e = true := by simp [claimConflicts, hactive, ho, hstr, hne]
  have hguard : (v.voided && e.action.isVoidTerminal) = false := by rw [hv, Bool.false_and]
  unfold next
  rw [hguard, if_neg Bool.false_ne_true, hact]
  dsimp only
  rw [claim, if_pos hcon]

end ClaimView

open FoldState in
/-- **A live claim survives.**  Let `o` own the folded card at revision `r` in `READY`, `DOING` or
`REVIEW`.  Both last through every run of events none of which ends the claim in the state where it
folds.  A release that names neither the claim nor a recorded conflict leaves owner, column,
revision and conflicts, and a claim by another owner leaves owner, column and revision and
appends its entry to the conflicts. -/
theorem claim_survives {cardId : String} {core : CardCore} {pre : List Event} {s : FoldState}
    {o r : Json} (hs : foldCard cardId core pre = .ok s) (hlive : s.view.Live o r)
    (ho : o.truthy = true) :
    (∀ (post : List Event) (t : FoldState), s.foldEvents cardId post = .ok t →
      (∀ p e q u, post = p ++ e :: q → s.foldEvents cardId p = .ok u →
        u.view.endsClaim e = false) →
      t.view.owner = o ∧ t.view.revision = some r) ∧
    (∀ (e : Event) (t : FoldState), step cardId s e = .ok t → e.action = .releaseClaim →
      s.view.releasesCurrent e = false → s.view.matching e = [] → t.view = s.view) ∧
    (∀ (e : Event) (t : FoldState), step cardId s e = .ok t → e.action = .claim →
      (e.get "owner").isNonEmptyStr = true → o.pyEq (e.get "owner") = false →
      t.view = { s.view with
        conflicts := some (.arr (s.view.conflictList ++ [s.view.conflictEntry e])) }) := by
  refine ⟨?_, ?_, ?_⟩
  · intro post t hpost hkeep
    refine foldlM_invariant_of_turns
      (I := fun u : FoldState => u.view.owner = o ∧ u.view.revision = some r)
      (G := fun u e => u.view.endsClaim e = false) ?_ post s t
      ⟨hlive.owner, hlive.revision⟩ hkeep hpost
    intro u e u' hu hends hstep
    obtain ⟨h1, h2⟩ := ClaimView.next_owner_revision (hu.1 ▸ ho) hends
    rw [step_view hstep]
    exact ⟨h1.trans hu.1, h2.trans hu.2⟩
  · intro e t hstep hact hcur hmatch
    rw [step_view hstep]
    exact ClaimView.next_releaseClaim hact hcur hmatch
  · intro e t hstep hact hstr hne
    have howner : s.view.owner.truthy = true := hlive.owner ▸ ho
    rw [step_view hstep]
    exact ClaimView.next_claim hact (foldCard_not_voided hs howner) hlive.active howner hstr
      (hlive.owner ▸ hne)

open FoldState in
/-- The claim of `alice` outlasts a move to review and a claim of `bob`, which is recorded as a
conflict; a release of another revision changes nothing. -/
theorem claim_survives_alice : ∃ s t u w : FoldState,
    foldCard "c1" { id := "c1", title := "t", createdAt := "" } [Event.claimBy "alice" "r1"]
      = .ok s ∧
    s.foldEvents "c1" [Event.moveTo .review, Event.claimBy "bob" "r2"] = .ok t ∧
    step "c1" s (Event.releaseOf "alice" "r0") = .ok u ∧
    step "c1" s (Event.claimBy "bob" "r2") = .ok w ∧
    (t.view.owner = .str "alice" ∧ t.view.revision = some (.str "r1")) ∧
    u.view = s.view ∧
    w.view = { s.view with
      conflicts := some (.arr [s.view.conflictEntry (Event.claimBy "bob" "r2")]) } := by
  have h := @claim_survives "c1" { id := "c1", title := "t", createdAt := "" }
    [Event.claimBy "alice" "r1"] _ (.str "alice") (.str "r1") rfl ⟨rfl, rfl, rfl⟩ rfl
  refine ⟨_, _, _, _, rfl, rfl, rfl, rfl,
    h.1 [Event.moveTo .review, Event.claimBy "bob" "r2"] _ rfl ?_,
    h.2.1 (Event.releaseOf "alice" "r0") _ rfl rfl rfl rfl,
    h.2.2 (Event.claimBy "bob" "r2") _ rfl rfl rfl rfl⟩
  rintro (_ | ⟨a, _ | ⟨b, p⟩⟩) e q u hl hu
  · cases hl; cases hu; rfl
  · cases hl; cases hu; rfl
  · simp at hl

open FoldState in
/-- Neither a move nor another owner's claim is the holder's, and the two take the card from
`alice` to `bob`; a claim event without an owner takes it from her even in `DOING`. -/
theorem claim_not_kept : ∃ s t u : FoldState,
    foldCard "c1" { id := "c1", title := "t", createdAt := "" } [Event.claimBy "alice" "r1"]
      = .ok s ∧
    s.view.Live (.str "alice") (.str "r1") ∧
    s.foldEvents "c1" [Event.moveTo .backlog, Event.claimBy "bob" "r2"] = .ok t ∧
    t.card.owner = .str "bob" ∧ t.card.status = .doing ∧ t.view.revision = some (.str "r2") ∧
    step "c1" s (Event.ofFields "claim" [("claim_revision", .str "r2")]) = .ok u ∧
    u.card.owner = .null ∧ u.view.conflicts = none :=
  ⟨_, _, _, rfl, ⟨rfl, rfl, rfl⟩, rfl, rfl, rfl, rfl, rfl, rfl, rfl⟩

end SkCoord
