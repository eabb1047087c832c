import SkCoord.CardStore.Equiv.Claim

/-!
# The place of a card

A card keeps its identifier and its kind through every event (`step_same`), and only a move gives
it another order (`order_next`).  `PlacedView` is the claim part of the fold with the order, and
`step_placed` says that one turn of the loop maps it by a total function of the event.
-/

namespace SkCoord

open Python

/-- The part of a fold that says where the card stands. -/
structure PlacedView where
  claim : ClaimView
  order : Json

/-- The view after an event. -/
def PlacedView.next (v : PlacedView) (e : Event) : PlacedView where
  claim := v.claim.next e
  order :=
    if !v.claim.voided ∧ e.action = .move ∧ !(e.get "order").isNone then e.get "order" else v.order

/-- Column, order, owner and archived state. -/
structure Placement where
  column : Column
  order : Json
  owner : Json
  archived : Bool

/-- Where a card stands. -/
def Card.placement (c : Card) : Placement := ⟨c.status, c.order, c.owner, c.archived⟩

namespace PlacedView

variable {v : PlacedView} {e : Event}

/-- Where a view stands. -/
def placement (v : PlacedView) : Placement :=
  ⟨v.claim.status, v.order, v.claim.owner, v.claim.archived⟩

/-- An event on a card that is not voided passes the guard. -/
theorem guard_of_not_voided (hv : v.claim.voided = false) :
    (v.claim.voided && e.action.isVoidTerminal) = false := by rw [hv, Bool.false_and]

/-- A move to a column. -/
theorem next_move {col : Column} (hv : v.claim.voided = false) (hact : e.action = .move)
    (hcol : e.get "column" = .str col.value) :
    (v.next e).claim.voided = false ∧ (v.next e).placement =
      { v.placement with
        column := col, order := if (e.get "order").isNone then v.order else e.get "order" } := by
  have hclaim : v.claim.next e = { v.claim with status := col } := by
    unfold ClaimView.next ClaimView.columnAfter
    rw [guard_of_not_voided hv, hact, hcol]
    dsimp only
    rw [Column.ofValue?_value]
    rfl
  have horder : (v.next e).order =
      if (e.get "order").isNone then v.order else e.get "order" := by
    unfold next
    rw [hv, hact]
    cases (e.get "order").isNone <;> rfl
  have hcl : (v.next e).claim = { v.claim with status := col } := hclaim
  unfold placement
  rw [hcl, horder]
  exact ⟨hv, rfl⟩

/-- The order behind an event that is no move. -/
theorem order_next (hact : e.action ≠ .move) : (v.next e).order = v.order := by
  unfold next
  rw [if_neg fun h => hact h.2.1]

/-- An event that makes the claim another owner's, without a revision. -/
theorem next_of_owner (hact : e.action ≠ .move) {owner : Json}
    (hclaim : (v.next e).claim = { v.claim with owner, revision := none })
    (hv : v.claim.voided = false) :
    (v.next e).claim.voided = false ∧ (v.next e).placement = { v.placement with owner } := by
  unfold placement
  rw [hclaim, order_next hact]
  exact ⟨hv, rfl⟩

theorem next_assign (hv : v.claim.voided = false) (hact : e.action = .assign) :
    (v.next e).claim.voided = false ∧
      (v.next e).placement = { v.placement with owner := e.get "owner" } := by
  refine next_of_owner (by rw [hact]; decide) ?_ hv
  unfold next ClaimView.next
  rw [guard_of_not_voided hv, hact]
  rfl

theorem next_unassign (hv : v.claim.voided = false) (hact : e.action = .unassign) :
    (v.next e).claim.voided = false ∧
      (v.next e).placement = { v.placement with owner := .null } := by
  refine next_of_owner (by rw [hact]; decide) ?_ hv
  unfold next ClaimView.next
  rw [guard_of_not_voided hv, hact]
  rfl

theorem next_archive (hact : e.action = .archive) :
    (v.next e).claim.voided = v.claim.voided ∧
      (v.next e).placement = { v.placement with archived := true } := by
  have hguard : (v.claim.voided && e.action.isVoidTerminal) = false := by
    rw [hact]
    exact Bool.and_false _
  have hclaim : (v.next e).claim = { v.claim with archived := true } := by
    unfold next ClaimView.next
    rw [hguard, hact]
    rfl
  unfold placement
  rw [hclaim, order_next (by rw [hact]; decide)]
  exact ⟨rfl, rfl⟩

theorem next_reopen (hv : v.claim.voided = false) (hact : e.action = .reopen) :
    (v.next e).claim.voided = false ∧ (v.next e).placement =
      { v.placement with archived := false, column := v.claim.columnAfter (e.get "column") } := by
  have hclaim : (v.next e).claim =
      { v.claim with archived := false, status := v.claim.columnAfter (e.get "column") } := by
    unfold next ClaimView.next
    rw [guard_of_not_voided hv, hact]
    rfl
  unfold placement
  rw [hclaim, order_next (by rw [hact]; decide)]
  exact ⟨hv, rfl⟩

end PlacedView

namespace FoldState

variable {cardId : String} {s s' : FoldState} {e : Event}

/-- The view of the variables of the loop. -/
def placed (s : FoldState) : PlacedView := { claim := s.view, order := s.card.order }

/-- One turn of the loop keeps identifier and kind, and changes the order only for a move. -/
theorem step_same (h : step cardId s e = .ok s') :
    s'.card.id = s.card.id ∧ s'.card.kind = s.card.kind ∧ s'.card.order = (s.placed.next e).order := by
  have hwrites := step_writes h
  exact ⟨hwrites.id, hwrites.kind, hwrites.order⟩

/-- One turn of the loop, seen through the place. -/
theorem step_placed (h : step cardId s e = .ok s') : s'.placed = s.placed.next e := by
  have hclaim : s'.placed.claim = s.placed.claim.next e := step_view h
  have horder : s'.placed.order = (s.placed.next e).order := (step_same h).2.2
  exact congrArg₂ PlacedView.mk hclaim horder

/-- The loop, seen through the place. -/
theorem foldEvents_placed {events : List Event} {s t : FoldState}
    (h : foldEvents cardId s events = .ok t) : t.placed = events.foldl PlacedView.next s.placed :=
  foldlM_project placed PlacedView.next (fun _ _ _ => step_placed) events s t h

/-- The loop keeps identifier and kind. -/
theorem foldEvents_same {events : List Event} {s t : FoldState}
    (h : foldEvents cardId s events = .ok t) :
    t.card.id = s.card.id ∧ t.card.kind = s.card.kind :=
  foldlM_invariant (I := fun t => t.card.id = s.card.id ∧ t.card.kind = s.card.kind)
    (fun _ _ _ hI hstep => ⟨(step_same hstep).1.trans hI.1, (step_same hstep).2.1.trans hI.2⟩)
    events s t ⟨rfl, rfl⟩ h

/-- The events that place a card never fail to fold: their column, if any, is hashable. -/
theorem step_placing (cardId : String) (s : FoldState) {act : String} (hact : e.get "action" = .str act)
    (hplacing : act ∈ ["move", "assign", "unassign", "archive", "reopen"])
    (hcol : (e.get "column").hashable = true) : ∃ s', step cardId s e = .ok s' := by
  have haction : e.action = Action.ofString act := by
    unfold Event.action
    rw [hact]
  have hlookup : lookupTerminal s e = .ok () := by
    unfold lookupTerminal
    rw [hact]
    split <;> rfl
  have hcolumn : ∃ col, Card.columnOf (e.get "column") = .ok col := by
    unfold Card.columnOf Json.requireHashable
    rw [if_pos hcol]
    cases e.get "column" <;> exact ⟨_, rfl⟩
  have hfold : ∃ c, foldAction cardId s.card e e.action = .ok c := by
    obtain ⟨col, hcol⟩ := hcolumn
    rw [haction]
    simp only [List.mem_cons, List.not_mem_nil, or_false] at hplacing
    rcases hplacing with rfl | rfl | rfl | rfl | rfl
    · exact ⟨_, bind_eq_ok.mpr ⟨col, hcol, rfl⟩⟩
    · exact ⟨_, rfl⟩
    · exact ⟨_, rfl⟩
    · exact ⟨_, rfl⟩
    · exact ⟨_, bind_eq_ok.mpr ⟨col, hcol, rfl⟩⟩
  unfold step
  rw [hlookup]
  show ∃ s', (if (s.voided && e.action.isVoidTerminal) = true then
    pure { s with card := touch s.card e } else _) = Except.ok s'
  split
  · exact ⟨_, rfl⟩
  · obtain ⟨c, hc⟩ := hfold
    exact ⟨_, bind_eq_ok.mpr ⟨c, hc, rfl⟩⟩

end FoldState

end SkCoord
