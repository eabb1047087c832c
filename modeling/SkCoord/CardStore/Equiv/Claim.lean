import SkCoord.CardStore.Claim
import SkCoord.CardStore.Equiv.Writes

/-!
# The fold seen through `ClaimView`

`step_view`: one turn of the loop maps the claim part of its variables by `ClaimView.next`, and
`foldEvents_view`: so does the loop.  There is one lemma for each branch; the branches below
"presentation" leave the claim part alone.
-/

namespace SkCoord

open Python

namespace Card

variable {c c' : Card} {e : Event} {cardId : String} (b : Bool)

/-- A column that `columnOf` returns is the one the view reads. -/
theorem columnOf_eq {col : Json} {r : Option Column} (h : columnOf col = .ok r) (v : ClaimView) :
    r.getD v.status = v.columnAfter col := by
  unfold columnOf Json.requireHashable at h
  cases col <;>
    simp_all [Json.hashable, ClaimView.columnAfter, bind, Except.bind, pure, Except.pure] <;>
    (subst h; rfl)

/-! ### Ownership and columns -/

theorem foldVoid_view : (c.foldVoid e).view true =
    { c.view b with archived := true, owner := .null, revision := none, voided := true } := by
  simp [foldVoid, view]

theorem foldMove_view (h : c.foldMove e = .ok c') :
    c'.view b = { c.view b with status := (c.view b).columnAfter (e.get "column") } := by
  obtain ⟨col, hcol, rfl⟩ := foldMove_eq h
  rw [← columnOf_eq hcol (c.view b)]
  rfl

theorem foldReopen_view (h : c.foldReopen e = .ok c') :
    c'.view b =
      { c.view b with archived := false, status := (c.view b).columnAfter (e.get "column") } := by
  obtain ⟨col, hcol, rfl⟩ := foldReopen_eq h
  rw [← columnOf_eq hcol (c.view b)]
  rfl

theorem foldAssign_view :
    (c.foldAssign e).view b = { c.view b with owner := e.get "owner", revision := none } := by
  simp [foldAssign, view]

theorem foldUnassign_view :
    c.foldUnassign.view b = { c.view b with owner := .null, revision := none } := by
  simp [foldUnassign, view]

theorem foldComplete_view :
    c.foldComplete.view b = { c.view b with status := .done, owner := .null, revision := none } := by
  simp [foldComplete, view]

theorem foldArchive_view : (c.foldArchive e).view b = { c.view b with archived := true } := by
  simp [foldArchive, view]

/-- Iterating `claim_conflicts` goes over the recorded conflicts, or over nothing that a release
can match. -/
theorem iter_conflicts {l : List Json}
    (h : (Dict.getD c.metaData "claim_conflicts" (.arr [])).iter = .ok l) :
    l = (c.view b).conflictList ∨
      (c.view b).conflictList = [] ∧ ∀ o r, l.filter (conflictMatches o r) = [] := by
  have hkeys : ∀ (α : Type) (m : List α) (f : α → String) (o r : Json),
      (m.map fun x => Json.str (f x)).filter (conflictMatches o r) = [] := by
    intro α m f o r
    rw [List.filter_eq_nil_iff]
    intro x hx
    obtain ⟨y, -, rfl⟩ := List.mem_map.mp hx
    simp [conflictMatches, Json.isDict]
  unfold Dict.getD at h
  unfold ClaimView.conflictList view
  cases hc : Assoc.get? c.metaData "claim_conflicts" with
  | none => rw [hc] at h; cases h; exact Or.inl rfl
  | some x =>
    rw [hc] at h
    cases x with
    | arr m => cases h; exact Or.inl rfl
    | str s => cases h; exact Or.inr ⟨rfl, hkeys _ _ _⟩
    | obj d => cases h; exact Or.inr ⟨rfl, hkeys _ _ _⟩
    | _ => cases h

/-- The two readings of `claim_conflicts` match the same conflicts. -/
theorem filter_iter_conflicts {l : List Json}
    (h : (Dict.getD c.metaData "claim_conflicts" (.arr [])).iter = .ok l) :
    l.filter (conflictMatches (e.get "released_owner") (e.get "expected_claim_revision")) =
      (c.view b).matching e := by
  rcases iter_conflicts b h with rfl | ⟨hnil, hl⟩
  · rfl
  · rw [hl, ClaimView.matching, hnil, List.filter_nil]

/-- A release of a conflict finds one, so `claim_conflicts` is a list. -/
theorem conflictList_of_releasesConflict {l : List Json}
    (h : (Dict.getD c.metaData "claim_conflicts" (.arr [])).iter = .ok l)
    (hr : (c.view b).releasesConflict e = true) : l = (c.view b).conflictList := by
  rcases iter_conflicts b h with rfl | ⟨hnil, -⟩
  · rfl
  · simp [ClaimView.releasesConflict, ClaimView.matching, hnil] at hr

theorem foldReleaseClaim_view (h : c.foldReleaseClaim e = .ok c') :
    c'.view b = (c.view b).releaseClaim e := by
  unfold foldReleaseClaim at h
  obtain ⟨l, hl, h⟩ := bind_eq_ok.mp h
  simp only [filter_iter_conflicts b hl] at h
  have hcur : releasesCurrent c e = (c.view b).releasesCurrent e := rfl
  have hconf : releasesConflict c e ((c.view b).matching e) = (c.view b).releasesConflict e := rfl
  rw [hcur, hconf] at h
  unfold ClaimView.releaseClaim
  split at h
  · rename_i hc
    rw [pure_eq_ok] at h
    rw [if_pos hc, ← h]
    simp [view]
  · rename_i hc
    rw [if_neg hc]
    split at h
    · rename_i hk
      rw [pure_eq_ok] at h
      rw [if_pos hk, ← h, conflictList_of_releasesConflict b hl hk]
      dsimp only
      generalize List.filter _ (c.view b).conflictList = remaining
      cases remaining <;> simp [view]
    · rename_i hk
      obtain ⟨entries, -, h⟩ := bind_eq_ok.mp h
      rw [pure_eq_ok] at h
      rw [if_neg hk, ← h]
      simp [view]

theorem foldClaim_view (h : c.foldClaim e = .ok c') : c'.view b = (c.view b).claim e := by
  unfold foldClaim at h
  have hcon : claimConflicts c e = (c.view b).claimConflicts e := rfl
  rw [hcon] at h
  unfold ClaimView.claim
  split at h
  · rename_i hc
    obtain ⟨entries, happ, h⟩ := bind_eq_ok.mp h
    rw [pure_eq_ok] at h
    rw [if_pos hc, ← h]
    -- only a list can be appended to, so the entry goes behind the recorded conflicts
    have hentries : entries = .arr ((c.view b).conflictList ++ [conflictEntry c e]) := by
      unfold Dict.getD at happ
      unfold ClaimView.conflictList view
      cases hk : Assoc.get? c.metaData "claim_conflicts" with
      | none => rw [hk] at happ; cases happ; rfl
      | some x => rw [hk] at happ; cases x <;> cases happ; rfl
    rw [hentries]
    simp [view, ClaimView.conflictEntry, conflictEntry, ClaimView.actualRevision, Dict.get]
  · rename_i hc
    rw [pure_eq_ok] at h
    rw [if_neg hc, ← h]
    have howner : (c.view b).owner = c.owner := rfl
    have hstatus : (c.view b).status = c.status := rfl
    rw [howner, hstatus]
    by_cases hr : (claimRevision e).isNonEmptyStr = true <;>
      by_cases hw : (c.owner.isNone && c.status == .backlog && (e.get "owner").truthy) = true <;>
      simp [view, hr, hw]

/-! ### Presentation -/

/-- A key of `meta` other than the two of the claim. -/
theorem view_setMeta {k : String} {v : Json} (h1 : k ≠ "_claim_revision")
    (h2 : k ≠ "claim_conflicts") :
    ({ c with metaData := Assoc.set c.metaData k v } : Card).view b = c.view b := by
  simp [view, h1.symm, h2.symm]

theorem foldNote_view (h : c.foldNote e = .ok c') : c'.view b = c.view b := by
  obtain rfl | ⟨v, rfl⟩ := foldNote_eq h
  · rfl
  · exact view_setMeta b (by decide) (by decide)

theorem withAgentRun_view {update : Dict → Except PyError Dict}
    (h : c.withAgentRun e update = .ok c') : c'.view b = c.view b := by
  obtain rfl | ⟨v, rfl⟩ := withAgentRun_eq h
  · rfl
  · exact view_setMeta b (by decide) (by decide)

theorem foldLink_view (h : c.foldLink e = .ok c') : c'.view b = c.view b := by
  obtain ⟨-, rfl⟩ | ⟨-, rfl⟩ := foldLink_eq h <;> rfl

theorem foldAmendCriteria_view (h : c.foldAmendCriteria cardId e = .ok c') :
    c'.view b = c.view b := by
  obtain ⟨criteria, rfl⟩ := foldAmendCriteria_eq h
  rfl

theorem foldDescribe_view : (c.foldDescribe e).view b = c.view b := by
  unfold foldDescribe
  dsimp only
  split <;> split <;> rfl

end Card

/-! ### The loop -/

namespace FoldState

variable {cardId : String}

/-- What every action does to the claim part of a card that is not voided. -/
theorem foldAction_view {c c' : Card} {e : Event} (b : Bool)
    (h : foldAction cardId c e e.action = .ok c') :
    c'.view (b || e.action == .void) =
      match e.action with
      | .void => { c.view b with
          archived := true, owner := .null, revision := none, voided := true }
      | .move => { c.view b with status := (c.view b).columnAfter (e.get "column") }
      | .reopen => { c.view b with
          archived := false, status := (c.view b).columnAfter (e.get "column") }
      | .assign => { c.view b with owner := e.get "owner", revision := none }
      | .unassign => { c.view b with owner := .null, revision := none }
      | .releaseClaim => (c.view b).releaseClaim e
      | .claim => (c.view b).claim e
      | .complete => { c.view b with status := .done, owner := .null, revision := none }
      | .archive => { c.view b with archived := true }
      | _ => c.view b := by
  generalize hact : e.action = act at h
  -- `void` alone sets the flag; behind any other action it is what it was
  have hvoid : (act == Action.void) = false → b = (b || act == Action.void) := by
    intro hf; rw [hf, Bool.or_false]
  cases act with
  | void =>
    obtain rfl := pure_eq_ok.mp h
    rw [show (b || Action.void == Action.void) = true from Bool.or_true b]
    exact Card.foldVoid_view b
  | move => rw [← hvoid rfl]; exact Card.foldMove_view b h
  | reopen => rw [← hvoid rfl]; exact Card.foldReopen_view b h
  | assign =>
    obtain rfl := pure_eq_ok.mp h
    rw [← hvoid rfl]; exact Card.foldAssign_view b
  | unassign =>
    obtain rfl := pure_eq_ok.mp h
    rw [← hvoid rfl]; exact Card.foldUnassign_view b
  | releaseClaim => rw [← hvoid rfl]; exact Card.foldReleaseClaim_view b h
  | claim => rw [← hvoid rfl]; exact Card.foldClaim_view b h
  | complete =>
    obtain rfl := pure_eq_ok.mp h
    rw [← hvoid rfl]; exact Card.foldComplete_view b
  | archive =>
    obtain rfl := pure_eq_ok.mp h
    rw [← hvoid rfl]; exact Card.foldArchive_view b
  -- the actions from here on write no field of the claim
  | link => rw [← hvoid rfl]; exact Card.foldLink_view b h
  | amendCriteria => rw [← hvoid rfl]; exact Card.foldAmendCriteria_view b h
  | note => rw [← hvoid rfl]; exact Card.foldNote_view b h
  | agentRunClaim => rw [← hvoid rfl]; exact Card.withAgentRun_view b h
  | agentRunActivity => rw [← hvoid rfl]; exact Card.withAgentRun_view b h
  | agentRunState => rw [← hvoid rfl]; exact Card.withAgentRun_view b h
  | describe =>
    obtain rfl := pure_eq_ok.mp h
    rw [← hvoid rfl]; exact Card.foldDescribe_view b
  | agentRunRequest =>
    obtain rfl := pure_eq_ok.mp h
    rw [← hvoid rfl]; exact Card.view_setMeta b (by decide) (by decide)
  | priority | swimlane | addLabel =>
    obtain rfl := pure_eq_ok.mp h
    rw [← hvoid rfl]
    simp only [Card.foldPriority, Card.foldSwimlane, Card.foldAddLabel]
    split <;> rfl
  | addDependency | removeDependency =>
    obtain rfl := pure_eq_ok.mp h
    rw [← hvoid rfl]
    simp only [Card.foldAddDependency, Card.foldRemoveDependency]
    split <;> rfl
  | removeLabel =>
    obtain rfl := pure_eq_ok.mp h
    rw [← hvoid rfl]
    rfl
  | other =>
    obtain rfl := pure_eq_ok.mp h
    rw [← hvoid rfl]

/-- One turn of the loop, seen through the view. -/
theorem step_view {s s' : FoldState} {e : Event} (h : step cardId s e = .ok s') :
    s'.view = s.view.next e := by
  unfold step at h
  obtain ⟨-, -, h⟩ := bind_eq_ok.mp h
  unfold ClaimView.next
  split at h
  · rename_i hc
    rw [pure_eq_ok] at h
    rw [if_pos (show (s.view.voided && e.action.isVoidTerminal) = true from hc), ← h]
    rfl
  · rename_i hc
    obtain ⟨c, hact, h⟩ := bind_eq_ok.mp h
    rw [pure_eq_ok] at h
    rw [if_neg (show ¬(s.view.voided && e.action.isVoidTerminal) = true from hc), ← h]
    have hview := foldAction_view s.voided hact
    exact hview

/-- The loop, seen through the view. -/
theorem foldEvents_view {s t : FoldState} {events : List Event}
    (h : s.foldEvents cardId events = .ok t) : t.view = events.foldl ClaimView.next s.view :=
  foldlM_project FoldState.view ClaimView.next (fun _ _ _ hstep => step_view hstep) events s t h

end FoldState

end SkCoord
