import SkCoord.CardStore.Equiv.Void
import SkCoord.Lifecycle.Reassessment

/-!
# The claim that a reassessment sees

`currentClaim` scans the events of a card for its claim, and `CardStore.fold` folds them.
`currentClaim_iff` says which claim the scan takes, and `seesRealClaim_iff` when it is the one by which
the folded card is owned: the scan knows nothing of claims that lose, of releases that are refused, or
of owners that are assigned, and an archived or completed card has no claim for it.
-/

namespace SkCoord

open Python

/-! ### The owner of a folded card -/

namespace ClaimView

variable {v : ClaimView} {e : Event}

/-- The event gives or takes the owner. -/
def setsOwner (v : ClaimView) (e : Event) : Bool :=
  if v.voided && e.action.isVoidTerminal then false
  else match e.action with
    | .void | .assign | .unassign | .complete => true
    | .releaseClaim => v.releasesCurrent e
    | .claim => !v.claimConflicts e
    | _ => false

/-- No event of a run gives or takes the owner. -/
def undisturbed : ClaimView → List Event → Bool
  | _, [] => true
  | v, e :: events => !v.setsOwner e && undisturbed (v.next e) events

/-- The view of a new card that nobody owns. -/
def birth (core : CardCore) : ClaimView where
  owner := .null
  status := .backlog
  revision := Assoc.get? core.metaData "_claim_revision"
  conflicts := Assoc.get? core.metaData "claim_conflicts"
  archived := false
  voided := false

theorem owner_next (h : v.setsOwner e = false) : (v.next e).owner = v.owner := by
  unfold setsOwner at h
  unfold next
  split at h
  · rename_i hvoid
    rw [if_pos hvoid]
  · rename_i hvoid
    rw [if_neg hvoid]
    cases hact : e.action with
    | void | assign | unassign | complete => simp [hact] at h
    | releaseClaim =>
      rw [hact] at h
      dsimp only at h ⊢
      rw [releaseClaim, if_neg (Bool.not_eq_true _ ▸ h)]
      split <;> rfl
    | claim =>
      rw [hact] at h
      dsimp only at h ⊢
      rw [claim, if_pos (Bool.not_eq_false' .. ▸ h)]
    | _ => rfl

theorem owner_foldl_next : ∀ {events : List Event} {v : ClaimView},
    v.undisturbed events = true → (events.foldl next v).owner = v.owner
  | [], _, _ => rfl
  | e :: events, v, h => by
    rw [undisturbed, Bool.and_eq_true, Bool.not_eq_true'] at h
    rw [List.foldl_cons, owner_foldl_next h.2, owner_next h.1]

theorem undisturbed_append : ∀ (p q : List Event) (v : ClaimView),
    v.undisturbed (p ++ q) = (v.undisturbed p && (p.foldl next v).undisturbed q)
  | [], _, _ => rfl
  | e :: p, q, v => by
    rw [List.cons_append, undisturbed, undisturbed_append p q, undisturbed, List.foldl_cons,
      Bool.and_assoc]

/-- A claim that the fold accepts gives the card its owner. -/
theorem owner_next_claim (hact : e.action = .claim) (h : v.setsOwner e = true) :
    (v.next e).owner = e.get "owner" := by
  unfold setsOwner at h
  unfold next
  split at h
  · cases h
  · rename_i hvoid
    rw [hact] at h
    dsimp only at h
    rw [if_neg hvoid, hact]
    dsimp only
    rw [claim, if_neg (by rw [Bool.not_eq_true', ← Bool.not_eq_true] at h; exact h)]

/-- A claim by the owner himself is never a conflict. -/
theorem setsOwner_of_own (hact : e.action = .claim) (hvoid : v.voided = false)
    (howner : v.owner = e.get "owner") : v.setsOwner e = true := by
  rw [setsOwner, hvoid, Bool.false_and, if_neg Bool.false_ne_true, hact]
  simp only [claimConflicts, howner, Json.pyEq_refl, Bool.not_true, Bool.and_false, Bool.false_and,
    Bool.not_false]

theorem voided_foldl_next : ∀ {events : List Event} {v : ClaimView}, v.voided = false →
    (∀ e ∈ events, e.action ≠ .void) → (events.foldl next v).voided = false
  | [], _, hvoid, _ => hvoid
  | e :: _, _, hvoid, h => by
    rw [List.foldl_cons]
    refine voided_foldl_next ?_ fun x hx => h x (List.mem_cons_of_mem _ hx)
    rw [next_voided, hvoid, Bool.false_or, beq_eq_false_iff_ne]
    exact h e List.mem_cons_self

end ClaimView

theorem foldCard_view {cardId : String} {core : CardCore} (hcore : core.initialOwner = none)
    {events : List Event} {s : FoldState} (h : foldCard cardId core events = .ok s) :
    s.view = events.foldl ClaimView.next (.birth core) := by
  obtain ⟨s₀, hinit, hfold⟩ := bind_eq_ok.mp h
  rw [FoldState.foldEvents_view hfold]
  unfold foldInit at hinit
  rw [hcore] at hinit
  rw [← pure_eq_ok.mp hinit]
  rfl

/-! ### The scan -/

/-- A claim by a named owner. -/
def Event.isNamedClaim (e : Event) : Bool :=
  e.action == .claim && (Dict.get e "owner").isNonEmptyStr

/-- The events behind which a card has no claim for the scan. -/
def Event.endsScan (e : Event) : Bool :=
  e.action == .complete || e.action == .void || e.action == .archive

/-- The events that clear the claim of the scan. -/
def Event.clearsScan (e : Event) : Bool := e.action == .unassign || e.action == .releaseClaim

namespace Reassessment

namespace ClaimScan

/-- A turn of the loop that does not raise. -/
def next (s : ClaimScan) (e : Event) : ClaimScan :=
  if e.isNamedClaim ∧ s.terminal = false then { s with claim := some e }
  else if e.endsScan then { claim := none, terminal := true }
  else if e.clearsScan then { s with claim := none }
  else s

theorem step_eq (s : ClaimScan) {e : Event} (h : (Dict.get e "action").hashable = true) :
    s.step e = .ok (s.next e) := by
  unfold step next Event.isNamedClaim Event.endsScan Event.clearsScan
  have hhash : (Dict.get e "action").requireHashable = .ok () := by
    rw [Json.requireHashable, if_pos h]
    rfl
  have hnamed : (e.action = .claim ∧ s.terminal = false ∧
      (Dict.get e "owner").isNonEmptyStr = true) ↔
      (e.action == .claim && (Dict.get e "owner").isNonEmptyStr) = true ∧ s.terminal = false := by
    rw [Bool.and_eq_true, beq_iff_eq]
    exact ⟨fun h => ⟨⟨h.1, h.2.2⟩, h.2.1⟩, fun h => ⟨h.1.1, h.2, h.1.2⟩⟩
  by_cases hclaim : e.action = .claim ∧ s.terminal = false ∧
      (Dict.get e "owner").isNonEmptyStr = true
  · rw [if_pos hclaim, if_pos (hnamed.mp hclaim)]
    rfl
  · rw [if_neg hclaim, if_neg (mt hnamed.mpr hclaim), hhash, ok_bind]
    cases e.action <;> rfl

/-- An action that has no hash makes the loop raise. -/
theorem hashable_of_step {s t : ClaimScan} {e : Event} (h : s.step e = .ok t) :
    (Dict.get e "action").hashable = true := by
  unfold step at h
  split at h
  · rename_i hclaim
    -- a claim has a text for its action
    have hact := hclaim.1
    unfold Event.action at hact
    split at hact
    · rename_i a ha
      rw [ha]
      rfl
    · cases hact
  · obtain ⟨u, hu, -⟩ := bind_eq_ok.mp h
    by_contra hhash
    rw [Json.requireHashable, if_neg hhash] at hu
    exact throw_ne_ok hu

theorem foldlM_step : ∀ {events : List Event} {s t : ClaimScan},
    events.foldlM step s = .ok t ↔
      (∀ e ∈ events, (Dict.get e "action").hashable = true) ∧ events.foldl next s = t
  | [], s, t => by
    rw [List.foldlM_nil, pure_eq_ok, List.foldl_nil]
    exact ⟨fun h => ⟨fun _ he => absurd he List.not_mem_nil, h⟩, fun h => h.2⟩
  | e :: events, s, t => by
    rw [foldlM_cons_eq_ok, List.forall_mem_cons, List.foldl_cons]
    constructor
    · rintro ⟨u, hstep, hrest⟩
      have hhash := hashable_of_step hstep
      rw [step_eq s hhash] at hstep
      cases hstep
      obtain ⟨hall, hfold⟩ := foldlM_step.mp hrest
      exact ⟨⟨hhash, hall⟩, hfold⟩
    · rintro ⟨⟨hhash, hall⟩, hfold⟩
      exact ⟨_, step_eq s hhash, foldlM_step.mpr ⟨hall, hfold⟩⟩

theorem terminal_next (s : ClaimScan) (e : Event) :
    (s.next e).terminal = (s.terminal || e.endsScan) := by
  unfold next
  split
  · rename_i hclaim
    obtain ⟨hnamed, hterminal⟩ := hclaim
    rw [Event.isNamedClaim, Bool.and_eq_true, beq_iff_eq] at hnamed
    rw [Event.endsScan, hnamed.1, hterminal]
    rfl
  · split
    · rename_i hends
      rw [hends, Bool.or_true]
    · rename_i hends
      rw [Bool.not_eq_true] at hends
      rw [hends, Bool.or_false]
      split <;> rfl

theorem terminal_foldl (events : List Event) (s : ClaimScan) :
    (events.foldl next s).terminal = (s.terminal || events.any Event.endsScan) := by
  induction events generalizing s with
  | nil => rw [List.foldl_nil, List.any_nil, Bool.or_false]
  | cons e events ih => rw [List.foldl_cons, ih, terminal_next, List.any_cons, Bool.or_assoc]

end ClaimScan

/-- The scan takes the claim `e` between the events `pre` and `post`. -/
structure TakesClaim (pre : List Event) (e : Event) (post : List Event) : Prop where
  named : e.isNamedClaim = true
  alive : ∀ x ∈ pre ++ e :: post, x.endsScan = false
  last : ∀ x ∈ post, x.isNamedClaim = false ∧ x.clearsScan = false

theorem TakesClaim.foldl {pre post : List Event} {e : Event} (h : TakesClaim pre e post) :
    ((pre ++ e :: post).foldl ClaimScan.next {}).claim = some e := by
  have hpre : (pre.foldl ClaimScan.next {}).terminal = false := by
    rw [ClaimScan.terminal_foldl, Bool.false_or, List.any_eq_false]
    exact fun x hx => Bool.not_eq_true _ ▸ h.alive x (List.mem_append_left _ hx)
  have hrest : ∀ {l : List Event} {s : ClaimScan}, (∀ x ∈ l, x.isNamedClaim = false ∧
      x.clearsScan = false ∧ x.endsScan = false) → (l.foldl ClaimScan.next s).claim = s.claim := by
    intro l
    induction l with
    | nil => exact fun _ => rfl
    | cons x l ih =>
      intro s hl
      obtain ⟨hnamed, hclears, hends⟩ := hl x List.mem_cons_self
      rw [List.foldl_cons, ih fun y hy => hl y (List.mem_cons_of_mem _ hy), ClaimScan.next, hnamed,
        hends, hclears]
      rfl
  rw [List.foldl_append, List.foldl_cons, hrest fun x hx => ⟨(h.last x hx).1, (h.last x hx).2,
    h.alive x (List.mem_append_right _ (List.mem_cons_of_mem _ hx))⟩, ClaimScan.next,
    if_pos ⟨h.named, hpre⟩]

/-- A claim that the scan holds at the end is one event of the list: a named claim, with no terminal
event anywhere and no other named claim or release behind it. The induction is on the list from its
end, one case for each branch of the scan. -/
theorem exists_takesClaim (events : List Event) : ∀ {e : Event},
    (events.foldl ClaimScan.next {}).claim = some e →
      ∃ pre post, events = pre ++ e :: post ∧ TakesClaim pre e post := by
  induction events using List.reverseRecOn with
  | nil => exact fun h => nomatch h
  | append_singleton l x ih =>
    intro e h
    have hterminal := ClaimScan.terminal_foldl l {}
    rw [Bool.false_or] at hterminal
    rw [List.foldl_append, List.foldl_cons, List.foldl_nil, ClaimScan.next] at h
    split at h
    · rename_i hnamed
      -- The last event is the claim itself.
      obtain rfl := Option.some.inj h
      rw [hterminal, List.any_eq_false] at hnamed
      refine ⟨l, [], rfl, hnamed.1, fun y hy => ?_, fun y hy => absurd hy List.not_mem_nil⟩
      rcases List.mem_append.mp hy with hy | hy
      · exact Bool.eq_false_iff.mpr (hnamed.2 y hy)
      · obtain rfl := List.mem_singleton.mp hy
        have hact := hnamed.1
        rw [Event.isNamedClaim, Bool.and_eq_true, beq_iff_eq] at hact
        rw [Event.endsScan, hact.1]
        rfl
    · rename_i hnamed
      split at h
      · cases h
      · rename_i hends
        split at h
        · cases h
        · rename_i hclears
          -- The last event leaves the claim alone, so it was held before it.
          obtain ⟨pre, post, rfl, htakes⟩ := ih h
          have halive : (List.foldl ClaimScan.next {} (pre ++ e :: post)).terminal = false := by
            rw [hterminal, List.any_eq_false]
            exact fun y hy => Bool.not_eq_true _ ▸ htakes.alive y hy
          refine ⟨pre, post ++ [x], by rw [List.append_assoc, List.cons_append], htakes.named,
            fun y hy => ?_, fun y hy => ?_⟩
          · rw [← List.cons_append, ← List.append_assoc, List.mem_append, List.mem_singleton] at hy
            rcases hy with hy | rfl
            · exact htakes.alive y hy
            · exact Bool.eq_false_iff.mpr hends
          · rcases List.mem_append.mp hy with hy | hy
            · exact htakes.last y hy
            · obtain rfl := List.mem_singleton.mp hy
              exact ⟨Bool.eq_false_iff.mpr fun hn => hnamed ⟨hn, halive⟩,
                Bool.eq_false_iff.mpr hclears⟩

/-- **The claim of the scan** is the last one by a named owner, with no event behind it that clears
it and none at all that ends the card. -/
theorem currentClaim_iff {events : List Event} {e : Event} :
    currentClaim events = .ok (some e) ↔
      (∀ x ∈ events, (Dict.get x "action").hashable = true) ∧
        ∃ pre post, events = pre ++ e :: post ∧ TakesClaim pre e post := by
  constructor
  · intro h
    obtain ⟨s, hs, hclaim⟩ := bind_eq_ok.mp h
    obtain ⟨hhash, rfl⟩ := ClaimScan.foldlM_step.mp hs
    exact ⟨hhash, exists_takesClaim events (pure_eq_ok.mp hclaim)⟩
  · rintro ⟨hhash, pre, post, rfl, htakes⟩
    exact bind_eq_ok.mpr ⟨_, ClaimScan.foldlM_step.mpr ⟨hhash, rfl⟩, congrArg Except.ok htakes.foldl⟩

/-! ### The claim of the fold -/

/-- A claim at the end of `pre` gives the card its owner, and no event behind it takes it away. -/
structure Stands (core : CardCore) (pre : List Event) (e : Event) (post : List Event) : Prop where
  claim : e.action = .claim
  accepted : (pre.foldl ClaimView.next (.birth core)).setsOwner e = true
  undisturbed : ((pre.foldl ClaimView.next (.birth core)).next e).undisturbed post = true

/-- The folded card is owned by `o`, by a claim event. -/
structure OwnsByClaim (cardId : String) (core : CardCore) (events : List Event) (o : String) :
    Prop where
  owner : ∃ s, foldCard cardId core events = .ok s ∧ s.card.owner = .str o
  claimed : ∃ pre e post, events = pre ++ e :: post ∧ Stands core pre e post

variable {cardId : String} {core : CardCore} {pre post : List Event} {e : Event}

theorem Stands.owner_foldl (h : Stands core pre e post) :
    ((pre ++ e :: post).foldl ClaimView.next (.birth core)).owner = e.get "owner" := by
  rw [List.foldl_append, List.foldl_cons, ClaimView.owner_foldl_next h.undisturbed,
    ClaimView.owner_next_claim h.claim h.accepted]

/-- The owner of a card is the one that the standing claim names. -/
theorem owner_of_stands (hcore : core.initialOwner = none) (h : Stands core pre e post)
    {s : FoldState} (hs : foldCard cardId core (pre ++ e :: post) = .ok s) :
    s.card.owner = e.get "owner" := by
  have hview := congrArg ClaimView.owner (foldCard_view hcore hs)
  rw [h.owner_foldl] at hview
  exact hview

/-- The card is not voided where a standing claim was made, and behind it. -/
theorem Stands.voided (h : Stands core pre e post) :
    (pre.foldl ClaimView.next (.birth core)).voided = false := by
  have haccepted := h.accepted
  unfold ClaimView.setsOwner at haccepted
  split at haccepted
  · cases haccepted
  · rename_i hvoid
    rw [h.claim, Bool.and_eq_true] at hvoid
    exact Bool.eq_false_iff.mpr fun hv => hvoid ⟨hv, rfl⟩

theorem Stands.no_void (h : Stands core pre e post) : ∀ {p : List Event} {x : Event}
    {q : List Event}, post = p ++ x :: q →
      (p.foldl ClaimView.next ((pre.foldl ClaimView.next (.birth core)).next e)).voided = false := by
  have hnext : ((pre.foldl ClaimView.next (.birth core)).next e).voided = false := by
    rw [ClaimView.next_voided, h.voided, h.claim]
    rfl
  intro p x q hpost
  refine ClaimView.voided_foldl_next hnext fun y hy hvoid => ?_
  -- a void takes the owner away
  obtain ⟨l, m, rfl⟩ := List.append_of_mem hy
  have hundisturbed := h.undisturbed
  rw [hpost, List.append_assoc, ClaimView.undisturbed_append, List.cons_append,
    ClaimView.undisturbed, Bool.and_eq_true, Bool.and_eq_true, Bool.not_eq_true'] at hundisturbed
  have hsets := hundisturbed.2.1
  unfold ClaimView.setsOwner at hsets
  rw [hvoid, show Action.void.isVoidTerminal = false from rfl, Bool.and_false,
    if_neg Bool.false_ne_true] at hsets
  cases hsets

/-- No event behind a standing claim is a claim by its own owner. -/
theorem Stands.ne_owner (h : Stands core pre e post) {p : List Event} {x : Event} {q : List Event}
    (hpost : post = p ++ x :: q) (hx : x.action = .claim) : x.get "owner" ≠ e.get "owner" := by
  intro howner
  have hundisturbed := h.undisturbed
  rw [hpost, ClaimView.undisturbed_append, ClaimView.undisturbed, Bool.and_eq_true,
    Bool.and_eq_true, Bool.not_eq_true'] at hundisturbed
  have hsets := ClaimView.setsOwner_of_own hx (h.no_void hpost) (by
    rw [ClaimView.owner_foldl_next hundisturbed.1, ClaimView.owner_next_claim h.claim h.accepted,
      howner])
  rw [hundisturbed.2.1] at hsets
  cases hsets

/-! ### When they agree -/

/-- The scan takes a claim by `o` exactly when the folded card is owned by `o` by a claim, and an
entry of a report names the owner of the card. -/
structure SeesRealClaim (cardId : String) (core : CardCore) (events : List Event) : Prop where
  claim : ∀ o, o ≠ "" → ((∃ e, currentClaim events = .ok (some e) ∧ e.get "owner" = .str o) ↔
    OwnsByClaim cardId core events o)
  entries : ∀ E q evidence (r : CardRecord) stale dead, r.events = events →
    assessClaim E q evidence r = .ok (stale, dead) → ∀ entry ∈ stale ++ dead,
      ∃ o, entry.owner = .str o ∧ OwnsByClaim cardId core events o

/-- The scan and the fold read the events alike: where the scan takes a claim, the events fold, the
claim does not lose, and nobody is assigned or claims without a name behind it; and where a claim by
a named owner stands, no event completes, voids or archives the card or has an action without a
hash, and behind the claim nobody else claims, releases or unassigns. -/
structure ReadsAlike (cardId : String) (core : CardCore) (events : List Event) : Prop where
  taken : ∀ pre e post, events = pre ++ e :: post → TakesClaim pre e post →
    (∀ x ∈ events, (Dict.get x "action").hashable = true) →
      (∃ s, foldCard cardId core events = .ok s) ∧
        (pre.foldl ClaimView.next (.birth core)).claimConflicts e = false ∧
          ∀ x ∈ post, x.action ≠ .assign ∧ x.action ≠ .claim
  standing : ∀ pre e post, events = pre ++ e :: post → Stands core pre e post →
    e.isNamedClaim = true → (∃ s, foldCard cardId core events = .ok s) →
      (∀ x ∈ events, (Dict.get x "action").hashable = true ∧ x.endsScan = false) ∧
        ∀ x ∈ post, x.isNamedClaim = false ∧ x.clearsScan = false

theorem isNamedClaim_iff {e : Event} :
    e.isNamedClaim = true ↔ e.action = .claim ∧ ∃ o, Dict.get e "owner" = .str o ∧ o ≠ "" := by
  rw [Event.isNamedClaim, Bool.and_eq_true, beq_iff_eq, Json.isNonEmptyStr_iff]

/-- An event that does not end the scan, clears nothing, assigns nobody and is no claim leaves the
owner. -/
theorem setsOwner_of_quiet {v : ClaimView} {x : Event} (hends : x.endsScan = false)
    (hclears : x.clearsScan = false) (hassign : x.action ≠ .assign) (hclaim : x.action ≠ .claim) :
    v.setsOwner x = false := by
  unfold Event.endsScan at hends
  unfold Event.clearsScan at hclears
  unfold ClaimView.setsOwner
  split
  · rfl
  · cases hact : x.action with
    | void | complete => rw [hact] at hends; cases hends
    | unassign | releaseClaim => rw [hact] at hclears; cases hclears
    | assign => exact absurd hact hassign
    | claim => exact absurd hact hclaim
    | _ => rfl

theorem undisturbed_of_quiet : ∀ {l : List Event} {v : ClaimView}, (∀ x ∈ l, x.endsScan = false ∧
    x.clearsScan = false ∧ x.action ≠ .assign ∧ x.action ≠ .claim) → v.undisturbed l = true
  | [], _, _ => rfl
  | x :: l, v, h => by
    obtain ⟨hends, hclears, hassign, hclaim⟩ := h x List.mem_cons_self
    rw [ClaimView.undisturbed, setsOwner_of_quiet hends hclears hassign hclaim, Bool.not_false,
      Bool.true_and]
    exact undisturbed_of_quiet fun y hy => h y (List.mem_cons_of_mem _ hy)

/-- A claim that the scan takes stands, when it does not lose and nobody is assigned behind it. -/
theorem TakesClaim.stands (h : TakesClaim pre e post)
    (hwins : (pre.foldl ClaimView.next (.birth core)).claimConflicts e = false)
    (hquiet : ∀ x ∈ post, x.action ≠ .assign ∧ x.action ≠ .claim) : Stands core pre e post := by
  obtain ⟨hact, -⟩ := isNamedClaim_iff.mp h.named
  have hvoid : (pre.foldl ClaimView.next (.birth core)).voided = false := by
    refine ClaimView.voided_foldl_next rfl fun x hx hvoid => ?_
    have hends := h.alive x (List.mem_append_left _ hx)
    rw [Event.endsScan, hvoid] at hends
    cases hends
  refine ⟨hact, ?_, undisturbed_of_quiet fun x hx => ⟨?_, (h.last x hx).2, hquiet x hx⟩⟩
  · rw [ClaimView.setsOwner, hvoid, Bool.false_and, if_neg Bool.false_ne_true, hact]
    rw [hwins]
    rfl
  · exact h.alive x (List.mem_append_right _ (List.mem_cons_of_mem _ hx))

/-- Two places in one list are the same, or one is behind the other. -/
theorem split_cases {pre' post' : List Event} {e' : Event}
    (h : pre ++ e :: post = pre' ++ e' :: post') : (pre = pre' ∧ e = e' ∧ post = post') ∨
      (∃ p q, post = p ++ e' :: q) ∨ ∃ p q, post' = p ++ e :: q := by
  rcases List.append_eq_append_iff.mp h with ⟨l, hpre, hpost⟩ | ⟨l, hpre, hpost⟩
  · cases l with
    | nil =>
      rw [List.nil_append] at hpost
      cases hpost
      exact .inl ⟨by rw [hpre, List.append_nil], rfl, rfl⟩
    | cons a l =>
      cases hpost
      exact .inr (.inl ⟨l, post', rfl⟩)
  · cases l with
    | nil =>
      rw [List.nil_append] at hpost
      cases hpost
      exact .inl ⟨by rw [hpre, List.append_nil], rfl, rfl⟩
    | cons a l =>
      cases hpost
      exact .inr (.inr ⟨l, post, rfl⟩)

/-- What stands behind a standing claim that the scan takes too. -/
theorem Stands.quiet (h : Stands core pre e post) (htakes : TakesClaim pre e post) :
    (pre.foldl ClaimView.next (.birth core)).claimConflicts e = false ∧
      ∀ x ∈ post, x.action ≠ .assign ∧ x.action ≠ .claim := by
  have haccepted := h.accepted
  rw [ClaimView.setsOwner, h.voided, Bool.false_and, if_neg Bool.false_ne_true, h.claim] at haccepted
  refine ⟨by simpa using haccepted, fun x hx => ?_⟩
  obtain ⟨p, q, hpost⟩ := List.append_of_mem hx
  have hundisturbed := h.undisturbed
  rw [hpost, ClaimView.undisturbed_append, ClaimView.undisturbed, Bool.and_eq_true,
    Bool.and_eq_true, Bool.not_eq_true'] at hundisturbed
  have hsets := hundisturbed.2.1
  rw [ClaimView.setsOwner, h.no_void hpost, Bool.false_and, if_neg Bool.false_ne_true] at hsets
  constructor
  · intro hact
    rw [hact] at hsets
    cases hsets
  · intro hact
    -- a claim without a name is no conflict
    have hnamed := (htakes.last x hx).1
    rw [Event.isNamedClaim, hact, Bool.and_eq_false_imp] at hnamed
    rw [hact] at hsets
    simp [ClaimView.claimConflicts, hnamed rfl] at hsets

theorem owner_of_entry {E : AssessEnv} {q : AssessQuery} {evidence : Assoc String (List EvidenceRow)}
    {r : CardRecord} {stale dead : List ClaimEntry}
    (h : assessClaim E q evidence r = .ok (stale, dead)) {entry : ClaimEntry}
    (hentry : entry ∈ stale ++ dead) : ∃ e, currentClaim r.events = .ok (some e) ∧
      (entry.owner = e.get "owner" ∨ entry.owner = (e.get "owner").orElse (.str "")) := by
  obtain ⟨claim, hclaim, h⟩ := bind_eq_ok.mp h
  cases claim with
  | none =>
    cases h
    exact absurd hentry List.not_mem_nil
  | some e =>
    refine ⟨e, hclaim, ?_⟩
    obtain ⟨time, -, h⟩ := bind_eq_ok.mp h
    cases time with
    | none =>
      cases h
      exact absurd hentry List.not_mem_nil
    | some claimedAt =>
      dsimp only at h
      split at h
      · cases h
        exact absurd hentry List.not_mem_nil
      · obtain ⟨blocked, -, h⟩ := bind_eq_ok.mp h
        cases blocked with
        | some b =>
          cases h
          obtain rfl := List.mem_singleton.mp hentry
          exact .inl rfl
        | none =>
          obtain ⟨produced, -, h⟩ := bind_eq_ok.mp h
          cases h
          rw [List.nil_append] at hentry
          split at hentry
          · obtain rfl := List.mem_singleton.mp hentry
            exact .inr rfl
          · exact absurd hentry List.not_mem_nil

/-- **The reassessment sees the real claim** of a card exactly when the scan and the fold read its
events alike. -/
theorem seesRealClaim_iff (cardId : String) (core : CardCore) (hcore : core.initialOwner = none)
    (events : List Event) : SeesRealClaim cardId core events ↔ ReadsAlike cardId core events := by
  constructor
  · intro h
    constructor
    · -- Each claim that the scan takes: the fold must hold the same one, or the owners would
      -- differ.
      intro pre e post hsplit htakes hhash
      obtain ⟨hact, o, howner, hne⟩ := isNamedClaim_iff.mp htakes.named
      have hcurrent := currentClaim_iff.mpr ⟨hhash, pre, post, hsplit, htakes⟩
      obtain ⟨⟨s, hs, hso⟩, pre', e', post', hsplit', hstands⟩ :=
        (h.claim o hne).mp ⟨e, hcurrent, howner⟩
      have howner' : e'.get "owner" = .str o := by
        rw [hsplit'] at hs
        exact (owner_of_stands hcore hstands hs).symm.trans hso
      refine ⟨⟨s, hs⟩, ?_⟩
      -- The two claims are one event, or one of them is before the other.
      rcases split_cases (hsplit.symm.trans hsplit') with ⟨rfl, rfl, rfl⟩ | ⟨p, q, hp⟩ | ⟨p, q, hp⟩
      · exact hstands.quiet htakes
      · have hlast := (htakes.last e' (hp ▸ List.mem_append_right _ List.mem_cons_self)).1
        rw [isNamedClaim_iff.mpr ⟨hstands.claim, o, howner', hne⟩] at hlast
        cases hlast
      · exact absurd (howner.trans howner'.symm) (hstands.ne_owner hp hact)
    · -- Each claim that stands in the fold: the scan must hold the same one.
      intro pre e post hsplit hstands hnamed hfolds
      obtain ⟨s, hs⟩ := hfolds
      obtain ⟨hact, o, howner, hne⟩ := isNamedClaim_iff.mp hnamed
      have howns : OwnsByClaim cardId core events o :=
        ⟨⟨s, hs, by rw [hsplit] at hs; exact (owner_of_stands hcore hstands hs).trans howner⟩,
          pre, e, post, hsplit, hstands⟩
      obtain ⟨e', hcurrent, howner'⟩ := (h.claim o hne).mpr howns
      obtain ⟨hhash, pre', post', hsplit', htakes⟩ := currentClaim_iff.mp hcurrent
      rcases split_cases (hsplit.symm.trans hsplit') with ⟨rfl, rfl, rfl⟩ | ⟨p, q, hp⟩ | ⟨p, q, hp⟩
      · exact ⟨fun x hx => ⟨hhash x hx, htakes.alive x (hsplit ▸ hx)⟩, htakes.last⟩
      · have hact' := (isNamedClaim_iff.mp htakes.named).1
        exact absurd (howner'.trans howner.symm) (hstands.ne_owner hp hact')
      · have hlast := (htakes.last e (hp ▸ List.mem_append_right _ List.mem_cons_self)).1
        rw [hnamed] at hlast
        cases hlast
  · intro h
    -- Where the two read alike, each gives the other at every owner with a name.
    have hclaim : ∀ o, o ≠ "" → ((∃ e, currentClaim events = .ok (some e) ∧
        e.get "owner" = .str o) ↔ OwnsByClaim cardId core events o) := by
      intro o hne
      constructor
      · rintro ⟨e, hcurrent, howner⟩
        obtain ⟨hhash, pre, post, rfl, htakes⟩ := currentClaim_iff.mp hcurrent
        obtain ⟨⟨s, hs⟩, hwins, hquiet⟩ := h.taken pre e post rfl htakes hhash
        have hstands := htakes.stands hwins hquiet
        exact ⟨⟨s, hs, (owner_of_stands hcore hstands hs).trans howner⟩, pre, e, post, rfl, hstands⟩
      · rintro ⟨⟨s, hs, hso⟩, pre, e, post, rfl, hstands⟩
        have howner : e.get "owner" = .str o := (owner_of_stands hcore hstands hs).symm.trans hso
        have hnamed := isNamedClaim_iff.mpr ⟨hstands.claim, o, howner, hne⟩
        obtain ⟨hall, hlast⟩ := h.standing pre e post rfl hstands hnamed ⟨s, hs⟩
        exact ⟨e, currentClaim_iff.mpr ⟨fun x hx => (hall x hx).1, pre, post, rfl, hnamed,
          fun x hx => (hall x hx).2, hlast⟩, howner⟩
    refine ⟨hclaim, ?_⟩
    -- And an entry of the report names the owner of the claim that the scan holds.
    rintro E q evidence r stale dead rfl hassess entry hentry
    obtain ⟨e, hcurrent, howner⟩ := owner_of_entry hassess hentry
    obtain ⟨-, pre, post, -, htakes⟩ := currentClaim_iff.mp hcurrent
    obtain ⟨-, o, ho, hne⟩ := isNamedClaim_iff.mp htakes.named
    refine ⟨o, ?_, (hclaim o hne).mp ⟨e, hcurrent, ho⟩⟩
    rw [ho] at howner
    rcases howner with howner | howner
    · exact howner
    · rw [howner, Json.orElse, if_pos (by simpa [Json.truthy] using hne)]

/-! ### A losing claim -/

/-- Alice has the card, and the claim of Bob loses. -/
def losingClaim : List Event := [Event.claimBy "alice" "r1", Event.claimBy "bob" "r2"]

/-- The scan takes the claim that loses. -/
theorem losingClaim_seen :
    ¬ SeesRealClaim "c1" { id := "c1", title := "t", createdAt := "" } losingClaim := by
  intro h
  have hcurrent : currentClaim losingClaim = .ok (some (Event.claimBy "bob" "r2")) := rfl
  obtain ⟨⟨s, hs, hso⟩, -⟩ := (h.claim "bob" (by decide)).mp ⟨_, hcurrent, rfl⟩
  have howner : (foldCard "c1" { id := "c1", title := "t", createdAt := "" } losingClaim).map
      (fun s => s.card.owner) = .ok (.str "alice") := rfl
  rw [hs] at howner
  exact absurd (Json.str.inj (hso.symm.trans (Except.ok.inj howner))) (by decide)

/-- Alice releases the card, and Bob claims it. -/
def secondHolder : List Event :=
  [Event.claimBy "alice" "r1", Event.releaseOf "alice" "r1", Event.claimBy "bob" "r2"]

/-- Where an event of this history stands. -/
theorem split_secondHolder {pre post : List Event} {e : Event}
    (h : secondHolder = pre ++ e :: post) :
    e = Event.claimBy "alice" "r1" ∧
        post = [Event.releaseOf "alice" "r1", Event.claimBy "bob" "r2"] ∨
      e = Event.releaseOf "alice" "r1" ∨
      pre = [Event.claimBy "alice" "r1", Event.releaseOf "alice" "r1"] ∧
        e = Event.claimBy "bob" "r2" ∧ post = [] := by
  rcases pre with _ | ⟨a, _ | ⟨b, _ | ⟨c, pre⟩⟩⟩
  · cases h
    exact .inl ⟨rfl, rfl⟩
  · cases h
    exact .inr (.inl rfl)
  · cases h
    exact .inr (.inr ⟨rfl, rfl, rfl⟩)
  · have hlength := congrArg List.length h
    simp [secondHolder] at hlength

/-- **The second holder** is seen behind the release of the first. -/
theorem seesRealClaim_iff_bob :
    currentClaim secondHolder = .ok (some (Event.claimBy "bob" "r2")) ∧
      SeesRealClaim "c1" { id := "c1", title := "t", createdAt := "" } secondHolder := by
  refine ⟨rfl, (seesRealClaim_iff "c1" { id := "c1", title := "t", createdAt := "" } rfl
    secondHolder).mpr ⟨?_, ?_⟩⟩
  · intro pre e post hsplit htakes hhash
    rcases split_secondHolder hsplit with ⟨rfl, rfl⟩ | rfl | ⟨rfl, rfl, rfl⟩
    · -- behind the first claim stands the second one
      have hbob := (htakes.last (Event.claimBy "bob" "r2") (by simp)).1
      exact absurd hbob (by decide)
    · exact absurd htakes.named (by decide)
    · exact ⟨⟨_, rfl⟩, rfl, fun x hx => absurd hx List.not_mem_nil⟩
  · intro pre e post hsplit hstands hnamed hfolds
    rcases split_secondHolder hsplit with ⟨rfl, rfl⟩ | rfl | ⟨rfl, rfl, rfl⟩
    · -- the release takes the card from the first holder
      cases pre with
      | nil => exact absurd hstands.undisturbed (by decide)
      | cons a pre =>
        have hlength := congrArg List.length hsplit
        simp [secondHolder] at hlength
    · exact absurd hnamed (by decide)
    · refine ⟨fun x hx => ?_, fun x hx => absurd hx List.not_mem_nil⟩
      rcases List.mem_cons.mp hx with rfl | hx
      · exact ⟨rfl, rfl⟩
      · rcases List.mem_pair.mp hx with rfl | rfl <;> exact ⟨rfl, rfl⟩

end Reassessment

end SkCoord
