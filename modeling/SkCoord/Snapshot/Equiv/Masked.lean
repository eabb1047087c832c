import SkCoord.Snapshot.Authorized

/-!
# An authorized snapshot reveals nothing else

Two cards agree under a decision when the fields that it opens are the same (`Agrees`).  Every step of
the projection gives the same on cards that agree, up to one: a card whose dependencies exceed the cap
is dropped from the graph, and the cap counts the absent identifiers whether or not the mask opens them.
`snapshot_masked` is the two-run statement, for stores that exceed the cap at the same cards
(`SameCaps`); `absent_counts` is a pair that does not.
-/

namespace SkCoord.Snapshot

open Python

variable {E : SnapshotEnv} {decision : AuthorizedCardSetDecision} {c c' : Card}

/-! ### Lists of related elements -/

section

variable {α β γ : Type} {R : α → β → Prop} {l : List α} {m : List β}

theorem isEmpty_eq_of_forall₂ (h : List.Forall₂ R l m) : l.isEmpty = m.isEmpty := by
  cases h <;> rfl

theorem map_eq_of_forall₂ {f : α → γ} {g : β → γ} (h : List.Forall₂ R l m)
    (hfg : ∀ x y, R x y → f x = g y) : l.map f = m.map g := by
  induction h with
  | nil => rfl
  | cons hxy _ ih => rw [List.map_cons, List.map_cons, hfg _ _ hxy, ih]

theorem any_eq_of_forall₂ {p : α → Bool} {q : β → Bool} (h : List.Forall₂ R l m)
    (hpq : ∀ x y, R x y → p x = q y) : l.any p = m.any q := by
  induction h with
  | nil => rfl
  | cons hxy _ ih => rw [List.any_cons, List.any_cons, hpq _ _ hxy, ih]

theorem filter_forall₂ {p : α → Bool} {q : β → Bool} (h : List.Forall₂ R l m)
    (hpq : ∀ x y, R x y → p x = q y) : List.Forall₂ R (l.filter p) (m.filter q) :=
  by
  refine List.rel_filter (fun x y hxy => ?_) h
  show p x = true ↔ q y = true
  rw [hpq x y hxy]

theorem take_forall₂ (h : List.Forall₂ R l m) (n : ℕ) : List.Forall₂ R (l.take n) (m.take n) :=
  List.forall₂_take n h

theorem forall₂_and {S : α → β → Prop} (h : List.Forall₂ R l m) (h' : List.Forall₂ S l m) :
    List.Forall₂ (fun x y => R x y ∧ S x y) l m := by
  induction h with
  | nil => exact .nil
  | cons hxy _ ih =>
    obtain ⟨hs, hrest⟩ := List.forall₂_cons.mp h'
    exact .cons ⟨hxy, hs⟩ (ih hrest)

theorem filterMap_eq_of_forall₂ {f : α → Option γ} {g : β → Option γ} (h : List.Forall₂ R l m)
    (hfg : ∀ x y, R x y → f x = g y) : l.filterMap f = m.filterMap g := by
  induction h with
  | nil => rfl
  | cons hxy _ ih => rw [List.filterMap_cons, List.filterMap_cons, hfg _ _ hxy, ih]

theorem mapM_eq_of_forall₂ {f : α → Except PyError γ} {g : β → Except PyError γ}
    (h : List.Forall₂ R l m) (hfg : ∀ x y, R x y → f x = g y) : l.mapM f = m.mapM g := by
  induction h with
  | nil => rfl
  | cons hxy _ ih => rw [List.mapM_cons, List.mapM_cons, hfg _ _ hxy, ih]

end

/-- Sets with the same elements have the same sorted tuple. -/
theorem sortedSet_congr {l m : List String} (h : ∀ x, x ∈ l ↔ x ∈ m) : sortedSet l = sortedSet m :=
  insertionSort_dedup_congr h

/-! ### Cards that agree -/

/-- The fields that a decision opens are the same. -/
structure Agrees (decision : AuthorizedCardSetDecision) (c c' : Card) : Prop where
  id : c.id = c'.id
  kind : c.kind = c'.kind
  status : c.status = c'.status
  priority : c.priority = c'.priority
  createdAt : c.createdAt = c'.createdAt
  updatedAt : c.updatedAt = c'.updatedAt
  archived : c.archived = c'.archived
  labels : ∀ label ∈ decision.semanticClasses, Json.str label ∈ c.labels ↔ Json.str label ∈ c'.labels
  owner : "owner_ref" ∈ decision.fieldMask → c.owner = c'.owner
  conflicts : "claim_conflict" ∈ decision.fieldMask → hasConflicts c = hasConflicts c'
  visible : "visible_edges" ∈ decision.fieldMask →
    ∀ d ∈ decision.visibleCardIds, d ∈ c.dependencies ↔ d ∈ c'.dependencies
  absent : "visible_edges" ∈ decision.fieldMask → "orphan_evidence" ∈ decision.fieldMask →
    ∀ d ∈ decision.visibleAbsentIds, d ∈ c.dependencies ↔ d ∈ c'.dependencies

namespace Agrees

variable (h : Agrees decision c c')

include h

theorem classes : classes c decision.semanticClasses = Snapshot.classes c' decision.semanticClasses := by
  unfold Snapshot.classes
  refine sortedSet_congr fun label => ?_
  have hmem : ∀ l : List Json, label ∈ l.filterMap (approvedLabel decision.semanticClasses) ↔
      Json.str label ∈ l ∧ label ∈ semanticLabels ∧ label ∈ decision.semanticClasses := by
    intro l
    rw [List.mem_filterMap]
    constructor
    · rintro ⟨v, hv, heq⟩
      unfold approvedLabel at heq
      split at heq
      · split at heq
        · rename_i hand
          cases heq
          obtain ⟨h1, h2⟩ := Bool.and_eq_true_iff.mp hand
          exact ⟨hv, List.contains_iff_mem.mp h1, List.contains_iff_mem.mp h2⟩
        · cases heq
      · cases heq
    · rintro ⟨hv, h1, h2⟩
      refine ⟨_, hv, ?_⟩
      unfold approvedLabel
      dsimp only
      rw [List.contains_iff_mem.mpr h1, List.contains_iff_mem.mpr h2]
      rfl
  rw [hmem, hmem]
  constructor
  · rintro ⟨h1, h2, h3⟩
    exact ⟨(h.labels label h3).mp h1, h2, h3⟩
  · rintro ⟨h1, h2, h3⟩
    exact ⟨(h.labels label h3).mpr h1, h2, h3⟩

theorem conflict : conflict c decision.fieldMask = Snapshot.conflict c' decision.fieldMask := by
  unfold Snapshot.conflict
  by_cases hmask : "claim_conflict" ∈ decision.fieldMask
  · rw [h.conflicts hmask]
  · rw [List.contains_eq_mem, decide_eq_false hmask, Bool.false_and, Bool.false_and]

theorem maskedOwner : maskedOwner E decision.fieldMask c = Snapshot.maskedOwner E decision.fieldMask c' := by
  unfold Snapshot.maskedOwner
  split
  · rename_i hmask
    rw [h.owner (List.contains_iff_mem.mp hmask)]
  · rfl

theorem activity : activity E c = Snapshot.activity E c' := by
  unfold Snapshot.activity
  rw [h.createdAt, h.updatedAt]

theorem isStale (now : Int) : isStale E decision.fieldMask now c =
    Snapshot.isStale E decision.fieldMask now c' := by
  unfold Snapshot.isStale
  rw [h.status, h.activity]

theorem isFreshnessUnknown (now : Int) : isFreshnessUnknown E decision.fieldMask now c =
    Snapshot.isFreshnessUnknown E decision.fieldMask now c' := by
  unfold Snapshot.isFreshnessUnknown
  rw [h.status, h.activity]

theorem record (dependencies : List String) :
    record E c dependencies decision.fieldMask decision.semanticClasses =
      Snapshot.record E c' dependencies decision.fieldMask decision.semanticClasses := by
  have howner : (if decision.fieldMask.contains "owner_ref" then ownerText E c.owner else none) =
      if decision.fieldMask.contains "owner_ref" then ownerText E c'.owner else none :=
    h.maskedOwner
  have hvalid : ∀ b : Bool, (!decision.fieldMask.contains "owner_ref" || c.owner.isNone || b) =
      (!decision.fieldMask.contains "owner_ref" || c'.owner.isNone || b) := by
    intro b
    by_cases hmask : "owner_ref" ∈ decision.fieldMask
    · rw [h.owner hmask]
    · rw [List.contains_eq_mem, decide_eq_false hmask]
      rfl
  unfold Snapshot.record
  dsimp only
  rw [h.priority, h.id, h.kind, h.classes, h.status, h.createdAt, h.updatedAt, h.archived, h.conflict,
    howner, hvalid]

theorem orphanOf (targetId : String) :
    orphanOf E decision c targetId = Snapshot.orphanOf E decision c' targetId := by
  unfold Snapshot.orphanOf
  rw [h.id, h.maskedOwner]

end Agrees

/-- The finding of an edge is the same for cards that agree. -/
theorem edgeOf_congr {now : Int} {graph : Assoc String (List String)} {t t' : Card} {l l' : List Card}
    (hc : Agrees decision c c') (ht : Agrees decision t t') (hl : List.Forall₂ (Agrees decision) l l') :
    edgeOf E decision now graph c t l = edgeOf E decision now graph c' t' l' := by
  have hcons : List.Forall₂ (Agrees decision) (c :: l) (c' :: l') := .cons hc hl
  have hstale := filter_forall₂ hl fun x y hxy => hxy.isStale (E := E) now
  have hfresh := filter_forall₂ hl fun x y hxy => hxy.isFreshnessUnknown (E := E) now
  have hstaleIds := isEmpty_eq_of_forall₂ hstale
  have hfreshIds := isEmpty_eq_of_forall₂ hfresh
  have hstaleRefs := map_eq_of_forall₂ (take_forall₂ hstale maxPathRefs) fun x y hxy => hxy.id
  have hfreshRefs := map_eq_of_forall₂ (take_forall₂ hfresh maxPathRefs) fun x y hxy => hxy.id
  have hconflict := any_eq_of_forall₂ hcons fun x y hxy => hxy.conflict
  have hgated : ((c :: l).any fun x => decision.fieldMask.contains "human_gate" &&
      decide (x.status ≠ .done) && (classes x decision.semanticClasses).contains "human-gate") =
      (c' :: l').any fun x => decision.fieldMask.contains "human_gate" &&
        decide (x.status ≠ .done) && (classes x decision.semanticClasses).contains "human-gate" :=
    any_eq_of_forall₂ hcons fun x y hxy => by rw [hxy.status, hxy.classes]
  have hmilestone : ((c :: l).any fun x => (classes x decision.semanticClasses).contains "milestone") =
      (c' :: l').any fun x => (classes x decision.semanticClasses).contains "milestone" :=
    any_eq_of_forall₂ hcons fun x y hxy => by rw [hxy.classes]
  unfold edgeOf
  dsimp only
  rw [hc.id, ht.id, hstaleIds, hfreshIds, hstaleRefs, hfreshRefs, hconflict, hgated, hmilestone,
    ht.status, ht.archived, hc.maskedOwner, ht.maskedOwner]

/-! ### Dependencies -/

/-- The dependencies of a card that count against the cap are too many. -/
def exceedsCap (decision : AuthorizedCardSetDecision) (visibleIds : List String) (c : Card) : Bool :=
  (safeVisibleDependencies c visibleIds decision.visibleAbsentIds).isNone

/-- What an entry of the dependency map says of the visible edges, and of the absent ones where the
mask opens them. -/
structure SameEdges (decision : AuthorizedCardSetDecision)
    (x y : Option (List String × List String)) : Prop where
  isNone : x.isNone = y.isNone
  visible : x.map Prod.fst = y.map Prod.fst
  absent : "orphan_evidence" ∈ decision.fieldMask → x.map Prod.snd = y.map Prod.snd

/-- Cards that agree have the same edges, unless only one of them exceeds the cap: the visible
dependencies are the same, and the absent ones as well where the mask shows them. -/
theorem Agrees.sameEdges (h : Agrees decision c c') (hmask : "visible_edges" ∈ decision.fieldMask)
    {ids : List String} (hids : ids ⊆ decision.visibleCardIds)
    (hcap : "orphan_evidence" ∉ decision.fieldMask →
      exceedsCap decision ids c = exceedsCap decision ids c') :
    SameEdges decision (safeVisibleDependencies c ids decision.visibleAbsentIds)
      (safeVisibleDependencies c' ids decision.visibleAbsentIds) := by
  have hvisible : sortedSet (c.dependencies.filter ids.contains) =
      sortedSet (c'.dependencies.filter ids.contains) := by
    refine sortedSet_congr fun d => ?_
    rw [List.mem_filter, List.mem_filter, List.contains_iff_mem]
    constructor
    · rintro ⟨h1, h2⟩
      exact ⟨(h.visible hmask d (hids h2)).mp h1, h2⟩
    · rintro ⟨h1, h2⟩
      exact ⟨(h.visible hmask d (hids h2)).mpr h1, h2⟩
  by_cases horphan : "orphan_evidence" ∈ decision.fieldMask
  · have habsent : sortedSet (c.dependencies.filter decision.visibleAbsentIds.contains) =
        sortedSet (c'.dependencies.filter decision.visibleAbsentIds.contains) := by
      refine sortedSet_congr fun d => ?_
      rw [List.mem_filter, List.mem_filter, List.contains_iff_mem]
      constructor
      · rintro ⟨h1, h2⟩
        exact ⟨(h.absent hmask horphan d h2).mp h1, h2⟩
      · rintro ⟨h1, h2⟩
        exact ⟨(h.absent hmask horphan d h2).mpr h1, h2⟩
    -- The mask shows the absent ones: both lists are the same.
    have heq : safeVisibleDependencies c ids decision.visibleAbsentIds =
        safeVisibleDependencies c' ids decision.visibleAbsentIds := by
      unfold safeVisibleDependencies
      rw [hvisible, habsent]
    rw [heq]
    exact ⟨rfl, rfl, fun _ => rfl⟩
  · -- It does not: the cap is the only trace of what is hidden.
    have hcap' := hcap horphan
    refine ⟨hcap', ?_, fun hno => absurd hno horphan⟩
    unfold exceedsCap safeVisibleDependencies at hcap'
    unfold safeVisibleDependencies
    dsimp only at hcap' ⊢
    rw [hvisible] at hcap' ⊢
    split at hcap' <;> split at hcap'
    · rename_i h1 h2
      rw [if_pos h1, if_pos h2]
    · cases hcap'
    · cases hcap'
    · rename_i h1 h2
      rw [if_neg h1, if_neg h2]
      rfl

/-- Dictionaries of related bindings are related. -/
theorem dictOf_forall₂ {ν μ : Type} {R : ν → μ → Prop} {l : List (String × ν)} {m : List (String × μ)}
    (h : List.Forall₂ (fun p q => p.1 = q.1 ∧ R p.2 q.2) l m) :
    List.Forall₂ (fun p q => p.1 = q.1 ∧ R p.2 q.2) (dictOf l) (dictOf m) := by
  have hset : ∀ {d : Assoc String ν} {e : Assoc String μ} {k : String} {v : ν} {w : μ},
      List.Forall₂ (fun p q => p.1 = q.1 ∧ R p.2 q.2) d e → R v w →
        List.Forall₂ (fun p q => p.1 = q.1 ∧ R p.2 q.2) (Assoc.set d k v) (Assoc.set e k w) := by
    intro d e k v w hde hvw
    induction hde with
    | nil => exact .cons ⟨rfl, hvw⟩ .nil
    | @cons p q d e hpq hde ih =>
      obtain ⟨j, v'⟩ := p
      obtain ⟨j', w'⟩ := q
      obtain ⟨rfl, hpq⟩ := hpq
      rw [Assoc.set, Assoc.set]
      split
      · exact .cons ⟨rfl, hvw⟩ hde
      · exact .cons ⟨rfl, hpq⟩ ih
  have hfold : ∀ {l : List (String × ν)} {m : List (String × μ)} {d : Assoc String ν}
      {e : Assoc String μ}, List.Forall₂ (fun p q => p.1 = q.1 ∧ R p.2 q.2) l m →
        List.Forall₂ (fun p q => p.1 = q.1 ∧ R p.2 q.2) d e →
        List.Forall₂ (fun p q => p.1 = q.1 ∧ R p.2 q.2)
          (l.foldl (fun d p => Assoc.set d p.1 p.2) d) (m.foldl (fun d p => Assoc.set d p.1 p.2) e) := by
    intro l m d e hlm
    induction hlm generalizing d e with
    | nil => exact id
    | @cons p q l m hpq _ ih =>
      intro hde
      rw [List.foldl_cons, List.foldl_cons, hpq.1]
      exact ih (hset hde hpq.2)
  exact hfold h .nil

/-- Related dictionaries have related values. -/
theorem get?_forall₂ {ν μ : Type} {R : ν → μ → Prop} {d : Assoc String ν} {e : Assoc String μ}
    (h : List.Forall₂ (fun p q => p.1 = q.1 ∧ R p.2 q.2) d e) (k : String) :
    Option.Rel R (Assoc.get? d k) (Assoc.get? e k) := by
  induction h with
  | nil => exact .none
  | @cons p q d e hpq _ ih =>
    obtain ⟨j, v⟩ := p
    obtain ⟨j', w⟩ := q
    obtain ⟨rfl, hpq⟩ := hpq
    rw [Assoc.get?, Assoc.get?]
    split
    · exact .some hpq
    · exact ih

section

variable {cards cards' : List Card} (h : List.Forall₂ (Agrees decision) cards cards')

include h

theorem map_id_eq : cards.map Card.id = cards'.map Card.id :=
  map_eq_of_forall₂ h fun _ _ hxy => hxy.id

theorem byId_forall₂ : List.Forall₂ (fun p q => p.1 = q.1 ∧ Agrees decision p.2 q.2)
    (dictOf (cards.map fun c => (c.id, c))) (dictOf (cards'.map fun c => (c.id, c))) := by
  refine dictOf_forall₂ ?_
  rw [List.forall₂_map_left_iff, List.forall₂_map_right_iff]
  exact h.imp fun _ _ hxy => ⟨hxy.id, hxy⟩

theorem dependencyMap_forall₂ (hids : cards.map Card.id ⊆ decision.visibleCardIds)
    (hcap : "visible_edges" ∈ decision.fieldMask → "orphan_evidence" ∉ decision.fieldMask →
      List.Forall₂ (fun x y => exceedsCap decision (cards.map Card.id) x =
        exceedsCap decision (cards.map Card.id) y) cards cards') :
    List.Forall₂ (fun p q => p.1 = q.1 ∧ SameEdges decision p.2 q.2) (dependencyMap decision cards)
      (dependencyMap decision cards') := by
  unfold dependencyMap
  refine dictOf_forall₂ ?_
  rw [List.forall₂_map_left_iff, List.forall₂_map_right_iff, ← map_id_eq h]
  by_cases hmask : "visible_edges" ∈ decision.fieldMask
  · have hcontains : decision.fieldMask.contains "visible_edges" = true := List.contains_iff_mem.mpr hmask
    rw [hcontains]
    by_cases horphan : "orphan_evidence" ∈ decision.fieldMask
    · exact h.imp fun _ _ hxy => ⟨hxy.id, hxy.sameEdges hmask hids fun hno => absurd horphan hno⟩
    · have hboth := forall₂_and h (hcap hmask horphan)
      exact hboth.imp fun _ _ hxy => ⟨hxy.1.id, hxy.1.sameEdges hmask hids fun _ => hxy.2⟩
  · have hcontains : decision.fieldMask.contains "visible_edges" = false := by
      rw [List.contains_eq_mem, decide_eq_false hmask]
    rw [hcontains]
    exact h.imp fun _ _ hxy => ⟨hxy.id, rfl, rfl, fun _ => rfl⟩

end

/-! ### The projection -/

/-- Folds of the same identifiers that are related. -/
theorem zip_forall₂ {R : Option Card → Option Card → Prop} :
    ∀ {ids : List String} {folded folded' : List (Option Card)}, List.Forall₂ R folded folded' →
      List.Forall₂ (fun p q => p.1 = q.1 ∧ R p.2 q.2) (ids.zip folded) (ids.zip folded')
  | [], _, _, _ => .nil
  | _ :: _, [], _, h => by
    cases h
    exact .nil
  | cardId :: ids, x :: folded, _, h => by
    cases h with
    | cons hxy h => exact .cons ⟨rfl, hxy⟩ (zip_forall₂ h)

/-- Folds that are related where they are under their own identifiers leave related cards. -/
theorem presentCards_forall₂ {R : Card → Card → Prop} {l m : List (String × Option Card)}
    (h : List.Forall₂ (fun p q => p.1 = q.1 ∧
      Option.Rel (fun c c' => c.id = c'.id ∧ (c.id = p.1 → R c c')) p.2 q.2) l m) :
    List.Forall₂ R (l.filterMap fun p => p.2.filter fun c => c.id = p.1)
      (m.filterMap fun p => p.2.filter fun c => c.id = p.1) := by
  induction h with
  | nil => exact .nil
  | @cons p q l m hpq _ ih =>
    obtain ⟨cardId, x⟩ := p
    obtain ⟨cardId', y⟩ := q
    obtain ⟨rfl, hxy⟩ := hpq
    rw [List.filterMap_cons, List.filterMap_cons]
    cases hxy with
    | none => exact ih
    | @some c c' hc =>
      obtain ⟨hsame, hR⟩ := hc
      by_cases hid : c.id = cardId
      · have hleft : (some c).filter (fun c => decide (c.id = cardId)) = some c :=
          Option.filter_some_pos (decide_eq_true hid)
        have hright : (some c').filter (fun c => decide (c.id = cardId)) = some c' :=
          Option.filter_some_pos (decide_eq_true (hsame ▸ hid))
        dsimp only
        rw [hleft, hright]
        exact .cons (hR hid) ih
      · have hleft : (some c).filter (fun c => decide (c.id = cardId)) = none :=
          Option.filter_some_neg (by simpa using hid)
        have hright : (some c').filter (fun c => decide (c.id = cardId)) = none :=
          Option.filter_some_neg (by simpa [← hsame] using hid)
        dsimp only
        rw [hleft, hright]
        exact ih

theorem mismatchCount_congr {folded folded' : List (Option Card)}
    (h : List.Forall₂ (Option.Rel (Agrees decision)) folded folded') :
    mismatchCount decision folded = mismatchCount decision folded' := by
  unfold mismatchCount
  generalize decision.visibleCardIds = ids
  induction h generalizing ids with
  | nil => rfl
  | @cons x y folded folded' hxy _ ih =>
    cases ids with
    | nil => rfl
    | cons cardId ids =>
      have hsame : (x.any fun c => decide (c.id ≠ cardId)) = y.any fun c => decide (c.id ≠ cardId) := by
        cases hxy with
        | none => rfl
        | some hc => rw [Option.any_some, Option.any_some, hc.id]
      rw [List.zip_cons_cons, List.zip_cons_cons, List.filter_cons, List.filter_cons]
      dsimp only
      rw [hsame]
      split
      · rw [List.length_cons, List.length_cons, ih]
      · exact ih ids

section

variable {cards cards' : List Card} (h : List.Forall₂ (Agrees decision) cards cards')
  {byId byId' : Assoc String Card}
  (hbyId : List.Forall₂ (fun p q => p.1 = q.1 ∧ Agrees decision p.2 q.2) byId byId')

include hbyId in
theorem cardAt_congr (cardId : String) :
    (∃ e, cardAt byId cardId = .error e ∧ cardAt byId' cardId = .error e) ∨
      ∃ c c', cardAt byId cardId = .ok c ∧ cardAt byId' cardId = .ok c' ∧ Agrees decision c c' := by
  have hrel := get?_forall₂ hbyId cardId
  unfold cardAt
  cases hx : Assoc.get? byId cardId <;> cases hy : Assoc.get? byId' cardId <;> rw [hx, hy] at hrel
  · exact .inl ⟨_, rfl, rfl⟩
  · cases hrel
  · cases hrel
  · cases hrel with
    | some hc => exact .inr ⟨_, _, rfl, rfl, hc⟩

include hbyId in
/-- The cards of a path. -/
theorem mapM_cardAt_congr : ∀ ids : List String,
    (∃ e, ids.mapM (cardAt byId) = .error e ∧ ids.mapM (cardAt byId') = .error e) ∨
      ∃ l l', ids.mapM (cardAt byId) = .ok l ∧ ids.mapM (cardAt byId') = .ok l' ∧
        List.Forall₂ (Agrees decision) l l'
  | [] => .inr ⟨[], [], rfl, rfl, .nil⟩
  | cardId :: ids => by
    rw [List.mapM_cons, List.mapM_cons]
    rcases cardAt_congr hbyId cardId with ⟨e, h1, h2⟩ | ⟨c, c', h1, h2, hc⟩
    · rw [h1, h2]
      exact .inl ⟨e, rfl, rfl⟩
    · rw [h1, h2]
      rcases mapM_cardAt_congr ids with ⟨e, h3, h4⟩ | ⟨l, l', h3, h4, hl⟩
      · dsimp only [bind, Except.bind]
        rw [h3, h4]
        exact .inl ⟨e, rfl, rfl⟩
      · dsimp only [bind, Except.bind]
        rw [h3, h4]
        exact .inr ⟨c :: l, c' :: l', rfl, rfl, .cons hc hl⟩

include hbyId in
theorem classify_congr {now : Int} {graph : Assoc String (List String)}
    (edge : String × String × String) :
    classify E decision now graph byId edge = classify E decision now graph byId' edge := by
  obtain ⟨sourceId, targetId, edgeType⟩ := edge
  unfold classify
  dsimp only
  rcases cardAt_congr hbyId sourceId with ⟨e, h1, h2⟩ | ⟨c, c', h1, h2, hc⟩
  · rw [h1, h2]
    rfl
  · rw [h1, h2]
    dsimp only [bind, Except.bind]
    split
    · rcases cardAt_congr hbyId targetId with ⟨e, h3, h4⟩ | ⟨t, t', h3, h4, ht⟩
      · rw [h3, h4]
      · rw [h3, h4]
        dsimp only
        rcases mapM_cardAt_congr hbyId (pathNodes targetId graph).1 with
          ⟨e, h5, h6⟩ | ⟨l, l', h5, h6, hl⟩
        · rw [h5, h6]
        · rw [h5, h6]
          dsimp only
          rw [edgeOf_congr hc ht hl]
    · rw [hc.orphanOf]

include hbyId in
theorem selectedIds_congr (exceptional ids : List String) :
    selectedIds decision byId exceptional ids = selectedIds decision byId' exceptional ids := by
  have hkey : selectionKey decision byId exceptional = selectionKey decision byId' exceptional := by
    funext cardId
    have hrel := get?_forall₂ hbyId cardId
    unfold selectionKey
    cases hx : Assoc.get? byId cardId <;> cases hy : Assoc.get? byId' cardId <;> rw [hx, hy] at hrel
    · cases hrel
    · cases hrel
    · cases hrel with
      | some hc =>
        dsimp only [Option.all_some, Option.any_some]
        rw [hc.classes, hc.status]
  unfold selectedIds
  rw [hkey]

include h in
theorem recordPairs_congr (graph : Assoc String (List String)) :
    recordPairs E decision graph cards = recordPairs E decision graph cards' := by
  unfold recordPairs
  refine mapM_eq_of_forall₂ h fun x y hxy => ?_
  rw [hxy.id, hxy.record]

include h in
theorem milestoneIds_congr : milestoneIds decision cards = milestoneIds decision cards' := by
  unfold milestoneIds
  rw [map_id_eq (filter_forall₂ h fun x y hxy => by rw [hxy.classes])]

include h in
theorem activities_congr : cards.filterMap (activity E) = cards'.filterMap (activity E) :=
  filterMap_eq_of_forall₂ h fun _ _ hxy => hxy.activity

end

/-- **The projection** of cards that agree is the same: it is computed from the present cards, their
edges, the gaps and the records, and each of these is the same for both. -/
theorem project_congr {scope : AuthorizedCardScope} {now : Int} {folded folded' : List (Option Card)}
    (h : List.Forall₂ (Option.Rel (Agrees decision)) folded folded')
    (hcap : "visible_edges" ∈ decision.fieldMask → "orphan_evidence" ∉ decision.fieldMask →
      List.Forall₂ (fun x y =>
        exceedsCap decision ((presentCards decision folded).map Card.id) x =
          exceedsCap decision ((presentCards decision folded).map Card.id) y)
        (presentCards decision folded) (presentCards decision folded')) :
    project E scope decision folded now = project E scope decision folded' now := by
  have hcards : List.Forall₂ (Agrees decision) (presentCards decision folded)
      (presentCards decision folded') := by
    refine presentCards_forall₂ ((zip_forall₂ h).imp fun p q hpq => ⟨hpq.1, ?_⟩)
    obtain ⟨-, hxy⟩ := hpq
    generalize p.2 = x at hxy ⊢
    generalize q.2 = y at hxy ⊢
    cases hxy with
    | none => exact .none
    | some hc => exact .some ⟨hc.id, fun _ => hc⟩
  -- The present cards are cards that the decision lets see.
  have hids : (presentCards decision folded).map Card.id ⊆ decision.visibleCardIds := by
    intro cardId hmem
    obtain ⟨c, hc, rfl⟩ := List.mem_map.mp hmem
    obtain ⟨p, hp, hfilter⟩ := List.mem_filterMap.mp hc
    obtain ⟨-, hid⟩ := Option.filter_eq_some_iff.mp hfilter
    have heq : c.id = p.1 := by simpa using hid
    rw [heq]
    exact (List.of_mem_zip hp).1
  have hgaps : (folded.filter Option.isNone).length = (folded'.filter Option.isNone).length := by
    refine (List.Forall₂.length_eq (filter_forall₂ h fun x y hxy => ?_))
    cases hxy <;> rfl
  -- The edges, and what is counted and drawn from them.
  have hmap := dependencyMap_forall₂ hcards hids hcap
  have hinvalid : ((dependencyMap decision (presentCards decision folded)).filter
      fun p => p.2.isNone).length =
      ((dependencyMap decision (presentCards decision folded')).filter fun p => p.2.isNone).length :=
    (filter_forall₂ hmap fun x y hxy => hxy.2.isNone).length_eq
  have hgraph : graphOf (dependencyMap decision (presentCards decision folded)) =
      graphOf (dependencyMap decision (presentCards decision folded')) := by
    unfold graphOf
    refine map_eq_of_forall₂ hmap fun x y hxy => ?_
    rw [hxy.1, hxy.2.visible]
  have habsent : attestedAbsent decision (dependencyMap decision (presentCards decision folded)) =
      attestedAbsent decision (dependencyMap decision (presentCards decision folded')) := by
    unfold attestedAbsent
    refine map_eq_of_forall₂ hmap fun x y hxy => ?_
    rw [hxy.1]
    split
    · rename_i horphan
      rw [hxy.2.absent (List.contains_iff_mem.mp horphan)]
    · rfl
  -- The classes of the cards.
  have hbyId := byId_forall₂ hcards
  have hclassify : ∀ graph, classify E decision now graph
      (dictOf ((presentCards decision folded).map fun c => (c.id, c))) =
      classify E decision now graph
        (dictOf ((presentCards decision folded').map fun c => (c.id, c))) :=
    fun graph => funext (classify_congr hbyId)
  unfold project projectValue
  dsimp only
  rw [mismatchCount_congr h, hgaps, hinvalid, hgraph, habsent, recordPairs_congr hcards, hclassify,
    map_id_eq hcards, milestoneIds_congr hcards, activities_congr hcards, hcards.length_eq]
  simp only [selectedIds_congr hbyId]

/-! ### Two stores -/

/-- Two folds of one card both raise, both find nothing, or find cards that are related. -/
def SameFold (R : Card → Card → Prop) (r r' : Except PyError (Option Card)) : Prop :=
  (∃ e e', r = .error e ∧ r' = .error e' ∧ (e = .killed ↔ e' = .killed)) ∨
    ∃ x x', r = .ok x ∧ r' = .ok x' ∧ Option.Rel R x x'

theorem mapM_sameFold {R : Card → Card → Prop} {f f' : String → Except PyError (Option Card)} :
    ∀ {ids : List String}, (∀ cardId ∈ ids, SameFold R (f cardId) (f' cardId)) →
      (∃ e e', ids.mapM f = .error e ∧ ids.mapM f' = .error e' ∧ (e = .killed ↔ e' = .killed)) ∨
        ∃ l l', ids.mapM f = .ok l ∧ ids.mapM f' = .ok l' ∧ List.Forall₂ (Option.Rel R) l l'
  | [], _ => .inr ⟨[], [], rfl, rfl, .nil⟩
  | cardId :: ids, h => by
    rw [List.mapM_cons, List.mapM_cons]
    rcases h cardId List.mem_cons_self with ⟨e, e', h1, h2, he⟩ | ⟨x, x', h1, h2, hx⟩
    · rw [h1, h2]
      exact .inl ⟨e, e', rfl, rfl, he⟩
    · rw [h1, h2]
      dsimp only [bind, Except.bind]
      rcases mapM_sameFold fun other hmem => h other (List.mem_cons_of_mem _ hmem) with
        ⟨e, e', h3, h4, he⟩ | ⟨l, l', h3, h4, hl⟩
      · rw [h3, h4]
        exact .inl ⟨e, e', rfl, rfl, he⟩
      · rw [h3, h4]
        exact .inr ⟨x :: l, x' :: l', rfl, rfl, .cons hx hl⟩

/-- The folds of the identifiers, each with its identifier. -/
theorem zip_sameFold {R : String → Card → Card → Prop} {f f' : String → Except PyError (Option Card)} :
    ∀ {ids : List String} {folded folded' : List (Option Card)},
      (∀ cardId ∈ ids, SameFold (R cardId) (f cardId) (f' cardId)) →
      ids.mapM f = .ok folded → ids.mapM f' = .ok folded' →
        List.Forall₂ (fun p q => p.1 = q.1 ∧ Option.Rel (R p.1) p.2 q.2) (ids.zip folded)
          (ids.zip folded')
  | [], _, _, _, _, _ => .nil
  | cardId :: ids, _, _, h, h1, h2 => by
    rw [List.mapM_cons] at h1 h2
    obtain ⟨x, hx, h1⟩ := bind_eq_ok.mp h1
    obtain ⟨folded, hfolded, h1⟩ := bind_eq_ok.mp h1
    obtain ⟨y, hy, h2⟩ := bind_eq_ok.mp h2
    obtain ⟨folded', hfolded', h2⟩ := bind_eq_ok.mp h2
    cases h1
    cases h2
    refine .cons ⟨rfl, ?_⟩ (zip_sameFold (fun other hmem => h other (List.mem_cons_of_mem _ hmem))
      hfolded hfolded')
    rcases h cardId List.mem_cons_self with ⟨e, e', hraise, -, -⟩ | ⟨x', y', hx', hy', hrel⟩
    · cases hx.symm.trans hraise
    · cases hx.symm.trans hx'
      cases hy.symm.trans hy'
      exact hrel

/-- Where the mask opens the visible edges and not the absent ones, the same cards exceed the cap in
both stores.  A card that folds under another identifier than its own is left out before
dependencies count. -/
def SameCaps (E : SnapshotEnv) (decision : AuthorizedCardSetDecision) (st st' : Store) : Prop :=
  "visible_edges" ∈ decision.fieldMask → "orphan_evidence" ∉ decision.fieldMask →
    ∀ folded, decision.visibleCardIds.mapM (st.fold E.env) = .ok folded →
      ∀ cardId ∈ decision.visibleCardIds, ∀ c c', st.fold E.env cardId = .ok (some c) →
        st'.fold E.env cardId = .ok (some c') → c.id = cardId →
          exceedsCap decision ((presentCards decision folded).map Card.id) c =
            exceedsCap decision ((presentCards decision folded).map Card.id) c'

/-- **The two-run statement**: stores whose folds of the visible cards agree on what the decision
opens give the same result, when the same cards exceed the cap in both.  The cap is asked for only
where the decision allows the request, since a request that is denied counts no dependencies. -/
theorem snapshot_masked
    {policy : AuthorizedCardSnapshotRequest → Except PyError (Option AuthorizedCardSetDecision)}
    {request : AuthorizedCardSnapshotRequest} {now : Datetime} {st st' : Store}
    (hagree : ∀ decision, policy request = .ok (some decision) → ∀ cardId ∈ decision.visibleCardIds,
      SameFold (Agrees decision) (st.fold E.env cardId) (st'.fold E.env cardId))
    (hcaps : now.offset.isSome = true → ∀ decision, policy request = .ok (some decision) →
      allows E request decision now.utc = true → SameCaps E decision st st') :
    read E policy st request now = read E policy st' request now := by
  unfold read
  dsimp only
  split
  · rfl
  · rename_i hzone
    have hzone' : now.offset.isSome = true := by
      cases hoffset : now.offset with
      | none => exact absurd (by rw [hoffset]; rfl) hzone
      | some _ => rfl
    cases hpolicy : policy request with
    | error e => cases e <;> rfl
    | ok found =>
      cases found with
      | none => rfl
      | some decision =>
        dsimp only
        split
        · rename_i hallows
          have hsame := hagree decision hpolicy
          have hcap := hcaps hzone' decision hpolicy hallows
          rcases mapM_sameFold hsame with ⟨e, e', h1, h2, hkilled⟩ | ⟨folded, folded', h1, h2, hfolds⟩
          · rw [h1, h2]
            by_cases he : e = .killed
            · rw [he, hkilled.mp he]
            · have he' : e' ≠ .killed := fun h => he (hkilled.mpr h)
              cases e <;> cases e' <;> first | rfl | exact absurd rfl he | exact absurd rfl he'
          · rw [h1, h2]
            dsimp only
            refine project_congr hfolds fun hvisible horphan => ?_
            -- the folds under their own identifiers agree on the cap too
            refine presentCards_forall₂ (zip_sameFold (R := fun cardId c c' => c.id = c'.id ∧
              (c.id = cardId → exceedsCap decision ((presentCards decision folded).map Card.id) c =
                exceedsCap decision ((presentCards decision folded).map Card.id) c'))
              (fun cardId hmem => ?_) h1 h2)
            rcases hsame cardId hmem with hraise | ⟨x, x', hx, hx', hrel⟩
            · exact .inl hraise
            · refine .inr ⟨x, x', hx, hx', ?_⟩
              cases hrel with
              | none => exact .none
              | some hc =>
                exact .some ⟨hc.id, hcap hvisible horphan folded h1 cardId hmem _ _ hx hx'⟩
        · rfl

/-! ### Two pairs of stores -/

/-- An environment that reads one time and knows one digest. -/
def januaryEnv : SnapshotEnv where
  env := { hostname := "host", writeEnabled := true, lineHash := fun _ => "", repr := fun _ => "" }
  floats := zeroFloats
  sha256 := fun _ => "0473ef2dc0d324ab659d3580c1134e9d812035905c4781fdd6d529b0c6860e13"
  fromisoformat := fun s =>
    if s = "2026-01-01T00:00:00+00:00" then some ⟨1767225600000000, some 0⟩ else none
  isoformat := fun t =>
    if t = 1767225600000000 then "2026-01-01T00:00:00Z" else "2026-01-01T00:05:00Z"

/-- Identifiers of lengths `1` to `128`. -/
def absentNames : List String := (List.range 128).map fun n => String.ofList (List.replicate (n + 1) 'x')

/-- A card that depends on others. -/
def edgeCore (cardId : String) (dependencies : List String) : CardCore where
  id := cardId
  title := "t"
  createdAt := "2026-01-01T00:00:00+00:00"
  dependencies := dependencies

/-- A store with a card that depends on another one and on further identifiers. -/
def edgeStore (dependencies : List String) : Store where
  cards := [
    ("a", {
      core := .present (edgeCore "a" ("b" :: dependencies))
      logs := []
      nodup := List.nodup_nil }),
    ("b", {
      core := .present (edgeCore "b" [])
      logs := []
      nodup := List.nodup_nil })]

/-- What the store folds. -/
def edgeCard (cardId : String) (dependencies : List String) : Card where
  id := cardId
  kind := .task
  title := .str "t"
  description := .str ""
  status := .backlog
  swimlane := .str "feature"
  priority := .str "medium"
  originator := ""
  owner := .null
  order := .int 0
  labels := []
  acceptanceCriteria := []
  dependencies := dependencies
  links := []
  metaData := []
  archived := false
  createdAt := "2026-01-01T00:00:00+00:00"
  updatedAt := .str ""
  source := "cards"

def januaryRequest : AuthorizedCardSnapshotRequest where
  identity := ⟨"s", "a", "n", "i"⟩
  scope := { role := "operator" }
  resourceId := "authorized-card-set:sha256:0473ef2dc0d324ab659d3580c1134e9d812035905c4781fdd6d529b0c6860e13"
  capauthDecisionId := "d"
  ownerPolicyRevision := "1"

/-- A decision that opens the visible edges and not the absent ones. -/
def januaryDecision : AuthorizedCardSetDecision where
  capauthDecisionId := "d"
  ownerPolicyRevision := "1"
  state := "allow"
  code := "ALLOW"
  identity := ⟨"s", "a", "n", "i"⟩
  resourceId := januaryRequest.resourceId
  scope := { role := "operator" }
  issuedAt := ⟨1767225600000000, some 0⟩
  expiresAt := ⟨1767225900000000, some 0⟩
  visibleCardIds := ["a", "b"]
  visibleAbsentIds := absentNames
  visibleSetSha256 := "sha256:0473ef2dc0d324ab659d3580c1134e9d812035905c4781fdd6d529b0c6860e13"
  fieldMask := ["visible_edges"]

/-- The policy of the decision. -/
def januaryPolicy (_ : AuthorizedCardSnapshotRequest) :
    Except PyError (Option AuthorizedCardSetDecision) :=
  .ok (some januaryDecision)

/-- The time of the decision. -/
def januaryNow : Datetime := ⟨1767225600000000, some 0⟩

/-- The result is complete. -/
def isComplete (r : Except PyError Json) : Bool :=
  match r with
  | .ok v => (v.field "classification_complete").truthy
  | .error _ => false

/-- A text in quotes has at most two escapes of six characters for each of its own. -/
theorem length_quote_le (s : String) : (quote s).length ≤ 12 * s.utf8ByteSize + 2 := by
  have hescape : ∀ c : Char, (escapeChar c).length ≤ 12 * c.utf8Size := by
    intro c
    have hsize := c.utf8Size_pos
    have hunits : (units c).length ≤ 2 := by
      unfold units
      split <;> simp
    unfold escapeChar
    split
    · show 2 ≤ _
      omega
    · split
      · show 1 ≤ _
        omega
      · have hlength : ∀ us : List ℕ, (us.flatMap unicodeEscape).length = 6 * us.length := by
          intro us
          induction us with
          | nil => rfl
          | cons u us ih =>
            rw [List.flatMap_cons, List.length_append, ih]
            show 6 + _ = 6 * (us.length + 1)
            omega
        rw [hlength]
        omega
  have htext : ∀ l : List Char,
      (l.flatMap escapeChar).length ≤ 12 * (String.ofList l).utf8ByteSize := by
    intro l
    induction l with
    | nil => exact Nat.zero_le _
    | cons c l ih =>
      have hc := hescape c
      rw [List.flatMap_cons, List.length_append, String.ofList_cons, String.utf8ByteSize_append,
        String.utf8ByteSize_singleton]
      omega
  have hs := htext s.toList
  rw [String.ofList_toList] at hs
  rw [quote, List.cons_append, List.length_cons, List.length_append]
  show _ + 1 + 1 ≤ _
  omega

mutual

/-- A bound of the length of a value as it is written. -/
def weight (F : FloatText) : Json → ℕ
  | .null => 4
  | .bool _ => 5
  | .int i => (intText i).text.length
  | .float q => (F.repr q).text.length
  | .str s => 12 * s.utf8ByteSize + 2
  | .arr l => 2 + elemsWeight F l
  | .obj d => 2 + fieldsWeight F d

/-- That of elements, each with a separator. -/
def elemsWeight (F : FloatText) : List Json → ℕ
  | [] => 0
  | v :: l => 1 + weight F v + elemsWeight F l

/-- That of fields. -/
def fieldsWeight (F : FloatText) : List (String × Json) → ℕ
  | [] => 0
  | (k, v) :: d => 4 + 12 * k.utf8ByteSize + weight F v + fieldsWeight F d

end

mutual

theorem length_dumps_le (F : FloatText) : ∀ v : Json, (v.dumps F .compact).length ≤ weight F v
  | .null => le_rfl
  | .bool true => by
    show "true".toList.length ≤ 5
    decide
  | .bool false => by
    show "false".toList.length ≤ 5
    decide
  | .int _ => le_rfl
  | .float _ => le_rfl
  | .str s => length_quote_le s
  | .arr [] => le_rfl
  | .arr (v :: l) => by
    have hv := length_dumps_le F v
    have hl := length_dumpsElems_le F l
    simp only [Json.dumps, weight, elemsWeight, List.length_append, List.length_cons]
    omega
  | .obj [] => le_rfl
  | .obj ((k, v) :: d) => by
    have hk := length_quote_le k
    have hv := length_dumps_le F v
    have hd := length_dumpsFields_le F d
    simp only [Json.dumps, weight, fieldsWeight, JsonLayout.key, List.length_append,
      List.length_cons, List.length_nil]
    omega

theorem length_dumpsElems_le (F : FloatText) : ∀ l : List Json,
    (Json.dumpsElems F .compact l).length ≤ elemsWeight F l + 1
  | [] => le_rfl
  | v :: l => by
    have hv := length_dumps_le F v
    have hl := length_dumpsElems_le F l
    simp only [Json.dumpsElems, elemsWeight, JsonLayout.item, List.length_append, List.length_cons,
      List.length_nil]
    omega

theorem length_dumpsFields_le (F : FloatText) : ∀ d : List (String × Json),
    (Json.dumpsFields F .compact d).length ≤ fieldsWeight F d + 1
  | [] => le_rfl
  | (k, v) :: d => by
    have hk := length_quote_le k
    have hv := length_dumps_le F v
    have hd := length_dumpsFields_le F d
    simp only [Json.dumpsFields, fieldsWeight, JsonLayout.item, JsonLayout.key,
      List.length_append, List.length_cons, List.length_nil]
    omega

end

/-- The result is complete and within the size that `_fit` allows. -/
def fitsComplete (r : Except PyError Json) : Bool :=
  match r with
  | .ok v => weight zeroFloats v.sortKeys ≤ maxProjectItemBytes &&
      (v.field "classification_complete").truthy
  | .error _ => false

section

variable {scope : AuthorizedCardScope} {folded : List (Option Card)} {now : Int}

/-- A result that fits stands. -/
theorem isComplete_of_fits (hE : E.floats = zeroFloats)
    (h : fitsComplete (projectValue E scope decision folded now) = true) :
    isComplete (project E scope decision folded now) = true := by
  unfold project
  cases hv : projectValue E scope decision folded now with
  | error e =>
    rw [hv] at h
    cases h
  | ok v =>
    rw [hv] at h
    obtain ⟨hweight, htrue⟩ := Bool.and_eq_true_iff.mp h
    have hlength : (v.canonical zeroFloats).length ≤ maxProjectItemBytes :=
      (length_dumps_le _ _).trans (of_decide_eq_true hweight)
    have hbytes : (canonicalBytes E v).length ≤ maxProjectItemBytes := by
      unfold canonicalBytes
      have hprintable : Printable (v.canonical zeroFloats) := Json.printable_dumps _ _ _
      rw [hE, length_encodeUtf8 hprintable]
      exact hlength
    show isComplete (.ok (fit E scope v)) = true
    unfold fit
    rw [if_pos hbytes]
    exact htrue

/-- A card that exceeds the cap makes the result incomplete. -/
theorem not_isComplete_of_none {cardId : String}
    (h : (cardId, none) ∈ dependencyMap decision (presentCards decision folded)) :
    isComplete (project E scope decision folded now) = false := by
  have hinvalid : ((dependencyMap decision (presentCards decision folded)).filter
      fun p => p.2.isNone).length ≠ 0 := by
    intro hzero
    have hmem : (cardId, none) ∈ (dependencyMap decision (presentCards decision folded)).filter
        fun p => p.2.isNone := List.mem_filter.mpr ⟨h, rfl⟩
    rw [List.length_eq_zero_iff.mp hzero] at hmem
    cases hmem
  have hvalue : isComplete (projectValue E scope decision folded now) = false := by
    unfold projectValue
    dsimp only
    cases recordPairs E decision (graphOf (dependencyMap decision (presentCards decision folded)))
        (presentCards decision folded) with
    | error e => rfl
    | ok pairs =>
      dsimp only [bind, Except.bind]
      split
      · rfl
      · simp [isComplete, pure, Except.pure, Json.field, Assoc.get?, Json.truthy, hinvalid]
  unfold project
  cases hv : projectValue E scope decision folded now with
  | error e => rfl
  | ok v =>
    show isComplete (.ok (fit E scope v)) = false
    unfold fit
    split
    · rw [hv] at hvalue
      exact hvalue
    · rfl

end

/-- The dependencies of the two cards, whatever the absent identifiers. -/
theorem dependencyMap_edgeStore (dependencies absentIds : List String) :
    dependencyMap { januaryDecision with visibleAbsentIds := absentIds }
      (presentCards { januaryDecision with visibleAbsentIds := absentIds }
        [some (edgeCard "a" ("b" :: dependencies)), some (edgeCard "b" [])]) =
      [("a", safeVisibleDependencies (edgeCard "a" ("b" :: dependencies)) ["a", "b"] absentIds),
        ("b", safeVisibleDependencies (edgeCard "b" []) ["a", "b"] absentIds)] := rfl

theorem absentNames_nodup : absentNames.Nodup := by
  refine List.Nodup.map (fun m n h => ?_) List.nodup_range
  have hlength := congrArg String.length h
  simpa using hlength

/-- All the absent identifiers and a visible one exceed the cap. -/
theorem edgeCard_exceedsCap :
    safeVisibleDependencies (edgeCard "a" ("b" :: absentNames)) ["a", "b"] absentNames = none := by
  have hvisible : 1 ≤ (sortedSet (("b" :: absentNames).filter ["a", "b"].contains)).length := by
    have hmem : "b" ∈ sortedSet (("b" :: absentNames).filter ["a", "b"].contains) := by
      unfold sortedSet
      rw [List.mem_insertionSort, List.mem_dedup, List.mem_filter]
      exact ⟨List.mem_cons_self, by decide⟩
    exact List.length_pos_of_mem hmem
  have habsent : 128 ≤ (sortedSet (("b" :: absentNames).filter absentNames.contains)).length := by
    have hsubset : absentNames ⊆ sortedSet (("b" :: absentNames).filter absentNames.contains) := by
      intro d hd
      unfold sortedSet
      rw [List.mem_insertionSort, List.mem_dedup, List.mem_filter]
      exact ⟨List.mem_cons_of_mem _ hd, List.contains_iff_mem.mpr hd⟩
    have hlength := (absentNames_nodup.subperm hsubset).length_le
    have hcount : absentNames.length = 128 := by
      unfold absentNames
      rw [List.length_map, List.length_range]
    omega
  unfold safeVisibleDependencies
  dsimp only
  refine if_pos ?_
  show 128 < _
  exact Nat.lt_of_lt_of_le (by omega) (Nat.add_le_add hvisible habsent)

/-- What the two cards of the store fold to. -/
theorem fold_edgeStore (dependencies : List String) :
    (edgeStore dependencies).fold januaryEnv.env "a" = .ok (some (edgeCard "a" ("b" :: dependencies))) ∧
      (edgeStore dependencies).fold januaryEnv.env "b" = .ok (some (edgeCard "b" [])) :=
  ⟨rfl, rfl⟩

theorem mapM_edgeStore (dependencies : List String) :
    januaryDecision.visibleCardIds.mapM ((edgeStore dependencies).fold januaryEnv.env) =
      .ok [some (edgeCard "a" ("b" :: dependencies)), some (edgeCard "b" [])] := rfl

/-- The decision allows the request. -/
theorem allows_january :
    allows januaryEnv januaryRequest januaryDecision januaryNow.utc = true := by
  decide +kernel

theorem read_edgeStore (dependencies : List String) :
    read januaryEnv januaryPolicy (edgeStore dependencies) januaryRequest januaryNow =
      project januaryEnv januaryRequest.scope januaryDecision
        [some (edgeCard "a" ("b" :: dependencies)), some (edgeCard "b" [])] januaryNow.utc := by
  unfold read januaryPolicy
  dsimp only
  rw [allows_january, mapM_edgeStore]
  rfl

/-- Without absent identifiers the result is complete. -/
theorem isComplete_edgeStore : isComplete
    (read januaryEnv januaryPolicy (edgeStore []) januaryRequest januaryNow) = true := by
  rw [read_edgeStore]
  exact isComplete_of_fits rfl (by decide +kernel)

theorem hidden_of_mem_visible : ∀ d ∈ januaryDecision.visibleCardIds, d ∉ absentNames := by
  have hx : ∀ d ∈ absentNames, d.toList.head? = some 'x' := by
    intro d hd
    obtain ⟨n, -, rfl⟩ := List.mem_map.mp hd
    rw [String.toList_ofList]
    rfl
  intro d hd hmem
  have hhead := hx d hmem
  rcases List.mem_pair.mp hd with rfl | rfl
  · revert hhead
    decide
  · revert hhead
    decide

/-- The absent identifiers among the dependencies of `a` are masked. -/
theorem agrees_edgeCard {dependencies : List String} (h : dependencies ⊆ absentNames) :
    Agrees januaryDecision (edgeCard "a" ["b"]) (edgeCard "a" ("b" :: dependencies)) := by
  refine ⟨rfl, rfl, rfl, rfl, rfl, rfl, rfl, fun _ _ => Iff.rfl, fun _ => rfl, fun _ => rfl, ?_, ?_⟩
  · intro _ d hd
    show d ∈ ["b"] ↔ d ∈ "b" :: dependencies
    rw [List.mem_cons, List.mem_cons]
    constructor
    · rintro (h | h)
      · exact .inl h
      · cases h
    · rintro (hb | hd')
      · exact .inl hb
      · exact absurd (h hd') (hidden_of_mem_visible d hd)
  · intro _ horphan
    exact absurd horphan (by decide)

/-- The folds of the two stores agree. -/
theorem sameFold_edgeStore {dependencies : List String} (h : dependencies ⊆ absentNames) :
    ∀ cardId ∈ januaryDecision.visibleCardIds, SameFold (Agrees januaryDecision)
      ((edgeStore []).fold januaryEnv.env cardId)
      ((edgeStore dependencies).fold januaryEnv.env cardId) := by
  have hsame : Agrees januaryDecision (edgeCard "b" []) (edgeCard "b" []) :=
    ⟨rfl, rfl, rfl, rfl, rfl, rfl, rfl, fun _ _ => Iff.rfl, fun _ => rfl, fun _ => rfl,
      fun _ _ _ => Iff.rfl, fun _ _ _ _ => Iff.rfl⟩
  intro cardId hmem
  rcases List.mem_pair.mp hmem with rfl | rfl
  · exact .inr ⟨_, _, (fold_edgeStore []).1, (fold_edgeStore dependencies).1,
      .some (agrees_edgeCard h)⟩
  · exact .inr ⟨_, _, (fold_edgeStore []).2, (fold_edgeStore dependencies).2, .some hsame⟩

/-- A card with few dependencies is within the cap. -/
theorem exceedsCap_of_length {ids : List String}
    (h : 2 * c.dependencies.length ≤ maxDependencies) : exceedsCap decision ids c = false := by
  have hlength : ∀ p : String → Bool,
      (sortedSet (c.dependencies.filter p)).length ≤ c.dependencies.length := by
    intro p
    unfold sortedSet
    rw [List.length_insertionSort]
    exact (List.dedup_sublist _).length_le.trans (List.length_filter_le _ _)
  have hvisible := hlength ids.contains
  have habsent := hlength decision.visibleAbsentIds.contains
  unfold exceedsCap safeVisibleDependencies
  dsimp only
  rw [if_neg (by omega)]
  rfl

/-- Under a mask that opens the visible edges, a store whose card has one of the absent identifiers
among its hidden dependencies gives the complete result of the store without it. -/
theorem snapshot_masked_absent :
    isComplete (read januaryEnv januaryPolicy (edgeStore []) januaryRequest januaryNow) = true ∧
      read januaryEnv januaryPolicy (edgeStore []) januaryRequest januaryNow =
        read januaryEnv januaryPolicy (edgeStore ["x"]) januaryRequest januaryNow := by
  refine ⟨isComplete_edgeStore, snapshot_masked (fun decision hpolicy => ?_)
    (fun _ decision hpolicy _ => ?_)⟩
  · cases hpolicy
    exact sameFold_edgeStore (by decide +kernel)
  · cases hpolicy
    intro _ _ folded _ cardId hmem c c' hc hc' _
    rcases List.mem_pair.mp hmem with rfl | rfl
    · cases (fold_edgeStore []).1.symm.trans hc
      cases (fold_edgeStore ["x"]).1.symm.trans hc'
      rw [exceedsCap_of_length (by decide), exceedsCap_of_length (by decide)]
    · cases (fold_edgeStore []).2.symm.trans hc
      cases (fold_edgeStore ["x"]).2.symm.trans hc'
      rfl

/-- **The absent identifiers count** where the mask does not open them: a store whose card has all
of them among its hidden dependencies gives another result. -/
theorem absent_counts :
    (∀ cardId ∈ januaryDecision.visibleCardIds, SameFold (Agrees januaryDecision)
      ((edgeStore []).fold januaryEnv.env cardId)
      ((edgeStore absentNames).fold januaryEnv.env cardId)) ∧
    read januaryEnv januaryPolicy (edgeStore []) januaryRequest januaryNow ≠
      read januaryEnv januaryPolicy (edgeStore absentNames) januaryRequest januaryNow := by
  refine ⟨sameFold_edgeStore (List.Subset.refl _), fun heq => ?_⟩
  have hcomplete := isComplete_edgeStore
  have hincomplete : isComplete
      (read januaryEnv januaryPolicy (edgeStore absentNames) januaryRequest januaryNow) = false := by
    rw [read_edgeStore]
    refine not_isComplete_of_none (show ("a", none) ∈ _ from ?_)
    have hmap := dependencyMap_edgeStore absentNames absentNames
    rw [edgeCard_exceedsCap] at hmap
    exact hmap ▸ List.mem_cons_self
  rw [heq, hincomplete] at hcomplete
  cases hcomplete

end SkCoord.Snapshot
