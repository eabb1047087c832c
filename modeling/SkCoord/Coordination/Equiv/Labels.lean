import SkCoord.Coordination.UpdateTask

/-!
# Actions on labels and their opposites

`LabelAction.apply` is what an action makes of the labels of a card.  The labels behind actions and
their opposites are counted tag by tag: `labels_kept_iff` says of which actions the opposites give
the set of labels back.  An added tag must not be on the card, or more often than it is added; a
removed one has to be on it.
-/

namespace SkCoord

open Python

variable {tag other : String} {labels : List Json} {actions : List (LabelAction × Json)}

/-! ### Counting a tag -/

/-- How often a tag is among the labels. -/
def tally (tag : String) (labels : List Json) : ℕ := labels.countP (Json.pyEq (.str tag))

@[simp] theorem tally_nil : tally tag [] = 0 := rfl

theorem tally_cons (x : Json) :
    tally tag (x :: labels) = tally tag labels + if (Json.str tag).pyEq x then 1 else 0 :=
  List.countP_cons

theorem tally_append (l : List Json) : tally tag (labels ++ l) = tally tag labels + tally tag l :=
  List.countP_append

@[simp] theorem tally_reverse : tally tag labels.reverse = tally tag labels := by
  simp [tally]

theorem tally_pos_iff : 0 < tally tag labels ↔ .str tag ∈ labels := by
  simp [tally, List.countP_pos_iff]

theorem tally_eq_zero_iff : tally tag labels = 0 ↔ .str tag ∉ labels := by
  rw [← tally_pos_iff]
  omega

theorem tally_singleton : tally tag [.str other] = if other = tag then 1 else 0 := by
  simp [tally]

theorem pyEq_str_of_ne (h : other ≠ tag) : (Json.str tag).pyEq (.str other) = false :=
  Bool.eq_false_of_not_eq_true fun heq => h (Json.str.inj ((Json.pyEq_str_iff _ _).mp heq))

/-! ### The actions -/

namespace LabelAction

/-- What an action makes of the labels of a card. -/
def apply (labels : List Json) : LabelAction × Json → List Json
  | (addLabel, tag) => if tag.truthy && !tag.mem labels then labels ++ [tag] else labels
  | (removeLabel, tag) => tag.remove labels

/-- The opposites of the actions, the last first. -/
def undo (actions : List (LabelAction × Json)) : List (LabelAction × Json) :=
  actions.reverse.map fun p => (p.1.inverse, p.2)

theorem tally_add : tally tag (apply labels (addLabel, .str other)) =
    if other = tag ∧ tag ≠ "" then max (tally tag labels) 1 else tally tag labels := by
  have hmem : (Json.str other).mem labels = true ↔ 0 < tally other labels := by
    rw [Json.mem_str_iff, tally_pos_iff]
  unfold apply
  dsimp only
  by_cases hne : other = ""
  · have htruthy : (Json.str other).truthy = false := by simp [hne, Json.truthy]
    rw [htruthy, Bool.false_and, if_neg Bool.false_ne_true, if_neg]
    rintro ⟨rfl, h⟩
    exact h hne
  · rw [(Json.truthy_str other).mpr hne, Bool.true_and]
    by_cases hon : 0 < tally other labels
    · rw [hmem.mpr hon, Bool.not_true, if_neg Bool.false_ne_true]
      split
      · rename_i h
        rw [← h.1]
        omega
      · rfl
    · rw [Bool.eq_false_of_not_eq_true fun h => hon (hmem.mp h), Bool.not_false, if_pos rfl,
        tally_append, tally_singleton]
      by_cases heq : other = tag
      · subst heq
        rw [if_pos rfl, if_pos ⟨rfl, hne⟩]
        omega
      · rw [if_neg heq, if_neg fun h => heq h.1, Nat.add_zero]

theorem tally_remove : tally tag (apply labels (removeLabel, .str other)) =
    tally tag labels - if other = tag then 1 else 0 := by
  show tally tag ((Json.str other).remove labels) = _
  induction labels with
  | nil => simp [Json.remove]
  | cons x labels ih =>
    unfold Json.remove
    by_cases hx : (Json.str other).pyEq x = true
    · rw [if_pos hx, (Json.pyEq_str_iff _ _).mp hx, tally_cons]
      by_cases heq : other = tag
      · subst heq
        simp [Json.pyEq_refl]
      · simp [heq, pyEq_str_of_ne heq]
    · rw [if_neg hx, tally_cons, tally_cons, ih]
      by_cases heq : other = tag
      · subst heq
        simp [hx]
      · simp [heq]

/-- An action on a text leaves every other label where it is. -/
theorem mem_apply {x : Json} {p : LabelAction × Json} (htag : p.2 = .str tag)
    (hx : x ≠ .str tag) : x ∈ apply labels p ↔ x ∈ labels := by
  obtain ⟨action, y⟩ := p
  obtain rfl : y = .str tag := htag
  cases action with
  | addLabel =>
    unfold apply
    dsimp only
    split
    · simp [hx]
    · rfl
  | removeLabel =>
    show x ∈ (Json.str tag).remove labels ↔ _
    induction labels with
    | nil => rfl
    | cons y labels ih =>
      unfold Json.remove
      split
      · rename_i hy
        rw [(Json.pyEq_str_iff _ _).mp hy, List.mem_cons, or_iff_right hx]
      · rw [List.mem_cons, List.mem_cons, ih]

end LabelAction

open LabelAction

/-- All actions are on texts. -/
def OnTexts (actions : List (LabelAction × Json)) : Prop := ∀ p ∈ actions, ∃ tag, p.2 = .str tag

theorem OnTexts.undo (h : OnTexts actions) : OnTexts (undo actions) := by
  intro p hp
  obtain ⟨q, hq, rfl⟩ := List.mem_map.mp hp
  exact h q (List.mem_reverse.mp hq)

theorem mem_foldl_apply (h : OnTexts actions) {x : Json} (hx : ∀ tag, x ≠ .str tag) :
    x ∈ actions.foldl apply labels ↔ x ∈ labels := by
  induction actions generalizing labels with
  | nil => rfl
  | cons p actions ih =>
    obtain ⟨tag, htag⟩ := h p List.mem_cons_self
    rw [List.foldl_cons, ih fun q hq => h q (List.mem_cons_of_mem p hq), mem_apply htag (hx tag)]

/-! ### A run of actions -/

/-- Behind actions that only add the tag, it is on the card once more at most. -/
theorem tally_foldl_added (h : OnTexts actions) (hadd : (removeLabel, .str tag) ∉ actions) :
    tally tag (actions.foldl apply labels) =
      if 0 < tally tag (actions.map Prod.snd) ∧ tag ≠ "" then max (tally tag labels) 1
      else tally tag labels := by
  induction actions generalizing labels with
  | nil => simp
  | cons p actions ih =>
    obtain ⟨other, hother⟩ := h p List.mem_cons_self
    obtain ⟨action, y⟩ := p
    obtain rfl : y = .str other := hother
    have hrest := @ih (apply labels (action, .str other))
      (fun q hq => h q (List.mem_cons_of_mem _ hq)) fun hmem => hadd (List.mem_cons_of_mem _ hmem)
    rw [List.foldl_cons, hrest, List.map_cons, tally_cons]
    cases action with
    | addLabel =>
      rw [tally_add]
      by_cases heq : other = tag
      · subst heq
        by_cases hne : other = ""
        · simp [hne]
        · simp [hne, Json.pyEq_refl]
      · simp [heq, pyEq_str_of_ne heq]
    | removeLabel =>
      have heq : other ≠ tag := fun heq => hadd (heq ▸ List.mem_cons_self)
      rw [tally_remove]
      simp [heq, pyEq_str_of_ne heq]

/-- Behind actions that only remove the tag, it is on the card less often. -/
theorem tally_foldl_removed (h : OnTexts actions) (hremove : (addLabel, .str tag) ∉ actions) :
    tally tag (actions.foldl apply labels) =
      tally tag labels - tally tag (actions.map Prod.snd) := by
  induction actions generalizing labels with
  | nil => simp
  | cons p actions ih =>
    obtain ⟨other, hother⟩ := h p List.mem_cons_self
    obtain ⟨action, y⟩ := p
    obtain rfl : y = .str other := hother
    have hrest := @ih (apply labels (action, .str other))
      (fun q hq => h q (List.mem_cons_of_mem _ hq))
      fun hmem => hremove (List.mem_cons_of_mem _ hmem)
    rw [List.foldl_cons, hrest, List.map_cons, tally_cons]
    by_cases heq : other = tag
    · subst heq
      cases action with
      | addLabel => exact absurd List.mem_cons_self hremove
      | removeLabel =>
        rw [tally_remove, if_pos rfl, if_pos (Json.pyEq_refl _)]
        omega
    · cases action with
      | addLabel =>
        rw [tally_add]
        simp [heq, pyEq_str_of_ne heq]
      | removeLabel =>
        rw [tally_remove]
        simp [heq, pyEq_str_of_ne heq]

/-! ### Actions and their opposites -/

/-- How often the actions are on the tag. -/
def timesOf (tag : String) (actions : List (LabelAction × Json)) : ℕ :=
  tally tag (actions.map Prod.snd)

/-- The opposites of the actions leave the tag on the card or off it, as it was. -/
structure KeepsLabel (labels : List Json) (actions : List (LabelAction × Json)) (tag : String) :
    Prop where
  added : (addLabel, .str tag) ∈ actions →
    .str tag ∉ labels ∨ timesOf tag actions < tally tag labels
  removed : (removeLabel, .str tag) ∈ actions →
    if tag = "" then .str tag ∉ labels ∨ timesOf tag actions < tally tag labels
    else .str tag ∈ labels

theorem timesOf_pos_iff : 0 < timesOf tag actions ↔
    (addLabel, .str tag) ∈ actions ∨ (removeLabel, .str tag) ∈ actions := by
  unfold timesOf
  rw [tally_pos_iff, List.mem_map]
  constructor
  · rintro ⟨⟨action, x⟩, hmem, rfl⟩
    cases action with
    | addLabel => exact .inl hmem
    | removeLabel => exact .inr hmem
  · rintro (hmem | hmem)
    · exact ⟨_, hmem, rfl⟩
    · exact ⟨_, hmem, rfl⟩

@[simp] theorem timesOf_undo : timesOf tag (undo actions) = timesOf tag actions := by
  have hmap : (undo actions).map Prod.snd = (actions.map Prod.snd).reverse := by
    simp [undo, Function.comp_def]
  unfold timesOf
  rw [hmap, tally_reverse]

theorem mem_undo_iff {action : LabelAction} {x : Json} :
    (action, x) ∈ undo actions ↔ (action.inverse, x) ∈ actions := by
  unfold undo
  simp only [List.mem_map, List.mem_reverse, Prod.mk.injEq, Prod.exists]
  constructor
  · rintro ⟨a, y, hmem, rfl, rfl⟩
    cases a <;> exact hmem
  · intro hmem
    exact ⟨action.inverse, x, hmem, by cases action <;> rfl, rfl⟩

section

variable (htexts : OnTexts actions)
  (hone : ¬ ((addLabel, .str tag) ∈ actions ∧ (removeLabel, .str tag) ∈ actions))

include htexts hone

/-- The tag behind the actions and their opposites. -/
theorem tag_kept_iff :
    (.str tag ∈ (undo actions).foldl apply (actions.foldl apply labels) ↔ .str tag ∈ labels) ↔
      KeepsLabel labels actions tag := by
  simp only [← tally_pos_iff]
  by_cases hremove : (removeLabel, Json.str tag) ∈ actions
  · -- the tag is removed, and added again
    have hadd : (addLabel, Json.str tag) ∉ actions := fun hadd => hone ⟨hadd, hremove⟩
    have htimes : 0 < timesOf tag actions := timesOf_pos_iff.mpr (.inr hremove)
    have hundo : (removeLabel, Json.str tag) ∉ undo actions := fun h => hadd (mem_undo_iff.mp h)
    rw [tally_foldl_added htexts.undo hundo, tally_foldl_removed htexts hadd,
      show tally tag ((undo actions).map Prod.snd) = _ from timesOf_undo,
      show tally tag (actions.map Prod.snd) = timesOf tag actions from rfl]
    have hkeeps : KeepsLabel labels actions tag ↔
        if tag = "" then tally tag labels = 0 ∨ timesOf tag actions < tally tag labels
        else 0 < tally tag labels := by
      rw [tally_eq_zero_iff, tally_pos_iff]
      exact ⟨fun h => h.removed hremove, fun h => ⟨fun h' => absurd h' hadd, fun _ => h⟩⟩
    rw [hkeeps]
    by_cases hempty : tag = ""
    · simp only [hempty, ne_eq, not_true_eq_false, and_false, if_false, if_true]
      omega
    · simp only [htimes, hempty, ne_eq, not_false_eq_true, and_self, if_true, if_false]
      omega
  · by_cases hadd : (addLabel, Json.str tag) ∈ actions
    · -- the tag is added, and removed as often
      have htimes : 0 < timesOf tag actions := timesOf_pos_iff.mpr (.inl hadd)
      have hundo : (addLabel, Json.str tag) ∉ undo actions := fun h => hremove (mem_undo_iff.mp h)
      rw [tally_foldl_removed htexts.undo hundo, tally_foldl_added htexts hremove,
        show tally tag ((undo actions).map Prod.snd) = _ from timesOf_undo,
        show tally tag (actions.map Prod.snd) = timesOf tag actions from rfl]
      have hkeeps : KeepsLabel labels actions tag ↔
          tally tag labels = 0 ∨ timesOf tag actions < tally tag labels := by
        rw [tally_eq_zero_iff]
        exact ⟨fun h => h.added hadd, fun h => ⟨fun _ => h, fun h' => absurd h' hremove⟩⟩
      rw [hkeeps]
      by_cases hempty : tag = ""
      · simp only [hempty, ne_eq, not_true_eq_false, and_false, if_false]
        omega
      · simp only [htimes, hempty, ne_eq, not_false_eq_true, and_self, if_true]
        omega
    · -- no action is on the tag
      have htimes : timesOf tag actions = 0 := by
        have hnot := mt timesOf_pos_iff.mp (not_or.mpr ⟨hadd, hremove⟩)
        omega
      have hundo : (addLabel, Json.str tag) ∉ undo actions := fun h => hremove (mem_undo_iff.mp h)
      rw [tally_foldl_removed htexts.undo hundo, tally_foldl_removed htexts hadd,
        show tally tag ((undo actions).map Prod.snd) = _ from timesOf_undo,
        show tally tag (actions.map Prod.snd) = timesOf tag actions from rfl, htimes]
      exact iff_of_true Iff.rfl ⟨fun h => absurd h hadd, fun h => absurd h hremove⟩

end

/-- **The opposites of actions** give the set of labels back exactly if they keep every tag. -/
theorem labels_kept_iff (labels : List Json) (htexts : OnTexts actions)
    (hone : ∀ tag, ¬ ((addLabel, .str tag) ∈ actions ∧ (removeLabel, .str tag) ∈ actions)) :
    (∀ x, x ∈ (undo actions).foldl apply (actions.foldl apply labels) ↔ x ∈ labels) ↔
      ∀ tag, KeepsLabel labels actions tag := by
  constructor
  · exact fun h tag => (tag_kept_iff htexts (hone tag)).mp (h _)
  · intro h x
    by_cases hx : ∃ tag, x = .str tag
    · obtain ⟨tag, rfl⟩ := hx
      exact (tag_kept_iff htexts (hone tag)).mpr (h tag)
    · have hother : ∀ tag, x ≠ .str tag := not_exists.mp hx
      rw [mem_foldl_apply htexts.undo hother, mem_foldl_apply htexts hother]

/-- An added label that the card had is gone behind its opposite. -/
example : apply (apply [.str "x"] (addLabel, .str "x")) (removeLabel, .str "x") = [] := rfl

/-! ### The actions of an update -/

/-- No tag is both added and removed by the actions. -/
def OneWay (actions : List (LabelAction × Json)) : Prop :=
  ∀ tag, ¬ ((addLabel, .str tag) ∈ actions ∧ (removeLabel, .str tag) ∈ actions)

theorem OnTexts.mono {done : List (LabelAction × Json)} (h : OnTexts actions)
    (hsub : done ⊆ actions) : OnTexts done := fun p hp => h p (hsub hp)

theorem OneWay.mono {done : List (LabelAction × Json)} (h : OneWay actions)
    (hsub : done ⊆ actions) : OneWay done := fun tag hboth => h tag (hboth.imp (hsub ·) (hsub ·))

theorem mem_of_mem {x : Json} {l : List Json} (h : x ∈ l) : x.mem l = true :=
  List.any_eq_true.mpr ⟨x, h, Json.pyEq_refl x⟩

theorem oneWay_labelActions (existing merged : List Json) :
    OneWay (labelActions existing merged) := by
  rintro tag ⟨hadd, hremove⟩
  have hnew : (Json.str tag).mem existing = false := by
    unfold labelActions at hadd
    simp only [List.mem_append, List.mem_map, List.mem_filter, Prod.mk.injEq] at hadd
    rcases hadd with ⟨x, ⟨-, hx⟩, -, rfl⟩ | ⟨x, -, haction, -⟩
    · simpa using hx
    · cases haction
  have hold : Json.str tag ∈ existing := by
    unfold labelActions at hremove
    simp only [List.mem_append, List.mem_map, List.mem_filter, Prod.mk.injEq] at hremove
    rcases hremove with ⟨x, -, haction, -⟩ | ⟨x, ⟨hx, -⟩, -, rfl⟩
    · cases haction
    · exact hx
  rw [mem_of_mem hold] at hnew
  cases hnew

/-- A tag that is dropped is one of the texts to be removed. -/
theorem dropTags_spec {removed : List String} {tags rest : List Json}
    (h : dropTags removed tags = .ok rest) :
    rest ⊆ tags ∧ ∀ x ∈ tags, x ∈ rest ∨ ∃ tag, x = .str tag := by
  induction tags generalizing rest with
  | nil =>
    cases h
    exact ⟨List.Subset.refl _, fun x hx => nomatch hx⟩
  | cons tag tags ih =>
    obtain ⟨_, -, h⟩ := bind_eq_ok.mp h
    obtain ⟨rest', hrest', h⟩ := bind_eq_ok.mp h
    obtain ⟨hsub, hall⟩ := ih hrest'
    cases pure_eq_ok.mp h
    split
    · rename_i hmem
      refine ⟨fun x hx => List.mem_cons_of_mem _ (hsub hx), fun x hx => ?_⟩
      rcases List.mem_cons.mp hx with rfl | hx
      · obtain ⟨y, hy, heq⟩ := List.any_eq_true.mp hmem
        obtain ⟨text, -, rfl⟩ := List.mem_map.mp hy
        exact .inr ⟨text, (Json.pyEq_str_right_iff _ _).mp heq⟩
      · exact hall x hx
    · refine ⟨List.cons_subset_cons _ hsub, fun x hx => ?_⟩
      rcases List.mem_cons.mp hx with rfl | hx
      · exact .inl List.mem_cons_self
      · exact (hall x hx).imp (List.mem_cons_of_mem _) id

theorem onTexts_labelActions {u : TaskUpdate} {d : Dict} {existing merged : List Json}
    (h : mergeTags u d = .ok (existing, merged)) : OnTexts (labelActions existing merged) := by
  unfold mergeTags at h
  obtain ⟨existing', -, h⟩ := bind_eq_ok.mp h
  obtain ⟨merged', hmerged, h⟩ := bind_eq_ok.mp h
  cases pure_eq_ok.mp h
  -- what is behind the removal was there or is one of the texts to be added
  have hspec : merged ⊆ existing ++
        ((u.addTags.getD []).map Json.str).filter (fun t => !t.mem existing) ∧
      ∀ x ∈ existing, x ∈ merged ∨ ∃ tag, x = .str tag := by
    unfold keepTags at hmerged
    split at hmerged
    · cases pure_eq_ok.mp hmerged
      exact ⟨List.Subset.refl _, fun x hx => .inl (List.mem_append_left _ hx)⟩
    · obtain ⟨hsub, hall⟩ := dropTags_spec hmerged
      exact ⟨hsub, fun x hx => hall x (List.mem_append_left _ hx)⟩
  obtain ⟨hsub, hall⟩ := hspec
  intro p hp
  unfold labelActions at hp
  simp only [List.mem_append, List.mem_map, List.mem_filter] at hp
  rcases hp with ⟨x, ⟨hx, hnew⟩, rfl⟩ | ⟨x, ⟨hx, hgone⟩, rfl⟩
  · rcases List.mem_append.mp (hsub hx) with hx | hx
    · rw [mem_of_mem hx] at hnew
      cases hnew
    · obtain ⟨text, -, rfl⟩ := List.mem_map.mp (List.mem_of_mem_filter hx)
      exact ⟨text, rfl⟩
  · rcases hall x hx with hx | htext
    · rw [mem_of_mem hx] at hgone
      cases hgone
    · exact htext

/-- The actions of an update are on texts, and none is undone by another. -/
theorem mutateTask_actions {u : TaskUpdate} {ts : String} {s : EditSlot} {task : Dict}
    (h : mutateTask u ts s = .ok (task, actions)) : OnTexts actions ∧ OneWay actions := by
  have hnone : OnTexts [] ∧ OneWay [] := ⟨fun p hp => (nomatch hp), fun tag h => nomatch h.1⟩
  unfold mutateTask at h
  obtain ⟨s₁, -, h⟩ := bind_eq_ok.mp h
  obtain ⟨s₂, -, h⟩ := bind_eq_ok.mp h
  obtain ⟨⟨s₃, actions'⟩, htags, h⟩ := bind_eq_ok.mp h
  cases pure_eq_ok.mp h
  unfold EditSlot.putTags at htags
  split at htags
  · cases htags
    exact hnone
  · obtain ⟨⟨existing, merged⟩, hmerge, htags⟩ := bind_eq_ok.mp htags
    dsimp only at htags
    split at htags
    · cases htags
      exact hnone
    · obtain ⟨s₄, -, htags⟩ := bind_eq_ok.mp htags
      cases pure_eq_ok.mp htags
      exact ⟨onTexts_labelActions hmerge, oneWay_labelActions existing merged⟩

end SkCoord
