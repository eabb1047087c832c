import Mathlib.Data.List.Count
import Mathlib.Data.List.DropRight
import Mathlib.Data.List.Infix

/-!
# Deleting the matches of a pattern

`deleteAll` deletes what a pattern matches, from left to right, as `re.sub` with an empty replacement
does.  It changes a list exactly when the pattern matches somewhere (`deleteAll_eq_self_iff`), and then
the list gets shorter.  `trim` deletes elements from both ends.
-/

namespace Deletion

variable {α : Type*}

/-- A pattern: what is behind a match at the beginning of a list. -/
abbrev Pattern (α : Type*) := List α → Option (List α)

/-- The pattern matches somewhere. -/
def Matches (m : Pattern α) (l : List α) : Prop := ∃ t, t <:+ l ∧ (m t).isSome

/-- The list without the matches, with fuel for its length. -/
def deleteAll (m : Pattern α) : ℕ → List α → List α
  | 0, l => l
  | _ + 1, [] => []
  | n + 1, c :: l =>
    match m (c :: l) with
    | some rest => deleteAll m n rest
    | none => c :: deleteAll m n l

/-- What is behind a match is an end of the list, and the match is not empty. -/
structure Shrinks (m : Pattern α) : Prop where
  suffix : ∀ {l rest}, m l = some rest → rest <:+ l
  length : ∀ {l rest}, m l = some rest → rest.length < l.length

variable {m : Pattern α}

theorem deleteAll_nil (n : ℕ) : deleteAll m n [] = [] := by cases n <;> rfl

/-- The elements that are left are in their order. -/
theorem deleteAll_sublist (hm : Shrinks m) : ∀ (n : ℕ) (l : List α), (deleteAll m n l).Sublist l
  | 0, l => List.Sublist.refl l
  | _ + 1, [] => List.Sublist.refl []
  | n + 1, c :: l => by
    unfold deleteAll
    cases hmatch : m (c :: l) with
    | none => exact (deleteAll_sublist hm n l).cons_cons c
    | some rest =>
      exact (deleteAll_sublist hm n rest).trans (hm.suffix hmatch).sublist

theorem not_matches_nil (hm : Shrinks m) : ¬Matches m [] := by
  rintro ⟨t, ht, hsome⟩
  rw [List.suffix_nil.mp ht] at hsome
  obtain ⟨rest, hrest⟩ := Option.isSome_iff_exists.mp hsome
  exact absurd (hm.length hrest) (Nat.not_lt_zero _)

theorem matches_cons {c : α} {l : List α} :
    Matches m (c :: l) ↔ (m (c :: l)).isSome ∨ Matches m l := by
  constructor
  · rintro ⟨t, ht, hsome⟩
    rcases List.suffix_cons_iff.mp ht with rfl | ht
    · exact .inl hsome
    · exact .inr ⟨t, ht, hsome⟩
  · rintro (hsome | ⟨t, ht, hsome⟩)
    · exact ⟨c :: l, List.suffix_refl _, hsome⟩
    · exact ⟨t, ht.trans (List.suffix_cons c l), hsome⟩

/-- A list without matches is left as it is. -/
theorem deleteAll_of_not_matches : ∀ (n : ℕ) {l : List α}, ¬Matches m l → deleteAll m n l = l
  | 0, _, _ => rfl
  | _ + 1, [], _ => rfl
  | n + 1, c :: l, h => by
    rw [matches_cons, not_or] at h
    unfold deleteAll
    rw [Option.not_isSome_iff_eq_none.mp h.1, deleteAll_of_not_matches n h.2]

/-- **What every match has loses weight**: a list with a match loses weight where every match has
some. -/
theorem weight_deleteAll_lt {w : List α → ℕ} (hm : Shrinks m)
    (hw : ∀ {l rest}, m l = some rest → w rest < w l) (hmono : ∀ {k l : List α}, k.Sublist l → w k ≤ w l)
    (hcons : ∀ c {k l : List α}, w k < w l → w (c :: k) < w (c :: l)) :
    ∀ {n : ℕ} {l : List α}, l.length ≤ n → Matches m l → w (deleteAll m n l) < w l
  | _, [], _, h => absurd h (not_matches_nil hm)
  | 0, _ :: _, hlen, _ => absurd hlen (Nat.not_succ_le_zero _)
  | n + 1, c :: l, hlen, h => by
    unfold deleteAll
    cases hmatch : m (c :: l) with
    | some rest => exact Nat.lt_of_le_of_lt (hmono (deleteAll_sublist hm n rest)) (hw hmatch)
    | none =>
      rw [matches_cons, hmatch] at h
      exact hcons c (weight_deleteAll_lt hm hw hmono hcons (Nat.le_of_succ_le_succ hlen)
        (h.resolve_left Bool.false_ne_true))

theorem length_deleteAll_lt (hm : Shrinks m) {n : ℕ} {l : List α} (hlen : l.length ≤ n)
    (h : Matches m l) : (deleteAll m n l).length < l.length :=
  weight_deleteAll_lt hm hm.length List.Sublist.length_le
    (fun _ _ _ h => Nat.succ_lt_succ h) hlen h

/-- **The deletion changes a list** exactly when the pattern matches somewhere. -/
theorem deleteAll_eq_self_iff (hm : Shrinks m) {n : ℕ} {l : List α} (hlen : l.length ≤ n) :
    deleteAll m n l = l ↔ ¬Matches m l := by
  refine ⟨fun h hmatches => ?_, deleteAll_of_not_matches n⟩
  have hlt := length_deleteAll_lt hm hlen hmatches
  rw [h] at hlt
  exact absurd hlt (Nat.lt_irrefl _)

/-- An element that every match has gets rarer. -/
theorem count_deleteAll_lt [DecidableEq α] {a : α} (hm : Shrinks m)
    (ha : ∀ {l rest}, m l = some rest → rest.count a < l.count a) {n : ℕ} {l : List α}
    (hlen : l.length ≤ n) (h : Matches m l) : (deleteAll m n l).count a < l.count a := by
  refine weight_deleteAll_lt (w := fun l => l.count a) hm ha (fun h => h.count_le a)
    (fun c k l h => ?_) hlen h
  show List.count a (c :: k) < List.count a (c :: l)
  rw [List.count_cons, List.count_cons]
  exact Nat.add_lt_add_right h _

/-! ### The ends of a list -/

/-- The list without such elements at its ends. -/
def trim (p : α → Bool) (l : List α) : List α := ((l.dropWhile p).reverse.dropWhile p).reverse

variable {p : α → Bool}

theorem trim_prefix_dropWhile (l : List α) : trim p l <+: l.dropWhile p := by
  have h := List.dropWhile_suffix p (l := (l.dropWhile p).reverse)
  exact List.reverse_suffix.mp (by rwa [trim, List.reverse_reverse])

theorem infix_trim (l : List α) : trim p l <:+: l :=
  (trim_prefix_dropWhile l).isInfix.trans (List.dropWhile_suffix p).isInfix

/-- The head of a trimmed list stays. -/
theorem dropWhile_trim (l : List α) : (trim p l).dropWhile p = trim p l := by
  cases htrim : trim p l with
  | nil => rfl
  | cons a t =>
    -- the head is that of what is left of the list behind its beginning
    obtain ⟨r, hr⟩ := trim_prefix_dropWhile (p := p) l
    rw [htrim, List.cons_append] at hr
    have ha : p a ≠ true := by
      intro hpa
      have hidem := List.dropWhile_idempotent p l
      rw [← hr, List.dropWhile_cons_of_pos hpa] at hidem
      have hlen := (List.dropWhile_suffix p (l := t ++ r)).length_le
      rw [hidem, List.length_cons] at hlen
      omega
    exact List.dropWhile_cons_of_neg ha

theorem trim_trim (l : List α) : trim p (trim p l) = trim p l := by
  have hend : (trim p l).reverse.dropWhile p = (trim p l).reverse := by
    unfold trim
    rw [List.reverse_reverse]
    exact List.dropWhile_idempotent p _
  have houter : trim p (trim p l) = (((trim p l).dropWhile p).reverse.dropWhile p).reverse := rfl
  rw [houter, dropWhile_trim, hend, List.reverse_reverse]

/-- An element that is not such a one stays. -/
theorem count_trim [DecidableEq α] {a : α} (ha : p a = false) (l : List α) :
    (trim p l).count a = l.count a := by
  have hdrop : ∀ l : List α, (l.dropWhile p).count a = l.count a := by
    intro l
    conv_rhs => rw [← List.takeWhile_append_dropWhile (p := p) (l := l)]
    have hnone : (l.takeWhile p).count a = 0 := by
      refine List.count_eq_zero.mpr fun hmem => ?_
      rw [List.mem_takeWhile_imp hmem] at ha
      cases ha
    rw [List.count_append, hnone, Nat.zero_add]
  rw [trim, List.count_reverse, hdrop, List.count_reverse, hdrop]

end Deletion
