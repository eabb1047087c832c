import Mathlib.Data.List.Sort

/-!
# The last of a sorted list

A loop over a sorted list that keeps the last value it sees ends with the latest element, and that
one can be read off the list before the sort: `latest` compares elements, and of two that are level
it takes the later one.

* `filter_insertionSort`: a stable sort commutes with a filter.
* `getLast?_insertionSort`: the last of the sorted list is the latest.
* `foldl_last`: a loop that overwrites a view leaves the last value.
-/

namespace Python

section

variable {α : Type*} (r : α → α → Prop) [DecidableRel r]

/-- The later of two elements, the second when they are level. -/
def later : Option α → Option α → Option α
  | none, y => y
  | some a, none => some a
  | some a, some b => if r a b then some b else some a

/-- The latest element of a list. -/
def latest : List α → Option α
  | [] => none
  | a :: l => later r (some a) (latest l)

theorem later_none (x : Option α) : later r x none = x := by
  cases x <;> rfl

theorem later_some (a b : α) : later r (some a) (some b) = if r a b then some b else some a := rfl

theorem latest_eq_none_iff {l : List α} : latest r l = none ↔ l = [] := by
  constructor
  · intro h
    cases l with
    | nil => rfl
    | cons a l =>
      rw [latest] at h
      cases hl : latest r l with
      | none =>
        rw [hl] at h
        cases h
      | some b =>
        rw [hl, later_some] at h
        split at h <;> cases h
  · rintro rfl
    rfl

theorem mem_of_latest {b : α} : ∀ {l : List α}, latest r l = some b → b ∈ l
  | a :: l, h => by
    rw [latest] at h
    cases hl : latest r l with
    | none =>
      rw [hl] at h
      rw [Option.some.inj h]
      exact List.mem_cons_self
    | some c =>
      -- one of the two is the later
      rw [hl, later_some] at h
      split at h
      · rw [← Option.some.inj h]
        exact List.mem_cons_of_mem a (mem_of_latest hl)
      · rw [Option.some.inj h]
        exact List.mem_cons_self

/-- An element that is later than all others is the latest wherever it stands. -/
theorem latest_insert_top {a : α} : ∀ {l m : List α}, (∀ x ∈ l, r x a) → (∀ x ∈ m, ¬r a x) →
    latest r (l ++ a :: m) = some a
  | [], m, _, hm => by
    rw [List.nil_append, latest]
    cases hlatest : latest r m with
    | none => rfl
    | some b => rw [later_some, if_neg (hm b (mem_of_latest r hlatest))]
  | x :: l, m, hl, hm => by
    rw [List.cons_append, latest, latest_insert_top
      (fun y hy => hl y (List.mem_cons_of_mem _ hy)) hm, later_some, if_pos (hl x List.mem_cons_self)]

variable [IsTrans α r]

/-- An element is put behind those that it is later than. -/
theorem getLast?_orderedInsert (a : α) {l : List α} (hl : l.Pairwise r) :
    (l.orderedInsert r a).getLast? = later r (some a) l.getLast? := by
  induction l with
  | nil => rfl
  | cons c l ih =>
    obtain ⟨hc, hl⟩ := List.pairwise_cons.mp hl
    rw [List.orderedInsert_cons]
    split
    · rename_i hac
      -- what the head is not earlier than, the last is not either
      have hlast : ∀ b, (c :: l).getLast? = some b → r a b := by
        intro b hb
        rcases List.mem_cons.mp (List.mem_of_getLast? hb) with rfl | hmem
        · exact hac
        · exact Trans.trans hac (hc b hmem)
      rw [List.getLast?_cons_cons]
      cases hb : (c :: l).getLast? with
      | none => simp at hb
      | some b => rw [later_some, if_pos (hlast b hb)]
    · rename_i hac
      cases l with
      | nil =>
        show some a = later r (some a) (some c)
        rw [later_some, if_neg hac]
      | cons d l =>
        have hne : (d :: l).orderedInsert r a ≠ [] := by
          rw [List.orderedInsert_cons]
          split <;> exact List.cons_ne_nil _ _
        obtain ⟨x, m, hm⟩ := List.exists_cons_of_ne_nil hne
        rw [hm, List.getLast?_cons_cons, ← hm, ih hl, List.getLast?_cons_cons]

theorem filter_orderedInsert (p : α → Bool) (a : α) {l : List α} (hl : l.Pairwise r) :
    (l.orderedInsert r a).filter p =
      if p a then (l.filter p).orderedInsert r a else l.filter p := by
  induction l with
  | nil =>
    rw [List.orderedInsert_nil]
    cases hp : p a with
    | true => rw [List.filter_cons_of_pos hp]; rfl
    | false => rw [List.filter_cons_of_neg (by rw [hp]; exact Bool.false_ne_true)]; rfl
  | cons c l ih =>
    obtain ⟨hc, hl⟩ := List.pairwise_cons.mp hl
    rw [List.orderedInsert_cons]
    split
    · rename_i hac
      cases hp : p a with
      | false => rw [List.filter_cons_of_neg (by rw [hp]; exact Bool.false_ne_true)]; rfl
      | true =>
        rw [List.filter_cons_of_pos hp, if_pos rfl]
        -- every element that is left stands behind `a`
        have hall : ∀ b ∈ (c :: l).filter p, r a b := by
          intro b hb
          rcases List.mem_cons.mp (List.mem_filter.mp hb).1 with rfl | hmem
          · exact hac
          · exact Trans.trans hac (hc b hmem)
        cases hf : (c :: l).filter p with
        | nil => rfl
        | cons b m =>
          rw [List.orderedInsert_cons, if_pos (hall b (by rw [hf]; exact List.mem_cons_self))]
    · rename_i hac
      cases hpc : p c with
      | true =>
        rw [List.filter_cons_of_pos hpc, List.filter_cons_of_pos hpc, ih hl, List.orderedInsert_cons,
          if_neg hac]
        split <;> rfl
      | false =>
        have hneg : ¬ p c = true := by rw [hpc]; exact Bool.false_ne_true
        rw [List.filter_cons_of_neg hneg, List.filter_cons_of_neg hneg, ih hl]

variable [Std.Total r]

theorem later_assoc (x y z : Option α) : later r (later r x y) z = later r x (later r y z) := by
  cases x with
  | none => rfl
  | some a =>
    cases y with
    | none => rfl
    | some b =>
      cases z with
      | none => rw [later_none, later_none]
      | some c =>
        rw [later_some, later_some]
        by_cases hab : r a b
        · rw [if_pos hab, later_some]
          by_cases hbc : r b c
          · have hac : r a c := Trans.trans hab hbc
            rw [if_pos hbc, later_some, if_pos hac]
          · rw [if_neg hbc, later_some, if_pos hab]
        · rw [if_neg hab, later_some]
          by_cases hbc : r b c
          · rw [if_pos hbc, later_some]
          · -- `b` is not later than `a` and `c` not than `b`
            have hba : r b a := (Std.Total.total a b).resolve_left hab
            have hac : ¬ r a c := fun hac => hbc (Trans.trans hba hac)
            rw [if_neg hbc, if_neg hac, later_some, if_neg hab]

theorem latest_append : ∀ l m : List α, latest r (l ++ m) = later r (latest r l) (latest r m)
  | [], m => rfl
  | a :: l, m => by
    rw [List.cons_append, latest, latest_append l m, latest, later_assoc]

theorem getLast?_insertionSort : ∀ l : List α, (l.insertionSort r).getLast? = latest r l
  | [] => rfl
  | a :: l => by
    rw [List.insertionSort_cons, getLast?_orderedInsert r a (List.pairwise_insertionSort r l),
      getLast?_insertionSort l]
    rfl

/-- A stable sort commutes with a filter. -/
theorem filter_insertionSort (p : α → Bool) : ∀ l : List α,
    (l.insertionSort r).filter p = (l.filter p).insertionSort r
  | [] => rfl
  | a :: l => by
    rw [List.insertionSort_cons, filter_orderedInsert r p a (List.pairwise_insertionSort r l),
      filter_insertionSort p l, List.filter_cons]
    split <;> rfl

/-- The last element of a sorted list that a filter keeps. -/
theorem getLast?_filter_insertionSort (p : α → Bool) (l : List α) :
    ((l.insertionSort r).filter p).getLast? = latest r (l.filter p) := by
  rw [filter_insertionSort, getLast?_insertionSort]

/-- What is the latest of a list is the latest of the list without other elements: taking elements
out that do not win changes no comparison that the winner has won. -/
theorem latest_of_insert {l w m : List α} {a : α} (h : latest r (l ++ w ++ m) = some a)
    (ha : a ∉ w) : latest r (l ++ m) = some a := by
  rw [latest_append, latest_append] at h
  rw [latest_append]
  -- Nothing was inserted, or the winner of what was.
  cases hw : latest r w with
  | none => rwa [hw, later_none] at h
  | some b =>
    -- That one is not the winner, so some element outside it is as late.
    have hab : a ≠ b := fun hab => ha (hab ▸ mem_of_latest r hw)
    rw [hw] at h
    cases hl : latest r l with
    | none =>
      rw [hl] at h
      cases hm : latest r m with
      | none =>
        rw [hm] at h
        exact absurd (Option.some.inj h).symm hab
      | some c =>
        rw [hm] at h
        change later r (some b) (some c) = some a at h
        rw [later_some] at h
        split at h
        · exact h
        · exact absurd (Option.some.inj h).symm hab
    | some d =>
      rw [hl, later_some] at h
      cases hm : latest r m with
      | none =>
        rw [hm, later_none] at h
        split at h
        · exact absurd (Option.some.inj h).symm hab
        · exact h
      | some c =>
        rw [hm] at h
        rw [later_some]
        -- Three winners: where the middle one beats the first and loses to the last, so does the
        -- first.
        by_cases hdb : r d b
        · rw [if_pos hdb, later_some] at h
          split at h
          · rename_i hbc
            rw [if_pos (Trans.trans hdb hbc : r d c)]
            exact h
          · exact absurd (Option.some.inj h).symm hab
        · rwa [if_neg hdb, later_some] at h

/-- Other elements either replace the latest or leave it. -/
theorem latest_insert {l m : List α} {a : α} (w : List α) (h : latest r (l ++ m) = some a) :
    ∃ b, latest r (l ++ w ++ m) = some b ∧ (b = a ∨ b ∈ w) := by
  cases hb : latest r (l ++ w ++ m) with
  | none =>
    obtain ⟨hlw, hm⟩ := List.append_eq_nil_iff.mp ((latest_eq_none_iff r).mp hb)
    rw [(List.append_eq_nil_iff.mp hlw).1, hm] at h
    cases h
  | some b =>
    by_cases hw : b ∈ w
    · exact ⟨b, rfl, .inr hw⟩
    · have hlm := latest_of_insert r hb hw
      exact ⟨b, rfl, .inl (Option.some.inj (hlm.symm.trans h))⟩

/-- Sorting a part first does not change which element is the latest. -/
theorem latest_insertionSort_append (l m : List α) :
    latest r (l.insertionSort r ++ m) = latest r (l ++ m) := by
  have hsorted : (l.insertionSort r).insertionSort r = l.insertionSort r :=
    (List.pairwise_insertionSort r l).insertionSort_eq
  have hlatest : latest r (l.insertionSort r) = latest r l := by
    rw [← getLast?_insertionSort, hsorted, getLast?_insertionSort]
  rw [latest_append, latest_append, hlatest]

end

/-- Lists whose elements compare alike have their latest at the same place. -/
theorem latest_map {α β : Type*} {r : α → α → Prop} {s : β → β → Prop} [DecidableRel r]
    [DecidableRel s] (f : α → β) (h : ∀ a b, r a b ↔ s (f a) (f b)) : ∀ l : List α,
    latest s (l.map f) = (latest r l).map f
  | [] => rfl
  | a :: l => by
    rw [List.map_cons, latest, latest_map f h l, latest]
    cases latest r l with
    | none => rfl
    | some b =>
      show later s (some (f a)) (some (f b)) = _
      rw [later_some, later_some]
      by_cases hab : r a b
      · rw [if_pos ((h a b).mp hab), if_pos hab]
        rfl
      · rw [if_neg fun hs => hab ((h a b).mpr hs), if_neg hab]
        rfl

/-- **Last-value rule**: a loop whose body overwrites a view with the values of the elements that
`p` keeps ends with the last of them. -/
theorem foldl_last {α σ ω : Type*} {step : σ → α → σ} {view : σ → Option ω} {p : α → Bool}
    {val : α → ω} (hstep : ∀ s a, view (step s a) = if p a then some (val a) else view s) :
    ∀ (l : List α) (s : σ),
      view (l.foldl step s) = (((l.filter p).getLast?).map val).or (view s)
  | [], s => rfl
  | a :: l, s => by
    rw [List.foldl_cons, foldl_last hstep l, hstep, List.filter_cons]
    cases hp : p a with
    | false => rfl
    | true =>
      rw [if_pos rfl, if_pos rfl]
      cases hl : l.filter p with
      | nil => rfl
      | cons b m =>
        rw [List.getLast?_cons_cons]
        cases hb : (b :: m).getLast? with
        | none => simp at hb
        | some c => rfl

end Python
