import SkCoord.Python.Except
import SkCoord.Python.Json
import Mathlib.Algebra.Order.Ring.Rat
import Mathlib.Data.List.Lex
import Mathlib.Data.List.Sort
import Mathlib.Data.Prod.Lex
import Mathlib.Data.String.Basic

/-!
# Sorting by a key of JSON values

`sortByKey` is `list.sort` with a key of some values of unknown shape.  Python compares two keys at
the first place where they differ, within lists as well, and raises a `TypeError` when the values
there have no order; since equal keys stand together in the result, some such pair is compared
whenever there is one.

* `perm_of_sortByKey`: a sort returns the elements it was given.
* `insertionSort_insert`: one more element leaves the others in their order, and
  `insertionSort_insert_top`: it comes last when it is above all of them.
-/

namespace Python

/-- A token of a key: the class of values that have an order among themselves, and the value. -/
abbrev SortToken := ℕ ×ₗ ℚ ×ₗ String

namespace SortToken

/-- The class of a token: the end of a list (0), `None` (1), numbers (2), texts (3), lists (4) and
dictionaries (5), and 10 more for what stands in a dictionary. -/
def cls (t : SortToken) : ℕ := (ofLex t).1

/-- A token that may stand in a dictionary. -/
def of (inDict : Bool) (cls : ℕ) (number : ℚ) (text : String) : SortToken :=
  toLex (if inDict then cls + 10 else cls, toLex (number, text))

/-- Two tokens that differ have an order: a list ends there, or both are numbers or texts. -/
def comparable (a b : SortToken) : Bool :=
  a.cls == 0 || b.cls == 0 || a.cls == b.cls && (a.cls == 2 || a.cls == 3)

end SortToken

/-- A sort key, as the tokens of its values. -/
abbrev SortKey := List SortToken

namespace Json

mutual

/-- The tokens of a value; equal values have the same ones. -/
def sortKey (inDict : Bool) : Json → SortKey
  | null => [.of inDict 1 0 ""]
  | bool b => [.of inDict 2 (if b then 1 else 0) ""]
  | int i => [.of inDict 2 i ""]
  | float q => [.of inDict 2 q ""]
  | str s => [.of inDict 3 0 s]
  | arr l => .of inDict 4 0 "" :: elemKeys inDict l
  | obj d =>
    -- the fields of a dictionary have no order of their own
    let fields := (fieldKeys d).insertionSort fun p q => p.1 ≤ q.1
    .of inDict 5 0 "" :: fields.flatMap (fun p => .of true 3 0 p.1 :: p.2) ++ [.of true 0 0 ""]

def elemKeys (inDict : Bool) : List Json → SortKey
  | [] => [.of inDict 0 0 ""]
  | v :: l => sortKey inDict v ++ elemKeys inDict l

def fieldKeys : List (String × Json) → List (String × SortKey)
  | [] => []
  | (k, v) :: d => (k, sortKey true v) :: fieldKeys d

end

end Json

namespace SortKey

/-- The key of some values. -/
def ofValues (l : List Json) : SortKey := l.flatMap (Json.sortKey false)

/-- Two keys are equal or have an order. -/
def comparable : SortKey → SortKey → Bool
  | s :: a, t :: b => if s = t then comparable a b else s.comparable t
  | _, _ => true

/-- The comparison of two keys does not raise. -/
def Comparable (a b : SortKey) : Prop := a.comparable b = true

instance (a b : SortKey) : Decidable (Comparable a b) := inferInstanceAs (Decidable (_ = true))

end SortKey

/-- A sort key of three places. -/
abbrev SortKey3 := SortKey

/-- The key of three values. -/
def SortKey3.ofValues (x y z : Json) : SortKey3 := SortKey.ofValues [x, y, z]

/-- Texts that count in unary go up. -/
theorem strictMono_unary : StrictMono fun n => String.ofList (List.replicate n 'a') := by
  refine strictMono_nat_of_lt_succ fun n => ?_
  rw [String.lt_iff_toList_lt, String.toList_ofList, String.toList_ofList]
  induction n with
  | zero => exact List.Lex.nil
  | succ n ih => exact List.Lex.cons ih

/-- A later text has a later token. -/
theorem SortToken.text_lt {s t : String} (hst : s < t) :
    SortToken.of false 3 0 s < SortToken.of false 3 0 t :=
  Prod.Lex.toLex_lt_toLex.mpr (.inr ⟨rfl, Prod.Lex.toLex_lt_toLex.mpr (.inr ⟨rfl, hst⟩)⟩)

/-- A greater number has a later token. -/
theorem SortToken.number_lt {a b : ℚ} (hab : a < b) :
    SortToken.of false 2 a "" < SortToken.of false 2 b "" :=
  Prod.Lex.toLex_lt_toLex.mpr (.inr ⟨rfl, Prod.Lex.toLex_lt_toLex.mpr (.inl hab)⟩)

/-- Of two keys that begin with texts the one with the later text comes later. -/
theorem SortKey3.not_ofValues_le {s t : String} (hst : s < t) (x y x' y' : Json) :
    ¬SortKey3.ofValues (.str t) x' y' ≤ SortKey3.ofValues (.str s) x y := by
  rw [not_le]
  exact List.Lex.rel (SortToken.text_lt hst)

section

variable {α : Type*} (key : α → SortKey)

/-- `l.sort(key=key)`. -/
def sortByKey (l : List α) : Except PyError (List α) :=
  if l.Pairwise fun a b => SortKey.Comparable (key a) (key b) then
    pure (l.insertionSort fun a b => key a ≤ key b)
  else throw (.type "'<' not supported between instances of different types")

variable {key}

theorem sortByKey_eq_ok {l m : List α} (h : sortByKey key l = .ok m) :
    m = l.insertionSort fun a b => key a ≤ key b := by
  unfold sortByKey at h
  split at h
  · cases h; rfl
  · cases h

theorem sortByKey_eq_ok_iff {l m : List α} :
    sortByKey key l = .ok m ↔ (l.Pairwise fun a b => SortKey.Comparable (key a) (key b)) ∧
      m = l.insertionSort fun a b => key a ≤ key b := by
  unfold sortByKey
  by_cases h : l.Pairwise fun a b => SortKey.Comparable (key a) (key b)
  · rw [if_pos h, pure_eq_ok, eq_comm]
    exact ⟨fun hm => ⟨h, hm⟩, fun hm => hm.2⟩
  · rw [if_neg h]
    exact ⟨fun hm => absurd hm throw_ne_ok, fun hm => absurd hm.1 h⟩

theorem perm_of_sortByKey {l m : List α} (h : sortByKey key l = .ok m) : m.Perm l := by
  rw [sortByKey_eq_ok h]
  exact List.perm_insertionSort _ l

end

/-- Other values leave the names in their order. -/
theorem insertionSort_mapValues {α β : Type} (f : α → β) (l : List (String × α)) :
    (l.map fun p => (p.1, f p.2)).insertionSort (fun p q => p.1 ≤ q.1) =
      (l.insertionSort fun p q => p.1 ≤ q.1).map fun p => (p.1, f p.2) :=
  (List.map_insertionSort (fun p q : String × α => p.1 ≤ q.1)
    (fun p q : String × β => p.1 ≤ q.1) (fun p => (p.1, f p.2)) l fun _ _ _ _ => Iff.rfl).symm

/-- **Sets with the same elements** are sorted into the same list. -/
theorem insertionSort_dedup_congr {α : Type*} [DecidableEq α] {r : α → α → Prop} [DecidableRel r]
    [IsTrans α r] [Std.Total r] [Std.Antisymm r] {l m : List α} (h : ∀ x, x ∈ l ↔ x ∈ m) :
    l.dedup.insertionSort r = m.dedup.insertionSort r := by
  have hperm : l.dedup.Perm m.dedup := by
    rw [List.perm_ext_iff_of_nodup l.nodup_dedup m.nodup_dedup]
    intro x
    rw [List.mem_dedup, List.mem_dedup]
    exact h x
  refine List.Perm.eq_of_pairwise' (List.pairwise_insertionSort _ _)
    (List.pairwise_insertionSort _ _) ?_
  exact (List.perm_insertionSort _ _).trans (hperm.trans (List.perm_insertionSort _ _).symm)

/-! ### Insertion into a sorted list -/

section

variable {α : Type*} (r : α → α → Prop) [DecidableRel r]

/-- `m` is `l` with one more element `e`. -/
def InsertedAt (e : α) (l m : List α) : Prop := ∃ p q, l = p ++ q ∧ m = p ++ e :: q

namespace InsertedAt

variable {β : Type*} {e : α} {l m : List α}

theorem perm (h : InsertedAt e l m) : m.Perm (e :: l) := by
  obtain ⟨p, q, rfl, rfl⟩ := h
  exact List.perm_middle

theorem mem_iff (h : InsertedAt e l m) {x : α} : x ∈ m ↔ x = e ∨ x ∈ l := by
  rw [h.perm.mem_iff, List.mem_cons]

theorem append_left (h : InsertedAt e l m) (u : List α) : InsertedAt e (u ++ l) (u ++ m) := by
  obtain ⟨p, q, rfl, rfl⟩ := h
  exact ⟨u ++ p, q, by rw [List.append_assoc], by rw [List.append_assoc]⟩

theorem filterMap {f : α → Option β} {b : β} (h : InsertedAt e l m) (hb : f e = some b) :
    InsertedAt b (l.filterMap f) (m.filterMap f) := by
  obtain ⟨p, q, rfl, rfl⟩ := h
  refine ⟨p.filterMap f, q.filterMap f, List.filterMap_append, ?_⟩
  rw [List.filterMap_append, List.filterMap_cons_some hb]

theorem map (h : InsertedAt e l m) (f : α → β) : InsertedAt (f e) (l.map f) (m.map f) := by
  obtain ⟨p, q, rfl, rfl⟩ := h
  exact ⟨p.map f, q.map f, List.map_append, by rw [List.map_append, List.map_cons]⟩

theorem filter {f : α → Bool} (h : InsertedAt e l m) (he : f e = true) :
    InsertedAt e (l.filter f) (m.filter f) := by
  obtain ⟨p, q, rfl, rfl⟩ := h
  refine ⟨p.filter f, q.filter f, List.filter_append _ _, ?_⟩
  rw [List.filter_append, List.filter_cons_of_pos he]

end InsertedAt

theorem insertedAt_orderedInsert (e : α) (l : List α) : InsertedAt e l (l.orderedInsert r e) :=
  ⟨_, _, (List.takeWhile_append_dropWhile).symm, List.orderedInsert_eq_take_drop r e l⟩

/-- Inserting one more element into both lists keeps them one element apart. -/
theorem insertedAt_orderedInsert_of_insertedAt [IsTrans α r] {e : α} (x : α) :
    ∀ {p q : List α}, (p ++ e :: q).Pairwise r →
      InsertedAt e ((p ++ q).orderedInsert r x) ((p ++ e :: q).orderedInsert r x)
  | [], q, hs => by
    rw [List.nil_append, List.nil_append, List.orderedInsert]
    split
    · rename_i hxe
      -- what comes behind `e` is above it, so `x` goes in front there as well
      have hfront : q.orderedInsert r x = x :: q := by
        cases q with
        | nil => rfl
        | cons b q =>
          have heb : r e b := List.rel_of_pairwise_cons hs List.mem_cons_self
          rw [List.orderedInsert, if_pos (IsTrans.trans _ _ _ hxe heb)]
      rw [hfront]
      exact ⟨[x], q, rfl, rfl⟩
    · exact ⟨[], q.orderedInsert r x, rfl, rfl⟩
  | y :: p, q, hs => by
    rw [List.cons_append, List.cons_append, List.orderedInsert, List.orderedInsert]
    split
    · exact ⟨x :: y :: p, q, rfl, rfl⟩
    · obtain ⟨p', q', h1, h2⟩ :=
        insertedAt_orderedInsert_of_insertedAt x (List.pairwise_cons.mp hs).2
      exact ⟨y :: p', q', by rw [h1, List.cons_append], by rw [h2, List.cons_append]⟩

/-- **One more element** leaves the others in their sorted order. -/
theorem insertionSort_insert [IsTrans α r] [Std.Total r] (e : α) (q : List α) : ∀ p : List α,
    InsertedAt e ((p ++ q).insertionSort r) ((p ++ e :: q).insertionSort r)
  | [] => insertedAt_orderedInsert r e _
  | x :: p => by
    obtain ⟨u, v, h1, h2⟩ := insertionSort_insert e q p
    have hs : (u ++ e :: v).Pairwise r := h2 ▸ List.pairwise_insertionSort r _
    rw [List.cons_append, List.cons_append, List.insertionSort_cons, List.insertionSort_cons,
      h1, h2]
    exact insertedAt_orderedInsert_of_insertedAt r x hs

/-- An element above all others is sorted behind them. -/
theorem insertionSort_insert_top [IsTrans α r] [Std.Total r] {e : α} {p q : List α}
    (he : ∀ x ∈ p ++ q, ¬r e x) :
    (p ++ e :: q).insertionSort r = (p ++ q).insertionSort r ++ [e] := by
  obtain ⟨u, v, h1, h2⟩ := insertionSort_insert r e q p
  have hs : (u ++ e :: v).Pairwise r := h2 ▸ List.pairwise_insertionSort r _
  have hv : v = [] := by
    refine List.eq_nil_iff_forall_not_mem.mpr fun x hx => ?_
    have hmem : x ∈ p ++ q :=
      (List.mem_insertionSort r).mp (h1 ▸ List.mem_append_right u hx)
    exact he x hmem (List.rel_of_pairwise_cons (List.pairwise_append.mp hs).2.1 hx)
  rw [h1, h2, hv, List.append_nil]

end

/-! ### Files by name -/

section

variable {ν : Type*} {R : ν → ν → Prop}

/-- The contents of the files that are read, in the order of their names. -/
def readByName {β : Type*} (f : String × ν → List β) (c : String → Bool) (d : Assoc String ν) :
    List β :=
  ((d.filter fun p => c p.1).insertionSort fun p q => p.1 ≤ q.1).flatMap f

/-- **Writing one file** changes what is read at one place. -/
theorem readByName_set {β : Type*} (f : String × ν → List β) {c : String → Bool}
    {d : Assoc String ν} (hd : (Assoc.keys d).Nodup) {name : String} (hc : c name = true) (v : ν) :
    ∃ l m, readByName f c d = l ++ ((Assoc.get? d name).elim [] fun w => f (name, w)) ++ m ∧
      readByName f c (Assoc.set d name v) = l ++ f (name, v) ++ m := by
  cases hget : Assoc.get? d name with
  | none =>
    have hname := (Assoc.get?_eq_none_iff d name).mp hget
    obtain ⟨l, m, h1, h2⟩ := insertionSort_insert (fun p q : String × ν => p.1 ≤ q.1) (name, v) []
      (d.filter fun p => c p.1)
    have hfilter : (Assoc.set d name v).filter (fun p => c p.1) =
        (d.filter fun p => c p.1) ++ [(name, v)] := by
      rw [Assoc.set_eq_append hname, List.filter_append]
      congr 1
      exact List.filter_cons_of_pos hc
    rw [List.append_nil] at h1
    refine ⟨l.flatMap f, m.flatMap f, ?_, ?_⟩
    · rw [readByName, h1, List.flatMap_append, Option.elim_none, List.append_nil]
    · rw [readByName, hfilter, h2, List.flatMap_append, List.flatMap_cons, List.append_assoc]
  | some w =>
    -- the new content stands where the old one stood
    let g := fun p : String × ν => if p.1 = name then (name, v) else p
    have hg : ∀ p, (g p).1 = p.1 := fun p => by
      show (if p.1 = name then (name, v) else p).1 = p.1
      split
      · rename_i h; exact h.symm
      · rfl
    have hset : Assoc.set d name v = d.map g :=
      Assoc.set_eq_map hd (Assoc.mem_keys_of_get? hget) v
    have hfilter : (d.map g).filter (fun p => c p.1) = (d.filter fun p => c p.1).map g := by
      rw [List.filter_map]
      congr 1
      exact List.filter_congr fun p _ => by rw [Function.comp_apply, hg]
    have hsort : ((d.filter fun p => c p.1).map g).insertionSort (fun p q => p.1 ≤ q.1) =
        ((d.filter fun p => c p.1).insertionSort fun p q => p.1 ≤ q.1).map g :=
      (List.map_insertionSort _ _ g _ fun p _ q _ => by rw [hg, hg]).symm
    have hmem : (name, w) ∈ (d.filter fun p => c p.1).insertionSort fun p q => p.1 ≤ q.1 :=
      (List.mem_insertionSort _).mpr
        (List.mem_filter.mpr ⟨Assoc.mem_of_get? hget, hc⟩)
    have hkeys : (Assoc.keys ((d.filter fun p => c p.1).insertionSort fun p q =>
        p.1 ≤ q.1)).Nodup := by
      have hperm := (List.perm_insertionSort (fun p q : String × ν => p.1 ≤ q.1)
        (d.filter fun p => c p.1)).map Prod.fst
      exact hperm.nodup_iff.mpr (hd.sublist (List.filter_sublist.map Prod.fst))
    obtain ⟨l, m, hlm⟩ := List.append_of_mem hmem
    have hsame : ∀ p ∈ l ++ m, g p = p := by
      intro p hp
      refine if_neg fun hpn => ?_
      rw [hlm, Assoc.keys, List.map_append, List.map_cons, List.nodup_middle, List.nodup_cons] at hkeys
      refine hkeys.1 ?_
      rw [← List.map_append]
      exact List.mem_map.mpr ⟨p, hp, hpn⟩
    have hl : l.map g = l := by
      conv_rhs => rw [← List.map_id l]
      exact List.map_congr_left fun p hp => hsame p (List.mem_append_left _ hp)
    have hm : m.map g = m := by
      conv_rhs => rw [← List.map_id m]
      exact List.map_congr_left fun p hp => hsame p (List.mem_append_right _ hp)
    have hnew : g (name, w) = (name, v) := if_pos rfl
    refine ⟨l.flatMap f, m.flatMap f, ?_, ?_⟩
    · rw [readByName, hlm, List.flatMap_append, List.flatMap_cons, Option.elim_some,
        List.append_assoc]
    · rw [readByName, hset, hfilter, hsort, hlm, List.map_append, List.map_cons, hl, hm, hnew,
        List.flatMap_append, List.flatMap_cons, List.append_assoc]

/-- **One more line** at the end of a file is one more record among those that are read. -/
theorem insertedAt_readByName {α β : Type*} {f : α → Option β} {line : α} {b : β}
    (hb : f line = some b) {c : String → Bool} {d : Assoc String (List α)}
    (hd : (Assoc.keys d).Nodup) {name : String} (hc : c name = true) :
    InsertedAt b (readByName (fun p => p.2.filterMap f) c d)
      (readByName (fun p => p.2.filterMap f) c
        (Assoc.set d name ((Assoc.get? d name).getD [] ++ [line]))) := by
  obtain ⟨l, m, h1, h2⟩ := readByName_set (fun p : String × List α => p.2.filterMap f) hd hc
    ((Assoc.get? d name).getD [] ++ [line])
  have hold : ((Assoc.get? d name).elim [] fun w => w.filterMap f) =
      ((Assoc.get? d name).getD []).filterMap f := by
    cases Assoc.get? d name <;> rfl
  refine ⟨l ++ ((Assoc.get? d name).getD []).filterMap f, m, by rw [h1, hold], ?_⟩
  rw [h2, List.filterMap_append, List.filterMap_cons_some hb, List.filterMap_nil]
  simp only [List.append_assoc, List.cons_append, List.nil_append]

end

end Python
