import Mathlib.Data.List.Basic
import Mathlib.Data.List.Dedup
import Mathlib.Data.List.Sort

/-!
# Association lists with dictionary updates

`Assoc κ ν` is a list of bindings read from the front.  `set` keeps the position of a key that is
already bound and appends a new one, and `erase` drops every binding of a key, so the list has the
insertion order of a dictionary.  All reads go through `get?`, and the laws below say what each
update does to it.
-/

namespace Python

/-- A dictionary in insertion order. -/
abbrev Assoc (κ ν : Type*) := List (κ × ν)

namespace Assoc

variable {κ ν : Type*} [DecidableEq κ]

/-- The value bound to `k`. -/
def get? : Assoc κ ν → κ → Option ν
  | [], _ => none
  | (k', v) :: d, k => if k' = k then some v else get? d k

/-- `set d k v` binds `k` to `v`, in place when `k` is bound already. -/
def set : Assoc κ ν → κ → ν → Assoc κ ν
  | [], k, v => [(k, v)]
  | (k', w) :: d, k, v => if k' = k then (k, v) :: d else (k', w) :: set d k v

/-- `erase d k` drops the bindings of `k`. -/
def erase : Assoc κ ν → κ → Assoc κ ν
  | [], _ => []
  | (k', w) :: d, k => if k' = k then erase d k else (k', w) :: erase d k

/-- The keys, in insertion order. -/
def keys (d : Assoc κ ν) : List κ := d.map Prod.fst

@[simp] theorem get?_nil (k : κ) : get? ([] : Assoc κ ν) k = none := rfl

theorem get?_cons (k' : κ) (w : ν) (d : Assoc κ ν) (k : κ) :
    get? ((k', w) :: d) k = if k' = k then some w else get? d k := rfl

@[simp] theorem get?_set_self (d : Assoc κ ν) (k : κ) (v : ν) : get? (set d k v) k = some v := by
  induction d with
  | nil => simp [set, get?]
  | cons p d ih =>
    obtain ⟨k', w⟩ := p
    by_cases h : k' = k
    · simp [set, get?, h]
    · simp [set, get?, h, ih]

@[simp] theorem get?_set_ne (d : Assoc κ ν) {k k' : κ} (v : ν) (h : k' ≠ k) :
    get? (set d k v) k' = get? d k' := by
  induction d with
  | nil => simp [set, get?, h.symm]
  | cons p d ih =>
    obtain ⟨j, w⟩ := p
    by_cases hj : j = k
    · simp [set, get?, hj, h.symm]
    · simp [set, get?, hj, ih]

theorem get?_set (d : Assoc κ ν) (k k' : κ) (v : ν) :
    get? (set d k v) k' = if k' = k then some v else get? d k' := by
  by_cases h : k' = k
  · rw [if_pos h, h, get?_set_self]
  · rw [if_neg h, get?_set_ne d v h]

@[simp] theorem get?_erase_self (d : Assoc κ ν) (k : κ) : get? (erase d k) k = none := by
  induction d with
  | nil => rfl
  | cons p d ih =>
    obtain ⟨j, w⟩ := p
    by_cases hj : j = k <;> simp [erase, get?, hj, ih]

@[simp] theorem get?_erase_ne (d : Assoc κ ν) {k k' : κ} (h : k' ≠ k) :
    get? (erase d k) k' = get? d k' := by
  induction d with
  | nil => rfl
  | cons p d ih =>
    obtain ⟨j, w⟩ := p
    by_cases hj : j = k
    · simp [erase, get?, hj, ih, h.symm]
    · simp [erase, get?, hj, ih]

/-- A key is bound exactly when it occurs. -/
theorem get?_isSome_iff (d : Assoc κ ν) (k : κ) : (get? d k).isSome ↔ k ∈ keys d := by
  induction d with
  | nil => simp [keys]
  | cons p d ih =>
    obtain ⟨j, w⟩ := p
    by_cases hj : j = k
    · simp [get?, keys, hj]
    · simp only [get?, if_neg hj, ih, keys, List.map_cons, List.mem_cons]
      exact ⟨Or.inr, fun h => h.resolve_left (Ne.symm hj)⟩

theorem mem_keys_of_get? {d : Assoc κ ν} {k : κ} {v : ν} (h : get? d k = some v) : k ∈ keys d :=
  (get?_isSome_iff d k).mp (by rw [h]; rfl)

theorem get?_eq_none_iff (d : Assoc κ ν) (k : κ) : get? d k = none ↔ k ∉ keys d := by
  rw [← get?_isSome_iff, Option.not_isSome_iff_eq_none]

/-- A binding that `get?` returns is one of the bindings. -/
theorem mem_of_get? {d : Assoc κ ν} {k : κ} {v : ν} (h : get? d k = some v) : (k, v) ∈ d := by
  induction d with
  | nil => simp at h
  | cons p d ih =>
    obtain ⟨j, w⟩ := p
    by_cases hj : j = k
    · rw [get?_cons, if_pos hj, Option.some.injEq] at h
      rw [hj, h]
      exact List.mem_cons_self
    · rw [get?_cons, if_neg hj] at h
      exact List.mem_cons_of_mem _ (ih h)

/-- With distinct keys every binding is the one that is read. -/
theorem get?_of_mem {d : Assoc κ ν} (hd : (keys d).Nodup) {k : κ} {v : ν} (h : (k, v) ∈ d) :
    get? d k = some v := by
  induction d with
  | nil => simp at h
  | cons p d ih =>
    obtain ⟨j, w⟩ := p
    rw [keys, List.map_cons, List.nodup_cons] at hd
    rcases List.mem_cons.mp h with heq | hmem
    · obtain ⟨rfl, rfl⟩ := Prod.mk.inj heq
      rw [get?_cons, if_pos rfl]
    · have hk : k ∈ d.map Prod.fst := List.mem_map.mpr ⟨(k, v), hmem, rfl⟩
      have hj : j ≠ k := fun hjk => hd.1 (hjk ▸ hk)
      rw [get?_cons, if_neg hj]
      exact ih hd.2 hmem

theorem keys_set (d : Assoc κ ν) (k : κ) (v : ν) :
    keys (set d k v) = if k ∈ keys d then keys d else keys d ++ [k] := by
  induction d with
  | nil => rfl
  | cons p d ih =>
    obtain ⟨j, w⟩ := p
    by_cases hj : j = k
    · subst hj
      simp [set, keys]
    · have ih' : (set d k v).map Prod.fst = if k ∈ d.map Prod.fst then d.map Prod.fst
          else d.map Prod.fst ++ [k] := ih
      simp only [set, if_neg hj, keys, List.map_cons, List.mem_cons, ih', Ne.symm hj, false_or]
      split <;> simp

theorem mem_keys_set {d : Assoc κ ν} {k j : κ} {v : ν} :
    j ∈ keys (set d k v) ↔ j = k ∨ j ∈ keys d := by
  rw [keys_set]
  split
  · rename_i hk
    exact ⟨Or.inr, fun h => h.elim (fun h => h ▸ hk) id⟩
  · rw [List.mem_append, List.mem_singleton, or_comm]

/-- A new key is bound behind the others. -/
theorem set_eq_append {d : Assoc κ ν} {k : κ} (hk : k ∉ keys d) (v : ν) :
    set d k v = d ++ [(k, v)] := by
  induction d with
  | nil => rfl
  | cons p d ih =>
    obtain ⟨j, w⟩ := p
    rw [keys, List.map_cons, List.mem_cons, not_or] at hk
    rw [set, if_neg (Ne.symm hk.1), ih hk.2, List.cons_append]

/-- Binding a key again replaces its value in place. -/
theorem set_eq_map {d : Assoc κ ν} (hd : (keys d).Nodup) {k : κ} (hk : k ∈ keys d) (v : ν) :
    set d k v = d.map fun p => if p.1 = k then (k, v) else p := by
  induction d with
  | nil => cases hk
  | cons p d ih =>
    obtain ⟨j, w⟩ := p
    rw [keys, List.map_cons, List.nodup_cons] at hd
    by_cases hj : j = k
    · subst hj
      have hrest : (d.map fun p => if p.1 = j then (j, v) else p) = d := by
        refine (List.map_congr_left fun p hp => ?_).trans (List.map_id d)
        exact if_neg fun hpj => hd.1 (List.mem_map.mpr ⟨p, hp, hpj⟩)
      rw [set, if_pos rfl, List.map_cons, if_pos rfl, hrest]
    · rw [keys, List.map_cons, List.mem_cons] at hk
      rw [set, if_neg hj, List.map_cons, if_neg hj, ih hd.2 (hk.resolve_left (Ne.symm hj))]

/-- Of two updates of one key the second counts. -/
theorem set_set (d : Assoc κ ν) (k : κ) (v w : ν) : set (set d k v) k w = set d k w := by
  induction d with
  | nil => exact if_pos rfl
  | cons p d ih =>
    obtain ⟨j, u⟩ := p
    rw [set, set]
    split
    · rw [set, if_pos rfl]
    · rename_i hj
      rw [set, if_neg hj, ih]

/-- Binding a key to the value that it has changes nothing. -/
theorem set_of_get? {d : Assoc κ ν} {k : κ} {v : ν} (h : get? d k = some v) : set d k v = d := by
  induction d with
  | nil => cases h
  | cons p d ih =>
    obtain ⟨j, w⟩ := p
    by_cases hj : j = k
    · rw [get?_cons, if_pos hj, Option.some.injEq] at h
      rw [set, if_pos hj, hj, h]
    · rw [get?_cons, if_neg hj] at h
      rw [set, if_neg hj, ih h]

/-- A binding behind an update is the new one or an old one. -/
theorem mem_set {d : Assoc κ ν} {k : κ} {v : ν} {p : κ × ν} (h : p ∈ set d k v) :
    p = (k, v) ∨ p ∈ d := by
  induction d with
  | nil => exact .inl (List.mem_singleton.mp h)
  | cons q d ih =>
    obtain ⟨j, w⟩ := q
    rw [set] at h
    split at h
    · rcases List.mem_cons.mp h with rfl | hp
      · exact .inl rfl
      · exact .inr (List.mem_cons_of_mem _ hp)
    · rcases List.mem_cons.mp h with rfl | hp
      · exact .inr List.mem_cons_self
      · exact (ih hp).imp_right (List.mem_cons_of_mem _)

/-- Filling a dictionary from a list: a key reads as the value of an element that has it, and as
before where there is none. -/
theorem get?_foldl_set {α : Type*} (key : α → κ) (val : α → ν) (k : κ) :
    ∀ (l : List α) (d : Assoc κ ν),
      (∀ x ∈ l, key x ≠ k) ∧ get? (l.foldl (fun d x => set d (key x) (val x)) d) k = get? d k ∨
        ∃ x ∈ l, key x = k ∧
          get? (l.foldl (fun d x => set d (key x) (val x)) d) k = some (val x)
  | [], d => .inl ⟨fun _ h => (List.not_mem_nil h).elim, rfl⟩
  | x :: l, d => by
    rw [List.foldl_cons]
    rcases get?_foldl_set key val k l (set d (key x) (val x)) with ⟨hl, hget⟩ | ⟨y, hy, hk, hget⟩
    · by_cases hx : key x = k
      · exact .inr ⟨x, List.mem_cons_self, hx, by rw [hget, hx, get?_set_self]⟩
      · refine .inl ⟨fun y hy => ?_, by rw [hget, get?_set_ne _ _ (Ne.symm hx)]⟩
        rcases List.mem_cons.mp hy with rfl | hy
        · exact hx
        · exact hl y hy
    · exact .inr ⟨y, List.mem_cons_of_mem _ hy, hk, hget⟩

/-- Updating a dictionary with another one. -/
theorem get?_update (k : κ) : ∀ (u d : Assoc κ ν), (keys u).Nodup →
    get? (u.foldl (fun d p => set d p.1 p.2) d) k = (get? u k).or (get? d k)
  | [], d, _ => rfl
  | (j, v) :: u, d, hu => by
    rw [keys, List.map_cons, List.nodup_cons] at hu
    rw [List.foldl_cons, get?_update k u _ hu.2, get?_cons]
    by_cases hj : j = k
    · have hk : get? u k = none := (get?_eq_none_iff u k).mpr (hj ▸ hu.1)
      rw [if_pos hj, hk, hj, get?_set_self]
      rfl
    · rw [if_neg hj, get?_set_ne _ _ (Ne.symm hj)]

/-- An update keeps the keys distinct. -/
theorem nodup_keys_set {d : Assoc κ ν} (hd : (keys d).Nodup) (k : κ) (v : ν) :
    (keys (set d k v)).Nodup := by
  rw [keys_set]
  split
  · exact hd
  · rename_i h
    exact List.nodup_append.mpr ⟨hd, List.nodup_singleton k, by
      rintro a ha b hb rfl
      exact h (List.mem_singleton.mp hb ▸ ha)⟩

/-! ### Filling a dictionary from pairs -/

theorem nodup_keys_foldl_set : ∀ (l : List (κ × ν)) {d : Assoc κ ν}, (keys d).Nodup →
    (keys (l.foldl (fun d p => set d p.1 p.2) d)).Nodup
  | [], _, hd => hd
  | p :: l, _, hd => nodup_keys_foldl_set l (nodup_keys_set hd p.1 p.2)

theorem mem_keys_foldl_set {k : κ} : ∀ (l : List (κ × ν)) (d : Assoc κ ν),
    k ∈ keys (l.foldl (fun d p => set d p.1 p.2) d) ↔ k ∈ keys d ∨ k ∈ keys l
  | [], d => by simp [keys]
  | p :: l, d => by
    have hcons : k ∈ keys (p :: l) ↔ k = p.1 ∨ k ∈ keys l := List.mem_cons
    rw [List.foldl_cons, mem_keys_foldl_set l, mem_keys_set, hcons, or_assoc, or_left_comm]

/-- Pairs with new and distinct keys are bound in their order. -/
theorem foldl_set_of_nodup : ∀ (l : List (κ × ν)) (d : Assoc κ ν), (keys (d ++ l)).Nodup →
    l.foldl (fun d p => set d p.1 p.2) d = d ++ l
  | [], d, _ => (List.append_nil d).symm
  | p :: l, d, h => by
    have hsplit : d ++ p :: l = (d ++ [p]) ++ l := by rw [List.append_assoc, List.singleton_append]
    have hp : p.1 ∉ keys d := by
      intro hmem
      rw [keys, List.map_append] at h
      exact (List.nodup_append.mp h).2.2 p.1 hmem p.1 (List.mem_map.mpr ⟨p, List.mem_cons_self, rfl⟩)
        rfl
    rw [List.foldl_cons, set_eq_append hp, hsplit]
    exact foldl_set_of_nodup l _ (hsplit ▸ h)

/-- **No pair is lost** when a dictionary is filled exactly when the keys are distinct. -/
theorem perm_foldl_set_iff (l : List (κ × ν)) :
    ((l.foldl (fun d p => set d p.1 p.2) []).map Prod.snd).Perm (l.map Prod.snd) ↔
      (keys l).Nodup := by
  constructor
  · intro hperm
    -- the keys that are left are distinct, and there are as many as there were pairs
    have hkeys : (keys (l.foldl (fun d p => set d p.1 p.2) ([] : Assoc κ ν))).Nodup :=
      nodup_keys_foldl_set l List.nodup_nil
    have hsub : keys (l.foldl (fun d p => set d p.1 p.2) ([] : Assoc κ ν)) ⊆ (keys l).dedup := by
      intro k hk
      exact List.mem_dedup.mpr (((mem_keys_foldl_set l []).mp hk).resolve_left (List.not_mem_nil))
    have hlen := (List.subperm_of_subset hkeys hsub).length_le
    have hperm' := hperm.length_eq
    simp only [keys, List.length_map] at hlen hperm'
    have hdedup : (keys l).dedup = keys l := by
      refine (List.dedup_sublist _).eq_of_length_le ?_
      rw [keys, List.length_map]
      omega
    exact List.dedup_eq_self.mp hdedup
  · intro hnodup
    rw [foldl_set_of_nodup l [] hnodup, List.nil_append]

/-! ### Values by their own keys -/

/-- A dictionary of values under keys of their own: the keys are distinct, and each value stands
under its key. -/
theorem foldl_set_key {α : Type*} (key : α → κ) (l : List α) :
    (keys (l.foldl (fun d x => set d (key x) x) ([] : Assoc κ α))).Nodup ∧
      ∀ p ∈ l.foldl (fun d x => set d (key x) x) ([] : Assoc κ α), p.1 = key p.2 := by
  refine List.foldlRecOn (motive := fun d : Assoc κ α => (keys d).Nodup ∧ ∀ p ∈ d, p.1 = key p.2)
    l _ ⟨List.nodup_nil, fun _ hp => absurd hp List.not_mem_nil⟩ ?_
  rintro d ⟨hnodup, hkey⟩ x -
  refine ⟨nodup_keys_set hnodup _ _, fun p hp => ?_⟩
  rcases mem_set hp with hp | hp
  · rw [hp]
  · exact hkey p hp

/-- A dictionary of the fields that are there. -/
theorem get?_filterMap_some (k : κ) : ∀ d : Assoc κ (Option ν), (keys d).Nodup →
    get? (d.filterMap fun p => p.2.map fun v => (p.1, v)) k = (get? d k).join
  | [], _ => rfl
  | (j, w) :: d, hd => by
    obtain ⟨hj, hd⟩ := List.nodup_cons.mp hd
    have ih := get?_filterMap_some k d hd
    cases w with
    | none =>
      rw [List.filterMap_cons_none rfl, ih, get?_cons]
      split
      · rename_i heq
        rw [(get?_eq_none_iff d k).mpr (heq ▸ hj)]
        rfl
      · rfl
    | some v =>
      show get? ((j, v) :: d.filterMap fun p => p.2.map fun v => (p.1, v)) k = _
      rw [get?_cons, get?_cons, ih]
      split <;> rfl

/-- A dictionary with other values. -/
theorem get?_map {ω : Type*} (f : ν → ω) (k : κ) : ∀ d : Assoc κ ν,
    get? (d.map fun p => (p.1, f p.2)) k = (get? d k).map f
  | [] => rfl
  | (j, v) :: d => by
    rw [List.map_cons, get?_cons, get?_cons, get?_map f k d]
    split <;> rfl

/-! ### Lists of values -/

/-- `d.setdefault(k, []).append(v)`. -/
def addValue (d : Assoc κ (List ν)) (p : κ × ν) : Assoc κ (List ν) :=
  set d p.1 ((get? d p.1).getD [] ++ [p.2])

/-- The values of one key. -/
def valuesOf (k : κ) (l : List (κ × ν)) : List ν := (l.filter fun p => p.1 = k).map Prod.snd

theorem valuesOf_append (k : κ) (l m : List (κ × ν)) :
    valuesOf k (l ++ m) = valuesOf k l ++ valuesOf k m := by
  rw [valuesOf, List.filter_append, List.map_append]
  rfl

theorem valuesOf_cons_of_ne {k : κ} {p : κ × ν} (h : p.1 ≠ k) (l : List (κ × ν)) :
    valuesOf k (p :: l) = valuesOf k l := by
  rw [valuesOf, List.filter_cons_of_neg (by simpa using h)]
  rfl

/-- The loop collects the values of each key in their order. -/
theorem get?_foldl_addValue (k : κ) : ∀ (l : List (κ × ν)) (d : Assoc κ (List ν)),
    (get? (l.foldl addValue d) k).getD [] = (get? d k).getD [] ++ valuesOf k l
  | [], d => (List.append_nil _).symm
  | p :: l, d => by
    rw [List.foldl_cons, get?_foldl_addValue k l, addValue, get?_set]
    by_cases h : p.1 = k
    · have hcons : valuesOf k (p :: l) = p.2 :: valuesOf k l := by
        rw [valuesOf, List.filter_cons_of_pos (by simpa using h)]
        rfl
      rw [if_pos h.symm, Option.getD_some, hcons, h, List.append_assoc]
      rfl
    · rw [if_neg (Ne.symm h), valuesOf_cons_of_ne h]

end Assoc

end Python
