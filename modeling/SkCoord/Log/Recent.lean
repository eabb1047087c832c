import Mathlib.Data.List.DropRight
import Mathlib.Data.List.Nodup

/-!
# Memories of a bounded number of entries

`put` replaces the entry that has the key of a new one, or adds the new one at the end, and keeps the
last entries.  `keeps_run`: after any number of entries the memory holds the last keys that arrived,
in the order in which they did, each with its latest entry.  A key that was dropped can arrive again.
-/

namespace Recent

variable {α κ : Type*} [DecidableEq κ] (n : ℕ) (key : α → κ)

/-- The first entry with the key of a new one is replaced by it. -/
def replaceFirst (a : α) : List α → Option (List α)
  | [] => none
  | x :: l => if key x = key a then some (a :: l) else (replaceFirst a l).map (x :: ·)

/-- One more entry, of which the last ones are kept. -/
def put (l : List α) (a : α) : List α := ((replaceFirst key a l).getD (l ++ [a])).rtake n

/-- The memory after these entries. -/
def run (history : List α) : List α := history.foldl (put n key) []

/-- The keys in the order in which they arrived; a key arrives when the memory does not have it. -/
def arrivals (history : List α) : List κ :=
  history.foldl (fun ks a => if key a ∈ ks.rtake n then ks else ks ++ [key a]) []

/-- The latest entry of a key. -/
def latest (k : κ) (history : List α) : Option α := history.reverse.find? fun a => key a = k

/-- The memory holds the last keys that arrived, each with its latest entry. -/
structure Keeps (history kept : List α) : Prop where
  length_le : kept.length ≤ n
  nodup : (kept.map key).Nodup
  order : kept.map key = (arrivals n key history).rtake n
  latest : ∀ a ∈ kept, latest key (key a) history = some a

variable {n key} {l l' history : List α} {a x : α}

/-! ### The last entries -/

section

variable {β : Type*} {p s m : List β}

theorem rtake_append_of_le (h : n ≤ s.length) : (p ++ s).rtake n = s.rtake n := by
  unfold List.rtake
  rw [List.length_append, List.drop_append, List.drop_eq_nil_of_le (by omega), List.nil_append]
  congr 1
  omega

theorem rtake_of_length_le (h : p.length ≤ n) : p.rtake n = p := by
  unfold List.rtake
  rw [Nat.sub_eq_zero_of_le h, List.drop_zero]

theorem length_rtake_le (p : List β) (n : ℕ) : (p.rtake n).length ≤ n := by
  unfold List.rtake
  rw [List.length_drop]
  omega

theorem rtake_sublist (p : List β) (n : ℕ) : (p.rtake n).Sublist p := List.drop_sublist _ _

theorem map_rtake {γ : Type*} (f : β → γ) (p : List β) (n : ℕ) :
    (p.rtake n).map f = (p.map f).rtake n := by
  unfold List.rtake
  rw [List.map_drop, List.length_map]

/-- What was dropped does not come back with more behind it. -/
theorem rtake_rtake_append (p m : List β) (n : ℕ) : (p.rtake n ++ m).rtake n = (p ++ m).rtake n := by
  by_cases h : p.length ≤ n
  · rw [rtake_of_length_le h]
  · have hlen : (p.rtake n).length = n := by
      unfold List.rtake
      rw [List.length_drop]
      omega
    have hsplit : p = p.take (p.length - n) ++ p.rtake n := (List.take_append_drop _ _).symm
    have happend : p ++ m = p.take (p.length - n) ++ (p.rtake n ++ m) := by
      rw [← List.append_assoc, ← hsplit]
    rw [happend]
    refine (rtake_append_of_le ?_).symm
    rw [List.length_append, hlen]
    exact Nat.le_add_right n _

end

/-! ### One more entry -/

theorem replaceFirst_eq_none_iff : replaceFirst key a l = none ↔ key a ∉ l.map key := by
  induction l with
  | nil => exact ⟨fun _ => List.not_mem_nil, fun _ => rfl⟩
  | cons x l ih =>
    unfold replaceFirst
    rw [List.map_cons, List.mem_cons, not_or]
    by_cases hx : key x = key a
    · rw [if_pos hx]
      exact ⟨fun h => (nomatch h), fun h => absurd hx.symm h.1⟩
    · rw [if_neg hx, Option.map_eq_none_iff, ih]
      exact ⟨fun h => ⟨fun heq => hx heq.symm, h⟩, fun h => h.2⟩

theorem map_key_replaceFirst (h : replaceFirst key a l = some l') : l'.map key = l.map key := by
  induction l generalizing l' with
  | nil => cases h
  | cons x l ih =>
    unfold replaceFirst at h
    by_cases hx : key x = key a
    · rw [if_pos hx] at h
      rw [← Option.some.inj h, List.map_cons, List.map_cons, hx]
    · rw [if_neg hx] at h
      obtain ⟨l'', hl, rfl⟩ := Option.map_eq_some_iff.mp h
      rw [List.map_cons, List.map_cons, ih hl]

/-- The keys after one more entry. -/
theorem map_key_put (l : List α) (a : α) : (put n key l a).map key =
    if key a ∈ l.map key then (l.map key).rtake n else (l.map key ++ [key a]).rtake n := by
  unfold put
  rw [map_rtake]
  cases hreplace : replaceFirst key a l with
  | none =>
    rw [if_neg (replaceFirst_eq_none_iff.mp hreplace), Option.getD_none, List.map_append]
    rfl
  | some l' =>
    have hmem : key a ∈ l.map key := by
      by_contra h
      rw [replaceFirst_eq_none_iff.mpr h] at hreplace
      cases hreplace
    rw [if_pos hmem, Option.getD_some, map_key_replaceFirst hreplace]

theorem mem_of_mem_replaceFirst (hnodup : (l.map key).Nodup)
    (h : replaceFirst key a l = some l') (hx : x ∈ l') :
    x = a ∨ x ∈ l ∧ key x ≠ key a := by
  induction l generalizing l' with
  | nil => cases h
  | cons y l ih =>
    rw [List.map_cons, List.nodup_cons] at hnodup
    unfold replaceFirst at h
    by_cases hy : key y = key a
    · rw [if_pos hy] at h
      rw [← Option.some.inj h] at hx
      rcases List.mem_cons.mp hx with rfl | hx
      · exact .inl rfl
      · -- the entries behind the replaced one have other keys
        refine .inr ⟨List.mem_cons_of_mem _ hx, fun heq => hnodup.1 ?_⟩
        rw [hy, ← heq]
        exact List.mem_map_of_mem hx
    · rw [if_neg hy] at h
      obtain ⟨l'', hl, rfl⟩ := Option.map_eq_some_iff.mp h
      rcases List.mem_cons.mp hx with rfl | hx
      · exact .inr ⟨List.mem_cons_self, hy⟩
      · exact (ih hnodup.2 hl hx).imp_right fun h => ⟨List.mem_cons_of_mem _ h.1, h.2⟩

/-- What the memory has after one more entry. -/
theorem mem_of_mem_put (hnodup : (l.map key).Nodup) (hx : x ∈ put n key l a) :
    x = a ∨ x ∈ l ∧ key x ≠ key a := by
  have hx' := (rtake_sublist _ n).subset hx
  cases hreplace : replaceFirst key a l with
  | none =>
    rw [hreplace, Option.getD_none] at hx'
    rcases List.mem_append.mp hx' with hx' | hx'
    · refine .inr ⟨hx', fun heq => replaceFirst_eq_none_iff.mp hreplace ?_⟩
      rw [← heq]
      exact List.mem_map_of_mem hx'
    · exact .inl (List.mem_singleton.mp hx')
  | some l' =>
    rw [hreplace, Option.getD_some] at hx'
    exact mem_of_mem_replaceFirst hnodup hreplace hx'

/-! ### All entries -/

theorem run_concat (history : List α) (a : α) :
    run n key (history ++ [a]) = put n key (run n key history) a := List.foldl_concat ..

theorem arrivals_concat (history : List α) (a : α) : arrivals n key (history ++ [a]) =
    if key a ∈ (arrivals n key history).rtake n then arrivals n key history
    else arrivals n key history ++ [key a] := List.foldl_concat ..

theorem latest_concat (k : κ) (history : List α) (a : α) : latest key k (history ++ [a]) =
    if key a = k then some a else latest key k history := by
  unfold latest
  rw [List.reverse_concat, List.find?_cons]
  by_cases h : key a = k
  · rw [if_pos h, decide_eq_true h]
  · rw [if_neg h, decide_eq_false h]

/-- **The memory after any number of entries** holds the last keys that arrived, each with its
latest entry. -/
theorem keeps_run (history : List α) : Keeps n key history (run n key history) := by
  induction history using List.reverseRecOn with
  | nil => exact ⟨Nat.zero_le n, List.nodup_nil, List.drop_nil.symm, fun a ha => (List.not_mem_nil ha).elim⟩
  | append_singleton history a ih =>
    have horder : (put n key (run n key history) a).map key =
        (arrivals n key (history ++ [a])).rtake n := by
      rw [map_key_put, ih.order, arrivals_concat]
      by_cases hmem : key a ∈ (arrivals n key history).rtake n
      · rw [if_pos hmem, if_pos hmem, rtake_of_length_le (length_rtake_le _ n)]
      · rw [if_neg hmem, if_neg hmem, rtake_rtake_append]
    rw [run_concat]
    refine ⟨length_rtake_le _ n, ?_, horder, fun x hx => ?_⟩
    · rw [map_key_put]
      split
      · exact ih.nodup.sublist (rtake_sublist _ n)
      · rename_i hnew
        refine List.Nodup.sublist (rtake_sublist _ n) (List.nodup_append.mpr
          ⟨ih.nodup, List.nodup_singleton _, fun k hk k' hk' heq => hnew ?_⟩)
        rw [← List.mem_singleton.mp hk', ← heq]
        exact hk
    · rw [latest_concat]
      rcases mem_of_mem_put ih.nodup hx with rfl | ⟨hx, hne⟩
      · rw [if_pos rfl]
      · rw [if_neg fun heq => hne heq.symm]
        exact ih.latest x hx

end Recent
