import SkCoord.Clustering.Fusion
import Mathlib.Logic.Relation
import Mathlib.Data.List.Perm.Lattice

/-!
# The classes behind the clusters

Two elements are linked when a chain of elements leads from one to the other of which each matches the
next.  Where clusters match what their elements match (`ByMembers`), the elements of a cluster are
linked (`Fused.linked`), and a cluster of a run is made from the class of each of its elements
(`ByMembers.perm_linkedClass`), in whatever order the elements came in.
-/

namespace Clustering

open Relation

universe u

variable {ε α β : Type u} {same : α → α → Bool} {fuse : α → α → Except ε α} {P : α → Prop}
  {apart : α → α → Prop} {xs ys : List α} {a b c : α}

/-! ### Links -/

/-- Both are elements of the list, and the first matches the second. -/
def Adjacent (same : α → α → Bool) (xs : List α) (a b : α) : Prop :=
  a ∈ xs ∧ b ∈ xs ∧ same a b = true

/-- A chain of elements leads from one to the other. -/
def Linked (same : α → α → Bool) (xs : List α) : α → α → Prop :=
  ReflTransGen (Adjacent same xs)

theorem Linked.refl (a : α) : Linked same xs a a := ReflTransGen.refl

theorem Linked.trans (hab : Linked same xs a b) (hbc : Linked same xs b c) :
    Linked same xs a c := ReflTransGen.trans hab hbc

theorem Linked.of_adjacent (h : Adjacent same xs a b) : Linked same xs a b :=
  ReflTransGen.single h

theorem Linked.mono (hxs : xs ⊆ ys) (h : Linked same xs a b) : Linked same ys a b :=
  ReflTransGen.lift id (fun _ _ hab => ⟨hxs hab.1, hxs hab.2.1, hab.2.2⟩) _ _ h

theorem Linked.symm (hsymm : ∀ a b, same a b = same b a) (h : Linked same xs a b) :
    Linked same xs b a := by
  induction h with
  | refl => exact Linked.refl a
  | tail _ hcb ih =>
    exact ReflTransGen.head ⟨hcb.2.1, hcb.1, (hsymm _ _).trans hcb.2.2⟩ ih

theorem Linked.mem (h : Linked same xs a b) (ha : a ∈ xs) : b ∈ xs := by
  cases h with
  | refl => exact ha
  | tail _ hcb => exact hcb.2.1

/-- **The elements of a cluster are linked** when what matches a cluster matches one of them. -/
theorem Fused.linked (hsymm : ∀ a b, same a b = same b a)
    (hmember : ∀ {m x : α} {S : List α}, Fused same fuse P m S → P x → same m x = true →
      ∃ s ∈ S, same s x = true) {S : List α} (h : Fused same fuse P c S) :
    ∀ a ∈ S, ∀ b ∈ S, Linked same S a b := by
  induction h with
  | single hx =>
    intro a ha b hb
    rw [List.mem_singleton.mp ha, List.mem_singleton.mp hb]
    exact Linked.refl _
  | @fuse m acc q x S T hm hacc hx hsame hq ihm ihacc =>
    obtain ⟨s, hs, hsx⟩ := hmember hm (hacc.of_mem x hx) hsame
    have hleft : S ⊆ S ++ T := List.subset_append_left S T
    have hright : T ⊆ S ++ T := List.subset_append_right S T
    have hacross : ∀ a ∈ S, ∀ b ∈ T, Linked same (S ++ T) a b := by
      intro a ha b hb
      have hstep : Linked same (S ++ T) s x := .of_adjacent ⟨hleft hs, hright hx, hsx⟩
      exact (((ihm a ha s hs).mono hleft).trans hstep).trans ((ihacc x hx b hb).mono hright)
    intro a ha b hb
    rcases List.mem_append.mp ha with ha | ha
    · rcases List.mem_append.mp hb with hb | hb
      · exact (ihm a ha b hb).mono hleft
      · exact hacross a ha b hb
    · rcases List.mem_append.mp hb with hb | hb
      · exact (hacross b hb a ha).symm hsymm
      · exact (ihacc a ha b hb).mono hright

/-- Clusters match by the elements that they were made from. -/
structure ByMembers (same : α → α → Bool) (fuse : α → α → Except ε α) (P : α → Prop) : Prop where
  symm : ∀ a b, same a b = same b a
  refl : ∀ a, same a a = true
  member : ∀ {m x : α} {S : List α}, Fused same fuse P m S → P x → same m x = true →
    ∃ s ∈ S, same s x = true
  joins : ∀ {c d s t : α} {S T : List α}, Fused same fuse P c S → Fused same fuse P d T → s ∈ S →
    t ∈ T → same s t = true → same c d = true
  keeps : KeepsApart same fuse P fun r s => same r s = false
  returns : ∀ {c d : α} {S T : List α}, Fused same fuse P c S → Fused same fuse P d T →
    ∃ q, fuse c d = .ok q

theorem ByMembers.linked (hby : ByMembers same fuse P) {S : List α} (h : Fused same fuse P c S) :
    ∀ a ∈ S, ∀ b ∈ S, Linked same S a b := h.linked hby.symm hby.member

/-! ### Classes -/

open scoped Classical in
/-- The elements that are linked to one. -/
noncomputable def linkedClass (same : α → α → Bool) (xs : List α) (a : α) : List α :=
  xs.filter fun b => decide (Linked same xs a b)

theorem mem_linkedClass : b ∈ linkedClass same xs a ↔ b ∈ xs ∧ Linked same xs a b := by
  classical
  unfold linkedClass
  rw [List.mem_filter, decide_eq_true_iff]

/-- The chains from an element stay in its class. -/
theorem Linked.linkedClass (h : Linked same xs a b) :
    Linked same (linkedClass same xs a) a b := by
  induction h with
  | refl => exact Linked.refl a
  | @tail c b hac hcb ih =>
    have hc : c ∈ Clustering.linkedClass same xs a := mem_linkedClass.mpr ⟨hcb.1, hac⟩
    have hb : b ∈ Clustering.linkedClass same xs a :=
      mem_linkedClass.mpr ⟨hcb.2.1, ReflTransGen.tail hac hcb⟩
    exact ReflTransGen.tail ih ⟨hc, hb, hcb.2.2⟩

/-- The class of an element depends on the elements and not on their order. -/
theorem linkedClass_perm (h : xs.Perm ys) (a : α) :
    (linkedClass same xs a).Perm (linkedClass same ys a) := by
  have hsame : ∀ b, Linked same xs a b ↔ Linked same ys a b := fun b =>
    ⟨Linked.mono h.subset, Linked.mono h.symm.subset⟩
  classical
  have hfilter : linkedClass same ys a = ys.filter fun b => decide (Linked same xs a b) :=
    List.filter_congr fun b _ => decide_eq_decide.mpr (hsame b).symm
  rw [hfilter]
  exact h.filter _

/-- The parts of a run whose clusters do not match. -/
abbrev IsSeparated (same : α → α → Bool) (fuse : α → α → Except ε α) (P : α → Prop) :
    List α → List (α × List α) → Prop :=
  IsPartition same fuse P fun r s => same r s = false

theorem IsPartition.subset {parts : List (α × List α)}
    (hparts : IsPartition same fuse P apart xs parts) {p : α × List α} (hp : p ∈ parts) :
    p.2 ⊆ xs := fun _ hb => hparts.perm.mem_iff.mp
  (List.mem_flatten.mpr ⟨p.2, List.mem_map_of_mem hp, hb⟩)

theorem IsPartition.exists_mem {parts : List (α × List α)}
    (hparts : IsPartition same fuse P apart xs parts) (ha : a ∈ xs) : ∃ p ∈ parts, a ∈ p.2 := by
  obtain ⟨S, hS, haS⟩ := List.mem_flatten.mp (hparts.perm.mem_iff.mpr ha)
  obtain ⟨p, hp, rfl⟩ := List.mem_map.mp hS
  exact ⟨p, hp, haS⟩

namespace ByMembers

variable {parts : List (α × List α)} {p p' : α × List α}

/-- Two parts with elements that match are one. -/
theorem eq_of_same (hby : ByMembers same fuse P) (hparts : IsSeparated same fuse P xs parts)
    (hp : p ∈ parts) (hp' : p' ∈ parts) (ha : a ∈ p.2) (hb : b ∈ p'.2) (h : same a b = true) :
    p = p' := by
  by_contra hne
  have : Std.Symm fun p q : α × List α => same p.1 q.1 = false :=
    ⟨fun p q h => (hby.symm q.1 p.1).trans h⟩
  have hapart := hparts.apart.forall hp hp' hne
  rw [hby.joins (hparts.fused p hp) (hparts.fused p' hp') ha hb h] at hapart
  exact Bool.noConfusion hapart

/-- So are parts with linked elements. -/
theorem eq_of_linked (hby : ByMembers same fuse P) (hparts : IsSeparated same fuse P xs parts)
    (hp : p ∈ parts) (hp' : p' ∈ parts) (ha : a ∈ p.2) (hb : b ∈ p'.2)
    (h : Linked same xs a b) : p = p' := by
  induction h generalizing p' with
  | refl => exact hby.eq_of_same hparts hp hp' ha hb (hby.refl a)
  | @tail c b hac hcb ih =>
    obtain ⟨p'', hp'', hc⟩ := hparts.exists_mem hcb.1
    exact (ih hp'' hc).trans (hby.eq_of_same hparts hp'' hp' hc hb hcb.2.2)

theorem nodup_parts (hby : ByMembers same fuse P) (hparts : IsSeparated same fuse P xs parts) :
    parts.Nodup := by
  refine hparts.apart.imp fun {p q} hapart heq => ?_
  rw [heq, hby.refl] at hapart
  exact Bool.noConfusion hapart

/-- **A cluster is made from a class**: from all that is linked to one of its elements. -/
theorem perm_linkedClass (hby : ByMembers same fuse P) (hparts : IsSeparated same fuse P xs parts)
    (hp : p ∈ parts) (ha : a ∈ p.2) : p.2.Perm (linkedClass same xs a) := by
  classical
  have hsub := hparts.subset hp
  have hnodup := hby.nodup_parts hparts
  obtain ⟨before, after, rfl⟩ := List.append_of_mem hp
  have hother : ∀ q ∈ before ++ after, q.2.filter (fun b => decide (Linked same xs a b)) = [] := by
    intro q hq
    refine List.filter_eq_nil_iff.mpr fun b hb hab => ?_
    have hq' : q ∈ before ++ p :: after := by
      rcases List.mem_append.mp hq with hq | hq
      · exact List.mem_append_left _ hq
      · exact List.mem_append_right _ (List.mem_cons_of_mem _ hq)
    have heq := hby.eq_of_linked hparts hp hq' ha hb (of_decide_eq_true hab)
    exact (List.nodup_middle.mp hnodup).notMem (heq ▸ hq)
  have hnil : ∀ l : List (α × List α), l ⊆ before ++ after →
      (l.map ((List.filter fun b => decide (Linked same xs a b)) ∘ Prod.snd)).flatten = [] := by
    intro l hl
    refine List.flatten_eq_nil_iff.mpr fun m hm => ?_
    obtain ⟨q, hq, rfl⟩ := List.mem_map.mp hm
    exact hother q (hl hq)
  have hall : p.2.filter (fun b => decide (Linked same xs a b)) = p.2 := by
    refine List.filter_eq_self.mpr fun b hb => decide_eq_true ?_
    exact (hby.linked (hparts.fused p hp) a ha b hb).mono hsub
  have hflat := hparts.perm.filter fun b => decide (Linked same xs a b)
  rw [List.filter_flatten, List.map_map, List.map_append, List.map_cons, List.flatten_append,
    List.flatten_cons, hnil before (List.subset_append_left _ _),
    hnil after (List.subset_append_right _ _), Function.comp_apply, hall, List.nil_append,
    List.append_nil] at hflat
  exact hflat

end ByMembers

end Clustering
