import SkCoord.Clustering.Linked

/-!
# Elements that nothing else is linked to

An element is alone in a list when its class is only itself, at its one place.  A run leaves it beside the
clusters of the other elements: `exists_run_beside` is the run over all elements from the run over
those that are not alone.
-/

namespace Clustering

open Relation Python

universe u

variable {ε α : Type u} {same : α → α → Bool} {fuse : α → α → Except ε α} {P : α → Prop}
  {xs ys : List α} {a b c : α}

/-- Nothing else in the list is linked to the element. -/
def IsAlone (same : α → α → Bool) (xs : List α) (a : α) : Prop := linkedClass same xs a = [a]

theorem IsAlone.mem (h : IsAlone same xs a) : a ∈ xs :=
  (mem_linkedClass.mp (h.symm ▸ List.mem_singleton_self a : a ∈ linkedClass same xs a)).1

theorem IsAlone.eq_of_linked (h : IsAlone same xs a) (hb : b ∈ xs) (hab : Linked same xs a b) :
    b = a := by
  have hmem : b ∈ linkedClass same xs a := mem_linkedClass.mpr ⟨hb, hab⟩
  rw [h] at hmem
  exact List.mem_singleton.mp hmem

theorem IsAlone.eq_of_same (h : IsAlone same xs a) (hb : b ∈ xs) (hab : same a b = true) : b = a :=
  h.eq_of_linked hb (.of_adjacent ⟨h.mem, hb, hab⟩)

theorem IsAlone.perm (h : IsAlone same xs a) (hperm : xs.Perm ys) : IsAlone same ys a :=
  List.perm_singleton.mp ((linkedClass_perm hperm.symm a).trans (h ▸ List.Perm.refl _))

theorem isAlone_perm (hperm : xs.Perm ys) : IsAlone same xs a ↔ IsAlone same ys a :=
  ⟨fun h => h.perm hperm, fun h => h.perm hperm.symm⟩

/-- An element that is alone has one place in the list. -/
theorem IsAlone.not_sublist (h : IsAlone same xs a) : ¬[a, a].Sublist xs := by
  classical
  intro hsub
  have hfilter := hsub.filter fun b => decide (Linked same xs a b)
  have hboth : [a, a].filter (fun b => decide (Linked same xs a b)) = [a, a] :=
    List.filter_eq_self.mpr fun b hb => decide_eq_true <| by
      rcases List.mem_pair.mp hb with rfl | rfl <;> exact Linked.refl _
  have hclass : xs.filter (fun b => decide (Linked same xs a b)) = [a] := by
    have h' := h
    unfold IsAlone linkedClass at h'
    convert h' using 2
  rw [hboth, hclass] at hfilter
  exact absurd hfilter.length_le (by simp)

/-- An element that no other place of the list matches. -/
theorem isAlone_of_split {before after : List α} (hrefl : same a a = true)
    (h : ∀ b ∈ before ++ after, same a b = false) : IsAlone same (before ++ a :: after) a := by
  classical
  have hlinked : ∀ {b}, Linked same (before ++ a :: after) a b → b = a := by
    intro b hb
    induction hb with
    | refl => rfl
    | @tail c b _ hcb ih =>
      obtain ⟨-, hmem, hsame⟩ := hcb
      subst ih
      by_contra hne
      have hother : b ∈ before ++ after := by
        rcases List.mem_append.mp hmem with hb | hb
        · exact List.mem_append_left _ hb
        · exact List.mem_append_right _ ((List.mem_cons.mp hb).resolve_left hne)
      exact Bool.noConfusion ((h b hother).symm.trans hsame)
  have hnone : ∀ l ⊆ before ++ after,
      l.filter (fun b => decide (Linked same (before ++ a :: after) a b)) = [] := by
    refine fun l hl => List.filter_eq_nil_iff.mpr fun b hb hab => ?_
    rw [hlinked (of_decide_eq_true hab)] at hb
    exact Bool.noConfusion ((h a (hl hb)).symm.trans hrefl)
  unfold IsAlone linkedClass
  rw [List.filter_append, List.filter_cons, hnone before (List.subset_append_left _ _),
    hnone after (List.subset_append_right _ _), decide_eq_true (Linked.refl a)]
  rfl

/-- Elements that are alone do not match each other. -/
theorem pairwise_alone {l : List α} (hsub : l.Sublist xs) (h : ∀ x ∈ l, IsAlone same xs x) :
    l.Pairwise fun a b => same a b = false := by
  refine List.pairwise_iff_forall_sublist.mpr fun {a b} hab => ?_
  have ha := h a (hab.subset List.mem_cons_self)
  have hb : b ∈ xs := (hab.trans hsub).subset (List.mem_cons_of_mem _ List.mem_cons_self)
  refine Bool.eq_false_iff.mpr fun hsame => ?_
  obtain rfl := ha.eq_of_same hb hsame
  exact ha.not_sublist (hab.trans hsub)

open scoped Classical in
/-- The elements that are alone. -/
noncomputable def alone (same : α → α → Bool) (xs ys : List α) : List α :=
  ys.filter fun a => decide (IsAlone same xs a)

open scoped Classical in
/-- The elements that are not alone. -/
noncomputable def together (same : α → α → Bool) (xs ys : List α) : List α :=
  ys.filter fun a => !decide (IsAlone same xs a)

theorem mem_alone : a ∈ alone same xs ys ↔ a ∈ ys ∧ IsAlone same xs a := by
  classical
  unfold alone
  rw [List.mem_filter, decide_eq_true_iff]

theorem mem_together : a ∈ together same xs ys ↔ a ∈ ys ∧ ¬IsAlone same xs a := by
  classical
  unfold together
  rw [List.mem_filter, Bool.not_eq_true', decide_eq_false_iff_not]

theorem together_subset : together same xs ys ⊆ ys := fun _ ha => (mem_together.mp ha).1

theorem alone_sublist : (alone same xs ys).Sublist ys := List.filter_sublist

theorem together_perm {zs : List α} (h : ys.Perm zs) :
    (together same xs ys).Perm (together same xs zs) := by
  classical
  exact h.filter _

theorem alone_perm {zs : List α} (h : ys.Perm zs) :
    (alone same xs ys).Perm (alone same xs zs) := by
  classical
  exact h.filter _

/-- Every element is one or the other. -/
theorem perm_together_alone (same : α → α → Bool) (xs ys : List α) :
    (together same xs ys ++ alone same xs ys).Perm ys := by
  classical
  exact List.perm_append_comm.trans (List.filter_append_perm _ _)

/-- What is alone goes, and the rest stays. -/
theorem together_append_alone (h : ∀ x ∈ ys, ¬IsAlone same xs x) (zs : List α) :
    together same xs (ys ++ alone same xs zs) = ys := by
  classical
  have hnone : together same xs (alone same xs zs) = [] :=
    List.eq_nil_iff_forall_not_mem.mpr fun x hx =>
      (mem_together.mp hx).2 (mem_alone.mp (mem_together.mp hx).1).2
  unfold together at hnone ⊢
  rw [List.filter_append, hnone, List.append_nil]
  exact List.filter_eq_self.mpr fun x hx => by rw [decide_eq_false (h x hx)]; rfl

/-- The class of an element that is not alone has no element that is. -/
theorem linkedClass_together (hsymm : ∀ a b, same a b = same b a) (ha : a ∈ together same xs xs) :
    linkedClass same (together same xs xs) a = linkedClass same xs a := by
  classical
  obtain ⟨hmem, hnot⟩ := mem_together.mp ha
  have hothers : linkedClass same xs a ⊆ together same xs xs := by
    intro b hb
    obtain ⟨hb, hab⟩ := mem_linkedClass.mp hb
    refine mem_together.mpr ⟨hb, fun halone => hnot ?_⟩
    rwa [halone.eq_of_linked hmem (hab.symm hsymm)]
  have hlinked : ∀ b, Linked same (together same xs xs) a b ↔ Linked same xs a b := fun b =>
    ⟨Linked.mono together_subset, fun h => h.linkedClass.mono hothers⟩
  show (together same xs xs).filter (fun b => decide (Linked same (together same xs xs) a b)) =
    xs.filter fun b => decide (Linked same xs a b)
  rw [List.filter_congr fun b _ => decide_eq_decide.mpr (hlinked b)]
  unfold together
  rw [List.filter_filter]
  refine List.filter_congr fun b hb => ?_
  by_cases hab : Linked same xs a b
  · have hother := (mem_together.mp (hothers (mem_linkedClass.mpr ⟨hb, hab⟩))).2
    rw [decide_eq_true hab, decide_eq_false hother]
    rfl
  · rw [decide_eq_false hab]
    rfl

/-! ### Runs -/

/-- What matches a cluster matches an element of it. -/
def MatchesMembers (same : α → α → Bool) (fuse : α → α → Except ε α) (P : α → Prop) : Prop :=
  ∀ {m x : α} {S : List α}, Fused same fuse P m S → same m x = true → ∃ s ∈ S, same s x = true

/-- A cluster of elements that are not alone matches no element that is. -/
theorem MatchesMembers.same_eq_false (h : MatchesMembers same fuse P)
    (hsymm : ∀ a b, same a b = same b a) {S : List α} (hc : Fused same fuse P c S)
    (hS : S ⊆ together same xs xs) (ha : IsAlone same xs a) : same c a = false := by
  refine Bool.eq_false_iff.mpr fun hsame => ?_
  obtain ⟨s, hs, hsa⟩ := h hc hsame
  obtain ⟨hmem, hnot⟩ := mem_together.mp (hS hs)
  exact hnot (ha.eq_of_same hmem ((hsymm a s).trans hsa) ▸ ha)

/-- Nor is it one. -/
theorem MatchesMembers.not_isAlone (h : MatchesMembers same fuse P)
    (hsymm : ∀ a b, same a b = same b a) (hrefl : ∀ a, same a a = true) {S : List α}
    (hc : Fused same fuse P c S) (hS : S ⊆ together same xs xs) : ¬IsAlone same xs c := fun ha =>
  Bool.noConfusion ((h.same_eq_false hsymm hc hS ha).symm.trans (hrefl c))

theorem keepsApart_true : KeepsApart same fuse P fun _ _ => True :=
  ⟨fun _ => trivial, fun _ => trivial, fun _ _ _ _ _ _ _ => trivial⟩

/-- The run over the elements behind `past`, beside what came in before. -/
theorem exists_run_beside_from (hmember : MatchesMembers same fuse P)
    (hsymm : ∀ a b, same a b = same b a) (hrefl : ∀ a, same a a = true)
    (hP : ∀ x ∈ together same xs xs, P x) {final : List α} :
    ∀ {rest past clusters : List α} {parts : List (α × List α)}, (past ++ rest).Perm xs →
      IsPartition same fuse P (fun _ _ => True) (together same xs past) parts →
      together same xs clusters = parts.map Prod.fst →
      alone same xs clusters = alone same xs past →
      (together same xs rest).foldlM (step same fuse) (parts.map Prod.fst) = .ok final →
      ∃ clusters', rest.foldlM (step same fuse) clusters = .ok clusters' ∧
        together same xs clusters' = final ∧
        alone same xs clusters' = alone same xs (past ++ rest)
  | [], past, clusters, parts, _, _, hclusters, halone, h => by
    cases pure_eq_ok.mp h
    rw [List.append_nil]
    exact ⟨clusters, rfl, hclusters, halone⟩
  | x :: rest, past, clusters, parts, hxs, hparts, hclusters, halone, h => by
    classical
    have hx : x ∈ xs := hxs.subset (by simp)
    have hpast : past ⊆ xs := fun y hy => hxs.subset (List.mem_append_left _ hy)
    have hnext : ((past ++ [x]) ++ rest).Perm xs := by
      rw [List.append_assoc]
      exact hxs
    have hmembers : ∀ p ∈ parts, Fused same fuse P p.1 p.2 ∧ p.2 ⊆ together same xs xs := by
      refine fun p hp => ⟨hparts.fused p hp, fun s hs => ?_⟩
      obtain ⟨hs, hnot⟩ := mem_together.mp (hparts.subset hp hs)
      exact mem_together.mpr ⟨hpast hs, hnot⟩
    by_cases hx' : IsAlone same xs x
    · -- no cluster matches the element
      have hnone : ∀ c ∈ clusters, same c x = false := by
        intro c hc
        by_cases hc' : IsAlone same xs c
        · have hcpast : c ∈ past :=
            (mem_alone.mp (halone ▸ mem_alone.mpr ⟨hc, hc'⟩ : c ∈ alone same xs past)).1
          refine Bool.eq_false_iff.mpr fun hsame => ?_
          obtain rfl := hc'.eq_of_same hx hsame
          have hsub : [x, x].Sublist (past ++ x :: rest) :=
            (List.singleton_sublist.mpr hcpast).append (List.singleton_sublist.mpr
              List.mem_cons_self)
          exact ((isAlone_perm hxs).mpr hx').not_sublist hsub
        · obtain ⟨p, hp, rfl⟩ := List.mem_map.mp
            (hclusters ▸ mem_together.mpr ⟨hc, hc'⟩ : c ∈ parts.map Prod.fst)
          exact hmember.same_eq_false hsymm (hmembers p hp).1 (hmembers p hp).2 hx'
      have hstep : step same fuse clusters x = .ok (clusters ++ [x]) := by
        refine step_eq_ok.mpr ⟨x, ?_, ?_⟩
        · rw [List.filter_eq_nil_iff.mpr fun c hc => by rw [hnone c hc]; exact Bool.noConfusion]
          rfl
        · rw [List.filter_eq_self.mpr fun c hc => by rw [hnone c hc]; rfl]
      have hskip : together same xs (x :: rest) = together same xs rest := by
        unfold together
        rw [List.filter_cons, decide_eq_true hx']
        rfl
      have htogether : ∀ l : List α, together same xs (l ++ [x]) = together same xs l := by
        intro l
        unfold together
        rw [List.filter_append, List.filter_cons, decide_eq_true hx']
        exact List.append_nil _
      have hadd : ∀ l : List α, alone same xs (l ++ [x]) = alone same xs l ++ [x] := by
        intro l
        unfold alone
        rw [List.filter_append, List.filter_cons, decide_eq_true hx']
        rfl
      rw [hskip] at h
      have hbeside : together same xs (clusters ++ [x]) = parts.map Prod.fst :=
        (htogether clusters).trans hclusters
      obtain ⟨clusters', hrun, hfinal, hrest⟩ := exists_run_beside_from hmember hsymm hrefl hP
        hnext ((htogether past).symm ▸ hparts) hbeside (by rw [hadd, hadd, halone]) h
      refine ⟨clusters', foldlM_cons_eq_ok.mpr ⟨_, hstep, hrun⟩, hfinal, ?_⟩
      rw [hrest, List.append_assoc]
      rfl
    · -- the element is fused with clusters of elements that are not alone
      have hkeep : together same xs (x :: rest) = x :: together same xs rest := by
        unfold together
        rw [List.filter_cons, decide_eq_false hx']
        rfl
      rw [hkeep] at h
      obtain ⟨next, hstep, h⟩ := foldlM_cons_eq_ok.mp h
      have hxP : P x := hP x (mem_together.mpr ⟨hx, hx'⟩)
      obtain ⟨parts', rfl, hparts'⟩ := isPartition_step keepsApart_true hparts hxP hstep
      obtain ⟨q, hq, hparts'eq⟩ := step_eq_ok.mp hstep
      have hmiss : ∀ c, IsAlone same xs c → same c x = false := by
        refine fun c hc => Bool.eq_false_iff.mpr fun hsame => hx' ?_
        rwa [hc.eq_of_same hx hsame]
      have hfound : (clusters.filter fun c => same c x) =
          (together same xs clusters).filter fun c => same c x := by
        unfold together
        rw [List.filter_filter]
        refine List.filter_congr fun c _ => ?_
        by_cases hc : IsAlone same xs c
        · rw [hmiss c hc, Bool.false_and]
        · rw [decide_eq_false hc, Bool.not_false, Bool.and_true]
      have hqalone : ¬IsAlone same xs q := by
        have hmem : q ∈ parts'.map Prod.fst := hparts'eq ▸ List.mem_append_right _
          (List.mem_singleton_self q)
        obtain ⟨p, hp, rfl⟩ := List.mem_map.mp hmem
        refine hmember.not_isAlone hsymm hrefl (hparts'.fused p hp) fun s hs => ?_
        rcases List.mem_append.mp (hparts'.subset hp hs) with hs | hs
        · obtain ⟨hs, hnot⟩ := mem_together.mp hs
          exact mem_together.mpr ⟨hpast hs, hnot⟩
        · rw [List.mem_singleton.mp hs]
          exact mem_together.mpr ⟨hx, hx'⟩
      have hstep' : step same fuse clusters x =
          .ok ((clusters.filter fun c => !same c x) ++ [q]) := by
        refine step_eq_ok.mpr ⟨q, ?_, rfl⟩
        rw [hfound, hclusters]
        exact hq
      have htogether : together same xs ((clusters.filter fun c => !same c x) ++ [q]) =
          parts'.map Prod.fst := by
        rw [hparts'eq, ← hclusters]
        unfold together
        rw [List.filter_append, List.filter_cons, decide_eq_false hqalone, List.filter_comm]
        rfl
      have haloneq : alone same xs ((clusters.filter fun c => !same c x) ++ [q]) =
          alone same xs (past ++ [x]) := by
        have hleft : alone same xs ((clusters.filter fun c => !same c x) ++ [q]) =
            alone same xs clusters := by
          unfold alone
          rw [List.filter_append, List.filter_cons, decide_eq_false hqalone, List.filter_filter]
          refine (List.append_nil _).trans (List.filter_congr fun c _ => ?_)
          by_cases hc : IsAlone same xs c
          · rw [hmiss c hc, Bool.not_false, Bool.and_true]
          · rw [decide_eq_false hc, Bool.false_and]
        rw [hleft, halone]
        unfold alone
        rw [List.filter_append, List.filter_cons, decide_eq_false hx']
        exact (List.append_nil _).symm
      have hpart : together same xs past ++ [x] = together same xs (past ++ [x]) := by
        unfold together
        rw [List.filter_append, List.filter_cons, decide_eq_false hx']
        rfl
      obtain ⟨clusters', hrun, hfinal, hrest⟩ := exists_run_beside_from hmember hsymm hrefl hP
        hnext (hpart ▸ hparts') htogether haloneq h
      refine ⟨clusters', foldlM_cons_eq_ok.mpr ⟨_, hstep', hrun⟩, hfinal, ?_⟩
      rw [hrest, List.append_assoc]
      rfl

/-- **A run leaves the elements that are alone beside the clusters of the others**, in whatever
order the elements come in. -/
theorem exists_run_beside (hmember : MatchesMembers same fuse P)
    (hsymm : ∀ a b, same a b = same b a) (hrefl : ∀ a, same a a = true)
    (hP : ∀ x ∈ together same xs xs, P x) (hperm : ys.Perm xs) {final : List α}
    (h : (together same xs ys).foldlM (step same fuse) [] = .ok final) :
    ∃ clusters, ys.foldlM (step same fuse) [] = .ok clusters ∧
      clusters.Perm (final ++ alone same xs ys) := by
  have hstart : (([] : List α) ++ ys).Perm xs := hperm
  obtain ⟨clusters, hrun, rfl, halone⟩ := exists_run_beside_from hmember hsymm hrefl hP
    hstart isPartition_nil rfl rfl h
  refine ⟨clusters, hrun, ?_⟩
  rw [List.nil_append] at halone
  exact halone ▸ (perm_together_alone same xs clusters).symm

end Clustering
