import SkCoord.Python.Except
import Mathlib.Data.List.Perm.Basic
import Mathlib.Data.List.Pairwise

/-!
# Clusters that grow by fusion

Elements come in one after the other.  A new element is fused with every cluster that it matches, and
starts a cluster of its own when it matches none.  `Fused` says which elements a cluster was made
from.  `exists_parts`: the elements of the clusters are those that came in, each once, and clusters
stay apart when a fusion of two clusters is apart from whatever both were apart from.
-/

namespace Clustering

open Python

universe u

variable {ε α : Type u}

/-- One more element. -/
def step (same : α → α → Bool) (fuse : α → α → Except ε α) (clusters : List α) (x : α) :
    Except ε (List α) :=
  match clusters.filter fun c => same c x with
  | [] => pure (clusters ++ [x])
  | found => do
    let merged ← found.foldlM (fun merged c => fuse c merged) x
    pure ((clusters.filter fun c => !same c x) ++ [merged])

/-- The cluster is a fusion of the elements of a list. -/
inductive Fused (same : α → α → Bool) (fuse : α → α → Except ε α) (P : α → Prop) :
    α → List α → Prop where
  | single {x : α} (hx : P x) : Fused same fuse P x [x]
  | fuse {m acc q x : α} {S T : List α} (hm : Fused same fuse P m S)
    (hacc : Fused same fuse P acc T) (hx : x ∈ T) (hsame : same m x = true)
    (hq : fuse m acc = .ok q) : Fused same fuse P q (S ++ T)

variable {same : α → α → Bool} {fuse : α → α → Except ε α} {P : α → Prop}
  {apart : α → α → Prop}

namespace Fused

theorem ne_nil {c : α} {S : List α} (h : Fused same fuse P c S) : S ≠ [] := by
  induction h with
  | single hx => exact List.cons_ne_nil _ _
  | fuse hm hacc hx hsame hq ihm ihacc => exact List.append_ne_nil_of_left_ne_nil ihm _

theorem of_mem {c : α} {S : List α} (h : Fused same fuse P c S) : ∀ x ∈ S, P x := by
  induction h with
  | single hx => exact List.forall_mem_singleton.mpr hx
  | fuse hm hacc hx hsame hq ihm ihacc => exact List.forall_mem_append.mpr ⟨ihm, ihacc⟩

theorem mono {Q : α → Prop} (hPQ : ∀ {x : α}, P x → Q x) {c : α} {S : List α}
    (h : Fused same fuse P c S) : Fused same fuse Q c S := by
  induction h with
  | single hx => exact .single (hPQ hx)
  | fuse hm hacc hx hsame hq ihm ihacc => exact ihm.fuse ihacc hx hsame hq

/-- A cluster is an element or a fusion of two clusters. -/
theorem single_or_fuse {c : α} {S : List α} (h : Fused same fuse P c S) :
    S = [c] ∨ 2 ≤ S.length ∧ ∃ m acc S' T', Fused same fuse P m S' ∧ Fused same fuse P acc T' ∧
      fuse m acc = .ok c := by
  cases h with
  | single hx => exact .inl rfl
  | @fuse m acc _ x S T hm hacc hx hsame hq =>
    refine .inr ⟨?_, m, acc, S, T, hm, hacc, hq⟩
    have hS := List.length_pos_of_ne_nil hm.ne_nil
    have hT := List.length_pos_of_ne_nil hacc.ne_nil
    rw [List.length_append]
    omega

end Fused

/-! ### One step -/

/-- The two branches of a step are one: the new element is fused with what it matches. -/
theorem step_eq_ok {clusters clusters' : List α} {x : α} :
    step same fuse clusters x = .ok clusters' ↔
      ∃ q, (clusters.filter fun c => same c x).foldlM (fun merged c => fuse c merged) x = .ok q ∧
        clusters' = (clusters.filter fun c => !same c x) ++ [q] := by
  unfold step
  split
  · rename_i hnone
    have hall : (clusters.filter fun c => !same c x) = clusters := by
      refine List.filter_eq_self.mpr fun c hc => ?_
      have hc' := List.filter_eq_nil_iff.mp hnone c hc
      rw [Bool.eq_false_iff.mpr hc']
      rfl
    rw [hnone, hall]
    constructor
    · intro h
      exact ⟨x, rfl, (pure_eq_ok.mp h).symm⟩
    · rintro ⟨q, hq, rfl⟩
      rw [← pure_eq_ok.mp hq]
      rfl
  · rw [bind_eq_ok]
    exact exists_congr fun q => and_congr_right fun _ => ⟨fun h => (pure_eq_ok.mp h).symm,
      fun h => by rw [h]; rfl⟩

/-- Fusions with clusters that the new element matches. -/
theorem fused_foldlM {x q : α} : ∀ {found : List (α × List α)} {acc : α} {T : List α},
    (∀ p ∈ found, Fused same fuse P p.1 p.2 ∧ same p.1 x = true) → Fused same fuse P acc T →
      x ∈ T → (found.map Prod.fst).foldlM (fun merged c => fuse c merged) acc = .ok q →
      ∃ S, Fused same fuse P q S ∧ S.Perm ((found.map Prod.snd).flatten ++ T)
  | [], acc, T, _, hacc, _, h => by
    cases pure_eq_ok.mp h
    exact ⟨T, hacc, List.Perm.refl T⟩
  | p :: found, acc, T, hfound, hacc, hx, h => by
    obtain ⟨⟨hfused, hsame⟩, hfound⟩ := List.forall_mem_cons.mp hfound
    obtain ⟨acc', hfuse, h⟩ := foldlM_cons_eq_ok.mp h
    have hacc' : Fused same fuse P acc' (p.2 ++ T) := hfused.fuse hacc hx hsame hfuse
    obtain ⟨S, hS, hperm⟩ := fused_foldlM hfound hacc' (List.mem_append_right _ hx) h
    refine ⟨S, hS, hperm.trans ?_⟩
    rw [List.map_cons, List.flatten_cons, ← List.append_assoc]
    exact List.Perm.append_right T List.perm_append_comm

/-- Clusters that are apart stay apart when some are fused. -/
structure KeepsApart (same : α → α → Bool) (fuse : α → α → Except ε α) (P : α → Prop)
    (apart : α → α → Prop) : Prop where
  symm : ∀ {r s : α}, apart r s → apart s r
  new : ∀ {r x : α}, same r x = false → apart r x
  fuse : ∀ {m acc q x r : α} {S T : List α}, Fused same fuse P m S → Fused same fuse P acc T →
    x ∈ T → same m x = true → fuse m acc = .ok q → apart r m → apart r acc → apart r q

theorem KeepsApart.mono {Q : α → Prop} (hPQ : ∀ {x : α}, P x → Q x)
    (h : KeepsApart same fuse Q apart) : KeepsApart same fuse P apart where
  symm := h.symm
  new := h.new
  fuse := fun hm hacc hx hsame hq hrm hracc =>
    h.fuse (hm.mono hPQ) (hacc.mono hPQ) hx hsame hq hrm hracc

/-- What is apart from all that is fused is apart from the fusion. -/
theorem apart_foldlM (hkeeps : KeepsApart same fuse P apart) {x q r : α} :
    ∀ {found : List (α × List α)} {acc : α} {T : List α},
      (∀ p ∈ found, Fused same fuse P p.1 p.2 ∧ same p.1 x = true ∧ apart r p.1) →
      Fused same fuse P acc T → x ∈ T → apart r acc →
      (found.map Prod.fst).foldlM (fun merged c => fuse c merged) acc = .ok q → apart r q
  | [], acc, T, _, _, _, hr, h => by
    cases pure_eq_ok.mp h
    exact hr
  | p :: found, acc, T, hfound, hacc, hx, hr, h => by
    obtain ⟨⟨hfused, hsame, hrp⟩, hfound⟩ := List.forall_mem_cons.mp hfound
    obtain ⟨acc', hq, h⟩ := foldlM_cons_eq_ok.mp h
    exact apart_foldlM hkeeps hfound (hfused.fuse hacc hx hsame hq) (List.mem_append_right _ hx)
      (hkeeps.fuse hfused hacc hx hsame hq hrp hr) h

/-! ### Runs -/

/-- The clusters with the elements that each was made from. -/
structure IsPartition (same : α → α → Bool) (fuse : α → α → Except ε α) (P : α → Prop)
    (apart : α → α → Prop) (xs : List α) (parts : List (α × List α)) : Prop where
  fused : ∀ p ∈ parts, Fused same fuse P p.1 p.2
  perm : (parts.map Prod.snd).flatten.Perm xs
  apart : parts.Pairwise fun p q => apart p.1 q.1

/-- **One step** keeps the clusters a partition of what has come in. -/
theorem isPartition_step (hkeeps : KeepsApart same fuse P apart)
    {xs : List α} {parts : List (α × List α)} (hparts : IsPartition same fuse P apart xs parts)
    {x : α} (hx : P x) {clusters' : List α}
    (h : step same fuse (parts.map Prod.fst) x = .ok clusters') :
    ∃ parts', clusters' = parts'.map Prod.fst ∧
      IsPartition same fuse P apart (xs ++ [x]) parts' := by
  obtain ⟨q, hq, rfl⟩ := step_eq_ok.mp h
  obtain ⟨hfused, hperm, hapart⟩ := hparts
  rw [List.filter_map] at hq
  have hfound : ∀ p ∈ parts.filter ((fun c => same c x) ∘ Prod.fst),
      Fused same fuse P p.1 p.2 ∧ same p.1 x = true :=
    fun p hp => ⟨hfused p (List.mem_of_mem_filter hp), (List.mem_filter.mp hp).2⟩
  obtain ⟨S, hS, hSperm⟩ := fused_foldlM hfound (.single hx) (List.mem_singleton.mpr rfl) hq
  refine ⟨parts.filter ((fun c => !same c x) ∘ Prod.fst) ++ [(q, S)], ?_, ?_, ?_, ?_⟩
  · rw [List.map_append, List.filter_map]
    rfl
  · intro p hp
    rcases List.mem_append.mp hp with hp | hp
    · exact hfused p (List.mem_of_mem_filter hp)
    · rw [List.mem_singleton.mp hp]
      exact hS
  · rw [List.map_append, List.flatten_append]
    have hsplit : List.Perm
        (((parts.filter ((fun c => !same c x) ∘ Prod.fst)).map Prod.snd).flatten ++
          ((parts.filter ((fun c => same c x) ∘ Prod.fst)).map Prod.snd).flatten)
        (parts.map Prod.snd).flatten := by
      rw [← List.flatten_append, ← List.map_append]
      refine List.Perm.flatten (List.Perm.map _ ?_)
      refine List.perm_append_comm.trans ?_
      exact List.filter_append_perm ((fun c => same c x) ∘ Prod.fst) parts
    rw [List.map_singleton, List.flatten_singleton]
    refine (List.Perm.append_left _ hSperm).trans ?_
    rw [← List.append_assoc]
    exact List.Perm.append_right _ (hsplit.trans hperm)
  · refine List.pairwise_append.mpr
      ⟨hapart.sublist List.filter_sublist, List.pairwise_singleton _ _, ?_⟩
    intro p hp p' hp'
    rw [List.mem_singleton.mp hp']
    obtain ⟨hmem, hnot⟩ := List.mem_filter.mp hp
    have hother : same p.1 x = false := by
      simpa using hnot
    have hall : ∀ p' ∈ parts.filter ((fun c => same c x) ∘ Prod.fst),
        Fused same fuse P p'.1 p'.2 ∧ same p'.1 x = true ∧ apart p.1 p'.1 := by
      intro p' hp'
      obtain ⟨hmem', hsame⟩ := List.mem_filter.mp hp'
      refine ⟨hfused p' hmem', hsame, ?_⟩
      -- the two clusters are at different places: one matches the element and the other does not
      have hne : p ≠ p' := by
        rintro rfl
        exact Bool.noConfusion (hother.symm.trans hsame)
      have : Std.Symm fun p q : α × List α => apart p.1 q.1 := ⟨fun _ _ h => hkeeps.symm h⟩
      exact hapart.forall hmem hmem' hne
    exact apart_foldlM hkeeps hall (.single hx) (List.mem_singleton.mpr rfl) (hkeeps.new hother) hq

/-- **A run** leaves the clusters a partition of what has come in. -/
theorem exists_parts (hkeeps : KeepsApart same fuse P apart) {clusters : List α} :
    ∀ {xs done : List α} {parts : List (α × List α)},
      IsPartition same fuse P apart done parts → (∀ x ∈ xs, P x) →
      xs.foldlM (step same fuse) (parts.map Prod.fst) = .ok clusters →
      ∃ parts', clusters = parts'.map Prod.fst ∧
        IsPartition same fuse P apart (done ++ xs) parts'
  | [], done, parts, hparts, _, h => by
    cases pure_eq_ok.mp h
    rw [List.append_nil]
    exact ⟨parts, rfl, hparts⟩
  | x :: xs, done, parts, hparts, hP, h => by
    obtain ⟨clusters', hstep, h⟩ := foldlM_cons_eq_ok.mp h
    obtain ⟨hx, hxs⟩ := List.forall_mem_cons.mp hP
    obtain ⟨parts', rfl, hparts'⟩ := isPartition_step hkeeps hparts hx hstep
    obtain ⟨parts'', hclusters, hparts''⟩ := exists_parts hkeeps hparts' hxs h
    rw [List.append_assoc] at hparts''
    exact ⟨parts'', hclusters, hparts''⟩

theorem isPartition_nil : IsPartition same fuse P apart [] [] :=
  ⟨fun _ hp => (List.not_mem_nil hp).elim, List.Perm.refl _, List.Pairwise.nil⟩

/-- A cluster that no new element matches stays. -/
theorem mem_run {c : α} : ∀ {xs clusters clusters' : List α}, c ∈ clusters →
    (∀ x ∈ xs, same c x = false) → xs.foldlM (step same fuse) clusters = .ok clusters' →
      c ∈ clusters'
  | [], clusters, clusters', hc, _, h => by
    cases pure_eq_ok.mp h
    exact hc
  | x :: xs, clusters, clusters', hc, hother, h => by
    obtain ⟨next, hstep, h⟩ := foldlM_cons_eq_ok.mp h
    obtain ⟨hx, hxs⟩ := List.forall_mem_cons.mp hother
    obtain ⟨q, -, rfl⟩ := step_eq_ok.mp hstep
    refine mem_run (List.mem_append_left _ (List.mem_filter.mpr ⟨hc, ?_⟩)) hxs h
    rw [hx]
    rfl

/-- A run returns when a fusion of good elements returns a good one. -/
theorem run_returns {Good : α → Prop}
    (hfuse : ∀ {m acc : α}, Good m → Good acc → ∃ q, fuse m acc = .ok q ∧ Good q) :
    ∀ {xs clusters : List α}, (∀ c ∈ clusters, Good c) → (∀ x ∈ xs, Good x) →
      ∃ clusters', xs.foldlM (step same fuse) clusters = .ok clusters'
  | [], clusters, _, _ => ⟨clusters, rfl⟩
  | x :: xs, clusters, hclusters, hgood => by
    obtain ⟨hx, hxs⟩ := List.forall_mem_cons.mp hgood
    have hfold : ∀ {found : List α} {acc : α}, (∀ c ∈ found, Good c) → Good acc →
        ∃ q, found.foldlM (fun merged c => fuse c merged) acc = .ok q ∧ Good q := by
      intro found
      induction found with
      | nil => exact fun _ hacc => ⟨_, rfl, hacc⟩
      | cons c found ih =>
        intro acc hfound hacc
        obtain ⟨hc, hfound⟩ := List.forall_mem_cons.mp hfound
        obtain ⟨q, hq, hgoodq⟩ := hfuse hc hacc
        obtain ⟨q', hq', hgoodq'⟩ := ih hfound hgoodq
        exact ⟨q', foldlM_cons_eq_ok.mpr ⟨q, hq, hq'⟩, hgoodq'⟩
    obtain ⟨q, hq, hgoodq⟩ := hfold
      (fun c hc => hclusters c (List.mem_of_mem_filter (p := fun c => same c x) hc)) hx
    have hstep := step_eq_ok.mpr ⟨q, hq, rfl⟩
    have hnext : ∀ c ∈ (clusters.filter fun c => !same c x) ++ [q], Good c := by
      refine List.forall_mem_append.mpr ⟨fun c hc => hclusters c (List.mem_of_mem_filter hc), ?_⟩
      exact List.forall_mem_singleton.mpr hgoodq
    obtain ⟨clusters', h⟩ := run_returns hfuse hnext hxs
    exact ⟨clusters', foldlM_cons_eq_ok.mpr ⟨_, hstep, h⟩⟩

end Clustering
