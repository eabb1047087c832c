import SkCoord.Clustering.Linked

/-!
# Values that clusters take by preference

A cluster takes a value from the elements that it was made from: a preferred cluster gives its own
before one that is not preferred, and of two equals the one that was there first does.  `SettledOn`
says when the order of the elements makes no difference: `value_eq_of_settled`, and
`settled_of_value_eq` for the converse.
-/

namespace Clustering

open Python

universe u

variable {ε α : Type u} {β : Type*} {same : α → α → Bool} {fuse : α → α → Except ε α}
  {P : α → Prop} {pref : α → Bool} {value : α → Option β} {apart : α → α → Prop}
  {S T l r xs : List α} {a b c d : α} {v w : β}

/-- The value of a fusion is that of the preferred cluster, if it has one. -/
structure IsPreference (same : α → α → Bool) (fuse : α → α → Except ε α) (P : α → Prop)
    (pref : α → Bool) (value : α → Option β) : Prop where
  pref_fuse : ∀ {m acc q : α} {S T : List α}, Fused same fuse P m S → Fused same fuse P acc T →
    fuse m acc = .ok q → pref q = (pref m || pref acc)
  value_fuse : ∀ {m acc q : α} {S T : List α}, Fused same fuse P m S → Fused same fuse P acc T →
    fuse m acc = .ok q → value q = if pref acc && !pref m then (value acc).or (value m)
      else (value m).or (value acc)

/-- The element is not preferred or has no value. -/
def isOpen (pref : α → Bool) (value : α → Option β) (a : α) : Bool := !(pref a && (value a).isSome)

/-- The elements have one value, or the preferred ones do and the others come to a preferred one
that has none only through them. -/
def SettledOn (same : α → α → Bool) (pref : α → Bool) (value : α → Option β) (S : List α) : Prop :=
  (∀ i ∈ S, ∀ j ∈ S, ∀ v w, value i = some v → value j = some w → v = w) ∨
    ∃ v, (∃ i ∈ S, pref i = true ∧ value i = some v) ∧
      (∀ i ∈ S, ∀ w, pref i = true → value i = some w → w = v) ∧
      ∀ o ∈ S, ∀ i w, pref o = true → value o = none → value i = some w →
        Linked same (S.filter (isOpen pref value)) o i → w = v

theorem SettledOn.perm (h : SettledOn same pref value S) (hperm : S.Perm T) :
    SettledOn same pref value T := by
  have hsub : ∀ {i : α}, i ∈ T → i ∈ S := fun hi => hperm.symm.subset hi
  rcases h with hone | ⟨v, ⟨i, hi, hpi, hvi⟩, hvalued, hopen⟩
  · exact .inl fun i hi j hj => hone i (hsub hi) j (hsub hj)
  · refine .inr ⟨v, ⟨i, hperm.subset hi, hpi, hvi⟩, fun i hi => hvalued i (hsub hi), ?_⟩
    intro o ho i w hpo hnone hiw hoi
    exact hopen o (hsub ho) i w hpo hnone hiw (hoi.mono (hperm.symm.filter _).subset)

namespace IsPreference

/-! ### What a cluster has from its elements -/

theorem pref_iff (h : IsPreference same fuse P pref value) (hc : Fused same fuse P c S) :
    pref c = true ↔ ∃ i ∈ S, pref i = true := by
  induction hc with
  | single hx => simp
  | fuse hm hacc hx hsame hq ihm ihacc =>
    rw [h.pref_fuse hm hacc hq, Bool.or_eq_true, ihm, ihacc]
    simp only [List.mem_append, or_and_right, exists_or]

/-- The value of a cluster is that of one of its elements. -/
theorem exists_value (h : IsPreference same fuse P pref value) (hc : Fused same fuse P c S) :
    ∀ {v : β}, value c = some v → ∃ i ∈ S, value i = some v := by
  induction hc with
  | single hx => exact fun hv => ⟨_, List.mem_singleton.mpr rfl, hv⟩
  | @fuse m acc q x S T hm hacc hx hsame hq ihm ihacc =>
    intro v hv
    have hor : value m = some v ∨ value acc = some v := by
      rw [h.value_fuse hm hacc hq] at hv
      split at hv
      · exact ((Option.or_eq_some_iff.mp hv).imp_right And.right).symm
      · exact (Option.or_eq_some_iff.mp hv).imp_right And.right
    rcases hor with hv | hv
    · obtain ⟨i, hi, hiv⟩ := ihm hv
      exact ⟨i, List.mem_append_left _ hi, hiv⟩
    · obtain ⟨i, hi, hiv⟩ := ihacc hv
      exact ⟨i, List.mem_append_right _ hi, hiv⟩

/-- A cluster has a value when one of its elements has. -/
theorem isSome_value (h : IsPreference same fuse P pref value) (hc : Fused same fuse P c S) :
    ∀ i ∈ S, (value i).isSome = true → (value c).isSome = true := by
  induction hc with
  | single hx =>
    intro i hi hsome
    rwa [← List.mem_singleton.mp hi]
  | @fuse m acc q x S T hm hacc hx hsame hq ihm ihacc =>
    intro i hi hsome
    have hor : (value m).isSome = true ∨ (value acc).isSome = true :=
      (List.mem_append.mp hi).imp (fun hi => ihm i hi hsome) fun hi => ihacc i hi hsome
    rw [h.value_fuse hm hacc hq]
    split
    · rw [Option.isSome_or, Bool.or_eq_true]
      exact hor.symm
    · rw [Option.isSome_or, Bool.or_eq_true]
      exact hor

/-- A cluster of elements of a settled class: if it is preferred it has no other value, and it has
the value as soon as a preferred element that has it was fused. -/
theorem value_of_settled (h : IsPreference same fuse P pref value) (hby : ByMembers same fuse P)
    (hvalued : ∀ i ∈ S, ∀ w, pref i = true → value i = some w → w = v)
    (hopen : ∀ o ∈ S, ∀ i w, pref o = true → value o = none → value i = some w →
      Linked same (S.filter (isOpen pref value)) o i → w = v)
    (hc : Fused same fuse P c T) (hT : T ⊆ S) :
    (pref c = true → ∀ w, value c = some w → w = v) ∧
      ((∃ i ∈ T, isOpen pref value i = false) → value c = some v) := by
  induction hc with
  | @single x hx =>
    have hxS : x ∈ S := hT (List.mem_singleton.mpr rfl)
    refine ⟨fun hpref w hw => hvalued x hxS w hpref hw, ?_⟩
    rintro ⟨i, hi, hclosed⟩
    rw [List.mem_singleton.mp hi, isOpen, Bool.not_eq_false', Bool.and_eq_true,
      Option.isSome_iff_exists] at hclosed
    obtain ⟨hpref, w, hw⟩ := hclosed
    rw [hw, hvalued x hxS w hpref hw]
  | @fuse m acc q x T₁ T₂ hm hacc hx hsame hq ihm ihacc =>
    obtain ⟨hT₁, hT₂⟩ := List.append_subset.mp hT
    obtain ⟨hm₁, hm₂⟩ := ihm hT₁
    obtain ⟨hacc₁, hacc₂⟩ := ihacc hT₂
    -- a preferred element that has a value is in one of the two clusters
    have hclosed : (∃ i ∈ T₁ ++ T₂, isOpen pref value i = false) → value q = some v := by
      rintro ⟨i, hi, hi'⟩
      have hpref : pref i = true := by
        rw [isOpen, Bool.not_eq_false', Bool.and_eq_true] at hi'
        exact hi'.1
      rw [h.value_fuse hm hacc hq]
      rcases List.mem_append.mp hi with hi | hi
      · rw [(h.pref_iff hm).mpr ⟨i, hi, hpref⟩, hm₂ ⟨i, hi, hi'⟩, Bool.not_true, Bool.and_false,
          if_neg Bool.false_ne_true, Option.some_or]
      · rw [(h.pref_iff hacc).mpr ⟨i, hi, hpref⟩, hacc₂ ⟨i, hi, hi'⟩, Bool.true_and]
        cases hprefm : pref m with
        | false => rw [Bool.not_false, if_pos rfl, Option.some_or]
        | true =>
          rw [Bool.not_true, if_neg Bool.false_ne_true]
          cases hvm : value m with
          | none => rfl
          | some w => rw [hm₁ hprefm w hvm, Option.some_or]
    refine ⟨fun hpref w hw => ?_, hclosed⟩
    by_cases hsome : ∃ i ∈ T₁ ++ T₂, isOpen pref value i = false
    · exact Option.some.inj (hw.symm.trans (hclosed hsome))
    · -- all elements are open: the value comes from one that is linked to a preferred one
      have hfused := hm.fuse hacc hx hsame hq
      have hallOpen : ∀ i ∈ T₁ ++ T₂, isOpen pref value i = true := fun i hi =>
        Bool.not_eq_false _ ▸ fun hfalse => hsome ⟨i, hi, hfalse⟩
      have hsub : T₁ ++ T₂ ⊆ S.filter (isOpen pref value) := fun i hi =>
        List.mem_filter.mpr ⟨hT hi, hallOpen i hi⟩
      obtain ⟨o, ho, hpo⟩ := (h.pref_iff hfused).mp hpref
      obtain ⟨i, hi, hiw⟩ := h.exists_value hfused hw
      have hnone : value o = none := by
        have hopeno := hallOpen o ho
        rw [isOpen, hpo, Bool.true_and, Bool.not_eq_true', Option.isSome_eq_false_iff,
          Option.isNone_iff_eq_none] at hopeno
        exact hopeno
      exact hopen o (hT ho) i w hpo hnone hiw ((hby.linked hfused o ho i hi).mono hsub)

/-- **A settled value does not depend on the order** in which a class was fused. -/
theorem value_eq_of_settled (h : IsPreference same fuse P pref value) (hby : ByMembers same fuse P)
    (hsettled : SettledOn same pref value S) (hc : Fused same fuse P c S)
    (hd : Fused same fuse P d T) (hperm : S.Perm T) : value c = value d := by
  rcases hsettled with hone | ⟨v, ⟨i, hi, hpi, hvi⟩, hvalued, hopen⟩
  · have hsome : ∀ {v : β}, value c = some v → value d = some v := by
      intro v hv
      obtain ⟨i, hi, hiv⟩ := h.exists_value hc hv
      have hisSome := h.isSome_value hd i (hperm.subset hi) (Option.isSome_iff_exists.mpr ⟨v, hiv⟩)
      obtain ⟨w, hw⟩ := Option.isSome_iff_exists.mp hisSome
      obtain ⟨j, hj, hjw⟩ := h.exists_value hd hw
      rw [hw, hone i hi j (hperm.symm.subset hj) v w hiv hjw]
    cases hv : value c with
    | some v => exact (hsome hv).symm
    | none =>
      cases hw : value d with
      | none => rfl
      | some w =>
        obtain ⟨j, hj, hjw⟩ := h.exists_value hd hw
        have hisSome := h.isSome_value hc j (hperm.symm.subset hj)
          (Option.isSome_iff_exists.mpr ⟨w, hjw⟩)
        rw [hv] at hisSome
        exact absurd hisSome Bool.false_ne_true
  · have hclosed : isOpen pref value i = false := by
      rw [isOpen, hpi, hvi]
      rfl
    rw [(h.value_of_settled hby hvalued hopen hc (List.Subset.refl S)).2 ⟨i, hi, hclosed⟩,
      (h.value_of_settled hby hvalued hopen hd hperm.symm.subset).2
        ⟨i, hperm.subset hi, hclosed⟩]

end IsPreference

/-! ### Orders in which a class is one cluster all the time -/

/-- Every element but the first matches one before it. -/
def Grown (same : α → α → Bool) (l : List α) : Prop :=
  ∀ front x back, l = front ++ x :: back → front ≠ [] → ∃ s ∈ front, same s x = true

theorem grown_singleton (a : α) : Grown same [a] := by
  intro front x back h hne
  obtain ⟨y, front, rfl⟩ := List.exists_cons_of_ne_nil hne
  simp at h

theorem Grown.concat {x : α} (h : Grown same l) (ha : a ∈ l) (hax : same a x = true) :
    Grown same (l ++ [x]) := by
  intro front y back heq hne
  rcases List.eq_nil_or_concat' back with rfl | ⟨back, z, rfl⟩
  · obtain ⟨rfl, hxy⟩ := List.append_inj' heq rfl
    exact ⟨a, ha, List.head_eq_of_cons_eq hxy ▸ hax⟩
  · rw [← List.cons_append, ← List.append_assoc] at heq
    exact h front y back (List.append_inj' heq rfl).1 hne

/-- The elements, in this order, become one cluster. -/
def BecomesOne (same : α → α → Bool) (fuse : α → α → Except ε α) (l : List α) (c : α) : Prop :=
  l.foldlM (step same fuse) [] = .ok [c]

theorem BecomesOne.exists_fused (hkeeps : KeepsApart same fuse P apart) (hP : ∀ x ∈ l, P x)
    (h : BecomesOne same fuse l c) : ∃ S, Fused same fuse P c S ∧ S.Perm l := by
  obtain ⟨parts, hclusters, hparts⟩ := exists_parts hkeeps isPartition_nil hP h
  obtain ⟨p, rfl, rfl⟩ := List.map_eq_singleton_iff.mp hclusters.symm
  have hperm := hparts.perm
  rw [List.map_singleton, List.flatten_singleton, List.nil_append] at hperm
  exact ⟨p.2, hparts.fused p (List.mem_singleton.mpr rfl), hperm⟩

/-- **What a class becomes is a cluster of a run**: of the one in which the class comes in first. -/
theorem ByMembers.exists_run (hby : ByMembers same fuse P) (hP : ∀ x ∈ xs, P x)
    (hl : l.Perm (linkedClass same xs a)) (hc : BecomesOne same fuse l c) :
    ∃ order, List.Perm order xs ∧
      ∀ clusters, order.foldlM (step same fuse) [] = .ok clusters → c ∈ clusters := by
  classical
  refine ⟨l ++ xs.filter fun b => !decide (Linked same xs a b), ?_, fun clusters h => ?_⟩
  · refine (List.Perm.append_right _ hl).trans ?_
    exact List.filter_append_perm (fun b => decide (Linked same xs a b)) xs
  · have hlinked : ∀ x ∈ l, x ∈ xs ∧ Linked same xs a x := fun x hx =>
      mem_linkedClass.mp (hl.subset hx)
    obtain ⟨S, hS, hperm⟩ := hc.exists_fused hby.keeps fun x hx => hP x (hlinked x hx).1
    obtain ⟨first, hfirst, h⟩ := foldlM_append_eq_ok.mp h
    cases Except.ok.inj (hc.symm.trans hfirst)
    refine mem_run (List.mem_singleton.mpr rfl) (fun x hx => ?_) h
    -- what the cluster matches is linked to the class
    obtain ⟨hxs, hnot⟩ := List.mem_filter.mp hx
    refine Bool.eq_false_iff.mpr fun hsame => ?_
    obtain ⟨s, hs, hsx⟩ := hby.member hS (hP x hxs) hsame
    obtain ⟨hsxs, has⟩ := hlinked s (hperm.subset hs)
    have hax : Linked same xs a x := has.trans (.of_adjacent ⟨hsxs, hxs, hsx⟩)
    rw [decide_eq_true hax] at hnot
    exact Bool.noConfusion hnot

/-- A chain that leaves a list has a link that does. -/
theorem exists_crossing (hrefl : ∀ a, same a a = true) {ys : List α} (hys : ys ⊆ l ++ r)
    (h : Linked same ys a b) (ha : a ∈ l) (hb : b ∈ r) : ∃ s ∈ l, ∃ x ∈ r, same s x = true := by
  induction h with
  | refl => exact ⟨a, ha, a, hb, hrefl a⟩
  | @tail c b hac hcb ih =>
    rcases List.mem_append.mp (hys hcb.1) with hc | hc
    · exact ⟨c, hc, b, hb, hcb.2.2⟩
    · exact ih hc

/-- **A linked list can be ordered** so that every element matches one before it, from any start
that is ordered so already. -/
theorem exists_grown (hrefl : ∀ a, same a a = true) : ∀ {n : ℕ} {l r : List α}, r.length = n →
    Grown same l → (∀ b ∈ r, ∃ a ∈ l, Linked same (l ++ r) a b) →
      ∃ r', r'.Perm r ∧ Grown same (l ++ r')
  | 0, l, r, hlen, hl, _ => by
    rw [List.length_eq_zero_iff] at hlen
    subst hlen
    exact ⟨[], List.Perm.refl _, by rwa [List.append_nil]⟩
  | n + 1, l, r, hlen, hl, hlinked => by
    obtain ⟨b, hb⟩ := List.exists_mem_of_length_pos (by rw [hlen]; exact Nat.succ_pos n)
    obtain ⟨a, ha, hab⟩ := hlinked b hb
    obtain ⟨s, hs, x, hx, hsx⟩ := exists_crossing hrefl (List.Subset.refl _) hab ha hb
    obtain ⟨front, back, rfl⟩ := List.append_of_mem hx
    have hlen' : (front ++ back).length = n := by
      rw [List.length_append, List.length_cons] at hlen
      rw [List.length_append]
      omega
    have hsub : l ++ (front ++ x :: back) ⊆ (l ++ [x]) ++ (front ++ back) := by
      intro y hy
      simp only [List.mem_append, List.mem_cons, List.not_mem_nil, or_false] at hy ⊢
      tauto
    have hrest : ∀ b ∈ front ++ back, ∃ a ∈ l ++ [x],
        Linked same ((l ++ [x]) ++ (front ++ back)) a b := by
      intro b hb
      have hb' : b ∈ front ++ x :: back := by
        rcases List.mem_append.mp hb with hb | hb
        · exact List.mem_append_left _ hb
        · exact List.mem_append_right _ (List.mem_cons_of_mem _ hb)
      obtain ⟨a, ha, hab⟩ := hlinked b hb'
      exact ⟨a, List.mem_append_left _ ha, hab.mono hsub⟩
    obtain ⟨r', hperm, hgrown⟩ := exists_grown hrefl hlen' (hl.concat hs hsx) hrest
    refine ⟨x :: r', (hperm.cons x).trans List.perm_middle.symm, ?_⟩
    rw [← List.append_cons] at hgrown
    exact hgrown

/-- A linked list can be ordered so from any of its elements. -/
theorem exists_grown_from (hrefl : ∀ a, same a a = true) (ha : a ∈ S)
    (hlinked : ∀ b ∈ S, Linked same S a b) : ∃ r, ([a] ++ r).Perm S ∧ Grown same ([a] ++ r) := by
  obtain ⟨front, back, rfl⟩ := List.append_of_mem ha
  have hperm : ([a] ++ (front ++ back)).Perm (front ++ a :: back) := by
    rw [List.singleton_append]
    exact List.perm_middle.symm
  have hrest : ∀ b ∈ front ++ back, ∃ s ∈ [a], Linked same ([a] ++ (front ++ back)) s b := by
    intro b hb
    have hb' : b ∈ front ++ a :: back := hperm.subset (List.mem_append_right _ hb)
    exact ⟨a, List.mem_singleton.mpr rfl, (hlinked b hb').mono hperm.symm.subset⟩
  obtain ⟨r, hr, hgrown⟩ := exists_grown hrefl rfl (grown_singleton a) hrest
  exact ⟨r, (List.Perm.append_left [a] hr).trans hperm, hgrown⟩

namespace IsPreference

/-- A cluster that grows on keeps its value if it is preferred, or as long as no preferred element
has one. -/
theorem grown_run (h : IsPreference same fuse P pref value) (hby : ByMembers same fuse P) :
    ∀ {r l : List α} {c : α}, Fused same fuse P c l → Grown same (l ++ r) → (∀ x ∈ r, P x) →
      ∃ d, r.foldlM (step same fuse) [c] = .ok [d] ∧ Fused same fuse P d (l ++ r) ∧
        ∀ w, value c = some w →
          (pref c = true ∨ ∀ x ∈ r, pref x = true → value x = none) → value d = some w
  | [], l, c, hc, _, _ => by
    refine ⟨c, rfl, ?_, fun w hw _ => hw⟩
    rwa [List.append_nil]
  | x :: r, l, c, hc, hgrown, hP => by
    obtain ⟨hx, hr⟩ := List.forall_mem_cons.mp hP
    have hsingle : Fused same fuse P x [x] := .single hx
    -- the next element joins the cluster through the one that it was grown from
    obtain ⟨s, hs, hsx⟩ := hgrown l x r rfl hc.ne_nil
    have hcx : same c x = true := hby.joins hc hsingle hs (List.mem_singleton.mpr rfl) hsx
    obtain ⟨q, hq⟩ := hby.returns hc hsingle
    have hstep : step same fuse [c] x = .ok [q] := by
      refine step_eq_ok.mpr ⟨q, ?_, ?_⟩
      · have hfound : ([c].filter fun c => same c x) = [c] := by simp [hcx]
        rw [hfound]
        exact foldlM_cons_eq_ok.mpr ⟨q, hq, rfl⟩
      · simp [hcx]
    have hfused := hc.fuse hsingle (List.mem_singleton.mpr rfl) hcx hq
    rw [List.append_cons] at hgrown
    -- the induction goes on with the fused cluster
    obtain ⟨d, hd, hfused', hvalue⟩ := grown_run h hby hfused hgrown hr
    refine ⟨d, foldlM_cons_eq_ok.mpr ⟨[q], hstep, hd⟩, ?_, fun w hw hkept => ?_⟩
    · rwa [List.append_cons]
    · refine hvalue w ?_ ?_
      · rw [h.value_fuse hc hsingle hq]
        split
        · rename_i hother
          obtain ⟨hpx, hpc⟩ := Bool.and_eq_true_iff.mp hother
          rcases hkept with hkept | hkept
          · rw [hkept] at hpc
            exact Bool.noConfusion hpc
          · rw [hkept x List.mem_cons_self hpx, hw]
            rfl
        · rw [hw]
          rfl
      · rw [h.pref_fuse hc hsingle hq]
        rcases hkept with hkept | hkept
        · exact .inl (by rw [hkept, Bool.true_or])
        · exact .inr fun y hy => hkept y (List.mem_cons_of_mem _ hy)

/-- The class can come in so that one of its elements decides the value: a preferred one, or any
when no preferred one has a value. -/
theorem exists_order (h : IsPreference same fuse P pref value) (hby : ByMembers same fuse P)
    (hP : ∀ x ∈ S, P x) (hlinked : ∀ a ∈ S, ∀ b ∈ S, Linked same S a b) (ha : a ∈ S)
    (hw : value a = some w)
    (hfirst : pref a = true ∨ ∀ x ∈ S, pref x = true → value x = none) :
    ∃ l d, List.Perm l S ∧ BecomesOne same fuse l d ∧ value d = some w := by
  obtain ⟨r, hl, hgrown⟩ := exists_grown_from hby.refl ha (hlinked a ha)
  have hsub : ∀ x ∈ r, x ∈ S := fun x hx =>
    hl.subset (List.mem_append_right _ hx)
  obtain ⟨d, hd, -, hvalue⟩ := h.grown_run hby (.single (hP a ha)) hgrown fun x hx =>
    hP x (hsub x hx)
  refine ⟨[a] ++ r, d, hl, foldlM_cons_eq_ok.mpr ⟨[a], rfl, hd⟩, hvalue w hw ?_⟩
  exact hfirst.imp_right fun hnone x hx => hnone x (hsub x hx)

/-- The class can come in so that an open element decides the value, when it is linked through open
elements to a preferred one. -/
theorem exists_order_open (h : IsPreference same fuse P pref value) (hby : ByMembers same fuse P)
    (hP : ∀ x ∈ S, P x) (hlinked : ∀ a ∈ S, ∀ b ∈ S, Linked same S a b) (hb : b ∈ S)
    (hpref : pref b = true) (hnone : value b = none) (hw : value a = some w)
    (hopen : Linked same (S.filter (isOpen pref value)) b a) :
    ∃ l d, List.Perm l S ∧ BecomesOne same fuse l d ∧ value d = some w := by
  classical
  have hbopen : b ∈ S.filter (isOpen pref value) := by
    refine List.mem_filter.mpr ⟨hb, ?_⟩
    rw [isOpen, hnone, Option.isSome_none, Bool.and_false]
    rfl
  have haopen := hopen.mem hbopen
  have hab := hopen.symm hby.symm
  -- the open elements that are linked to it come in first
  obtain ⟨C, hC⟩ : ∃ C, linkedClass same (S.filter (isOpen pref value)) a = C := ⟨_, rfl⟩
  have haC : a ∈ C := hC ▸ mem_linkedClass.mpr ⟨haopen, Linked.refl a⟩
  have hbC : b ∈ C := hC ▸ mem_linkedClass.mpr ⟨hbopen, hab⟩
  have hCopen : ∀ x ∈ C, x ∈ S.filter (isOpen pref value) := fun x hx =>
    (mem_linkedClass.mp (hC.symm ▸ hx)).1
  have hClinked : ∀ x ∈ C, Linked same C a x := by
    intro x hx
    rw [← hC] at hx ⊢
    exact (mem_linkedClass.mp hx).2.linkedClass
  have hsplit : ∃ D, (C ++ D).Perm S := by
    have hsublist : C.Sublist S := hC ▸ List.filter_sublist.trans List.filter_sublist
    obtain ⟨D, hD⟩ := hsublist.exists_perm_append
    exact ⟨D, hD.symm⟩
  obtain ⟨D, hD⟩ := hsplit
  obtain ⟨r, hl, hgrown⟩ := exists_grown_from hby.refl haC hClinked
  have hall : (([a] ++ r) ++ D).Perm S := (List.Perm.append_right D hl).trans hD
  have hrestD : ∀ x ∈ D, ∃ s ∈ [a] ++ r, Linked same (([a] ++ r) ++ D) s x := by
    intro x hx
    refine ⟨a, List.mem_append_left _ (List.mem_singleton.mpr rfl), ?_⟩
    exact (hlinked a (List.mem_of_mem_filter haopen) x
      (hall.subset (List.mem_append_right _ hx))).mono hall.symm.subset
  obtain ⟨r', hr', hgrown'⟩ := exists_grown hby.refl rfl hgrown hrestD
  have hrS : ∀ x ∈ r, x ∈ S ∧ isOpen pref value x = true := fun x hx =>
    List.mem_filter.mp (hCopen x (hl.subset (List.mem_append_right _ hx)))
  obtain ⟨c, hc, hfused, hvalue⟩ := h.grown_run hby
    (.single (hP a (List.mem_of_mem_filter haopen))) hgrown fun x hx => hP x (hrS x hx).1
  have hcw : value c = some w := by
    refine hvalue w hw (.inr fun x hx hpx => ?_)
    have hopenx := (hrS x hx).2
    rw [isOpen, hpx, Bool.true_and, Bool.not_eq_true', Option.isSome_eq_false_iff,
      Option.isNone_iff_eq_none] at hopenx
    exact hopenx
  have hcpref : pref c = true := (h.pref_iff hfused).mpr ⟨b, hl.symm.subset hbC, hpref⟩
  obtain ⟨d, hd, -, hvalue'⟩ := h.grown_run hby hfused hgrown' fun x hx =>
    hP x (hall.subset (List.mem_append_right _ (hr'.subset hx)))
  refine ⟨([a] ++ r) ++ r', d, (List.Perm.append_left _ hr').trans hall, ?_,
    hvalue' w hcw (.inl hcpref)⟩
  exact foldlM_append_eq_ok.mpr ⟨[c], foldlM_cons_eq_ok.mpr ⟨[a], rfl, hc⟩, hd⟩

/-- **A value that does not depend on the order is settled.** -/
theorem settled_of_value_eq (h : IsPreference same fuse P pref value) (hby : ByMembers same fuse P)
    (hP : ∀ x ∈ S, P x) (hlinked : ∀ a ∈ S, ∀ b ∈ S, Linked same S a b)
    (hsame : ∀ {l l' : List α} {c d : α}, l.Perm S → l'.Perm S →
      BecomesOne same fuse l c → BecomesOne same fuse l' d → value c = value d) :
    SettledOn same pref value S := by
  have heq : ∀ {v w : β}, (∃ l c, List.Perm l S ∧ BecomesOne same fuse l c ∧ value c = some v) →
      (∃ l d, List.Perm l S ∧ BecomesOne same fuse l d ∧ value d = some w) → v = w := by
    rintro v w ⟨l, c, hl, hc, hv⟩ ⟨l', d, hl', hd, hw⟩
    exact Option.some.inj (hv.symm.trans ((hsame hl hl' hc hd).trans hw))
  by_cases hclosed : ∃ i ∈ S, ∃ v, pref i = true ∧ value i = some v
  · obtain ⟨i, hi, v, hpi, hvi⟩ := hclosed
    have hfirst := h.exists_order hby hP hlinked hi hvi (.inl hpi)
    refine .inr ⟨v, ⟨i, hi, hpi, hvi⟩, fun j hj w hpj hwj => ?_,
      fun o ho j w hpo hnone hwj hoj => ?_⟩
    · exact heq (h.exists_order hby hP hlinked hj hwj (.inl hpj)) hfirst
    · exact heq (h.exists_order_open hby hP hlinked ho hpo hnone hwj hoj) hfirst
  · have hnone : ∀ x ∈ S, pref x = true → value x = none := by
      intro x hx hpx
      by_contra hne
      obtain ⟨v, hv⟩ := Option.ne_none_iff_exists'.mp hne
      exact hclosed ⟨x, hx, v, hpx, hv⟩
    refine .inl fun i hi j hj v w hvi hwj => ?_
    exact heq (h.exists_order hby hP hlinked hi hvi (.inr hnone))
      (h.exists_order hby hP hlinked hj hwj (.inr hnone))

end IsPreference

end Clustering
