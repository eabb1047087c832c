import SkCoord.Clustering.Alone
import SkCoord.Cmdb.Equiv.MergedFields

/-!
# Merging in another order

`merge_order_iff`: where sightings that are linked to others are recognised by what they share
(`IsRegular`), the merge of a batch does not depend on the order of its sightings if and only if the
sightings of every identity are settled about the fields that a record takes over from one of them.

A batch whose sightings are all regular (`IsShared`) is merged by its sightings (`byMembers`).  A
sighting that nothing else is linked to is merged with nothing, whatever it is called
(`merge_beside`), so the merge of a regular batch is the merge of the others beside it.
-/

namespace SkCoord.Cmdb

open Python Clustering

variable {u : CharTables} {r s : DiscoveredCI} {items items' out out' S T : List DiscoveredCI}

/-! ### Regular batches -/

/-- Hosts and devices with one identifier share an alias, unless all sightings that are linked to
them have that identifier. -/
def SharesIds (u : CharTables) (items : List DiscoveredCI) : Prop :=
  ∀ i ∈ items, ∀ j ∈ items, isIdentityType i.ciType = true → i.ciType = j.ciType →
    i.ciId u = j.ciId u → (∃ a ∈ i.identityAliases u, a ∈ j.identityAliases u) ∨
      ∀ k, Linked (DiscoveredCI.sameIdentity u) items i k → k.ciId u = i.ciId u

/-- Sightings that are linked to others have names and stable aliases, and those with one identifier
are recognised. -/
structure IsRegular (u : CharTables) (items : List DiscoveredCI) : Prop where
  sighting : ∀ i ∈ items, ¬IsAlone (DiscoveredCI.sameIdentity u) items i → i.IsSighting
  stable : ∀ i ∈ items, ¬IsAlone (DiscoveredCI.sameIdentity u) items i → i.StableAliases u
  sharesIds : SharesIds u items

/-- All sightings have names and stable aliases, and those with one identifier are recognised. -/
structure IsShared (u : CharTables) (items : List DiscoveredCI) : Prop where
  sighting : ∀ i ∈ items, i.IsSighting
  stable : ∀ i ∈ items, i.StableAliases u
  sharesIds : SharesIds u items

/-- A stable sighting of the batch. -/
def InBatch (u : CharTables) (items : List DiscoveredCI) (i : DiscoveredCI) : Prop :=
  i.IsStable u ∧ i ∈ items

theorem sameIdentity_refl (u : CharTables) (r : DiscoveredCI) : r.sameIdentity u r = true :=
  sameIdentity_iff.mpr ⟨rfl, .inl rfl⟩

/-- What is of one identity with a record is so with one of its sightings. -/
theorem IsRecord.exists_same {P : DiscoveredCI → Prop} (hP : ∀ {i : DiscoveredCI}, P i → i.IsStable u)
    {x : DiscoveredCI} (h : IsRecord u P r S) (hsame : r.sameIdentity u x = true) :
    ∃ i ∈ S, i.sameIdentity u x = true := by
  obtain ⟨htype, hid | ⟨hidentity, a, har, hax⟩⟩ := sameIdentity_iff.mp hsame
  · obtain ⟨i, hi, hid'⟩ := IsRecord.exists_ciId (fun hi => (hP hi).1) h
    exact ⟨i, hi, sameIdentity_iff.mpr
      ⟨(IsRecord.ciType h i hi).trans htype, .inl (hid'.trans hid)⟩⟩
  · obtain ⟨i, hi, hai⟩ :=
      ((IsRecord.aliases (fun hi => (hP hi).1) (fun hi => (hP hi).2) h).2 a).mp har
    exact ⟨i, hi, sameIdentity_iff.mpr
      ⟨(IsRecord.ciType h i hi).trans htype, .inr ⟨hidentity, a, hai, hax⟩⟩⟩

/-- Records of sightings that share an alias share it. -/
theorem IsRecord.same_of_alias {P : DiscoveredCI → Prop}
    (hP : ∀ {i : DiscoveredCI}, P i → i.IsStable u) (hr : IsRecord u P r S) (hs : IsRecord u P s T)
    {i j : DiscoveredCI} (hi : i ∈ S) (hj : j ∈ T) (htype : i.ciType = j.ciType)
    (hidentity : isIdentityType i.ciType = true) {a : String} (hai : a ∈ i.identityAliases u)
    (haj : a ∈ j.identityAliases u) : r.sameIdentity u s = true := by
  have hrtype := IsRecord.ciType hr i hi
  have hstype := IsRecord.ciType hs j hj
  refine sameIdentity_iff.mpr ⟨hrtype.symm.trans (htype.trans hstype),
    .inr ⟨hstype ▸ htype ▸ hidentity, a, ?_, ?_⟩⟩
  · exact ((IsRecord.aliases (fun hi => (hP hi).1) (fun hi => (hP hi).2) hr).2 a).mpr ⟨i, hi, hai⟩
  · exact ((IsRecord.aliases (fun hi => (hP hi).1) (fun hi => (hP hi).2) hs).2 a).mpr ⟨j, hj, haj⟩

/-- **The merge of such a batch goes by its sightings**: records are of one identity when two of
their sightings are. -/
theorem byMembers (h : IsShared u items) : ByMembers (DiscoveredCI.sameIdentity u)
    (DiscoveredCI.mergedWith u) (InBatch u items) where
  symm := fun _ _ => sameIdentity_comm
  refl := sameIdentity_refl u
  member := fun hm _ hsame => IsRecord.exists_same And.left hm hsame
  keeps := keepsApart_otherIdentity.mono And.left
  returns := fun hc hd => by
    obtain ⟨q, hq, -⟩ := exists_mergedWith (u := u)
      (IsRecord.isSighting (fun hi => hi.1.1) hc) (IsRecord.isSighting (fun hi => hi.1.1) hd)
    exact ⟨q, hq⟩
  joins := by
    intro c d i j S T hc hd hi hj hsame
    obtain ⟨htype, hid | ⟨hidentity, a, hai, haj⟩⟩ := sameIdentity_iff.mp hsame
    · have hctype := IsRecord.ciType hc i hi
      have hdtype := IsRecord.ciType hd j hj
      have hboth : c.ciType = d.ciType := hctype.symm.trans (htype.trans hdtype)
      cases hidentity : isIdentityType i.ciType with
      | false =>
        have hcid := IsRecord.ciId (fun hi => hi.1.1) hc (hctype ▸ hidentity) i hi
        have hdid := IsRecord.ciId (fun hi => hi.1.1) hd (hdtype ▸ htype ▸ hidentity) j hj
        exact sameIdentity_iff.mpr ⟨hboth, .inl (hcid.symm.trans (hid.trans hdid))⟩
      | true =>
        rcases h.sharesIds i (hc.of_mem i hi).2 j (hd.of_mem j hj).2 hidentity htype hid with
          ⟨a, hai, haj⟩ | hall
        · exact IsRecord.same_of_alias And.left hc hd hi hj htype hidentity hai haj
        · -- all that is linked to the two has their identifier, and the records have it from there
          have hlinked := fun {e : DiscoveredCI} {U : List DiscoveredCI}
              (he : IsRecord u (InBatch u items) e U) =>
            he.linked (fun _ _ => sameIdentity_comm)
              (fun hm _ hsame => IsRecord.exists_same And.left hm hsame)
          obtain ⟨k, hk, hkid⟩ := IsRecord.exists_ciId (fun hi => hi.1.1) hc
          obtain ⟨l, hl, hlid⟩ := IsRecord.exists_ciId (fun hi => hi.1.1) hd
          have hik : Linked (DiscoveredCI.sameIdentity u) items i k :=
            (hlinked hc i hi k hk).mono fun x hx => (hc.of_mem x hx).2
          have hjl : Linked (DiscoveredCI.sameIdentity u) items j l :=
            (hlinked hd j hj l hl).mono fun x hx => (hd.of_mem x hx).2
          have hij : Linked (DiscoveredCI.sameIdentity u) items i j :=
            .of_adjacent ⟨(hc.of_mem i hi).2, (hd.of_mem j hj).2, hsame⟩
          refine sameIdentity_iff.mpr ⟨hboth, .inl ?_⟩
          rw [← hkid, ← hlid, hall k hik, hall l (hij.trans hjl)]
    · exact IsRecord.same_of_alias And.left hc hd hi hj htype (htype ▸ hidentity) hai haj

/-! ### Two orders of one batch -/

/-- The records of a merge are those of any other order of the batch. -/
def OrderIndependent (u : CharTables) (items : List DiscoveredCI) : Prop :=
  ∀ items', items'.Perm items → ∃ out out', merge u items = .ok out ∧ merge u items' = .ok out' ∧
    List.Forall₂ SameRecord out out'

/-- The sightings of every identity are settled: among the sightings linked to one another no order
can prefer another value. -/
def BatchSettled (u : CharTables) (items : List DiscoveredCI) : Prop :=
  ∀ i ∈ items, IsSettled u (linkedClass (DiscoveredCI.sameIdentity u) items i)

theorem IsSettled.perm (h : IsSettled u S) (hperm : S.Perm T) : IsSettled u T where
  name := h.name.perm hperm
  schemaVersion := h.schemaVersion.perm hperm
  node := h.node.perm hperm
  description := h.description.perm hperm
  scanId := h.scanId.perm hperm
  lifecycleScope := h.lifecycleScope.perm hperm
  attributes := fun key => (h.attributes key).perm hperm

/-- The key by which records are sorted. -/
def sortKey (r : DiscoveredCI) : String ×ₗ String := toLex (r.ciType, r.label)

theorem SameRecord.sortKey (h : SameRecord r s) : sortKey r = sortKey s := by
  rw [h.fields]
  rfl

theorem OtherIdentity.sortKey_ne (h : OtherIdentity u r s) : sortKey r ≠ sortKey s := by
  intro hkey
  obtain ⟨htype, hlabel⟩ := Prod.mk.inj (toLex.injective hkey)
  refine h.otherId htype ?_
  rw [DiscoveredCI.ciId, DiscoveredCI.ciId, htype, hlabel]

/-- The records of a merge are in the order of their keys. -/
theorem pairwise_sortKey (h : merge u items = .ok out) : (out.map sortKey).Pairwise (· ≤ ·) := by
  obtain ⟨folded, -, h⟩ := bind_eq_ok.mp h
  rw [← pure_eq_ok.mp h, List.map_insertionSort (fun x y => toLex (x.ciType, x.label) ≤
    toLex (y.ciType, y.label)) (· ≤ ·) sortKey _ fun _ _ _ _ => Iff.rfl]
  exact List.pairwise_insertionSort _ _

/-- Lists with the same distinct keys are related where every element of one has a relative in the
other with its key. -/
theorem forall₂_of_keys {α κ : Type} {key : α → κ} {R : α → α → Prop}
    (hR : ∀ a b, R a b → key a = key b) : ∀ {l m : List α}, l.map key = m.map key →
      (m.map key).Nodup → (∀ a ∈ l, ∃ b ∈ m, R a b) → List.Forall₂ R l m
  | [], [], _, _, _ => .nil
  | [], _ :: _, hkeys, _, _ => by cases hkeys
  | _ :: _, [], hkeys, _, _ => by cases hkeys
  | a :: l, b :: m, hkeys, hnodup, h => by
    obtain ⟨hab, hrest⟩ := List.cons_eq_cons.mp hkeys
    obtain ⟨hb, hnodup⟩ := List.nodup_cons.mp hnodup
    obtain ⟨ha, hl⟩ := List.forall_mem_cons.mp h
    refine .cons ?_ (forall₂_of_keys hR hrest hnodup fun a' ha' => ?_)
    · obtain ⟨b', hb', hrel⟩ := ha
      rcases List.mem_cons.mp hb' with rfl | hb'
      · exact hrel
      · exact absurd (List.mem_map_of_mem hb') ((hR _ _ hrel).symm.trans hab ▸ hb)
    · obtain ⟨b', hb', hrel⟩ := hl a' ha'
      rcases List.mem_cons.mp hb' with rfl | hb'
      · have hmem : key a' ∈ m.map key := by
          rw [← hrest]
          exact List.mem_map_of_mem ha'
        rw [hR _ _ hrel] at hmem
        exact absurd hmem hb
      · exact ⟨b', hb', hrel⟩

/-- Records of other identities have other keys. -/
theorem nodup_sortKey (h : out.Pairwise (OtherIdentity u)) : (out.map sortKey).Nodup :=
  List.pairwise_map.mpr (h.imp fun hother => hother.sortKey_ne)

/-- Two merges are the same where each record of one is the same as a record of the other. -/
theorem forall₂_sameRecord (hout : merge u items = .ok out) (hout' : merge u items' = .ok out')
    (hapart : out.Pairwise (OtherIdentity u)) (hapart' : out'.Pairwise (OtherIdentity u))
    (hexists : ∀ r ∈ out, ∃ s ∈ out', SameRecord r s)
    (hexists' : ∀ s ∈ out', ∃ r ∈ out, SameRecord r s) : List.Forall₂ SameRecord out out' := by
  have hkeys : out.map sortKey = out'.map sortKey := by
    refine List.Perm.eq_of_pairwise' (pairwise_sortKey hout) (pairwise_sortKey hout') ?_
    refine (List.perm_ext_iff_of_nodup (nodup_sortKey hapart) (nodup_sortKey hapart')).mpr fun k => ?_
    simp only [List.mem_map]
    constructor
    · rintro ⟨r, hr, rfl⟩
      obtain ⟨s, hs, hrs⟩ := hexists r hr
      exact ⟨s, hs, hrs.sortKey.symm⟩
    · rintro ⟨s, hs, rfl⟩
      obtain ⟨r, hr, hrs⟩ := hexists' s hs
      exact ⟨r, hr, hrs.sortKey⟩
  exact forall₂_of_keys (fun _ _ h => h.sortKey) hkeys (nodup_sortKey hapart') hexists

/-- **One direction**: a settled batch has the same records in every order. -/
theorem IsShared.orderIndependent (h : IsShared u items) (hsettled : BatchSettled u items) :
    OrderIndependent u items := by
  intro items' hperm
  have hby := byMembers h
  have hP : ∀ i ∈ items, InBatch u items i := fun i hi =>
    ⟨⟨h.sighting i hi, h.stable i hi⟩, hi⟩
  have hP' : ∀ i ∈ items', InBatch u items i := fun i hi => hP i (hperm.subset hi)
  obtain ⟨out, hout⟩ := merge_returns (u := u) h.sighting
  obtain ⟨out', hout'⟩ := merge_returns (u := u) fun i hi => h.sighting i (hperm.subset hi)
  refine ⟨out, out', hout, hout', ?_⟩
  obtain ⟨parts, hpermOut, hparts⟩ := exists_records hby.keeps hP hout
  obtain ⟨parts', hpermOut', hparts'⟩ := exists_records hby.keeps hP' hout'
  -- a record of one order and a record of another that share a sighting are the same
  have hsame : ∀ {p p' : DiscoveredCI × List DiscoveredCI} {i : DiscoveredCI}, p ∈ parts →
      p' ∈ parts' → i ∈ p.2 → i ∈ p'.2 → SameRecord p.1 p'.1 := by
    intro p p' i hp hp' hi hi'
    have hclass := hby.perm_linkedClass hparts hp hi
    have hclass' := (hby.perm_linkedClass hparts' hp' hi').trans (linkedClass_perm hperm i)
    exact sameRecord_of_perm (fun hi => hi.1.1) (fun hi => hi.1.2) hby
      ((hsettled i (hparts.subset hp hi)).perm hclass.symm) (hparts.fused p hp)
      (hparts'.fused p' hp') (hclass.trans hclass'.symm)
  have hexists : ∀ r ∈ out, ∃ s ∈ out', SameRecord r s := by
    intro r hr
    obtain ⟨p, hp, rfl⟩ := List.mem_map.mp (hpermOut.subset hr)
    obtain ⟨i, hi⟩ := List.exists_mem_of_ne_nil p.2 (hparts.fused p hp).ne_nil
    obtain ⟨p', hp', hi'⟩ := hparts'.exists_mem (hperm.symm.subset (hparts.subset hp hi))
    exact ⟨p'.1, hpermOut'.symm.subset (List.mem_map_of_mem hp'), hsame hp hp' hi hi'⟩
  have hexists' : ∀ s ∈ out', ∃ r ∈ out, SameRecord r s := by
    intro s hs
    obtain ⟨p', hp', rfl⟩ := List.mem_map.mp (hpermOut'.subset hs)
    obtain ⟨i, hi'⟩ := List.exists_mem_of_ne_nil p'.2 (hparts'.fused p' hp').ne_nil
    obtain ⟨p, hp, hi⟩ := hparts.exists_mem (hperm.subset (hparts'.subset hp' hi'))
    exact ⟨p.1, hpermOut.symm.subset (List.mem_map_of_mem hp), hsame hp hp' hi hi'⟩
  exact forall₂_sameRecord hout hout' (pairwise_records hby.keeps.symm hpermOut hparts)
    (pairwise_records hby.keeps.symm hpermOut' hparts') hexists hexists'

/-! ### The other direction -/

theorem exists_of_forall₂ {α β : Type} {R : α → β → Prop} {l : List α} {m : List β}
    (h : List.Forall₂ R l m) {b : β} (hb : b ∈ m) : ∃ a ∈ l, R a b := by
  induction h with
  | nil => exact (List.not_mem_nil hb).elim
  | cons hab _ ih =>
    rcases List.mem_cons.mp hb with rfl | hb
    · exact ⟨_, List.mem_cons_self, hab⟩
    · obtain ⟨a', ha', hrel⟩ := ih hb
      exact ⟨a', List.mem_cons_of_mem _ ha', hrel⟩

theorem exists_of_forall₂_left {α β : Type} {R : α → β → Prop} {l : List α} {m : List β}
    (h : List.Forall₂ R l m) {a : α} (ha : a ∈ l) : ∃ b ∈ m, R a b :=
  (exists_of_forall₂ h.flip ha).imp fun _ hb => hb

/-- The attributes of a record have no part in its identity. -/
theorem SameRecord.sameIdentity_eq {r' s' : DiscoveredCI} (h : SameRecord r s)
    (h' : SameRecord r' s') : r.sameIdentity u r' = s.sameIdentity u s' := by
  rw [h.fields, h'.fields]
  rfl

/-- What an identity becomes is the same in every order when the records of the batch are. -/
theorem IsShared.sameRecord (h : IsShared u items) (hindependent : OrderIndependent u items)
    {i c d : DiscoveredCI} (hi : i ∈ items) {l l' : List DiscoveredCI}
    (hl : l.Perm (linkedClass (DiscoveredCI.sameIdentity u) items i))
    (hl' : l'.Perm (linkedClass (DiscoveredCI.sameIdentity u) items i))
    (hc : BecomesOne (DiscoveredCI.sameIdentity u) (DiscoveredCI.mergedWith u) l c)
    (hd : BecomesOne (DiscoveredCI.sameIdentity u) (DiscoveredCI.mergedWith u) l' d) :
    SameRecord c d := by
  have hby := byMembers h
  have hP : ∀ i ∈ items, InBatch u items i := fun i hi => ⟨⟨h.sighting i hi, h.stable i hi⟩, hi⟩
  have hiclass : i ∈ linkedClass (DiscoveredCI.sameIdentity u) items i :=
    mem_linkedClass.mpr ⟨hi, Linked.refl i⟩
  obtain ⟨out, hout⟩ := merge_returns (u := u) h.sighting
  -- it is made from the sighting, and it is the same as a record of the batch
  have hrecord : ∀ {l : List DiscoveredCI} {c : DiscoveredCI},
      l.Perm (linkedClass (DiscoveredCI.sameIdentity u) items i) →
      BecomesOne (DiscoveredCI.sameIdentity u) (DiscoveredCI.mergedWith u) l c →
      (∃ S, IsRecord u (InBatch u items) c S ∧ i ∈ S) ∧ ∃ r ∈ out, SameRecord r c := by
    intro l c hl hc
    obtain ⟨S, hS, hperm⟩ := hc.exists_fused hby.keeps fun x hx =>
      hP x (mem_linkedClass.mp (hl.subset hx)).1
    refine ⟨⟨S, hS, hperm.symm.subset (hl.symm.subset hiclass)⟩, ?_⟩
    obtain ⟨order, horder, hmem⟩ := hby.exists_run hP hl hc
    obtain ⟨out₁, out₂, hout₁, hout₂, hall⟩ := hindependent order horder
    cases Except.ok.inj (hout.symm.trans hout₁)
    obtain ⟨folded, hfolded, hsorted⟩ := bind_eq_ok.mp hout₂
    refine exists_of_forall₂ hall ?_
    rw [← pure_eq_ok.mp hsorted, List.mem_insertionSort]
    rw [mergeStep_eq] at hfolded
    exact hmem folded hfolded
  obtain ⟨⟨S, hS, hiS⟩, r, hr, hrc⟩ := hrecord hl hc
  obtain ⟨⟨T, hT, hiT⟩, s, hs, hsd⟩ := hrecord hl' hd
  -- the two records are of one identity, so they are one
  obtain ⟨parts, hperm, hparts⟩ := exists_records hby.keeps hP hout
  have hrs : r = s := by
    refine eq_of_not_apart hby.keeps.symm (pairwise_records hby.keeps.symm hperm hparts) hr hs ?_
    rw [hrc.sameIdentity_eq hsd, hby.joins hS hT hiS hiT (hby.refl i)]
    exact Bool.noConfusion
  subst hrs
  exact hrc.symm.trans hsd

/-- **The other direction**: a batch with the same records in every order is settled. -/
theorem IsShared.batchSettled (h : IsShared u items) (hindependent : OrderIndependent u items) :
    BatchSettled u items := by
  intro i hi
  have hby := byMembers h
  have hP : ∀ x ∈ linkedClass (DiscoveredCI.sameIdentity u) items i, InBatch u items x :=
    fun x hx =>
      have hx := (mem_linkedClass.mp hx).1
      ⟨⟨h.sighting x hx, h.stable x hx⟩, hx⟩
  have hlinked : ∀ a ∈ linkedClass (DiscoveredCI.sameIdentity u) items i,
      ∀ b ∈ linkedClass (DiscoveredCI.sameIdentity u) items i,
      Linked (DiscoveredCI.sameIdentity u) (linkedClass (DiscoveredCI.sameIdentity u) items i) a b := by
    intro a ha b hb
    have hia := (mem_linkedClass.mp ha).2.linkedClass
    exact (hia.symm hby.symm).trans (mem_linkedClass.mp hb).2.linkedClass
  -- every field is one that the records of the identity share
  have hfield : ∀ {β : Type} {value : DiscoveredCI → Option β},
      IsPreference (DiscoveredCI.sameIdentity u) (DiscoveredCI.mergedWith u) (InBatch u items)
        DiscoveredCI.observed value →
      (∀ {c d : DiscoveredCI}, SameRecord c d → value c = value d) →
      SettledOn (DiscoveredCI.sameIdentity u) DiscoveredCI.observed value
        (linkedClass (DiscoveredCI.sameIdentity u) items i) := fun hpref hvalue =>
    hpref.settled_of_value_eq hby hP hlinked fun hl hl' hc hd =>
      hvalue (h.sameRecord hindependent hi hl hl' hc hd)
  have hsighting : ∀ {x : DiscoveredCI}, InBatch u items x → x.IsSighting := fun hx => hx.1.1
  exact
    { name := hfield (isPreference_name hsighting) fun hsame => by rw [hsame.fields]
      schemaVersion := hfield (isPreference_schemaVersion hsighting) fun hsame => by
        rw [hsame.fields]
      node := hfield (isPreference_node hsighting) fun hsame => by rw [hsame.fields]
      description := hfield (isPreference_description hsighting) fun hsame => by rw [hsame.fields]
      scanId := hfield (isPreference_scanId hsighting) fun hsame => by rw [hsame.fields]
      lifecycleScope := hfield (isPreference_lifecycleScope hsighting) fun hsame => by
        rw [hsame.fields]
      attributes := fun key => hfield (isPreference_attribute hsighting key) fun hsame =>
        hsame.attribute key }

/-- Such a batch has the same records in every order if and only if it is settled. -/
theorem IsShared.order_iff (h : IsShared u items) : OrderIndependent u items ↔ BatchSettled u items :=
  ⟨h.batchSettled, h.orderIndependent⟩

/-! ### Sightings that are alone -/

/-- The sightings of a batch that are linked to others. -/
noncomputable abbrev linkedSightings (u : CharTables) (items items' : List DiscoveredCI) :
    List DiscoveredCI :=
  together (DiscoveredCI.sameIdentity u) items items'

/-- The sightings of a batch that nothing else is linked to. -/
noncomputable abbrev loneSightings (u : CharTables) (items items' : List DiscoveredCI) :
    List DiscoveredCI :=
  alone (DiscoveredCI.sameIdentity u) items items'

theorem IsRegular.isShared (h : IsRegular u items) : IsShared u (linkedSightings u items items) where
  sighting := fun i hi => h.sighting i (mem_together.mp hi).1 (mem_together.mp hi).2
  stable := fun i hi => h.stable i (mem_together.mp hi).1 (mem_together.mp hi).2
  sharesIds := by
    intro i hi j hj hidentity htype hid
    rcases h.sharesIds i (together_subset hi) j (together_subset hj) hidentity htype hid with
      hshared | hall
    · exact .inl hshared
    · exact .inr fun k hk => hall k (hk.mono together_subset)

theorem matchesMembers (u : CharTables) (items : List DiscoveredCI) :
    MatchesMembers (DiscoveredCI.sameIdentity u) (DiscoveredCI.mergedWith u) (InBatch u items) :=
  fun hm hsame => IsRecord.exists_same And.left hm hsame

/-- The sightings that are linked to others are settled if all are. -/
theorem batchSettled_linked_iff :
    BatchSettled u (linkedSightings u items items) ↔ BatchSettled u items := by
  constructor
  · intro h i hi
    by_cases halone : IsAlone (DiscoveredCI.sameIdentity u) items i
    · -- one sighting agrees with itself
      rw [show linkedClass (DiscoveredCI.sameIdentity u) items i = [i] from halone]
      have hone : ∀ {β : Type} {value : DiscoveredCI → Option β},
          SettledOn (DiscoveredCI.sameIdentity u) DiscoveredCI.observed value [i] := by
        intro β value
        refine .inl fun x hx y hy v w hv hw => ?_
        rw [List.mem_singleton.mp hx] at hv
        rw [List.mem_singleton.mp hy] at hw
        exact Option.some.inj (hv.symm.trans hw)
      exact ⟨hone, hone, hone, hone, hone, hone, fun key => hone⟩
    · have hi' : i ∈ linkedSightings u items items := mem_together.mpr ⟨hi, halone⟩
      rw [← linkedClass_together (fun _ _ => sameIdentity_comm) hi']
      exact h i hi'
  · intro h i hi
    rw [linkedClass_together (fun _ _ => sameIdentity_comm) hi]
    exact h i (together_subset hi)

/-- **A sighting that is alone is merged with nothing**: an order of a regular batch is merged as
its linked sightings are, with the others beside them. -/
theorem merge_beside (h : IsRegular u items) (hperm : items'.Perm items) :
    ∃ out out', merge u items' = .ok out ∧ merge u (linkedSightings u items items') = .ok out' ∧
      out.Perm (out' ++ loneSightings u items items') ∧
      out'.Pairwise (OtherIdentity u) ∧ out.Pairwise (OtherIdentity u) := by
  have hshared := h.isShared
  have hby := byMembers hshared
  have hP : ∀ i ∈ linkedSightings u items items, InBatch u (linkedSightings u items items) i :=
    fun i hi => ⟨⟨hshared.sighting i hi, hshared.stable i hi⟩, hi⟩
  have hlinked : (linkedSightings u items items').Perm (linkedSightings u items items) :=
    together_perm hperm
  have hsightings : ∀ i ∈ linkedSightings u items items', i.IsSighting :=
    fun i hi => hshared.sighting i (hlinked.subset hi)
  obtain ⟨out', hout'⟩ := merge_returns (u := u) hsightings
  obtain ⟨parts, hpermOut, hparts⟩ := exists_records hby.keeps (fun i hi => hP i (hlinked.subset hi))
    hout'
  have hapart := pairwise_records hby.keeps.symm hpermOut hparts
  obtain ⟨folded, hfolded, hsorted⟩ := bind_eq_ok.mp hout'
  rw [mergeStep_eq] at hfolded
  obtain ⟨clusters, hrun, hclusters⟩ := exists_run_beside (matchesMembers u _)
    (fun _ _ => sameIdentity_comm) (sameIdentity_refl u) hP hperm hfolded
  have hfinal : out'.Perm folded := by
    rw [← pure_eq_ok.mp hsorted]
    exact List.perm_insertionSort _ _
  have hpermAll : (clusters.insertionSort fun x y => toLex (x.ciType, x.label) ≤
      toLex (y.ciType, y.label)).Perm (out' ++ loneSightings u items items') :=
    (List.perm_insertionSort _ _).trans (hclusters.trans (hfinal.symm.append_right _))
  refine ⟨_, out', bind_eq_ok.mpr ⟨clusters, by rw [mergeStep_eq]; exact hrun, rfl⟩, hout', hpermAll,
    hapart, ?_⟩
  refine (hpermAll.pairwise_iff fun hrs => hby.keeps.symm hrs).mpr (List.pairwise_append.mpr
    ⟨hapart, ?_, fun r hr x hx => ?_⟩)
  · exact pairwise_alone (alone_sublist.trans (List.Sublist.refl items')) (fun x hx =>
      (isAlone_perm hperm).mpr (mem_alone.mp hx).2)
  · obtain ⟨p, hp, rfl⟩ := List.mem_map.mp (hpermOut.subset hr)
    exact MatchesMembers.same_eq_false (matchesMembers u _) (fun _ _ => sameIdentity_comm)
      (hparts.fused p hp) (fun s hs => hlinked.subset (hparts.subset hp hs)) (mem_alone.mp hx).2

/-- A record of linked sightings is not the same as a sighting that is alone. -/
theorem not_sameRecord_of_apart {linked lone : List DiscoveredCI} (hperm : out.Perm (linked ++ lone))
    (hapart : out.Pairwise (OtherIdentity u)) (hr : r ∈ linked) (hs : s ∈ lone) :
    ¬SameRecord r s := by
  intro hrs
  have hall := (hperm.pairwise_iff fun {r s} (hrs : OtherIdentity u r s) =>
    sameIdentity_comm.trans hrs).mp hapart
  have hother : r.sameIdentity u s = false := (List.pairwise_append.mp hall).2.2 r hr s hs
  rw [hrs.sameIdentity_eq (SameRecord.refl s), sameIdentity_refl] at hother
  exact Bool.noConfusion hother

/-- A regular batch has the same records in every order if and only if its linked sightings have. -/
theorem IsRegular.orderIndependent_iff (h : IsRegular u items) :
    OrderIndependent u (linkedSightings u items items) ↔ OrderIndependent u items := by
  obtain ⟨out, linked, hout, hlinked, hperm, hapartLinked, hapart⟩ :=
    merge_beside h (List.Perm.refl items)
  constructor
  · intro hindependent items' hitems
    obtain ⟨out', linked', hout', hlinked', hperm', -, hapart'⟩ := merge_beside h hitems
    refine ⟨out, out', hout, hout', forall₂_sameRecord hout hout' hapart hapart' ?_ ?_⟩
    all_goals
      obtain ⟨l, l', hl, hl', hall⟩ := hindependent _ (together_perm hitems)
      cases Except.ok.inj (hlinked.symm.trans hl)
      cases Except.ok.inj (hlinked'.symm.trans hl')
    · intro r hr
      rcases List.mem_append.mp (hperm.subset hr) with hr | hr
      · obtain ⟨s, hs, hrs⟩ := exists_of_forall₂_left hall hr
        exact ⟨s, hperm'.symm.subset (List.mem_append_left _ hs), hrs⟩
      · refine ⟨r, hperm'.symm.subset (List.mem_append_right _ ?_), .refl r⟩
        exact (alone_perm hitems).symm.subset hr
    · intro s hs
      rcases List.mem_append.mp (hperm'.subset hs) with hs | hs
      · obtain ⟨r, hr, hrs⟩ := exists_of_forall₂ hall hs
        exact ⟨r, hperm.symm.subset (List.mem_append_left _ hr), hrs⟩
      · refine ⟨s, hperm.symm.subset (List.mem_append_right _ ?_), .refl s⟩
        exact (alone_perm hitems).subset hs
  · intro hindependent order horder
    -- the order of the linked sightings, with the others behind them
    have hitems : (order ++ loneSightings u items items).Perm items :=
      (horder.append_right _).trans (perm_together_alone _ _ _)
    obtain ⟨out', linked', hout', hlinked', hperm', hapartLinked', hapart'⟩ :=
      merge_beside h hitems
    have horder' : linkedSightings u items (order ++ loneSightings u items items) = order := by
      refine together_append_alone (fun x hx => ?_) items
      exact (mem_together.mp (horder.subset hx)).2
    rw [horder'] at hlinked'
    obtain ⟨l, l', hl, hl', hall⟩ := hindependent _ hitems
    cases Except.ok.inj (hout.symm.trans hl)
    cases Except.ok.inj (hout'.symm.trans hl')
    refine ⟨linked, linked', hlinked, hlinked',
      forall₂_sameRecord hlinked hlinked' hapartLinked hapartLinked' ?_ ?_⟩
    · intro r hr
      obtain ⟨s, hs, hrs⟩ :=
        exists_of_forall₂_left hall (hperm.symm.subset (List.mem_append_left _ hr))
      rcases List.mem_append.mp (hperm'.subset hs) with hs | hs
      · exact ⟨s, hs, hrs⟩
      · exact absurd hrs (not_sameRecord_of_apart hperm hapart hr ((alone_perm hitems).subset hs))
    · intro s hs
      obtain ⟨r, hr, hrs⟩ :=
        exists_of_forall₂ hall (hperm'.symm.subset (List.mem_append_left _ hs))
      rcases List.mem_append.mp (hperm.subset hr) with hr | hr
      · exact ⟨r, hr, hrs⟩
      · exact absurd hrs.symm
          (not_sameRecord_of_apart hperm' hapart' hs ((alone_perm hitems).symm.subset hr))

/-- **The order makes no difference** to the merge of a regular batch if and only if the sightings
of every identity are settled. -/
theorem merge_order_iff (h : IsRegular u items) : OrderIndependent u items ↔ BatchSettled u items :=
  h.orderIndependent_iff.symm.trans (h.isShared.order_iff.trans batchSettled_linked_iff)

/-- A service with one description. -/
def frontService : DiscoveredCI :=
  { ciType := "service", name := "web", source := "systemd", observed := true, node := "a",
    description := "front" }

/-- The service with another description. -/
def backService : DiscoveredCI :=
  { ciType := "service", name := "web", source := "docker", observed := true, node := "a",
    description := "back" }

/-- The host as another source sees it. -/
def hostAgain : DiscoveredCI :=
  { ciType := "host", name := "a", source := "ssh", tags := ["linux"] }

/-- A device whose name is no alias once it is normalised. -/
def dotDevice : DiscoveredCI := { ciType := "device", name := ".", source := "ssh" }

/-- Two sources that agree about a host are settled, beside a device that is linked to nothing. -/
theorem merge_order_iff_hosts : OrderIndependent asciiTables [hostA, hostAgain, dotDevice] := by
  have hdot : IsAlone (DiscoveredCI.sameIdentity asciiTables) [hostA, hostAgain, dotDevice]
      dotDevice :=
    @isAlone_of_split _ _ _ [hostA, hostAgain] [] (sameIdentity_refl _ _)
      (List.forall_mem_cons.mpr ⟨rfl, List.forall_mem_singleton.mpr rfl⟩)
  have hhosts : ∀ i ∈ [hostA, hostAgain, dotDevice],
      ¬IsAlone (DiscoveredCI.sameIdentity asciiTables) [hostA, hostAgain, dotDevice] i →
        i ∈ [hostA, hostAgain] := by
    intro i hi hlinked
    rcases List.mem_append.mp (show i ∈ [hostA, hostAgain] ++ [dotDevice] from hi) with hi | hi
    · exact hi
    · exact absurd (List.mem_singleton.mp hi ▸ hdot) hlinked
  have hall : ∀ i ∈ [hostA, hostAgain], i.IsSighting ∧ i.StableAliases asciiTables ∧
      "a" ∈ i.identityAliases asciiTables := by
    have haliases : hostA.identityAliases asciiTables = ["a"] := rfl
    have haliases' : hostAgain.identityAliases asciiTables = ["a"] := rfl
    refine List.forall_mem_cons.mpr ⟨⟨⟨by decide, [], rfl, List.nodup_nil⟩, ?_, ?_⟩,
      List.forall_mem_singleton.mpr ⟨⟨by decide, [], rfl, List.nodup_nil⟩, ?_, ?_⟩⟩
    · rw [DiscoveredCI.StableAliases, haliases]
      decide +kernel
    · rw [haliases]
      decide
    · rw [DiscoveredCI.StableAliases, haliases']
      decide +kernel
    · rw [haliases']
      decide
  -- regular: the two hosts are plain sightings with the alias `a`, and the device is linked to
  -- nothing
  have hregular : IsRegular asciiTables [hostA, hostAgain, dotDevice] := by
    refine ⟨fun i hi hlinked => (hall i (hhosts i hi hlinked)).1,
      fun i hi hlinked => (hall i (hhosts i hi hlinked)).2.1, fun i hi j hj _ htype _ => .inl ?_⟩
    have hshared : ∀ x ∈ [hostA, hostAgain, dotDevice], ∀ y ∈ [hostA, hostAgain, dotDevice],
        x.ciType = y.ciType → ∃ a ∈ x.identityAliases asciiTables,
          a ∈ y.identityAliases asciiTables := by decide +kernel
    exact hshared i hi j hj htype
  refine (merge_order_iff hregular).mpr (batchSettled_linked_iff.mp fun i _ => ?_)
  -- settled: the sightings of the identity say the same of every field
  have hsettled : ∀ {β : Type} {value : DiscoveredCI → Option β},
      value hostAgain = value hostA → SettledOn (DiscoveredCI.sameIdentity asciiTables)
        DiscoveredCI.observed value (linkedClass (DiscoveredCI.sameIdentity asciiTables)
          (linkedSightings asciiTables [hostA, hostAgain, dotDevice]
            [hostA, hostAgain, dotDevice]) i) := by
    intro β value hvalue
    have hone : ∀ x ∈ [hostA, hostAgain], value x = value hostA :=
      List.forall_mem_cons.mpr ⟨rfl, List.forall_mem_singleton.mpr hvalue⟩
    refine .inl fun x hx y hy v w hv hw => ?_
    obtain ⟨hx, hxlinked⟩ := mem_together.mp (mem_linkedClass.mp hx).1
    obtain ⟨hy, hylinked⟩ := mem_together.mp (mem_linkedClass.mp hy).1
    rw [hone x (hhosts x hx hxlinked)] at hv
    rw [hone y (hhosts y hy hylinked)] at hw
    exact Option.some.inj (hv.symm.trans hw)
  exact ⟨hsettled rfl, hsettled rfl, hsettled rfl, hsettled rfl, hsettled rfl, hsettled rfl,
    fun key => hsettled rfl⟩

/-- Of two observed descriptions, the record has the one that came in first. -/
theorem first_description_kept : ¬ OrderIndependent asciiTables [frontService, backService] := by
  intro h
  obtain ⟨out, out', hout, hout', hall⟩ := h [backService, frontService] (List.Perm.swap _ _ _)
  have hfront : (merge asciiTables [frontService, backService]).map (List.map
      DiscoveredCI.description) = .ok ["front"] := rfl
  have hback : (merge asciiTables [backService, frontService]).map (List.map
      DiscoveredCI.description) = .ok ["back"] := rfl
  rw [hout] at hfront
  rw [hout'] at hback
  have hsame : out.map DiscoveredCI.description = out'.map DiscoveredCI.description := by
    clear hfront hback hout hout' h
    induction hall with
    | nil => rfl
    | cons hrs _ ih => rw [List.map_cons, List.map_cons, ih, hrs.fields]
  rw [Except.ok.inj hfront, Except.ok.inj hback] at hsame
  exact absurd hsame (by decide)

end SkCoord.Cmdb
