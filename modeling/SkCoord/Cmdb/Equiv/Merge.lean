import SkCoord.Clustering.Fusion
import SkCoord.Cmdb.Discovery

/-!
# What a merge keeps apart

`merge` is a fusion of clusters: the records are made from the sightings of the batch, each used once
(`exists_records`).  `merge_separates`: no two records of a type have the same identifier, and what a
sighting says is kept in a record of its type.  Where normalising an alias twice is normalising it
once, no two hosts and no two devices share an alias.
-/

namespace SkCoord.Cmdb

open Python Clustering

variable {u : CharTables} {self other item q r s : DiscoveredCI} {P : DiscoveredCI → Prop}

/-! ### Sightings -/

@[simp] theorem mem_sortedTexts {x : String} {l : List String} : x ∈ sortedTexts l ↔ x ∈ l := by
  rw [sortedTexts, List.mem_insertionSort, List.mem_dedup]

@[simp] theorem mem_sortedPairs {x : String × String} {l : List (String × String)} :
    x ∈ sortedPairs l ↔ x ∈ l := by
  rw [sortedPairs, List.mem_insertionSort, List.mem_dedup]

/-- A sighting with a name, whose attributes are a dictionary. -/
structure DiscoveredCI.IsSighting (item : DiscoveredCI) : Prop where
  name : item.name ≠ ""
  attributes : ∃ d, item.attributes = .obj d ∧ (Assoc.keys d).Nodup

/-- No alias of the sighting is empty, and normalising it again changes nothing. -/
def DiscoveredCI.StableAliases (u : CharTables) (item : DiscoveredCI) : Prop :=
  ∀ a ∈ item.identityAliases u, a ≠ "" ∧ normaliseAlias u a = a

theorem orText_ne {x y : String} (h : y ≠ "") : orText x y ≠ "" := by
  unfold orText
  split <;> assumption

theorem DiscoveredCI.IsSighting.label (h : item.IsSighting) : item.label ≠ "" := orText_ne h.name

theorem mem_identityAliases {a : String} : a ∈ item.identityAliases u ↔
    ∃ v, (v = item.name ∨ v = item.canonicalName ∨ v ∈ item.aliases) ∧ v ≠ "" ∧
      normaliseAlias u v = a := by
  rw [DiscoveredCI.identityAliases, mem_sortedTexts, List.mem_map]
  refine exists_congr fun v => ?_
  rw [List.mem_filter, List.mem_cons, List.mem_cons, decide_eq_true_iff, and_assoc]

/-- The normalised name of a sighting is one of its aliases. -/
theorem label_mem_identityAliases (h : item.IsSighting) :
    normaliseAlias u item.label ∈ item.identityAliases u := by
  refine mem_identityAliases.mpr ⟨item.label, ?_, h.label, rfl⟩
  unfold DiscoveredCI.label orText
  split
  · exact .inl rfl
  · exact .inr (.inl rfl)

theorem sameIdentity_iff : r.sameIdentity u s = true ↔
    r.ciType = s.ciType ∧ (r.ciId u = s.ciId u ∨ isIdentityType s.ciType = true ∧
      ∃ a ∈ r.identityAliases u, a ∈ s.identityAliases u) := by
  rw [DiscoveredCI.sameIdentity, Bool.and_eq_true, beq_iff_eq, Bool.or_eq_true, beq_iff_eq,
    Bool.and_eq_true, List.any_eq_true]
  simp only [List.contains_iff_mem]

theorem sameIdentity_comm : r.sameIdentity u s = s.sameIdentity u r := by
  refine Bool.eq_iff_iff.mpr ?_
  rw [sameIdentity_iff, sameIdentity_iff]
  constructor
  · rintro ⟨htype, hid | ⟨hidentity, a, hr, hs⟩⟩
    · exact ⟨htype.symm, .inl hid.symm⟩
    · exact ⟨htype.symm, .inr ⟨htype ▸ hidentity, a, hs, hr⟩⟩
  · rintro ⟨htype, hid | ⟨hidentity, a, hs, hr⟩⟩
    · exact ⟨htype.symm, .inl hid.symm⟩
    · exact ⟨htype.symm, .inr ⟨htype ▸ hidentity, a, hr, hs⟩⟩

/-! ### Two sightings of one item -/

/-- The sighting whose word counts. -/
def DiscoveredCI.primary (self other : DiscoveredCI) : DiscoveredCI :=
  if other.observed && !self.observed then other else self

/-- The sighting that fills the gaps. -/
def DiscoveredCI.secondary (self other : DiscoveredCI) : DiscoveredCI :=
  if other.observed && !self.observed then self else other

/-- The name that two sightings agree on. -/
def DiscoveredCI.agreedName (self other : DiscoveredCI) : String :=
  if self.declared && !other.declared then self.label
  else if other.declared && !self.declared then other.label
  else min self.label other.label

theorem mergedName_eq (hself : self.label ≠ "") (hother : other.label ≠ "") :
    DiscoveredCI.mergedName self other = .ok (self.agreedName other) := by
  unfold DiscoveredCI.mergedName DiscoveredCI.agreedName
  have hboth : [self.label, other.label].filter (· ≠ "") = [self.label, other.label] := by
    simp [hself, hother]
  rw [hboth]
  split
  · rfl
  · split <;> rfl

/-- What a merge of two dictionaries binds. -/
theorem mergedAttributes_eq {secondary primary : DiscoveredCI} {d e : Dict}
    (hd : secondary.attributes = .obj d) (he : primary.attributes = .obj e) :
    DiscoveredCI.mergedAttributes secondary.attributes primary.attributes =
      .ok (.obj (e.foldl (fun d q => Assoc.set d q.1 q.2) d)) := by
  rw [hd, he]
  rfl

/-- The record of two sightings. -/
structure IsMerge (u : CharTables) (x y q : DiscoveredCI) : Prop where
  ciType : q.ciType = (x.primary y).ciType
  name : q.name = (x.primary y).name
  schemaVersion : q.schemaVersion = (x.primary y).schemaVersion
  source : q.source = DiscoveredCI.mergedSource x.source y.source
  observed : q.observed = (x.observed || y.observed)
  declaredFlag : q.declaredFlag = some (x.declared || y.declared)
  node : q.node = orText (x.primary y).node (x.secondary y).node
  description :
    q.description = orText (x.primary y).description (x.secondary y).description
  attributes : DiscoveredCI.mergedAttributes (x.secondary y).attributes
    (x.primary y).attributes = .ok q.attributes
  tags : q.tags = sortedTexts (x.tags ++ y.tags)
  relationships : q.relationships = sortedPairs (x.relationships ++ y.relationships)
  canonicalName : DiscoveredCI.mergedName x y = .ok q.canonicalName
  aliases : q.aliases = sortedTexts (x.identityAliases u ++ y.identityAliases u)
  observedAt : q.observedAt = max x.observedAt y.observedAt
  scanId : q.scanId = orText (x.primary y).scanId (x.secondary y).scanId
  authority : q.authority =
    if x.observed || y.observed then authorityObserved else authorityDeclared
  lifecycleScope : q.lifecycleScope =
    orText (x.primary y).lifecycleScope (x.secondary y).lifecycleScope

/-- What `merged_with` returns. -/
theorem isMerge_of_ok (h : self.mergedWith u other = .ok q) : IsMerge u self other q := by
  unfold DiscoveredCI.mergedWith at h
  obtain ⟨name, hname, h⟩ := bind_eq_ok.mp h
  obtain ⟨attributes, hattributes, h⟩ := bind_eq_ok.mp h
  rw [← pure_eq_ok.mp h]
  exact ⟨rfl, rfl, rfl, rfl, rfl, rfl, rfl, rfl, hattributes, rfl, rfl, hname, rfl, rfl, rfl, rfl,
    rfl⟩

theorem primary_eq_or (self other : DiscoveredCI) :
    self.primary other = self ∧ self.secondary other = other ∨
    self.primary other = other ∧ self.secondary other = self := by
  unfold DiscoveredCI.primary DiscoveredCI.secondary
  split
  · exact .inr ⟨rfl, rfl⟩
  · exact .inl ⟨rfl, rfl⟩

/-- The merge of two sightings is one. -/
theorem IsMerge.isSighting (h : IsMerge u self other q) (hself : self.IsSighting)
    (hother : other.IsSighting) : q.IsSighting := by
  have hprimary : (self.primary other).IsSighting ∧ (self.secondary other).IsSighting := by
    rcases primary_eq_or self other with ⟨hp, hs⟩ | ⟨hp, hs⟩
    · exact ⟨hp.symm ▸ hself, hs.symm ▸ hother⟩
    · exact ⟨hp.symm ▸ hother, hs.symm ▸ hself⟩
  refine ⟨h.name.symm ▸ hprimary.1.name, ?_⟩
  obtain ⟨e, he, -⟩ := hprimary.1.attributes
  obtain ⟨d, hd, hnodup⟩ := hprimary.2.attributes
  have hattributes := h.attributes
  rw [mergedAttributes_eq hd he] at hattributes
  exact ⟨_, (Except.ok.inj hattributes).symm, Assoc.nodup_keys_foldl_set e hnodup⟩

/-- Two sightings have a merge. -/
theorem exists_mergedWith (hself : self.IsSighting) (hother : other.IsSighting) :
    ∃ q, self.mergedWith u other = .ok q ∧ q.IsSighting := by
  have hreturns : ∃ q, self.mergedWith u other = .ok q := by
    have hattributes : ∃ attributes, DiscoveredCI.mergedAttributes
        (self.secondary other).attributes (self.primary other).attributes = .ok attributes := by
      obtain ⟨d, hd, -⟩ := hself.attributes
      obtain ⟨e, he, -⟩ := hother.attributes
      rcases primary_eq_or self other with ⟨hp, hs⟩ | ⟨hp, hs⟩
      · rw [hp, hs]
        exact ⟨_, mergedAttributes_eq he hd⟩
      · rw [hp, hs]
        exact ⟨_, mergedAttributes_eq hd he⟩
    obtain ⟨attributes, hattributes⟩ := hattributes
    exact ⟨_, bind_eq_ok.mpr ⟨_, mergedName_eq hself.label hother.label,
      bind_eq_ok.mpr ⟨attributes, hattributes, rfl⟩⟩⟩
  obtain ⟨q, hq⟩ := hreturns
  exact ⟨q, hq, (isMerge_of_ok hq).isSighting hself hother⟩

/-- The merge has the name that the sightings agree on. -/
theorem IsMerge.canonicalName_eq (h : IsMerge u self other q) (hself : self.IsSighting)
    (hother : other.IsSighting) : q.canonicalName = self.agreedName other := by
  have hname := h.canonicalName
  rw [mergedName_eq hself.label hother.label] at hname
  exact (Except.ok.inj hname).symm

theorem agreedName_eq_or (self other : DiscoveredCI) :
    self.agreedName other = self.label ∨
    self.agreedName other = other.label := by
  unfold DiscoveredCI.agreedName
  split
  · exact .inl rfl
  · split
    · exact .inr rfl
    · rcases min_choice self.label other.label with h | h
      · exact .inl h
      · exact .inr h

theorem IsMerge.label_eq (h : IsMerge u self other q) (hself : self.IsSighting)
    (hother : other.IsSighting) : q.label = self.agreedName other := by
  have hne : self.agreedName other ≠ "" := by
    rcases agreedName_eq_or self other with hname | hname
    · rw [hname]
      exact hself.label
    · rw [hname]
      exact hother.label
  rw [DiscoveredCI.label, h.canonicalName_eq hself hother, orText, if_neg hne]

theorem IsMerge.ciType_eq (h : IsMerge u self other q) (htype : self.ciType = other.ciType) :
    q.ciType = self.ciType := by
  rw [h.ciType]
  rcases primary_eq_or self other with ⟨hp, -⟩ | ⟨hp, -⟩
  · rw [hp]
  · rw [hp, htype]

/-- The merge has the identifier of one of the sightings. -/
theorem IsMerge.ciId_eq_or (h : IsMerge u self other q) (hself : self.IsSighting)
    (hother : other.IsSighting) (htype : self.ciType = other.ciType) :
    q.ciId u = self.ciId u ∨ q.ciId u = other.ciId u := by
  unfold DiscoveredCI.ciId
  rw [h.label_eq hself hother, h.ciType_eq htype]
  rcases agreedName_eq_or self other with hname | hname
  · exact .inl (by rw [hname])
  · exact .inr (by rw [hname, htype])

/-- The aliases of a merge are those of the two sightings, where normalising them again changes
nothing. -/
theorem IsMerge.mem_identityAliases (h : IsMerge u self other q) (hself : self.IsSighting)
    (hother : other.IsSighting) (hself' : self.StableAliases u) (hother' : other.StableAliases u)
    {a : String} : a ∈ q.identityAliases u ↔
      a ∈ self.identityAliases u ∨ a ∈ other.identityAliases u := by
  -- the two names of a merge are names of one of its sightings
  have hnames : ∀ v, v = q.name ∨ v = q.canonicalName → normaliseAlias u v ∈ self.identityAliases u ∨
      normaliseAlias u v ∈ other.identityAliases u := by
    rintro v (rfl | rfl)
    · rw [h.name]
      rcases primary_eq_or self other with ⟨hp, -⟩ | ⟨hp, -⟩
      · rw [hp]
        exact .inl (Cmdb.mem_identityAliases.mpr ⟨_, .inl rfl, hself.name, rfl⟩)
      · rw [hp]
        exact .inr (Cmdb.mem_identityAliases.mpr ⟨_, .inl rfl, hother.name, rfl⟩)
    · rw [h.canonicalName_eq hself hother]
      rcases agreedName_eq_or self other with hname | hname
      · rw [hname]
        exact .inl (label_mem_identityAliases hself)
      · rw [hname]
        exact .inr (label_mem_identityAliases hother)
  have haliases : ∀ v, v ∈ q.aliases ↔
      v ∈ self.identityAliases u ∨ v ∈ other.identityAliases u := by
    intro v
    rw [h.aliases, mem_sortedTexts, List.mem_append]
  -- its aliases are normalised already
  have hstable : ∀ v ∈ q.aliases, v ≠ "" ∧ normaliseAlias u v = v := by
    intro v hv
    rcases (haliases v).mp hv with hv | hv
    · exact hself' v hv
    · exact hother' v hv
  constructor
  · intro ha
    obtain ⟨v, hv, -, rfl⟩ := Cmdb.mem_identityAliases.mp ha
    rcases hv with hv | hv | hv
    · exact hnames v (.inl hv)
    · exact hnames v (.inr hv)
    · rw [(hstable v hv).2]
      exact (haliases v).mp hv
  · intro ha
    have hmem := (haliases a).mpr ha
    obtain ⟨hne, hsame⟩ := hstable a hmem
    exact Cmdb.mem_identityAliases.mpr ⟨a, .inr (.inr hmem), hne, hsame⟩

/-! ### Records -/

/-- The record is made from the sightings of a list. -/
abbrev IsRecord (u : CharTables) (P : DiscoveredCI → Prop) :
    DiscoveredCI → List DiscoveredCI → Prop :=
  Fused (DiscoveredCI.sameIdentity u) (DiscoveredCI.mergedWith u) P

variable {S T : List DiscoveredCI}

/-- A record has the type of its sightings. -/
theorem IsRecord.ciType (h : IsRecord u P r S) : ∀ i ∈ S, i.ciType = r.ciType := by
  induction h with
  | single hx => exact List.forall_mem_singleton.mpr rfl
  | fuse hm hacc hx hsame hq ihm ihacc =>
    have htype := (sameIdentity_iff.mp hsame).1.trans (ihacc _ hx)
    have hrecord := (isMerge_of_ok hq).ciType_eq htype
    refine List.forall_mem_append.mpr ⟨fun i hi => ?_, fun i hi => ?_⟩
    · rw [ihm i hi, hrecord]
    · rw [ihacc i hi, hrecord, htype]

/-- The types of what is merged in one step. -/
theorem IsRecord.ciType_eq {m acc x : DiscoveredCI} (hacc : IsRecord u P acc T) (hx : x ∈ T)
    (hsame : m.sameIdentity u x = true) : m.ciType = acc.ciType :=
  (sameIdentity_iff.mp hsame).1.trans (hacc.ciType x hx)

theorem IsRecord.isSighting (hP : ∀ {i : DiscoveredCI}, P i → i.IsSighting)
    (h : IsRecord u P r S) : r.IsSighting := by
  induction h with
  | single hx => exact hP hx
  | fuse hm hacc hx hsame hq ihm ihacc => exact (isMerge_of_ok hq).isSighting ihm ihacc

/-- A record keeps the tags and the relationships of its sightings. -/
theorem IsRecord.keeps (h : IsRecord u P r S) :
    ∀ i ∈ S, i.tags ⊆ r.tags ∧ i.relationships ⊆ r.relationships := by
  induction h with
  | single hx =>
    exact List.forall_mem_singleton.mpr ⟨List.Subset.refl _, List.Subset.refl _⟩
  | fuse hm hacc hx hsame hq ihm ihacc =>
    have hmerge := isMerge_of_ok hq
    refine List.forall_mem_append.mpr ⟨fun i hi => ?_, fun i hi => ?_⟩
    · obtain ⟨htags, hrels⟩ := ihm i hi
      refine ⟨fun t ht => ?_, fun p hp => ?_⟩
      · rw [hmerge.tags, mem_sortedTexts]
        exact List.mem_append_left _ (htags ht)
      · rw [hmerge.relationships, mem_sortedPairs]
        exact List.mem_append_left _ (hrels hp)
    · obtain ⟨htags, hrels⟩ := ihacc i hi
      refine ⟨fun t ht => ?_, fun p hp => ?_⟩
      · rw [hmerge.tags, mem_sortedTexts]
        exact List.mem_append_right _ (htags ht)
      · rw [hmerge.relationships, mem_sortedPairs]
        exact List.mem_append_right _ (hrels hp)

/-- The aliases of a record are those of its sightings. -/
theorem IsRecord.aliases (hP : ∀ {i : DiscoveredCI}, P i → i.IsSighting)
    (hstable : ∀ {i : DiscoveredCI}, P i → i.StableAliases u) (h : IsRecord u P r S) :
    r.StableAliases u ∧ ∀ a, a ∈ r.identityAliases u ↔ ∃ i ∈ S, a ∈ i.identityAliases u := by
  induction h with
  | single hx => exact ⟨hstable hx, fun a => by simp⟩
  | fuse hm hacc hx hsame hq ihm ihacc =>
    have hmem := fun a => (isMerge_of_ok hq).mem_identityAliases (IsRecord.isSighting hP hm)
      (IsRecord.isSighting hP hacc) ihm.1 ihacc.1 (a := a)
    refine ⟨fun a ha => ?_, fun a => ?_⟩
    · rcases (hmem a).mp ha with ha | ha
      · exact ihm.1 a ha
      · exact ihacc.1 a ha
    · rw [hmem, ihm.2, ihacc.2]
      simp only [List.mem_append, or_and_right, exists_or]

/-- A record has the identifier of one of its sightings. -/
theorem IsRecord.exists_ciId (hP : ∀ {i : DiscoveredCI}, P i → i.IsSighting)
    (h : IsRecord u P r S) : ∃ i ∈ S, i.ciId u = r.ciId u := by
  induction h with
  | single hx => exact ⟨_, List.mem_singleton.mpr rfl, rfl⟩
  | fuse hm hacc hx hsame hq ihm ihacc =>
    rcases (isMerge_of_ok hq).ciId_eq_or (IsRecord.isSighting hP hm) (IsRecord.isSighting hP hacc)
      (IsRecord.ciType_eq hacc hx hsame) with hid | hid
    · obtain ⟨i, hi, hi'⟩ := ihm
      exact ⟨i, List.mem_append_left _ hi, hi'.trans hid.symm⟩
    · obtain ⟨i, hi, hi'⟩ := ihacc
      exact ⟨i, List.mem_append_right _ hi, hi'.trans hid.symm⟩

/-- A record that is no host and no device has the identifier of all its sightings. -/
theorem IsRecord.ciId (hP : ∀ {i : DiscoveredCI}, P i → i.IsSighting) (h : IsRecord u P r S)
    (hidentity : isIdentityType r.ciType = false) : ∀ i ∈ S, i.ciId u = r.ciId u := by
  induction h with
  | single hx => exact List.forall_mem_singleton.mpr rfl
  | fuse hm hacc hx hsame hq ihm ihacc =>
    rename_i m acc q x S T
    have htype := IsRecord.ciType_eq hacc hx hsame
    have hmerge := isMerge_of_ok hq
    have hm' : isIdentityType m.ciType = false := hmerge.ciType_eq htype ▸ hidentity
    have hacc' : isIdentityType acc.ciType = false := htype ▸ hm'
    have hboth : m.ciId u = acc.ciId u := by
      obtain ⟨hxtype, hid | ⟨hx', -⟩⟩ := sameIdentity_iff.mp hsame
      · exact hid.trans (ihacc hacc' x hx)
      · rw [← hxtype, hm'] at hx'
        exact Bool.noConfusion hx'
    have hid : m.ciId u = q.ciId u := by
      rcases hmerge.ciId_eq_or (IsRecord.isSighting hP hm) (IsRecord.isSighting hP hacc) htype with
        hid | hid
      · exact hid.symm
      · exact hboth.trans hid.symm
    refine List.forall_mem_append.mpr ⟨fun i hi => ?_, fun i hi => ?_⟩
    · exact (ihm hm' i hi).trans hid
    · exact (ihacc hacc' i hi).trans (hboth.symm.trans hid)

/-! ### What stays apart -/

/-- Records of a type with different identifiers. -/
def OtherId (u : CharTables) (r s : DiscoveredCI) : Prop :=
  r.ciType = s.ciType → r.ciId u ≠ s.ciId u

/-- Records of which neither is a sighting of what the other is. -/
def OtherIdentity (u : CharTables) (r s : DiscoveredCI) : Prop := r.sameIdentity u s = false

theorem OtherIdentity.otherId (h : OtherIdentity u r s) : OtherId u r s := by
  intro htype hid
  exact Bool.noConfusion (h.symm.trans (sameIdentity_iff.mpr ⟨htype, .inl hid⟩))

/-- **Identifiers stay apart** whatever the aliases are. -/
theorem keepsApart_otherId : KeepsApart (DiscoveredCI.sameIdentity u) (DiscoveredCI.mergedWith u)
    DiscoveredCI.IsSighting (OtherId u) where
  symm := fun h htype hid => h htype.symm hid.symm
  new := fun h => OtherIdentity.otherId h
  fuse := by
    intro m acc q x r S T hm hacc hx hsame hq hrm hracc htype hid
    have hboth := IsRecord.ciType_eq hacc hx hsame
    have hmerge := isMerge_of_ok hq
    have hrecord := hmerge.ciType_eq hboth
    rcases hmerge.ciId_eq_or (IsRecord.isSighting id hm) (IsRecord.isSighting id hacc) hboth with
      hid' | hid'
    · exact hrm (htype.trans hrecord) (hid.trans hid')
    · exact hracc (htype.trans (hrecord.trans hboth)) (hid.trans hid')

/-- A sighting whose aliases are stable. -/
def DiscoveredCI.IsStable (u : CharTables) (item : DiscoveredCI) : Prop :=
  item.IsSighting ∧ item.StableAliases u

/-- **Identities stay apart** where the aliases are stable. -/
theorem keepsApart_otherIdentity : KeepsApart (DiscoveredCI.sameIdentity u)
    (DiscoveredCI.mergedWith u) (DiscoveredCI.IsStable u) (OtherIdentity u) where
  symm := fun h => sameIdentity_comm.trans h
  new := fun h => h
  fuse := by
    intro m acc q x r S T hm hacc hx hsame hq hrm hracc
    have hboth := IsRecord.ciType_eq hacc hx hsame
    have hmerge := isMerge_of_ok hq
    have hrecord := hmerge.ciType_eq hboth
    have hm' := IsRecord.isSighting And.left hm
    have hacc' := IsRecord.isSighting And.left hacc
    refine Bool.eq_false_iff.mpr fun hrq => ?_
    obtain ⟨htype, hid | ⟨hidentity, a, har, haq⟩⟩ := sameIdentity_iff.mp hrq
    · rcases hmerge.ciId_eq_or hm' hacc' hboth with hid' | hid'
      · exact hrm.otherId (htype.trans hrecord) (hid.trans hid')
      · exact hracc.otherId (htype.trans (hrecord.trans hboth)) (hid.trans hid')
    · rcases (hmerge.mem_identityAliases hm' hacc' (IsRecord.aliases And.left And.right hm).1
        (IsRecord.aliases And.left And.right hacc).1).mp haq with ha | ha
      · exact Bool.noConfusion (hrm.symm.trans (sameIdentity_iff.mpr
          ⟨htype.trans hrecord, .inr ⟨hrecord ▸ hidentity, a, har, ha⟩⟩))
      · exact Bool.noConfusion (hracc.symm.trans (sameIdentity_iff.mpr
          ⟨htype.trans (hrecord.trans hboth),
            .inr ⟨hboth ▸ hrecord ▸ hidentity, a, har, ha⟩⟩))

/-! ### The merge of a batch -/

/-- One more sighting is one more element of the clustering. -/
theorem mergeStep_eq (u : CharTables) : mergeStep u =
    Clustering.step (DiscoveredCI.sameIdentity u) (DiscoveredCI.mergedWith u) := by
  funext folded item
  unfold mergeStep Clustering.step
  split
  · rename_i hnone
    rw [hnone]
  · rename_i hsome
    split
    · rename_i hnone
      exact absurd hnone hsome
    · rfl

/-- **The records of a batch** are made from its sightings, each used once. -/
theorem exists_records {apart : DiscoveredCI → DiscoveredCI → Prop}
    (hkeeps : KeepsApart (DiscoveredCI.sameIdentity u) (DiscoveredCI.mergedWith u) P apart)
    {items out : List DiscoveredCI} (hP : ∀ i ∈ items, P i) (h : merge u items = .ok out) :
    ∃ parts, out.Perm (parts.map Prod.fst) ∧ IsPartition (DiscoveredCI.sameIdentity u)
      (DiscoveredCI.mergedWith u) P apart items parts := by
  obtain ⟨folded, hfolded, h⟩ := bind_eq_ok.mp h
  rw [mergeStep_eq] at hfolded
  obtain ⟨parts, rfl, hparts⟩ := Clustering.exists_parts hkeeps isPartition_nil hP hfolded
  rw [← pure_eq_ok.mp h]
  exact ⟨parts, List.perm_insertionSort _ _, hparts⟩

/-- Every sighting of a batch is one of those of a record. -/
theorem exists_record_of_mem {apart : DiscoveredCI → DiscoveredCI → Prop}
    {items : List DiscoveredCI} {parts : List (DiscoveredCI × List DiscoveredCI)}
    (hparts : IsPartition (DiscoveredCI.sameIdentity u) (DiscoveredCI.mergedWith u) P apart items
      parts) {i : DiscoveredCI} (hi : i ∈ items) : ∃ p ∈ parts, i ∈ p.2 := by
  obtain ⟨S, hS, hiS⟩ := List.mem_flatten.mp (hparts.perm.mem_iff.mpr hi)
  obtain ⟨p, hp, rfl⟩ := List.mem_map.mp hS
  exact ⟨p, hp, hiS⟩

/-- `merge` returns. -/
theorem merge_returns {items : List DiscoveredCI} (h : ∀ i ∈ items, i.IsSighting) :
    ∃ out, merge u items = .ok out := by
  have hnil : ∀ c ∈ ([] : List DiscoveredCI), c.IsSighting := fun c hc => (List.not_mem_nil hc).elim
  have hrun : ∃ folded, items.foldlM (mergeStep u) [] = .ok folded := by
    rw [mergeStep_eq]
    exact Clustering.run_returns (fun hm hacc => exists_mergedWith hm hacc) hnil h
  obtain ⟨folded, hfolded⟩ := hrun
  exact ⟨_, bind_eq_ok.mpr ⟨folded, hfolded, rfl⟩⟩

/-! ### Separation -/

/-- The record has the type of the sighting and keeps what it says. -/
structure KeepsSighting (u : CharTables) (r item : DiscoveredCI) : Prop where
  ciType : r.ciType = item.ciType
  aliases : item.identityAliases u ⊆ r.identityAliases u
  tags : item.tags ⊆ r.tags
  relationships : item.relationships ⊆ r.relationships

/-- No two records of a type have the same identifier. -/
def DistinctIds (u : CharTables) (out : List DiscoveredCI) : Prop :=
  out.Pairwise fun r s => r.ciType = s.ciType → r.ciId u ≠ s.ciId u

/-- No two hosts and no two devices share an alias. -/
def DistinctAliases (u : CharTables) (out : List DiscoveredCI) : Prop :=
  out.Pairwise fun r s => r.ciType = s.ciType → isIdentityType r.ciType = true →
    ∀ a ∈ r.identityAliases u, a ∉ s.identityAliases u

/-- The records are of different identities, and exactly one record keeps what a sighting says. -/
def Separates (u : CharTables) (items : List DiscoveredCI) : Prop :=
  ∃ out, merge u items = .ok out ∧ DistinctIds u out ∧ DistinctAliases u out ∧
    ∀ item ∈ items, ∃! r, r ∈ out ∧ KeepsSighting u r item

theorem OtherIdentity.aliases (h : OtherIdentity u r s) (htype : r.ciType = s.ciType)
    (hidentity : isIdentityType r.ciType = true) :
    ∀ a ∈ r.identityAliases u, a ∉ s.identityAliases u := fun a har has =>
  Bool.noConfusion
    (h.symm.trans (sameIdentity_iff.mpr ⟨htype, .inr ⟨htype ▸ hidentity, a, har, has⟩⟩))

/-- The records of a batch, in the order of the merge, are apart. -/
theorem pairwise_records {apart : DiscoveredCI → DiscoveredCI → Prop}
    (hsymm : ∀ {r s : DiscoveredCI}, apart r s → apart s r) {items out : List DiscoveredCI}
    {parts : List (DiscoveredCI × List DiscoveredCI)} (hperm : out.Perm (parts.map Prod.fst))
    (hparts : IsPartition (DiscoveredCI.sameIdentity u) (DiscoveredCI.mergedWith u) P apart items
      parts) : out.Pairwise apart :=
  (hperm.pairwise_iff fun h => hsymm h).mpr (List.pairwise_map.mpr hparts.apart)

/-- A record is the only one of what is apart from all others. -/
theorem eq_of_not_apart {apart : DiscoveredCI → DiscoveredCI → Prop}
    (hsymm : ∀ {r s : DiscoveredCI}, apart r s → apart s r) {out : List DiscoveredCI}
    (hout : out.Pairwise apart) (hr : r ∈ out) (hs : s ∈ out) (hnot : ¬ apart r s) : r = s := by
  by_contra hne
  have : Std.Symm apart := ⟨fun _ _ h => hsymm h⟩
  exact hnot (hout.forall hr hs hne)

/-- **A merge separates identities**: the records of a type have different identifiers, and one of
them keeps the tags and relationships of a sighting.  Where the aliases are stable, no two hosts and
no two devices share one, exactly one of them keeps what a sighting says, and of the other records
exactly one with the identifier of the sighting does. -/
theorem merge_separates (u : CharTables) (items : List DiscoveredCI)
    (h : ∀ item ∈ items, item.IsSighting) :
    ∃ out, merge u items = .ok out ∧ DistinctIds u out ∧
      (∀ item ∈ items, ∃ r ∈ out, r.ciType = item.ciType ∧ item.tags ⊆ r.tags ∧
        item.relationships ⊆ r.relationships ∧
        (isIdentityType item.ciType = false → r.ciId u = item.ciId u)) ∧
      ((∀ item ∈ items, item.StableAliases u) → DistinctAliases u out ∧
        ∀ item ∈ items, if isIdentityType item.ciType then ∃! r, r ∈ out ∧ KeepsSighting u r item
          else ∃! r, r ∈ out ∧ r.ciId u = item.ciId u ∧ KeepsSighting u r item) := by
  obtain ⟨out, hout⟩ := merge_returns (u := u) h
  have hids : DistinctIds u out := by
    obtain ⟨parts, hperm, hparts⟩ := exists_records keepsApart_otherId h hout
    exact pairwise_records keepsApart_otherId.symm hperm hparts
  refine ⟨out, hout, hids, ?_, fun hstable => ?_⟩
  · obtain ⟨parts, hperm, hparts⟩ := exists_records keepsApart_otherId h hout
    intro item hitem
    obtain ⟨p, hp, hmem⟩ := exists_record_of_mem hparts hitem
    have hrecord := hparts.fused p hp
    have htype := IsRecord.ciType hrecord item hmem
    obtain ⟨htags, hrels⟩ := IsRecord.keeps hrecord item hmem
    refine ⟨p.1, hperm.mem_iff.mpr (List.mem_map_of_mem hp), htype.symm, htags, hrels, ?_⟩
    exact fun hidentity => (IsRecord.ciId id hrecord (htype ▸ hidentity) item hmem).symm
  · have hboth : ∀ item ∈ items, item.IsStable u := fun item hi => ⟨h item hi, hstable item hi⟩
    obtain ⟨parts, hperm, hparts⟩ := exists_records keepsApart_otherIdentity hboth hout
    have hapart := pairwise_records keepsApart_otherIdentity.symm hperm hparts
    refine ⟨hapart.imp fun h => h.aliases, fun item hitem => ?_⟩
    obtain ⟨p, hp, hmem⟩ := exists_record_of_mem hparts hitem
    have hrecord := hparts.fused p hp
    have hr : p.1 ∈ out := hperm.mem_iff.mpr (List.mem_map_of_mem hp)
    have hkeeps : KeepsSighting u p.1 item := by
      obtain ⟨htags, hrels⟩ := IsRecord.keeps hrecord item hmem
      exact ⟨(IsRecord.ciType hrecord item hmem).symm,
        fun a ha => ((IsRecord.aliases And.left And.right hrecord).2 a).mpr ⟨item, hmem, ha⟩,
        htags, hrels⟩
    split
    · rename_i hidentity
      refine ⟨p.1, ⟨hr, hkeeps⟩, ?_⟩
      rintro r ⟨hrout, hrkeeps⟩
      refine eq_of_not_apart keepsApart_otherIdentity.symm hapart hrout hr fun hother => ?_
      -- both records have the name of the sighting
      have halias := label_mem_identityAliases (u := u) (h item hitem)
      exact hother.aliases (hrkeeps.ciType.trans hkeeps.ciType.symm)
        (hrkeeps.ciType ▸ hidentity) _ (hrkeeps.aliases halias) (hkeeps.aliases halias)
    · rename_i hidentity
      have hid : p.1.ciId u = item.ciId u :=
        (IsRecord.ciId And.left hrecord
          (hkeeps.ciType ▸ Bool.eq_false_iff.mpr hidentity) item hmem).symm
      refine ⟨p.1, ⟨hr, hid, hkeeps⟩, ?_⟩
      rintro r ⟨hrout, hrid, hrkeeps⟩
      refine eq_of_not_apart keepsApart_otherId.symm hids hrout hr fun hother => ?_
      exact hother (hrkeeps.ciType.trans hkeeps.ciType.symm) (hrid.trans hid.symm)

/-- A service. -/
def webService : DiscoveredCI := { ciType := "service", name := "web", source := "systemd" }

/-- A service with the name of another among its aliases. -/
def wwwService : DiscoveredCI :=
  { ciType := "service", name := "www", source := "systemd", aliases := ["web"] }

/-- A host. -/
def hostA : DiscoveredCI := { ciType := "host", name := "a", source := "facts" }

/-- A host with an alias that takes two turns to normalise. -/
def hostB : DiscoveredCI :=
  { ciType := "host", name := "b", source := "facts", aliases := ["a ."] }

/-- Another host. -/
def hostC : DiscoveredCI := { ciType := "host", name := "c", source := "facts" }

/-- A host that is both. -/
def hostAC : DiscoveredCI :=
  { ciType := "host", name := "a", source := "facts", aliases := ["c"] }

/-- Three sightings, the last of which fuses the records of the others. -/
theorem merge_separates_hosts : ∃ out, merge asciiTables [hostA, hostC, hostAC] = .ok out ∧
    out.map (DiscoveredCI.identityAliases asciiTables) = [["a", "c"]] ∧
    DistinctIds asciiTables out ∧ DistinctAliases asciiTables out ∧
    ∀ item ∈ [hostA, hostC, hostAC], ∃! r, r ∈ out ∧ KeepsSighting asciiTables r item := by
  have hsighting : ∀ item ∈ [hostA, hostC, hostAC], item.IsSighting :=
    List.forall_mem_cons.mpr ⟨⟨by decide, [], rfl, List.nodup_nil⟩,
      List.forall_mem_cons.mpr ⟨⟨by decide, [], rfl, List.nodup_nil⟩,
        List.forall_mem_singleton.mpr ⟨by decide, [], rfl, List.nodup_nil⟩⟩⟩
  have hstable : ∀ item ∈ [hostA, hostC, hostAC], item.StableAliases asciiTables := by
    unfold DiscoveredCI.StableAliases
    decide +kernel
  have hmerge : (merge asciiTables [hostA, hostC, hostAC]).map
      (List.map (DiscoveredCI.identityAliases asciiTables)) = .ok [["a", "c"]] := rfl
  obtain ⟨out, hout, hids, -, h⟩ := merge_separates asciiTables [hostA, hostC, hostAC] hsighting
  obtain ⟨haliases, hone⟩ := h hstable
  rw [hout] at hmerge
  refine ⟨out, hout, Except.ok.inj hmerge, hids, haliases, fun item hitem => ?_⟩
  have hhost : ∀ x ∈ [hostA, hostC, hostAC], isIdentityType x.ciType = true := by decide
  have hkept := hone item hitem
  rwa [if_pos (hhost item hitem)] at hkept

/-- What a service says may be kept in two records, and a host that was merged twice may have got
the alias of another. -/
theorem service_kept_twice : ¬ Separates asciiTables [webService, wwwService] ∧
    ¬ Separates asciiTables [hostA, hostB, hostB] := by
  constructor
  · rintro ⟨out, hout, -, -, hone⟩
    have hmerge : merge asciiTables [webService, wwwService] = .ok [webService, wwwService] := rfl
    cases Except.ok.inj (hmerge.symm.trans hout)
    obtain ⟨r, -, hunique⟩ := hone webService List.mem_cons_self
    have hweb := hunique webService ⟨List.mem_cons_self, rfl, List.Subset.refl _,
      List.Subset.refl _, List.Subset.refl _⟩
    have hwww := hunique wwwService ⟨List.mem_cons_of_mem _ (List.mem_singleton.mpr rfl), rfl,
      by decide, List.Subset.refl _, List.Subset.refl _⟩
    exact absurd (congrArg DiscoveredCI.name (hweb.trans hwww.symm)) (by decide)
  · rintro ⟨out, hout, -, haliases, -⟩
    have hmerge : (merge asciiTables [hostA, hostB, hostB]).map (List.map fun r =>
        (r.ciType, r.identityAliases asciiTables)) = .ok [("host", ["a"]), ("host", ["a", "b"])] :=
      rfl
    rw [hout] at hmerge
    have hpairs : (out.map fun r => (r.ciType, r.identityAliases asciiTables)).Pairwise fun p q =>
        p.1 = q.1 → isIdentityType p.1 = true → ∀ a ∈ p.2, a ∉ q.2 :=
      List.pairwise_map.mpr haliases
    rw [Except.ok.inj hmerge] at hpairs
    exact absurd hpairs (by decide)

end SkCoord.Cmdb
