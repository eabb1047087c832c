import SkCoord.Clustering.Preference
import SkCoord.Cmdb.Equiv.Merge

/-!
# The fields of a record

What a record says does not depend on the order in which its sightings came in, but for the fields
that are taken over by preference: sets and flags are unions (`IsRecord.mem_tags`,
`IsRecord.declared_iff`), the canonical name is the least of the names that count
(`IsRecord.label_least`), and the time is the latest (`IsRecord.observedAt_latest`).
`isPreference_of_merge` is the rule for the others.
-/

namespace SkCoord.Cmdb

open Python Clustering

variable {u : CharTables} {q r s : DiscoveredCI} {P : DiscoveredCI → Prop}
  {S T : List DiscoveredCI}

theorem sortedTexts_congr {l m : List String} (h : ∀ x, x ∈ l ↔ x ∈ m) :
    sortedTexts l = sortedTexts m := insertionSort_dedup_congr h

theorem sortedPairs_congr {l m : List (String × String)} (h : ∀ x, x ∈ l ↔ x ∈ m) :
    sortedPairs l = sortedPairs m := by
  unfold sortedPairs
  have hmap : ∀ l : List (String × String),
      (l.dedup.insertionSort fun x y => toLex x ≤ toLex y).map toLex =
        (l.map toLex).dedup.insertionSort (· ≤ ·) := by
    intro l
    rw [List.map_insertionSort (fun x y => toLex x ≤ toLex y) (· ≤ ·) toLex _
      fun _ _ _ _ => Iff.rfl, List.dedup_map_of_injective toLex.injective]
  refine List.map_injective_iff.mpr toLex.injective ?_
  rw [hmap, hmap]
  refine insertionSort_dedup_congr fun x => ?_
  simp only [List.mem_map]
  exact exists_congr fun y => and_congr_left fun _ => h y

/-! ### Sources -/

/-- The parts of a source. -/
def sourceParts (source : String) : List String :=
  (splitOn '+' source.toList).map String.ofList

theorem splitOn_ne_nil (c : Char) (l : List Char) : splitOn c l ≠ [] := by
  induction l with
  | nil => exact List.cons_ne_nil _ _
  | cons d l ih =>
    unfold splitOn
    split
    · exact List.cons_ne_nil _ _
    · split <;> exact List.cons_ne_nil _ _

theorem notMem_of_mem_splitOn {c : Char} : ∀ {l p : List Char}, p ∈ splitOn c l → c ∉ p
  | [], p, hp => by
    rw [List.mem_singleton.mp hp]
    exact List.not_mem_nil
  | d :: l, p, hp => by
    unfold splitOn at hp
    split at hp
    · rcases List.mem_cons.mp hp with rfl | hp
      · exact List.not_mem_nil
      · exact notMem_of_mem_splitOn hp
    · rename_i hne
      split at hp
      · rename_i hnil
        exact absurd hnil (splitOn_ne_nil c l)
      · rename_i part parts hparts
        rcases List.mem_cons.mp hp with rfl | hp
        · refine List.not_mem_cons_of_ne_of_not_mem (Ne.symm hne) (notMem_of_mem_splitOn (l := l) ?_)
          rw [hparts]
          exact List.mem_cons_self
        · refine notMem_of_mem_splitOn (l := l) ?_
          rw [hparts]
          exact List.mem_cons_of_mem _ hp

theorem splitOn_part {c : Char} {p : List Char} (hp : c ∉ p) : splitOn c p = [p] := by
  induction p with
  | nil => rfl
  | cons d p ih =>
    obtain ⟨hd, hp⟩ := List.ne_and_not_mem_of_not_mem_cons hp
    rw [splitOn, if_neg (Ne.symm hd), ih hp]

theorem splitOn_part_append {c : Char} {p : List Char} (hp : c ∉ p) (l : List Char) :
    splitOn c (p ++ c :: l) = p :: splitOn c l := by
  induction p with
  | nil => rw [List.nil_append, splitOn, if_pos rfl]
  | cons d p ih =>
    obtain ⟨hd, hp⟩ := List.ne_and_not_mem_of_not_mem_cons hp
    rw [List.cons_append, splitOn, if_neg (Ne.symm hd), ih hp]

/-- A join is split into its parts. -/
theorem splitOn_intercalate {c : Char} : ∀ {parts : List (List Char)}, parts ≠ [] →
    (∀ p ∈ parts, c ∉ p) → splitOn c ([c].intercalate parts) = parts
  | [], hne, _ => absurd rfl hne
  | [p], _, hparts => by
    rw [List.intercalate_singleton]
    exact splitOn_part (hparts p (List.mem_singleton.mpr rfl))
  | p :: p' :: parts, _, hparts => by
    obtain ⟨hp, hrest⟩ := List.forall_mem_cons.mp hparts
    have hne : p' :: parts ≠ [] := List.cons_ne_nil p' parts
    rw [List.intercalate_cons_of_ne_nil hne, List.append_assoc, List.singleton_append,
      splitOn_part_append hp, splitOn_intercalate hne hrest]

theorem sourceParts_ne_nil (source : String) : sourceParts source ≠ [] := fun h =>
  splitOn_ne_nil '+' source.toList (List.map_eq_nil_iff.mp h)

/-- The parts of a merged source are those of the two. -/
theorem sourceParts_mergedSource (x y : String) :
    sourceParts (DiscoveredCI.mergedSource x y) =
      sortedTexts (sourceParts x ++ sourceParts y) := by
  have hparts : ∀ p ∈ (sortedTexts (sourceParts x ++ sourceParts y)).map String.toList,
      '+' ∉ p := by
    intro p hp
    obtain ⟨t, ht, rfl⟩ := List.mem_map.mp hp
    rw [mem_sortedTexts, List.mem_append] at ht
    rcases ht with ht | ht
    all_goals
      obtain ⟨part, hpart, rfl⟩ := List.mem_map.mp ht
      rw [String.toList_ofList]
      exact notMem_of_mem_splitOn hpart
  have hne : (sortedTexts (sourceParts x ++ sourceParts y)).map String.toList ≠ [] := by
    obtain ⟨t, ht⟩ := List.exists_mem_of_ne_nil _ (sourceParts_ne_nil x)
    refine List.ne_nil_of_mem (List.mem_map_of_mem (a := t) ?_)
    rw [mem_sortedTexts]
    exact List.mem_append_left _ ht
  show ((splitOn '+' (String.intercalate "+" _).toList).map String.ofList) = _
  rw [String.toList_intercalate]
  have hsplit := splitOn_intercalate hne hparts
  rw [show "+".toList = ['+'] from rfl]
  refine (congrArg (List.map String.ofList) hsplit).trans ?_
  rw [List.map_map]
  exact (List.map_congr_left fun t _ => String.ofList_toList).trans (List.map_id _)

/-! ### Unions -/

/-- The tags of a record are those of its sightings. -/
theorem IsRecord.mem_tags (h : IsRecord u P r S) : ∀ t, t ∈ r.tags ↔ ∃ i ∈ S, t ∈ i.tags := by
  induction h with
  | single hx => simp
  | fuse hm hacc hx hsame hq ihm ihacc =>
    intro t
    rw [(isMerge_of_ok hq).tags, mem_sortedTexts, List.mem_append, ihm, ihacc]
    simp only [List.mem_append, or_and_right, exists_or]

theorem IsRecord.mem_relationships (h : IsRecord u P r S) :
    ∀ p, p ∈ r.relationships ↔ ∃ i ∈ S, p ∈ i.relationships := by
  induction h with
  | single hx => simp
  | fuse hm hacc hx hsame hq ihm ihacc =>
    intro p
    rw [(isMerge_of_ok hq).relationships, mem_sortedPairs, List.mem_append, ihm, ihacc]
    simp only [List.mem_append, or_and_right, exists_or]

theorem IsRecord.mem_sourceParts (h : IsRecord u P r S) :
    ∀ t, t ∈ sourceParts r.source ↔ ∃ i ∈ S, t ∈ sourceParts i.source := by
  induction h with
  | single hx => simp
  | fuse hm hacc hx hsame hq ihm ihacc =>
    intro t
    rw [(isMerge_of_ok hq).source, sourceParts_mergedSource, mem_sortedTexts, List.mem_append, ihm,
      ihacc]
    simp only [List.mem_append, or_and_right, exists_or]

theorem IsMerge.declared {self other : DiscoveredCI} (h : IsMerge u self other q) :
    q.declared = (self.declared || other.declared) := by
  rw [DiscoveredCI.declared, h.declaredFlag]
  rfl

/-- A record is declared when one of its sightings is. -/
theorem IsRecord.declared_iff (h : IsRecord u P r S) :
    r.declared = true ↔ ∃ i ∈ S, i.declared = true := by
  induction h with
  | single hx => simp
  | fuse hm hacc hx hsame hq ihm ihacc =>
    rw [(isMerge_of_ok hq).declared, Bool.or_eq_true, ihm, ihacc]
    simp only [List.mem_append, or_and_right, exists_or]

/-! ### The name and the time -/

/-- Some sighting is declared. -/
def HasDeclared (S : List DiscoveredCI) : Prop := ∃ d ∈ S, d.declared = true

/-- The name of the sighting counts: it is declared, or none of the sightings is. -/
def Counts (S : List DiscoveredCI) (i : DiscoveredCI) : Prop :=
  i.declared = true ∨ ¬ HasDeclared S

/-- The name is the least of the names that count. -/
def IsLeastName (S : List DiscoveredCI) (name : String) : Prop :=
  (∃ i ∈ S, Counts S i ∧ i.label = name) ∧ ∀ i ∈ S, Counts S i → name ≤ i.label

theorem hasDeclared_append : HasDeclared (S ++ T) ↔ HasDeclared S ∨ HasDeclared T := by
  simp only [HasDeclared, List.mem_append, or_and_right, exists_or]

theorem counts_congr (h : HasDeclared S ↔ HasDeclared T) (i : DiscoveredCI) :
    Counts S i ↔ Counts T i := or_congr_right (not_congr h)

namespace IsLeastName

variable {name name' : String}

theorem perm (h : IsLeastName S name) (hperm : S.Perm T) : IsLeastName T name := by
  have hdeclared : HasDeclared S ↔ HasDeclared T :=
    exists_congr fun d => and_congr_left fun _ => hperm.mem_iff
  obtain ⟨⟨i, hi, hci, hlabel⟩, hleast⟩ := h
  exact ⟨⟨i, hperm.subset hi, (counts_congr hdeclared i).mp hci, hlabel⟩,
    fun j hj hcj => hleast j (hperm.symm.subset hj) ((counts_congr hdeclared j).mpr hcj)⟩

theorem unique (h : IsLeastName S name) (h' : IsLeastName S name') : name = name' := by
  obtain ⟨⟨i, hi, hci, rfl⟩, hleast⟩ := h
  obtain ⟨⟨j, hj, hcj, rfl⟩, hleast'⟩ := h'
  exact le_antisymm (hleast j hj hcj) (hleast' i hi hci)

/-- The names of undeclared sightings do not count beside those of declared ones. -/
theorem append_undeclared (h : IsLeastName S name) (hS : HasDeclared S) (hT : ¬ HasDeclared T) :
    IsLeastName (S ++ T) name := by
  obtain ⟨⟨i, hi, hci, hlabel⟩, hleast⟩ := h
  have hidecl : i.declared = true := hci.resolve_right fun hnot => hnot hS
  refine ⟨⟨i, List.mem_append_left _ hi, .inl hidecl, hlabel⟩, fun j hj hcj => ?_⟩
  have hjdecl : j.declared = true :=
    hcj.resolve_right fun hnot => hnot (hasDeclared_append.mpr (.inl hS))
  rcases List.mem_append.mp hj with hj | hj
  · exact hleast j hj (.inl hjdecl)
  · exact absurd ⟨j, hj, hjdecl⟩ hT

/-- Otherwise the least name is the lesser of the two. -/
theorem append_min (h : IsLeastName S name) (h' : IsLeastName T name')
    (hboth : HasDeclared S ↔ HasDeclared T) : IsLeastName (S ++ T) (min name name') := by
  have hleft : HasDeclared (S ++ T) ↔ HasDeclared S := by
    rw [hasDeclared_append, ← hboth, or_self]
  have hright : HasDeclared (S ++ T) ↔ HasDeclared T := hleft.trans hboth
  obtain ⟨⟨i, hi, hci, hilabel⟩, hleast⟩ := h
  obtain ⟨⟨j, hj, hcj, hjlabel⟩, hleast'⟩ := h'
  constructor
  · rcases min_choice name name' with hmin | hmin
    · exact ⟨i, List.mem_append_left _ hi, (counts_congr hleft i).mpr hci, hilabel.trans hmin.symm⟩
    · exact ⟨j, List.mem_append_right _ hj, (counts_congr hright j).mpr hcj,
        hjlabel.trans hmin.symm⟩
  · intro k hk hck
    rcases List.mem_append.mp hk with hk | hk
    · exact (min_le_left _ _).trans (hleast k hk ((counts_congr hleft k).mp hck))
    · exact (min_le_right _ _).trans (hleast' k hk ((counts_congr hright k).mp hck))

end IsLeastName

/-- **The name of a record** is the least of the names of its sightings that count. -/
theorem IsRecord.label_least (hP : ∀ {i : DiscoveredCI}, P i → i.IsSighting)
    (h : IsRecord u P r S) : IsLeastName S r.label := by
  induction h with
  | @single x hx =>
    have hcounts : Counts [x] x := by
      by_cases hdecl : x.declared = true
      · exact .inl hdecl
      · refine .inr ?_
        rintro ⟨d, hd, hd'⟩
        exact hdecl (List.mem_singleton.mp hd ▸ hd')
    exact ⟨⟨x, List.mem_singleton.mpr rfl, hcounts, rfl⟩,
      List.forall_mem_singleton.mpr fun _ => le_rfl⟩
  | @fuse m acc q x S T hm hacc hx hsame hq ihm ihacc =>
    have hS : m.declared = true ↔ HasDeclared S := IsRecord.declared_iff hm
    have hT : acc.declared = true ↔ HasDeclared T := IsRecord.declared_iff hacc
    rw [(isMerge_of_ok hq).label_eq (IsRecord.isSighting hP hm) (IsRecord.isSighting hP hacc)]
    unfold DiscoveredCI.agreedName
    split
    · rename_i hleft
      rw [Bool.and_eq_true, Bool.not_eq_true'] at hleft
      exact ihm.append_undeclared (hS.mp hleft.1) fun hdecl =>
        Bool.noConfusion (hleft.2.symm.trans (hT.mpr hdecl))
    · split
      · rename_i hright
        rw [Bool.and_eq_true, Bool.not_eq_true'] at hright
        exact (ihacc.append_undeclared (hT.mp hright.1) fun hdecl =>
          Bool.noConfusion (hright.2.symm.trans (hS.mpr hdecl))).perm List.perm_append_comm
      · rename_i hleft hright
        refine ihm.append_min ihacc ?_
        rw [← hS, ← hT]
        revert hleft hright
        cases m.declared <;> cases acc.declared <;> simp

/-- **The time of a record** is the latest of its sightings. -/
theorem IsRecord.observedAt_latest (h : IsRecord u P r S) :
    (∃ i ∈ S, i.observedAt = r.observedAt) ∧ ∀ i ∈ S, i.observedAt ≤ r.observedAt := by
  induction h with
  | single hx =>
    exact ⟨⟨_, List.mem_singleton.mpr rfl, rfl⟩, List.forall_mem_singleton.mpr le_rfl⟩
  | @fuse m acc q x S T hm hacc hx hsame hq ihm ihacc =>
    obtain ⟨⟨i, hi, hitime⟩, hlatestm⟩ := ihm
    obtain ⟨⟨j, hj, hjtime⟩, hlatestacc⟩ := ihacc
    rw [(isMerge_of_ok hq).observedAt]
    refine ⟨?_, List.forall_mem_append.mpr ⟨fun k hk => ?_, fun k hk => ?_⟩⟩
    · rcases max_choice m.observedAt acc.observedAt with hmax | hmax
      · exact ⟨i, List.mem_append_left _ hi, hitime.trans hmax.symm⟩
      · exact ⟨j, List.mem_append_right _ hj, hjtime.trans hmax.symm⟩
    · exact (hlatestm k hk).trans (le_max_left _ _)
    · exact (hlatestacc k hk).trans (le_max_right _ _)

/-! ### Preferences -/

/-- The text, if it is not empty. -/
def textValue (t : String) : Option String := if t = "" then none else some t

theorem textValue_orText (x y : String) :
    textValue (orText x y) = (textValue x).or (textValue y) := by
  unfold textValue orText
  by_cases hx : x = ""
  · rw [if_pos hx, if_pos hx, Option.none_or]
  · rw [if_neg hx, if_neg hx, Option.some_or]

theorem textValue_injective : Function.Injective textValue := by
  intro x y h
  unfold textValue at h
  split at h
  · rename_i hx
    split at h
    · rename_i hy
      rw [hx, hy]
    · cases h
  · split at h
    · cases h
    · exact Option.some.inj h

/-- The value of an attribute. -/
def DiscoveredCI.attribute (key : String) (item : DiscoveredCI) : Option Json :=
  match item.attributes with
  | .obj d => Assoc.get? d key
  | _ => none

theorem attribute_eq {d : Dict} (h : r.attributes = .obj d) (key : String) :
    r.attribute key = Assoc.get? d key := by
  rw [DiscoveredCI.attribute, h]

/-- A merge prefers the attributes of the sighting whose word counts. -/
theorem IsMerge.attribute {self other : DiscoveredCI} (h : IsMerge u self other q)
    (hself : self.IsSighting) (hother : other.IsSighting) (key : String) :
    q.attribute key = ((self.primary other).attribute key).or
      ((self.secondary other).attribute key) := by
  have hprimary : (self.primary other).IsSighting := by
    rcases primary_eq_or self other with ⟨hp, -⟩ | ⟨hp, -⟩
    · exact hp.symm ▸ hself
    · exact hp.symm ▸ hother
  have hsecondary : (self.secondary other).IsSighting := by
    rcases primary_eq_or self other with ⟨-, hs⟩ | ⟨-, hs⟩
    · exact hs.symm ▸ hother
    · exact hs.symm ▸ hself
  obtain ⟨e, he, hnodup⟩ := hprimary.attributes
  obtain ⟨d, hd, -⟩ := hsecondary.attributes
  have hattributes := h.attributes
  rw [mergedAttributes_eq hd he] at hattributes
  rw [attribute_eq (Except.ok.inj hattributes).symm, attribute_eq he, attribute_eq hd]
  exact Assoc.get?_update key e d hnodup

/-- A value that a merge takes from the sighting whose word counts, if it has one. -/
theorem isPreference_of_merge {β : Type*} {value : DiscoveredCI → Option β}
    (hP : ∀ {i : DiscoveredCI}, P i → i.IsSighting)
    (h : ∀ {x y q : DiscoveredCI}, x.IsSighting → y.IsSighting → IsMerge u x y q →
      value q = (value (x.primary y)).or (value (x.secondary y))) :
    IsPreference (DiscoveredCI.sameIdentity u) (DiscoveredCI.mergedWith u) P
      DiscoveredCI.observed value where
  pref_fuse := fun _ _ hq => (isMerge_of_ok hq).observed
  value_fuse := by
    intro m acc q S T hm hacc hq
    rw [h (IsRecord.isSighting hP hm) (IsRecord.isSighting hP hacc) (isMerge_of_ok hq)]
    unfold DiscoveredCI.primary DiscoveredCI.secondary
    split <;> rfl

/-- The sightings are settled about every field that is taken over by preference. -/
structure IsSettled (u : CharTables) (S : List DiscoveredCI) : Prop where
  name : SettledOn (DiscoveredCI.sameIdentity u) DiscoveredCI.observed (fun i => some i.name) S
  schemaVersion : SettledOn (DiscoveredCI.sameIdentity u) DiscoveredCI.observed
    (fun i => some i.schemaVersion) S
  node : SettledOn (DiscoveredCI.sameIdentity u) DiscoveredCI.observed (fun i => textValue i.node) S
  description : SettledOn (DiscoveredCI.sameIdentity u) DiscoveredCI.observed
    (fun i => textValue i.description) S
  scanId : SettledOn (DiscoveredCI.sameIdentity u) DiscoveredCI.observed
    (fun i => textValue i.scanId) S
  lifecycleScope : SettledOn (DiscoveredCI.sameIdentity u) DiscoveredCI.observed
    (fun i => textValue i.lifecycleScope) S
  attributes : ∀ key, SettledOn (DiscoveredCI.sameIdentity u) DiscoveredCI.observed
    (DiscoveredCI.attribute key) S

section

variable (hP : ∀ {i : DiscoveredCI}, P i → i.IsSighting)
include hP

theorem isPreference_name : IsPreference (DiscoveredCI.sameIdentity u) (DiscoveredCI.mergedWith u) P
    DiscoveredCI.observed fun i => some i.name :=
  isPreference_of_merge hP fun _ _ h => by rw [h.name, Option.some_or]

theorem isPreference_schemaVersion : IsPreference (DiscoveredCI.sameIdentity u)
    (DiscoveredCI.mergedWith u) P DiscoveredCI.observed fun i => some i.schemaVersion :=
  isPreference_of_merge hP fun _ _ h => by rw [h.schemaVersion, Option.some_or]

theorem isPreference_node : IsPreference (DiscoveredCI.sameIdentity u) (DiscoveredCI.mergedWith u) P
    DiscoveredCI.observed fun i => textValue i.node :=
  isPreference_of_merge hP fun _ _ h => by rw [h.node, textValue_orText]

theorem isPreference_description : IsPreference (DiscoveredCI.sameIdentity u)
    (DiscoveredCI.mergedWith u) P DiscoveredCI.observed fun i => textValue i.description :=
  isPreference_of_merge hP fun _ _ h => by rw [h.description, textValue_orText]

theorem isPreference_scanId : IsPreference (DiscoveredCI.sameIdentity u)
    (DiscoveredCI.mergedWith u) P DiscoveredCI.observed fun i => textValue i.scanId :=
  isPreference_of_merge hP fun _ _ h => by rw [h.scanId, textValue_orText]

theorem isPreference_lifecycleScope : IsPreference (DiscoveredCI.sameIdentity u)
    (DiscoveredCI.mergedWith u) P DiscoveredCI.observed fun i => textValue i.lifecycleScope :=
  isPreference_of_merge hP fun _ _ h => by rw [h.lifecycleScope, textValue_orText]

theorem isPreference_attribute (key : String) : IsPreference (DiscoveredCI.sameIdentity u)
    (DiscoveredCI.mergedWith u) P DiscoveredCI.observed (DiscoveredCI.attribute key) :=
  isPreference_of_merge hP fun hx hy h => h.attribute hx hy key

end

/-! ### Records of the same sightings -/

/-- The records are equal, up to the order of the attributes. -/
structure SameRecord (r s : DiscoveredCI) : Prop where
  fields : s = { r with attributes := s.attributes }
  attributes : r.attributes = s.attributes ∨ ∃ d e, r.attributes = .obj d ∧
    s.attributes = .obj e ∧ ∀ key, Assoc.get? d key = Assoc.get? e key

theorem SameRecord.attribute (h : SameRecord r s) (key : String) :
    r.attribute key = s.attribute key := by
  rcases h.attributes with heq | ⟨d, e, hd, he, hget⟩
  · rw [DiscoveredCI.attribute, DiscoveredCI.attribute, heq]
  · rw [attribute_eq hd, attribute_eq he, hget]

theorem SameRecord.symm (h : SameRecord r s) : SameRecord s r := by
  refine ⟨by rw [h.fields], ?_⟩
  rcases h.attributes with heq | ⟨d, e, hd, he, hget⟩
  · exact .inl heq.symm
  · exact .inr ⟨e, d, he, hd, fun key => (hget key).symm⟩

theorem SameRecord.trans (hqr : SameRecord q r) (hrs : SameRecord r s) : SameRecord q s := by
  refine ⟨by rw [hrs.fields, hqr.fields], ?_⟩
  rcases hqr.attributes with hqr' | ⟨d, e, hd, he, hget⟩
  · rw [hqr']
    exact hrs.attributes
  · rcases hrs.attributes with hrs' | ⟨e', f, he', hf, hget'⟩
    · exact .inr ⟨d, e, hd, hrs' ▸ he, hget⟩
    · cases Json.obj.inj (he.symm.trans he')
      exact .inr ⟨d, f, hd, hf, fun key => (hget key).trans (hget' key)⟩

theorem SameRecord.refl (r : DiscoveredCI) : SameRecord r r := ⟨rfl, .inl rfl⟩

/-- A merge has its name as its canonical name. -/
theorem IsMerge.canonicalName_label {self other : DiscoveredCI} (h : IsMerge u self other q)
    (hself : self.IsSighting) (hother : other.IsSighting) : q.canonicalName = q.label := by
  rw [h.label_eq hself hother, h.canonicalName_eq hself hother]

theorem IsMerge.declaredFlag_eq {self other : DiscoveredCI} (h : IsMerge u self other q) :
    q.declaredFlag = some q.declared := by
  rw [h.declared, h.declaredFlag]

theorem IsMerge.authority_eq {self other : DiscoveredCI} (h : IsMerge u self other q) :
    q.authority = if q.observed then authorityObserved else authorityDeclared := by
  rw [h.observed, h.authority]

/-- The source of a merge is the join of its sorted parts. -/
theorem IsMerge.source_eq {self other : DiscoveredCI} (h : IsMerge u self other q) :
    q.source = String.intercalate "+" (sortedTexts (sourceParts q.source)) := by
  have hparts : sourceParts q.source = sortedTexts (sourceParts self.source ++
      sourceParts other.source) := by rw [h.source, sourceParts_mergedSource]
  have hsorted : sortedTexts (sourceParts q.source) =
      sortedTexts (sourceParts self.source ++ sourceParts other.source) :=
    sortedTexts_congr fun t => by rw [hparts, mem_sortedTexts]
  rw [hsorted, h.source]
  rfl

/-- The sorted fields of a merge, from what is in them. -/
theorem IsMerge.sorted {self other : DiscoveredCI} (h : IsMerge u self other q) :
    q.tags = sortedTexts q.tags ∧ q.relationships = sortedPairs q.relationships ∧
      q.aliases = sortedTexts q.aliases := by
  refine ⟨?_, ?_, ?_⟩
  · exact h.tags.trans (sortedTexts_congr fun t => by rw [h.tags, mem_sortedTexts])
  · exact h.relationships.trans (sortedPairs_congr fun p => by rw [h.relationships, mem_sortedPairs])
  · exact h.aliases.trans (sortedTexts_congr fun a => by rw [h.aliases, mem_sortedTexts])

/-- The aliases that a merge lists are those by which it is recognised. -/
theorem IsMerge.mem_aliases {self other : DiscoveredCI} (h : IsMerge u self other q)
    (hself : self.IsSighting) (hother : other.IsSighting) (hself' : self.StableAliases u)
    (hother' : other.StableAliases u) (a : String) : a ∈ q.aliases ↔ a ∈ q.identityAliases u := by
  rw [h.mem_identityAliases hself hother hself' hother', h.aliases, mem_sortedTexts,
    List.mem_append]

/-- The latest time of the same sightings. -/
theorem observedAt_unique {t t' : String}
    (h : (∃ i ∈ S, i.observedAt = t) ∧ ∀ i ∈ S, i.observedAt ≤ t)
    (h' : (∃ i ∈ S, i.observedAt = t') ∧ ∀ i ∈ S, i.observedAt ≤ t') : t = t' := by
  obtain ⟨⟨i, hi, rfl⟩, hlatest⟩ := h
  obtain ⟨⟨j, hj, rfl⟩, hlatest'⟩ := h'
  exact le_antisymm (hlatest' i hi) (hlatest j hj)

section

variable (hP : ∀ {i : DiscoveredCI}, P i → i.IsSighting)
  (hstable : ∀ {i : DiscoveredCI}, P i → i.StableAliases u)
include hP hstable

/-- A record is its sighting or a merge of two records. -/
theorem IsRecord.single_or_merge (h : IsRecord u P r S) : S = [r] ∨ 2 ≤ S.length ∧
    ∃ x y, IsMerge u x y r ∧ x.IsSighting ∧ y.IsSighting ∧ ∀ a, a ∈ r.aliases ↔
      a ∈ r.identityAliases u := by
  rcases h.single_or_fuse with hsingle | ⟨hlen, x, y, Sx, Sy, hx, hy, hq⟩
  · exact .inl hsingle
  · have hmerge := isMerge_of_ok hq
    have hx' := IsRecord.isSighting hP hx
    have hy' := IsRecord.isSighting hP hy
    exact .inr ⟨hlen, x, y, hmerge, hx', hy', hmerge.mem_aliases hx' hy'
      (IsRecord.aliases hP hstable hx).1 (IsRecord.aliases hP hstable hy).1⟩

/-- **Records of the same sightings** are the same, where the sightings are settled. -/
theorem sameRecord_of_perm (hby : ByMembers (DiscoveredCI.sameIdentity u)
      (DiscoveredCI.mergedWith u) P) (hsettled : IsSettled u S) (hr : IsRecord u P r S)
    (hs : IsRecord u P s T) (hperm : S.Perm T) : SameRecord r s := by
  rcases IsRecord.single_or_merge hP hstable hr with hsingle | ⟨hlen, x, y, hxy, hx, hy, haliases⟩
  · -- one sighting is its own record
    rcases IsRecord.single_or_merge hP hstable hs with hsingle' | ⟨hlen', -⟩
    · rw [hsingle, hsingle', List.singleton_perm_singleton] at hperm
      exact hperm ▸ SameRecord.refl r
    · rw [← hperm.length_eq, hsingle] at hlen'
      exact absurd hlen' (by simp)
  · rcases IsRecord.single_or_merge hP hstable hs with
      hsingle' | ⟨-, x', y', hxy', hx', hy', haliases'⟩
    · rw [hperm.length_eq, hsingle'] at hlen
      exact absurd hlen (by simp)
    have hunion : ∀ (p : DiscoveredCI → Prop), (∃ i ∈ S, p i) ↔ ∃ i ∈ T, p i := fun p =>
      exists_congr fun i => and_congr_left fun _ => hperm.mem_iff
    obtain ⟨i, hi⟩ := List.exists_mem_of_ne_nil S hr.ne_nil
    have hciType : r.ciType = s.ciType := by
      rw [← IsRecord.ciType hr i hi, IsRecord.ciType hs i (hperm.subset hi)]
    have hname := (isPreference_name hP).value_eq_of_settled hby hsettled.name hr hs hperm
    have hschema :=
      (isPreference_schemaVersion hP).value_eq_of_settled hby hsettled.schemaVersion hr hs hperm
    have hnode := textValue_injective
      ((isPreference_node hP).value_eq_of_settled hby hsettled.node hr hs hperm)
    have hdescription := textValue_injective
      ((isPreference_description hP).value_eq_of_settled hby hsettled.description hr hs hperm)
    have hscanId := textValue_injective
      ((isPreference_scanId hP).value_eq_of_settled hby hsettled.scanId hr hs hperm)
    have hscope := textValue_injective
      ((isPreference_lifecycleScope hP).value_eq_of_settled hby hsettled.lifecycleScope hr hs hperm)
    have hobserved : r.observed = s.observed := by
      rw [Bool.eq_iff_iff, (isPreference_name hP).pref_iff hr, (isPreference_name hP).pref_iff hs]
      exact hunion _
    have hdeclared : r.declared = s.declared := by
      rw [Bool.eq_iff_iff, IsRecord.declared_iff hr, IsRecord.declared_iff hs]
      exact hunion _
    have htags : r.tags = s.tags := by
      rw [hxy.sorted.1, hxy'.sorted.1]
      refine sortedTexts_congr fun t => ?_
      rw [IsRecord.mem_tags hr, IsRecord.mem_tags hs]
      exact hunion _
    have hrels : r.relationships = s.relationships := by
      rw [hxy.sorted.2.1, hxy'.sorted.2.1]
      refine sortedPairs_congr fun p => ?_
      rw [IsRecord.mem_relationships hr, IsRecord.mem_relationships hs]
      exact hunion _
    have hnames : r.aliases = s.aliases := by
      rw [hxy.sorted.2.2, hxy'.sorted.2.2]
      refine sortedTexts_congr fun a => ?_
      rw [haliases, haliases', (IsRecord.aliases hP hstable hr).2,
        (IsRecord.aliases hP hstable hs).2]
      exact hunion _
    have hsource : r.source = s.source := by
      rw [hxy.source_eq, hxy'.source_eq]
      refine congrArg _ (sortedTexts_congr fun t => ?_)
      rw [IsRecord.mem_sourceParts hr, IsRecord.mem_sourceParts hs]
      exact hunion _
    have hcanonical : r.canonicalName = s.canonicalName := by
      rw [hxy.canonicalName_label hx hy, hxy'.canonicalName_label hx' hy']
      exact ((IsRecord.label_least hP hr).perm hperm).unique (IsRecord.label_least hP hs)
    have htime : r.observedAt = s.observedAt := by
      obtain ⟨htime, hlatest⟩ := IsRecord.observedAt_latest hr
      exact observedAt_unique ⟨(hunion _).mp htime, fun j hj => hlatest j (hperm.symm.subset hj)⟩
        (IsRecord.observedAt_latest hs)
    have hflag : r.declaredFlag = s.declaredFlag := by
      rw [hxy.declaredFlag_eq, hxy'.declaredFlag_eq, hdeclared]
    have hauthority : r.authority = s.authority := by
      rw [hxy.authority_eq, hxy'.authority_eq, hobserved]
    obtain ⟨d, hd, -⟩ := (IsRecord.isSighting hP hr).attributes
    obtain ⟨e, he, -⟩ := (IsRecord.isSighting hP hs).attributes
    refine ⟨?_, .inr ⟨d, e, hd, he, fun key => ?_⟩⟩
    · cases r
      cases s
      simp only [Option.some.injEq] at hname hschema
      simp only at *
      simp only [*]
    · have hkey := (isPreference_attribute hP key).value_eq_of_settled hby
        (hsettled.attributes key) hr hs hperm
      rwa [attribute_eq hd, attribute_eq he] at hkey

end

end SkCoord.Cmdb
