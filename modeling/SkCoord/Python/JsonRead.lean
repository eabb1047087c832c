import SkCoord.Python.JsonRoundTrip

/-!
# Values that are read

What `json.loads` returns is a value that Python can hold (`wellFormed_of_loads`), so it is read again
as it was once it is written.
-/

namespace Python

/-- What is read as a float is one. -/
structure FloatText.Reads (F : FloatText) : Prop where
  value : ∀ t, F.IsDouble (F.value t)
  constant : ∀ text, F.IsDouble (F.constant text)

theorem zeroFloats_reads : zeroFloats.Reads := ⟨fun _ => rfl, fun _ => rfl⟩

namespace Json

variable {F : FloatText}

theorem wellFormed_ofNumber (hF : F.Reads) (t : NumText) : (ofNumber F t).WellFormed F := by
  unfold ofNumber
  split
  · exact hF.value t
  · exact trivial

theorem wellFormed_ofPairs {l : List (String × Json)} (h : ∀ p ∈ l, p.2.WellFormed F) :
    (obj (ofPairs l)).WellFormed F :=
  WellFormed.update (fieldsWellFormed_iff.mpr h) ⟨List.nodup_nil, trivial⟩

theorem elemsWellFormed_iff {l : List Json} :
    ElemsWellFormed F l ↔ ∀ v ∈ l, v.WellFormed F := by
  induction l with
  | nil => exact ⟨fun _ _ h => absurd h List.not_mem_nil, fun _ => trivial⟩
  | cons v l ih => rw [ElemsWellFormed, ih, List.forall_mem_cons]

/-- What the four parts of the parser read up to a depth. -/
structure ReadsWell (F : FloatText) (n : ℕ) : Prop where
  value : ∀ {l v r}, parseValue F n l = some (v, r) → v.WellFormed F
  elems : ∀ {l vs r}, parseElems F n l = some (vs, r) → ∀ v ∈ vs, v.WellFormed F
  field : ∀ {l p r}, parseField F n l = some (p, r) → p.2.WellFormed F
  fields : ∀ {l ps r}, parseFields F n l = some (ps, r) → ∀ p ∈ ps, p.2.WellFormed F

theorem ReadsWell.succ_value (hF : F.Reads) {n : ℕ} (ih : ReadsWell F n) {l : List Char} {v : Json}
    {r : List Char} (h : parseValue F (n + 1) l = some (v, r)) : v.WellFormed F := by
  unfold parseValue at h
  split at h
  · obtain ⟨p, -, h⟩ := Option.map_eq_some_iff.mp h
    cases h
    exact trivial
  · split at h
    · cases h
      exact trivial
    · obtain ⟨⟨u, l'⟩, hu, h⟩ := Option.bind_eq_some_iff.mp h
      obtain ⟨⟨us, l''⟩, hus, h⟩ := Option.bind_eq_some_iff.mp h
      cases h
      exact ⟨ih.value hu, elemsWellFormed_iff.mpr (ih.elems hus)⟩
  · split at h
    · cases h
      exact ⟨List.nodup_nil, trivial⟩
    · obtain ⟨⟨p, l'⟩, hp, h⟩ := Option.bind_eq_some_iff.mp h
      obtain ⟨⟨ps, l''⟩, hps, h⟩ := Option.bind_eq_some_iff.mp h
      cases h
      exact wellFormed_ofPairs (List.forall_mem_cons.mpr ⟨ih.field hp, ih.fields hps⟩)
  · cases h
    exact trivial
  · cases h
    exact trivial
  · cases h
    exact trivial
  · cases h
    exact hF.constant _
  · cases h
    exact hF.constant _
  · cases h
    exact hF.constant _
  · obtain ⟨p, -, h⟩ := Option.map_eq_some_iff.mp h
    cases h
    exact wellFormed_ofNumber hF _

theorem ReadsWell.succ_elems {n : ℕ} (ih : ReadsWell F n) {l : List Char} {vs : List Json}
    {r : List Char} (h : parseElems F (n + 1) l = some (vs, r)) : ∀ v ∈ vs, v.WellFormed F := by
  unfold parseElems at h
  split at h
  · cases h
    exact fun _ hv => absurd hv List.not_mem_nil
  · obtain ⟨⟨u, l'⟩, hu, h⟩ := Option.bind_eq_some_iff.mp h
    obtain ⟨⟨us, l''⟩, hus, h⟩ := Option.bind_eq_some_iff.mp h
    cases h
    exact List.forall_mem_cons.mpr ⟨ih.value hu, ih.elems hus⟩
  · cases h

theorem ReadsWell.succ_field {n : ℕ} (ih : ReadsWell F n) {l : List Char} {p : String × Json}
    {r : List Char} (h : parseField F (n + 1) l = some (p, r)) : p.2.WellFormed F := by
  unfold parseField at h
  split at h
  · obtain ⟨⟨k, l'⟩, -, h⟩ := Option.bind_eq_some_iff.mp h
    dsimp only at h
    split at h
    · obtain ⟨⟨u, l''⟩, hu, h⟩ := Option.bind_eq_some_iff.mp h
      cases h
      exact ih.value hu
    · cases h
  · cases h

theorem ReadsWell.succ_fields {n : ℕ} (ih : ReadsWell F n) {l : List Char}
    {ps : List (String × Json)} {r : List Char} (h : parseFields F (n + 1) l = some (ps, r)) :
    ∀ p ∈ ps, p.2.WellFormed F := by
  unfold parseFields at h
  split at h
  · cases h
    exact fun _ hp => absurd hp List.not_mem_nil
  · obtain ⟨⟨q, l'⟩, hq, h⟩ := Option.bind_eq_some_iff.mp h
    obtain ⟨⟨qs, l''⟩, hqs, h⟩ := Option.bind_eq_some_iff.mp h
    cases h
    exact List.forall_mem_cons.mpr ⟨ih.field hq, ih.fields hqs⟩
  · cases h

theorem readsWell (hF : F.Reads) : ∀ n, ReadsWell F n
  | 0 => ⟨nofun, nofun, nofun, nofun⟩
  | n + 1 =>
    have ih := readsWell hF n
    ⟨ih.succ_value hF, ih.succ_elems, ih.succ_field, ih.succ_fields⟩

/-- **A value that is read** is one that Python can hold. -/
theorem wellFormed_of_loads (hF : F.Reads) {l : List Char} {v : Json} (h : loads F l = some v) :
    v.WellFormed F := by
  unfold loads at h
  split at h
  · rename_i u rest hparse
    split at h
    · cases h
      exact (readsWell hF _).value hparse
    · cases h
  · cases h

end Json

end Python
