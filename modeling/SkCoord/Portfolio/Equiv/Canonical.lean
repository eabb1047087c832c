import SkCoord.Portfolio.Canonical
import SkCoord.Python.Except
import SkCoord.Python.JsonRead
import Mathlib.Data.List.Perm.Basic

/-!
# Canonical JSON is a canonical form

`canonicalJsonBytes_canonical`: the bytes of a value are read and written again as they are, and two
values without times and models have the same bytes exactly when they are the same up to
normalization and the order of their fields.
-/

namespace SkCoord.Portfolio

open Python

/-! ### The order of the keys -/

theorem bytesOfUnits_injective : ∀ {us ws : List ℕ}, (∀ u ∈ us, u < 65536) →
    (∀ w ∈ ws, w < 65536) →
    (us.flatMap fun u => [u / 256, u % 256]) = ws.flatMap (fun u => [u / 256, u % 256]) → us = ws
  | [], [], _, _, _ => rfl
  | [], _ :: _, _, _, h => nomatch h
  | _ :: _, [], _, _, h => nomatch h
  | u :: us, w :: ws, hu, hw, h => by
    simp only [List.flatMap_cons, List.cons_append, List.nil_append, List.cons.injEq] at h
    have hhead : u = w := by omega
    have htail := bytesOfUnits_injective (fun x hx => hu x (List.mem_cons_of_mem _ hx))
      (fun x hx => hw x (List.mem_cons_of_mem _ hx)) h.2.2
    rw [hhead, htail]

/-- A text is determined by its code units. -/
theorem utf16be_injective : Function.Injective utf16be := by
  have hlt : ∀ s : String, ∀ u ∈ s.toList.flatMap units, u < 65536 := by
    intro s u hu
    obtain ⟨c, -, hc⟩ := List.mem_flatMap.mp hu
    exact units_lt c u hc
  intro s t h
  have hunits := bytesOfUnits_injective (hlt s) (hlt t) h
  have hchars := congrArg joinUnits hunits
  rw [joinUnits_flatMap, joinUnits_flatMap] at hchars
  exact String.toList_injective hchars

theorem perm_sortFields (d : Dict) : (sortFields d).Perm d := List.perm_insertionSort _ d

instance : Std.Total fun p q : String × Json => utf16be p.1 ≤ utf16be q.1 :=
  ⟨fun p q => le_total (utf16be p.1) (utf16be q.1)⟩

instance : IsTrans (String × Json) fun p q => utf16be p.1 ≤ utf16be q.1 :=
  ⟨fun _ _ _ => le_trans⟩

theorem pairwise_sortFields (d : Dict) :
    (sortFields d).Pairwise fun p q => utf16be p.1 ≤ utf16be q.1 :=
  List.pairwise_insertionSort _ d

theorem nodup_keys_of_perm {d e : Dict} (h : d.Perm e) (hd : (Assoc.keys d).Nodup) :
    (Assoc.keys e).Nodup := (h.map Prod.fst).nodup_iff.mp hd

theorem eq_of_key_eq {d : Dict} (hd : (Assoc.keys d).Nodup) {p q : String × Json} (hp : p ∈ d)
    (hq : q ∈ d) (h : p.1 = q.1) : p = q := by
  have hget := Assoc.get?_of_mem hd (k := p.1) (v := p.2) hp
  rw [h, Assoc.get?_of_mem hd (k := q.1) (v := q.2) hq] at hget
  exact Prod.ext h (Option.some.inj hget).symm

/-- The order of the fields does not matter. -/
theorem sortFields_eq_of_perm {d e : Dict} (h : d.Perm e) (hd : (Assoc.keys d).Nodup) :
    sortFields d = sortFields e := by
  have hperm : (sortFields d).Perm (sortFields e) :=
    (perm_sortFields d).trans (h.trans (perm_sortFields e).symm)
  refine hperm.eq_of_pairwise ?_ (pairwise_sortFields d) (pairwise_sortFields e)
  intro p q hp hq hle hge
  exact eq_of_key_eq hd ((perm_sortFields d).mem_iff.mp hp)
    ((h.trans (perm_sortFields e).symm).mem_iff.mpr hq) (utf16be_injective (le_antisymm hle hge))

theorem sortFields_sortFields (d : Dict) : sortFields (sortFields d) = sortFields d :=
  List.Pairwise.insertionSort_eq (pairwise_sortFields d)

/-! ### What is accepted -/

variable {env : Env}

theorem canonicalItems_eq_ok : ∀ {l : List PyValue} {values : List Json},
    canonicalItems env l = .ok values ↔
      List.Forall₂ (fun v j => canonicalValue env v = .ok j) l values
  | [], values => by
    rw [canonicalItems, pure_eq_ok, List.forall₂_nil_left_iff, eq_comm]
  | v :: l, values => by
    rw [canonicalItems, bind_eq_ok, List.forall₂_cons_left_iff]
    constructor
    · rintro ⟨j, hj, h⟩
      obtain ⟨js, hjs, h⟩ := bind_eq_ok.mp h
      exact ⟨j, js, hj, canonicalItems_eq_ok.mp hjs, (pure_eq_ok.mp h).symm⟩
    · rintro ⟨j, js, hj, hjs, rfl⟩
      exact ⟨j, hj, bind_eq_ok.mpr ⟨js, canonicalItems_eq_ok.mpr hjs, rfl⟩⟩

/-- A field of a map and the field that it becomes. -/
def FieldImage (env : Env) (p : MapKey × PyValue) (q : String × Json) : Prop :=
  ∃ k, p.1 = .str k ∧ env.unicode.nfc k = q.1 ∧ canonicalValue env p.2 = .ok q.2

theorem canonicalFields_eq_ok : ∀ {d : List (MapKey × PyValue)} {normalized fields : Dict},
    (Assoc.keys normalized).Nodup →
      (canonicalFields env normalized d = .ok fields ↔
        ∃ images, fields = normalized ++ images ∧ List.Forall₂ (FieldImage env) d images ∧
          (Assoc.keys fields).Nodup)
  | [], normalized, fields, hn => by
    rw [canonicalFields, pure_eq_ok]
    constructor
    · rintro rfl
      exact ⟨[], (List.append_nil _).symm, List.Forall₂.nil, hn⟩
    · rintro ⟨images, rfl, himages, -⟩
      rw [List.forall₂_nil_left_iff.mp himages, List.append_nil]
  | (.other, v) :: d, normalized, fields, hn => by
    rw [canonicalFields]
    constructor
    · exact fun h => absurd h throw_ne_ok
    · rintro ⟨images, -, himages, -⟩
      obtain ⟨q, qs, ⟨k, hk, -⟩, -⟩ := List.forall₂_cons_left_iff.mp himages
      cases hk
  | (.str key, v) :: d, normalized, fields, hn => by
    rw [canonicalFields]
    by_cases hkey : env.unicode.nfc key ∈ Assoc.keys normalized
    · rw [if_pos hkey]
      constructor
      · exact fun h => absurd h throw_ne_ok
      · rintro ⟨images, rfl, himages, hnodup⟩
        obtain ⟨q, qs, ⟨k, hk, hq, -⟩, -, rfl⟩ := List.forall₂_cons_left_iff.mp himages
        obtain rfl : key = k := MapKey.str.inj hk
        -- the key of the field is there already
        rw [Assoc.keys, List.map_append] at hnodup
        exact absurd hq ((List.nodup_append.mp hnodup).2.2 _ hkey q.1 List.mem_cons_self)
    · rw [if_neg hkey, bind_eq_ok]
      have hnext : ∀ j : Json, (Assoc.keys (normalized ++ [(env.unicode.nfc key, j)])).Nodup := by
        intro j
        rw [Assoc.keys, List.map_append]
        exact List.Nodup.append hn (List.nodup_singleton _)
          (List.disjoint_singleton.mpr hkey)
      constructor
      · rintro ⟨j, hj, h⟩
        obtain ⟨images, rfl, himages, hnodup⟩ := (canonicalFields_eq_ok (hnext j)).mp h
        exact ⟨(env.unicode.nfc key, j) :: images, List.append_assoc _ _ _,
          List.Forall₂.cons ⟨key, rfl, rfl, hj⟩ himages, hnodup⟩
      · rintro ⟨images, rfl, himages, hnodup⟩
        obtain ⟨q, qs, ⟨k, hk, hq, hj⟩, hqs, rfl⟩ := List.forall₂_cons_left_iff.mp himages
        obtain rfl : key = k := MapKey.str.inj hk
        refine ⟨q.2, hj, (canonicalFields_eq_ok (hnext q.2)).mpr ⟨qs, ?_, hqs, hnodup⟩⟩
        rw [hq, List.append_assoc]
        rfl

/-- A map is accepted when its fields are and their keys stay apart. -/
theorem canonicalValue_map_eq_ok {d : List (MapKey × PyValue)} {j : Json} :
    canonicalValue env (.map d) = .ok j ↔
      ∃ images, j = .obj (sortFields images) ∧ List.Forall₂ (FieldImage env) d images ∧
        (Assoc.keys images).Nodup := by
  have hnil : (Assoc.keys ([] : Dict)).Nodup := List.nodup_nil
  rw [canonicalValue, bind_eq_ok]
  constructor
  · rintro ⟨fields, h, hj⟩
    obtain ⟨images, rfl, himages, hnodup⟩ := (canonicalFields_eq_ok hnil).mp h
    exact ⟨fields, (pure_eq_ok.mp hj).symm, himages, hnodup⟩
  · rintro ⟨images, rfl, himages, hnodup⟩
    exact ⟨images, (canonicalFields_eq_ok hnil).mpr ⟨images, rfl, himages, hnodup⟩, rfl⟩

theorem canonicalValue_list_eq_ok {l : List PyValue} {j : Json} :
    canonicalValue env (.list l) = .ok j ↔
      ∃ values, j = .arr values ∧
        List.Forall₂ (fun v j => canonicalValue env v = .ok j) l values := by
  rw [canonicalValue, bind_eq_ok]
  constructor
  · rintro ⟨values, h, hj⟩
    exact ⟨values, (pure_eq_ok.mp hj).symm, canonicalItems_eq_ok.mp h⟩
  · rintro ⟨values, rfl, h⟩
    exact ⟨values, canonicalItems_eq_ok.mpr h, rfl⟩

theorem canonicalValue_datetime_eq_ok {t : DateTime} {j : Json}
    (h : canonicalValue env (.datetime t) = .ok j) : ∃ u : DateTime, j = .str u.canonicalText := by
  rw [canonicalValue] at h
  obtain ⟨text, ht, h⟩ := bind_eq_ok.mp h
  rw [← pure_eq_ok.mp h]
  unfold canonicalTime at ht
  split at ht
  · cases ht
  · split at ht
    · rename_i utc _
      exact ⟨utc, congrArg Json.str (pure_eq_ok.mp ht).symm⟩
    · cases ht

/-! ### Reading and writing again -/

/-- A value without floats that is read and normalized as it stands. -/
structure Canonical (env : Env) (j : Json) : Prop where
  fixed : canonicalValue env (.ofJson j) = .ok j
  wellFormed : j.WellFormed env.floats

theorem canonical_str {s : String} (h : env.unicode.nfc s = s) : Canonical env (.str s) where
  fixed := by rw [PyValue.ofJson, canonicalValue, h]; rfl
  wellFormed := trivial

theorem canonical_arr {values : List Json} (h : ∀ j ∈ values, Canonical env j) :
    Canonical env (.arr values) where
  fixed := by
    rw [PyValue.ofJson, canonicalValue_list_eq_ok]
    refine ⟨values, rfl, ?_⟩
    induction values with
    | nil => exact List.Forall₂.nil
    | cons j values ih =>
      exact List.Forall₂.cons (h j List.mem_cons_self).fixed
        (ih fun k hk => h k (List.mem_cons_of_mem _ hk))
  wellFormed := Json.elemsWellFormed_iff.mpr fun j hj => (h j hj).wellFormed

theorem forall₂_ofFields : ∀ {fields : Dict},
    (∀ p ∈ fields, env.unicode.nfc p.1 = p.1 ∧ Canonical env p.2) →
      List.Forall₂ (FieldImage env) (PyValue.ofFields fields) fields
  | [], _ => List.Forall₂.nil
  | (k, j) :: fields, h => by
    have hhead := h (k, j) List.mem_cons_self
    exact List.Forall₂.cons ⟨k, rfl, hhead.1, hhead.2.fixed⟩
      (forall₂_ofFields fun p hp => h p (List.mem_cons_of_mem _ hp))

theorem canonical_obj {images : Dict} (hnodup : (Assoc.keys images).Nodup)
    (h : ∀ p ∈ images, env.unicode.nfc p.1 = p.1 ∧ Canonical env p.2) :
    Canonical env (.obj (sortFields images)) := by
  have hsorted : ∀ p ∈ sortFields images, env.unicode.nfc p.1 = p.1 ∧ Canonical env p.2 :=
    fun p hp => h p ((perm_sortFields images).mem_iff.mp hp)
  have hkeys := nodup_keys_of_perm (perm_sortFields images).symm hnodup
  constructor
  · rw [PyValue.ofJson, canonicalValue_map_eq_ok]
    exact ⟨sortFields images, by rw [sortFields_sortFields], forall₂_ofFields hsorted, hkeys⟩
  · exact ⟨hkeys, Json.fieldsWellFormed_iff.mpr fun p hp => (hsorted p hp).2.wellFormed⟩

mutual

/-- **What a value becomes** stays as it is. -/
theorem canonical_of_canonicalValue : ∀ (value : PyValue) {j : Json},
    canonicalValue env value = .ok j → Canonical env j
  | .model dump, _, h => canonical_of_canonicalValue dump (by rwa [canonicalValue] at h)
  | .datetime t, _, h => by
    obtain ⟨u, rfl⟩ := canonicalValue_datetime_eq_ok h
    exact canonical_str (env.unicode.nfc_ascii _ (DateTime.isAscii_canonicalText u))
  | .str s, _, h => by
    rw [canonicalValue] at h
    rw [← pure_eq_ok.mp h]
    exact canonical_str (env.unicode.nfc_nfc s)
  | .none, _, h => by
    rw [canonicalValue] at h
    rw [← pure_eq_ok.mp h]
    exact ⟨rfl, trivial⟩
  | .bool b, _, h => by
    rw [canonicalValue] at h
    rw [← pure_eq_ok.mp h]
    exact ⟨rfl, trivial⟩
  | .int i, _, h => by
    rw [canonicalValue] at h
    rw [← pure_eq_ok.mp h]
    exact ⟨rfl, trivial⟩
  | .float _, _, h => by
    rw [canonicalValue] at h
    exact absurd h throw_ne_ok
  | .other _, _, h => by
    rw [canonicalValue] at h
    exact absurd h throw_ne_ok
  | .list l, _, h => by
    obtain ⟨values, rfl, hvalues⟩ := canonicalValue_list_eq_ok.mp h
    exact canonical_arr (canonical_of_canonicalItems l hvalues)
  | .map d, _, h => by
    obtain ⟨images, rfl, himages, hnodup⟩ := canonicalValue_map_eq_ok.mp h
    exact canonical_obj hnodup (canonical_of_canonicalFields d himages)

theorem canonical_of_canonicalItems : ∀ (l : List PyValue) {values : List Json},
    List.Forall₂ (fun v j => canonicalValue env v = .ok j) l values →
      ∀ j ∈ values, Canonical env j
  | [], _, h, j, hj => by
    rw [List.forall₂_nil_left_iff.mp h] at hj
    cases hj
  | v :: l, _, h, j, hj => by
    obtain ⟨k, values, hk, hvalues, rfl⟩ := List.forall₂_cons_left_iff.mp h
    rcases List.mem_cons.mp hj with rfl | hj
    · exact canonical_of_canonicalValue v hk
    · exact canonical_of_canonicalItems l hvalues j hj

theorem canonical_of_canonicalFields : ∀ (d : List (MapKey × PyValue)) {images : Dict},
    List.Forall₂ (FieldImage env) d images →
      ∀ p ∈ images, env.unicode.nfc p.1 = p.1 ∧ Canonical env p.2
  | [], _, h, p, hp => by
    rw [List.forall₂_nil_left_iff.mp h] at hp
    cases hp
  | (key, v) :: d, _, h, p, hp => by
    obtain ⟨q, images, ⟨k, -, hk, hv⟩, himages, rfl⟩ := List.forall₂_cons_left_iff.mp h
    rcases List.mem_cons.mp hp with rfl | hp
    · exact ⟨by rw [← hk, env.unicode.nfc_nfc], canonical_of_canonicalValue v hv⟩
    · exact canonical_of_canonicalFields d himages p hp

end

/-! ### When two values have the same bytes -/

mutual

/-- A value of null, booleans, integers, texts, lists and maps with texts for keys. -/
def PyValue.Plain : PyValue → Prop
  | .none | .bool _ | .int _ | .str _ => True
  | .list l => PlainItems l
  | .map d => PlainFields d
  | .float _ | .datetime _ | .model _ | .other _ => False

def PyValue.PlainItems : List PyValue → Prop
  | [] => True
  | v :: l => v.Plain ∧ PlainItems l

def PyValue.PlainFields : List (MapKey × PyValue) → Prop
  | [] => True
  | (key, v) :: d => key ≠ .other ∧ v.Plain ∧ PlainFields d

end

theorem plainFields_iff : ∀ {d : List (MapKey × PyValue)},
    PyValue.PlainFields d ↔ ∀ p ∈ d, p.1 ≠ .other ∧ p.2.Plain
  | [] => by simp [PyValue.PlainFields]
  | (key, v) :: d => by
    rw [PyValue.PlainFields, plainFields_iff, List.forall_mem_cons, and_assoc]

mutual

/-- Two values are equal after every text and key is normalized, whatever the order of the fields.
-/
inductive Same (u : Unicode) : PyValue → PyValue → Prop
  | none : Same u .none .none
  | bool (b : Bool) : Same u (.bool b) (.bool b)
  | int (i : Int) : Same u (.int i) (.int i)
  | str {s t : String} : u.nfc s = u.nfc t → Same u (.str s) (.str t)
  | list {l m : List PyValue} : SameItems u l m → Same u (.list l) (.list m)
  | map {d e e' : List (MapKey × PyValue)} : SameFields u d e' → e'.Perm e →
      Same u (.map d) (.map e)

inductive SameItems (u : Unicode) : List PyValue → List PyValue → Prop
  | nil : SameItems u [] []
  | cons {v w : PyValue} {l m : List PyValue} : Same u v w → SameItems u l m →
      SameItems u (v :: l) (w :: m)

inductive SameFields (u : Unicode) :
    List (MapKey × PyValue) → List (MapKey × PyValue) → Prop
  | nil : SameFields u [] []
  | cons {k k' : String} {v w : PyValue} {d e : List (MapKey × PyValue)} :
      u.nfc k = u.nfc k' → Same u v w → SameFields u d e →
        SameFields u ((.str k, v) :: d) ((.str k', w) :: e)

end

mutual

theorem canonicalValue_of_same : ∀ {v w : PyValue} {j : Json}, Same env.unicode v w →
    canonicalValue env v = .ok j → canonicalValue env w = .ok j
  | _, _, _, .none, h => h
  | _, _, _, .bool _, h => h
  | _, _, _, .int _, h => h
  | _, _, _, .str hst, h => by
    rw [canonicalValue] at h ⊢
    rwa [← hst]
  | _, _, _, .list hlm, h => by
    obtain ⟨values, rfl, hvalues⟩ := canonicalValue_list_eq_ok.mp h
    exact canonicalValue_list_eq_ok.mpr ⟨values, rfl, canonicalItems_of_same hlm hvalues⟩
  | _, _, _, .map hde hperm, h => by
    obtain ⟨images, rfl, himages, hnodup⟩ := canonicalValue_map_eq_ok.mp h
    have himages' := canonicalFields_of_same hde himages
    -- the fields move with the images
    obtain ⟨images', himages', hperm'⟩ := List.perm_comp_forall₂ hperm.symm himages'
    refine canonicalValue_map_eq_ok.mpr ⟨images', ?_, himages', ?_⟩
    · rw [sortFields_eq_of_perm hperm'.symm hnodup]
    · exact nodup_keys_of_perm hperm'.symm hnodup

theorem canonicalItems_of_same : ∀ {l m : List PyValue} {values : List Json},
    SameItems env.unicode l m →
      List.Forall₂ (fun v j => canonicalValue env v = .ok j) l values →
        List.Forall₂ (fun v j => canonicalValue env v = .ok j) m values
  | _, _, _, .nil, h => h
  | _, _, _, .cons hvw hlm, h => by
    obtain ⟨j, values, hj, hvalues, rfl⟩ := List.forall₂_cons_left_iff.mp h
    exact List.Forall₂.cons (canonicalValue_of_same hvw hj) (canonicalItems_of_same hlm hvalues)

theorem canonicalFields_of_same : ∀ {d e : List (MapKey × PyValue)} {images : Dict},
    SameFields env.unicode d e → List.Forall₂ (FieldImage env) d images →
      List.Forall₂ (FieldImage env) e images
  | _, _, _, .nil, h => h
  | _, _, _, .cons hkey hvw hde, h => by
    obtain ⟨q, images, ⟨k, hk, hq, hj⟩, himages, rfl⟩ := List.forall₂_cons_left_iff.mp h
    cases hk
    exact List.Forall₂.cons ⟨_, rfl, hkey ▸ hq, canonicalValue_of_same hvw hj⟩
      (canonicalFields_of_same hde himages)

end

/-- A value without models, times and floats is told from the others by what it becomes. -/
theorem same_str {v : PyValue} (hv : v.Plain) {s : String}
    (h : canonicalValue env v = .ok (.str (env.unicode.nfc s))) : Same env.unicode (.str s) v := by
  cases v with
  | str t =>
    rw [canonicalValue] at h
    exact .str (Json.str.inj (pure_eq_ok.mp h)).symm
  | list l =>
    obtain ⟨_, hj, -⟩ := canonicalValue_list_eq_ok.mp h
    cases hj
  | map d =>
    obtain ⟨_, hj, -⟩ := canonicalValue_map_eq_ok.mp h
    cases hj
  | none | bool _ | int _ => rw [canonicalValue] at h; cases pure_eq_ok.mp h
  | float _ | datetime _ | model _ | other _ => exact hv.elim

theorem exists_list_of_arr {v : PyValue} (hv : v.Plain) {values : List Json}
    (h : canonicalValue env v = .ok (.arr values)) : ∃ l, v = .list l := by
  cases v with
  | list l => exact ⟨l, rfl⟩
  | map d =>
    obtain ⟨_, hj, -⟩ := canonicalValue_map_eq_ok.mp h
    cases hj
  | none | bool _ | int _ | str _ => rw [canonicalValue] at h; cases pure_eq_ok.mp h
  | float _ | datetime _ | model _ | other _ => exact hv.elim

theorem exists_map_of_obj {v : PyValue} (hv : v.Plain) {fields : Dict}
    (h : canonicalValue env v = .ok (.obj fields)) : ∃ d, v = .map d := by
  cases v with
  | map d => exact ⟨d, rfl⟩
  | list l =>
    obtain ⟨_, hj, -⟩ := canonicalValue_list_eq_ok.mp h
    cases hj
  | none | bool _ | int _ | str _ => rw [canonicalValue] at h; cases pure_eq_ok.mp h
  | float _ | datetime _ | model _ | other _ => exact hv.elim

/-- `null`, a boolean or a number comes from itself only. -/
theorem eq_of_scalar {v w : PyValue} (hw : w.Plain) {j : Json}
    (hj : (v = .none ∧ j = .null) ∨ (∃ b, v = .bool b ∧ j = .bool b) ∨ ∃ i, v = .int i ∧ j = .int i)
    (h : canonicalValue env w = .ok j) : v = w := by
  cases w with
  | list l =>
    obtain ⟨_, hl, -⟩ := canonicalValue_list_eq_ok.mp h
    rcases hj with ⟨-, rfl⟩ | ⟨_, -, rfl⟩ | ⟨_, -, rfl⟩ <;> cases hl
  | map d =>
    obtain ⟨_, hd, -⟩ := canonicalValue_map_eq_ok.mp h
    rcases hj with ⟨-, rfl⟩ | ⟨_, -, rfl⟩ | ⟨_, -, rfl⟩ <;> cases hd
  | none | bool _ | int _ | str _ =>
    rw [canonicalValue] at h
    rcases hj with ⟨rfl, rfl⟩ | ⟨_, rfl, rfl⟩ | ⟨_, rfl, rfl⟩ <;> cases pure_eq_ok.mp h <;> rfl
  | float _ | datetime _ | model _ | other _ => exact hw.elim

mutual

theorem same_of_canonicalValue_eq : ∀ {v w : PyValue} {j : Json}, v.Plain → w.Plain →
    canonicalValue env v = .ok j → canonicalValue env w = .ok j → Same env.unicode v w
  | .none, w, _, _, hw, hv, h => by
    rw [canonicalValue] at hv
    rw [← eq_of_scalar hw (.inl ⟨rfl, (pure_eq_ok.mp hv).symm⟩) h]
    exact .none
  | .bool b, w, _, _, hw, hv, h => by
    rw [canonicalValue] at hv
    rw [← eq_of_scalar hw (.inr (.inl ⟨b, rfl, (pure_eq_ok.mp hv).symm⟩)) h]
    exact .bool b
  | .int i, w, _, _, hw, hv, h => by
    rw [canonicalValue] at hv
    rw [← eq_of_scalar hw (.inr (.inr ⟨i, rfl, (pure_eq_ok.mp hv).symm⟩)) h]
    exact .int i
  | .str s, w, _, _, hw, hv, h => by
    rw [canonicalValue] at hv
    rw [← pure_eq_ok.mp hv] at h
    exact same_str hw h
  | .list l, w, _, hl, hw, hv, h => by
    obtain ⟨values, rfl, hvalues⟩ := canonicalValue_list_eq_ok.mp hv
    obtain ⟨m, rfl⟩ := exists_list_of_arr hw h
    obtain ⟨values', hj, hm⟩ := canonicalValue_list_eq_ok.mp h
    obtain rfl := Json.arr.inj hj
    exact .list (sameItems_of_canonical hl hw hvalues hm)
  | .map d, w, _, hd, hw, hv, h => by
    obtain ⟨images, rfl, himages, hnodup⟩ := canonicalValue_map_eq_ok.mp hv
    obtain ⟨e, rfl⟩ := exists_map_of_obj hw h
    obtain ⟨images', hj, himages', -⟩ := canonicalValue_map_eq_ok.mp h
    have hperm : images.Perm images' :=
      (perm_sortFields images).symm.trans
        ((List.Perm.of_eq (Json.obj.inj hj)).trans (perm_sortFields images'))
    -- the other fields in the order of these
    have hcomp : Relation.Comp List.Perm (List.Forall₂ (FieldImage env)) e images := by
      rw [← List.forall₂_comp_perm_eq_perm_comp_forall₂]
      exact ⟨images', himages', hperm.symm⟩
    obtain ⟨e', he', himages'⟩ := hcomp
    have hplain : PyValue.PlainFields e' :=
      plainFields_iff.mpr fun p hp => plainFields_iff.mp hw p (he'.mem_iff.mpr hp)
    exact .map (sameFields_of_canonical hd hplain himages himages') he'.symm
  | .float _, _, _, hv, _, _, _ => hv.elim
  | .datetime _, _, _, hv, _, _, _ => hv.elim
  | .model _, _, _, hv, _, _, _ => hv.elim
  | .other _, _, _, hv, _, _, _ => hv.elim

theorem sameItems_of_canonical : ∀ {l m : List PyValue} {values : List Json},
    PyValue.PlainItems l → PyValue.PlainItems m →
      List.Forall₂ (fun v j => canonicalValue env v = .ok j) l values →
        List.Forall₂ (fun v j => canonicalValue env v = .ok j) m values →
          SameItems env.unicode l m
  | [], m, values, _, _, hl, hm => by
    rw [List.forall₂_nil_left_iff.mp hl] at hm
    rw [List.forall₂_nil_right_iff.mp hm]
    exact .nil
  | v :: l, m, values, hpl, hpm, hl, hm => by
    obtain ⟨j, values, hj, hvalues, rfl⟩ := List.forall₂_cons_left_iff.mp hl
    obtain ⟨w, m, hw, hrest, rfl⟩ := List.forall₂_cons_right_iff.mp hm
    exact .cons (same_of_canonicalValue_eq hpl.1 hpm.1 hj hw)
      (sameItems_of_canonical hpl.2 hpm.2 hvalues hrest)

theorem sameFields_of_canonical : ∀ {d e : List (MapKey × PyValue)} {images : Dict},
    PyValue.PlainFields d → PyValue.PlainFields e →
      List.Forall₂ (FieldImage env) d images → List.Forall₂ (FieldImage env) e images →
        SameFields env.unicode d e
  | [], e, images, _, _, hd, he => by
    rw [List.forall₂_nil_left_iff.mp hd] at he
    rw [List.forall₂_nil_right_iff.mp he]
    exact .nil
  | (key, v) :: d, e, images, hpd, hpe, hd, he => by
    obtain ⟨q, images, ⟨k, hk, hkq, hj⟩, himages, rfl⟩ := List.forall₂_cons_left_iff.mp hd
    obtain ⟨⟨key', w⟩, e, ⟨k', hk', hkq', hw⟩, hrest, rfl⟩ := List.forall₂_cons_right_iff.mp he
    cases hk
    cases hk'
    exact .cons (hkq.trans hkq'.symm) (same_of_canonicalValue_eq hpd.2.1 hpe.2.1 hj hw)
      (sameFields_of_canonical hpd.2.2 hpe.2.2 himages hrest)

end

/-! ### Bytes -/

theorem canonicalJsonBytes_eq_ok {value : PyValue} {bytes : Bytes} :
    canonicalJsonBytes env value = .ok bytes ↔
      ∃ j, canonicalValue env value = .ok j ∧ encodeUtf8 (j.dumpsUtf8 env.floats) = bytes := by
  simp only [canonicalJsonBytes, bind_eq_ok, pure_eq_ok]

/-- Different values are written differently. -/
theorem eq_of_bytes_eq {i j : Json} (hi : i.WellFormed env.floats) (hj : j.WellFormed env.floats)
    (h : encodeUtf8 (i.dumpsUtf8 env.floats) = encodeUtf8 (j.dumpsUtf8 env.floats)) : i = j := by
  have htext := congrArg (Json.loads env.floats) (encodeUtf8_injective h)
  rw [Json.loads_dumpsUtf8 env.floats hi, Json.loads_dumpsUtf8 env.floats hj] at htext
  exact Option.some.inj htext

/-- **Canonical JSON is a canonical form**: the bytes of every accepted value are JSON that has the
same bytes, and two values without times and models have the same bytes exactly when they are the
same up to normalization and the order of fields. -/
theorem canonicalJsonBytes_canonical (env : Env) (value : PyValue) (bytes : Bytes)
    (h : canonicalJsonBytes env value = .ok bytes) :
    (∃ text j, decodeUtf8 bytes = some text ∧ Json.loads env.floats text = some j ∧
      canonicalJsonBytes env (.ofJson j) = .ok bytes) ∧
    (value.Plain → ∀ value' : PyValue, value'.Plain →
      (canonicalJsonBytes env value' = .ok bytes ↔ Same env.unicode value value')) := by
  obtain ⟨j, hj, rfl⟩ := canonicalJsonBytes_eq_ok.mp h
  have hcanonical := canonical_of_canonicalValue value hj
  refine ⟨⟨j.dumpsUtf8 env.floats, j, decodeUtf8_encodeUtf8 _,
    Json.loads_dumpsUtf8 env.floats hcanonical.wellFormed,
    canonicalJsonBytes_eq_ok.mpr ⟨j, hcanonical.fixed, rfl⟩⟩, ?_⟩
  intro hplain value' hplain'
  constructor
  · intro h'
    obtain ⟨j', hj', hbytes⟩ := canonicalJsonBytes_eq_ok.mp h'
    have hcanonical' := canonical_of_canonicalValue value' hj'
    obtain rfl := eq_of_bytes_eq hcanonical'.wellFormed hcanonical.wellFormed hbytes
    exact same_of_canonicalValue_eq hplain hplain' hj hj'
  · intro hsame
    exact canonicalJsonBytes_eq_ok.mpr ⟨j, canonicalValue_of_same hsame hj, rfl⟩

theorem canonicalJsonBytes_canonical_bool :
    canonicalJsonBytes utcMachine (.map [(.str "b", .int 1), (.str "a", .bool true)]) =
      .ok (encodeUtf8 "\x7b\"a\":true,\"b\":1\x7d".toList) ∧
    canonicalJsonBytes utcMachine (.map [(.str "a", .bool true), (.str "b", .int 1)]) =
      .ok (encodeUtf8 "\x7b\"a\":true,\"b\":1\x7d".toList) := by
  have h : canonicalJsonBytes utcMachine (.map [(.str "b", .int 1), (.str "a", .bool true)]) =
      .ok (encodeUtf8 "\x7b\"a\":true,\"b\":1\x7d".toList) := by decide +kernel
  have hsame : Same plainUnicode (.map [(.str "b", .int 1), (.str "a", .bool true)])
      (.map [(.str "a", .bool true), (.str "b", .int 1)]) :=
    .map (.cons rfl (.int 1) (.cons rfl (.bool true) .nil)) (List.Perm.swap _ _ _)
  exact ⟨h, ((canonicalJsonBytes_canonical utcMachine _ _ h).2 (by simp [PyValue.Plain,
    PyValue.PlainFields]) _ (by simp [PyValue.Plain, PyValue.PlainFields])).mpr hsame⟩

end SkCoord.Portfolio
