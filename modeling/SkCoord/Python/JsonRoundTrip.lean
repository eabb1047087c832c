import SkCoord.Python.JsonText
import Mathlib.Data.Nat.Digits.Lemmas
import Mathlib.Tactic.IntervalCases

/-!
# What is written is read back

`loads_dumps`: the text of a value reads as the value.  `printable_dumps`: the text is printable ASCII
on one line.  `parseValue_reread` carries the first through the nesting: a value followed by a
delimiter is read up to the delimiter, as `Json.reread` says.
-/

namespace Python

/-! ### Numbers -/

/-- A run of characters with a property, up to the first without it. -/
theorem span_append {p : Char → Bool} {ds rest : List Char} (hds : ∀ c ∈ ds, p c = true)
    (hrest : ∀ c ∈ rest.head?, p c = false) :
    (ds ++ rest).takeWhile p = ds ∧ (ds ++ rest).dropWhile p = rest := by
  have hstop : rest.takeWhile p = [] ∧ rest.dropWhile p = rest := by
    cases rest with
    | nil => exact ⟨rfl, rfl⟩
    | cons c rest =>
      have hc : p c = false := hrest c rfl
      exact ⟨by rw [List.takeWhile_cons_of_neg (by rw [hc]; exact Bool.false_ne_true)],
        by rw [List.dropWhile_cons_of_neg (by rw [hc]; exact Bool.false_ne_true)]⟩
  rw [List.takeWhile_append_of_pos hds, List.dropWhile_append_of_pos hds, hstop.1, hstop.2,
    List.append_nil]
  exact ⟨rfl, rfl⟩

/-- A text that does not go on with a number. -/
def EndsNumber (rest : List Char) : Prop :=
  ∀ c ∈ rest.head?, c.isDigit = false ∧ c ≠ '.' ∧ c ≠ 'e' ∧ c ≠ 'E'

/-- A text without a property at its first character is no run of it. -/
theorem head_digit {ds : List Char} (hne : ds ≠ []) (hds : ∀ c ∈ ds, c.isDigit = true) :
    ∃ d r, ds = d :: r ∧ d.isDigit = true := by
  obtain ⟨d, r, rfl⟩ := List.exists_cons_of_ne_nil hne
  exact ⟨d, r, rfl, hds d List.mem_cons_self⟩

theorem takeSign_append {sign digits : List Char} (hsign : sign = [] ∨ sign = ['+'] ∨ sign = ['-'])
    (hne : digits ≠ []) (hdigits : ∀ c ∈ digits, c.isDigit = true) (rest : List Char) :
    takeSign (sign ++ (digits ++ rest)) = (sign, digits ++ rest) := by
  rcases hsign with rfl | rfl | rfl
  · -- the first digit is no sign
    obtain ⟨d, r, rfl, hd⟩ := head_digit hne hdigits
    have hplus : d ≠ '+' := by rintro rfl; exact absurd hd (by decide)
    have hminus : d ≠ '-' := by rintro rfl; exact absurd hd (by decide)
    exact if_neg (not_or.mpr ⟨hplus, hminus⟩)
  · rfl
  · rfl

theorem takeExponent_of_endsNumber {rest : List Char} (h : EndsNumber rest) :
    takeExponent rest = (none, rest) := by
  cases rest with
  | nil => rfl
  | cons c rest =>
    obtain ⟨-, -, he, hE⟩ := h c rfl
    exact if_neg fun hc => hc.1.elim he hE

/-- The exponent of a number, up to its end. -/
theorem takeExponent_append {t : NumText} (ht : t.Valid) {rest : List Char}
    (hrest : EndsNumber rest) :
    takeExponent (NumText.exponentText t.exponent ++ rest) = (t.exponent, rest) := by
  cases hexp : t.exponent with
  | none => exact takeExponent_of_endsNumber hrest
  | some e =>
    obtain ⟨letter, sign, digits⟩ := e
    obtain ⟨hletter, hsign, hne, hdigits⟩ := ht.exponent _ _ _ hexp
    obtain ⟨htake, hdrop⟩ := span_append hdigits fun c hc => (hrest c hc).1
    have hsplit := takeSign_append hsign hne hdigits rest
    rw [NumText.exponentText, List.cons_append, List.append_assoc, takeExponent, hsplit]
    simp only [htake, hdrop]
    exact if_pos ⟨hletter, hne⟩

/-- The letter of an exponent, or the end of the number. -/
theorem exponentText_head {t : NumText} (ht : t.Valid) {rest : List Char}
    (hrest : EndsNumber rest) :
    ∀ c ∈ (NumText.exponentText t.exponent ++ rest).head?, c.isDigit = false ∧ c ≠ '.' := by
  intro c hc
  cases hexp : t.exponent with
  | none =>
    rw [hexp] at hc
    exact ⟨(hrest c hc).1, (hrest c hc).2.1⟩
  | some e =>
    obtain ⟨letter, sign, digits⟩ := e
    rw [hexp] at hc
    cases hc
    obtain ⟨hletter, -⟩ := ht.exponent _ _ _ hexp
    rcases hletter with rfl | rfl <;> exact ⟨by decide, by decide⟩

/-- The digits behind the dot, up to what is no digit. -/
theorem takeFrac_append {frac tail : List Char} (hfrac : ∀ c ∈ frac, c.isDigit = true)
    (htail : ∀ c ∈ tail.head?, c.isDigit = false ∧ c ≠ '.') :
    takeFrac (NumText.fracText frac ++ tail) = (frac, tail) := by
  obtain ⟨htake, hdrop⟩ := span_append hfrac fun c hc => (htail c hc).1
  by_cases hnil : frac = []
  · -- the text goes on without a dot
    subst hnil
    cases tail with
    | nil => rfl
    | cons c r =>
      have hc : c ≠ '.' := (htail c rfl).2
      exact if_neg fun hdot => hc hdot.1
  · rw [NumText.fracText, if_neg hnil, List.cons_append, takeFrac, htake, hdrop]
    exact if_pos ⟨rfl, hnil⟩

/-- The dot, or what follows it. -/
theorem fracText_head {frac tail : List Char}
    (htail : ∀ c ∈ tail.head?, c.isDigit = false ∧ c ≠ '.') :
    ∀ c ∈ (NumText.fracText frac ++ tail).head?, c.isDigit = false := by
  intro c hc
  by_cases hnil : frac = []
  · rw [hnil] at hc
    exact (htail c hc).1
  · rw [NumText.fracText, if_neg hnil] at hc
    cases hc
    decide

theorem takeWhole_append {whole rest : List Char}
    (hwhole : whole = ['0'] ∨
      (whole ≠ [] ∧ whole.head? ≠ some '0' ∧ ∀ c ∈ whole, c.isDigit = true))
    (hrest : ∀ c ∈ rest.head?, c.isDigit = false) :
    takeWhole (whole ++ rest) = (whole, rest) := by
  rcases hwhole with rfl | ⟨hne, hzero, hdigits⟩
  · rfl
  · obtain ⟨htake, hdrop⟩ := span_append hdigits hrest
    obtain ⟨d, r, rfl, -⟩ := head_digit hne hdigits
    have hd : d ≠ '0' := fun h => hzero (h ▸ rfl)
    rw [List.cons_append] at htake hdrop ⊢
    rw [takeWhole, htake, hdrop]
    exact if_neg hd

namespace NumText.Valid

variable {t : NumText}

/-- A number has a digit before the dot. -/
theorem whole_ne_nil (ht : t.Valid) : t.whole ≠ [] := by
  rcases ht.whole with h | h
  · rw [h]
    exact List.cons_ne_nil _ _
  · exact h.1

/-- Every character before the dot is a digit. -/
theorem whole_digits (ht : t.Valid) : ∀ c ∈ t.whole, c.isDigit = true := by
  rcases ht.whole with h | h
  · rw [h]
    exact List.forall_mem_singleton.mpr rfl
  · exact h.2.2

end NumText.Valid

/-- The minus sign is taken exactly where it stands. -/
theorem takeMinus_append {negative : Bool} {whole rest : List Char} (hne : whole ≠ [])
    (hwhole : ∀ c ∈ whole, c.isDigit = true) :
    takeMinus ((if negative then ['-'] else []) ++ (whole ++ rest)) = (negative, whole ++ rest) := by
  obtain ⟨d, r, rfl, hd⟩ := head_digit hne hwhole
  cases negative with
  | true => rfl
  | false =>
    have hminus : d ≠ '-' := by rintro rfl; exact absurd hd (by decide)
    exact if_neg hminus

/-- **A number** is read up to its end. -/
theorem lexNumber_text {t : NumText} (ht : t.Valid) {rest : List Char} (hrest : EndsNumber rest) :
    lexNumber (t.text ++ rest) = some (t, rest) := by
  have hexp := takeExponent_append ht hrest
  have hhead := exponentText_head ht hrest
  have hfrac := takeFrac_append ht.frac hhead
  have hwhole := takeWhole_append ht.whole (@fracText_head t.frac _ hhead)
  have hminus := @takeMinus_append t.negative t.whole
    (NumText.fracText t.frac ++ (NumText.exponentText t.exponent ++ rest))
    ht.whole_ne_nil ht.whole_digits
  rw [NumText.text, List.append_assoc, List.append_assoc, List.append_assoc, lexNumber, hminus]
  simp only [hwhole, hfrac, hexp]
  exact if_neg ht.whole_ne_nil

/-! ### Integers -/

theorem digitChar_isDigit {d : ℕ} (hd : d < 10) : (digitChar d).isDigit = true := by
  interval_cases d <;> decide

theorem digitChar_toNat {d : ℕ} (hd : d < 10) : (digitChar d).toNat - 48 = d := by
  interval_cases d <;> decide

theorem decimal_isDigit (n : ℕ) : ∀ c ∈ decimal n, c.isDigit = true := by
  intro c hc
  by_cases hn : n = 0
  · subst hn
    cases List.mem_singleton.mp hc
    decide
  · rw [decimal, if_neg hn, List.mem_map] at hc
    obtain ⟨d, hd, rfl⟩ := hc
    exact digitChar_isDigit (Nat.digits_lt_base (by decide) (List.mem_reverse.mp hd))

/-- The digits of a number give the number. -/
theorem ofDecimal_decimal (n : ℕ) : ofDecimal (decimal n) = n := by
  by_cases hn : n = 0
  · subst hn
    rfl
  · have hdigits : (Nat.digits 10 n).map (fun d => (digitChar d).toNat - 48) = Nat.digits 10 n := by
      conv_rhs => rw [← List.map_id (Nat.digits 10 n)]
      refine List.map_congr_left fun d hd => ?_
      exact digitChar_toNat (Nat.digits_lt_base (by decide) hd)
    rw [ofDecimal, decimal, if_neg hn, List.map_map, ← List.map_reverse, List.reverse_reverse]
    show Nat.ofDigits 10 ((Nat.digits 10 n).map fun d => (digitChar d).toNat - 48) = n
    rw [hdigits, Nat.ofDigits_digits]

/-- The first digit of a positive number is not zero. -/
theorem decimal_head {n : ℕ} (hn : n ≠ 0) : (decimal n).head? ≠ some '0' := by
  have hne : Nat.digits 10 n ≠ [] := Nat.digits_ne_nil_iff_ne_zero.mpr hn
  have hlast := Nat.getLast_digit_ne_zero 10 hn
  have hlt : (Nat.digits 10 n).getLast hne < 10 :=
    Nat.digits_lt_base (by decide) (List.getLast_mem hne)
  rw [decimal, if_neg hn, List.head?_map, List.head?_reverse, List.getLast?_eq_some_getLast hne]
  intro h
  have hzero := digitChar_toNat hlt
  rw [Option.some.inj h] at hzero
  exact hlast hzero.symm

theorem intText_valid (i : ℤ) : (intText i).Valid where
  whole := by
    by_cases hi : i.natAbs = 0
    · left
      show decimal i.natAbs = ['0']
      rw [hi]
      rfl
    · right
      have hhead := decimal_head hi
      refine ⟨?_, hhead, decimal_isDigit _⟩
      show decimal i.natAbs ≠ []
      rw [decimal, if_neg hi]
      exact fun h => Nat.digits_ne_nil_iff_ne_zero.mpr hi
        (List.reverse_eq_nil_iff.mp (List.map_eq_nil_iff.mp h))
  frac := fun c hc => absurd hc List.not_mem_nil
  exponent := fun _ _ _ h => nomatch h

namespace Json

/-- **An integer** is read as itself. -/
theorem ofNumber_intText (F : FloatText) (i : ℤ) : ofNumber F (intText i) = int i := by
  have hvalue : (ofDecimal (intText i).whole : ℤ) = i.natAbs := by
    show (ofDecimal (decimal i.natAbs) : ℤ) = i.natAbs
    rw [ofDecimal_decimal]
  have hfloat : (intText i).isFloat = false := rfl
  rw [ofNumber, hfloat, if_neg Bool.false_ne_true, hvalue]
  congr 1
  by_cases hi : i < 0
  · rw [if_pos (show (intText i).negative = true from decide_eq_true hi)]
    omega
  · rw [if_neg (show ¬ (intText i).negative = true from fun h => hi (of_decide_eq_true h))]
    omega

/-- A float is read as itself. -/
theorem ofNumber_isFloat (F : FloatText) (q : Rat) :
    ofNumber F (F.repr q) = float (F.value (F.repr q)) := if_pos (F.isFloat q)

end Json

/-! ### Texts in quotes -/

theorem hexVal_hexDigit {d : ℕ} (hd : d < 16) : hexVal (hexDigit d) = some d := by
  interval_cases d <;> decide

/-- An escape of a code unit is read as the unit. -/
theorem scanString_unicodeEscape {u : ℕ} (hu : u < 65536) (l : List Char) :
    scanString (unicodeEscape u ++ l) = (scanString l).map fun p => (u :: p.1, p.2) := by
  have h3 : hexVal (hexDigit (u / 4096)) = some (u / 4096) := hexVal_hexDigit (by omega)
  have h2 : hexVal (hexDigit (u / 256 % 16)) = some (u / 256 % 16) := hexVal_hexDigit (by omega)
  have h1 : hexVal (hexDigit (u / 16 % 16)) = some (u / 16 % 16) := hexVal_hexDigit (by omega)
  have h0 : hexVal (hexDigit (u % 16)) = some (u % 16) := hexVal_hexDigit (by omega)
  have hsum : u / 4096 * 4096 + u / 256 % 16 * 256 + u / 16 % 16 * 16 + u % 16 = u := by omega
  show scanString ('\\' :: 'u' :: hexDigit (u / 4096) :: hexDigit (u / 256 % 16) ::
    hexDigit (u / 16 % 16) :: hexDigit (u % 16) :: l) = _
  rw [scanString, h3, h2, h1, h0]
  cases scanString l with
  | none => rfl
  | some p => exact congrArg (fun v => some (v :: p.1, p.2)) hsum

/-- Several escaped units are read as the units. -/
theorem scanString_units {us : List ℕ} (hus : ∀ u ∈ us, u < 65536) (l : List Char) :
    scanString (us.flatMap unicodeEscape ++ l) =
      (scanString l).map fun p => (us ++ p.1, p.2) := by
  induction us with
  | nil =>
    show scanString l = _
    cases scanString l <;> rfl
  | cons u us ih =>
    rw [List.flatMap_cons, List.append_assoc, scanString_unicodeEscape (hus u List.mem_cons_self),
      ih fun v hv => hus v (List.mem_cons_of_mem _ hv)]
    cases scanString l <;> rfl

theorem toNat_lt (c : Char) : c.toNat < 1114112 := by
  rcases c.valid with h | h
  · exact lt_trans h (by decide)
  · exact h.2

theorem units_lt (c : Char) : ∀ u ∈ units c, u < 65536 := by
  have hc := toNat_lt c
  intro u hu
  rw [units] at hu
  split at hu
  · rw [List.mem_singleton.mp hu]
    assumption
  · -- the two halves of a pair
    have hpair := List.mem_pair.mp hu
    omega

/-- The letter of a short escape stands for the character. -/
theorem unescape_of_shortEscapes {c e : Char} (h : Assoc.get? shortEscapes c = some e) :
    e ≠ 'u' ∧ unescape e = some c ∧ units c = [c.toNat] := by
  have hall : ∀ p ∈ shortEscapes,
      p.2 ≠ 'u' ∧ unescape p.2 = some p.1 ∧ units p.1 = [p.1.toNat] := by decide
  exact hall (c, e) (Assoc.mem_of_get? h)

theorem scanString_short {c e : Char} (h : Assoc.get? shortEscapes c = some e) (l : List Char) :
    scanString ('\\' :: e :: l) = (scanString l).map fun p => (units c ++ p.1, p.2) := by
  obtain ⟨hu, hc, hunits⟩ := unescape_of_shortEscapes h
  rw [scanString, hc, hunits]
  · cases scanString l <;> rfl
  · exact fun _ _ _ _ _ h _ => hu h

theorem scanString_plain {c : Char} (hquote : c ≠ '"') (hslash : c ≠ '\\') (hc : 32 ≤ c.toNat)
    (l : List Char) :
    scanString (c :: l) = (scanString l).map fun p => (c.toNat :: p.1, p.2) := by
  rw [scanString]
  · rw [if_neg (by omega)]
    cases scanString l <;> rfl
  · exact hquote
  · exact fun _ _ _ _ _ h _ => hslash h
  · exact fun _ _ h _ => hslash h

/-- **A character between quotes** is read as its code units. -/
theorem scanString_escapeChar (c : Char) (l : List Char) :
    scanString (escapeChar c ++ l) = (scanString l).map fun p => (units c ++ p.1, p.2) := by
  cases h : Assoc.get? shortEscapes c with
  | some e =>
    rw [escapeChar, h]
    exact scanString_short h l
  | none =>
    rw [escapeChar, h]
    dsimp only
    split
    · rename_i hc
      have hkey : c ∉ Assoc.keys shortEscapes := (Assoc.get?_eq_none_iff _ _).mp h
      have hquote : c ≠ '"' := by rintro rfl; exact hkey (by decide)
      have hslash : c ≠ '\\' := by rintro rfl; exact hkey (by decide)
      have hunits : units c = [c.toNat] := if_pos (by omega)
      rw [hunits]
      exact scanString_plain hquote hslash hc.1 l
    · exact scanString_units (units_lt c) l

/-- **A text in quotes** is read as its code units, up to the closing quote. -/
theorem scanString_quote (s : List Char) (rest : List Char) :
    scanString (s.flatMap escapeChar ++ '"' :: rest) = some (s.flatMap units, rest) := by
  induction s with
  | nil => rfl
  | cons c s ih =>
    rw [List.flatMap_cons, List.append_assoc, scanString_escapeChar, ih]
    rfl

theorem joinUnits_units (c : Char) (us : List ℕ) :
    joinUnits (units c ++ us) = c :: joinUnits us := by
  by_cases hc : c.toNat < 65536
  · rw [units, if_pos hc]
    have hsurrogate : ¬ (55296 ≤ c.toNat ∧ c.toNat < 57344) := by
      rcases c.valid with h | h
      · exact fun hc => absurd (show c.toNat < 55296 from h) (by omega)
      · exact fun hc => absurd (show 57343 < c.toNat from h.1) (by omega)
    have hunit : unitChar c.toNat = c := by
      rw [unitChar, if_neg hsurrogate, Char.ofNat_toNat]
    cases us with
    | nil => exact congrArg (fun d => [d]) hunit
    | cons v us =>
      show (if _ then _ else _) = _
      rw [if_neg (by omega), hunit]
  · rw [units, if_neg hc]
    have hlt := toNat_lt c
    rw [List.cons_append, List.cons_append, List.nil_append, joinUnits, if_pos (by omega)]
    have hsum : 65536 + (55296 + (c.toNat - 65536) / 1024 - 55296) * 1024 +
        (56320 + (c.toNat - 65536) % 1024 - 56320) = c.toNat := by omega
    rw [hsum, Char.ofNat_toNat]

theorem joinUnits_flatMap (s : List Char) : joinUnits (s.flatMap units) = s := by
  induction s with
  | nil => rfl
  | cons c s ih => rw [List.flatMap_cons, joinUnits_units, ih]

theorem lexString_quote (s : String) (rest : List Char) :
    lexString (s.toList.flatMap escapeChar ++ '"' :: rest) = some (s, rest) := by
  rw [lexString, scanString_quote]
  show some (String.ofList (joinUnits (s.toList.flatMap units)), rest) = _
  rw [joinUnits_flatMap, String.ofList_toList]

/-! ### Values -/

namespace Json

mutual

/-- A value that Python can hold: no dictionary repeats a key, every float is one. -/
def WellFormed (F : FloatText) : Json → Prop
  | arr l => ElemsWellFormed F l
  | obj d => (Assoc.keys d).Nodup ∧ FieldsWellFormed F d
  | float q => F.IsDouble q
  | _ => True

/-- The values of a list. -/
def ElemsWellFormed (F : FloatText) : List Json → Prop
  | [] => True
  | v :: l => WellFormed F v ∧ ElemsWellFormed F l

/-- The values of a dictionary. -/
def FieldsWellFormed (F : FloatText) : List (String × Json) → Prop
  | [] => True
  | (_, v) :: d => WellFormed F v ∧ FieldsWellFormed F d

end

theorem fieldsWellFormed_iff {F : FloatText} : ∀ {d : List (String × Json)},
    FieldsWellFormed F d ↔ ∀ p ∈ d, WellFormed F p.2
  | [] => ⟨fun _ _ h => (nomatch h), fun _ => trivial⟩
  | (k, v) :: d => by
    rw [FieldsWellFormed, fieldsWellFormed_iff, List.forall_mem_cons]

/-- An update with a value keeps a dictionary well formed. -/
theorem WellFormed.set {F : FloatText} {d : Dict} {k : String} {v : Json}
    (hd : WellFormed F (obj d)) (hv : WellFormed F v) : WellFormed F (obj (Assoc.set d k v)) := by
  refine ⟨Assoc.nodup_keys_set hd.1 k v, fieldsWellFormed_iff.mpr fun p hp => ?_⟩
  rcases Assoc.mem_set hp with rfl | hp
  · exact hv
  · exact fieldsWellFormed_iff.mp hd.2 p hp

/-- So does an update with a dictionary. -/
theorem WellFormed.update {F : FloatText} {u : Dict} (hu : FieldsWellFormed F u) :
    ∀ {d : Dict}, WellFormed F (obj d) →
      WellFormed F (obj (u.foldl (fun d p => Assoc.set d p.1 p.2) d)) := by
  induction u with
  | nil => exact fun hd => hd
  | cons p u ih => exact fun hd => ih hu.2 (hd.set hu.1)

/-- The pairs of a dictionary make the dictionary. -/
theorem ofPairs_of_nodup {d : Dict} (hd : (Assoc.keys d).Nodup) : ofPairs d = d := by
  suffices h : ∀ (l acc : Dict), (Assoc.keys (acc ++ l)).Nodup →
      l.foldl (fun d p => Assoc.set d p.1 p.2) acc = acc ++ l from h d [] hd
  intro l
  induction l with
  | nil => exact fun acc _ => (List.append_nil acc).symm
  | cons p l ih =>
    intro acc hnodup
    have hsplit : (Assoc.keys acc ++ p.1 :: Assoc.keys l).Nodup := by
      rwa [Assoc.keys, List.map_append] at hnodup
    have hkey : p.1 ∉ Assoc.keys acc := fun hmem =>
      (List.nodup_append.mp hsplit).2.2 _ hmem _ List.mem_cons_self rfl
    have hassoc : acc ++ p :: l = acc ++ [p] ++ l := List.append_cons acc p l
    rw [List.foldl_cons, Assoc.set_eq_append hkey, hassoc]
    rw [hassoc] at hnodup
    exact ih (acc ++ [p]) hnodup

mutual

/-- What a value becomes when it is written and read. -/
def reread (F : FloatText) : Json → Json
  | arr l => arr (rereadElems F l)
  | obj d => obj (ofPairs (rereadFields F d))
  | float q => float (F.value (F.repr q))
  | v => v

/-- The elements of a list. -/
def rereadElems (F : FloatText) : List Json → List Json
  | [] => []
  | v :: l => reread F v :: rereadElems F l

/-- The fields of a dictionary. -/
def rereadFields (F : FloatText) : List (String × Json) → List (String × Json)
  | [] => []
  | (k, v) :: d => (k, reread F v) :: rereadFields F d

end

theorem rereadFields_eq_map (F : FloatText) : ∀ d : List (String × Json),
    rereadFields F d = d.map fun p => (p.1, reread F p.2)
  | [] => rfl
  | (k, v) :: d => by rw [rereadFields, rereadFields_eq_map F d, List.map_cons]

mutual

/-- A value that Python can hold stays as it is. -/
theorem reread_of_wellFormed {F : FloatText} : ∀ {v : Json}, WellFormed F v → reread F v = v
  | null, _ => rfl
  | bool _, _ => rfl
  | int _, _ => rfl
  | float q, h => by rw [reread, F.value_repr q h]
  | str _, _ => rfl
  | arr l, h => by rw [reread, rereadElems_of_wellFormed h]
  | obj d, h => by rw [reread, rereadFields_of_wellFormed h.2, ofPairs_of_nodup h.1]

theorem rereadElems_of_wellFormed {F : FloatText} : ∀ {l : List Json}, ElemsWellFormed F l →
    rereadElems F l = l
  | [], _ => rfl
  | v :: l, h => by rw [rereadElems, reread_of_wellFormed h.1, rereadElems_of_wellFormed h.2]

theorem rereadFields_of_wellFormed {F : FloatText} : ∀ {d : List (String × Json)},
    FieldsWellFormed F d → rereadFields F d = d
  | [], _ => rfl
  | (k, v) :: d, h => by rw [rereadFields, reread_of_wellFormed h.1, rereadFields_of_wellFormed h.2]

end

variable (F : FloatText) (y : JsonLayout)

/-- A text that begins with a digit is read as a number. -/
theorem parseValue_digit {c : Char} (hc : c.isDigit = true) (n : ℕ) (l : List Char) :
    parseValue F (n + 1) (c :: l) =
      (lexNumber (c :: l)).map fun p => (ofNumber F p.1, p.2) := by
  have hne : ∀ d : Char, d.isDigit = false → c ≠ d := fun d hd h => by
    rw [h, hd] at hc
    exact Bool.false_ne_true hc
  rw [parseValue]
  · exact fun _ h => hne '"' (by decide) (List.cons.inj h).1
  · exact fun _ h => hne '[' (by decide) (List.cons.inj h).1
  · exact fun _ h => hne '{' (by decide) (List.cons.inj h).1
  · exact fun _ h => hne 'n' (by decide) (List.cons.inj h).1
  · exact fun _ h => hne 't' (by decide) (List.cons.inj h).1
  · exact fun _ h => hne 'f' (by decide) (List.cons.inj h).1
  · exact fun _ h => hne 'N' (by decide) (List.cons.inj h).1
  · exact fun _ h => hne 'I' (by decide) (List.cons.inj h).1
  · exact fun _ h => hne '-' (by decide) (List.cons.inj h).1

/-- So is a minus sign before a digit. -/
theorem parseValue_minus {d : Char} (hd : d.isDigit = true) (n : ℕ) (l : List Char) :
    parseValue F (n + 1) ('-' :: d :: l) =
      (lexNumber ('-' :: d :: l)).map fun p => (ofNumber F p.1, p.2) := by
  have hI : d ≠ 'I' := by rintro rfl; exact absurd hd (by decide)
  have hminus : ∀ (c : Char) (s r : List Char), '-' :: s = c :: r → '-' = c :=
    fun _ _ _ h => (List.cons.inj h).1
  rw [parseValue]
  · exact fun _ h => absurd (hminus _ _ _ h) (by decide)
  · exact fun _ h => absurd (hminus _ _ _ h) (by decide)
  · exact fun _ h => absurd (hminus _ _ _ h) (by decide)
  · exact fun _ h => absurd (hminus _ _ _ h) (by decide)
  · exact fun _ h => absurd (hminus _ _ _ h) (by decide)
  · exact fun _ h => absurd (hminus _ _ _ h) (by decide)
  · exact fun _ h => absurd (hminus _ _ _ h) (by decide)
  · exact fun _ h => absurd (hminus _ _ _ h) (by decide)
  · exact fun _ h => hI (List.cons.inj (List.cons.inj h).2).1

/-- **A number** is read as its value. -/
theorem parseValue_text {t : NumText} (ht : t.Valid) {rest : List Char} (hrest : EndsNumber rest)
    (n : ℕ) : parseValue F (n + 1) (t.text ++ rest) = some (ofNumber F t, rest) := by
  have hlex := lexNumber_text ht hrest
  obtain ⟨d, r, hr, hd⟩ := head_digit ht.whole_ne_nil ht.whole_digits
  have hparse : parseValue F (n + 1) (t.text ++ rest) =
      (lexNumber (t.text ++ rest)).map fun p => (ofNumber F p.1, p.2) := by
    rw [NumText.text, hr]
    cases t.negative with
    | true => exact parseValue_minus F hd n _
    | false => exact parseValue_digit F hd n _
  rw [hparse, hlex]
  rfl

/-- What a value begins with. -/
def OpensValue (l : List Char) : Prop :=
  ∃ c r, l = c :: r ∧ isBlankChar c = false ∧ c ≠ ']' ∧ c ≠ '}'

theorem OpensValue.append {l : List Char} (h : OpensValue l) (rest : List Char) :
    OpensValue (l ++ rest) := by
  obtain ⟨c, r, rfl, hc⟩ := h
  exact ⟨c, r ++ rest, rfl, hc⟩

theorem OpensValue.skipBlanks {l : List Char} (h : OpensValue l) : skipBlanks l = l := by
  obtain ⟨c, r, rfl, hc, -⟩ := h
  exact List.dropWhile_cons_of_neg (by rw [hc]; exact Bool.false_ne_true)

theorem opensValue_text {t : NumText} (ht : t.Valid) : OpensValue t.text := by
  obtain ⟨d, r, hr, hd⟩ := head_digit ht.whole_ne_nil ht.whole_digits
  have hne : ∀ c : Char, c.isDigit = false → d ≠ c := fun c hc h => by
    rw [h, hc] at hd
    exact Bool.false_ne_true hd
  rw [NumText.text, hr]
  cases t.negative with
  | true => exact ⟨'-', _, rfl, by decide, by decide, by decide⟩
  | false =>
    refine ⟨d, _, rfl, ?_, hne ']' (by decide), hne '}' (by decide)⟩
    simp only [isBlankChar, Bool.or_eq_false_iff, beq_eq_false_iff_ne]
    exact ⟨⟨⟨hne ' ' (by decide), hne '\t' (by decide)⟩, hne '\n' (by decide)⟩,
      hne '\r' (by decide)⟩

theorem opensValue_dumps (v : Json) : OpensValue (dumps F y v) := by
  cases v with
  | null => exact ⟨'n', _, rfl, by decide, by decide, by decide⟩
  | bool b => cases b <;> exact ⟨_, _, rfl, by decide, by decide, by decide⟩
  | int i => exact opensValue_text (intText_valid i)
  | float q => exact opensValue_text (F.valid q)
  | str s => exact ⟨'"', _, rfl, by decide, by decide, by decide⟩
  | arr l => cases l <;> exact ⟨'[', _, rfl, by decide, by decide, by decide⟩
  | obj d => cases d <;> exact ⟨'{', _, rfl, by decide, by decide, by decide⟩

theorem endsNumber_item (l : List Char) : EndsNumber (y.item ++ l) := by
  intro c hc
  cases y <;> cases hc <;> exact ⟨by decide, by decide, by decide, by decide⟩

theorem endsNumber_dumpsElems (l : List Json) (rest : List Char) :
    EndsNumber (dumpsElems F y l ++ rest) := by
  cases l with
  | nil =>
    intro c hc
    cases hc
    exact ⟨by decide, by decide, by decide, by decide⟩
  | cons v l =>
    rw [dumpsElems, List.append_assoc, List.append_assoc]
    exact endsNumber_item y _

theorem endsNumber_dumpsFields (d : List (String × Json)) (rest : List Char) :
    EndsNumber (dumpsFields F y d ++ rest) := by
  cases d with
  | nil =>
    intro c hc
    cases hc
    exact ⟨by decide, by decide, by decide, by decide⟩
  | cons p d =>
    obtain ⟨k, v⟩ := p
    rw [dumpsFields, List.append_assoc, List.append_assoc, List.append_assoc, List.append_assoc]
    exact endsNumber_item y _

/-- The blanks of the separators are skipped. -/
theorem skipBlanks_item (l : List Char) :
    ∃ r, skipBlanks (y.item ++ l) = ',' :: r ∧ (OpensValue l → skipBlanks r = l) := by
  cases y with
  | spaced => exact ⟨' ' :: l, rfl, fun h => h.skipBlanks⟩
  | compact => exact ⟨l, rfl, fun h => h.skipBlanks⟩

theorem skipBlanks_key (l : List Char) :
    ∃ r, skipBlanks (y.key ++ l) = ':' :: r ∧ (OpensValue l → skipBlanks r = l) := by
  cases y with
  | spaced => exact ⟨' ' :: l, rfl, fun h => h.skipBlanks⟩
  | compact => exact ⟨l, rfl, fun h => h.skipBlanks⟩

theorem length_item_pos : 0 < y.item.length := by cases y <;> decide

theorem length_key_pos : 0 < y.key.length := by cases y <;> decide

/-- A key with its value is read when the value is. -/
theorem parseField_quote {k : String} {v w : Json} {n : ℕ} {rest : List Char}
    (hv : parseValue F n (dumps F y v ++ rest) = some (w, rest)) :
    parseField F (n + 1) (quote k ++ (y.key ++ (dumps F y v ++ rest))) = some ((k, w), rest) := by
  obtain ⟨r, hr, hskip⟩ := skipBlanks_key y (dumps F y v ++ rest)
  have hopens := (opensValue_dumps F y v).append rest
  have hquote : quote k ++ (y.key ++ (dumps F y v ++ rest)) =
      '"' :: (k.toList.flatMap escapeChar ++ '"' :: (y.key ++ (dumps F y v ++ rest))) := by
    simp [quote]
  rw [hquote, parseField, lexString_quote]
  simp only [Option.bind_eq_bind, Option.bind_some, hr, hskip hopens, hv]

theorem OpensValue.length_pos {l : List Char} (h : OpensValue l) : 0 < l.length := by
  obtain ⟨c, r, rfl, -⟩ := h
  exact Nat.succ_pos _

/-- A value is not empty, so there is fuel for it. -/
theorem exists_succ_of_dumps {v : Json} {n : ℕ} (hn : (dumps F y v).length ≤ n) :
    ∃ m, n = m + 1 :=
  Nat.exists_eq_succ_of_ne_zero (by have := (opensValue_dumps F y v).length_pos; omega)

/-- Behind the bracket a list goes on with its first element. -/
theorem parseValue_arr {l : List Char} (hl : OpensValue l) (n : ℕ) :
    parseValue F (n + 1) ('[' :: l) = (parseValue F n l).bind fun p =>
      (parseElems F n p.2).bind fun q => some (arr (p.1 :: q.1), q.2) := by
  have hskip := hl.skipBlanks
  obtain ⟨c, r, rfl, -, hc, -⟩ := hl
  rw [parseValue, hskip]
  split
  · rename_i heq
    exact absurd (List.cons.inj heq).1 hc
  · rfl

/-- Behind the brace a dictionary goes on with its first key. -/
theorem parseValue_obj {l : List Char} (hl : OpensValue l) (n : ℕ) :
    parseValue F (n + 1) ('{' :: l) = (parseField F n l).bind fun p =>
      (parseFields F n p.2).bind fun q => some (obj (ofPairs (p.1 :: q.1)), q.2) := by
  have hskip := hl.skipBlanks
  obtain ⟨c, r, rfl, -, -, hc⟩ := hl
  rw [parseValue, hskip]
  split
  · rename_i heq
    exact absurd (List.cons.inj heq).1 hc
  · rfl

mutual

/-- **A value followed by a delimiter** is read up to the delimiter. The induction is on the value;
the fuel is the length of its text, of which the elements and the fields take their part. -/
theorem parseValue_reread : ∀ (v : Json) {n : ℕ} {rest : List Char},
    (dumps F y v).length ≤ n → EndsNumber rest →
      parseValue F n (dumps F y v ++ rest) = some (v.reread F, rest)
  | null, n, rest, hn, hrest => by
    obtain ⟨m, rfl⟩ := exists_succ_of_dumps F y hn
    rfl
  | bool b, n, rest, hn, hrest => by
    obtain ⟨m, rfl⟩ := exists_succ_of_dumps F y hn
    cases b <;> rfl
  | int i, n, rest, hn, hrest => by
    obtain ⟨m, rfl⟩ := exists_succ_of_dumps F y hn
    rw [dumps, parseValue_text F (intText_valid i) hrest, ofNumber_intText]
    rfl
  | float q, n, rest, hn, hrest => by
    obtain ⟨m, rfl⟩ := exists_succ_of_dumps F y hn
    rw [dumps, parseValue_text F (F.valid q) hrest, ofNumber_isFloat]
    rfl
  | str s, n, rest, hn, hrest => by
    obtain ⟨m, rfl⟩ := exists_succ_of_dumps F y hn
    have hquote : dumps F y (str s) ++ rest =
        '"' :: (s.toList.flatMap escapeChar ++ '"' :: rest) := by simp [dumps, quote]
    rw [hquote, parseValue, lexString_quote]
    rfl
  | arr [], n, rest, hn, hrest => by
    obtain ⟨m, rfl⟩ := exists_succ_of_dumps F y hn
    rfl
  | arr (v :: l), n, rest, hn, hrest => by
    obtain ⟨m, rfl⟩ := exists_succ_of_dumps F y hn
    simp only [dumps, List.length_append, List.length_cons] at hn
    -- The first element is followed by a comma or a bracket, so it ends where it was written to.
    have hv := @parseValue_reread v m (dumpsElems F y l ++ rest) (by omega)
      (endsNumber_dumpsElems F y l rest)
    have hl := @parseElems_reread l m rest (by omega)
    have hopens := (opensValue_dumps F y v).append (dumpsElems F y l ++ rest)
    rw [dumps, List.append_assoc, List.cons_append, parseValue_arr F hopens, hv, Option.bind_some,
      hl, Option.bind_some, reread, rereadElems]
  | obj [], n, rest, hn, hrest => by
    obtain ⟨m, rfl⟩ := exists_succ_of_dumps F y hn
    rfl
  | obj ((k, v) :: d), n, rest, hn, hrest => by
    obtain ⟨m, rfl⟩ := exists_succ_of_dumps F y hn
    have hkey := length_key_pos y
    simp only [dumps, List.length_append, List.length_cons] at hn
    obtain ⟨m, rfl⟩ : ∃ j, m = j + 1 := Nat.exists_eq_succ_of_ne_zero (by omega)
    -- So is the value of the first field, behind its key.
    have hv := @parseValue_reread v m (dumpsFields F y d ++ rest) (by omega)
      (endsNumber_dumpsFields F y d rest)
    have hfield := parseField_quote F y (k := k) hv
    have hd := @parseFields_reread d (m + 1) rest (by omega)
    have hopens : OpensValue (quote k ++ (y.key ++ (dumps F y v ++ (dumpsFields F y d ++ rest)))) :=
      ⟨'"', _, rfl, by decide, by decide, by decide⟩
    rw [dumps, List.append_assoc, List.append_assoc, List.append_assoc, List.cons_append,
      parseValue_obj F hopens, hfield, Option.bind_some, hd, Option.bind_some, reread, rereadFields]

theorem parseElems_reread : ∀ (l : List Json) {n : ℕ} {rest : List Char},
    (dumpsElems F y l).length ≤ n →
      parseElems F n (dumpsElems F y l ++ rest) = some (rereadElems F l, rest)
  | [], n, rest, hn => by
    obtain ⟨m, rfl⟩ : ∃ j, n = j + 1 := Nat.exists_eq_succ_of_ne_zero (by
      simp only [dumpsElems, List.length_singleton] at hn
      omega)
    rfl
  | v :: l, n, rest, hn => by
    have hitem := length_item_pos y
    simp only [dumpsElems, List.length_append] at hn
    obtain ⟨m, rfl⟩ : ∃ j, n = j + 1 := Nat.exists_eq_succ_of_ne_zero (by omega)
    have hv := @parseValue_reread v m (dumpsElems F y l ++ rest) (by omega)
      (endsNumber_dumpsElems F y l rest)
    have hl := @parseElems_reread l m rest (by omega)
    obtain ⟨r, hr, hskip⟩ := skipBlanks_item y (dumps F y v ++ (dumpsElems F y l ++ rest))
    have hopens := (opensValue_dumps F y v).append (dumpsElems F y l ++ rest)
    rw [dumpsElems, List.append_assoc, List.append_assoc, parseElems, hr]
    simp only [hskip hopens, hv, hl, rereadElems, Option.bind_eq_bind, Option.bind_some]

theorem parseFields_reread : ∀ (d : List (String × Json)) {n : ℕ} {rest : List Char},
    (dumpsFields F y d).length ≤ n →
      parseFields F n (dumpsFields F y d ++ rest) = some (rereadFields F d, rest)
  | [], n, rest, hn => by
    obtain ⟨m, rfl⟩ : ∃ j, n = j + 1 := Nat.exists_eq_succ_of_ne_zero (by
      simp only [dumpsFields, List.length_singleton] at hn
      omega)
    rfl
  | (k, v) :: d, n, rest, hn => by
    have hitem := length_item_pos y
    have hkey := length_key_pos y
    simp only [dumpsFields, List.length_append] at hn
    obtain ⟨m, rfl⟩ : ∃ j, n = j + 2 := ⟨n - 2, by omega⟩
    have hv := @parseValue_reread v m (dumpsFields F y d ++ rest) (by omega)
      (endsNumber_dumpsFields F y d rest)
    have hfield := parseField_quote F y (k := k) hv
    have hd := @parseFields_reread d (m + 1) rest (by omega)
    obtain ⟨r, hr, hskip⟩ := skipBlanks_item y
      (quote k ++ (y.key ++ (dumps F y v ++ (dumpsFields F y d ++ rest))))
    have hopens : OpensValue (quote k ++ (y.key ++ (dumps F y v ++ (dumpsFields F y d ++ rest)))) :=
      ⟨'"', _, rfl, by decide, by decide, by decide⟩
    rw [dumpsFields, List.append_assoc, List.append_assoc, List.append_assoc, List.append_assoc,
      parseFields, hr]
    simp only [hskip hopens, hfield, hd, rereadFields, Option.bind_eq_bind, Option.bind_some]

end

/-- A value followed by a delimiter, when Python can hold it. -/
theorem parseValue_dumps (v : Json) (hv : v.WellFormed F) {n : ℕ} {rest : List Char}
    (hn : (dumps F y v).length ≤ n) (hrest : EndsNumber rest) :
    parseValue F n (dumps F y v ++ rest) = some (v, rest) := by
  rw [parseValue_reread F y v hn hrest, reread_of_wellFormed hv]

/-- What is written is read. -/
theorem loads_reread (v : Json) : loads F (dumps F y v) = some (v.reread F) := by
  have hopens := opensValue_dumps F y v
  have hend : EndsNumber [] := fun c hc => nomatch hc
  have hparse := parseValue_reread F y v (Nat.le_succ (dumps F y v).length) hend
  rw [List.append_nil] at hparse
  rw [loads, hopens.skipBlanks, hparse]
  exact if_pos rfl

/-- **What is written is read back.** -/
theorem loads_dumps {v : Json} (hv : v.WellFormed F) : loads F (dumps F y v) = some v := by
  rw [loads_reread, reread_of_wellFormed hv]

/-! ### ASCII -/

end Json

/-- A printable ASCII character. -/
def IsPrintable (c : Char) : Prop := 32 ≤ c.toNat ∧ c.toNat ≤ 126

instance : DecidablePred IsPrintable := fun _ => inferInstanceAs (Decidable (_ ∧ _))

/-- Every character of the text is printable ASCII. -/
def Printable (l : List Char) : Prop := ∀ c ∈ l, IsPrintable c

instance : DecidablePred Printable := fun l => List.decidableBAll IsPrintable l

namespace Printable

theorem nil : Printable [] := fun _ h => nomatch h

theorem cons {c : Char} {l : List Char} (hc : IsPrintable c) (hl : Printable l) :
    Printable (c :: l) := List.forall_mem_cons.mpr ⟨hc, hl⟩

theorem append {l m : List Char} (hl : Printable l) (hm : Printable m) : Printable (l ++ m) :=
  List.forall_mem_append.mpr ⟨hl, hm⟩

theorem of_isDigit {l : List Char} (hl : ∀ c ∈ l, c.isDigit = true) : Printable l := by
  intro c hc
  have hdigit := hl c hc
  rw [Char.isDigit, Bool.and_eq_true, decide_eq_true_eq, decide_eq_true_eq] at hdigit
  have hlow : 48 ≤ c.toNat := hdigit.1
  have hhigh : c.toNat ≤ 57 := hdigit.2
  exact ⟨by omega, by omega⟩

theorem numText {t : NumText} (ht : t.Valid) : Printable t.text := by
  have hfrac : Printable (NumText.fracText t.frac) := by
    rw [NumText.fracText]
    split
    · exact nil
    · exact cons (by decide) (of_isDigit ht.frac)
  have hexp : Printable (NumText.exponentText t.exponent) := by
    cases h : t.exponent with
    | none => exact nil
    | some e =>
      obtain ⟨letter, sign, digits⟩ := e
      obtain ⟨hletter, hsign, -, hdigits⟩ := ht.exponent _ _ _ h
      have hl : IsPrintable letter := by rcases hletter with rfl | rfl <;> decide
      have hs : Printable sign := by rcases hsign with rfl | rfl | rfl <;> decide
      exact cons hl (append hs (of_isDigit hdigits))
  have hminus : Printable (if t.negative then ['-'] else []) := by
    split <;> decide
  exact append hminus (append (of_isDigit ht.whole_digits) (append hfrac hexp))

theorem hexDigit {d : ℕ} (hd : d < 16) : IsPrintable (hexDigit d) := by
  interval_cases d <;> decide

theorem unicodeEscape {u : ℕ} (hu : u < 65536) : Printable (unicodeEscape u) :=
  cons (by decide) <| cons (by decide) <| cons (hexDigit (by omega)) <|
    cons (hexDigit (by omega)) <| cons (hexDigit (by omega)) <| cons (hexDigit (by omega)) nil

theorem escapeChar (c : Char) : Printable (escapeChar c) := by
  have hshort : ∀ p ∈ shortEscapes, IsPrintable p.2 := by decide
  rw [Python.escapeChar]
  split
  · rename_i e h
    exact cons (by decide) (cons (hshort (c, e) (Assoc.mem_of_get? h)) nil)
  · split
    · rename_i hc
      exact cons hc nil
    · intro d hd
      obtain ⟨u, hu, hd⟩ := List.mem_flatMap.mp hd
      exact unicodeEscape (units_lt c u hu) d hd

theorem quote (s : String) : Printable (quote s) := by
  have hbody : Printable (s.toList.flatMap Python.escapeChar) := by
    intro d hd
    obtain ⟨c, -, hd⟩ := List.mem_flatMap.mp hd
    exact escapeChar c d hd
  exact append (cons (by decide) hbody) (by decide)

theorem item (y : JsonLayout) : Printable y.item := by cases y <;> decide

theorem key (y : JsonLayout) : Printable y.key := by cases y <;> decide

end Printable

namespace Json

variable (F : FloatText) (y : JsonLayout)

mutual

/-- **What is written is printable ASCII**, on one line. -/
theorem printable_dumps : ∀ v : Json, Printable (dumps F y v)
  | null => by
    rw [dumps]
    decide
  | bool true => by
    rw [dumps]
    decide
  | bool false => by
    rw [dumps]
    decide
  | int i => Printable.numText (intText_valid i)
  | float q => Printable.numText (F.valid q)
  | str s => Printable.quote s
  | arr [] => by
    rw [dumps]
    decide
  | arr (v :: l) =>
    ((printable_dumps v).cons (by decide)).append (printable_dumpsElems l)
  | obj [] => by
    rw [dumps]
    decide
  | obj ((k, v) :: d) =>
    ((((Printable.quote k).cons (by decide)).append (Printable.key y)).append
      (printable_dumps v)).append (printable_dumpsFields d)

theorem printable_dumpsElems : ∀ l : List Json, Printable (dumpsElems F y l)
  | [] => by
    rw [dumpsElems]
    decide
  | v :: l => ((Printable.item y).append (printable_dumps v)).append (printable_dumpsElems l)

theorem printable_dumpsFields : ∀ d : List (String × Json), Printable (dumpsFields F y d)
  | [] => by
    rw [dumpsFields]
    decide
  | (k, v) :: d =>
    ((((Printable.item y).append (Printable.quote k)).append (Printable.key y)).append
      (printable_dumps v)).append (printable_dumpsFields d)

end

/-- The text of a dictionary ends with its brace. -/
theorem dumpsFields_getLast? (d : List (String × Json)) :
    (dumpsFields F y d).getLast? = some '}' := by
  induction d with
  | nil => rfl
  | cons p d ih =>
    obtain ⟨k, v⟩ := p
    rw [dumpsFields, List.getLast?_append, ih]
    rfl

theorem dumps_obj_ends (d : Dict) :
    (∃ r, dumps F y (obj d) = '{' :: r) ∧ (dumps F y (obj d)).getLast? = some '}' := by
  cases d with
  | nil => exact ⟨⟨_, rfl⟩, rfl⟩
  | cons p d =>
    obtain ⟨k, v⟩ := p
    refine ⟨⟨_, rfl⟩, ?_⟩
    rw [dumps, List.getLast?_append, dumpsFields_getLast?]
    rfl

end Json

end Python
