import SkCoord.Python.Bytes

/-!
# JSON texts beyond ASCII

`Json.dumpsUtf8` writes a value as `json.dumps(value, ensure_ascii=False, separators=(",", ":"))` does:
a character is escaped only where JSON asks for it.  `loads_dumpsUtf8`: what is written is read back.
-/

namespace Python

/-- A character as it stands between quotes with `ensure_ascii=False`. -/
def escapeRaw (c : Char) : List Char :=
  match Assoc.get? shortEscapes c with
  | some e => ['\\', e]
  | none => if c.toNat < 32 then unicodeEscape c.toNat else [c]

/-- A text in quotes with `ensure_ascii=False`. -/
def quoteRaw (s : String) : List Char := '"' :: s.toList.flatMap escapeRaw ++ ['"']

/-- The number under which a character is scanned: its code point. -/
theorem scanString_escapeRaw (c : Char) (l : List Char) :
    scanString (escapeRaw c ++ l) = (scanString l).map fun p => (c.toNat :: p.1, p.2) := by
  cases h : Assoc.get? shortEscapes c with
  | some e =>
    obtain ⟨-, -, hunits⟩ := unescape_of_shortEscapes h
    rw [escapeRaw, h]
    show scanString ('\\' :: e :: l) = _
    rw [scanString_short h, hunits]
    rfl
  | none =>
    rw [escapeRaw, h]
    dsimp only
    split
    · rename_i hc
      exact scanString_unicodeEscape (by omega) l
    · rename_i hc
      have hkey : c ∉ Assoc.keys shortEscapes := (Assoc.get?_eq_none_iff _ _).mp h
      have hquote : c ≠ '"' := by rintro rfl; exact hkey (by decide)
      have hslash : c ≠ '\\' := by rintro rfl; exact hkey (by decide)
      exact scanString_plain hquote hslash (not_lt.mp hc) l

theorem scanString_quoteRaw (s rest : List Char) :
    scanString (s.flatMap escapeRaw ++ '"' :: rest) = some (s.map Char.toNat, rest) := by
  induction s with
  | nil => rfl
  | cons c s ih =>
    rw [List.flatMap_cons, List.append_assoc, scanString_escapeRaw, ih]
    rfl

theorem unitChar_toNat (c : Char) : unitChar c.toNat = c := by
  have hsurrogate : ¬ (55296 ≤ c.toNat ∧ c.toNat < 57344) := by
    rcases c.valid with h | h
    · exact fun hc => absurd (show c.toNat < 55296 from h) (by omega)
    · exact fun hc => absurd (show 57343 < c.toNat from h.1) (by omega)
  rw [unitChar, if_neg hsurrogate, Char.ofNat_toNat]

/-- No code point is half of a pair. -/
theorem joinUnits_map_toNat : ∀ s : List Char, joinUnits (s.map Char.toNat) = s
  | [] => rfl
  | [c] => congrArg (fun d => [d]) (unitChar_toNat c)
  | c :: d :: s => by
    have hpair : ¬ (55296 ≤ c.toNat ∧ c.toNat < 56320 ∧ 56320 ≤ d.toNat ∧ d.toNat < 57344) := by
      rcases c.valid with h | h
      · exact fun hc => absurd (show c.toNat < 55296 from h) (by omega)
      · exact fun hc => absurd (show 57343 < c.toNat from h.1) (by omega)
    have ih := joinUnits_map_toNat (d :: s)
    rw [List.map_cons] at ih
    rw [List.map_cons, List.map_cons, joinUnits, if_neg hpair, unitChar_toNat, ih]

theorem lexString_quoteRaw (s : String) (rest : List Char) :
    lexString (s.toList.flatMap escapeRaw ++ '"' :: rest) = some (s, rest) := by
  rw [lexString, scanString_quoteRaw]
  show some (String.ofList (joinUnits (s.toList.map Char.toNat)), rest) = _
  rw [joinUnits_map_toNat, String.ofList_toList]

namespace Json

mutual

/-- `json.dumps(value, ensure_ascii=False, separators=(",", ":"))`. -/
def dumpsUtf8 (F : FloatText) : Json → List Char
  | null => "null".toList
  | bool true => "true".toList
  | bool false => "false".toList
  | int i => (intText i).text
  | float q => (F.repr q).text
  | str s => quoteRaw s
  | arr [] => ['[', ']']
  | arr (v :: l) => '[' :: dumpsUtf8 F v ++ dumpsUtf8Elems F l
  | obj [] => ['{', '}']
  | obj ((k, v) :: d) => '{' :: quoteRaw k ++ ':' :: dumpsUtf8 F v ++ dumpsUtf8Fields F d

/-- The elements behind the first. -/
def dumpsUtf8Elems (F : FloatText) : List Json → List Char
  | [] => [']']
  | v :: l => ',' :: dumpsUtf8 F v ++ dumpsUtf8Elems F l

/-- The fields behind the first. -/
def dumpsUtf8Fields (F : FloatText) : List (String × Json) → List Char
  | [] => ['}']
  | (k, v) :: d => ',' :: quoteRaw k ++ ':' :: dumpsUtf8 F v ++ dumpsUtf8Fields F d

end

variable (F : FloatText)

theorem opensValue_dumpsUtf8 (v : Json) : OpensValue (dumpsUtf8 F v) := by
  cases v with
  | null => exact ⟨'n', _, rfl, by decide, by decide, by decide⟩
  | bool b => cases b <;> exact ⟨_, _, rfl, by decide, by decide, by decide⟩
  | int i => exact opensValue_text (intText_valid i)
  | float q => exact opensValue_text (F.valid q)
  | str s => exact ⟨'"', _, rfl, by decide, by decide, by decide⟩
  | arr l => cases l <;> exact ⟨'[', _, rfl, by decide, by decide, by decide⟩
  | obj d => cases d <;> exact ⟨'{', _, rfl, by decide, by decide, by decide⟩

theorem endsNumber_dumpsUtf8Elems (l : List Json) (rest : List Char) :
    EndsNumber (dumpsUtf8Elems F l ++ rest) := by
  cases l <;>
  · intro c hc
    cases hc
    exact ⟨by decide, by decide, by decide, by decide⟩

theorem endsNumber_dumpsUtf8Fields (d : List (String × Json)) (rest : List Char) :
    EndsNumber (dumpsUtf8Fields F d ++ rest) := by
  cases d <;>
  · intro c hc
    cases hc
    exact ⟨by decide, by decide, by decide, by decide⟩

theorem exists_succ_of_dumpsUtf8 {v : Json} {n : ℕ} (hn : (dumpsUtf8 F v).length ≤ n) :
    ∃ m, n = m + 1 :=
  Nat.exists_eq_succ_of_ne_zero (by have := (opensValue_dumpsUtf8 F v).length_pos; omega)

theorem opensValue_quoteRaw (k : String) (l : List Char) : OpensValue (quoteRaw k ++ l) :=
  ⟨'"', _, rfl, by decide, by decide, by decide⟩

/-- A key with its value is read when the value is. -/
theorem parseField_quoteRaw {k : String} {v w : Json} {n : ℕ} {rest : List Char}
    (hv : parseValue F n (dumpsUtf8 F v ++ rest) = some (w, rest)) :
    parseField F (n + 1) (quoteRaw k ++ ':' :: (dumpsUtf8 F v ++ rest)) = some ((k, w), rest) := by
  have hopens := (opensValue_dumpsUtf8 F v).append rest
  have hcolon : skipBlanks (':' :: (dumpsUtf8 F v ++ rest)) = ':' :: (dumpsUtf8 F v ++ rest) := rfl
  have hquote : quoteRaw k ++ ':' :: (dumpsUtf8 F v ++ rest) =
      '"' :: (k.toList.flatMap escapeRaw ++ '"' :: ':' :: (dumpsUtf8 F v ++ rest)) := by
    simp [quoteRaw]
  rw [hquote, parseField, lexString_quoteRaw]
  simp only [Option.bind_eq_bind, Option.bind_some, hcolon, hopens.skipBlanks, hv]

mutual

/-- **A value followed by a delimiter** is read up to the delimiter. Scalars are written as in
ASCII; texts, and with them arrays and objects, need the induction again. -/
theorem parseValue_dumpsUtf8 : ∀ (v : Json) {n : ℕ} {rest : List Char},
    (dumpsUtf8 F v).length ≤ n → EndsNumber rest →
      parseValue F n (dumpsUtf8 F v ++ rest) = some (v.reread F, rest)
  | null, _, _, hn, hrest => parseValue_reread F .compact null hn hrest
  | bool true, _, _, hn, hrest => parseValue_reread F .compact (bool true) hn hrest
  | bool false, _, _, hn, hrest => parseValue_reread F .compact (bool false) hn hrest
  | int i, _, _, hn, hrest => parseValue_reread F .compact (int i) hn hrest
  | float q, _, _, hn, hrest => parseValue_reread F .compact (float q) hn hrest
  | str s, n, rest, hn, hrest => by
    obtain ⟨m, rfl⟩ := exists_succ_of_dumpsUtf8 F hn
    have hquote : dumpsUtf8 F (str s) ++ rest =
        '"' :: (s.toList.flatMap escapeRaw ++ '"' :: rest) := by simp [dumpsUtf8, quoteRaw]
    rw [hquote, parseValue, lexString_quoteRaw]
    rfl
  | arr [], n, rest, hn, hrest => by
    obtain ⟨m, rfl⟩ := exists_succ_of_dumpsUtf8 F hn
    rfl
  | arr (v :: l), n, rest, hn, hrest => by
    obtain ⟨m, rfl⟩ := exists_succ_of_dumpsUtf8 F hn
    simp only [dumpsUtf8, List.length_append, List.length_cons] at hn
    have hv := @parseValue_dumpsUtf8 v m (dumpsUtf8Elems F l ++ rest) (by omega)
      (endsNumber_dumpsUtf8Elems F l rest)
    have hl := @parseElems_dumpsUtf8 l m rest (by omega)
    have hopens := (opensValue_dumpsUtf8 F v).append (dumpsUtf8Elems F l ++ rest)
    rw [dumpsUtf8, List.append_assoc, List.cons_append, parseValue_arr F hopens, hv,
      Option.bind_some, hl, Option.bind_some, reread, rereadElems]
  | obj [], n, rest, hn, hrest => by
    obtain ⟨m, rfl⟩ := exists_succ_of_dumpsUtf8 F hn
    rfl
  | obj ((k, v) :: d), n, rest, hn, hrest => by
    obtain ⟨m, rfl⟩ := exists_succ_of_dumpsUtf8 F hn
    simp only [dumpsUtf8, List.length_append, List.length_cons] at hn
    obtain ⟨m, rfl⟩ : ∃ j, m = j + 1 := Nat.exists_eq_succ_of_ne_zero (by omega)
    have hv := @parseValue_dumpsUtf8 v m (dumpsUtf8Fields F d ++ rest) (by omega)
      (endsNumber_dumpsUtf8Fields F d rest)
    have hfield := parseField_quoteRaw F (k := k) hv
    have hd := @parseFields_dumpsUtf8 d (m + 1) rest (by omega)
    have hopens := opensValue_quoteRaw k (':' :: (dumpsUtf8 F v ++ (dumpsUtf8Fields F d ++ rest)))
    rw [dumpsUtf8, List.append_assoc, List.append_assoc, List.cons_append, List.cons_append,
      parseValue_obj F hopens, hfield, Option.bind_some, hd, Option.bind_some, reread,
      rereadFields]

theorem parseElems_dumpsUtf8 : ∀ (l : List Json) {n : ℕ} {rest : List Char},
    (dumpsUtf8Elems F l).length ≤ n →
      parseElems F n (dumpsUtf8Elems F l ++ rest) = some (rereadElems F l, rest)
  | [], n, rest, hn => by
    obtain ⟨m, rfl⟩ : ∃ j, n = j + 1 := Nat.exists_eq_succ_of_ne_zero (by
      simp only [dumpsUtf8Elems, List.length_singleton] at hn
      omega)
    rfl
  | v :: l, n, rest, hn => by
    simp only [dumpsUtf8Elems, List.length_append, List.length_cons] at hn
    obtain ⟨m, rfl⟩ : ∃ j, n = j + 1 := Nat.exists_eq_succ_of_ne_zero (by omega)
    have hv := @parseValue_dumpsUtf8 v m (dumpsUtf8Elems F l ++ rest) (by omega)
      (endsNumber_dumpsUtf8Elems F l rest)
    have hl := @parseElems_dumpsUtf8 l m rest (by omega)
    have hopens := (opensValue_dumpsUtf8 F v).append (dumpsUtf8Elems F l ++ rest)
    have hcomma : ∀ r : List Char, skipBlanks (',' :: r) = ',' :: r := fun _ => rfl
    rw [dumpsUtf8Elems, List.append_assoc, List.cons_append, parseElems, hcomma]
    simp only [hopens.skipBlanks, hv, hl, rereadElems, Option.bind_eq_bind, Option.bind_some]

theorem parseFields_dumpsUtf8 : ∀ (d : List (String × Json)) {n : ℕ} {rest : List Char},
    (dumpsUtf8Fields F d).length ≤ n →
      parseFields F n (dumpsUtf8Fields F d ++ rest) = some (rereadFields F d, rest)
  | [], n, rest, hn => by
    obtain ⟨m, rfl⟩ : ∃ j, n = j + 1 := Nat.exists_eq_succ_of_ne_zero (by
      simp only [dumpsUtf8Fields, List.length_singleton] at hn
      omega)
    rfl
  | (k, v) :: d, n, rest, hn => by
    simp only [dumpsUtf8Fields, List.length_append, List.length_cons] at hn
    obtain ⟨m, rfl⟩ : ∃ j, n = j + 2 := ⟨n - 2, by omega⟩
    have hv := @parseValue_dumpsUtf8 v m (dumpsUtf8Fields F d ++ rest) (by omega)
      (endsNumber_dumpsUtf8Fields F d rest)
    have hfield := parseField_quoteRaw F (k := k) hv
    have hd := @parseFields_dumpsUtf8 d (m + 1) rest (by omega)
    have hopens := opensValue_quoteRaw k (':' :: (dumpsUtf8 F v ++ (dumpsUtf8Fields F d ++ rest)))
    have hcomma : ∀ r : List Char, skipBlanks (',' :: r) = ',' :: r := fun _ => rfl
    rw [dumpsUtf8Fields, List.append_assoc, List.append_assoc, List.cons_append, List.cons_append,
      parseFields, hcomma]
    simp only [hopens.skipBlanks, hfield, hd, rereadFields, Option.bind_eq_bind, Option.bind_some]

end

/-- **What is written is read back.** -/
theorem loads_dumpsUtf8 {v : Json} (hv : v.WellFormed F) : loads F (dumpsUtf8 F v) = some v := by
  have hopens := opensValue_dumpsUtf8 F v
  have hend : EndsNumber [] := fun c hc => nomatch hc
  have hparse := parseValue_dumpsUtf8 F v (Nat.le_succ (dumpsUtf8 F v).length) hend
  rw [List.append_nil, reread_of_wellFormed hv] at hparse
  rw [loads, hopens.skipBlanks, hparse]
  exact if_pos rfl

end Json

end Python
