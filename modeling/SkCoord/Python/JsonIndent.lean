import SkCoord.Python.JsonFile

/-!
# Indented JSON texts

`Json.pretty` writes a value as `json.dumps(value, indent=2)` does.  `loads_pretty`: the file is read
as `Json.reread` says.  The proof is that of `loads_reread`, with the line breaks between the tokens
skipped.
-/

namespace Python

/-- A new line with the indentation of a depth. -/
def newlineIndent (depth : ℕ) : List Char := '\n' :: List.replicate (2 * depth) ' '

theorem skipBlanks_newlineIndent (depth : ℕ) (l : List Char) :
    Json.skipBlanks (newlineIndent depth ++ l) = Json.skipBlanks l := by
  have hblank : ∀ c ∈ newlineIndent depth, Json.isBlankChar c = true := by
    intro c hc
    rcases List.mem_cons.mp hc with rfl | hc
    · rfl
    · rw [List.eq_of_mem_replicate hc]
      rfl
  exact List.dropWhile_append_of_pos hblank

namespace Json

mutual

/-- `json.dumps(value, indent=2)` of a value that stands at a depth. -/
def pretty (F : FloatText) (depth : ℕ) : Json → List Char
  | arr [] => ['[', ']']
  | arr (v :: l) =>
    '[' :: newlineIndent (depth + 1) ++ pretty F (depth + 1) v ++ prettyElems F depth l
  | obj [] => ['{', '}']
  | obj ((k, v) :: d) =>
    '{' :: newlineIndent (depth + 1) ++ quote k ++ [':', ' '] ++ pretty F (depth + 1) v ++
      prettyFields F depth d
  | v => dumps F .spaced v

/-- The elements behind the first. -/
def prettyElems (F : FloatText) (depth : ℕ) : List Json → List Char
  | [] => newlineIndent depth ++ [']']
  | v :: l =>
    ',' :: newlineIndent (depth + 1) ++ pretty F (depth + 1) v ++ prettyElems F depth l

/-- The fields behind the first. -/
def prettyFields (F : FloatText) (depth : ℕ) : List (String × Json) → List Char
  | [] => newlineIndent depth ++ ['}']
  | (k, v) :: d =>
    ',' :: newlineIndent (depth + 1) ++ quote k ++ [':', ' '] ++ pretty F (depth + 1) v ++
      prettyFields F depth d

end

variable (F : FloatText)

theorem opensValue_pretty (depth : ℕ) (v : Json) : OpensValue (pretty F depth v) := by
  cases v with
  | arr l => cases l <;> exact ⟨'[', _, rfl, by decide, by decide, by decide⟩
  | obj d => cases d <;> exact ⟨'{', _, rfl, by decide, by decide, by decide⟩
  | null => exact opensValue_dumps F .spaced _
  | bool b => exact opensValue_dumps F .spaced _
  | int i => exact opensValue_dumps F .spaced _
  | float q => exact opensValue_dumps F .spaced _
  | str s => exact opensValue_dumps F .spaced _

theorem exists_succ_of_pretty {depth : ℕ} {v : Json} {n : ℕ}
    (hn : (pretty F depth v).length ≤ n) : ∃ m, n = m + 1 :=
  Nat.exists_eq_succ_of_ne_zero (by have := (opensValue_pretty F depth v).length_pos; omega)

theorem endsNumber_newline (l : List Char) : EndsNumber ('\n' :: l) := by
  intro c hc
  cases hc
  exact ⟨by decide, by decide, by decide, by decide⟩

theorem endsNumber_comma (l : List Char) : EndsNumber (',' :: l) := by
  intro c hc
  cases hc
  exact ⟨by decide, by decide, by decide, by decide⟩

theorem endsNumber_prettyElems (depth : ℕ) (l : List Json) (rest : List Char) :
    EndsNumber (prettyElems F depth l ++ rest) := by
  cases l with
  | nil => exact endsNumber_newline _
  | cons v l => exact endsNumber_comma _

theorem endsNumber_prettyFields (depth : ℕ) (d : List (String × Json)) (rest : List Char) :
    EndsNumber (prettyFields F depth d ++ rest) := by
  cases d with
  | nil => exact endsNumber_newline _
  | cons p d => exact endsNumber_comma _

/-! ### Line breaks between tokens -/

theorem parseValue_arr_newline (n depth : ℕ) (l : List Char) :
    parseValue F (n + 1) ('[' :: (newlineIndent depth ++ l)) = parseValue F (n + 1) ('[' :: l) := by
  rw [parseValue, parseValue, skipBlanks_newlineIndent]

theorem parseValue_obj_newline (n depth : ℕ) (l : List Char) :
    parseValue F (n + 1) ('{' :: (newlineIndent depth ++ l)) = parseValue F (n + 1) ('{' :: l) := by
  rw [parseValue, parseValue, skipBlanks_newlineIndent]

/-- A key with its value is read when the value is. -/
theorem parseField_pretty {k : String} {v w : Json} {depth n : ℕ} {rest : List Char}
    (hv : parseValue F n (pretty F depth v ++ rest) = some (w, rest)) :
    parseField F (n + 1) (quote k ++ (':' :: ' ' :: (pretty F depth v ++ rest))) =
      some ((k, w), rest) := by
  have hopens := (opensValue_pretty F depth v).append rest
  have hskip : skipBlanks (' ' :: (pretty F depth v ++ rest)) = pretty F depth v ++ rest :=
    hopens.skipBlanks
  have hcolon : skipBlanks (':' :: ' ' :: (pretty F depth v ++ rest)) =
      ':' :: ' ' :: (pretty F depth v ++ rest) := rfl
  have hquote : quote k ++ (':' :: ' ' :: (pretty F depth v ++ rest)) =
      '"' :: (k.toList.flatMap escapeChar ++ '"' :: (':' :: ' ' :: (pretty F depth v ++ rest))) := by
    simp [quote]
  rw [hquote, parseField, lexString_quote]
  simp only [Option.bind_eq_bind, Option.bind_some, hcolon, hskip, hv]

theorem opensValue_key (k : String) (l : List Char) : OpensValue (quote k ++ l) :=
  ⟨'"', _, rfl, by decide, by decide, by decide⟩

mutual

/-- **A value followed by a delimiter** is read up to the delimiter. -/
theorem parseValue_pretty : ∀ (v : Json) {depth n : ℕ} {rest : List Char},
    (pretty F depth v).length ≤ n → EndsNumber rest →
      parseValue F n (pretty F depth v ++ rest) = some (v.reread F, rest)
  | null, _, _, _, hn, hrest => parseValue_reread F .spaced null hn hrest
  | bool b, _, _, _, hn, hrest => parseValue_reread F .spaced (bool b) hn hrest
  | int i, _, _, _, hn, hrest => parseValue_reread F .spaced (int i) hn hrest
  | float q, _, _, _, hn, hrest => parseValue_reread F .spaced (float q) hn hrest
  | str s, _, _, _, hn, hrest => parseValue_reread F .spaced (str s) hn hrest
  | arr [], _, n, rest, hn, hrest => by
    obtain ⟨m, rfl⟩ := exists_succ_of_pretty F hn
    rfl
  | arr (v :: l), depth, n, rest, hn, hrest => by
    obtain ⟨m, rfl⟩ := exists_succ_of_pretty F hn
    simp only [pretty, List.length_append, List.length_cons] at hn
    have hv := @parseValue_pretty v (depth + 1) m (prettyElems F depth l ++ rest) (by omega)
      (endsNumber_prettyElems F depth l rest)
    have hl := @parseElems_pretty l depth m rest (by omega)
    have hopens := (opensValue_pretty F (depth + 1) v).append (prettyElems F depth l ++ rest)
    rw [pretty, List.append_assoc, List.append_assoc, List.cons_append, parseValue_arr_newline,
      parseValue_arr F hopens, hv, Option.bind_some, hl, Option.bind_some, reread,
      rereadElems]
  | obj [], _, n, rest, hn, hrest => by
    obtain ⟨m, rfl⟩ := exists_succ_of_pretty F hn
    rfl
  | obj ((k, v) :: d), depth, n, rest, hn, hrest => by
    obtain ⟨m, rfl⟩ := exists_succ_of_pretty F hn
    simp only [pretty, List.length_append, List.length_cons] at hn
    obtain ⟨m, rfl⟩ : ∃ j, m = j + 1 := Nat.exists_eq_succ_of_ne_zero (by omega)
    have hv := @parseValue_pretty v (depth + 1) m (prettyFields F depth d ++ rest) (by omega)
      (endsNumber_prettyFields F depth d rest)
    have hfield := parseField_pretty F (k := k) hv
    have hd := @parseFields_pretty d depth (m + 1) rest (by omega)
    have hopens := opensValue_key k
      (':' :: ' ' :: (pretty F (depth + 1) v ++ (prettyFields F depth d ++ rest)))
    rw [pretty, List.append_assoc, List.append_assoc, List.append_assoc, List.append_assoc,
      List.cons_append, parseValue_obj_newline, List.cons_append, List.cons_append,
      List.nil_append, parseValue_obj F hopens, hfield, Option.bind_some, hd, Option.bind_some,
      reread, rereadFields]

theorem parseElems_pretty : ∀ (l : List Json) {depth n : ℕ} {rest : List Char},
    (prettyElems F depth l).length ≤ n →
      parseElems F n (prettyElems F depth l ++ rest) = some (rereadElems F l, rest)
  | [], depth, n, rest, hn => by
    simp only [prettyElems, List.length_append, List.length_singleton] at hn
    obtain ⟨m, rfl⟩ : ∃ j, n = j + 1 := Nat.exists_eq_succ_of_ne_zero (by omega)
    rw [prettyElems, List.append_assoc, parseElems, skipBlanks_newlineIndent]
    rfl
  | v :: l, depth, n, rest, hn => by
    simp only [prettyElems, List.length_append, List.length_cons] at hn
    obtain ⟨m, rfl⟩ : ∃ j, n = j + 1 := Nat.exists_eq_succ_of_ne_zero (by omega)
    have hv := @parseValue_pretty v (depth + 1) m (prettyElems F depth l ++ rest) (by omega)
      (endsNumber_prettyElems F depth l rest)
    have hl := @parseElems_pretty l depth m rest (by omega)
    have hopens := (opensValue_pretty F (depth + 1) v).append (prettyElems F depth l ++ rest)
    have hcomma : ∀ r : List Char, skipBlanks (',' :: r) = ',' :: r := fun _ => rfl
    rw [prettyElems, List.append_assoc, List.append_assoc, List.cons_append, parseElems, hcomma]
    simp only [skipBlanks_newlineIndent, hopens.skipBlanks, hv, hl, rereadElems,
      Option.bind_eq_bind, Option.bind_some]

theorem parseFields_pretty : ∀ (d : List (String × Json)) {depth n : ℕ} {rest : List Char},
    (prettyFields F depth d).length ≤ n →
      parseFields F n (prettyFields F depth d ++ rest) = some (rereadFields F d, rest)
  | [], depth, n, rest, hn => by
    simp only [prettyFields, List.length_append, List.length_singleton] at hn
    obtain ⟨m, rfl⟩ : ∃ j, n = j + 1 := Nat.exists_eq_succ_of_ne_zero (by omega)
    rw [prettyFields, List.append_assoc, parseFields, skipBlanks_newlineIndent]
    rfl
  | (k, v) :: d, depth, n, rest, hn => by
    simp only [prettyFields, List.length_append, List.length_cons] at hn
    obtain ⟨m, rfl⟩ : ∃ j, n = j + 2 := ⟨n - 2, by omega⟩
    have hv := @parseValue_pretty v (depth + 1) m (prettyFields F depth d ++ rest) (by omega)
      (endsNumber_prettyFields F depth d rest)
    have hfield := parseField_pretty F (k := k) hv
    have hd := @parseFields_pretty d depth (m + 1) rest (by omega)
    have hopens := opensValue_key k
      (':' :: ' ' :: (pretty F (depth + 1) v ++ (prettyFields F depth d ++ rest)))
    have hcomma : ∀ r : List Char, skipBlanks (',' :: r) = ',' :: r := fun _ => rfl
    rw [prettyFields, List.append_assoc, List.append_assoc, List.append_assoc, List.append_assoc,
      List.cons_append, List.cons_append, List.cons_append, List.nil_append, parseFields, hcomma]
    simp only [skipBlanks_newlineIndent, hopens.skipBlanks, hfield, hd, rereadFields,
      Option.bind_eq_bind, Option.bind_some]

end

/-- **What is written is read**, whatever blanks are behind it. -/
theorem loads_pretty_append (v : Json) {rest : List Char} (hend : EndsNumber rest)
    (hblank : skipBlanks rest = []) : loads F (pretty F 0 v ++ rest) = some (v.reread F) := by
  have hopens := (opensValue_pretty F 0 v).append rest
  have hlength : (pretty F 0 v).length ≤ (pretty F 0 v ++ rest).length + 1 := by
    rw [List.length_append]
    omega
  rw [loads, hopens.skipBlanks, parseValue_pretty F v hlength hend]
  exact if_pos hblank

/-- What is written is read, with the newline at the end of the file. -/
theorem loads_pretty (v : Json) : loads F (pretty F 0 v ++ ['\n']) = some (v.reread F) :=
  loads_pretty_append F v (endsNumber_newline []) rfl

end Json

end Python
