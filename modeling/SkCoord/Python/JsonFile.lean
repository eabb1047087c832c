import SkCoord.Python.Lines
import Mathlib.Data.List.TakeWhile

/-!
# Files with a JSON value on each line

`Json.sortKeys` is the order of `sort_keys`.  A text that `json.loads` reads to its end is no longer
read once a brace follows it (`Json.loads_append_brace`), so a record that is written behind a line
without its newline makes one line that no reader accepts, and a record behind a newline makes a
line of its own (`LinesEnd.fileLines_append`).  A part of a dictionary that was not written to its end is
not read (`Json.loads_part`).
-/

namespace Python

/-! ### A text with more behind it -/

section

variable {p : Char → Bool} {l s : List Char}

/-- What a scan takes does not depend on what follows a character that ends it. -/
theorem takeWhile_append_stop (hs : s.takeWhile p = []) : (l ++ s).takeWhile p = l.takeWhile p := by
  induction l with
  | nil => exact hs
  | cons c l ih =>
    rw [List.cons_append, List.takeWhile_cons, List.takeWhile_cons, ih]

theorem dropWhile_append_stop (hs : s.dropWhile p = s) :
    (l ++ s).dropWhile p = l.dropWhile p ++ s := by
  induction l with
  | nil => exact hs
  | cons c l ih =>
    rw [List.cons_append, List.dropWhile_cons, List.dropWhile_cons, ih]
    split
    · rfl
    · rfl

end

/-- A text that begins with a brace. -/
structure OpensBrace (s : List Char) : Prop where
  eq : ∃ rest, s = '{' :: rest

section

variable {s l r : List Char}

theorem OpensBrace.skipBlanks (h : OpensBrace s) (l : List Char) :
    Json.skipBlanks (l ++ s) = Json.skipBlanks l ++ s := by
  obtain ⟨rest, rfl⟩ := h.eq
  exact dropWhile_append_stop rfl

/-- No part of a number begins the text. -/
structure StopsNumber (s : List Char) : Prop where
  head : ∀ c ∈ s.head?, c.isDigit = false ∧ c ∉ ['-', '+', '.', 'e', 'E']

theorem OpensBrace.stopsNumber (h : OpensBrace s) : StopsNumber s := by
  obtain ⟨rest, rfl⟩ := h.eq
  refine ⟨fun c hc => ?_⟩
  cases hc
  exact ⟨rfl, by decide⟩

theorem StopsNumber.takeDigits (h : StopsNumber s) : s.takeWhile Char.isDigit = [] := by
  cases s with
  | nil => rfl
  | cons c s => exact List.takeWhile_cons_of_neg (by rw [(h.head c rfl).1]; exact Bool.false_ne_true)

theorem StopsNumber.dropDigits (h : StopsNumber s) : s.dropWhile Char.isDigit = s := by
  cases s with
  | nil => rfl
  | cons c s => exact List.dropWhile_cons_of_neg (by rw [(h.head c rfl).1]; exact Bool.false_ne_true)

theorem takeMinus_append_stop (hs : StopsNumber s) (l : List Char) :
    takeMinus (l ++ s) = ((takeMinus l).1, (takeMinus l).2 ++ s) := by
  cases l with
  | nil =>
    cases s with
    | nil => rfl
    | cons c s =>
      have hc : c ≠ '-' := fun h => (hs.head c rfl).2 (by rw [h]; decide)
      exact if_neg hc
  | cons c l =>
    rw [List.cons_append, takeMinus, takeMinus]
    split
    · rfl
    · rfl

theorem takeWhole_append_stop (hs : StopsNumber s) (l : List Char) :
    takeWhole (l ++ s) = ((takeWhole l).1, (takeWhole l).2 ++ s) := by
  cases l with
  | nil =>
    cases s with
    | nil => rfl
    | cons c s =>
      have hc : c ≠ '0' := by
        rintro rfl
        cases (hs.head '0' rfl).1
      rw [List.nil_append, takeWhole, if_neg hc, hs.takeDigits, hs.dropDigits]
      rfl
  | cons c l =>
    rw [List.cons_append, takeWhole, takeWhole]
    split
    · rfl
    · rw [← List.cons_append, takeWhile_append_stop hs.takeDigits,
        dropWhile_append_stop hs.dropDigits]

theorem takeFrac_append_stop (hs : StopsNumber s) (l : List Char) :
    takeFrac (l ++ s) = ((takeFrac l).1, (takeFrac l).2 ++ s) := by
  cases l with
  | nil =>
    cases s with
    | nil => rfl
    | cons c s =>
      have hc : c ≠ '.' := fun h => (hs.head c rfl).2 (by rw [h]; decide)
      exact if_neg fun h => hc h.1
  | cons c l =>
    rw [List.cons_append, takeFrac, takeFrac, takeWhile_append_stop hs.takeDigits,
      dropWhile_append_stop hs.dropDigits]
    split
    · rfl
    · rfl

theorem takeSign_append_stop (hs : StopsNumber s) (l : List Char) :
    takeSign (l ++ s) = ((takeSign l).1, (takeSign l).2 ++ s) := by
  cases l with
  | nil =>
    cases s with
    | nil => rfl
    | cons c s =>
      have hplus : c ≠ '+' := fun h => (hs.head c rfl).2 (by rw [h]; decide)
      have hminus : c ≠ '-' := fun h => (hs.head c rfl).2 (by rw [h]; decide)
      exact if_neg (not_or.mpr ⟨hplus, hminus⟩)
  | cons c l =>
    rw [List.cons_append, takeSign, takeSign]
    split
    · rfl
    · rfl

theorem takeExponent_append_stop (hs : StopsNumber s) (l : List Char) :
    takeExponent (l ++ s) = ((takeExponent l).1, (takeExponent l).2 ++ s) := by
  cases l with
  | nil =>
    cases s with
    | nil => rfl
    | cons c s =>
      have hlower : c ≠ 'e' := fun h => (hs.head c rfl).2 (by rw [h]; decide)
      have hupper : c ≠ 'E' := fun h => (hs.head c rfl).2 (by rw [h]; decide)
      exact if_neg fun h => not_or.mpr ⟨hlower, hupper⟩ h.1
  | cons c l =>
    rw [List.cons_append, takeExponent, takeExponent, takeSign_append_stop hs]
    dsimp only
    rw [takeWhile_append_stop hs.takeDigits, dropWhile_append_stop hs.dropDigits]
    split
    · rfl
    · rfl

/-- A number is read up to a text that stops it. -/
theorem lexNumber_append_stop (hs : StopsNumber s) (l : List Char) :
    lexNumber (l ++ s) = (lexNumber l).map fun p => (p.1, p.2 ++ s) := by
  unfold lexNumber
  rw [takeMinus_append_stop hs]
  dsimp only
  rw [takeWhole_append_stop hs]
  dsimp only
  rw [takeFrac_append_stop hs]
  dsimp only
  rw [takeExponent_append_stop hs]
  dsimp only
  split
  · rfl
  · rfl

theorem takeMinus_suffix (l : List Char) : (takeMinus l).2 <:+ l := by
  cases l with
  | nil => exact List.suffix_refl _
  | cons c l =>
    rw [takeMinus]
    split
    · exact List.suffix_cons _ _
    · exact List.suffix_refl _

theorem takeWhole_suffix (l : List Char) : (takeWhole l).2 <:+ l := by
  cases l with
  | nil => exact List.suffix_refl _
  | cons c l =>
    rw [takeWhole]
    split
    · exact List.suffix_cons _ _
    · exact List.dropWhile_suffix _

theorem takeFrac_suffix (l : List Char) : (takeFrac l).2 <:+ l := by
  cases l with
  | nil => exact List.suffix_refl _
  | cons c l =>
    rw [takeFrac]
    split
    · exact (List.dropWhile_suffix _).trans (List.suffix_cons _ _)
    · exact List.suffix_refl _

theorem takeSign_suffix (l : List Char) : (takeSign l).2 <:+ l := by
  cases l with
  | nil => exact List.suffix_refl _
  | cons c l =>
    rw [takeSign]
    split
    · exact List.suffix_cons _ _
    · exact List.suffix_refl _

theorem takeExponent_suffix (l : List Char) : (takeExponent l).2 <:+ l := by
  cases l with
  | nil => exact List.suffix_refl _
  | cons c l =>
    rw [takeExponent]
    dsimp only
    split
    · exact ((List.dropWhile_suffix _).trans (takeSign_suffix l)).trans (List.suffix_cons _ _)
    · exact List.suffix_refl _

theorem lexNumber_suffix {t : NumText} (h : lexNumber l = some (t, r)) : r <:+ l := by
  unfold lexNumber at h
  dsimp only at h
  split at h
  · cases h
  · cases h
    exact (((takeExponent_suffix _).trans (takeFrac_suffix _)).trans (takeWhole_suffix _)).trans
      (takeMinus_suffix l)

/-- A number is read whatever follows, where the rest of the text stops it. -/
theorem lexNumber_append {t : NumText} (hs : StopsNumber (r ++ s)) (h : lexNumber l = some (t, r)) :
    lexNumber (l ++ s) = some (t, r ++ s) := by
  cases r with
  | nil =>
    rw [List.nil_append] at hs ⊢
    rw [lexNumber_append_stop hs, h]
    rfl
  | cons c r =>
    obtain ⟨l₀, rfl⟩ := lexNumber_suffix h
    have hrest : StopsNumber (c :: r) := ⟨hs.head⟩
    rw [lexNumber_append_stop hrest] at h
    obtain ⟨⟨t', q⟩, hlex, h⟩ := Option.map_eq_some_iff.mp h
    have hq : q = [] := List.append_left_eq_self.mp (Prod.mk.inj h).2
    have ht : t' = t := (Prod.mk.inj h).1
    rw [List.append_assoc, lexNumber_append_stop hs, hlex, hq, ht]
    rfl

/-- A text in quotes ends at its quote. -/
theorem scanString_append : ∀ {l : List Char} {us : List ℕ} {r : List Char} (s : List Char),
    scanString l = some (us, r) → scanString (l ++ s) = some (us, r ++ s) := by
  intro l
  induction l using scanString.induct with
  | case1 =>
    intro us r s h
    cases h
  | case2 l =>
    intro us r s h
    cases h
    rfl
  | case3 a b c d l ih =>
    intro us r s h
    simp only [scanString, Option.bind_eq_bind, Option.bind_eq_some_iff] at h
    obtain ⟨va, ha, vb, hb, vc, hc, vd, hd, ⟨us', r'⟩, hrest, h⟩ := h
    cases h
    simp only [List.cons_append, scanString, ha, hb, hc, hd, ih s hrest, Option.bind_eq_bind,
      Option.bind_some]
  | case4 e l hne ih =>
    intro us r s h
    rw [scanString] at h
    · simp only [Option.bind_eq_bind, Option.bind_eq_some_iff] at h
      obtain ⟨c, hc, ⟨us', r'⟩, hrest, h⟩ := h
      cases h
      have heu : e ≠ 'u' := by
        rintro rfl
        have hnone : unescape 'u' = none := by decide
        cases hnone.symm.trans hc
      rw [List.cons_append, List.cons_append, scanString]
      · simp only [hc, ih s hrest, Option.bind_eq_bind, Option.bind_some]
      · intro a b c d l' he
        exact absurd he heu
    · exact hne
  | case5 c l hquote hslash hslash' hlt =>
    intro us r s h
    rw [scanString] at h
    · rw [if_pos hlt] at h
      cases h
    all_goals assumption
  | case6 c l hquote hslash hslash' hlt ih =>
    intro us r s h
    rw [scanString] at h
    · rw [if_neg hlt] at h
      simp only [Option.bind_eq_bind, Option.bind_eq_some_iff] at h
      obtain ⟨⟨us', r'⟩, hrest, h⟩ := h
      cases h
      -- a backslash at the end is no text
      have hne : c ≠ '\\' := by
        intro hc
        cases l with
        | nil => cases hrest
        | cons e l => exact hslash' e l hc rfl
      rw [List.cons_append, scanString, if_neg hlt]
      · simp only [ih s hrest, Option.bind_eq_bind, Option.bind_some]
      · exact hquote
      · exact fun _ _ _ _ _ hc _ => hne hc
      · exact fun _ _ hc _ => hne hc
    all_goals assumption

theorem lexString_append {t : String} (s : List Char) (h : lexString l = some (t, r)) :
    lexString (l ++ s) = some (t, r ++ s) := by
  unfold lexString at h ⊢
  obtain ⟨⟨us, r'⟩, hscan, h⟩ := Option.map_eq_some_iff.mp h
  cases h
  rw [scanString_append s hscan]
  rfl

end

namespace Json

variable {F : FloatText} {l r : List Char}

/-- A number begins with a digit, or with a minus sign and a digit. -/
theorem opens_lexNumber {t : NumText} (h : lexNumber l = some (t, r)) :
    (∃ c l', l = c :: l' ∧ c.isDigit = true) ∨ ∃ d l', l = '-' :: d :: l' ∧ d.isDigit = true := by
  have hwhole : ∀ m : List Char, (takeWhole m).1 ≠ [] → ∃ d m', m = d :: m' ∧ d.isDigit = true := by
    intro m hne
    cases m with
    | nil => exact absurd rfl hne
    | cons d m =>
      refine ⟨d, m, rfl, ?_⟩
      by_contra hd
      apply hne
      have hzero : d ≠ '0' := by
        rintro rfl
        exact hd rfl
      rw [takeWhole, if_neg hzero]
      exact List.takeWhile_cons_of_neg hd
  unfold lexNumber at h
  dsimp only at h
  split at h
  · cases h
  · rename_i hne
    obtain ⟨d, m, hm, hd⟩ := hwhole _ hne
    cases l with
    | nil => cases hm
    | cons c l =>
      by_cases hc : c = '-'
      · rw [takeMinus, if_pos hc] at hm
        exact .inr ⟨d, m, by rw [hc, ← hm], hd⟩
      · rw [takeMinus, if_neg hc] at hm
        exact .inl ⟨d, m, hm, hd⟩

/-- Reading a number reads no other value. -/
theorem parseValue_lexNumber {t : NumText} (h : lexNumber l = some (t, r)) (n : ℕ) :
    parseValue F (n + 1) l = some (ofNumber F t, r) := by
  rcases opens_lexNumber h with ⟨c, l', rfl, hc⟩ | ⟨d, l', rfl, hd⟩
  · rw [parseValue_digit F hc, h]
    rfl
  · rw [parseValue_minus F hd, h]
    rfl

/-- Blanks are skipped up to the first other character. -/
theorem skipBlanks_append_of_ne {l : List Char} (h : skipBlanks l ≠ []) (s : List Char) :
    skipBlanks (l ++ s) = skipBlanks l ++ s := by
  induction l with
  | nil => exact absurd rfl h
  | cons c l ih =>
    unfold skipBlanks at h ih ⊢
    rw [List.cons_append, List.dropWhile_cons, List.dropWhile_cons]
    rw [List.dropWhile_cons] at h
    split
    · rename_i hc
      rw [if_pos hc] at h
      exact ih h
    · rfl

theorem parseValue_nil (n : ℕ) : parseValue F n [] = none := by
  cases n with
  | zero => rfl
  | succ n => rfl

theorem parseField_nil (n : ℕ) : parseField F n [] = none := by
  cases n with
  | zero => rfl
  | succ n => rfl

theorem skipBlanks_append_of_value {n : ℕ} {p : Json × List Char}
    (h : parseValue F n (skipBlanks l) = some p) (s : List Char) :
    skipBlanks (l ++ s) = skipBlanks l ++ s := by
  refine skipBlanks_append_of_ne (fun hnil => ?_) s
  rw [hnil, parseValue_nil] at h
  cases h

theorem skipBlanks_append_of_field {n : ℕ} {p : (String × Json) × List Char}
    (h : parseField F n (skipBlanks l) = some p) (s : List Char) :
    skipBlanks (l ++ s) = skipBlanks l ++ s := by
  refine skipBlanks_append_of_ne (fun hnil => ?_) s
  rw [hnil, parseField_nil] at h
  cases h

/-- A text whose first character besides blanks is none of a number stops one. -/
theorem stopsNumber_of_skipBlanks {c : Char} (h : skipBlanks l = c :: r) (hc : c.isDigit = false)
    (hmem : c ∉ ['-', '+', '.', 'e', 'E']) (s : List Char) : StopsNumber (l ++ s) := by
  cases l with
  | nil => cases h
  | cons d l =>
    refine ⟨fun e he => ?_⟩
    cases he
    unfold skipBlanks at h
    rw [List.dropWhile_cons] at h
    split at h
    · rename_i hd
      have hblank : d = ' ' ∨ d = '\t' ∨ d = '\n' ∨ d = '\r' := by
        simpa [isBlankChar, or_assoc] using hd
      rcases hblank with rfl | rfl | rfl | rfl <;> exact ⟨by decide, by decide⟩
    · cases h
      exact ⟨hc, hmem⟩

theorem stopsNumber_of_elems {n : ℕ} {p : List Json × List Char}
    (h : parseElems F n l = some p) (s : List Char) : StopsNumber (l ++ s) := by
  cases n with
  | zero => cases h
  | succ n =>
    unfold parseElems at h
    split at h
    · rename_i l' hskip
      exact stopsNumber_of_skipBlanks hskip (by decide) (by decide) s
    · rename_i l' hskip
      exact stopsNumber_of_skipBlanks hskip (by decide) (by decide) s
    · cases h

theorem stopsNumber_of_fields {n : ℕ} {p : List (String × Json) × List Char}
    (h : parseFields F n l = some p) (s : List Char) : StopsNumber (l ++ s) := by
  cases n with
  | zero => cases h
  | succ n =>
    unfold parseFields at h
    split at h
    · rename_i l' hskip
      exact stopsNumber_of_skipBlanks hskip (by decide) (by decide) s
    · rename_i l' hskip
      exact stopsNumber_of_skipBlanks hskip (by decide) (by decide) s
    · cases h

/-- What a parser reads at the beginning of a text it reads whatever follows: a dictionary, a list
of elements or of fields ends with its bracket, and any other value before a text that stops a
number. -/
structure ReadsOn (F : FloatText) (n : ℕ) : Prop where
  value : ∀ {l r s : List Char} {v : Json} {m : ℕ},
    l.head? = some '{' ∨ StopsNumber (r ++ s) → n ≤ m →
    parseValue F n l = some (v, r) → parseValue F m (l ++ s) = some (v, r ++ s)
  elems : ∀ {l r s : List Char} {vs : List Json} {m : ℕ}, n ≤ m →
    parseElems F n l = some (vs, r) → parseElems F m (l ++ s) = some (vs, r ++ s)
  field : ∀ {l r s : List Char} {p : String × Json} {m : ℕ}, StopsNumber (r ++ s) → n ≤ m →
    parseField F n l = some (p, r) → parseField F m (l ++ s) = some (p, r ++ s)
  fields : ∀ {l r s : List Char} {ps : List (String × Json)} {m : ℕ}, n ≤ m →
    parseFields F n l = some (ps, r) → parseFields F m (l ++ s) = some (ps, r ++ s)

theorem readsOn_zero : ReadsOn F 0 := by
  refine ⟨?_, ?_, ?_, ?_⟩
  · intro l r s v m _ _ h
    rw [parseValue] at h
    cases h
  · intro l r s vs m _ h
    rw [parseElems] at h
    cases h
  · intro l r s p m _ _ h
    rw [parseField] at h
    cases h
  · intro l r s ps m _ h
    rw [parseFields] at h
    cases h

theorem readsOn_succ {n : ℕ} (ih : ReadsOn F n) : ReadsOn F (n + 1) := by
  refine ⟨?_, ?_, ?_, ?_⟩
  · intro l r s v m hs hm h
    obtain ⟨m, rfl⟩ : ∃ j, m = j + 1 := ⟨m - 1, by omega⟩
    have hle : n ≤ m := Nat.le_of_succ_le_succ hm
    unfold parseValue at h
    split at h
    · rename_i l
      obtain ⟨⟨t, r'⟩, hlex, h⟩ := Option.map_eq_some_iff.mp h
      cases h
      rw [List.cons_append, parseValue, lexString_append s hlex]
      rfl
    · rename_i l
      split at h
      · rename_i l' hskip
        cases h
        have hne : skipBlanks l ≠ [] := by rw [hskip]; exact List.cons_ne_nil _ _
        rw [List.cons_append, parseValue, skipBlanks_append_of_ne hne, hskip]
        rfl
      · rename_i hne
        simp only [Option.bind_eq_bind, Option.bind_eq_some_iff] at h
        obtain ⟨⟨v', l₁⟩, hv, ⟨vs, l₂⟩, hvs, h⟩ := h
        cases h
        have hv' := ih.value (.inr (stopsNumber_of_elems hvs s)) hle hv
        have hvs' := ih.elems (s := s) hle hvs
        rw [List.cons_append, parseValue, skipBlanks_append_of_value hv]
        split
        · rename_i l' heq
          -- the text is not empty, so its first character is no bracket
          cases hskip : skipBlanks l with
          | nil =>
            rw [hskip, parseValue_nil] at hv
            cases hv
          | cons c l₃ =>
            rw [hskip, List.cons_append] at heq
            rw [(List.cons.inj heq).1] at hskip
            exact absurd hskip (hne l₃)
        · simp only [Option.bind_eq_bind, hv', hvs', Option.bind_some]
    · rename_i l
      split at h
      · rename_i l' hskip
        cases h
        have hne : skipBlanks l ≠ [] := by rw [hskip]; exact List.cons_ne_nil _ _
        rw [List.cons_append, parseValue, skipBlanks_append_of_ne hne, hskip]
        rfl
      · rename_i hne
        simp only [Option.bind_eq_bind, Option.bind_eq_some_iff] at h
        obtain ⟨⟨p, l₁⟩, hp, ⟨ps, l₂⟩, hps, h⟩ := h
        cases h
        have hp' := ih.field (stopsNumber_of_fields hps s) hle hp
        have hps' := ih.fields (s := s) hle hps
        rw [List.cons_append, parseValue, skipBlanks_append_of_field hp]
        split
        · rename_i l' heq
          cases hskip : skipBlanks l with
          | nil =>
            rw [hskip, parseField_nil] at hp
            cases hp
          | cons c l₃ =>
            rw [hskip, List.cons_append] at heq
            rw [(List.cons.inj heq).1] at hskip
            exact absurd hskip (hne l₃)
        · simp only [Option.bind_eq_bind, hp', hps', Option.bind_some]
    · cases h; rfl
    · cases h; rfl
    · cases h; rfl
    · cases h; rfl
    · cases h; rfl
    · cases h; rfl
    · rename_i hbrace _ _ _ _ _ _
      obtain ⟨⟨t, r'⟩, hlex, h⟩ := Option.map_eq_some_iff.mp h
      cases h
      have hstop : StopsNumber (r' ++ s) := by
        refine hs.resolve_left fun hhead => ?_
        cases l with
        | nil => cases hhead
        | cons c l =>
          cases hhead
          exact hbrace l rfl
      exact parseValue_lexNumber (lexNumber_append hstop hlex) m
  · intro l r s vs m hm h
    obtain ⟨m, rfl⟩ : ∃ j, m = j + 1 := ⟨m - 1, by omega⟩
    have hle : n ≤ m := Nat.le_of_succ_le_succ hm
    unfold parseElems at h
    split at h
    · rename_i l' hskip
      cases h
      have hne : skipBlanks l ≠ [] := by rw [hskip]; exact List.cons_ne_nil _ _
      rw [parseElems, skipBlanks_append_of_ne hne, hskip]
      rfl
    · rename_i l' hskip
      simp only [Option.bind_eq_bind, Option.bind_eq_some_iff] at h
      obtain ⟨⟨v, l₁⟩, hv, ⟨vs', l₂⟩, hvs, h⟩ := h
      cases h
      have hv' := ih.value (.inr (stopsNumber_of_elems hvs s)) hle hv
      have hvs' := ih.elems (s := s) hle hvs
      have hne : skipBlanks l ≠ [] := by rw [hskip]; exact List.cons_ne_nil _ _
      rw [parseElems, skipBlanks_append_of_ne hne, hskip, List.cons_append]
      simp only [skipBlanks_append_of_value hv, Option.bind_eq_bind, hv', hvs', Option.bind_some]
    · cases h
  · intro l r s p m hs hm h
    obtain ⟨m, rfl⟩ : ∃ j, m = j + 1 := ⟨m - 1, by omega⟩
    have hle : n ≤ m := Nat.le_of_succ_le_succ hm
    unfold parseField at h
    split at h
    · rename_i l'
      simp only [Option.bind_eq_bind, Option.bind_eq_some_iff] at h
      obtain ⟨⟨k, l₁⟩, hk, h⟩ := h
      have hk' := lexString_append s hk
      split at h
      · rename_i l₂ hskip
        simp only [Option.bind_eq_some_iff] at h
        obtain ⟨⟨v, l₃⟩, hv, h⟩ := h
        cases h
        have hv' := ih.value (.inr hs) hle hv
        dsimp only at hskip
        have hne : skipBlanks l₁ ≠ [] := by rw [hskip]; exact List.cons_ne_nil _ _
        rw [List.cons_append, parseField, hk']
        simp only [Option.bind_eq_bind, Option.bind_some, skipBlanks_append_of_ne hne, hskip,
          List.cons_append, skipBlanks_append_of_value hv, hv']
      · cases h
    · cases h
  · intro l r s ps m hm h
    obtain ⟨m, rfl⟩ : ∃ j, m = j + 1 := ⟨m - 1, by omega⟩
    have hle : n ≤ m := Nat.le_of_succ_le_succ hm
    unfold parseFields at h
    split at h
    · rename_i l' hskip
      cases h
      have hne : skipBlanks l ≠ [] := by rw [hskip]; exact List.cons_ne_nil _ _
      rw [parseFields, skipBlanks_append_of_ne hne, hskip]
      rfl
    · rename_i l' hskip
      simp only [Option.bind_eq_bind, Option.bind_eq_some_iff] at h
      obtain ⟨⟨p, l₁⟩, hp, ⟨ps', l₂⟩, hps, h⟩ := h
      cases h
      have hp' := ih.field (stopsNumber_of_fields hps s) hle hp
      have hps' := ih.fields (s := s) hle hps
      have hne : skipBlanks l ≠ [] := by rw [hskip]; exact List.cons_ne_nil _ _
      rw [parseFields, skipBlanks_append_of_ne hne, hskip, List.cons_append]
      simp only [skipBlanks_append_of_field hp, Option.bind_eq_bind, hp', hps', Option.bind_some]
    · cases h

theorem readsOn (F : FloatText) : ∀ n, ReadsOn F n
  | 0 => readsOn_zero
  | n + 1 => readsOn_succ (readsOn F n)

/-- **A brace behind a value** leaves data that no value accounts for. -/
theorem loads_append_brace {v : Json} (h : loads F l = some v) (rest : List Char) :
    loads F (l ++ '{' :: rest) = none := by
  have hs : OpensBrace ('{' :: rest) := ⟨rest, rfl⟩
  unfold loads at h ⊢
  split at h
  · rename_i v' r hparse
    have hlength : l.length + 1 ≤ (l ++ '{' :: rest).length + 1 := by
      rw [List.length_append]
      omega
    split at h
    · rename_i hblank
      have hstop : StopsNumber (r ++ '{' :: rest) := by
        have hskip : skipBlanks (r ++ '{' :: rest) = '{' :: rest := by
          rw [hs.skipBlanks, hblank]
          rfl
        have hstops := stopsNumber_of_skipBlanks hskip (by decide) (by decide) []
        rwa [List.append_nil] at hstops
      rw [hs.skipBlanks, (readsOn F _).value (.inr hstop) hlength hparse]
      dsimp only
      rw [hs.skipBlanks]
      exact if_neg (List.append_ne_nil_of_right_ne_nil _ (List.cons_ne_nil _ _))
    · cases h
  · cases h

theorem skipBlanks_of_brace (h : l.head? = some '{') : skipBlanks l = l := by
  cases l with
  | nil => cases h
  | cons c l =>
    cases h
    rfl

/-- A text that is read leaves no part of itself that is read, where it opens with a brace and goes
on with more than blanks. -/
theorem loads_part {v : Json} {s : List Char} (hopens : l.head? = some '{')
    (hs : skipBlanks s ≠ []) (h : loads F (l ++ s) = some v) : loads F l = none := by
  have hopens' : (l ++ s).head? = some '{' := by rw [List.head?_append, hopens]; rfl
  by_contra hread
  obtain ⟨w, hw⟩ := Option.ne_none_iff_exists'.mp hread
  unfold loads at h hw
  rw [skipBlanks_of_brace hopens'] at h
  rw [skipBlanks_of_brace hopens] at hw
  split at hw
  · rename_i w' r hparse
    have hlength : l.length + 1 ≤ (l ++ s).length + 1 := by
      rw [List.length_append]
      omega
    rw [(readsOn F _).value (.inl hopens) hlength hparse] at h
    dsimp only at h
    split at h
    · rename_i hblank
      refine hs ?_
      unfold skipBlanks at hblank ⊢
      rw [List.dropWhile_eq_nil_iff] at hblank ⊢
      exact fun c hc => hblank c (List.mem_append_right r hc)
    · cases h
  · cases hw

/-- Blanks behind an object are skipped. -/
theorem loads_append_blanks {v : Json} {s : List Char} (hopens : l.head? = some '{')
    (hs : skipBlanks s = []) (h : loads F l = some v) : loads F (l ++ s) = some v := by
  have hopens' : (l ++ s).head? = some '{' := by rw [List.head?_append, hopens]; rfl
  unfold loads at h ⊢
  rw [skipBlanks_of_brace hopens] at h
  rw [skipBlanks_of_brace hopens']
  split at h
  · rename_i w r hparse
    have hlength : l.length + 1 ≤ (l ++ s).length + 1 := by
      rw [List.length_append]
      omega
    rw [(readsOn F _).value (.inl hopens) hlength hparse]
    dsimp only
    split at h
    · rename_i hblank
      have hall : skipBlanks (r ++ s) = [] := by
        unfold skipBlanks at hblank hs ⊢
        rw [List.dropWhile_eq_nil_iff] at hblank hs ⊢
        intro c hc
        exact (List.mem_append.mp hc).elim (hblank c) (hs c)
      rw [if_pos hall]
      exact h
    · cases h
  · cases h

end Json

/-! ### Lines of a file -/

/-- A part of a line: no line end of a file is in it. -/
def Unbroken (l : List Char) : Prop := ∀ c ∈ l, c ≠ '\n' ∧ c ≠ '\r'

theorem fileLines_cons {c : Char} (hc : c ≠ '\n' ∧ c ≠ '\r') (l : List Char) :
    fileLines (c :: l) = consLine c (fileLines l) := by
  rw [fileLines, if_neg (not_or.mpr hc)]
  exact fun _ h _ => hc.2 h

/-- A line with its newline. -/
theorem fileLines_unbroken {line : List Char} (h : Unbroken line) (rest : List Char) :
    fileLines (line ++ '\n' :: rest) = (line ++ ['\n']) :: fileLines rest := by
  induction line with
  | nil => rfl
  | cons c line ih =>
    have hline : Unbroken line := fun d hd => h d (List.mem_cons_of_mem c hd)
    rw [List.cons_append, fileLines_cons (h c List.mem_cons_self), ih hline]
    rfl

/-- What stands behind the last line end of a text, and the lines before it. -/
structure Splits (text : List Char) (lines : List (List Char)) (tail : List Char) : Prop where
  unbroken : Unbroken tail
  eq : fileLines text = lines ++ if tail = [] then [] else [tail]
  append : ∀ (c : Char) (rest : List Char), c ≠ '\n' →
    fileLines (text ++ c :: rest) = lines ++ fileLines (tail ++ c :: rest)

theorem Splits.newline {text : List Char} {lines : List (List Char)} {tail : List Char} {l : List Char}
    (h : Splits text lines tail) (hl : fileLines l = ['\n'] :: fileLines text)
    (happend : ∀ (c : Char) (rest : List Char), c ≠ '\n' →
      fileLines (l ++ c :: rest) = ['\n'] :: fileLines (text ++ c :: rest)) :
    Splits l (['\n'] :: lines) tail := by
  refine ⟨h.unbroken, ?_, fun c rest hc => ?_⟩
  · rw [hl, h.eq, List.cons_append]
  · rw [happend c rest hc, h.append c rest hc, List.cons_append]

theorem exists_splits (text : List Char) : ∃ lines tail, Splits text lines tail := by
  induction text using fileLines.induct with
  | case1 => exact ⟨[], [], ⟨nofun, rfl, fun c rest _ => rfl⟩⟩
  | case2 l ih =>
    obtain ⟨lines, tail, h⟩ := ih
    exact ⟨_, tail, h.newline rfl fun c rest _ => rfl⟩
  | case3 c l hcr hbreak ih =>
    obtain ⟨lines, tail, h⟩ := ih
    refine ⟨_, tail, h.newline ?_ fun d rest hd => ?_⟩
    · rw [fileLines, if_pos hbreak]
      exact hcr
    · rw [List.cons_append, fileLines, if_pos hbreak]
      -- the text behind a carriage return begins with no newline
      intro l' hc hl'
      cases l with
      | nil => exact hd (List.cons.inj hl').1
      | cons e l => exact hcr l hc (by rw [(List.cons.inj hl').1])
  | case4 c l hcr hbreak ih =>
    obtain ⟨lines, tail, h⟩ := ih
    have hc : c ≠ '\n' ∧ c ≠ '\r' := not_or.mp hbreak
    cases lines with
    | nil =>
      refine ⟨[], c :: tail, ⟨?_, ?_, fun d rest hd => ?_⟩⟩
      · exact fun d hd => (List.mem_cons.mp hd).elim (fun heq => heq ▸ hc) (h.unbroken d)
      · rw [fileLines_cons hc, h.eq, if_neg (List.cons_ne_nil c tail)]
        split
        · rename_i htail
          rw [htail]
          rfl
        · rfl
      · rw [List.cons_append, fileLines_cons hc, h.append d rest hd, List.nil_append, List.nil_append,
          List.cons_append, fileLines_cons hc]
    | cons line lines =>
      refine ⟨(c :: line) :: lines, tail, ⟨h.unbroken, ?_, fun d rest hd => ?_⟩⟩
      · rw [fileLines_cons hc, h.eq]
        rfl
      · rw [List.cons_append, fileLines_cons hc, h.append d rest hd]
        rfl

/-- Every line of a text has its line end. -/
def LinesEnd (text : List Char) : Prop := ∀ line ∈ fileLines text, line.getLast? = some '\n'

/-- A line behind lines that all have their end is one more. -/
theorem LinesEnd.fileLines_append {text : List Char} (h : LinesEnd text) {line : List Char}
    (hline : Unbroken line) (hne : line ≠ []) :
    fileLines (text ++ (line ++ ['\n'])) = fileLines text ++ [line ++ ['\n']] := by
  obtain ⟨lines, tail, hsplit⟩ := exists_splits text
  have htail : tail = [] := by
    by_contra htail
    -- what stands behind the last line end would be a line without its end
    have hmem : tail ∈ fileLines text := by
      rw [hsplit.eq, if_neg htail]
      exact List.mem_append_right _ List.mem_cons_self
    exact (hsplit.unbroken '\n' (List.mem_of_getLast? (h tail hmem))).1 rfl
  obtain ⟨c, rest, rfl⟩ := List.exists_cons_of_ne_nil hne
  have happend := hsplit.append c (rest ++ ['\n']) (hline c List.mem_cons_self).1
  rw [hsplit.eq, if_pos htail, List.append_nil, List.cons_append, happend, htail, List.nil_append,
    ← List.cons_append, fileLines_unbroken hline []]
  rfl

theorem LinesEnd.append {text : List Char} (h : LinesEnd text) {line : List Char}
    (hline : Unbroken line) (hne : line ≠ []) : LinesEnd (text ++ (line ++ ['\n'])) := by
  intro l hl
  rw [h.fileLines_append hline hne] at hl
  rcases List.mem_append.mp hl with hl | hl
  · exact h l hl
  · rw [List.mem_singleton.mp hl, List.getLast?_concat]

theorem fileLines_ne_nil {l : List Char} (h : l ≠ []) : fileLines l ≠ [] := by
  cases l using fileLines.fun_cases with
  | case1 => exact absurd rfl h
  | case2 l => exact List.cons_ne_nil _ _
  | case3 c l hcr hbreak =>
    rw [fileLines, if_pos hbreak]
    · exact List.cons_ne_nil _ _
    · exact hcr
  | case4 c l hcr hbreak =>
    rw [fileLines_cons (not_or.mp hbreak)]
    cases fileLines l with
    | nil => exact List.cons_ne_nil _ _
    | cons line lines => exact List.cons_ne_nil _ _

/-- The lines up to a newline stay as they are. -/
theorem fileLines_append (post : List Char) : ∀ (pre : List Char),
    fileLines (pre ++ '\n' :: post) = fileLines (pre ++ ['\n']) ++ fileLines post := by
  intro pre
  induction pre using fileLines.induct with
  | case1 => rfl
  | case2 l ih =>
    rw [List.cons_append, List.cons_append, List.cons_append, List.cons_append, fileLines, fileLines,
      ih]
    rfl
  | case3 c l hcr hbreak ih =>
    by_cases hl : c = '\r' ∧ l = []
    · rw [hl.1, hl.2]
      rfl
    · have hnext : ∀ m l', c = '\r' → l ++ '\n' :: m = '\n' :: l' → False := by
        intro m l' hc heq
        cases l with
        | nil => exact hl ⟨hc, rfl⟩
        | cons e l => exact hcr l hc (by rw [(List.cons.inj heq).1])
      rw [List.cons_append, List.cons_append, fileLines, fileLines, if_pos hbreak, if_pos hbreak, ih]
      · rfl
      · exact hnext []
      · exact hnext post
  | case4 c l hcr hbreak ih =>
    have hc : c ≠ '\n' ∧ c ≠ '\r' := not_or.mp hbreak
    rw [List.cons_append, List.cons_append, fileLines_cons hc, fileLines_cons hc, ih]
    have hne : fileLines (l ++ ['\n']) ≠ [] :=
      fileLines_ne_nil (List.append_ne_nil_of_right_ne_nil _ (List.cons_ne_nil _ _))
    cases hlines : fileLines (l ++ ['\n']) with
    | nil => exact absurd hlines hne
    | cons line lines => rfl

/-! ### Records -/

namespace Json

mutual

/-- The keys of every dictionary in order, as `sort_keys` writes them. -/
def sortKeys : Json → Json
  | arr l => arr (sortElems l)
  | obj d => obj ((sortFields d).insertionSort fun p q => p.1 ≤ q.1)
  | v => v

/-- The elements of a list. -/
def sortElems : List Json → List Json
  | [] => []
  | v :: l => sortKeys v :: sortElems l

/-- The values of a dictionary. -/
def sortFields : List (String × Json) → List (String × Json)
  | [] => []
  | (k, v) :: d => (k, sortKeys v) :: sortFields d

end

/-- `json.dumps(value, sort_keys=True, separators=(",", ":"))`. -/
def canonical (F : FloatText) (v : Json) : List Char := v.sortKeys.dumps F .compact

theorem keys_sortFields (d : List (String × Json)) :
    Assoc.keys (sortFields d) = Assoc.keys d := by
  induction d with
  | nil => rfl
  | cons p d ih =>
    show p.1 :: Assoc.keys (sortFields d) = p.1 :: Assoc.keys d
    rw [ih]

mutual

theorem WellFormed.sortKeys {F : FloatText} : ∀ {v : Json}, WellFormed F v →
    WellFormed F v.sortKeys
  | null, h => h
  | bool _, h => h
  | int _, h => h
  | float _, h => h
  | str _, h => h
  | arr _, h => ElemsWellFormed.sortElems h
  | obj d, h => by
    have hperm := List.perm_insertionSort (fun p q : String × Json => p.1 ≤ q.1) (sortFields d)
    refine ⟨?_, fieldsWellFormed_iff.mpr fun p hp => ?_⟩
    · have hkeys := hperm.map Prod.fst
      rw [show (sortFields d).map Prod.fst = Assoc.keys d from keys_sortFields d] at hkeys
      exact hkeys.nodup_iff.mpr h.1
    · exact fieldsWellFormed_iff.mp (FieldsWellFormed.sortFields h.2) p (hperm.mem_iff.mp hp)

theorem ElemsWellFormed.sortElems {F : FloatText} : ∀ {l : List Json}, ElemsWellFormed F l →
    ElemsWellFormed F (sortElems l)
  | [], h => h
  | _ :: _, h => ⟨WellFormed.sortKeys h.1, ElemsWellFormed.sortElems h.2⟩

theorem FieldsWellFormed.sortFields {F : FloatText} : ∀ {d : List (String × Json)},
    FieldsWellFormed F d → FieldsWellFormed F (sortFields d)
  | [], h => h
  | (_, _) :: _, h => ⟨WellFormed.sortKeys h.1, FieldsWellFormed.sortFields h.2⟩

end

/-- The text of a value with its newline is read back. -/
theorem loads_line_reread (F : FloatText) (y : JsonLayout) (v : Json) :
    loads F (v.dumps F y ++ ['\n']) = some (v.reread F) := by
  have hopens := (opensValue_dumps F y v).append ['\n']
  have hend : EndsNumber ['\n'] := by
    intro c hc
    cases hc
    decide
  have hle : (v.dumps F y).length ≤ (v.dumps F y ++ ['\n']).length + 1 := by
    rw [List.length_append]
    omega
  rw [loads, hopens.skipBlanks, parseValue_reread F y v hle hend]
  exact if_pos rfl

theorem loads_line {F : FloatText} {y : JsonLayout} {v : Json} (hv : v.WellFormed F) :
    loads F (v.dumps F y ++ ['\n']) = some v := by
  rw [loads_line_reread, reread_of_wellFormed hv]

/-- What is read of a dictionary that is written with its keys in order. -/
def readBack (F : FloatText) (d : Dict) : Dict :=
  ofPairs (rereadFields F ((sortFields d).insertionSort fun p q => p.1 ≤ q.1))

theorem loads_canonical_line (F : FloatText) (d : Dict) :
    loads F ((obj d).canonical F ++ ['\n']) = some (.obj (readBack F d)) :=
  loads_line_reread F .compact (obj d).sortKeys

theorem sortFields_eq_map (d : List (String × Json)) :
    sortFields d = d.map fun p => (p.1, sortKeys p.2) := by
  induction d with
  | nil => rfl
  | cons p d ih =>
    obtain ⟨k, v⟩ := p
    rw [sortFields, ih, List.map_cons]

/-- **A field that is read back** is the field that was written, as it is read. -/
theorem get?_readBack (F : FloatText) {d : Dict} (hd : (Assoc.keys d).Nodup) (k : String) :
    Assoc.get? (readBack F d) k = (Assoc.get? d k).map fun v => v.sortKeys.reread F := by
  have hperm := List.perm_insertionSort (fun p q : String × Json => p.1 ≤ q.1) (sortFields d)
  have hkeys := hperm.map Prod.fst
  rw [show (sortFields d).map Prod.fst = Assoc.keys d from keys_sortFields d] at hkeys
  have hsorted : (Assoc.keys ((sortFields d).insertionSort fun p q => p.1 ≤ q.1)).Nodup :=
    hkeys.nodup_iff.mpr hd
  have hreread : (Assoc.keys (rereadFields F
      ((sortFields d).insertionSort fun p q => p.1 ≤ q.1))).Nodup := by
    rwa [rereadFields_eq_map, Assoc.keys, List.map_map]
  have hsame : Assoc.get? ((sortFields d).insertionSort fun p q => p.1 ≤ q.1) k =
      Assoc.get? (sortFields d) k := by
    cases hget : Assoc.get? (sortFields d) k with
    | none =>
      rw [Assoc.get?_eq_none_iff] at hget ⊢
      exact fun hmem => hget (keys_sortFields d ▸ hkeys.mem_iff.mp hmem)
    | some v => exact Assoc.get?_of_mem hsorted (hperm.mem_iff.mpr (Assoc.mem_of_get? hget))
  rw [readBack, ofPairs_of_nodup hreread, rereadFields_eq_map, Assoc.get?_map, hsame,
    sortFields_eq_map, Assoc.get?_map, Option.map_map]
  rfl

theorem unbroken_dumps (F : FloatText) (y : JsonLayout) (v : Json) : Unbroken (v.dumps F y) := by
  intro c hc
  obtain ⟨h1, h2⟩ := printable_dumps F y v c hc
  refine ⟨?_, ?_⟩
  · rintro rfl
    exact absurd h1 (by decide)
  · rintro rfl
    exact absurd h1 (by decide)

end Json

/-- **A record behind a text**: its line is the record, or no reader accepts it. -/
theorem exists_record_line {F : FloatText} {y : JsonLayout} {d : Dict}
    (hd : (Json.obj d).WellFormed F) {text : List Char}
    (hclean : ∀ line ∈ fileLines text, Json.loads F line ≠ none) :
    ∃ line ∈ fileLines (text ++ (Json.obj d).dumps F y ++ ['\n']),
      ∀ v, Json.loads F line = some v → v = .obj d := by
  obtain ⟨⟨rest, hrest⟩, -⟩ := Json.dumps_obj_ends F y d
  obtain ⟨lines, tail, hsplit⟩ := exists_splits text
  have hunbroken := Json.unbroken_dumps F y (.obj d)
  have hline : Unbroken (tail ++ (Json.obj d).dumps F y) := by
    intro c hc
    rcases List.mem_append.mp hc with hc | hc
    · exact hsplit.unbroken c hc
    · exact hunbroken c hc
  have hlines : fileLines (text ++ (Json.obj d).dumps F y ++ ['\n']) =
      lines ++ [tail ++ (Json.obj d).dumps F y ++ ['\n']] := by
    have hbrace : ('{' : Char) ≠ '\n' := by decide
    have happend := hsplit.append '{' (rest ++ ['\n']) hbrace
    rw [← List.cons_append, ← hrest, ← List.append_assoc, ← List.append_assoc,
      fileLines_unbroken hline []] at happend
    exact happend
  refine ⟨tail ++ (Json.obj d).dumps F y ++ ['\n'], ?_, fun v hv => ?_⟩
  · rw [hlines]
    exact List.mem_append_right _ List.mem_cons_self
  · by_cases htail : tail = []
    · rw [htail, List.nil_append, Json.loads_line hd] at hv
      exact (Option.some.inj hv).symm
    · -- the tail is a value, so nothing may follow it
      have hmem : tail ∈ fileLines text := by
        rw [hsplit.eq, if_neg htail]
        exact List.mem_append_right _ List.mem_cons_self
      obtain ⟨u, hu⟩ := Option.ne_none_iff_exists'.mp (hclean tail hmem)
      rw [hrest, List.append_assoc, List.cons_append, Json.loads_append_brace hu] at hv
      cases hv

end Python
