import SkCoord.Python.TornLine

/-!
# Values between spaces

`loads_between_iff`: a value between spaces is read exactly when the spaces are blanks of JSON, so a
value that is read from a line is read from the stripped line (`loads_stripChars`).  The proof is that
of `loads_torn`, with spaces in place of the record: no token goes on in them, so what is read in
front of them is read without them.
-/

namespace Python

/-- A text that `str.strip()` removes. -/
def Spaces (w : List Char) : Prop := ∀ c ∈ w, isSpace c = true

section

variable {w p l m r : List Char} {c : Char}

theorem toNat_of_isSpace (h : isSpace c = true) : c.toNat ≤ 32 ∨ 133 ≤ c.toNat := by
  simp only [isSpace, Bool.or_eq_true, Bool.and_eq_true, decide_eq_true_eq, beq_iff_eq] at h
  omega

theorem isDigit_of_isSpace (h : isSpace c = true) : c.isDigit = false := by
  by_contra hd
  rw [Bool.not_eq_false, Char.isDigit, Bool.and_eq_true, decide_eq_true_eq, decide_eq_true_eq] at hd
  have hlow : 48 ≤ c.toNat := UInt32.le_iff_toNat_le.mp hd.1
  have hhigh : c.toNat ≤ 57 := UInt32.le_iff_toNat_le.mp hd.2
  have := toNat_of_isSpace h
  omega

theorem hexVal_of_isSpace (h : isSpace c = true) : hexVal c = none := by
  have hrange := toNat_of_isSpace h
  have hletter : ∀ a b : Char, 33 ≤ a.toNat → b.toNat ≤ 132 → ¬(a ≤ c ∧ c ≤ b) := by
    intro a b ha hb hc
    have h1 : a.toNat ≤ c.toNat := UInt32.le_iff_toNat_le.mp hc.1
    have h2 : c.toNat ≤ b.toNat := UInt32.le_iff_toNat_le.mp hc.2
    omega
  rw [hexVal, if_neg (by rw [isDigit_of_isSpace h]; exact Bool.false_ne_true),
    if_neg (hletter 'a' 'f' (by decide) (by decide)),
    if_neg (hletter 'A' 'F' (by decide) (by decide))]

/-- A character that is no space is none of the spaces. -/
theorem ne_of_isSpace {d : Char} (h : isSpace c = true) (hd : isSpace d = false) : c ≠ d := by
  rintro rfl
  rw [hd] at h
  cases h

theorem unescape_of_isSpace (h : isSpace c = true) : unescape c = none := by
  have hfind : shortEscapes.find? (fun p => p.2 == c) = none := by
    rw [List.find?_eq_none]
    intro q hq heq
    have hspace : ∀ q ∈ shortEscapes, isSpace q.2 = false := by decide
    exact ne_of_isSpace h (hspace q hq) (beq_iff_eq.mp heq).symm
  rw [unescape, if_neg (ne_of_isSpace h (by decide)), hfind]
  rfl

theorem Spaces.tail (h : Spaces (c :: w)) : Spaces w := fun d hd => h d (List.mem_cons_of_mem _ hd)

/-- No character of a list is a blank, when a look at each says so. -/
theorem not_isSpace_of_all {l : List Char} (h : (l.all fun c => !isSpace c) = true) :
    ∀ c ∈ l, isSpace c = false := by simpa using h

theorem Spaces.stopsNumber (h : Spaces w) : StopsNumber w := by
  refine ⟨fun c hc => ?_⟩
  have hspace := h c (List.mem_of_mem_head? hc)
  have hsigns : ∀ d ∈ ['-', '+', '.', 'e', 'E'], isSpace d = false :=
    not_isSpace_of_all (by decide)
  exact ⟨isDigit_of_isSpace hspace, fun hmem => ne_of_isSpace hspace (hsigns c hmem) rfl⟩

/-- A word without spaces ends before them. -/
theorem Spaces.exists_word (h : Spaces w) (word : List Char)
    (hword : ∀ c ∈ word, isSpace c = false) (heq : p ++ w = word ++ l) :
    ∃ q, p = word ++ q ∧ l = q ++ w := by
  refine Python.exists_word (fun c hc hmem => ?_) heq
  exact ne_of_isSpace (h c (List.mem_of_mem_head? hc)) (hword c hmem) rfl

theorem Spaces.exists_cons (h : Spaces w) (hc : isSpace c = false) (heq : p ++ w = c :: l) :
    ∃ q, p = c :: q ∧ l = q ++ w :=
  h.exists_word [c] (by simpa using hc) heq

/-! ### Tokens -/

theorem Spaces.scanString (h : Spaces w) : scanString w = none := by
  induction w with
  | nil => rfl
  | cons c w ih =>
    have hc := h c List.mem_cons_self
    have hslash : c ≠ '\\' := ne_of_isSpace hc (by decide)
    rw [Python.scanString]
    · split
      · rfl
      · simp only [ih h.tail, Option.bind_eq_bind, Option.bind_none]
    · exact ne_of_isSpace hc (by decide)
    · exact fun _ _ _ _ _ heq _ => hslash heq
    · exact fun _ _ heq _ => hslash heq

/-- Behind a backslash and spaces no text in quotes goes on. -/
theorem Spaces.scanString_escape (h : Spaces w) : Python.scanString ('\\' :: w) = none := by
  cases w with
  | nil => rfl
  | cons c w =>
    have hc := h c List.mem_cons_self
    rw [Python.scanString]
    · simp only [unescape_of_isSpace hc, Option.bind_eq_bind, Option.bind_none]
    · exact fun _ _ _ _ _ heq => absurd heq (ne_of_isSpace hc (by decide))

/-- The four digits of an escape do not reach into the spaces. -/
theorem Spaces.exists_digits (h : Spaces w) {a b c d : Char} {l' : List Char}
    (heq : l ++ w = a :: b :: c :: d :: l') (ha : (hexVal a).isSome) (hb : (hexVal b).isSome)
    (hc : (hexVal c).isSome) (hd : (hexVal d).isSome) : ∃ q, l = a :: b :: c :: d :: q := by
  have hspace : ∀ {e : Char}, (hexVal e).isSome → isSpace e = false := by
    intro e he
    by_contra hspace
    rw [hexVal_of_isSpace (Bool.not_eq_false _ ▸ hspace)] at he
    cases he
  obtain ⟨l₁, rfl, h₁⟩ := h.exists_cons (hspace ha) heq
  obtain ⟨l₂, rfl, h₂⟩ := h.exists_cons (hspace hb) h₁.symm
  obtain ⟨l₃, rfl, h₃⟩ := h.exists_cons (hspace hc) h₂.symm
  obtain ⟨l₄, rfl, -⟩ := h.exists_cons (hspace hd) h₃.symm
  exact ⟨l₄, rfl⟩

/-- An escape of a code unit is whole or no escape. -/
theorem Spaces.scanString_unicode (h : Spaces w)
    (hl : ∀ a b c d l', l = a :: b :: c :: d :: l' → False) :
    Python.scanString ('\\' :: 'u' :: (l ++ w)) = none := by
  by_cases hlong : ∃ a b c d l', l ++ w = a :: b :: c :: d :: l'
  · obtain ⟨a, b, c, d, l', heq⟩ := hlong
    rw [heq, Python.scanString, Option.eq_none_iff_forall_ne_some]
    intro x hx
    simp only [Option.bind_eq_bind, Option.bind_eq_some_iff] at hx
    obtain ⟨va, ha, vb, hb, vc, hc, vd, hd, -⟩ := hx
    obtain ⟨q, hq⟩ := h.exists_digits heq (by rw [ha]; rfl) (by rw [hb]; rfl) (by rw [hc]; rfl)
      (by rw [hd]; rfl)
    exact hl a b c d q hq
  · have hu : Python.unescape 'u' = none := by decide
    rw [Python.scanString]
    · simp only [hu, Option.bind_eq_bind, Option.bind_none]
    · exact fun a b c d l' _ heq => hlong ⟨a, b, c, d, l', heq⟩

/-- A text in quotes ends before spaces: the induction is on the characters as the scanner takes
them, and a text that is still open where the spaces begin is open behind them as well. -/
theorem Spaces.exists_scanString (hw : Spaces w) : ∀ {p : List Char} {us : List ℕ} {r : List Char},
    Python.scanString (p ++ w) = some (us, r) →
      ∃ q, Python.scanString p = some (us, q) ∧ r = q ++ w ∧ q.length < p.length := by
  intro p
  induction p using scanString.induct with
  | case1 =>
    intro us r h
    cases hw.scanString.symm.trans h
  | case2 l =>
    intro us r h
    cases h
    exact ⟨l, rfl, rfl, Nat.lt_succ_self _⟩
  | case3 a b c d l ih =>
    intro us r h
    -- Four digits behind a backslash are part of the text.
    simp only [List.cons_append, Python.scanString, Option.bind_eq_bind,
      Option.bind_eq_some_iff] at h
    obtain ⟨va, ha, vb, hb, vc, hc, vd, hd, ⟨us', r'⟩, hrest, h⟩ := h
    cases h
    obtain ⟨q, hq, rfl, hlength⟩ := ih hrest
    refine ⟨q, ?_, rfl, ?_⟩
    · simp only [Python.scanString, ha, hb, hc, hd, hq, Option.bind_eq_bind, Option.bind_some]
    · simp only [List.length_cons]
      omega
  | case4 e l hne ih =>
    intro us r h
    rw [List.cons_append, List.cons_append] at h
    -- Fewer than four digits before the spaces: a space is no digit, and the text raises.
    by_cases he : e = 'u'
    · subst he
      rw [hw.scanString_unicode fun a b c d l' hl => hne a b c d l' rfl hl] at h
      cases h
    · rw [Python.scanString] at h
      · simp only [Option.bind_eq_bind, Option.bind_eq_some_iff] at h
        obtain ⟨u, hu, ⟨us', r'⟩, hrest, h⟩ := h
        cases h
        obtain ⟨q, hq, rfl, hlength⟩ := ih hrest
        refine ⟨q, ?_, rfl, ?_⟩
        · rw [Python.scanString]
          · simp only [hu, hq, Option.bind_eq_bind, Option.bind_some]
          · exact hne
        · simp only [List.length_cons]
          omega
      · exact fun _ _ _ _ _ heq => absurd heq he
  | case5 c l hquote hunicode hslash hlt =>
    intro us r h
    have hc : c ≠ '\\' := by
      rintro rfl
      exact absurd hlt (by decide)
    rw [List.cons_append, Python.scanString, if_pos hlt] at h
    · cases h
    · exact hquote
    · exact fun _ _ _ _ _ heq _ => hc heq
    · exact fun _ _ heq _ => hc heq
  | case6 c l hquote hunicode hslash hlt ih =>
    intro us r h
    -- A backslash at the very end would escape a space, which no escape does.
    by_cases hc : c = '\\'
    · cases l with
      | nil =>
        subst hc
        cases hw.scanString_escape.symm.trans h
      | cons e l => exact absurd rfl (hslash e l hc)
    · rw [List.cons_append, Python.scanString, if_neg hlt] at h
      · simp only [Option.bind_eq_bind, Option.bind_eq_some_iff] at h
        obtain ⟨⟨us', r'⟩, hrest, h⟩ := h
        cases h
        obtain ⟨q, hq, rfl, hlength⟩ := ih hrest
        refine ⟨q, ?_, rfl, ?_⟩
        · rw [Python.scanString, if_neg hlt]
          · simp only [hq, Option.bind_eq_bind, Option.bind_some]
          · exact hquote
          · exact hunicode
          · exact hslash
        · rw [List.length_cons]
          omega
      · exact hquote
      · exact fun _ _ _ _ _ heq _ => hc heq
      · exact fun _ _ heq _ => hc heq

theorem Spaces.exists_lexString (hw : Spaces w) {t : String}
    (h : lexString (p ++ w) = some (t, r)) :
    ∃ q, lexString p = some (t, q) ∧ r = q ++ w ∧ q.length < p.length := by
  unfold lexString at h ⊢
  obtain ⟨⟨us, r'⟩, hscan, h⟩ := Option.map_eq_some_iff.mp h
  cases h
  obtain ⟨q, hq, rfl, hlength⟩ := hw.exists_scanString hscan
  exact ⟨q, by rw [hq]; rfl, rfl, hlength⟩

end

namespace Json

variable {F : FloatText} {w p l r : List Char}

/-! ### Values -/

theorem skipBlanks_append_eq_cons (hw : Spaces w) {c : Char} (hc : isSpace c = false)
    (h : skipBlanks (l ++ w) = c :: r) : ∃ q, skipBlanks l = c :: q ∧ r = q ++ w := by
  induction l with
  | nil =>
    have hmem : c ∈ w := (List.dropWhile_suffix _).subset (h ▸ List.mem_cons_self)
    exact absurd rfl (ne_of_isSpace (hw c hmem) hc)
  | cons d l ih =>
    unfold skipBlanks at h ih ⊢
    rw [List.cons_append, List.dropWhile_cons] at h
    rw [List.dropWhile_cons]
    split at h
    · rename_i hd
      rw [if_pos hd]
      exact ih h
    · rename_i hd
      rw [if_neg hd]
      cases h
      exact ⟨l, rfl, rfl⟩

/-- No value begins with a space. -/
theorem opens_parseValue {n : ℕ} {v : Json} (h : parseValue F n l = some (v, r)) :
    ∃ c m, l = c :: m ∧ isSpace c = false := by
  cases n with
  | zero => cases h
  | succ n =>
    unfold parseValue at h
    split at h
    case h_10 =>
      obtain ⟨⟨t, r'⟩, hlex, h⟩ := Option.map_eq_some_iff.mp h
      have hdigit : ∀ c : Char, c.isDigit = true → isSpace c = false := by
        intro c hc
        by_contra hspace
        rw [isDigit_of_isSpace (Bool.not_eq_false _ ▸ hspace)] at hc
        cases hc
      rcases opens_lexNumber hlex with ⟨c, m, rfl, hc⟩ | ⟨d, m, rfl, hd⟩
      · exact ⟨c, m, rfl, hdigit c hc⟩
      · exact ⟨'-', _, rfl, by decide⟩
    all_goals exact ⟨_, _, rfl, by decide⟩

theorem opens_parseField {n : ℕ} {p : String × Json} (h : parseField F n l = some (p, r)) :
    ∃ c m, l = c :: m ∧ isSpace c = false := by
  cases n with
  | zero => cases h
  | succ n =>
    unfold parseField at h
    split at h
    · exact ⟨_, _, rfl, by decide⟩
    · cases h

/-- Blanks in front of a token are skipped in front of the spaces. -/
theorem skipBlanks_append_of_opens (hw : Spaces w)
    (h : ∃ c m, skipBlanks (l ++ w) = c :: m ∧ isSpace c = false) :
    skipBlanks (l ++ w) = skipBlanks l ++ w := by
  obtain ⟨c, m, hm, hc⟩ := h
  obtain ⟨q, hq, rfl⟩ := skipBlanks_append_eq_cons hw hc hm
  rw [hm, hq, List.cons_append]

/-- The text in front of the spaces is read alone: the rest ends with the spaces. -/
def ReadsAlone {α : Type} (w : List Char) (parse : ℕ → List Char → Option (α × List Char))
    (l : List Char) (x : α) (r : List Char) : Prop :=
  ∃ q, r = q ++ w ∧ q.length < l.length ∧ ∀ m, l.length ≤ m → parse m l = some (x, q)

/-- What the four parts of the parser read in front of spaces. -/
structure InFront (F : FloatText) (w : List Char) (n : ℕ) : Prop where
  value : ∀ {l v r}, parseValue F n (l ++ w) = some (v, r) → ReadsAlone w (parseValue F) l v r
  elems : ∀ {l vs r}, parseElems F n (l ++ w) = some (vs, r) → ReadsAlone w (parseElems F) l vs r
  field : ∀ {l p r}, parseField F n (l ++ w) = some (p, r) → ReadsAlone w (parseField F) l p r
  fields : ∀ {l ps r}, parseFields F n (l ++ w) = some (ps, r) →
    ReadsAlone w (parseFields F) l ps r

/-- A parser that needs one call more than there are characters behind the first. -/
theorem readsAlone_cons {α : Type} {parse : ℕ → List Char → Option (α × List Char)} {c : Char}
    {l q : List Char} {x : α} (hlt : q.length ≤ l.length)
    (h : ∀ m, l.length ≤ m → parse (m + 1) (c :: l) = some (x, q)) :
    ReadsAlone w parse (c :: l) x (q ++ w) := by
  refine ⟨q, rfl, ?_, fun m hm => ?_⟩
  · rw [List.length_cons]
    omega
  · rw [List.length_cons] at hm
    obtain ⟨m, rfl⟩ : ∃ j, m = j + 1 := ⟨m - 1, by omega⟩
    exact h m (by omega)

/-- A word is read alone. -/
theorem readsAlone_word (hw : Spaces w) (word : List Char) {l : List Char} {v : Json}
    (hne : word ≠ []) (hword : ∀ c ∈ word, isSpace c = false) (heq : p ++ w = word ++ l)
    (hparse : ∀ m q, parseValue F (m + 1) (word ++ q) = some (v, q)) :
    ReadsAlone w (parseValue F) p v l := by
  obtain ⟨q, rfl, rfl⟩ := hw.exists_word word hword heq
  have hpos := List.length_pos_iff.mpr hne
  refine ⟨q, rfl, ?_, fun m hm => ?_⟩
  · rw [List.length_append]
    omega
  · rw [List.length_append] at hm
    obtain ⟨m, rfl⟩ : ∃ j, m = j + 1 := ⟨m - 1, by omega⟩
    exact hparse m q

theorem InFront.skip_value (hw : Spaces w) {n : ℕ} (ih : InFront F w n) {v : Json}
    (h : parseValue F n (skipBlanks (l ++ w)) = some (v, r)) :
    skipBlanks (l ++ w) = skipBlanks l ++ w ∧ ReadsAlone w (parseValue F) (skipBlanks l) v r := by
  have hskip := skipBlanks_append_of_opens hw (opens_parseValue h)
  rw [hskip] at h
  exact ⟨hskip, ih.value h⟩

theorem InFront.skip_field (hw : Spaces w) {n : ℕ} (ih : InFront F w n) {p : String × Json}
    (h : parseField F n (skipBlanks (l ++ w)) = some (p, r)) :
    skipBlanks (l ++ w) = skipBlanks l ++ w ∧ ReadsAlone w (parseField F) (skipBlanks l) p r := by
  have hskip := skipBlanks_append_of_opens hw (opens_parseField h)
  rw [hskip] at h
  exact ⟨hskip, ih.field h⟩

/-- A value that is read in front of spaces is read alone as well, one branch of the reader after
another: a text, an array, an object, a word or a number ends before the first space. -/
theorem inFront_value (hw : Spaces w) {n : ℕ} (ih : InFront F w n) {l : List Char} {v : Json}
    {r : List Char} (h : parseValue F (n + 1) (l ++ w) = some (v, r)) :
    ReadsAlone w (parseValue F) l v r := by
  unfold parseValue at h
  split at h
  · rename_i m heq
    obtain ⟨q, rfl, rfl⟩ := hw.exists_cons (by decide) heq
    -- A text in quotes.
    obtain ⟨⟨t, r'⟩, hlex, h⟩ := Option.map_eq_some_iff.mp h
    cases h
    obtain ⟨q', hq', rfl, hlt⟩ := hw.exists_lexString hlex
    refine readsAlone_cons hlt.le fun m _ => ?_
    rw [parseValue, hq']
    rfl
  · rename_i m heq
    obtain ⟨q, rfl, rfl⟩ := hw.exists_cons (by decide) heq
    -- An array: it is empty, or its first element and the rest are read by induction.
    have hlength := length_skipBlanks q
    split at h
    · rename_i m' hclose
      cases h
      obtain ⟨q', hq', rfl⟩ := skipBlanks_append_eq_cons hw (by decide) hclose
      rw [hq', List.length_cons] at hlength
      refine readsAlone_cons (by omega) fun m _ => ?_
      rw [parseValue, hq']
      rfl
    · rename_i hne
      obtain ⟨⟨u, l₁⟩, hu, h⟩ := Option.bind_eq_some_iff.mp h
      obtain ⟨⟨us, l₂⟩, hus, h⟩ := Option.bind_eq_some_iff.mp h
      cases h
      obtain ⟨hskip, q₁, rfl, hlt₁, hread₁⟩ := ih.skip_value hw hu
      obtain ⟨q₂, rfl, hlt₂, hread₂⟩ := ih.elems hus
      refine readsAlone_cons (by omega) fun m hm => ?_
      rw [parseValue]
      split
      · rename_i m' hclose
        exact absurd (by rw [hskip, hclose]; rfl) (hne (m' ++ w))
      · simp only [hread₁ m (by omega), hread₂ m (by omega), Option.bind_eq_bind, Option.bind_some]
  · rename_i m heq
    obtain ⟨q, rfl, rfl⟩ := hw.exists_cons (by decide) heq
    -- An object: likewise, with a field for an element.
    have hlength := length_skipBlanks q
    split at h
    · rename_i m' hclose
      cases h
      obtain ⟨q', hq', rfl⟩ := skipBlanks_append_eq_cons hw (by decide) hclose
      rw [hq', List.length_cons] at hlength
      refine readsAlone_cons (by omega) fun m _ => ?_
      rw [parseValue, hq']
      rfl
    · rename_i hne
      obtain ⟨⟨u, l₁⟩, hu, h⟩ := Option.bind_eq_some_iff.mp h
      obtain ⟨⟨us, l₂⟩, hus, h⟩ := Option.bind_eq_some_iff.mp h
      cases h
      obtain ⟨hskip, q₁, rfl, hlt₁, hread₁⟩ := ih.skip_field hw hu
      obtain ⟨q₂, rfl, hlt₂, hread₂⟩ := ih.fields hus
      refine readsAlone_cons (by omega) fun m hm => ?_
      rw [parseValue]
      split
      · rename_i m' hclose
        exact absurd (by rw [hskip, hclose]; rfl) (hne (m' ++ w))
      · simp only [hread₁ m (by omega), hread₂ m (by omega), Option.bind_eq_bind, Option.bind_some]
  · rename_i heq
    cases h
    -- The words, of which none holds a space.
    exact readsAlone_word hw "null".toList (by decide) (not_isSpace_of_all (by decide)) heq
      fun _ _ => rfl
  · rename_i heq
    cases h
    exact readsAlone_word hw "true".toList (by decide) (not_isSpace_of_all (by decide)) heq
      fun _ _ => rfl
  · rename_i heq
    cases h
    exact readsAlone_word hw "false".toList (by decide) (not_isSpace_of_all (by decide)) heq
      fun _ _ => rfl
  · rename_i heq
    cases h
    exact readsAlone_word hw "NaN".toList (by decide) (not_isSpace_of_all (by decide)) heq
      fun _ _ => rfl
  · rename_i heq
    cases h
    exact readsAlone_word hw "Infinity".toList (by decide) (not_isSpace_of_all (by decide)) heq
      fun _ _ => rfl
  · rename_i heq
    cases h
    exact readsAlone_word hw "-Infinity".toList (by decide) (not_isSpace_of_all (by decide)) heq
      fun _ _ => rfl
  · obtain ⟨⟨t, r'⟩, hlex, h⟩ := Option.map_eq_some_iff.mp h
    cases h
    -- A number stops at a space.
    obtain ⟨q, hq, rfl, hlt⟩ := exists_lexNumber hw.stopsNumber hlex
    refine ⟨q, rfl, hlt, fun m hm => ?_⟩
    obtain ⟨m, rfl⟩ : ∃ j, m = j + 1 := ⟨m - 1, by omega⟩
    exact parseValue_lexNumber hq m

theorem inFront_elems (hw : Spaces w) {n : ℕ} (ih : InFront F w n) {l : List Char}
    {vs : List Json} {r : List Char} (h : parseElems F (n + 1) (l ++ w) = some (vs, r)) :
    ReadsAlone w (parseElems F) l vs r := by
  have hlength := length_skipBlanks l
  unfold parseElems at h
  split at h
  · rename_i m hclose
    cases h
    obtain ⟨q, hq, rfl⟩ := skipBlanks_append_eq_cons hw (by decide) hclose
    rw [hq, List.length_cons] at hlength
    refine ⟨q, rfl, by omega, fun m hm => ?_⟩
    obtain ⟨m, rfl⟩ : ∃ j, m = j + 1 := ⟨m - 1, by omega⟩
    rw [parseElems, hq]
    rfl
  · rename_i m hcomma
    obtain ⟨q, hq, rfl⟩ := skipBlanks_append_eq_cons hw (by decide) hcomma
    obtain ⟨⟨u, l₁⟩, hu, h⟩ := Option.bind_eq_some_iff.mp h
    obtain ⟨⟨us, l₂⟩, hus, h⟩ := Option.bind_eq_some_iff.mp h
    cases h
    obtain ⟨-, q₁, rfl, hlt₁, hread₁⟩ := ih.skip_value hw hu
    obtain ⟨q₂, rfl, hlt₂, hread₂⟩ := ih.elems hus
    have hlength' := length_skipBlanks q
    rw [hq, List.length_cons] at hlength
    refine ⟨q₂, rfl, by omega, fun m hm => ?_⟩
    obtain ⟨m, rfl⟩ : ∃ j, m = j + 1 := ⟨m - 1, by omega⟩
    rw [parseElems, hq]
    simp only [hread₁ m (by omega), hread₂ m (by omega), Option.bind_eq_bind, Option.bind_some]
  · cases h

theorem inFront_fields (hw : Spaces w) {n : ℕ} (ih : InFront F w n) {l : List Char}
    {ps : List (String × Json)} {r : List Char}
    (h : parseFields F (n + 1) (l ++ w) = some (ps, r)) :
    ReadsAlone w (parseFields F) l ps r := by
  have hlength := length_skipBlanks l
  unfold parseFields at h
  split at h
  · rename_i m hclose
    cases h
    obtain ⟨q, hq, rfl⟩ := skipBlanks_append_eq_cons hw (by decide) hclose
    rw [hq, List.length_cons] at hlength
    refine ⟨q, rfl, by omega, fun m hm => ?_⟩
    obtain ⟨m, rfl⟩ : ∃ j, m = j + 1 := ⟨m - 1, by omega⟩
    rw [parseFields, hq]
    rfl
  · rename_i m hcomma
    obtain ⟨q, hq, rfl⟩ := skipBlanks_append_eq_cons hw (by decide) hcomma
    obtain ⟨⟨u, l₁⟩, hu, h⟩ := Option.bind_eq_some_iff.mp h
    obtain ⟨⟨us, l₂⟩, hus, h⟩ := Option.bind_eq_some_iff.mp h
    cases h
    obtain ⟨-, q₁, rfl, hlt₁, hread₁⟩ := ih.skip_field hw hu
    obtain ⟨q₂, rfl, hlt₂, hread₂⟩ := ih.fields hus
    have hlength' := length_skipBlanks q
    rw [hq, List.length_cons] at hlength
    refine ⟨q₂, rfl, by omega, fun m hm => ?_⟩
    obtain ⟨m, rfl⟩ : ∃ j, m = j + 1 := ⟨m - 1, by omega⟩
    rw [parseFields, hq]
    simp only [hread₁ m (by omega), hread₂ m (by omega), Option.bind_eq_bind, Option.bind_some]
  · cases h

theorem inFront_field (hw : Spaces w) {n : ℕ} (ih : InFront F w n) {l : List Char}
    {p : String × Json} {r : List Char} (h : parseField F (n + 1) (l ++ w) = some (p, r)) :
    ReadsAlone w (parseField F) l p r := by
  unfold parseField at h
  split at h
  · rename_i m heq
    obtain ⟨q, rfl, rfl⟩ := hw.exists_cons (by decide) heq
    obtain ⟨⟨k, l₁⟩, hk, h⟩ := Option.bind_eq_some_iff.mp h
    obtain ⟨q₁, hq₁, rfl, hlt₁⟩ := hw.exists_lexString hk
    dsimp only at h
    split at h
    · rename_i m' hcolon
      obtain ⟨⟨u, l₂⟩, hu, h⟩ := Option.bind_eq_some_iff.mp h
      cases h
      obtain ⟨q₂, hq₂, rfl⟩ := skipBlanks_append_eq_cons hw (by decide) hcolon
      obtain ⟨-, q₃, rfl, hlt₃, hread₃⟩ := ih.skip_value hw hu
      have hlength := length_skipBlanks q₁
      have hlength' := length_skipBlanks q₂
      rw [hq₂, List.length_cons] at hlength
      refine readsAlone_cons (by omega) fun m hm => ?_
      rw [parseField, hq₁]
      simp only [hq₂, hread₃ m (by omega), Option.bind_eq_bind, Option.bind_some]
    · cases h
  · cases h

theorem inFront (hw : Spaces w) : ∀ n, InFront F w n
  | 0 => ⟨nofun, nofun, nofun, nofun⟩
  | n + 1 =>
    have ih := inFront hw n
    ⟨inFront_value hw ih, inFront_elems hw ih, inFront_field hw ih, inFront_fields hw ih⟩

theorem skipBlanks_eq_nil_iff : skipBlanks l = [] ↔ ∀ c ∈ l, isBlankChar c = true :=
  List.dropWhile_eq_nil_iff

theorem isSpace_of_isBlankChar {c : Char} (h : isBlankChar c = true) : isSpace c = true := by
  simp only [isBlankChar, Bool.or_eq_true, beq_iff_eq] at h
  rcases h with ((rfl | rfl) | rfl) | rfl <;> decide

/-- Spaces in front of a value are skipped only when they are blanks. -/
theorem skipBlanks_spaces (hw : Spaces w) {c : Char} {m : List Char} (hc : isSpace c = false)
    (h : skipBlanks (w ++ l) = c :: m) :
    (∀ d ∈ w, isBlankChar d = true) ∧ skipBlanks (w ++ l) = skipBlanks l := by
  induction w with
  | nil => exact ⟨fun d hd => absurd hd List.not_mem_nil, rfl⟩
  | cons d w ih =>
    unfold skipBlanks at h ih ⊢
    rw [List.cons_append, List.dropWhile_cons] at h
    split at h
    · rename_i hd
      obtain ⟨hall, hskip⟩ := ih hw.tail h
      refine ⟨List.forall_mem_cons.mpr ⟨hd, hall⟩, ?_⟩
      rw [List.cons_append, List.dropWhile_cons_of_pos hd, hskip]
    · cases h
      rw [hw c List.mem_cons_self] at hc
      cases hc

/-- **A value between spaces** is read exactly when the spaces are blanks: `str.strip` takes more
characters for spaces than the reader skips. -/
theorem loads_between_iff {w w' s : List Char} (hw : Spaces w) (hw' : Spaces w') {v : Json} :
    loads F (w ++ (s ++ w')) = some v ↔
      loads F s = some v ∧ (∀ c ∈ w, isBlankChar c = true) ∧ ∀ c ∈ w', isBlankChar c = true := by
  constructor
  · intro h
    unfold loads at h
    split at h
    · rename_i u rest hparse
      split at h
      · rename_i hrest
        cases h
        -- A value opens with no space, so all the spaces before it were skipped: they are blanks.
        obtain ⟨c, m, hm, hc⟩ := opens_parseValue hparse
        obtain ⟨hblanks, hskip⟩ := skipBlanks_spaces hw hc hm
        rw [hskip, skipBlanks_append_of_opens hw' ⟨c, m, hskip ▸ hm, hc⟩] at hparse
        obtain ⟨q, rfl, -, hread⟩ := (inFront hw' _).value hparse
        rw [skipBlanks_eq_nil_iff, List.forall_mem_append] at hrest
        refine ⟨?_, hblanks, hrest.2⟩
        rw [loads, hread _ ((length_skipBlanks s).trans (Nat.le_succ _))]
        exact if_pos (skipBlanks_eq_nil_iff.mpr hrest.1)
      · cases h
    · cases h
  · rintro ⟨h, hblanks, hblanks'⟩
    unfold loads at h
    split at h
    · rename_i u q hparse
      split at h
      · rename_i hq
        cases h
        have hall : ∀ c ∈ q ++ w', isBlankChar c = true :=
          List.forall_mem_append.mpr ⟨skipBlanks_eq_nil_iff.mp hq, hblanks'⟩
        -- What follows the value are blanks, so the value ends before them.
        have hspaces : Spaces (q ++ w') := fun c hc => isSpace_of_isBlankChar (hall c hc)
        have hskip : skipBlanks (w ++ (s ++ w')) = skipBlanks s ++ w' := by
          rw [skipBlanks, List.dropWhile_append_of_pos hblanks]
          exact skipBlanks_append_of_value hparse w'
        have hlength : s.length + 1 ≤ (w ++ (s ++ w')).length + 1 := by
          rw [List.length_append, List.length_append]
          omega
        rw [loads, hskip, (readsOn F _).value (.inr hspaces.stopsNumber) hlength hparse]
        exact if_pos (skipBlanks_eq_nil_iff.mpr hall)
      · cases h
    · cases h

/-- A text is its stripped part between spaces. -/
theorem exists_stripChars (l : List Char) :
    ∃ w w', Spaces w ∧ Spaces w' ∧ l = w ++ (stripChars l ++ w') := by
  refine ⟨l.takeWhile isSpace, ((l.dropWhile isSpace).reverse.takeWhile isSpace).reverse,
    fun c hc => List.mem_takeWhile_imp hc,
    fun c hc => List.mem_takeWhile_imp (List.mem_reverse.mp hc), ?_⟩
  rw [stripChars, ← List.reverse_append, List.takeWhile_append_dropWhile, List.reverse_reverse,
    List.takeWhile_append_dropWhile]

/-- **A value is read from the stripped text.** -/
theorem loads_stripChars {l : List Char} {v : Json} (h : loads F l = some v) :
    loads F (stripChars l) = some v := by
  obtain ⟨w, w', hw, hw', hl⟩ := exists_stripChars l
  rw [hl] at h
  exact ((loads_between_iff hw hw').mp h).1

end Json

end Python
