import SkCoord.Python.JsonFile
import Mathlib.Data.List.TakeWhile

/-!
# Lines that were cut off

A record that is written behind a line without its newline is lost together with that line:
`loads_torn`.  A text in quotes that the line left open ends behind the brace of the record, and
every other token ends before it, so some bracket of the line stays open.
-/

namespace Python

/-! ### Tokens -/

section

variable {p m r : List Char} {c : Char}

/-- A text in quotes ends before a record, or behind the brace of it. -/
theorem scanString_torn : ∀ {p : List Char} {us : List ℕ} {r : List Char},
    scanString (p ++ '{' :: '"' :: m) = some (us, r) →
      (∃ q, r = q ++ '{' :: '"' :: m ∧ q.length < p.length) ∨ r = m := by
  have hbrace : hexVal '{' = none := by decide
  intro p
  induction p using scanString.induct with
  | case1 =>
    intro us r h
    have hscan : scanString ('{' :: '"' :: m) = some ([123], m) := rfl
    cases hscan.symm.trans h
    exact .inr rfl
  | case2 l =>
    intro us r h
    cases h
    exact .inl ⟨l, rfl, Nat.lt_succ_self _⟩
  | case3 a b c d l ih =>
    intro us r h
    simp only [List.cons_append, scanString, Option.bind_eq_bind, Option.bind_eq_some_iff] at h
    obtain ⟨va, ha, vb, hb, vc, hc, vd, hd, ⟨us', r'⟩, hrest, h⟩ := h
    cases h
    obtain ⟨q, hq, hlength⟩ | hr := ih hrest
    · refine .inl ⟨q, hq, ?_⟩
      simp only [List.length_cons]
      omega
    · exact .inr hr
  | case4 e l hne ih =>
    intro us r h
    rw [List.cons_append, List.cons_append] at h
    by_cases he : e = 'u'
    · -- the brace is no hexadecimal digit
      subst he
      exfalso
      obtain _ | ⟨a, _ | ⟨b, _ | ⟨c, _ | ⟨d, l⟩⟩⟩⟩ := l
      · cases m with
        | nil => cases h
        | cons c m =>
          cases m with
          | nil => cases h
          | cons d m => simp [scanString, hbrace] at h
      · cases m with
        | nil => cases h
        | cons c m => simp [scanString, hbrace] at h
      · simp [scanString, hbrace] at h
      · simp [scanString, hbrace] at h
      · exact hne a b c d l rfl rfl
    · rw [scanString] at h
      · simp only [Option.bind_eq_bind, Option.bind_eq_some_iff] at h
        obtain ⟨u, hu, ⟨us', r'⟩, hrest, h⟩ := h
        cases h
        obtain ⟨q, hq, hlength⟩ | hr := ih hrest
        · refine .inl ⟨q, hq, ?_⟩
          simp only [List.length_cons]
          omega
        · exact .inr hr
      · exact fun _ _ _ _ _ heq => absurd heq he
  | case5 c l hquote hunicode hslash hlt =>
    intro us r h
    have hc : c ≠ '\\' := by
      rintro rfl
      exact absurd hlt (by decide)
    rw [List.cons_append, scanString, if_pos hlt] at h
    · cases h
    · exact hquote
    · exact fun _ _ _ _ _ heq _ => hc heq
    · exact fun _ _ heq _ => hc heq
  | case6 c l hquote hunicode hslash hlt ih =>
    intro us r h
    by_cases hc : c = '\\'
    · -- a backslash at the end does not escape the brace
      cases l with
      | nil =>
        subst hc
        cases h
      | cons e l => exact absurd rfl (hslash e l hc)
    · rw [List.cons_append, scanString, if_neg hlt] at h
      · simp only [Option.bind_eq_bind, Option.bind_eq_some_iff] at h
        obtain ⟨⟨us', r'⟩, hrest, h⟩ := h
        cases h
        obtain ⟨q, hq, hlength⟩ | hr := ih hrest
        · refine .inl ⟨q, hq, ?_⟩
          rw [List.length_cons]
          omega
        · exact .inr hr
      · exact hquote
      · exact fun _ _ _ _ _ heq _ => hc heq
      · exact fun _ _ heq _ => hc heq

theorem lexString_torn {t : String} (h : lexString (p ++ '{' :: '"' :: m) = some (t, r)) :
    (∃ q, r = q ++ '{' :: '"' :: m ∧ q.length < p.length) ∨ r = m := by
  unfold lexString at h
  obtain ⟨⟨us, r'⟩, hscan, h⟩ := Option.map_eq_some_iff.mp h
  cases h
  exact scanString_torn hscan

theorem length_takeWhole {l : List Char} (h : (takeWhole l).1 ≠ []) :
    (takeWhole l).2.length < l.length := by
  cases l with
  | nil => exact absurd rfl h
  | cons c l =>
    rw [takeWhole] at h ⊢
    split
    · exact Nat.lt_succ_self _
    · rename_i hzero
      rw [if_neg hzero] at h
      have hsplit := congrArg List.length (List.takeWhile_append_dropWhile (p := Char.isDigit)
        (l := c :: l))
      have hpos := List.length_pos_iff.mpr h
      rw [List.length_append] at hsplit
      dsimp only at hpos ⊢
      omega

/-- A number is read from its beginning. -/
theorem length_lexNumber {l : List Char} {t : NumText} (h : lexNumber l = some (t, r)) :
    r.length < l.length := by
  unfold lexNumber at h
  dsimp only at h
  split at h
  · cases h
  · rename_i hne
    cases h
    calc (takeExponent (takeFrac (takeWhole (takeMinus l).2).2).2).2.length
        ≤ (takeFrac (takeWhole (takeMinus l).2).2).2.length := (takeExponent_suffix _).length_le
      _ ≤ (takeWhole (takeMinus l).2).2.length := (takeFrac_suffix _).length_le
      _ < (takeMinus l).2.length := length_takeWhole hne
      _ ≤ l.length := (takeMinus_suffix l).length_le

/-- A number ends before a text that stops it. -/
theorem exists_lexNumber {s : List Char} (hs : StopsNumber s) {t : NumText}
    (h : lexNumber (p ++ s) = some (t, r)) :
    ∃ q, lexNumber p = some (t, q) ∧ r = q ++ s ∧ q.length < p.length := by
  rw [lexNumber_append_stop hs] at h
  obtain ⟨⟨t', q⟩, hlex, h⟩ := Option.map_eq_some_iff.mp h
  cases h
  exact ⟨q, hlex, rfl, length_lexNumber hlex⟩

/-- A word ends before a text that does not begin within it. -/
theorem exists_word : ∀ {w p s l : List Char}, (∀ c ∈ s.head?, c ∉ w) → p ++ s = w ++ l →
    ∃ q, p = w ++ q ∧ l = q ++ s
  | [], p, _, _, _, h => ⟨p, rfl, h.symm⟩
  | d :: w, [], s, l, hw, h => by
    rw [List.nil_append, List.cons_append] at h
    rw [h] at hw
    exact absurd List.mem_cons_self (hw d rfl)
  | d :: w, e :: p, s, l, hw, h => by
    rw [List.cons_append, List.cons_append, List.cons.injEq] at h
    obtain ⟨q, hp, hl⟩ :=
      exists_word (fun c hc hmem => hw c hc (List.mem_cons_of_mem _ hmem)) h.2
    exact ⟨q, by rw [h.1, hp, List.cons_append], hl⟩

end

namespace Json

variable {F : FloatText} {p m r s : List Char} {c : Char}

/-! ### Values -/

/-- A character that opens a token: behind a value there is none. -/
def Stray (c : Char) : Prop :=
  isBlankChar c = false ∧ c ≠ ',' ∧ c ≠ ':' ∧ c ≠ ']' ∧ c ≠ '}'

/-- A text on which no value goes on. -/
def Stuck (r : List Char) : Prop := r = [] ∨ ∃ c m, r = c :: m ∧ Stray c

theorem Stuck.skipBlanks (h : Stuck r) : skipBlanks r = r := by
  rcases h with rfl | ⟨c, m, rfl, hc, -⟩
  · rfl
  · exact List.dropWhile_cons_of_neg (by rw [hc]; exact Bool.false_ne_true)

theorem Stuck.parseElems (h : Stuck r) (n : ℕ) : parseElems F n r = none := by
  cases n with
  | zero => rfl
  | succ n =>
    rw [Json.parseElems, h.skipBlanks]
    rcases h with rfl | ⟨c, m, rfl, -, hcomma, -, hbracket, -⟩
    · rfl
    · split
      · rename_i heq
        exact absurd (List.cons.inj heq).1 hbracket
      · rename_i heq
        exact absurd (List.cons.inj heq).1 hcomma
      · rfl

theorem Stuck.parseFields (h : Stuck r) (n : ℕ) : parseFields F n r = none := by
  cases n with
  | zero => rfl
  | succ n =>
    rw [Json.parseFields, h.skipBlanks]
    rcases h with rfl | ⟨c, m, rfl, -, hcomma, -, -, hbrace⟩
    · rfl
    · split
      · rename_i heq
        exact absurd (List.cons.inj heq).1 hbrace
      · rename_i heq
        exact absurd (List.cons.inj heq).1 hcomma
      · rfl

/-- A record: behind its brace stands a key, and it is read to its end. -/
structure RecordText (F : FloatText) (s : List Char) : Prop where
  opens : ∃ c m, s = '{' :: '"' :: c :: m ∧ Stray c
  reads : ∀ {n v r}, s.length ≤ n → parseValue F n s = some (v, r) → r = []

theorem RecordText.opensBrace (hs : RecordText F s) : OpensBrace s := by
  obtain ⟨c, m, rfl, -⟩ := hs.opens
  exact ⟨_, rfl⟩

/-- The rest of a text before a record. -/
def Before (s p r : List Char) : Prop := ∃ q, r = q ++ s ∧ q.length < p.length

theorem Before.of_tail {d : Char} (h : Before s p r) : Before s (d :: p) r := by
  obtain ⟨q, hq, hlength⟩ := h
  exact ⟨q, hq, by rw [List.length_cons]; omega⟩

theorem Before.trans {q' : List Char} (h : Before s q' r) (hle : q'.length ≤ p.length) :
    Before s p r := by
  obtain ⟨q, hq, hlength⟩ := h
  exact ⟨q, hq, by omega⟩

/-- What a parser reads of a text with a record behind it. -/
structure Torn (F : FloatText) (s : List Char) (n : ℕ) : Prop where
  value : ∀ {p v r}, (p ++ s).length ≤ n → parseValue F n (p ++ s) = some (v, r) →
    Before s p r ∨ (∃ c m, r = c :: m ∧ Stray c) ∨ p = [] ∧ r = []
  elems : ∀ {p vs r}, (p ++ s).length ≤ n → parseElems F n (p ++ s) = some (vs, r) → Before s p r
  field : ∀ {p v r}, (p ++ s).length ≤ n → parseField F n (p ++ s) = some (v, r) →
    Before s p r ∨ Stuck r
  fields : ∀ {p vs r}, (p ++ s).length ≤ n → parseFields F n (p ++ s) = some (vs, r) → Before s p r

theorem Torn.value_cases {n : ℕ} (h : Torn F s n) {v : Json} (hlength : (p ++ s).length ≤ n)
    (hv : parseValue F n (p ++ s) = some (v, r)) : Before s p r ∨ Stuck r := by
  rcases h.value hlength hv with h | h | h
  · exact .inl h
  · exact .inr (.inr h)
  · exact .inr (.inl h.2)

theorem length_skipBlanks (l : List Char) : (skipBlanks l).length ≤ l.length :=
  (List.dropWhile_suffix _).length_le

/-- What stands behind a word stands before the record or is the rest of it. -/
theorem before_word (hs : OpensBrace s) {w l : List Char} (hw : '{' ∉ w) (hne : w ≠ [])
    (h : p ++ s = w ++ l) : Before s p l := by
  have hhead : ∀ c ∈ s.head?, c ∉ w := by
    obtain ⟨m, rfl⟩ := hs.eq
    intro c hc
    cases hc
    exact hw
  obtain ⟨q, hp, hl⟩ := exists_word hhead h
  refine ⟨q, hl, ?_⟩
  have := List.length_pos_iff.mpr hne
  rw [hp, List.length_append]
  omega

theorem length_append_skipBlanks {n : ℕ} (h : (p ++ s).length ≤ n) :
    (skipBlanks p ++ s).length ≤ n := by
  have := length_skipBlanks p
  rw [List.length_append] at h ⊢
  omega

theorem Before.length_le {n : ℕ} {q : List Char} (hlt : q.length < p.length)
    (h : (p ++ s).length ≤ n) : (q ++ s).length ≤ n := by
  rw [List.length_append] at h ⊢
  omega

/-- A value with the elements behind it. -/
theorem Torn.value_elems {n : ℕ} (ih : Torn F s n) {v : Json} {l : List Char} {vs : List Json}
    (hlength : (p ++ s).length ≤ n) (hv : parseValue F n (p ++ s) = some (v, l))
    (hvs : parseElems F n l = some (vs, r)) : Before s p r := by
  rcases ih.value_cases hlength hv with ⟨q, rfl, hq⟩ | hstuck
  · exact (ih.elems (Before.length_le hq hlength) hvs).trans hq.le
  · rw [hstuck.parseElems] at hvs
    cases hvs

/-- A field with the fields behind it. -/
theorem Torn.field_fields {n : ℕ} (ih : Torn F s n) {f : String × Json} {l : List Char}
    {fs : List (String × Json)} (hlength : (p ++ s).length ≤ n)
    (hf : parseField F n (p ++ s) = some (f, l)) (hfs : parseFields F n l = some (fs, r)) :
    Before s p r := by
  rcases ih.field hlength hf with ⟨q, rfl, hq⟩ | hstuck
  · exact (ih.fields (Before.length_le hq hlength) hfs).trans hq.le
  · rw [hstuck.parseFields] at hfs
    cases hfs

/-- Where a value is read from a torn line with a record glued behind it, the value ends before the
record, or what is left of it begins with a character that continues nothing, or there was no torn
part. One branch of the reader after another, with the nested readers by induction. -/
theorem torn_value {n : ℕ} (hs : RecordText F s) (ih : Torn F s n) {p : List Char} {v : Json}
    {r : List Char} (hlength : (p ++ s).length ≤ n + 1)
    (h : parseValue F (n + 1) (p ++ s) = some (v, r)) :
    Before s p r ∨ (∃ c m, r = c :: m ∧ Stray c) ∨ p = [] ∧ r = [] := by
  have hbrace := hs.opensBrace
  cases p with
  | nil => exact .inr (.inr ⟨rfl, hs.reads hlength h⟩)
  | cons d p =>
    -- The first character is one of the torn part, so it selects the branch.
    have hrest : (p ++ s).length ≤ n := by
      rw [List.cons_append, List.length_cons] at hlength
      omega
    have htail : ∀ {c : Char} {l : List Char}, d :: p ++ s = c :: l → d = c ∧ l = p ++ s :=
      fun heq => ⟨(List.cons.inj heq).1, (List.cons.inj heq).2.symm⟩
    unfold parseValue at h
    split at h
    · rename_i l heq
      obtain ⟨rfl, rfl⟩ := htail heq
      obtain ⟨⟨t, r'⟩, hlex, h⟩ := Option.map_eq_some_iff.mp h
      cases h
      obtain ⟨c, m, rfl, hc⟩ := hs.opens
      -- A text in quotes: it ends before the record, or at the first quote of the record.
      rcases lexString_torn hlex with ⟨q, hq, hlt⟩ | rfl
      · exact .inl ⟨q, hq, hlt.trans (Nat.lt_succ_self _)⟩
      · exact .inr (.inl ⟨c, m, rfl, hc⟩)
    · rename_i l heq
      obtain ⟨rfl, rfl⟩ := htail heq
      -- An array.
      rw [hbrace.skipBlanks] at h
      split at h
      · rename_i l' hclose
        cases h
        exact .inl (((before_word hbrace (w := [']']) (by decide) (by decide) hclose).trans
          (length_skipBlanks p)).of_tail)
      · simp only [Option.bind_eq_bind, Option.bind_eq_some_iff] at h
        obtain ⟨⟨v', l₁⟩, hv, ⟨vs, l₂⟩, hvs, h⟩ := h
        cases h
        exact .inl (((ih.value_elems (length_append_skipBlanks hrest) hv hvs).trans
          (length_skipBlanks p)).of_tail)
    · rename_i l heq
      obtain ⟨rfl, rfl⟩ := htail heq
      -- An object.
      rw [hbrace.skipBlanks] at h
      split at h
      · rename_i l' hclose
        cases h
        exact .inl (((before_word hbrace (w := ['}']) (by decide) (by decide) hclose).trans
          (length_skipBlanks p)).of_tail)
      · simp only [Option.bind_eq_bind, Option.bind_eq_some_iff] at h
        obtain ⟨⟨f, l₁⟩, hf, ⟨fs, l₂⟩, hfs, h⟩ := h
        cases h
        exact .inl (((ih.field_fields (length_append_skipBlanks hrest) hf hfs).trans
          (length_skipBlanks p)).of_tail)
    · rename_i l heq
      cases h
      -- The words, of which none goes into the record.
      exact .inl (before_word hbrace (w := "null".toList) (by decide) (by decide) heq)
    · rename_i l heq
      cases h
      exact .inl (before_word hbrace (w := "true".toList) (by decide) (by decide) heq)
    · rename_i l heq
      cases h
      exact .inl (before_word hbrace (w := "false".toList) (by decide) (by decide) heq)
    · rename_i l heq
      cases h
      exact .inl (before_word hbrace (w := "NaN".toList) (by decide) (by decide) heq)
    · rename_i l heq
      cases h
      exact .inl (before_word hbrace (w := "Infinity".toList) (by decide) (by decide) heq)
    · rename_i l heq
      cases h
      exact .inl (before_word hbrace (w := "-Infinity".toList) (by decide) (by decide) heq)
    · obtain ⟨⟨t, r'⟩, hlex, h⟩ := Option.map_eq_some_iff.mp h
      cases h
      -- A number, which stops at a brace.
      obtain ⟨q, -, hq, hlt⟩ := exists_lexNumber hbrace.stopsNumber hlex
      exact .inl ⟨q, hq, hlt⟩

theorem torn_elems {n : ℕ} (hs : RecordText F s) (ih : Torn F s n) {p : List Char}
    {vs : List Json} {r : List Char} (hlength : (p ++ s).length ≤ n + 1)
    (h : parseElems F (n + 1) (p ++ s) = some (vs, r)) : Before s p r := by
  have hbrace := hs.opensBrace
  unfold parseElems at h
  rw [hbrace.skipBlanks] at h
  split at h
  · rename_i l hclose
    cases h
    exact (before_word hbrace (w := [']']) (by decide) (by decide) hclose).trans
      (length_skipBlanks p)
  · rename_i l hcomma
    obtain ⟨q, rfl, hq⟩ := before_word hbrace (w := [',']) (by decide) (by decide) hcomma
    rw [hbrace.skipBlanks] at h
    simp only [Option.bind_eq_bind, Option.bind_eq_some_iff] at h
    obtain ⟨⟨v, l₁⟩, hv, ⟨vs', l₂⟩, hvs, h⟩ := h
    cases h
    have hqp := hq.trans_le (length_skipBlanks p)
    have hrest : (q ++ s).length ≤ n := by
      rw [List.length_append] at hlength ⊢
      omega
    exact (ih.value_elems (length_append_skipBlanks hrest) hv hvs).trans
      ((length_skipBlanks q).trans hqp.le)
  · cases h

theorem torn_fields {n : ℕ} (hs : RecordText F s) (ih : Torn F s n) {p : List Char}
    {fs : List (String × Json)} {r : List Char} (hlength : (p ++ s).length ≤ n + 1)
    (h : parseFields F (n + 1) (p ++ s) = some (fs, r)) : Before s p r := by
  have hbrace := hs.opensBrace
  unfold parseFields at h
  rw [hbrace.skipBlanks] at h
  split at h
  · rename_i l hclose
    cases h
    exact (before_word hbrace (w := ['}']) (by decide) (by decide) hclose).trans
      (length_skipBlanks p)
  · rename_i l hcomma
    obtain ⟨q, rfl, hq⟩ := before_word hbrace (w := [',']) (by decide) (by decide) hcomma
    rw [hbrace.skipBlanks] at h
    simp only [Option.bind_eq_bind, Option.bind_eq_some_iff] at h
    obtain ⟨⟨f, l₁⟩, hf, ⟨fs', l₂⟩, hfs, h⟩ := h
    cases h
    have hqp := hq.trans_le (length_skipBlanks p)
    have hrest : (q ++ s).length ≤ n := by
      rw [List.length_append] at hlength ⊢
      omega
    exact (ih.field_fields (length_append_skipBlanks hrest) hf hfs).trans
      ((length_skipBlanks q).trans hqp.le)
  · cases h

theorem torn_field {n : ℕ} (hs : RecordText F s) (ih : Torn F s n) {p : List Char}
    {f : String × Json} {r : List Char} (hlength : (p ++ s).length ≤ n + 1)
    (h : parseField F (n + 1) (p ++ s) = some (f, r)) : Before s p r ∨ Stuck r := by
  have hbrace := hs.opensBrace
  unfold parseField at h
  split at h
  · rename_i l heq
    obtain ⟨q, rfl, hq⟩ := before_word hbrace (w := ['"']) (by decide) (by decide) heq
    simp only [Option.bind_eq_bind, Option.bind_eq_some_iff] at h
    obtain ⟨⟨k, l₁⟩, hk, h⟩ := h
    obtain ⟨c, m, hm, hc⟩ := hs.opens
    have hstring : Before s q l₁ ∨ l₁ = c :: m := by
      rw [hm] at hk ⊢
      exact lexString_torn hk
    split at h
    · rename_i l₂ hcolon
      simp only [Option.bind_eq_some_iff] at h
      obtain ⟨⟨v, l₃⟩, hv, h⟩ := h
      cases h
      rcases hstring with ⟨q₁, rfl, hq₁⟩ | rfl
      · rw [hbrace.skipBlanks] at hcolon
        obtain ⟨q₂, rfl, hq₂⟩ := before_word hbrace (w := [':']) (by decide) (by decide) hcolon
        rw [hbrace.skipBlanks] at hv
        have h1 := length_skipBlanks q₁
        have hrest : (q₂ ++ s).length ≤ n := by
          rw [List.length_append] at hlength ⊢
          omega
        refine (ih.value_cases (length_append_skipBlanks hrest) hv).imp_left fun hb => hb.trans ?_
        have h2 := length_skipBlanks q₂
        omega
      · -- no colon follows a text that the record has closed
        rw [(Stuck.skipBlanks (.inr ⟨c, m, rfl, hc⟩) : skipBlanks (c :: m) = c :: m)] at hcolon
        exact absurd (List.cons.inj hcolon).1 hc.2.2.1
    · cases h
  · cases h

theorem torn (hs : RecordText F s) : ∀ n, Torn F s n
  | 0 => by
    have hpos : ∀ p : List Char, ¬(p ++ s).length ≤ 0 := by
      obtain ⟨c, m, rfl, -⟩ := hs.opens
      intro p h
      rw [List.length_append, List.length_cons] at h
      omega
    exact ⟨fun h => absurd h (hpos _), fun h => absurd h (hpos _), fun h => absurd h (hpos _),
      fun h => absurd h (hpos _)⟩
  | n + 1 =>
    ⟨torn_value hs (torn hs n), torn_elems hs (torn hs n), torn_field hs (torn hs n),
      torn_fields hs (torn hs n)⟩

/-- **A record behind a line that was cut off** is no value, and neither is the line. -/
theorem loads_torn (hs : RecordText F s) (hp : ∃ d q, p = d :: q ∧ isBlankChar d = false) :
    loads F (p ++ s) = none := by
  obtain ⟨d, q, rfl, hd⟩ := hp
  have hskip : skipBlanks (d :: q) = d :: q :=
    List.dropWhile_cons_of_neg (by rw [hd]; exact Bool.false_ne_true)
  rw [loads, hs.opensBrace.skipBlanks, hskip]
  cases hparse : parseValue F ((d :: q ++ s).length + 1) (d :: q ++ s) with
  | none => rfl
  | some v =>
    obtain ⟨v, r⟩ := v
    refine if_neg fun hr => ?_
    rcases (torn hs _).value (Nat.le_succ _) hparse with ⟨q', rfl, -⟩ | ⟨c, m, rfl, hc⟩ | ⟨h, -⟩
    · rw [hs.opensBrace.skipBlanks] at hr
      obtain ⟨m, hm⟩ := hs.opensBrace.eq
      rw [hm] at hr
      exact List.append_ne_nil_of_right_ne_nil _ (List.cons_ne_nil _ _) hr
    · rw [Stuck.skipBlanks (.inr ⟨c, m, rfl, hc⟩)] at hr
      cases hr
    · cases h

/-- The text of a dictionary whose first key opens with a letter. -/
theorem recordText_dumps {k : String} {v : Json} {d : Dict} {c : Char} {cs : List Char}
    (hk : k.toList = c :: cs) (hescape : escapeChar c = [c]) (hc : Stray c) :
    RecordText F ((obj ((k, v) :: d)).dumps F .spaced) where
  opens := by
    have hquote : quote k = '"' :: c :: (cs.flatMap escapeChar ++ ['"']) := by
      rw [quote, hk, List.flatMap_cons, hescape]
      rfl
    refine ⟨c, cs.flatMap escapeChar ++ ['"'] ++ JsonLayout.spaced.key ++ dumps F .spaced v ++
      dumpsFields F .spaced d, ?_, hc⟩
    rw [dumps, hquote]
    rfl
  reads := by
    intro n w r hn h
    have hend : EndsNumber [] := fun c hc => nomatch hc
    have hread := parseValue_reread F .spaced (obj ((k, v) :: d)) hn hend
    rw [List.append_nil] at hread
    cases hread.symm.trans h
    rfl

end Json

/-! ### The last line of a text -/

/-- The text up to its last line boundary. -/
def finished (l : List Char) : List Char :=
  (l.reverse.dropWhile fun c => !isLineBreak c).reverse

/-- What stands behind the last line boundary. -/
def unfinished (l : List Char) : List Char :=
  (l.reverse.takeWhile fun c => !isLineBreak c).reverse

theorem finished_append_unfinished (l : List Char) : finished l ++ unfinished l = l := by
  rw [finished, unfinished, ← List.reverse_append, List.takeWhile_append_dropWhile,
    List.reverse_reverse]

theorem unfinished_unbroken {l : List Char} {c : Char} (h : c ∈ unfinished l) :
    isLineBreak c = false := by
  have hc := List.mem_takeWhile_imp (List.mem_reverse.mp h)
  exact Bool.not_eq_true' _ ▸ hc

/-- The finished part ends at a line boundary. -/
theorem finished_cases (l : List Char) :
    finished l = [] ∨ ∃ pre b, finished l = pre ++ [b] ∧ isLineBreak b = true := by
  rw [finished]
  cases h : l.reverse.dropWhile fun c => !isLineBreak c with
  | nil => exact .inl rfl
  | cons b pre =>
    refine .inr ⟨pre.reverse, b, by rw [List.reverse_cons], ?_⟩
    have hb := List.head?_dropWhile_not (fun c => !isLineBreak c) l.reverse
    rw [h] at hb
    exact Bool.not_eq_false' _ ▸ hb

/-- A text breaks at a line boundary, unless it stands in the middle of `\r\n`. -/
theorem splitlines_append_break {b : Char} (hb : isLineBreak b = true) {post : List Char}
    (hpost : post.head? ≠ some '\n') : ∀ (pre : List Char),
    splitlines (pre ++ b :: post) = splitlines (pre ++ [b]) ++ splitlines post := by
  have hone : splitlines (b :: post) = [] :: splitlines post := by
    rw [splitlines, if_pos hb]
    rintro l' - rfl
    exact hpost rfl
  intro pre
  induction pre using splitlines.induct with
  | case1 =>
    have hnil : splitlines [b] = [[]] := by
      rw [splitlines, if_pos hb]
      · rfl
      · rintro l' - hnext
        cases hnext
    rw [List.nil_append, List.nil_append, hone, hnil]
    rfl
  | case2 l ih =>
    rw [List.cons_append, List.cons_append, List.cons_append, List.cons_append, splitlines,
      splitlines, ih]
    rfl
  | case3 c l hcr hbreak ih =>
    by_cases hl : c = '\r' ∧ l = [] ∧ b = '\n'
    · obtain ⟨rfl, rfl, rfl⟩ := hl
      rfl
    · -- the boundary is not the end of `\r\n`
      have hnext : ∀ m l', c = '\r' → l ++ b :: m = '\n' :: l' → False := by
        intro m l' hc heq
        cases l with
        | nil => exact hl ⟨hc, rfl, (List.cons.inj heq).1⟩
        | cons e l => exact hcr l hc (by rw [(List.cons.inj heq).1])
      rw [List.cons_append, List.cons_append, splitlines, splitlines, if_pos hbreak, if_pos hbreak,
        ih]
      · rfl
      · exact hnext []
      · exact hnext post
  | case4 c l hcr hbreak ih =>
    have hc : isLineBreak c = false := Bool.eq_false_iff.mpr hbreak
    rw [List.cons_append, List.cons_append, splitlines_cons hc, splitlines_cons hc, ih]
    have hne : splitlines (l ++ [b]) ≠ [] :=
      splitlines_ne_nil (List.append_ne_nil_of_right_ne_nil _ (List.cons_ne_nil _ _))
    cases hlines : splitlines (l ++ [b]) with
    | nil => exact absurd hlines hne
    | cons line lines => rfl

theorem splitlines_finished {l rest : List Char} (hrest : rest.head? ≠ some '\n') :
    splitlines (finished l ++ rest) = splitlines (finished l) ++ splitlines rest := by
  rcases finished_cases l with h | ⟨pre, b, h, hb⟩
  · rw [h]
    rfl
  · rw [h, List.append_assoc, List.singleton_append, splitlines_append_break hb hrest]

theorem nonBlankLines_finished {l rest : List Char} (hrest : rest.head? ≠ some '\n') :
    nonBlankLines (finished l ++ rest) = nonBlankLines (finished l) ++ nonBlankLines rest := by
  rw [nonBlankLines, splitlines_finished hrest, List.map_append, List.filter_append]
  rfl

/-- A text without line boundaries is one line. -/
theorem splitlines_unbroken {l : List Char} (h : ∀ c ∈ l, isLineBreak c = false) (hne : l ≠ []) :
    splitlines l = [l] := by
  induction l with
  | nil => exact absurd rfl hne
  | cons c l ih =>
    have hl : ∀ d ∈ l, isLineBreak d = false := fun d hd => h d (List.mem_cons_of_mem _ hd)
    rw [splitlines_cons (h c List.mem_cons_self)]
    cases l with
    | nil => rfl
    | cons d l =>
      rw [ih hl (List.cons_ne_nil _ _)]
      rfl

theorem head?_unfinished (l : List Char) : (unfinished l).head? ≠ some '\n' := by
  intro h
  have hbreak := unfinished_unbroken (List.mem_of_mem_head? h)
  exact absurd hbreak (by decide)

/-- The lines of a text are those up to the last line boundary, and what stands behind it. -/
theorem nonBlankLines_eq_finished (l : List Char) :
    nonBlankLines l = nonBlankLines (finished l) ++ nonBlankLines (unfinished l) := by
  rw [← nonBlankLines_finished (head?_unfinished l), finished_append_unfinished]

/-- A line has no blanks at its ends. -/
theorem IsLine.dropWhile_isSpace {line : List Char} (h : IsLine line) :
    line.dropWhile isSpace = line ∧ line.reverse.dropWhile isSpace = line.reverse := by
  have hfirst : line.dropWhile isSpace <:+ line := List.dropWhile_suffix _
  have hlast := (List.dropWhile_suffix (l := (line.dropWhile isSpace).reverse) isSpace).length_le
  have hlength := congrArg List.length h.stripped
  rw [stripChars, List.length_reverse] at hlength
  rw [List.length_reverse] at hlast
  have heq : line.dropWhile isSpace = line :=
    hfirst.eq_of_length (Nat.le_antisymm hfirst.length_le (hlength.symm.le.trans hlast))
  have hstripped := h.stripped
  rw [stripChars, heq] at hstripped
  exact ⟨heq, List.reverse_eq_iff.mp hstripped⟩

/-- Only the blanks before a line are stripped. -/
theorem IsLine.stripChars_append {line : List Char} (h : IsLine line) (l : List Char) :
    stripChars (l ++ line) = l.dropWhile isSpace ++ line := by
  obtain ⟨hfirst, hlast⟩ := h.dropWhile_isSpace
  obtain ⟨c, r, hr⟩ := List.exists_cons_of_ne_nil (List.reverse_ne_nil_iff.mpr h.ne_nil)
  rw [stripChars, dropWhile_append_stop hfirst, List.reverse_append, hr, List.cons_append]
  rw [hr] at hlast
  have hc : isSpace c ≠ true := by
    intro hc
    rw [List.dropWhile_cons_of_pos hc] at hlast
    have := (List.dropWhile_suffix (l := r) isSpace).length_le
    rw [hlast, List.length_cons] at this
    omega
  rw [List.dropWhile_cons_of_neg hc, ← List.cons_append, ← hr, ← List.reverse_append,
    List.reverse_reverse]

/-- **A line behind a text** is read together with the unfinished line of the text. -/
theorem nonBlankLines_append_line (l : List Char) {line : List Char} (hline : IsLine line) :
    nonBlankLines (l ++ (line ++ ['\n'])) =
      nonBlankLines (finished l) ++ [(unfinished l).dropWhile isSpace ++ line] := by
  have hunbroken : ∀ c ∈ unfinished l ++ line, isLineBreak c = false := by
    intro c hc
    rcases List.mem_append.mp hc with hc | hc
    · exact unfinished_unbroken hc
    · exact hline.unbroken c hc
  have hhead : (unfinished l ++ (line ++ ['\n'])).head? ≠ some '\n' := by
    intro h
    cases hu : unfinished l ++ line with
    | nil => exact hline.ne_nil (List.append_eq_nil_iff.mp hu).2
    | cons c r =>
      rw [← List.append_assoc, hu, List.cons_append] at h
      have hc := hunbroken c (by rw [hu]; exact List.mem_cons_self)
      rw [Option.some.inj h] at hc
      exact absurd hc (by decide)
  have hrest : nonBlankLines (unfinished l ++ (line ++ ['\n'])) =
      [(unfinished l).dropWhile isSpace ++ line] := by
    rw [nonBlankLines, ← List.append_assoc, splitlines_line hunbroken []]
    show [stripChars (unfinished l ++ line)].filter (· ≠ []) = _
    rw [hline.stripChars_append]
    exact List.filter_eq_self.mpr (List.forall_mem_singleton.mpr
      (decide_eq_true (List.append_ne_nil_of_right_ne_nil _ hline.ne_nil)))
  rw [← hrest, ← nonBlankLines_finished hhead]
  conv_lhs => rw [← finished_append_unfinished l]
  rw [List.append_assoc]

/-- A text of whole lines. -/
def WholeLines (l : List Char) : Prop := l = [] ∨ l.getLast? = some '\n'

theorem WholeLines.finished {l : List Char} (h : WholeLines l) :
    finished l = l ∧ unfinished l = [] := by
  rcases h with rfl | h
  · exact ⟨rfl, rfl⟩
  · obtain ⟨m, rfl⟩ := List.getLast?_eq_some_iff.mp h
    have hreverse : (m ++ ['\n']).reverse = '\n' :: m.reverse := List.reverse_concat
    constructor
    · rw [Python.finished, hreverse, List.dropWhile_cons_of_neg (by decide), ← hreverse,
        List.reverse_reverse]
    · rw [unfinished, hreverse, List.takeWhile_cons_of_neg (by decide)]
      rfl

/-- A line behind whole lines is one more. -/
theorem WholeLines.nonBlankLines_append {l : List Char} (h : WholeLines l) {line : List Char}
    (hline : IsLine line) :
    nonBlankLines (l ++ (line ++ ['\n'])) = nonBlankLines l ++ [line] := by
  rw [nonBlankLines_append_line l hline, h.finished.1, h.finished.2]
  rfl

theorem WholeLines.fileLines_append {l : List Char} (h : WholeLines l) {line : List Char}
    (hline : IsLine line) :
    fileLines (l ++ (line ++ ['\n'])) = fileLines l ++ [line ++ ['\n']] := by
  have hone : fileLines (line ++ ['\n']) = [line ++ ['\n']] := fileLines_line hline.unbroken []
  rcases h with rfl | h
  · exact hone
  · obtain ⟨m, rfl⟩ := List.getLast?_eq_some_iff.mp h
    rw [List.append_assoc, List.singleton_append, Python.fileLines_append, hone]

theorem WholeLines.append (l line : List Char) : WholeLines (l ++ (line ++ ['\n'])) := by
  right
  rw [← List.append_assoc, List.getLast?_concat]

end Python
