import SkCoord.Python.CutLines

/-!
# Stripped bytes

`bytes.strip` takes ASCII away, a character a byte, so that the bytes between are decoded as they
are in the whole (`decodeUtf8_between`).  What it takes away is whitespace of a text, but not always
whitespace of JSON: a vertical tab and a form feed are none.
-/

namespace Python

/-- A byte that `b.strip()` takes away. -/
def isSpaceByte (b : UInt8) : Bool := b == 32 || (9 ≤ b && b ≤ 13)

/-- `b.strip()`. -/
def stripBytes (b : Bytes) : Bytes :=
  ((b.dropWhile isSpaceByte).reverse.dropWhile isSpaceByte).reverse

/-- What `b.strip()` takes away in front. -/
def leadingSpaces (b : Bytes) : Bytes := b.takeWhile isSpaceByte

/-- What `b.strip()` takes away behind. -/
def trailingSpaces (b : Bytes) : Bytes :=
  ((b.dropWhile isSpaceByte).reverse.takeWhile isSpaceByte).reverse

theorem isSpaceByte_of_mem_leadingSpaces {b : Bytes} : ∀ x ∈ leadingSpaces b, isSpaceByte x :=
  fun _ hx => List.mem_takeWhile_imp hx

theorem isSpaceByte_of_mem_trailingSpaces {b : Bytes} : ∀ x ∈ trailingSpaces b, isSpaceByte x :=
  fun _ hx => List.mem_takeWhile_imp (List.mem_reverse.mp hx)

/-- Bytes are their stripped part between spaces. -/
theorem eq_strip_between (b : Bytes) :
    b = leadingSpaces b ++ (stripBytes b ++ trailingSpaces b) := by
  rw [stripBytes, trailingSpaces, ← List.reverse_append, List.takeWhile_append_dropWhile,
    List.reverse_reverse, leadingSpaces, List.takeWhile_append_dropWhile]

theorem stripBytes_eq_nil_iff {b : Bytes} : stripBytes b = [] ↔ ∀ x ∈ b, isSpaceByte x := by
  constructor
  · intro h x hx
    rw [eq_strip_between b, h, List.nil_append, List.mem_append] at hx
    exact hx.elim (isSpaceByte_of_mem_leadingSpaces x) (isSpaceByte_of_mem_trailingSpaces x)
  · intro h
    rw [stripBytes, List.dropWhile_eq_nil_iff.mpr h]
    rfl

/-- Bytes that neither begin nor end with a space are not stripped. -/
theorem stripBytes_between {w s w' : Bytes} (hw : ∀ x ∈ w, isSpaceByte x)
    (hw' : ∀ x ∈ w', isSpaceByte x) (hfirst : ∃ x l, s = x :: l ∧ isSpaceByte x = false)
    (hlast : ∃ l x, s = l ++ [x] ∧ isSpaceByte x = false) : stripBytes (w ++ (s ++ w')) = s := by
  have hdrop : (w ++ (s ++ w')).dropWhile isSpaceByte = s ++ w' := by
    obtain ⟨x, l, rfl, hx⟩ := hfirst
    rw [List.dropWhile_append_of_pos hw, List.cons_append,
      List.dropWhile_cons_of_neg (by rw [hx]; exact Bool.false_ne_true)]
  have hdrop' : (s ++ w').reverse.dropWhile isSpaceByte = s.reverse := by
    obtain ⟨l, x, rfl, hx⟩ := hlast
    rw [List.reverse_append, List.dropWhile_append_of_pos fun y hy => hw' y (List.mem_reverse.mp hy),
      List.reverse_concat, List.dropWhile_cons_of_neg (by rw [hx]; exact Bool.false_ne_true)]
  rw [stripBytes, hdrop, hdrop', List.reverse_reverse]

/-- Stripped bytes begin with no space. -/
theorem first_stripBytes {b l : Bytes} {x : UInt8} (h : stripBytes b = x :: l) :
    isSpaceByte x = false := by
  have hprefix : stripBytes b <+: b.dropWhile isSpaceByte := by
    rw [stripBytes, ← List.reverse_suffix, List.reverse_reverse]
    exact List.dropWhile_suffix _
  obtain ⟨r, hr⟩ := hprefix
  have hhead := List.head?_dropWhile_not isSpaceByte b
  rw [← hr, h] at hhead
  exact hhead

/-! ### ASCII -/

/-- The characters of ASCII bytes. -/
def asciiText (w : Bytes) : List Char := w.map fun b => Char.ofNat b.toNat

theorem toNat_ofNat_byte {b : UInt8} (hb : b.toNat < 128) : (Char.ofNat b.toNat).toNat = b.toNat := by
  have hvalid : b.toNat.isValidChar := .inl (by omega)
  rw [Char.ofNat, dif_pos hvalid]
  rfl

theorem encodeUtf8_asciiText {w : Bytes} (hw : ∀ b ∈ w, b.toNat < 128) :
    encodeUtf8 (asciiText w) = w := by
  induction w with
  | nil => rfl
  | cons b w ih =>
    have hb := hw b List.mem_cons_self
    have hchar := toNat_ofNat_byte hb
    rw [asciiText, List.map_cons, encodeUtf8_cons, encodeUtf8_ascii (by rw [hchar]; exact hb), hchar,
      UInt8.ofNat_toNat]
    exact congrArg (b :: ·) (ih fun c hc => hw c (List.mem_cons_of_mem _ hc))

/-- ASCII in front of a text is decoded by itself. -/
theorem decodeUtf8_append_left (p : List Char) (b : Bytes) :
    decodeUtf8 (encodeUtf8 p ++ b) = (decodeUtf8 b).map (p ++ ·) := by
  cases hb : decodeUtf8 b with
  | some t =>
    rw [← encodeUtf8_of_decodeUtf8 hb, ← encodeUtf8_append, decodeUtf8_encodeUtf8]
    rfl
  | none =>
    rw [Option.map_none, Option.eq_none_iff_forall_ne_some]
    intro t ht
    have htext := encodeUtf8_of_decodeUtf8 ht
    obtain ⟨q, rfl⟩ := prefix_of_encodeUtf8 ⟨b, htext.symm⟩
    rw [encodeUtf8_append] at htext
    rw [← List.append_cancel_left htext, decodeUtf8_encodeUtf8] at hb
    cases hb

/-- A character of ASCII behind a text is decoded by itself. -/
theorem decodeUtf8_append_char {c : Char} (hc : c.toNat < 128) (b : Bytes) :
    decodeUtf8 (b ++ encodeUtf8 [c]) = (decodeUtf8 b).map (· ++ [c]) := by
  cases hb : decodeUtf8 b with
  | some t => exact decodeUtf8_append hb [c]
  | none =>
    rw [Option.map_none, Option.eq_none_iff_forall_ne_some]
    intro t ht
    have htext := encodeUtf8_of_decodeUtf8 ht
    rw [encodeUtf8_ascii hc] at htext
    rcases List.eq_nil_or_concat' t with rfl | ⟨t, d, rfl⟩
    · exact List.append_ne_nil_of_right_ne_nil b (List.cons_ne_nil _ _) htext.symm
    · -- the last byte is one of the last character, which it is then
      rw [encodeUtf8_append] at htext
      have hlast : UInt8.ofNat c.toNat ∈ encodeUtf8 [d] := by
        have hne := encodeUtf8_ne_nil d
        have hmem := List.getLast_mem hne
        have heq := congrArg List.getLast? htext
        rw [List.getLast?_append_of_ne_nil _ hne, List.getLast?_concat,
          List.getLast?_eq_some_getLast hne] at heq
        rwa [Option.some.inj heq] at hmem
      obtain rfl := eq_of_mem_encodeUtf8 hc hlast
      rw [encodeUtf8_ascii hc] at htext
      rw [← List.append_cancel_right htext, decodeUtf8_encodeUtf8] at hb
      cases hb

theorem decodeUtf8_append_right {q : List Char} (hq : ∀ c ∈ q, c.toNat < 128) (b : Bytes) :
    decodeUtf8 (b ++ encodeUtf8 q) = (decodeUtf8 b).map (· ++ q) := by
  induction q generalizing b with
  | nil =>
    have hnil : encodeUtf8 [] = [] := rfl
    rw [hnil, List.append_nil]
    simp
  | cons c q ih =>
    rw [encodeUtf8_cons, ← List.append_assoc, ih (fun d hd => hq d (List.mem_cons_of_mem _ hd)),
      decodeUtf8_append_char (hq c List.mem_cons_self), Option.map_map]
    congr 1
    funext t
    simp

theorem ascii_asciiText {w : Bytes} (hw : ∀ b ∈ w, b.toNat < 128) :
    ∀ c ∈ asciiText w, c.toNat < 128 := by
  intro c hc
  obtain ⟨b, hb, rfl⟩ := List.mem_map.mp hc
  rw [toNat_ofNat_byte (hw b hb)]
  exact hw b hb

/-- **ASCII around bytes is decoded by itself.** -/
theorem decodeUtf8_between {w w' : Bytes} (hw : ∀ b ∈ w, b.toNat < 128)
    (hw' : ∀ b ∈ w', b.toNat < 128) (b : Bytes) :
    decodeUtf8 (w ++ (b ++ w')) =
      (decodeUtf8 b).map fun t => asciiText w ++ (t ++ asciiText w') := by
  have hleft := decodeUtf8_append_left (asciiText w) (b ++ w')
  have hright := decodeUtf8_append_right (ascii_asciiText hw') b
  rw [encodeUtf8_asciiText hw] at hleft
  rw [encodeUtf8_asciiText hw'] at hright
  rw [hleft, hright, Option.map_map]
  rfl

/-! ### Spaces -/

theorem toNat_of_isSpaceByte {b : UInt8} (h : isSpaceByte b) :
    b.toNat = 32 ∨ 9 ≤ b.toNat ∧ b.toNat ≤ 13 := by
  simp only [isSpaceByte, Bool.or_eq_true, Bool.and_eq_true, decide_eq_true_eq, beq_iff_eq] at h
  rcases h with rfl | ⟨hlow, hhigh⟩
  · exact .inl rfl
  · exact .inr ⟨UInt8.le_iff_toNat_le.mp hlow, UInt8.le_iff_toNat_le.mp hhigh⟩

theorem ascii_of_isSpaceByte {w : Bytes} (hw : ∀ b ∈ w, isSpaceByte b) :
    ∀ b ∈ w, b.toNat < 128 := by
  intro b hb
  have := toNat_of_isSpaceByte (hw b hb)
  omega

/-- What is stripped from bytes is stripped from their text. -/
theorem spaces_asciiText {w : Bytes} (hw : ∀ b ∈ w, isSpaceByte b) : Spaces (asciiText w) := by
  intro c hc
  obtain ⟨b, hb, rfl⟩ := List.mem_map.mp hc
  have hnat := toNat_of_isSpaceByte (hw b hb)
  have hchar := toNat_ofNat_byte (ascii_of_isSpaceByte hw b hb)
  simp only [isSpace, hchar, Bool.or_eq_true, Bool.and_eq_true, decide_eq_true_eq, beq_iff_eq]
  omega

/-- A space that JSON knows. -/
theorem isBlankChar_ofNat_byte {b : UInt8} (hb : isSpaceByte b) :
    Json.isBlankChar (Char.ofNat b.toNat) = true ↔ b ≠ 11 ∧ b ≠ 12 := by
  have hnat := toNat_of_isSpaceByte hb
  have hne : b ≠ 11 ∧ b ≠ 12 ↔ b.toNat ≠ 11 ∧ b.toNat ≠ 12 :=
    and_congr (not_congr UInt8.toNat_inj.symm) (not_congr UInt8.toNat_inj.symm)
  rw [hne]
  generalize b.toNat = n at hnat
  rcases hnat with rfl | ⟨hlow, hhigh⟩
  · decide
  · interval_cases n <;> decide

/-- A blank of JSON is stripped. -/
theorem isSpaceByte_of_isBlankChar {c : Char} (hc : Json.isBlankChar c = true) :
    ∃ x, encodeUtf8 [c] = [x] ∧ isSpaceByte x = true := by
  simp only [Json.isBlankChar, Bool.or_eq_true, beq_iff_eq] at hc
  rcases hc with ((rfl | rfl) | rfl) | rfl
  · exact ⟨32, rfl, rfl⟩
  · exact ⟨9, rfl, rfl⟩
  · exact ⟨10, rfl, rfl⟩
  · exact ⟨13, rfl, rfl⟩

/-- The text of stripped bytes begins with no blank of JSON. -/
theorem exists_first_of_stripBytes {b : Bytes} (hne : stripBytes b ≠ []) {t : List Char}
    (ht : decodeUtf8 (stripBytes b) = some t) : ∃ c m, t = c :: m ∧ Json.isBlankChar c = false := by
  have hbytes := encodeUtf8_of_decodeUtf8 ht
  cases t with
  | nil => exact absurd hbytes.symm hne
  | cons c m =>
    refine ⟨c, m, rfl, Bool.eq_false_of_not_eq_true fun hc => ?_⟩
    obtain ⟨x, hx, hspace⟩ := isSpaceByte_of_isBlankChar hc
    rw [encodeUtf8_cons, hx] at hbytes
    rw [first_stripBytes hbytes.symm] at hspace
    cases hspace

/-- A byte that separates for `b.strip()` and not for JSON: a vertical tab or a form feed. -/
def isPageByte (b : UInt8) : Bool := b == 11 || b == 12

/-- The spaces are blanks of JSON when none of them is a vertical tab or a form feed. -/
theorem blanks_asciiText_iff {w : Bytes} (hw : ∀ b ∈ w, isSpaceByte b) :
    (∀ c ∈ asciiText w, Json.isBlankChar c = true) ↔ ∀ b ∈ w, isPageByte b = false := by
  rw [asciiText, List.forall_mem_map]
  refine forall₂_congr fun b hb => ?_
  rw [isBlankChar_ofNat_byte (hw b hb), isPageByte, Bool.or_eq_false_iff, beq_eq_false_iff_ne,
    beq_eq_false_iff_ne]

end Python
