import SkCoord.Python.JsonStrip

/-!
# Lines of bytes

A newline is one byte of UTF-8, and no part of another character.  So the bytes of a text are split
at their newlines as the text is, and what the pieces hold are the lines of the text.  `byteLines`
is `splitlines` of bytes, and `exists_prefix_of_encodeUtf8` tells what a write that stopped leaves
of an ASCII text.
-/

namespace Python

/-! ### The bytes of a character -/

theorem toNat_ofNat_of_lt {n : ℕ} (hn : n < 256) : (UInt8.ofNat n).toNat = n := by
  rw [UInt8.toNat_ofNat']
  exact Nat.mod_eq_of_lt hn

/-- A character of ASCII is one byte. -/
theorem encodeUtf8_ascii {c : Char} (hc : c.toNat < 128) :
    encodeUtf8 [c] = [UInt8.ofNat c.toNat] := by
  have hle : ¬127 < c.toNat := by omega
  simp [encodeUtf8, List.utf8Encode_singleton, String.utf8EncodeChar, hle]

/-- The bytes of another character are from 128 on. -/
theorem le_of_mem_encodeUtf8 {c : Char} (hc : 128 ≤ c.toNat) {b : UInt8}
    (h : b ∈ encodeUtf8 [c]) : 128 ≤ b.toNat := by
  have hmem : b ∈ String.utf8EncodeChar c := by
    simpa [encodeUtf8, List.utf8Encode_singleton] using h
  have hbyte : ∀ {n : ℕ}, 128 ≤ n → n < 256 → b = UInt8.ofNat n → 128 ≤ b.toNat := by
    rintro n hlow hhigh rfl
    rwa [toNat_ofNat_of_lt hhigh]
  unfold String.utf8EncodeChar at hmem
  dsimp only at hmem
  split at hmem
  · rename_i hone
    have hval : c.val.toNat = c.toNat := rfl
    omega
  · split at hmem
    · rcases List.mem_cons.mp hmem with h | hmem
      · exact hbyte (by omega) (by omega) h
      · exact hbyte (by omega) (by omega) (List.mem_singleton.mp hmem)
    · split at hmem
      · rcases List.mem_cons.mp hmem with h | hmem
        · exact hbyte (by omega) (by omega) h
        · rcases List.mem_cons.mp hmem with h | hmem
          · exact hbyte (by omega) (by omega) h
          · exact hbyte (by omega) (by omega) (List.mem_singleton.mp hmem)
      · rcases List.mem_cons.mp hmem with h | hmem
        · exact hbyte (by omega) (by omega) h
        · rcases List.mem_cons.mp hmem with h | hmem
          · exact hbyte (by omega) (by omega) h
          · rcases List.mem_cons.mp hmem with h | hmem
            · exact hbyte (by omega) (by omega) h
            · exact hbyte (by omega) (by omega) (List.mem_singleton.mp hmem)

/-- **A byte below 128 is a character of its own.** -/
theorem toNat_of_mem_encodeUtf8 {c : Char} {b : UInt8} (h : b ∈ encodeUtf8 [c])
    (hb : b.toNat < 128) : c.toNat = b.toNat := by
  by_cases hc : c.toNat < 128
  · rw [encodeUtf8_ascii hc, List.mem_singleton] at h
    rw [h, toNat_ofNat_of_lt (by omega)]
  · have := le_of_mem_encodeUtf8 (Nat.le_of_not_lt hc) h
    omega

/-- Only a character of ASCII has its byte. -/
theorem eq_of_mem_encodeUtf8 {c d : Char} (hd : d.toNat < 128)
    (h : UInt8.ofNat d.toNat ∈ encodeUtf8 [c]) : c = d := by
  have hbyte : (UInt8.ofNat d.toNat).toNat = d.toNat := toNat_ofNat_of_lt (by omega)
  have hc := toNat_of_mem_encodeUtf8 h (by omega)
  rw [hbyte] at hc
  exact Char.ext (UInt32.toNat_inj.mp hc)

/-- Only the newline has its byte. -/
theorem eq_newline_of_mem_encodeUtf8 {c : Char} (h : (10 : UInt8) ∈ encodeUtf8 [c]) : c = '\n' :=
  eq_of_mem_encodeUtf8 (by decide) h

theorem encodeUtf8_cons (c : Char) (l : List Char) :
    encodeUtf8 (c :: l) = encodeUtf8 [c] ++ encodeUtf8 l :=
  encodeUtf8_append [c] l

/-- A text without newlines has no such byte. -/
theorem ten_notMem_encodeUtf8 : ∀ {l : List Char}, '\n' ∉ l → (10 : UInt8) ∉ encodeUtf8 l
  | [], _ => List.not_mem_nil
  | c :: l, h => by
    rw [encodeUtf8_cons, List.mem_append]
    rintro (hc | hl)
    · exact h (eq_newline_of_mem_encodeUtf8 hc ▸ List.mem_cons_self)
    · exact ten_notMem_encodeUtf8 (fun hmem => h (List.mem_cons_of_mem _ hmem)) hl

/-! ### Splitting -/

section

variable {α : Type*} [BEq α] [LawfulBEq α] {x : α}

theorem splitOn_of_notMem {l : List α} (h : x ∉ l) : l.splitOn x = [l] := by
  rw [List.splitOn_eq_splitOnP]
  refine List.splitOnP_eq_singleton fun y hy => ?_
  rw [beq_eq_false_iff_ne]
  rintro rfl
  exact h hy

theorem splitOn_append_cons (l m : List α) :
    (l ++ x :: m).splitOn x = l.splitOn x ++ m.splitOn x := by
  simp only [List.splitOn_eq_splitOnP]
  exact List.splitOnP_append_cons l m (beq_self_eq_true x)

/-- A list is split from its first separator on. -/
theorem splitOn_induction {motive : List α → Prop} (whole : ∀ l, x ∉ l → motive l)
    (split : ∀ l m, x ∉ l → motive m → motive (l ++ x :: m)) (l : List α) : motive l := by
  induction hlength : l.length using Nat.strong_induction_on generalizing l with
  | _ n ih =>
    by_cases hx : x ∈ l
    · obtain ⟨p, q, rfl, hp⟩ := List.eq_append_cons_of_mem hx
      refine split p q hp (ih q.length ?_ q rfl)
      rw [← hlength, List.length_append, List.length_cons]
      omega
    · exact whole l hx

end

/-- **The bytes of a text are split as the text is.** -/
theorem splitOn_encodeUtf8 (text : List Char) :
    (encodeUtf8 text).splitOn 10 = (text.splitOn '\n').map encodeUtf8 := by
  have hnewline : encodeUtf8 ['\n'] = [10] := rfl
  induction text using splitOn_induction (x := '\n') with
  | whole l hl =>
    rw [splitOn_of_notMem hl, splitOn_of_notMem (ten_notMem_encodeUtf8 hl), List.map_singleton]
  | split l m hl ih =>
    rw [encodeUtf8_append, encodeUtf8_cons, hnewline, List.singleton_append, splitOn_append_cons,
      splitOn_append_cons, ih, List.map_append, splitOn_of_notMem hl,
      splitOn_of_notMem (ten_notMem_encodeUtf8 hl), List.map_singleton]

/-- A newline at the end of a text ends its last line, or is an empty line. -/
theorem splitlines_newline (l : List Char) :
    splitlines (l ++ ['\n']) = splitlines l ++ [[]] ∨
      l ≠ [] ∧ splitlines (l ++ ['\n']) = splitlines l := by
  induction l using splitlines.induct with
  | case1 => exact .inl rfl
  | case2 l ih =>
    rw [List.cons_append, List.cons_append, splitlines, splitlines]
    rcases ih with h | ⟨-, h⟩
    · exact .inl (congrArg _ h)
    · exact .inr ⟨List.cons_ne_nil _ _, congrArg _ h⟩
  | case3 c l hcr hbreak ih =>
    by_cases hl : c = '\r' ∧ l = []
    · rw [hl.1, hl.2]
      exact .inr ⟨List.cons_ne_nil _ _, rfl⟩
    · have hnext : ∀ l', c = '\r' → l ++ ['\n'] = '\n' :: l' → False := by
        intro l' hc heq
        cases l with
        | nil => exact hl ⟨hc, rfl⟩
        | cons e l => exact hcr l hc (by rw [(List.cons.inj heq).1])
      rw [List.cons_append, splitlines, splitlines, if_pos hbreak, if_pos hbreak]
      · rcases ih with h | ⟨-, h⟩
        · exact .inl (congrArg _ h)
        · exact .inr ⟨List.cons_ne_nil _ _, congrArg _ h⟩
      · exact hcr
      · exact hnext
  | case4 c l hcr hbreak ih =>
    have hc : isLineBreak c = false := Bool.eq_false_iff.mpr hbreak
    rw [List.cons_append, splitlines_cons hc, splitlines_cons hc]
    rcases ih with h | ⟨-, h⟩
    · rw [h]
      cases hlines : splitlines l with
      | nil => exact .inr ⟨List.cons_ne_nil _ _, rfl⟩
      | cons line lines => exact .inl rfl
    · rw [h]
      exact .inr ⟨List.cons_ne_nil _ _, rfl⟩

/-- **The lines of a text are those of its pieces**, the empty ones aside. -/
theorem flatMap_splitOn_splitlines {P : List Char → Bool} (hP : P [] = false) (text : List Char) :
    ((text.splitOn '\n').flatMap fun t => (splitlines t).filter P) = (splitlines text).filter P := by
  induction text using splitOn_induction (x := '\n') with
  | whole l hl => rw [splitOn_of_notMem hl, List.flatMap_singleton]
  | split l m hl ih =>
    rw [splitOn_append_cons, List.flatMap_append, ih, splitOn_of_notMem hl, List.flatMap_singleton,
      splitlines_append, List.filter_append]
    congr 1
    rcases splitlines_newline l with h | ⟨-, h⟩
    · rw [h, List.filter_append, List.filter_cons_of_neg (by rw [hP]; exact Bool.false_ne_true),
        List.filter_nil, List.append_nil]
    · rw [h]

/-- A line of spaces is no JSON. -/
theorem Json.loads_of_spaces {F : FloatText} {line : List Char} (h : line.all isSpace = true) :
    Json.loads F line = none := by
  cases hloads : Json.loads F line with
  | none => rfl
  | some v =>
    have hdrop : line.dropWhile isSpace = [] :=
      List.dropWhile_eq_nil_iff.mpr fun c hc => List.all_eq_true.mp h c hc
    have hstrip : stripChars line = [] := by
      rw [stripChars, hdrop]
      rfl
    have hempty : Json.loads F [] = none := rfl
    have hread := Json.loads_stripChars hloads
    rw [hstrip, hempty] at hread
    cases hread

/-! ### `splitlines` of bytes -/

/-- A byte more at the beginning of the first line. -/
def consByte (b : UInt8) : List Bytes → List Bytes
  | [] => [[b]]
  | line :: lines => (b :: line) :: lines

/-- `b.splitlines()`. -/
def byteLines : Bytes → List Bytes
  | [] => []
  | [b] => if b = 10 ∨ b = 13 then [[]] else [[b]]
  | b :: c :: l =>
    if b = 13 ∧ c = 10 then [] :: byteLines l
    else if b = 10 ∨ b = 13 then [] :: byteLines (c :: l)
    else consByte b (byteLines (c :: l))

/-- `b.rsplit(b"\n", 1)[0]`: what stands before the last newline, or everything. -/
def beforeLastNewline (b : Bytes) : Bytes :=
  match b.reverse.dropWhile (· ≠ 10) with
  | [] => b
  | _ :: before => before.reverse

/-- A part of a line of bytes. -/
def UnbrokenBytes (line : Bytes) : Prop := ∀ b ∈ line, b ≠ 10 ∧ b ≠ 13

theorem byteLines_line {line : Bytes} (h : UnbrokenBytes line) (rest : Bytes) :
    byteLines (line ++ 10 :: rest) = line :: byteLines rest := by
  induction line with
  | nil =>
    cases rest with
    | nil => rfl
    | cons c rest => rfl
  | cons b line ih =>
    have hb := h b List.mem_cons_self
    have ih' := ih fun c hc => h c (List.mem_cons_of_mem _ hc)
    cases hl : line ++ 10 :: rest with
    | nil => exact absurd hl (List.append_ne_nil_of_right_ne_nil _ (List.cons_ne_nil _ _))
    | cons c l =>
      rw [hl] at ih'
      rw [List.cons_append, hl, byteLines, if_neg (fun hcr => hb.2 hcr.1),
        if_neg (not_or.mpr hb), ih']
      rfl

/-- Lines of bytes, each with a newline behind it. -/
def unlinesBytes (lines : List Bytes) : Bytes := lines.flatMap (· ++ [10])

theorem byteLines_unlines {lines : List Bytes} (h : ∀ line ∈ lines, UnbrokenBytes line) :
    byteLines (unlinesBytes lines) = lines := by
  induction lines with
  | nil => rfl
  | cons line lines ih =>
    show byteLines ((line ++ [10]) ++ unlinesBytes lines) = _
    rw [List.append_assoc, List.singleton_append, byteLines_line (h line List.mem_cons_self),
      ih fun l hl => h l (List.mem_cons_of_mem _ hl)]

theorem beforeLastNewline_of_notMem {b : Bytes} (h : (10 : UInt8) ∉ b) :
    beforeLastNewline b = b := by
  have hdrop : b.reverse.dropWhile (· ≠ 10) = [] := by
    rw [List.dropWhile_eq_nil_iff]
    intro c hc
    refine decide_eq_true ?_
    rintro rfl
    exact h (List.mem_reverse.mp hc)
  rw [beforeLastNewline, hdrop]

theorem beforeLastNewline_append {b p : Bytes} (h : (10 : UInt8) ∉ p) :
    beforeLastNewline (b ++ 10 :: p) = b := by
  have hall : ∀ c ∈ p.reverse, decide (c ≠ 10) = true := by
    intro c hc
    refine decide_eq_true ?_
    rintro rfl
    exact h (List.mem_reverse.mp hc)
  have hdrop : (b ++ 10 :: p).reverse.dropWhile (· ≠ 10) = 10 :: b.reverse := by
    rw [List.reverse_append, List.reverse_cons, List.append_assoc,
      List.dropWhile_append_of_pos hall]
    rfl
  rw [beforeLastNewline, hdrop]
  exact List.reverse_reverse b

/-! ### ASCII -/

theorem length_encodeUtf8_printable {c : Char} (hc : IsPrintable c) :
    (encodeUtf8 [c]).length = 1 := by
  have h : Printable [c] := fun d hd => List.mem_singleton.mp hd ▸ hc
  exact length_encodeUtf8 h

/-- The beginning of the bytes of an ASCII text are the bytes of its beginning. -/
theorem exists_prefix_of_encodeUtf8 : ∀ {s : List Char} {p : Bytes}, Printable s →
    p <+: encodeUtf8 s → ∃ q, q <+: s ∧ p = encodeUtf8 q
  | [], p, _, h => ⟨[], List.prefix_rfl, List.prefix_nil.mp h⟩
  | c :: s, [], _, _ => ⟨[], List.nil_prefix, rfl⟩
  | c :: s, b :: p, hs, h => by
    obtain ⟨d, hd⟩ := List.length_eq_one_iff.mp
      (length_encodeUtf8_printable (hs c List.mem_cons_self))
    rw [encodeUtf8_cons, hd, List.singleton_append, List.cons_prefix_cons] at h
    obtain ⟨q, hq, rfl⟩ :=
      exists_prefix_of_encodeUtf8 (fun e he => hs e (List.mem_cons_of_mem _ he)) h.2
    refine ⟨c :: q, List.cons_prefix_cons.mpr ⟨rfl, hq⟩, ?_⟩
    rw [encodeUtf8_cons c q, hd, h.1]
    rfl

/-- The bytes of an ASCII text are part of a line. -/
theorem unbroken_encodeUtf8 {s : List Char} (hs : Printable s) : UnbrokenBytes (encodeUtf8 s) := by
  induction s with
  | nil => exact fun b hb => absurd hb List.not_mem_nil
  | cons c s ih =>
    intro b hb
    rw [encodeUtf8_cons, List.mem_append] at hb
    rcases hb with hb | hb
    · have hc := hs c List.mem_cons_self
      refine ⟨?_, ?_⟩
      · rintro rfl
        rw [eq_newline_of_mem_encodeUtf8 hb] at hc
        exact absurd hc (by decide)
      · rintro rfl
        have hcr : c = '\r' := eq_of_mem_encodeUtf8 (by decide) hb
        rw [hcr] at hc
        exact absurd hc (by decide)
    · exact ih (fun e he => hs e (List.mem_cons_of_mem _ he)) b hb

end Python
