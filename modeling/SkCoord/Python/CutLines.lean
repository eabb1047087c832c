import SkCoord.Python.ByteLines

/-!
# Lines with their ends

`cutLines` cuts a list behind `\n`, `\r` and `\r\n` and keeps each end beside its line.  It is the
common ground of three readings of one file: `splitlines` of bytes, with and without the ends, and
the lines of text mode (`byteLines_eq`, `byteLinesKeep_eq`, `fileLines_eq`).  The bytes of a text are
cut as the text is (`cutLines_encodeUtf8`).
-/

namespace Python

/-- A line, and the end that it had. -/
structure CutLine (α : Type*) where
  body : List α
  ending : List α
  deriving DecidableEq, Repr

namespace CutLine

variable {α β : Type*}

/-- The line with its end. -/
def kept (c : CutLine α) : List α := c.body ++ c.ending

/-- The line with what a translation makes of its two parts. -/
def map (f : List α → List β) (c : CutLine α) : CutLine β := ⟨f c.body, f c.ending⟩

/-- The line as text mode reads it. -/
def read (c : CutLine Char) : List Char := if c.ending = [] then c.body else c.body ++ ['\n']

end CutLine

/-- A symbol more at the beginning of the first line. -/
def consCut {α : Type*} (x : α) : List (CutLine α) → List (CutLine α)
  | [] => [⟨[x], []⟩]
  | c :: lines => ⟨x :: c.body, c.ending⟩ :: lines

section

variable {α : Type*}

theorem flatMap_kept_consCut (x : α) (lines : List (CutLine α)) :
    (consCut x lines).flatMap CutLine.kept = x :: lines.flatMap CutLine.kept := by
  cases lines <;> rfl

theorem forall_mem_consCut {P : CutLine α → Prop} {x : α} {lines : List (CutLine α)}
    (hone : P ⟨[x], []⟩) (hcons : ∀ c, P c → P ⟨x :: c.body, c.ending⟩)
    (h : ∀ c ∈ lines, P c) : ∀ c ∈ consCut x lines, P c := by
  cases lines with
  | nil => exact List.forall_mem_singleton.mpr hone
  | cons c lines =>
    rw [consCut, List.forall_mem_cons]
    rw [List.forall_mem_cons] at h
    exact ⟨hcons c h.1, h.2⟩

/-- Some symbols more at the beginning of the first line. -/
theorem foldr_consCut_cons (u : List α) (c : CutLine α) (lines : List (CutLine α)) :
    u.foldr consCut (c :: lines) = ⟨u ++ c.body, c.ending⟩ :: lines := by
  induction u with
  | nil => rfl
  | cons x u ih =>
    rw [List.foldr_cons, ih]
    rfl

theorem foldr_consCut_nil {u : List α} (hu : u ≠ []) : u.foldr consCut [] = [⟨u, []⟩] := by
  induction u with
  | nil => exact absurd rfl hu
  | cons x u ih =>
    cases u with
    | nil => rfl
    | cons y u =>
      rw [List.foldr_cons, ih (List.cons_ne_nil _ _)]
      rfl

end

section

variable {α : Type*} [DecidableEq α] (lf cr : α)

/-- The lines of a list: `cr`, `lf` and `cr lf` end one. -/
def cutLines : List α → List (CutLine α)
  | [] => []
  | [x] => if x = lf ∨ x = cr then [⟨[], [x]⟩] else [⟨[x], []⟩]
  | x :: y :: l =>
    if x = cr ∧ y = lf then ⟨[], [x, y]⟩ :: cutLines l
    else if x = lf ∨ x = cr then ⟨[], [x]⟩ :: cutLines (y :: l)
    else consCut x (cutLines (y :: l))

variable {lf cr} {x : α} {l : List α}

/-- An end of two symbols. -/
theorem cutLines_pair (l : List α) :
    cutLines lf cr (cr :: lf :: l) = ⟨[], [cr, lf]⟩ :: cutLines lf cr l := by
  rw [cutLines, if_pos ⟨rfl, rfl⟩]

/-- An end of one symbol. -/
theorem cutLines_end (hx : x = lf ∨ x = cr) (hpair : x = cr → l.head? ≠ some lf) :
    cutLines lf cr (x :: l) = ⟨[], [x]⟩ :: cutLines lf cr l := by
  cases l with
  | nil =>
    show cutLines lf cr [x] = [⟨[], [x]⟩]
    rw [cutLines, if_pos hx]
  | cons y l => rw [cutLines, if_neg fun h => hpair h.1 (congrArg some h.2), if_pos hx]

/-- A symbol of a line. -/
theorem cutLines_cons (hx : ¬(x = lf ∨ x = cr)) (l : List α) :
    cutLines lf cr (x :: l) = consCut x (cutLines lf cr l) := by
  cases l with
  | nil =>
    show cutLines lf cr [x] = [⟨[x], []⟩]
    rw [cutLines, if_neg hx]
  | cons y l => rw [cutLines, if_neg fun h => hx (.inr h.1), if_neg hx]

variable (lf cr) in
/-- A list is cut one end or one symbol after another. -/
theorem cut_induction {motive : List α → Prop} (nil : motive [])
    (pair : ∀ l, motive l → motive (cr :: lf :: l))
    (ending : ∀ x l, x = lf ∨ x = cr → (x = cr → l.head? ≠ some lf) → motive l → motive (x :: l))
    (cons : ∀ x l, ¬(x = lf ∨ x = cr) → motive l → motive (x :: l)) (l : List α) : motive l := by
  induction l using cutLines.induct lf cr with
  | case1 => exact nil
  | case2 x h => exact ending x [] h (fun _ => nofun) nil
  | case3 x h => exact cons x [] h nil
  | case4 x y l h ih =>
    rw [h.1, h.2]
    exact pair l ih
  | case5 x y l h hend ih =>
    exact ending x (y :: l) hend (fun hx hy => h ⟨hx, Option.some.inj hy⟩) ih
  | case6 x y l h hend ih => exact cons x (y :: l) hend ih

/-- Symbols of a line. -/
theorem cutLines_append {u : List α} (hu : ∀ x ∈ u, ¬(x = lf ∨ x = cr)) (l : List α) :
    cutLines lf cr (u ++ l) = u.foldr consCut (cutLines lf cr l) := by
  induction u with
  | nil => rfl
  | cons x u ih =>
    rw [List.cons_append, cutLines_cons (hu x List.mem_cons_self),
      ih fun y hy => hu y (List.mem_cons_of_mem _ hy)]
    rfl

/-- **Nothing is lost between the lines.** -/
theorem flatMap_kept_cutLines (l : List α) : (cutLines lf cr l).flatMap CutLine.kept = l := by
  induction l using cut_induction lf cr with
  | nil => rfl
  | pair l ih =>
    rw [cutLines_pair, List.flatMap_cons, ih]
    rfl
  | ending x l hx hpair ih =>
    rw [cutLines_end hx hpair, List.flatMap_cons, ih]
    rfl
  | cons x l hx ih => rw [cutLines_cons hx, flatMap_kept_consCut, ih]

/-- An end consists of the two symbols. -/
theorem ending_of_mem_cutLines (l : List α) :
    ∀ c ∈ cutLines lf cr l, ∀ x ∈ c.ending, x = lf ∨ x = cr := by
  induction l using cut_induction lf cr with
  | nil => exact fun c hc => absurd hc List.not_mem_nil
  | pair l ih =>
    rw [cutLines_pair, List.forall_mem_cons]
    refine ⟨List.forall_mem_cons.mpr ⟨.inr rfl, ?_⟩, ih⟩
    exact List.forall_mem_singleton.mpr (.inl rfl)
  | ending x l hx hpair ih =>
    rw [cutLines_end hx hpair, List.forall_mem_cons]
    exact ⟨List.forall_mem_singleton.mpr hx, ih⟩
  | cons x l hx ih =>
    rw [cutLines_cons hx]
    exact forall_mem_consCut (fun z hz => absurd hz List.not_mem_nil) (fun _ hc => hc) ih

/-- Behind an end the cut goes on as at the beginning, unless it is in the middle of `cr lf`. -/
theorem cutLines_append_of_closed {l m : List α} (hl : ∀ x ∈ l.getLast?, x = lf ∨ x = cr)
    (hm : m.head? ≠ some lf) :
    cutLines lf cr (l ++ m) = cutLines lf cr l ++ cutLines lf cr m := by
  have hrest : ∀ (x : α) (l : List α), l ≠ [] →
      (∀ y ∈ (x :: l).getLast?, y = lf ∨ y = cr) → ∀ y ∈ l.getLast?, y = lf ∨ y = cr := by
    intro x l hne h
    rwa [List.getLast?_cons_of_ne_nil hne] at h
  induction l using cut_induction lf cr with
  | nil => rfl
  | pair l ih =>
    rw [List.cons_append, List.cons_append, cutLines_pair, cutLines_pair, List.cons_append]
    by_cases hne : l = []
    · rw [hne]
      rfl
    · rw [ih (hrest lf l hne (hrest cr _ (List.cons_ne_nil _ _) hl))]
  | ending x l hx hpair ih =>
    by_cases hne : l = []
    · have hnil : ([] : List α).head? ≠ some lf := nofun
      rw [hne, List.singleton_append, cutLines_end hx fun _ => hm, cutLines_end hx fun _ => hnil]
      rfl
    · have hhead : (l ++ m).head? = l.head? := List.head?_append_of_ne_nil _ hne
      rw [List.cons_append, cutLines_end hx fun h => hhead ▸ hpair h, cutLines_end hx hpair,
        ih (hrest x l hne hl)]
      rfl
  | cons x l hx ih =>
    have hne : l ≠ [] := by
      rintro rfl
      exact hx (hl x rfl)
    have hcut : cutLines lf cr l ≠ [] := by
      intro hnil
      have hkept := @flatMap_kept_cutLines α _ lf cr l
      rw [hnil] at hkept
      exact hne hkept.symm
    rw [List.cons_append, cutLines_cons hx, cutLines_cons hx, ih (hrest x l hne hl)]
    cases hlines : cutLines lf cr l with
    | nil => exact absurd hlines hcut
    | cons c lines => rfl

end

/-! ### Three readings -/

/-- `b.splitlines(keepends=True)`. -/
def byteLinesKeep : Bytes → List Bytes
  | [] => []
  | [b] => [[b]]
  | b :: c :: l =>
    if b = 13 ∧ c = 10 then [b, c] :: byteLinesKeep l
    else if b = 10 ∨ b = 13 then [b] :: byteLinesKeep (c :: l)
    else consByte b (byteLinesKeep (c :: l))

theorem map_body_consCut (b : UInt8) (lines : List (CutLine UInt8)) :
    (consCut b lines).map CutLine.body = consByte b (lines.map CutLine.body) := by
  cases lines <;> rfl

theorem map_kept_consCut (b : UInt8) (lines : List (CutLine UInt8)) :
    (consCut b lines).map CutLine.kept = consByte b (lines.map CutLine.kept) := by
  cases lines <;> rfl

theorem map_read_consCut (c : Char) (lines : List (CutLine Char)) :
    (consCut c lines).map CutLine.read = consLine c (lines.map CutLine.read) := by
  cases lines with
  | nil => rfl
  | cons line lines =>
    show CutLine.read ⟨c :: line.body, line.ending⟩ :: lines.map CutLine.read =
      (c :: line.read) :: lines.map CutLine.read
    congr 1
    unfold CutLine.read
    split <;> rfl

theorem byteLines_eq (b : Bytes) : byteLines b = (cutLines 10 13 b).map CutLine.body := by
  induction b using byteLines.induct with
  | case1 => rfl
  | case2 b h =>
    rw [byteLines, cutLines, if_pos h, if_pos h]
    rfl
  | case3 b h =>
    rw [byteLines, cutLines, if_neg h, if_neg h]
    rfl
  | case4 b c l h ih =>
    rw [byteLines, cutLines, if_pos h, if_pos h, ih]
    rfl
  | case5 b c l h hend ih =>
    rw [byteLines, cutLines, if_neg h, if_neg h, if_pos hend, if_pos hend, ih]
    rfl
  | case6 b c l h hend ih =>
    rw [byteLines, cutLines, if_neg h, if_neg h, if_neg hend, if_neg hend, ih, map_body_consCut]

theorem byteLinesKeep_eq (b : Bytes) : byteLinesKeep b = (cutLines 10 13 b).map CutLine.kept := by
  induction b using byteLinesKeep.induct with
  | case1 => rfl
  | case2 b =>
    rw [byteLinesKeep, cutLines]
    split <;> rfl
  | case3 b c l h ih =>
    rw [byteLinesKeep, cutLines, if_pos h, if_pos h, ih]
    rfl
  | case4 b c l h hend ih =>
    rw [byteLinesKeep, cutLines, if_neg h, if_neg h, if_pos hend, if_pos hend, ih]
    rfl
  | case5 b c l h hend ih =>
    rw [byteLinesKeep, cutLines, if_neg h, if_neg h, if_neg hend, if_neg hend, ih,
      map_kept_consCut]

theorem fileLines_eq (text : List Char) :
    fileLines text = (cutLines '\n' '\r' text).map CutLine.read := by
  have hstep : ∀ (c : Char) (l : List Char), (c = '\r' → l.head? ≠ some '\n') →
      fileLines (c :: l) =
        if c = '\n' ∨ c = '\r' then ['\n'] :: fileLines l else consLine c (fileLines l) := by
    intro c l hpair
    rw [fileLines]
    rintro l' hc rfl
    exact hpair hc rfl
  induction text using cut_induction '\n' '\r' with
  | nil => rfl
  | pair l ih =>
    rw [fileLines, cutLines_pair, ih]
    rfl
  | ending c l hc hpair ih =>
    rw [hstep c l hpair, if_pos hc, cutLines_end hc hpair, ih]
    rfl
  | cons c l hc ih =>
    rw [hstep c l fun h => absurd (.inr h) hc, if_neg hc, cutLines_cons hc, ih, map_read_consCut]

/-! ### The line without an end -/

/-- Whether a byte ends a line. -/
def isLineEnd (b : UInt8) : Bool := b == 10 || b == 13

/-- The bytes up to the last line end. -/
def closedLines (b : Bytes) : Bytes := (b.reverse.dropWhile fun x => !isLineEnd x).reverse

/-- What stands behind the last line end. -/
def openLine (b : Bytes) : Bytes := (b.reverse.takeWhile fun x => !isLineEnd x).reverse

theorem closedLines_append_openLine (b : Bytes) : closedLines b ++ openLine b = b := by
  rw [closedLines, openLine, ← List.reverse_append, List.takeWhile_append_dropWhile,
    List.reverse_reverse]

theorem isLineEnd_eq_false_iff {b : UInt8} : isLineEnd b = false ↔ b ≠ 10 ∧ b ≠ 13 := by
  rw [isLineEnd, Bool.or_eq_false_iff, beq_eq_false_iff_ne, beq_eq_false_iff_ne]

theorem unbroken_openLine (b : Bytes) : UnbrokenBytes (openLine b) := by
  intro x hx
  have hend := List.mem_takeWhile_imp (List.mem_reverse.mp hx)
  exact isLineEnd_eq_false_iff.mp (Bool.not_eq_true' _ ▸ hend)

theorem closed_closedLines (b : Bytes) : ∀ x ∈ (closedLines b).getLast?, x = 10 ∨ x = 13 := by
  intro x hx
  rw [closedLines, List.getLast?_reverse] at hx
  have hend := List.head?_dropWhile_not (fun y => !isLineEnd y) b.reverse
  rw [Option.mem_def.mp hx] at hend
  have hx' : isLineEnd x = true := by simpa using hend
  simpa [isLineEnd] using hx'

/-- A part of a line has no end. -/
theorem openLine_of_unbroken {u : Bytes} (hu : UnbrokenBytes u) : openLine u = u := by
  have hall : u.reverse.takeWhile (fun x => !isLineEnd x) = u.reverse := by
    rw [List.takeWhile_eq_self_iff]
    intro x hx
    rw [isLineEnd_eq_false_iff.mpr (hu x (List.mem_reverse.mp hx))]
    rfl
  rw [openLine, hall, List.reverse_reverse]

theorem UnbrokenBytes.head? {u : Bytes} (hu : UnbrokenBytes u) : u.head? ≠ some 10 :=
  fun h => (hu 10 (List.mem_of_mem_head? h)).1 rfl

theorem byteLines_unbroken {u : Bytes} (hu : UnbrokenBytes u) (hne : u ≠ []) :
    byteLines u = [u] := by
  have hcut := cutLines_append (fun x hx => not_or.mpr (hu x hx)) ([] : Bytes)
  rw [List.append_nil] at hcut
  rw [byteLines_eq, hcut]
  show (u.foldr consCut []).map CutLine.body = [u]
  rw [foldr_consCut_nil hne]
  rfl

theorem byteLines_closedLines (b : Bytes) {m : Bytes} (hm : m.head? ≠ some 10) :
    byteLines (closedLines b ++ m) = byteLines (closedLines b) ++ byteLines m := by
  rw [byteLines_eq, cutLines_append_of_closed (closed_closedLines b) hm, List.map_append,
    ← byteLines_eq, ← byteLines_eq]

/-- The lines of a file are those with an end, and the one without, if something stands there. -/
theorem byteLines_eq_closedLines (b : Bytes) :
    byteLines b = byteLines (closedLines b) ++ if openLine b = [] then [] else [openLine b] := by
  conv_lhs => rw [← closedLines_append_openLine b]
  rw [byteLines_closedLines b (unbroken_openLine b).head?]
  congr 1
  split
  · rename_i h
    rw [h]
    rfl
  · rename_i h
    exact byteLines_unbroken (unbroken_openLine b) h

/-- **A line behind a file** is read together with the line that has no end. -/
theorem byteLines_append_line (b : Bytes) {line : Bytes} (hline : UnbrokenBytes line)
    (hne : line ≠ []) :
    byteLines (b ++ (line ++ [10])) = byteLines (closedLines b) ++ [openLine b ++ line] := by
  have hunbroken : UnbrokenBytes (openLine b ++ line) := by
    intro x hx
    exact (List.mem_append.mp hx).elim (unbroken_openLine b x) (hline x)
  have hhead : (openLine b ++ line ++ [10]).head? ≠ some 10 := by
    rw [List.head?_append_of_ne_nil _ (List.append_ne_nil_of_right_ne_nil _ hne)]
    exact hunbroken.head?
  have hb : b ++ (line ++ [10]) = closedLines b ++ (openLine b ++ line ++ [10]) := by
    rw [← List.append_assoc, ← List.append_assoc, ← List.append_assoc,
      closedLines_append_openLine]
  rw [hb, byteLines_closedLines b hhead, byteLines_line hunbroken []]
  rfl

/-! ### Encoded texts -/

/-- A line end has its byte, and the bytes of another character are no line ends. -/
theorem not_end_of_mem_encodeUtf8 {c : Char} (hc : ¬(c = '\n' ∨ c = '\r')) :
    ∀ b ∈ encodeUtf8 [c], ¬(b = 10 ∨ b = 13) := by
  rintro b hb (rfl | rfl)
  · exact hc (.inl (eq_newline_of_mem_encodeUtf8 hb))
  · exact hc (.inr (eq_of_mem_encodeUtf8 (by decide) hb))

theorem encodeUtf8_ne_nil (c : Char) : encodeUtf8 [c] ≠ [] := by
  intro h
  have hnil : [c] = [] := encodeUtf8_injective h
  exact absurd hnil (List.cons_ne_nil _ _)

/-- The bytes of a character more at the beginning of the first line. -/
theorem map_encodeUtf8_consCut (c : Char) (lines : List (CutLine Char)) :
    (consCut c lines).map (CutLine.map encodeUtf8) =
      (encodeUtf8 [c]).foldr consCut (lines.map (CutLine.map encodeUtf8)) := by
  cases lines with
  | nil =>
    rw [List.map_nil, foldr_consCut_nil (encodeUtf8_ne_nil c)]
    rfl
  | cons line lines =>
    rw [List.map_cons, foldr_consCut_cons]
    show (CutLine.mk (encodeUtf8 (c :: line.body)) (encodeUtf8 line.ending)) :: _ = _
    rw [encodeUtf8_cons]
    rfl

/-- The first byte of a text is a newline when its first character is. -/
theorem head?_encodeUtf8 {l : List Char} (h : (encodeUtf8 l).head? = some 10) :
    l.head? = some '\n' := by
  cases l with
  | nil => cases h
  | cons c l =>
    rw [encodeUtf8_cons, List.head?_append_of_ne_nil _ (encodeUtf8_ne_nil c)] at h
    exact congrArg some (eq_newline_of_mem_encodeUtf8 (List.mem_of_mem_head? h))

/-- **The bytes of a text are cut as the text is.** -/
theorem cutLines_encodeUtf8 (text : List Char) :
    cutLines 10 13 (encodeUtf8 text) =
      (cutLines '\n' '\r' text).map (CutLine.map encodeUtf8) := by
  have hlf : encodeUtf8 ['\n'] = [10] := rfl
  have hcr : encodeUtf8 ['\r'] = [13] := rfl
  induction text using cut_induction '\n' '\r' with
  | nil => rfl
  | pair l ih =>
    rw [encodeUtf8_cons, encodeUtf8_cons '\n', hlf, hcr, List.singleton_append,
      List.singleton_append, cutLines_pair, cutLines_pair, ih]
    rfl
  | ending c l hc hpair ih =>
    rw [encodeUtf8_cons, cutLines_end hc hpair, List.map_cons, ← ih]
    rcases hc with rfl | rfl
    · rw [hlf, List.singleton_append, cutLines_end (.inl rfl) fun h => absurd h (by decide)]
      rfl
    · rw [hcr, List.singleton_append,
        cutLines_end (.inr rfl) fun _ h => hpair rfl (head?_encodeUtf8 h)]
      rfl
  | cons c l hc ih =>
    rw [encodeUtf8_cons, cutLines_append (not_end_of_mem_encodeUtf8 hc), ih, cutLines_cons hc,
      map_encodeUtf8_consCut]

/-! ### Numbered lines -/

section

variable {α β : Type*}

/-- The numbers of the lines of which `P` holds. -/
def numbersOf (P : α → Bool) (l : List α) : List ℕ :=
  ((l.zipIdx 1).filter fun p => P p.1).map Prod.snd

theorem mem_numbersOf {P : α → Bool} {l : List α} {i : ℕ} :
    i ∈ numbersOf P l ↔ ∃ a, (a, i) ∈ l.zipIdx 1 ∧ P a = true := by
  rw [numbersOf, List.mem_map]
  constructor
  · rintro ⟨⟨a, j⟩, hmem, rfl⟩
    rw [List.mem_filter] at hmem
    exact ⟨a, hmem.1, hmem.2⟩
  · rintro ⟨a, hmem, ha⟩
    exact ⟨(a, i), List.mem_filter.mpr ⟨hmem, ha⟩, rfl⟩

/-- One number is that of one line. -/
theorem eq_of_mem_zipIdx {l : List α} {a b : α} {i : ℕ} (ha : (a, i) ∈ l.zipIdx 1)
    (hb : (b, i) ∈ l.zipIdx 1) : a = b := by
  rw [List.mk_mem_zipIdx_iff_le_and_getElem?_sub] at ha hb
  exact Option.some.inj (ha.2.symm.trans hb.2)

theorem exists_number {l : List α} {a : α} (ha : a ∈ l) : ∃ i, (a, i) ∈ l.zipIdx 1 := by
  have hmem : a ∈ (l.zipIdx 1).map Prod.fst := by rwa [List.zipIdx_map_fst]
  obtain ⟨⟨b, i⟩, hi, rfl⟩ := List.mem_map.mp hmem
  exact ⟨i, hi⟩

theorem mem_of_mem_zipIdx {l : List α} {a : α} {i : ℕ} (h : (a, i) ∈ l.zipIdx 1) : a ∈ l := by
  rw [← List.zipIdx_map_fst 1 l]
  exact List.mem_map_of_mem h

/-- **The same numbers are those of the same lines.** -/
theorem numbersOf_eq_iff {P Q : α → Bool} {l : List α} :
    numbersOf P l = numbersOf Q l ↔ ∀ a ∈ l, P a = Q a := by
  constructor
  · intro h a ha
    obtain ⟨i, hi⟩ := exists_number ha
    have hmem : ∀ R : α → Bool, i ∈ numbersOf R l ↔ R a = true := by
      intro R
      rw [mem_numbersOf]
      constructor
      · rintro ⟨b, hb, hR⟩
        rwa [eq_of_mem_zipIdx hi hb]
      · exact fun hR => ⟨a, hi, hR⟩
    rw [Bool.eq_iff_iff, ← hmem P, ← hmem Q, h]
  · intro h
    rw [numbersOf, numbersOf]
    congr 1
    exact List.filter_congr fun p hp => h p.1 (mem_of_mem_zipIdx hp)

theorem numbersOf_eq_nil_iff {P : α → Bool} {l : List α} :
    numbersOf P l = [] ↔ ∀ a ∈ l, P a = false := by
  have hnil : numbersOf (fun _ => false) l = [] := by
    rw [numbersOf, List.filter_false, List.map_nil]
  rw [← numbersOf_eq_iff, hnil]

theorem numbersOf_map (f : α → β) (P : β → Bool) (l : List α) :
    numbersOf P (l.map f) = numbersOf (fun a => P (f a)) l := by
  rw [numbersOf, List.zipIdx_map, List.filter_map, List.map_map]
  rfl

end

end Python
