import SkCoord.Python.JsonUtf8
import SkCoord.Python.StripBytes

/-!
# A JSON object as a line of bytes

`dumpsUtf8` escapes every control character, so what it writes is one line
(`unbroken_dumpsUtf8`), whatever texts the value holds: the line boundaries of Unicode are written as
they are and break no line of bytes.  An object opens and closes with a brace, so that nothing is
stripped from it, and behind the rest of another line it is no record (`recordText_dumpsUtf8`).
-/

namespace Python

/-- A text without control characters. -/
def Visible (l : List Char) : Prop := ∀ c ∈ l, 32 ≤ c.toNat

namespace Visible

variable {l m : List Char}

theorem nil : Visible [] := fun _ h => absurd h List.not_mem_nil

theorem cons {c : Char} (hc : 32 ≤ c.toNat) (h : Visible l) : Visible (c :: l) :=
  List.forall_mem_cons.mpr ⟨hc, h⟩

theorem append (hl : Visible l) (hm : Visible m) : Visible (l ++ m) :=
  List.forall_mem_append.mpr ⟨hl, hm⟩

theorem of_printable (h : Printable l) : Visible l := fun c hc => (h c hc).1

/-- What is not escaped is no control character. -/
theorem escapeRaw (c : Char) : Visible (escapeRaw c) := by
  unfold Python.escapeRaw
  split
  · rename_i e he
    have hkeys : ∀ p ∈ shortEscapes, 32 ≤ p.2.toNat := by decide
    have hmem := hkeys (c, e) (Assoc.mem_of_get? he)
    exact cons (by decide) (cons hmem nil)
  · split
    · rename_i hc
      exact of_printable (Printable.unicodeEscape (by omega))
    · rename_i hc
      exact cons (Nat.le_of_not_lt hc) nil

theorem quoteRaw (s : String) : Visible (quoteRaw s) := by
  have hbody : Visible (s.toList.flatMap Python.escapeRaw) := by
    intro d hd
    obtain ⟨c, -, hd⟩ := List.mem_flatMap.mp hd
    exact escapeRaw c d hd
  exact append (cons (by decide) hbody) (cons (by decide) nil)

/-- Bytes of a text without control characters are part of a line. -/
theorem unbroken (h : Visible l) : UnbrokenBytes (encodeUtf8 l) := by
  induction l with
  | nil => exact fun b hb => absurd hb List.not_mem_nil
  | cons c l ih =>
    obtain ⟨hc, hl⟩ := List.forall_mem_cons.mp h
    have hend : ¬(c = '\n' ∨ c = '\r') := by
      rintro (rfl | rfl)
      · exact absurd hc (by decide)
      · exact absurd hc (by decide)
    intro b hb
    rw [encodeUtf8_cons, List.mem_append] at hb
    rcases hb with hb | hb
    · exact not_or.mp (not_end_of_mem_encodeUtf8 hend b hb)
    · exact ih hl b hb

end Visible

namespace Json

variable (F : FloatText)

mutual

/-- **What is written holds no control character.** -/
theorem visible_dumpsUtf8 : ∀ v : Json, Visible (dumpsUtf8 F v)
  | null => .of_printable (printable_dumps F .compact null)
  | bool true => .of_printable (printable_dumps F .compact (bool true))
  | bool false => .of_printable (printable_dumps F .compact (bool false))
  | int i => .of_printable (printable_dumps F .compact (int i))
  | float q => .of_printable (printable_dumps F .compact (float q))
  | str s => Visible.quoteRaw s
  | arr [] => .of_printable (printable_dumps F .compact (arr []))
  | arr (v :: l) => ((visible_dumpsUtf8 v).cons (by decide)).append (visible_dumpsUtf8Elems l)
  | obj [] => .of_printable (printable_dumps F .compact (obj []))
  | obj ((k, v) :: d) =>
    (((Visible.quoteRaw k).cons (by decide)).append ((visible_dumpsUtf8 v).cons (by decide))).append
      (visible_dumpsUtf8Fields d)

theorem visible_dumpsUtf8Elems : ∀ l : List Json, Visible (dumpsUtf8Elems F l)
  | [] => .cons (by decide) .nil
  | v :: l => ((visible_dumpsUtf8 v).cons (by decide)).append (visible_dumpsUtf8Elems l)

theorem visible_dumpsUtf8Fields : ∀ d : List (String × Json), Visible (dumpsUtf8Fields F d)
  | [] => .cons (by decide) .nil
  | (k, v) :: d =>
    (((Visible.quoteRaw k).cons (by decide)).append ((visible_dumpsUtf8 v).cons (by decide))).append
      (visible_dumpsUtf8Fields d)

end

/-- **What is written is one line.** -/
theorem unbroken_dumpsUtf8 (v : Json) : UnbrokenBytes (encodeUtf8 (dumpsUtf8 F v)) :=
  (visible_dumpsUtf8 F v).unbroken

theorem exists_dumpsUtf8Fields (d : List (String × Json)) : ∃ l, dumpsUtf8Fields F d = l ++ ['}'] := by
  induction d with
  | nil => exact ⟨[], rfl⟩
  | cons p d ih =>
    obtain ⟨k, v⟩ := p
    obtain ⟨l, hl⟩ := ih
    refine ⟨',' :: quoteRaw k ++ ':' :: dumpsUtf8 F v ++ l, ?_⟩
    rw [dumpsUtf8Fields, hl, ← List.append_assoc]

/-- An object stands between braces. -/
theorem exists_dumpsUtf8_obj (d : Dict) : ∃ l, dumpsUtf8 F (obj d) = '{' :: (l ++ ['}']) := by
  cases d with
  | nil => exact ⟨[], rfl⟩
  | cons p d =>
    obtain ⟨k, v⟩ := p
    obtain ⟨l, hl⟩ := exists_dumpsUtf8Fields F d
    refine ⟨quoteRaw k ++ ':' :: dumpsUtf8 F v ++ l, ?_⟩
    rw [dumpsUtf8, hl, ← List.append_assoc]
    rfl

/-- Nothing is stripped from an object. -/
theorem stripBytes_spaces_dumpsUtf8 {w : Bytes} (hw : ∀ b ∈ w, isSpaceByte b) (d : Dict) :
    stripBytes (w ++ encodeUtf8 (dumpsUtf8 F (obj d))) = encodeUtf8 (dumpsUtf8 F (obj d)) := by
  obtain ⟨l, hl⟩ := exists_dumpsUtf8_obj F d
  have hopen : encodeUtf8 ['{'] = [123] := rfl
  have hclose : encodeUtf8 ['}'] = [125] := rfl
  have hbytes : encodeUtf8 (dumpsUtf8 F (obj d)) = 123 :: (encodeUtf8 l ++ [125]) := by
    rw [hl, encodeUtf8_cons, encodeUtf8_append, hopen, hclose]
    rfl
  have hstrip := @stripBytes_between w (encodeUtf8 (dumpsUtf8 F (obj d))) [] hw
    (fun b hb => absurd hb List.not_mem_nil) ⟨123, _, hbytes, by decide⟩
    ⟨123 :: encodeUtf8 l, 125, hbytes, by decide⟩
  rwa [List.append_nil] at hstrip

/-- The text of a dictionary whose first key opens with a letter. -/
theorem recordText_dumpsUtf8 {k : String} {v : Json} {d : Dict} {c : Char} {cs : List Char}
    (hk : k.toList = c :: cs) (hescape : escapeRaw c = [c]) (hc : Stray c) :
    RecordText F (dumpsUtf8 F (obj ((k, v) :: d))) where
  opens := by
    have hquote : quoteRaw k = '"' :: c :: (cs.flatMap escapeRaw ++ ['"']) := by
      rw [quoteRaw, hk, List.flatMap_cons, hescape]
      rfl
    refine ⟨c, cs.flatMap escapeRaw ++ ['"'] ++ ':' :: dumpsUtf8 F v ++ dumpsUtf8Fields F d, ?_, hc⟩
    rw [dumpsUtf8, hquote]
    rfl
  reads := by
    intro n w r hn h
    have hend : EndsNumber [] := fun c hc => nomatch hc
    have hread := parseValue_dumpsUtf8 F (obj ((k, v) :: d)) hn hend
    rw [List.append_nil] at hread
    cases hread.symm.trans h
    rfl

end Json

end Python
