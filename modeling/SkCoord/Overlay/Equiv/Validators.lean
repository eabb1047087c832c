import Mathlib
import SkCoord.Overlay.Bytes

/-!
# The three passes over a shard

`append`, `read_all` and `scan_overlay_records` agree on a line unless it is made of unusual
whitespace.  `read_all` strips a vertical tab or a form feed from a record, and no reader of JSON
takes one (`admits_stripBytes`); `append` skips a line that is blank for a text and not for bytes.
**`validators_agree_iff`** tells on which shards the three agree, and
**`scanShard_of_closed`** that a writer which is refused always has a line to select.
-/

namespace SkCoord

open Python

namespace EventModel

variable (M : EventModel)

/-- An event of a record, with the time at which it is validated. -/
def restamp (now : String) (d : Dict) (e : CardEvent) : CardEvent :=
  if "ts" ∈ Assoc.keys d then e else { e with ts := now }

theorem validate_of_some {now : String} (now' : String) {d : Dict} {e : CardEvent}
    (h : M.validate now (.obj d) = some e) :
    M.validate now' (.obj d) = some (restamp now' d e) := by
  unfold restamp
  split
  · rename_i hts
    exact M.stamped now' h hts
  · rename_i hts
    exact M.unstamped now' h hts

/-- The clock decides on nothing but the time of a record without one. -/
theorem validate_clock (now now' : String) (d : Dict) :
    M.validate now' (.obj d) = (M.validate now (.obj d)).map (restamp now' d) := by
  cases h : M.validate now (.obj d) with
  | some e => exact M.validate_of_some now' h
  | none =>
    cases h' : M.validate now' (.obj d) with
    | none => rfl
    | some e' => cases h.symm.trans (M.validate_of_some now h')

theorem validate_eq_none_of_not_obj (now : String) {v : Json} (hv : ∀ d, v ≠ .obj d) :
    M.validate now v = none := by
  cases h : M.validate now v with
  | none => rfl
  | some e =>
    obtain ⟨d, hd⟩ := M.object h
    exact absurd hd (hv d)

end EventModel

/-- The checks of an event do not look at its time. -/
theorem CardEvent.validate_restamp (env : Env) (now : String) (d : Dict) (e : CardEvent)
    (requireWriter : Bool) :
    (EventModel.restamp now d e).validate env requireWriter = e.validate env requireWriter := by
  unfold EventModel.restamp
  split <;> rfl

namespace CardEventLog

variable (E : OverlayEnv)

/-- Whether a line holds an event that the readers admit. -/
def admits (now : String) (line : Bytes) : Bool :=
  (admitted E.env (E.validateBytes now line)).isSome

/-- Whether a text holds an event that the readers admit. -/
def admitsText (now : String) (line : List Char) : Bool :=
  (admitted E.env (E.validateText now line)).isSome

/-- Whether a line is blank for `str.strip`. -/
def blankText (line : Bytes) : Bool :=
  match decodeUtf8 line with
  | some text => stripChars text = []
  | none => false

/-- Whether a vertical tab or a form feed stands at one of the ends of a line. -/
def pageFramed (line : Bytes) : Bool :=
  (leadingSpaces line ++ trailingSpaces line).any isPageByte

variable {E} {now : String}

/-! ### The clock -/

theorem admitted_map_restamp (env : Env) (now : String) (d : Dict) (line : OverlayLine) :
    admitted env (line.map (EventModel.restamp now d)) =
      (admitted env line).map (EventModel.restamp now d) := by
  cases line with
  | none => rfl
  | some e =>
    simp only [admitted, Option.map_some, Option.filter_some, CardEvent.validate_restamp]
    split <;> rfl

/-- **The clock closes no line.** -/
theorem admitsText_clock (now now' : String) (line : List Char) :
    admitsText E now' line = admitsText E now line := by
  unfold admitsText OverlayEnv.validateText
  cases Json.loads E.floats line with
  | none => rfl
  | some v =>
    by_cases hv : ∃ d, v = .obj d
    · obtain ⟨d, rfl⟩ := hv
      rw [Option.bind_some, Option.bind_some, E.model.validate_clock now now' d,
        admitted_map_restamp, Option.isSome_map]
    · have hv' : ∀ d, v ≠ .obj d := fun d hd => hv ⟨d, hd⟩
      rw [Option.bind_some, Option.bind_some, E.model.validate_eq_none_of_not_obj now hv',
        E.model.validate_eq_none_of_not_obj now' hv']

theorem admits_eq (line : Bytes) :
    admits E now line = ((decodeUtf8 line).map (admitsText E now)).getD false := by
  unfold admits OverlayEnv.validateBytes
  cases decodeUtf8 line <;> rfl

theorem admits_clock (now now' : String) (line : Bytes) :
    admits E now' line = admits E now line := by
  rw [admits_eq, admits_eq, funext (admitsText_clock now now')]

/-! ### Spaces around a record -/

/-- A record between spaces is validated exactly when the spaces are blanks of JSON. -/
theorem validateText_between {w w' : List Char} (hw : Spaces w) (hw' : Spaces w')
    (line : List Char) :
    E.validateText now (w ++ (line ++ w')) =
      if (∀ c ∈ w, Json.isBlankChar c = true) ∧ (∀ c ∈ w', Json.isBlankChar c = true)
      then E.validateText now line else none := by
  have hloads : Json.loads E.floats (w ++ (line ++ w')) =
      if (∀ c ∈ w, Json.isBlankChar c = true) ∧ (∀ c ∈ w', Json.isBlankChar c = true)
      then Json.loads E.floats line else none := by
    refine Option.ext fun v => ?_
    rw [Json.loads_between_iff hw hw']
    split
    · rename_i hblanks
      exact and_iff_left hblanks
    · rename_i hblanks
      exact iff_of_false (fun h => hblanks h.2) nofun
  unfold OverlayEnv.validateText
  rw [hloads]
  split <;> rfl

/-- A line end behind a text changes nothing. -/
theorem admitsText_append {w : List Char} (hw : ∀ c ∈ w, Json.isBlankChar c = true)
    (line : List Char) : admitsText E now (line ++ w) = admitsText E now line := by
  have hspaces : Spaces w := fun c hc => Json.isSpace_of_isBlankChar (hw c hc)
  have hnil : ∀ c ∈ ([] : List Char), Json.isBlankChar c = true :=
    fun c hc => absurd hc List.not_mem_nil
  have hbetween := @validateText_between E now [] w (fun c hc => absurd hc List.not_mem_nil) hspaces
    line
  rw [if_pos ⟨hnil, hw⟩, List.nil_append] at hbetween
  rw [admitsText, hbetween, admitsText]

theorem pageFramed_eq_false_iff {line : Bytes} :
    pageFramed line = false ↔ (∀ b ∈ leadingSpaces line, isPageByte b = false) ∧
      ∀ b ∈ trailingSpaces line, isPageByte b = false := by
  rw [pageFramed, List.any_eq_false, List.forall_mem_append]
  simp only [Bool.not_eq_true]

/-- **What stripping does to a line**: a record is admitted without its spaces, and with them unless
a vertical tab or a form feed is among them. -/
theorem admits_stripBytes (line : Bytes) :
    admits E now line = (admits E now (stripBytes line) && !pageFramed line) := by
  have hlead := @isSpaceByte_of_mem_leadingSpaces line
  have htrail := @isSpaceByte_of_mem_trailingSpaces line
  have hdecode : decodeUtf8 line = (decodeUtf8 (stripBytes line)).map fun t =>
      asciiText (leadingSpaces line) ++ (t ++ asciiText (trailingSpaces line)) := by
    rw [← decodeUtf8_between (ascii_of_isSpaceByte hlead) (ascii_of_isSpaceByte htrail),
      ← eq_strip_between]
  rw [admits_eq, admits_eq, hdecode]
  cases decodeUtf8 (stripBytes line) with
  | none => rfl
  | some t =>
    rw [Option.map_some, Option.map_some, Option.map_some, Option.getD_some, Option.getD_some,
      admitsText, validateText_between (spaces_asciiText hlead) (spaces_asciiText htrail)]
    by_cases hframed : pageFramed line = false
    · have hblanks := pageFramed_eq_false_iff.mp hframed
      rw [if_pos ⟨(blanks_asciiText_iff hlead).mpr hblanks.1,
        (blanks_asciiText_iff htrail).mpr hblanks.2⟩, hframed, Bool.not_false, Bool.and_true,
        admitsText]
    · rw [if_neg fun hblanks => hframed (pageFramed_eq_false_iff.mpr
        ⟨(blanks_asciiText_iff hlead).mp hblanks.1, (blanks_asciiText_iff htrail).mp hblanks.2⟩),
        Bool.eq_true_of_not_eq_false hframed, Bool.not_true, Bool.and_false]
      rfl

/-- A text of spaces holds no event. -/
theorem admitsText_of_spaces {line : List Char} (h : stripChars line = []) :
    admitsText E now line = false := by
  unfold admitsText OverlayEnv.validateText
  cases hloads : Json.loads E.floats line with
  | none => rfl
  | some v =>
    have hstrip := Json.loads_stripChars hloads
    rw [h] at hstrip
    cases hstrip

/-- A blank line holds no event. -/
theorem admits_of_blankText {line : Bytes} (h : blankText line = true) :
    admits E now line = false := by
  unfold blankText at h
  rw [admits_eq]
  cases hdecode : decodeUtf8 line with
  | none => rfl
  | some t =>
    rw [hdecode] at h
    exact admitsText_of_spaces (of_decide_eq_true h)

theorem stripChars_eq_nil_iff {l : List Char} : stripChars l = [] ↔ Spaces l := by
  constructor
  · intro h
    obtain ⟨w, w', hw, hw', hl⟩ := Json.exists_stripChars l
    rw [hl, h, List.nil_append]
    intro c hc
    exact (List.mem_append.mp hc).elim (hw c) (hw' c)
  · intro h
    rw [stripChars, List.dropWhile_eq_nil_iff.mpr h]
    rfl

/-- What is blank for bytes is blank for a text. -/
theorem blankText_of_stripBytes {line : Bytes} (h : stripBytes line = []) :
    blankText line = true := by
  have hspaces := stripBytes_eq_nil_iff.mp h
  have hdecode : decodeUtf8 line = some (asciiText line) := by
    have hbytes := encodeUtf8_asciiText (ascii_of_isSpaceByte hspaces)
    conv_lhs => rw [← hbytes]
    exact decodeUtf8_encodeUtf8 _
  rw [blankText, hdecode]
  exact decide_eq_true (stripChars_eq_nil_iff.mpr (spaces_asciiText hspaces))

/-! ### Line ends -/

theorem isSpaceByte_of_mem_ending {content : Bytes} {c : CutLine UInt8}
    (hc : c ∈ cutLines 10 13 content) : ∀ b ∈ c.ending, isSpaceByte b := by
  intro b hb
  rcases ending_of_mem_cutLines content c hc b hb with rfl | rfl <;> decide

/-- A line is blank as it is with its end. -/
theorem stripBytes_kept {content : Bytes} {c : CutLine UInt8} (hc : c ∈ cutLines 10 13 content) :
    stripBytes c.kept = [] ↔ stripBytes c.body = [] := by
  rw [stripBytes_eq_nil_iff, stripBytes_eq_nil_iff, CutLine.kept, List.forall_mem_append]
  exact and_iff_left (isSpaceByte_of_mem_ending hc)

/-- A line holds an event as it does with its end. -/
theorem admits_kept {content : Bytes} {c : CutLine UInt8} (hc : c ∈ cutLines 10 13 content) :
    admits E now c.kept = admits E now c.body := by
  have hspaces := isSpaceByte_of_mem_ending hc
  have hascii := ascii_of_isSpaceByte hspaces
  have hblanks : ∀ d ∈ asciiText c.ending, Json.isBlankChar d = true := by
    rw [blanks_asciiText_iff hspaces]
    intro b hb
    rcases ending_of_mem_cutLines content c hc b hb with rfl | rfl <;> rfl
  have hright := decodeUtf8_append_right (ascii_asciiText hascii) c.body
  rw [encodeUtf8_asciiText hascii] at hright
  rw [admits_eq, admits_eq, CutLine.kept, hright, Option.map_map]
  cases decodeUtf8 c.body with
  | none => rfl
  | some t => exact admitsText_append hblanks t

/-- The text of a line, as `append` reads it. -/
theorem blank_read (c : CutLine Char) : stripChars c.read = [] ↔ stripChars c.body = [] := by
  unfold CutLine.read
  split
  · exact Iff.rfl
  · rw [stripChars_newline]

theorem admitsText_read (c : CutLine Char) :
    admitsText E now c.read = admitsText E now c.body := by
  unfold CutLine.read
  split
  · rfl
  · exact admitsText_append (List.forall_mem_singleton.mpr rfl) c.body

/-! ### `append` -/

/-- Bytes are decoded when their lines are. -/
theorem decodeUtf8_isSome_of_kept {lines : List (CutLine UInt8)}
    (h : ∀ c ∈ lines, (decodeUtf8 c.body).isSome ∧ ∀ b ∈ c.ending, isSpaceByte b) :
    (decodeUtf8 (lines.flatMap CutLine.kept)).isSome := by
  induction lines with
  | nil => rfl
  | cons c lines ih =>
    rw [List.forall_mem_cons] at h
    obtain ⟨⟨hbody, hend⟩, hlines⟩ := h
    obtain ⟨t, ht⟩ := Option.isSome_iff_exists.mp hbody
    have hkept : c.kept = encodeUtf8 (t ++ asciiText c.ending) := by
      rw [encodeUtf8_append, encodeUtf8_of_decodeUtf8 ht,
        encodeUtf8_asciiText (ascii_of_isSpaceByte hend), CutLine.kept]
    rw [List.flatMap_cons, hkept, decodeUtf8_append_left, Option.isSome_map]
    exact ih hlines

theorem decodeUtf8_isSome_of_byteLines {content : Bytes}
    (h : ∀ line ∈ byteLines content, (decodeUtf8 line).isSome) : (decodeUtf8 content).isSome := by
  rw [byteLines_eq, List.forall_mem_map] at h
  have hkept := @decodeUtf8_isSome_of_kept (cutLines 10 13 content) fun c hc =>
    ⟨h c hc, isSpaceByte_of_mem_ending hc⟩
  rwa [flatMap_kept_cutLines] at hkept

/-- A line that is blank or holds an event is decoded. -/
theorem isSome_of_passed {line : Bytes} (h : blankText line = true ∨ admits E now line = true) :
    (decodeUtf8 line).isSome := by
  rw [blankText, admits_eq] at h
  cases hdecode : decodeUtf8 line with
  | none =>
    rw [hdecode] at h
    exact h.elim nofun nofun
  | some t => rfl

theorem requireLine_eq_ok {file : String} {p : List Char × ℕ} :
    requireLine E now file p = .ok () ↔ stripChars p.1 = [] ∨ admitsText E now p.1 = true := by
  unfold requireLine
  split
  · rename_i hblank
    exact iff_of_true rfl (.inl hblank)
  · rename_i hblank
    rw [or_iff_right hblank, admitsText]
    cases admitted E.env (E.validateText now p.1) with
    | none => exact iff_of_false nofun nofun
    | some e => exact iff_of_true rfl rfl

/-- **When `append` accepts a shard**: each line is blank for a text or holds an event. The code
decodes the whole file and cuts the text, where the condition cuts the bytes: the line ends are the
same. -/
theorem requireContent_isOk_iff (file : String) (content : Bytes) :
    (requireContent E now file content).isOk = true ↔
      ∀ line ∈ byteLines content, blankText line = true ∨ admits E now line = true := by
  cases hdecode : decodeUtf8 content with
  | none =>
    -- No text: the code raises, and some line of the bytes is no text either.
    have hraise : (requireContent E now file content).isOk = false := by
      unfold requireContent readText
      rw [hdecode]
      rfl
    rw [hraise]
    refine iff_of_false Bool.false_ne_true fun h => ?_
    have hsome := decodeUtf8_isSome_of_byteLines fun line hline => isSome_of_passed (h line hline)
    rw [hdecode] at hsome
    cases hsome
  | some text =>
    -- A text: the code checks its lines one after another.
    have hloop : requireContent E now file content =
        ((fileLines text).zipIdx 1).forM (requireLine E now file) := by
      unfold requireContent readText
      rw [hdecode]
      rfl
    -- One line, read as a text and as the bytes that encode it.
    have hlines : ∀ c : CutLine Char, (blankText (encodeUtf8 c.body) = true ∨
        admits E now (encodeUtf8 c.body) = true) ↔
          stripChars c.read = [] ∨ admitsText E now c.read = true := by
      intro c
      rw [blank_read, admitsText_read, blankText, admits_eq, decodeUtf8_encodeUtf8]
      exact or_congr decide_eq_true_iff Iff.rfl
    have hbytes : byteLines content =
        (cutLines '\n' '\r' text).map fun c => encodeUtf8 c.body := by
      rw [← encodeUtf8_of_decodeUtf8 hdecode, byteLines_eq, cutLines_encodeUtf8, List.map_map]
      rfl
    rw [hloop, isOk_iff, hbytes, List.forall_mem_map]
    -- The loop returns when no line of it raises.
    have hunit : (∃ u, ((fileLines text).zipIdx 1).forM (requireLine E now file) = .ok u) ↔
        ∀ line ∈ fileLines text, stripChars line = [] ∨ admitsText E now line = true := by
      constructor
      · rintro ⟨⟨⟩, h⟩ line hline
        obtain ⟨i, hi⟩ := exists_number hline
        exact requireLine_eq_ok.mp (forM_eq_ok.mp h (line, i) hi)
      · intro h
        exact ⟨(), forM_eq_ok.mpr fun p hp => requireLine_eq_ok.mpr
          (h p.1 (mem_of_mem_zipIdx hp))⟩
    rw [hunit, fileLines_eq, List.forall_mem_map]
    exact forall₂_congr fun c _ => (hlines c).symm

/-! ### `read_all` and `scan_overlay_records` -/

/-- Whether `read_all` rejects a line. -/
def rejectsLine (E : OverlayEnv) (now : String) (line : Bytes) : Bool :=
  stripBytes line ≠ [] && !admits E now (stripBytes line)

/-- Whether `scan_overlay_records` reports a line. -/
def reportsLine (E : OverlayEnv) (now : String) (line : Bytes) : Bool :=
  stripBytes line ≠ [] && !admits E now line

/-- **The lines that `read_all` rejects.** -/
theorem rejected_lines (file : String) (content : Bytes) :
    (readShard E now file content).rejected.map Rejected.line =
      numbersOf (rejectsLine E now) (byteLines content) := by
  have hsplit : numbersOf (rejectsLine E now) (byteLines content) =
      numbersOf (fun line => line ≠ [] && !admits E now line) ((byteLines content).map stripBytes) :=
    (numbersOf_map stripBytes (fun line : Bytes => line ≠ [] && !admits E now line) _).symm
  rw [hsplit, numbersOf, readShard, strippedLines, List.map_map, List.filter_filter]
  have hfun : (Rejected.line ∘ fun p : Bytes × ℕ =>
      ({ file, line := p.2, excerpt := p.1.take excerptChars } : Rejected)) = Prod.snd := rfl
  rw [hfun]
  congr 1
  refine List.filter_congr fun p _ => ?_
  rw [Bool.and_comm, admits, ← Option.not_isSome]

/-- What a loop keeps that passes some elements by. -/
theorem filterMap_ite {α β : Type*} (P : α → Bool) (f : α → β) (l : List α) :
    l.filterMap (fun a => if P a then some (f a) else none) = (l.filter P).map f := by
  induction l with
  | nil => rfl
  | cons a l ih =>
    by_cases ha : P a = true
    · rw [List.filterMap_cons, if_pos ha, ih, List.filter_cons_of_pos ha, List.map_cons]
    · rw [List.filterMap_cons, if_neg ha, ih, List.filter_cons_of_neg ha]

/-- A diagnostic names the line it is about. -/
theorem diagnoseOverlayLine_line (raw : Bytes) (file : String) (line : ℕ) :
    (diagnoseOverlayLine E now raw file line).map Diagnostic.line =
      if !admits E now raw then some line else none := by
  have hparsed : ((decodeUtf8 raw).bind (Json.loads E.floats)).bind (E.model.validate now) =
      E.validateBytes now raw := by
    unfold OverlayEnv.validateBytes OverlayEnv.validateText
    cases decodeUtf8 raw <;> rfl
  unfold diagnoseOverlayLine admits
  dsimp only
  rw [hparsed]
  cases admitted E.env (E.validateBytes now raw) <;> rfl

/-- **The lines that `scan_overlay_records` reports.** -/
theorem scanShard_lines (file : String) (content : Bytes) :
    (scanShard E now file content).map Diagnostic.line =
      numbersOf (reportsLine E now) (byteLines content) := by
  have hkept : numbersOf (reportsLine E now) (byteLines content) =
      numbersOf (reportsLine E now) (byteLinesKeep content) := by
    rw [byteLines_eq, byteLinesKeep_eq, numbersOf_map, numbersOf_map, numbersOf_eq_iff]
    intro c hc
    rw [reportsLine, reportsLine, admits_kept hc, decide_eq_decide.mpr (not_congr (stripBytes_kept hc))]
  have hline : ∀ p : Bytes × ℕ, ((diagnoseOverlayLine E now p.1 file p.2).map fun d =>
      { d with sourceSha256 := some (E.sha content) }).map Diagnostic.line =
        if !admits E now p.1 then some p.2 else none := by
    intro p
    rw [Option.map_map]
    exact diagnoseOverlayLine_line p.1 file p.2
  rw [hkept, scanShard, List.map_filterMap, funext hline, filterMap_ite, List.filter_filter, numbersOf]
  congr 1
  refine List.filter_congr fun p _ => ?_
  rw [reportsLine, Bool.and_comm]

/-! ### The three together -/

/-- The three passes agree on a shard, whatever the clock shows at each. -/
structure ValidatorsAgree (E : OverlayEnv) (now nowRead nowScan : String) (file : String)
    (content : Bytes) : Prop where
  read : (requireContent E now file content).isOk = true ↔
    (readShard E nowRead file content).rejected = []
  scan : (requireContent E now file content).isOk = true ↔ scanShard E nowScan file content = []
  lines : (readShard E nowRead file content).rejected.map Rejected.line =
    (scanShard E nowScan file content).map Diagnostic.line

/-- No unusual whitespace decides on a line: no vertical tab and no form feed stands at the ends of
a record, and where a line is blank for a text and not for bytes another line is damaged. -/
structure PlainlySpaced (E : OverlayEnv) (now : String) (content : Bytes) : Prop where
  framed : ∀ line ∈ byteLines content, admits E now (stripBytes line) = true →
    pageFramed line = false
  blank : (∃ line ∈ byteLines content, blankText line = true ∧ stripBytes line ≠ []) →
    ∃ line ∈ byteLines content, blankText line = false ∧ admits E now line = false

theorem rejectsLine_clock (now now' : String) (line : Bytes) :
    rejectsLine E now' line = rejectsLine E now line := by
  rw [rejectsLine, rejectsLine, admits_clock now now']

theorem reportsLine_clock (now now' : String) (line : Bytes) :
    reportsLine E now' line = reportsLine E now line := by
  rw [reportsLine, reportsLine, admits_clock now now']

theorem reportsLine_eq_false_iff {line : Bytes} :
    reportsLine E now line = false ↔ stripBytes line = [] ∨ admits E now line = true := by
  rw [reportsLine, Bool.and_eq_false_iff, Bool.not_eq_false', decide_eq_false_iff_not, not_not]

/-- `scan_overlay_records` reports nothing when each line is blank for bytes or holds an event. -/
theorem scanShard_eq_nil_iff (file : String) (content : Bytes) :
    scanShard E now file content = [] ↔
      ∀ line ∈ byteLines content, stripBytes line = [] ∨ admits E now line = true := by
  rw [← @List.map_eq_nil_iff _ _ Diagnostic.line, scanShard_lines, numbersOf_eq_nil_iff]
  exact forall₂_congr fun line _ => reportsLine_eq_false_iff

/-- **A writer that is refused has a line to select.** -/
theorem scanShard_of_closed {file : String} {content : Bytes} (nowScan : String)
    (h : (requireContent E now file content).isOk = false) :
    scanShard E nowScan file content ≠ [] := by
  intro hscan
  rw [scanShard_eq_nil_iff] at hscan
  have hok : (requireContent E now file content).isOk = true := by
    rw [requireContent_isOk_iff]
    intro line hline
    rw [← admits_clock now nowScan]
    exact (hscan line hline).imp_left blankText_of_stripBytes
  rw [hok] at h
  cases h

/-- The passes of the readers agree when no record stands in a vertical tab or a form feed. -/
theorem rejectsLine_eq_reportsLine_iff {line : Bytes} :
    rejectsLine E now line = reportsLine E now line ↔
      (admits E now (stripBytes line) = true → pageFramed line = false) := by
  have hempty : stripBytes line = [] → admits E now (stripBytes line) = false := by
    intro h
    rw [h]
    exact admits_of_blankText rfl
  rw [rejectsLine, reportsLine, admits_stripBytes line]
  by_cases hstrip : stripBytes line = []
  · rw [hempty hstrip]
    exact iff_of_true rfl nofun
  · rw [decide_eq_true hstrip, Bool.true_and, Bool.true_and]
    cases admits E now (stripBytes line) with
    | false => exact iff_of_true rfl nofun
    | true =>
      cases pageFramed line with
      | false => exact iff_of_true rfl fun _ => rfl
      | true => exact iff_of_false nofun fun h => nomatch h rfl

/-- **When the passes agree on a shard**: exactly when no unusual whitespace decides on a line. -/
theorem validators_agree_iff (E : OverlayEnv) (now nowRead nowScan : String) (file : String)
    (content : Bytes) :
    ValidatorsAgree E now nowRead nowScan file content ↔ PlainlySpaced E now content := by
  have hlines : (readShard E nowRead file content).rejected.map Rejected.line =
      (scanShard E nowScan file content).map Diagnostic.line ↔
        ∀ line ∈ byteLines content, admits E now (stripBytes line) = true →
          pageFramed line = false := by
    rw [rejected_lines, scanShard_lines, funext (rejectsLine_clock now nowRead),
      funext (reportsLine_clock now nowScan), numbersOf_eq_iff]
    exact forall₂_congr fun line _ => rejectsLine_eq_reportsLine_iff
  have hscan : scanShard E nowScan file content = [] ↔
      ∀ line ∈ byteLines content, stripBytes line = [] ∨ admits E now line = true := by
    rw [scanShard_eq_nil_iff, funext (admits_clock now nowScan)]
  constructor
  · intro h
    refine ⟨hlines.mp h.lines, ?_⟩
    rintro ⟨line, hline, hblank, hstrip⟩
    by_contra hdamaged
    -- all other lines pass, so `append` accepts what `scan_overlay_records` reports
    have hok : (requireContent E now file content).isOk = true := by
      rw [requireContent_isOk_iff]
      intro other hother
      by_contra hpass
      rw [not_or, Bool.not_eq_true, Bool.not_eq_true] at hpass
      exact hdamaged ⟨other, hother, hpass⟩
    rcases hscan.mp (h.scan.mp hok) line hline with hnil | hadmits
    · exact hstrip hnil
    · rw [admits_of_blankText hblank] at hadmits
      cases hadmits
  · intro h
    have hagree := hlines.mpr h.framed
    have hopen : (requireContent E now file content).isOk = true ↔
        scanShard E nowScan file content = [] := by
      constructor
      · intro hok
        rw [requireContent_isOk_iff] at hok
        rw [hscan]
        intro line hline
        refine (hok line hline).imp_left fun hblank => ?_
        by_contra hstrip
        obtain ⟨other, hother, hblank', hadmits'⟩ := h.blank ⟨line, hline, hblank, hstrip⟩
        rcases hok other hother with hpass | hpass
        · rw [hblank'] at hpass
          cases hpass
        · rw [hadmits'] at hpass
          cases hpass
      · intro hnil
        by_contra hclosed
        exact scanShard_of_closed nowScan (Bool.eq_false_of_not_eq_true hclosed) hnil
    refine ⟨hopen.trans ?_, hopen, hagree⟩
    rw [← @List.map_eq_nil_iff _ _ Rejected.line, hagree, List.map_eq_nil_iff]

/-- A host on which no number has a text. -/
def plainOverlay : OverlayEnv where
  env := { hostname := "h", writeEnabled := true, lineHash := fun _ => "", repr := fun _ => "" }
  floats := zeroFloats
  model := typedModel
  sha := fun _ => ""

/-- A line that is a no-break space is blank for `append` alone. -/
theorem no_break_space_divides : ¬ValidatorsAgree plainOverlay "" "" "" "h.jsonl" [0xC2, 0xA0, 0x0A] := by
  intro h
  have hlines : byteLines [0xC2, 0xA0, 0x0A] = [[0xC2, 0xA0]] := rfl
  have hspace : encodeUtf8 [Char.ofNat 0xA0] = [0xC2, 0xA0] := by decide
  have hblank : blankText [0xC2, 0xA0] = true := by
    rw [← hspace, blankText, decodeUtf8_encodeUtf8]
    decide
  have hok : (requireContent plainOverlay "" "h.jsonl" [0xC2, 0xA0, 0x0A]).isOk = true := by
    rw [requireContent_isOk_iff, hlines, List.forall_mem_singleton]
    exact .inl hblank
  have hscan := h.scan.mp hok
  rw [scanShard_eq_nil_iff, hlines, List.forall_mem_singleton] at hscan
  rcases hscan with hstrip | hadmits
  · exact absurd hstrip (by decide)
  · rw [admits_of_blankText hblank] at hadmits
    cases hadmits

end CardEventLog

end SkCoord
