import SkCoord.CardStore.LogFile
import SkCoord.CardStore.Equiv.Interleaving
import SkCoord.Log.Chain

/-!
# A log that cannot be edited

`readLines_accepts`: what the reader accepts is a hash chain.  `linked_iff`: a log is linked exactly
when every call left its link as it was.  `tamper_evident` puts the two together, and
`readLines_eventLines` says that the logs of `Store` are these files.
-/

namespace SkCoord

open Python

variable {env : Env} {E : FileEnv} {cardId name : String}

/-- The digest that a line names. -/
def lineLink (E : FileEnv) (line : List Char) : Option String :=
  match Json.loads E.floats line with
  | some (.obj e) =>
    match Dict.get e "prev_hash" with
    | .str h => if h = "" then none else some h
    | _ => none
  | _ => none

/-! ### What the reader accepts -/

theorem checkChain_ok_iff {prev : String} {e : Event} :
    Store.checkChain env cardId name prev e = .ok () ↔
      ∀ h, Dict.get e "prev_hash" = .str h → h = "" ∨ h = prev := by
  unfold Store.checkChain
  split
  · rename_i h heq
    rw [heq]
    split
    · rename_i hbad
      refine ⟨fun hok => by simp at hok, fun hall => ?_⟩
      exact absurd (hall h rfl) (not_or.mpr hbad)
    · rename_i hgood
      refine ⟨fun _ h' heq' => ?_, fun _ => rfl⟩
      cases heq'
      exact Decidable.or_iff_not_imp_left.mpr fun hne =>
        Decidable.of_not_not fun hprev => hgood ⟨hne, hprev⟩
  · rename_i hno
    exact ⟨fun _ h heq => absurd heq (hno h), fun _ => rfl⟩

/-- The hash before a line: that of the line before, or none. -/
def hashOf (E : FileEnv) (before : Option (List Char)) : String :=
  (before.map E.lineHash).getD ""

theorem lineLink_of_checkChain {line : List Char} {e : Event} {before : Option (List Char)}
    (hload : Json.loads E.floats line = some (.obj e))
    (hcheck : Store.checkChain env cardId name (hashOf E before) e = .ok ()) :
    ∀ d ∈ lineLink E line, ∃ b ∈ before, d = E.lineHash b := by
  intro d hd
  rw [lineLink, hload] at hd
  dsimp only at hd
  split at hd
  · rename_i h hget
    split at hd
    · cases hd
    · rename_i hne
      cases hd
      have hprev : d = hashOf E before := (checkChain_ok_iff.mp hcheck d hget).resolve_left hne
      cases before with
      | none => exact absurd hprev hne
      | some b => exact ⟨b, rfl, hprev⟩
  · cases hd

/-- **What the reader accepts** is a hash chain. -/
theorem readLines_accepts : ∀ {lines : List (List Char)} {before : Option (List Char)}
    {events : List Event}, readLines env E cardId name (hashOf E before) lines = .ok events →
      Chain.Accepts E.lineHash (lineLink E) before ((lines.map stripChars).filter (· ≠ []))
  | [], _, _, _ => trivial
  | line :: lines, before, events, h => by
    rw [readLines] at h
    rw [List.map_cons]
    split at h
    · rename_i hblank
      rw [List.filter_cons_of_neg (by simpa using hblank)]
      exact readLines_accepts h
    · rename_i hline
      rw [List.filter_cons_of_pos (by simpa using hline)]
      split at h
      · cases h
      · rename_i e hload
        obtain ⟨⟨⟩, hcheck, h⟩ := bind_eq_ok.mp h
        obtain ⟨rest, hrest, -⟩ := bind_eq_ok.mp h
        refine ⟨lineLink_of_checkChain hload hcheck, ?_⟩
        exact @readLines_accepts lines (some (stripChars line)) rest hrest
      · cases h

/-- Lines of objects that are a hash chain are accepted. -/
theorem readLines_of_accepts : ∀ {lines : List (List Char)} {before : Option (List Char)},
    (∀ line ∈ lines, IsLine line ∧ ∃ e, Json.loads E.floats line = some (.obj e)) →
      Chain.Accepts E.lineHash (lineLink E) before lines →
        ∃ events, readLines env E cardId name (hashOf E before) lines = .ok events
  | [], _, _, _ => ⟨[], rfl⟩
  | line :: lines, before, hlines, h => by
    obtain ⟨hline, e, hload⟩ := hlines line List.mem_cons_self
    obtain ⟨rest, hrest⟩ := @readLines_of_accepts lines (some line)
      (fun l hl => hlines l (List.mem_cons_of_mem _ hl)) h.2
    have hcheck : Store.checkChain env cardId name (hashOf E before) e = .ok () := by
      refine checkChain_ok_iff.mpr fun d hget => ?_
      by_cases hd : d = ""
      · exact Or.inl hd
      · right
        have hlink : lineLink E line = some d := by
          rw [lineLink, hload]
          dsimp only
          rw [hget]
          exact if_neg hd
        obtain ⟨b, hb, hdb⟩ := h.1 d hlink
        rw [hdb, hashOf, Option.mem_def.mp hb]
        rfl
    refine ⟨e :: rest, ?_⟩
    rw [readLines, hline.stripped, if_neg hline.ne_nil, hload]
    exact bind_eq_ok.mpr ⟨(), hcheck, bind_eq_ok.mpr ⟨rest, hrest, rfl⟩⟩

/-! ### The file of a run -/

/-- The lines of events. -/
def eventLines (E : FileEnv) (events : List Event) : List (List Char) := events.map (eventLine E)

/-- The text is that of events that a call has written, one on each line, and each of them a
dictionary that Python can hold. -/
structure IsLog (E : FileEnv) (text : List Char) (events : List Event) : Prop where
  text_eq : text = unlines (eventLines E events)
  wellFormed : ∀ e ∈ events, (Json.obj e).WellFormed E.floats

theorem isLine_eventLine (e : Event) : IsLine (eventLine E e) := isLine_dumps _ _ _

theorem isLine_of_mem_eventLines {events : List Event} {line : List Char}
    (h : line ∈ eventLines E events) : IsLine line := by
  obtain ⟨e, -, rfl⟩ := List.mem_map.mp h
  exact isLine_eventLine e

theorem loads_eventLine {e : Event} (h : (Json.obj e).WellFormed E.floats) :
    Json.loads E.floats (eventLine E e) = some (.obj e) :=
  Json.loads_dumps E.floats .spaced h

namespace IsLog

variable {text : List Char} {events : List Event}

theorem nonBlankLines_eq (h : IsLog E text events) : nonBlankLines text = eventLines E events := by
  rw [h.text_eq, nonBlankLines_unlines fun _ hl => isLine_of_mem_eventLines hl]

theorem fileLines_eq (h : IsLog E text events) :
    fileLines text = (eventLines E events).map fun line => line ++ ['\n'] := by
  rw [h.text_eq, fileLines_unlines fun _ hl => isLine_of_mem_eventLines hl]

/-- The writer and the reader hash the same last line. -/
theorem lastHash_eq (h : IsLog E text events) :
    lastHash E (fileLines text) = hashOf E (nonBlankLines text).getLast? := by
  rw [lastHash, h.fileLines_eq, h.nonBlankLines_eq, hashOf, List.getLast?_map]
  cases hlast : (eventLines E events).getLast? with
  | none => rfl
  | some line =>
    have hline := isLine_of_mem_eventLines (List.mem_of_getLast? hlast)
    show E.lineHash (stripChars (line ++ ['\n'])) = E.lineHash line
    rw [stripChars_newline, hline.stripped]

end IsLog

/-- The event of a call behind a text. -/
def Append.event {E : FileEnv} (env : Env) (text : List Char) (a : Append E) : Event :=
  chainedEvent env.hostname (fileLines text).length (lastHash E (fileLines text)) a.action a.agent
    a.payload a.stamp

theorem Append.event_wellFormed (text : List Char) (a : Append E) :
    (Json.obj (a.event env text)).WellFormed E.floats := by
  refine Json.WellFormed.update a.wellFormed.2 ⟨?_, ?_⟩
  · show ["event_id", "ts", "writer", "node", "seq", "action", "prev_hash"].Nodup
    decide
  · exact ⟨trivial, trivial, trivial, trivial, trivial, trivial, trivial, trivial⟩

/-- The link of the event: what the payload says, or the hash of the last line. -/
theorem Append.get_prev_hash (text : List Char) (a : Append E) :
    Dict.get (a.event env text) "prev_hash" =
      (Assoc.get? a.payload "prev_hash").getD (.str (lastHash E (fileLines text))) := by
  rw [Dict.get, Append.event, chainedEvent, Assoc.get?_update _ _ _ a.wellFormed.1]
  cases Assoc.get? a.payload "prev_hash" <;> rfl

/-- What a call does to the file: nothing, or one more event. -/
theorem appended_cases (text : List Char) (a : Append E) :
    (appended env E text a = text ∧ replayedInFile E a.payload (fileLines text) ≠ .ok none) ∨
      (appended env E text a = text ++ eventLine E (a.event env text) ++ ['\n'] ∧
        replayedInFile E a.payload (fileLines text) = .ok none) := by
  unfold appended appendToFile
  dsimp only
  cases h : replayedInFile E a.payload (fileLines text) with
  | error e => exact Or.inl ⟨rfl, fun h => nomatch h⟩
  | ok replayed =>
    cases replayed with
    | some e => exact Or.inl ⟨rfl, fun h => nomatch h⟩
    | none => exact Or.inr ⟨rfl, rfl⟩

theorem IsLog.append {text : List Char} {events : List Event} (h : IsLog E text events)
    (a : Append E) : IsLog E (text ++ eventLine E (a.event env text) ++ ['\n'])
      (events ++ [a.event env text]) := by
  refine ⟨?_, fun e he => ?_⟩
  · rw [eventLines, List.map_append, List.map_singleton, unlines_concat]
    congr 2
    exact h.text_eq
  · rcases List.mem_append.mp he with he | he
    · exact h.wellFormed e he
    · rw [List.mem_singleton.mp he]
      exact a.event_wellFormed text

/-- A run writes a log. -/
theorem exists_isLog (appends : List (Append E)) : ∀ {text : List Char} {events : List Event},
    IsLog E text events → ∃ events', IsLog E (appends.foldl (appended env E) text) events' ∧
      events <+: events' := by
  induction appends with
  | nil => exact fun {_ events} h => ⟨events, h, List.prefix_rfl⟩
  | cons a appends ih =>
    intro text events h
    rw [List.foldl_cons]
    rcases @appended_cases env E text a with ⟨hsame, -⟩ | ⟨hmore, -⟩
    · rw [hsame]
      exact ih h
    · rw [hmore]
      obtain ⟨events', hlog, hpre⟩ := ih (h.append a)
      exact ⟨events', hlog, (List.prefix_append _ _).trans hpre⟩

theorem isLog_nil : IsLog E [] [] := ⟨rfl, fun _ h => nomatch h⟩

theorem isLog_writeLog (env : Env) (appends : List (Append E)) :
    ∃ events, IsLog E (writeLog env E appends) events := by
  obtain ⟨events, hlog, -⟩ := @exists_isLog env E appends [] [] isLog_nil
  exact ⟨events, hlog⟩

/-! ### Linked logs -/

/-- A log in which every event but the first names the digest of the line before, in the sense of
hash chains. -/
def LinkedLog (E : FileEnv) (text : List Char) : Prop :=
  Chain.Linked E.lineHash (lineLink E) (nonBlankLines text)

/-- A line names a digest exactly when its event does. -/
theorem lineLink_eventLine {e : Event} (he : (Json.obj e).WellFormed E.floats) {d : String}
    (hd : d ≠ "") : lineLink E (eventLine E e) = some d ↔ Dict.get e "prev_hash" = .str d := by
  rw [lineLink, loads_eventLine he]
  dsimp only
  split
  · rename_i h hget
    rw [hget]
    split
    · rename_i hempty
      exact ⟨fun heq => by simp at heq, fun heq => absurd (Json.str.inj heq ▸ hempty) hd⟩
    · exact ⟨fun heq => congrArg Json.str (Option.some.inj heq),
        fun heq => congrArg some (Json.str.inj heq)⟩
  · rename_i hno
    exact ⟨fun heq => by simp at heq, fun heq => absurd heq (hno d)⟩

theorem lineLink_of_empty {e : Event} (he : (Json.obj e).WellFormed E.floats)
    (hget : Dict.get e "prev_hash" = .str "") : lineLink E (eventLine E e) = none := by
  rw [lineLink, loads_eventLine he]
  dsimp only
  rw [hget]
  rfl

/-- A call that writes leaves the link as it is exactly when its line names the one before. -/
theorem keepsLink_iff {text : List Char} {events : List Event} (h : IsLog E text events)
    {a : Append E} (hwrites : replayedInFile E a.payload (fileLines text) = .ok none) :
    a.KeepsLink text ↔ ∀ line ∈ (nonBlankLines text).getLast?,
      lineLink E (eventLine E (a.event env text)) = some (E.lineHash line) := by
  have hlink : ∀ line ∈ (nonBlankLines text).getLast?,
      (lineLink E (eventLine E (a.event env text)) = some (E.lineHash line) ↔
        ∀ v, Assoc.get? a.payload "prev_hash" = some v → v = .str (E.lineHash line)) := by
    intro line hline
    have hhash : lastHash E (fileLines text) = E.lineHash line := by
      rw [h.lastHash_eq, Option.mem_def.mp hline]
      rfl
    have hne : E.lineHash line ≠ "" := E.hexdigest_ne _
    rw [lineLink_eventLine (a.event_wellFormed text) hne, a.get_prev_hash, hhash]
    cases Assoc.get? a.payload "prev_hash" with
    | none => exact ⟨fun _ v hv => (nomatch hv), fun _ => rfl⟩
    | some w => exact ⟨fun heq v hv => Option.some.inj hv ▸ heq, fun hall => hall w rfl⟩
  exact ⟨fun hkeeps line hline => (hlink line hline).mpr (hkeeps hwrites line hline),
    fun hall _ line hline => (hlink line hline).mp (hall line hline)⟩

/-- A log with one more line is linked when it was and the call left the link as it was. -/
theorem linkedLog_append_iff {text : List Char} {events : List Event} (h : IsLog E text events)
    {a : Append E} (hwrites : replayedInFile E a.payload (fileLines text) = .ok none) :
    LinkedLog E (text ++ eventLine E (a.event env text) ++ ['\n']) ↔
      LinkedLog E text ∧ a.KeepsLink text := by
  have hlines : nonBlankLines (text ++ eventLine E (a.event env text) ++ ['\n']) =
      nonBlankLines text ++ [eventLine E (a.event env text)] := by
    rw [(h.append a).nonBlankLines_eq, h.nonBlankLines_eq, eventLines, List.map_append]
    rfl
  rw [LinkedLog, Chain.Linked, hlines, List.isChain_append, @keepsLink_iff env E text events h a hwrites]
  constructor
  · rintro ⟨hlinked, -, hlast⟩
    exact ⟨hlinked, fun line hline => hlast line hline _ rfl⟩
  · rintro ⟨hlinked, hlast⟩
    refine ⟨hlinked, List.isChain_singleton _, fun line hline l hl => ?_⟩
    cases hl
    exact hlast line hline

/-- **A log is linked** exactly when every call left its link as it was. -/
theorem linked_iff (appends : List (Append E)) : ∀ {text : List Char} {events : List Event},
    IsLog E text events → LinkedLog E text →
      (LinkedLog E (appends.foldl (appended env E) text) ↔ AllKeepLink env E text appends) := by
  induction appends with
  | nil => exact fun _ hlinked => ⟨fun _ => trivial, fun _ => hlinked⟩
  | cons a appends ih =>
    intro text events h hlinked
    rw [List.foldl_cons, AllKeepLink]
    rcases @appended_cases env E text a with ⟨hsame, hreplay⟩ | ⟨hmore, hwrites⟩
    · -- the event was there already
      rw [hsame, ih h hlinked]
      exact ⟨fun hall => ⟨fun hnone => absurd hnone hreplay, hall⟩, And.right⟩
    · rw [hmore]
      have hlog := @IsLog.append env E text events h a
      have hiff := @linkedLog_append_iff env E text events h a hwrites
      constructor
      · intro hfinal
        -- the lines so far are the first of the final log
        obtain ⟨events', hlog', hpre⟩ := @exists_isLog env E appends _ _ hlog
        have hnow : LinkedLog E (text ++ eventLine E (a.event env text) ++ ['\n']) := by
          obtain ⟨later, rfl⟩ := hpre
          rw [LinkedLog, hlog'.nonBlankLines_eq, eventLines, List.map_append] at hfinal
          rw [LinkedLog, hlog.nonBlankLines_eq]
          exact (List.isChain_append.mp hfinal).1
        exact ⟨(hiff.mp hnow).2, (ih hlog hnow).mp hfinal⟩
      · rintro ⟨hkeeps, hall⟩
        exact (ih hlog (hiff.mpr ⟨hlinked, hkeeps⟩)).mpr hall

theorem linkedLog_nil : LinkedLog E [] := List.isChain_nil

/-! ### Tampering -/

/-- A log is read as its lines. -/
theorem IsLog.readFile_eq {text : List Char} {events : List Event} (h : IsLog E text events) :
    readFile env E cardId name (encodeUtf8 text) =
      readLines env E cardId name "" (eventLines E events) := by
  rw [readFile, decodeUtf8_encodeUtf8]
  dsimp only
  rw [h.text_eq, splitlines_unlines fun _ hl => (isLine_of_mem_eventLines hl).unbroken]

theorem readFile_accepts {raw : Bytes} {events : List Event} {t : List Char}
    (h : readFile env E cardId name raw = .ok events) (ht : decodeUtf8 raw = some t) :
    Chain.Accepts E.lineHash (lineLink E) none (nonBlankLines t) := by
  rw [readFile, ht] at h
  exact @readLines_accepts env E cardId name (splitlines t) none events h

/-- A log whose calls left the link to the line before as it was cannot be edited. -/
theorem evident_of_keeps (hsha : Function.Injective E.hexdigest) {appends : List (Append E)}
    (hkeeps : AllKeepLink env E [] appends) :
    TamperEvident env E cardId name (writeLog env E appends) := by
  have hdigest : Function.Injective E.lineHash := hsha.comp encodeUtf8_injective
  have hlinked : LinkedLog E (writeLog env E appends) :=
    (linked_iff appends isLog_nil linkedLog_nil).mpr hkeeps
  intro raw events t hread ht hlast
  exact Chain.suffix_of_linked hdigest hlinked (readFile_accepts hread ht) hlast

/-- A log that can be read and cannot be edited was written so. -/
theorem keeps_of_evident {appends : List (Append E)} {events : List Event}
    (hread : readFile env E cardId name (encodeUtf8 (writeLog env E appends)) = .ok events)
    (hevident : TamperEvident env E cardId name (writeLog env E appends)) :
    AllKeepLink env E [] appends := by
  have hiff : LinkedLog E (writeLog env E appends) ↔ AllKeepLink env E [] appends :=
    linked_iff appends isLog_nil linkedLog_nil
  obtain ⟨log, hlog⟩ := isLog_writeLog env appends
  refine hiff.mp (Chain.linked_of_suffix (readFile_accepts hread (decodeUtf8_encodeUtf8 _)) ?_)
  intro m hne hsuffix haccepts
  -- an end of the log is a file of its own
  have hlines : ∀ line ∈ m, IsLine line ∧ ∃ e, Json.loads E.floats line = some (.obj e) := by
    intro line hline
    have hmem := hsuffix.subset hline
    rw [hlog.nonBlankLines_eq] at hmem
    obtain ⟨e, he, rfl⟩ := List.mem_map.mp hmem
    exact ⟨isLine_eventLine e, e, loads_eventLine (hlog.wellFormed e he)⟩
  have hm : nonBlankLines (unlines m) = m := nonBlankLines_unlines fun l hl => (hlines l hl).1
  obtain ⟨cut, hcut⟩ := @readLines_of_accepts env E cardId name m none hlines haccepts
  have hraw : readFile env E cardId name (encodeUtf8 (unlines m)) = .ok cut := by
    rw [readFile, decodeUtf8_encodeUtf8]
    dsimp only
    rw [splitlines_unlines fun l hl => (hlines l hl).1.unbroken]
    exact hcut
  have hlast : m.getLast? = (nonBlankLines (writeLog env E appends)).getLast? := by
    obtain ⟨before, hbefore⟩ := hsuffix
    rw [← hbefore, List.getLast?_append_of_ne_nil _ hne]
  have hend := hevident _ cut (unlines m) hraw (decodeUtf8_encodeUtf8 _) (by rw [hm, hlast])
  rwa [hm] at hend

/-- **Tamper evidence.**  A log is tamper evident when every call left the link to the line before
as it was; and only then, if the log can be read at all. -/
theorem tamper_evident (hsha : Function.Injective E.hexdigest) (appends : List (Append E)) :
    (AllKeepLink env E [] appends → TamperEvident env E cardId name (writeLog env E appends)) ∧
      ((∃ events, readFile env E cardId name (encodeUtf8 (writeLog env E appends)) = .ok events) →
        TamperEvident env E cardId name (writeLog env E appends) → AllKeepLink env E [] appends) :=
  ⟨evident_of_keeps hsha, fun ⟨_, hread⟩ hevident => keeps_of_evident hread hevident⟩

/-- A digest that spells out what it is the digest of. -/
def spelled (b : Bytes) : String := String.ofList ('h' :: b.map fun u => Char.ofNat u.toNat)

theorem spelled_ne (b : Bytes) : spelled b ≠ "" := by
  intro h
  have hchars := congrArg String.toList h
  rw [spelled, String.toList_ofList] at hchars
  cases hchars

theorem spelled_injective : Function.Injective spelled := by
  intro b b' h
  have hchars := congrArg String.toList h
  rw [spelled, spelled, String.toList_ofList, String.toList_ofList] at hchars
  have hbyte : Function.Injective fun u : UInt8 => Char.ofNat u.toNat := by
    intro u v huv
    have hvalid : ∀ w : UInt8, (Char.ofNat w.toNat).toNat = w.toNat := fun w => by
      have hw := w.toNat_lt
      have hchar : w.toNat.isValidChar := Or.inl (by omega)
      rw [Char.ofNat, dif_pos hchar]
      rfl
    have hnat : u.toNat = v.toNat := by rw [← hvalid u, ← hvalid v]; exact congrArg Char.toNat huv
    exact UInt8.toNat_inj.mp hnat
  exact hbyte.list_map (List.cons.inj hchars).2

/-- Logs with that digest. -/
def spelledFile : FileEnv where
  floats := zeroFloats
  hexdigest := spelled
  hexdigest_ne := spelled_ne

theorem note_wellFormed (text : String) :
    (Json.obj [("text", .str text)]).WellFormed zeroFloats :=
  ⟨List.nodup_singleton _, trivial, trivial⟩

/-- A note. -/
def noteOf (text : String) : Append spelledFile where
  action := "note"
  agent := "bob"
  payload := [("text", .str text)]
  stamp := { eventId := text, ts := "2026-01-01" }
  wellFormed := note_wellFormed text

theorem notes_tamper_evident : TamperEvident hostEnv spelledFile "c1" "bob@host.jsonl"
    (writeLog hostEnv spelledFile [noteOf "first", noteOf "second"]) :=
  (tamper_evident spelled_injective [noteOf "first", noteOf "second"]).1
    ⟨fun _ _ _ _ h => (nomatch h), fun _ _ _ _ h => (nomatch h), trivial⟩

theorem unlinked_wellFormed :
    (Json.obj [("text", .str "second"), ("prev_hash", .str "")]).WellFormed zeroFloats :=
  ⟨by show ["text", "prev_hash"].Nodup; decide, trivial, trivial, trivial⟩

/-- A note with a link of its own. -/
def unlinkedNote : Append spelledFile where
  action := "note"
  agent := "bob"
  payload := [("text", .str "second"), ("prev_hash", .str "")]
  stamp := { eventId := "second", ts := "2026-01-01" }
  wellFormed := unlinked_wellFormed

/-- The payload of an event may overwrite its link: the line before can then be cut off. -/
theorem unlinked_note_cut : Function.Injective spelledFile.hexdigest ∧
    ¬TamperEvident hostEnv spelledFile "c1" "bob@host.jsonl"
      (writeLog hostEnv spelledFile [noteOf "first", unlinkedNote]) := by
  refine ⟨spelled_injective, fun hevident => ?_⟩
  set text := appended hostEnv spelledFile [] (noteOf "first") with htext
  have hfirst : IsLog spelledFile text [(noteOf "first").event hostEnv []] :=
    isLog_nil.append (noteOf "first")
  have hlog : IsLog spelledFile (writeLog hostEnv spelledFile [noteOf "first", unlinkedNote])
      [(noteOf "first").event hostEnv [], unlinkedNote.event hostEnv text] :=
    hfirst.append unlinkedNote
  -- neither line names another, so the file as it was written is read
  have hlink : ∀ e ∈ [(noteOf "first").event hostEnv [], unlinkedNote.event hostEnv text],
      lineLink spelledFile (eventLine spelledFile e) = none := by
    intro e he
    refine lineLink_of_empty (hlog.wellFormed e he) ?_
    rcases List.mem_pair.mp he with rfl | rfl <;> rfl
  obtain ⟨events, hread⟩ : ∃ events, readFile hostEnv spelledFile "c1" "bob@host.jsonl"
      (encodeUtf8 (writeLog hostEnv spelledFile [noteOf "first", unlinkedNote])) = .ok events := by
    rw [hlog.readFile_eq]
    refine @readLines_of_accepts hostEnv spelledFile "c1" "bob@host.jsonl" _ none ?_ ?_
    · intro line hline
      obtain ⟨e, he, rfl⟩ := List.mem_map.mp hline
      exact ⟨isLine_eventLine e, e, loads_eventLine (hlog.wellFormed e he)⟩
    · refine ⟨fun d hd => ?_, fun d hd => ?_, trivial⟩
      · exact nomatch (hlink _ List.mem_cons_self).symm.trans hd
      · exact nomatch (hlink _ (List.mem_cons_of_mem _ List.mem_cons_self)).symm.trans hd
  obtain ⟨-, hkeeps, -⟩ := keeps_of_evident hread hevident
  have hsame := hkeeps rfl _ (by rw [hfirst.nonBlankLines_eq]; rfl) _ rfl
  exact (spelledFile.hexdigest_ne _) (Json.str.inj hsame).symm

/-! ### The logs of a store -/

/-- The hashes of a store are those of the lines of its files. -/
def HashesLines (env : Env) (E : FileEnv) : Prop :=
  ∀ e, env.lineHash (.value (.obj e)) = E.lineHash (eventLine E e)

/-- The lines of a log of a store. -/
def valueLines (events : List Event) : List LogLine := events.map fun e => .value (.obj e)

/-- **Reading** the file of events is reading their log. -/
theorem readLines_eventLines (hhash : HashesLines env E) : ∀ {events : List Event} {prev : String},
    (∀ e ∈ events, (Json.obj e).WellFormed E.floats) →
      readLines env E cardId name prev (eventLines E events) =
        Store.readLog env cardId name prev (valueLines events)
  | [], _, _ => rfl
  | e :: events, prev, h => by
    have hline := isLine_eventLine (E := E) e
    have hrest := @readLines_eventLines hhash events (E.lineHash (eventLine E e)) fun e' he' =>
      h e' (List.mem_cons_of_mem _ he')
    show readLines env E cardId name prev (eventLine E e :: eventLines E events) = _
    rw [readLines, hline.stripped, if_neg hline.ne_nil, loads_eventLine (h e List.mem_cons_self)]
    dsimp only
    rw [hrest, ← hhash e]
    rfl

/-- **Appending** to the file of events writes the event that an append to their log writes. -/
theorem event_eq_newEvent (hhash : HashesLines env E) {text : List Char} {events : List Event}
    (h : IsLog E text events) (a : Append E) :
    a.event env text = Store.newEvent env (valueLines events) a.action a.agent a.payload a.stamp := by
  have hlength : (fileLines text).length = (valueLines events).length := by
    rw [h.fileLines_eq, List.length_map, eventLines, List.length_map, valueLines, List.length_map]
  have hlast : lastHash E (fileLines text) =
      ((valueLines events).getLast?.map env.lineHash).getD "" := by
    rw [h.lastHash_eq, h.nonBlankLines_eq, hashOf, eventLines, valueLines, List.getLast?_map,
      List.getLast?_map, Option.map_map, Option.map_map]
    cases events.getLast? with
    | none => rfl
    | some e => exact (hhash e).symm
  rw [Append.event, chainedEvent, hlength, hlast]
  rfl

end SkCoord
