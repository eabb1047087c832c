import SkCoord.Overlay.Append
import SkCoord.Overlay.Equiv.Validators
import SkCoord.Python.JsonLine

/-!
# What an append leaves to read

The text of an event is one line of bytes and reads as the event, whatever texts it holds
(`validateBytes_payload`).  It is read as a line of its own when nothing but whitespace stands behind
the last line end of the shard; a record without a line end swallows it (`lineEvent_merged`).
**`append_reads_back_iff`** tells when `read_all` returns what it returned, and the new event; there
an append is one validated line more (`home_append`).
-/

namespace SkCoord

open Python

namespace CardEventLog

variable {E : OverlayEnv} {now now' : String}

/-- The event of a line that the readers admit. -/
def lineEvent (E : OverlayEnv) (now : String) (line : Bytes) : Option CardEvent :=
  admitted E.env (E.validateBytes now line)

/-! ### The text of an event -/

theorem wellFormed_modelDump (F : FloatText) (e : CardEvent) :
    (Json.obj e.modelDump).WellFormed F := by
  have htext : ∀ value : Option String, (jsonOfOption value).WellFormed F := by
    rintro (_ | _) <;> trivial
  have horder : ((e.order.map Json.int).getD .null).WellFormed F := by
    cases e.order <;> trivial
  refine ⟨?_, Json.fieldsWellFormed_iff.mpr ?_⟩
  · show (EventModel.cardEventFields).Nodup
    decide
  · simp only [CardEvent.modelDump, List.forall_mem_cons]
    exact ⟨trivial, trivial, htext _, trivial, trivial, trivial, htext _, horder, htext _, htext _,
      htext _, htext _, htext _, htext _, htext _, htext _, fun p hp => absurd hp List.not_mem_nil⟩

/-- **An event is read from its text**, whatever characters it holds. -/
theorem validateBytes_payload (E : OverlayEnv) (now : String) (e : CardEvent) :
    E.validateBytes now (encodeUtf8 (payloadText E e)) = some e := by
  rw [OverlayEnv.validateBytes, decodeUtf8_encodeUtf8, Option.bind_some, OverlayEnv.validateText,
    payloadText, Json.loads_dumpsUtf8 E.floats (wellFormed_modelDump E.floats e), Option.bind_some,
    E.model.dumped]

theorem lineEvent_payload {e : CardEvent} (he : e.validate E.env true = .ok ()) :
    lineEvent E now (encodeUtf8 (payloadText E e)) = some e := by
  rw [lineEvent, validateBytes_payload, admitted, Option.filter_some, he]
  rfl

theorem unbroken_payload (E : OverlayEnv) (e : CardEvent) :
    UnbrokenBytes (encodeUtf8 (payloadText E e)) :=
  Json.unbroken_dumpsUtf8 E.floats _

theorem payload_ne_nil (E : OverlayEnv) (e : CardEvent) : encodeUtf8 (payloadText E e) ≠ [] := by
  obtain ⟨l, hl⟩ := Json.exists_dumpsUtf8_obj E.floats e.modelDump
  rw [payloadText, hl, encodeUtf8_cons]
  exact List.append_ne_nil_of_left_ne_nil (encodeUtf8_ne_nil _) _

/-- Whitespace in front of a text is stripped from it. -/
theorem stripBytes_payload {w : Bytes} (hw : stripBytes w = []) (E : OverlayEnv) (e : CardEvent) :
    stripBytes (w ++ encodeUtf8 (payloadText E e)) = encodeUtf8 (payloadText E e) :=
  Json.stripBytes_spaces_dumpsUtf8 E.floats (stripBytes_eq_nil_iff.mp hw) _

theorem recordText_payload (E : OverlayEnv) (e : CardEvent) :
    Json.RecordText E.floats (payloadText E e) :=
  have hstray : Json.Stray 'c' := ⟨rfl, by decide, by decide, by decide, by decide⟩
  Json.recordText_dumpsUtf8 E.floats rfl rfl hstray

/-- **A text behind a line without an end is lost**: the two are no record together. -/
theorem lineEvent_merged {line : Bytes} (hline : (decodeUtf8 line).isSome)
    (hstrip : stripBytes line ≠ []) (e : CardEvent) :
    lineEvent E now (stripBytes (line ++ encodeUtf8 (payloadText E e))) = none := by
  have hlead := @isSpaceByte_of_mem_leadingSpaces line
  have htrail := @isSpaceByte_of_mem_trailingSpaces line
  have hascii := ascii_of_isSpaceByte htrail
  obtain ⟨x, r, hx⟩ := List.exists_cons_of_ne_nil hstrip
  obtain ⟨l, hl⟩ := Json.exists_dumpsUtf8_obj E.floats e.modelDump
  -- what is left of the two lines
  have hmerged : stripBytes (line ++ encodeUtf8 (payloadText E e)) =
      stripBytes line ++ (trailingSpaces line ++ encodeUtf8 (payloadText E e)) := by
    have hlast : stripBytes line ++ (trailingSpaces line ++ encodeUtf8 (payloadText E e)) =
        stripBytes line ++ (trailingSpaces line ++ encodeUtf8 ('{' :: l)) ++ [125] := by
      rw [payloadText, hl, ← List.cons_append, encodeUtf8_append, List.append_assoc,
        List.append_assoc]
      rfl
    have hbetween := @stripBytes_between (leadingSpaces line)
      (stripBytes line ++ (trailingSpaces line ++ encodeUtf8 (payloadText E e))) [] hlead
      (fun b hb => absurd hb List.not_mem_nil)
      ⟨x, r ++ (trailingSpaces line ++ encodeUtf8 (payloadText E e)), by rw [hx]; rfl,
        first_stripBytes hx⟩ ⟨_, 125, hlast, by decide⟩
    rw [List.append_nil] at hbetween
    conv_lhs => rw [eq_strip_between line]
    rwa [List.append_assoc, List.append_assoc]
  obtain ⟨t, ht⟩ : ∃ t, decodeUtf8 (stripBytes line) = some t := by
    rw [eq_strip_between line, decodeUtf8_between (ascii_of_isSpaceByte hlead) hascii,
      Option.isSome_map] at hline
    exact Option.isSome_iff_exists.mp hline
  obtain ⟨c, m, rfl, hc⟩ := exists_first_of_stripBytes hstrip ht
  have htext : stripBytes (line ++ encodeUtf8 (payloadText E e)) =
      encodeUtf8 (c :: (m ++ asciiText (trailingSpaces line)) ++ payloadText E e) := by
    rw [hmerged, encodeUtf8_append, ← List.cons_append, encodeUtf8_append,
      encodeUtf8_of_decodeUtf8 ht, encodeUtf8_asciiText hascii, List.append_assoc]
  have hloads : Json.loads E.floats
      (c :: (m ++ asciiText (trailingSpaces line)) ++ payloadText E e) = none :=
    Json.loads_torn (recordText_payload E e) ⟨c, _, rfl, hc⟩
  rw [lineEvent, htext, OverlayEnv.validateBytes, decodeUtf8_encodeUtf8, Option.bind_some,
    OverlayEnv.validateText, hloads]
  rfl

/-! ### The lines of a shard -/

/-- A line more is one more stripped line, if it is not blank. -/
theorem strippedLines_of_byteLines {b b' : Bytes} {line : Bytes}
    (h : byteLines b' = byteLines b ++ [line]) :
    strippedLines b' = strippedLines b ++
      if stripBytes line = [] then [] else [(stripBytes line, (byteLines b).length + 1)] := by
  rw [strippedLines, h, List.map_append, List.zipIdx_append, List.filter_append, strippedLines]
  congr 1
  rw [List.length_map, List.map_singleton, List.zipIdx_singleton, Nat.add_comm]
  split
  · rename_i hblank
    exact List.filter_cons_of_neg (by simpa using hblank)
  · rename_i hblank
    rw [List.filter_cons_of_pos (by simpa using hblank)]
    rfl

/-- A blank line in front of the end of a shard holds nothing. -/
theorem strippedLines_of_blank {content : Bytes} (h : stripBytes (openLine content) = []) :
    strippedLines content = strippedLines (closedLines content) := by
  by_cases hopen : openLine content = []
  · have hclosed := closedLines_append_openLine content
    rw [hopen, List.append_nil] at hclosed
    rw [hclosed]
  · have hlines := byteLines_eq_closedLines content
    rw [if_neg hopen] at hlines
    rw [strippedLines_of_byteLines hlines, if_pos h, List.append_nil]

/-- The events of a shard up to the last line end are the first ones of the shard. -/
theorem strippedLines_prefix (content : Bytes) :
    strippedLines (closedLines content) <+: strippedLines content := by
  by_cases hopen : openLine content = []
  · have hclosed := closedLines_append_openLine content
    rw [hopen, List.append_nil] at hclosed
    rw [hclosed]
  · have hlines := byteLines_eq_closedLines content
    rw [if_neg hopen] at hlines
    rw [strippedLines_of_byteLines hlines]
    exact List.prefix_append _ _

theorem readShard_events (file : String) (content : Bytes) :
    (readShard E now file content).events =
      (strippedLines content).filterMap fun p => lineEvent E now p.1 := rfl

/-- A line behind a shard that ends in whitespace is one more event. -/
theorem readShard_append {e : CardEvent} (he : e.validate E.env true = .ok ()) (file : String)
    {content : Bytes} (h : stripBytes (openLine content) = []) :
    readShard E now file (content ++ (encodeUtf8 (payloadText E e) ++ [10])) =
      { readShard E now file (closedLines content) with
        events := (readShard E now file (closedLines content)).events ++ [e] } := by
  have hlines := byteLines_append_line content (unbroken_payload E e) (payload_ne_nil E e)
  have hstripped := strippedLines_of_byteLines hlines
  rw [stripBytes_payload h, if_neg (payload_ne_nil E e)] at hstripped
  have hevent := @lineEvent_payload E now e he
  rw [lineEvent] at hevent
  rw [readShard, hstripped, List.filterMap_append, List.filter_append, List.map_append,
    List.filterMap_cons, hevent, List.filterMap_nil,
    List.filter_cons_of_neg (by rw [hevent]; exact Bool.false_ne_true), List.filter_nil,
    List.map_nil, List.append_nil]
  rfl

/-- A line behind a line without an end takes its event away. -/
theorem readShard_merged {file : String} {content : Bytes} (e : CardEvent)
    (hdecode : (decodeUtf8 (openLine content)).isSome) (h : stripBytes (openLine content) ≠ []) :
    (readShard E now file (content ++ (encodeUtf8 (payloadText E e) ++ [10]))).events =
      (readShard E now file (closedLines content)).events := by
  have hlines := byteLines_append_line content (unbroken_payload E e) (payload_ne_nil E e)
  have hmerged := @lineEvent_merged E now _ hdecode h e
  rw [readShard_events, strippedLines_of_byteLines hlines, List.filterMap_append, readShard_events]
  split
  · exact List.append_nil _
  · rw [List.filterMap_cons, hmerged, List.filterMap_nil, List.append_nil]

/-! ### The clock -/

/-- The dictionary of a line. -/
def recordOf (E : OverlayEnv) (line : Bytes) : Option Dict :=
  match (decodeUtf8 line).bind (Json.loads E.floats) with
  | some (.obj d) => some d
  | _ => none

/-- Whether a line holds an event without a time, which every reader stamps anew. -/
def untimed (E : OverlayEnv) (now : String) (line : Bytes) : Bool :=
  match recordOf E (stripBytes line) with
  | some d => admits E now (stripBytes line) && !(Assoc.keys d).contains "ts"
  | none => false

theorem validateBytes_eq (line : Bytes) :
    E.validateBytes now line = (recordOf E line).bind fun d => E.model.validate now (.obj d) := by
  have hbind : E.validateBytes now line =
      ((decodeUtf8 line).bind (Json.loads E.floats)).bind (E.model.validate now) := by
    rw [OverlayEnv.validateBytes, Option.bind_assoc]
    rfl
  rw [hbind, recordOf]
  split
  · rename_i d hd
    rw [hd]
    rfl
  · rename_i hother
    cases hv : (decodeUtf8 line).bind (Json.loads E.floats) with
    | none => rfl
    | some v =>
      rw [Option.bind_some, E.model.validate_eq_none_of_not_obj now fun d hd => hother d (hd ▸ hv)]
      rfl

/-- **The clock shows in an event without a time**, and in no other. -/
theorem lineEvent_clock (now now' : String) (line : Bytes) :
    lineEvent E now' (stripBytes line) = lineEvent E now (stripBytes line) ↔
      now' = now ∨ untimed E now line = false := by
  have hadmits : admits E now (stripBytes line) = (lineEvent E now (stripBytes line)).isSome := rfl
  rw [untimed, hadmits, lineEvent, lineEvent, validateBytes_eq, validateBytes_eq]
  cases recordOf E (stripBytes line) with
  | none => exact iff_of_true rfl (.inr rfl)
  | some d =>
    rw [Option.bind_some, Option.bind_some, E.model.validate_clock now now' d,
      admitted_map_restamp]
    cases hevent : admitted E.env (E.model.validate now (.obj d)) with
    | none => exact iff_of_true rfl (.inr rfl)
    | some e =>
      dsimp only
      rw [Option.map_some, Option.some_inj, Option.isSome_some, Bool.true_and, Bool.not_eq_false',
        List.contains_iff_mem]
      by_cases hts : "ts" ∈ Assoc.keys d
      · rw [EventModel.restamp, if_pos hts]
        exact iff_of_true rfl (.inr hts)
      · -- at its own time the event is stamped with it
        have hself : EventModel.restamp now d e = e := by
          have hsome := (Option.filter_eq_some_iff.mp hevent).1
          exact (Option.some.inj ((E.model.validate_of_some now hsome).symm.trans hsome))
        rw [or_iff_left hts]
        rw [EventModel.restamp, if_neg hts] at hself ⊢
        constructor
        · intro heq
          exact (congrArg CardEvent.ts heq).trans (congrArg CardEvent.ts hself).symm
        · rintro rfl
          exact hself

/-- Two readings of a list that find something in the same places agree when they agree in each. -/
theorem filterMap_eq_iff {α β : Type*} {f g : α → Option β} {l : List α}
    (h : ∀ a ∈ l, (f a).isSome = (g a).isSome) :
    l.filterMap f = l.filterMap g ↔ ∀ a ∈ l, f a = g a := by
  induction l with
  | nil => exact iff_of_true rfl fun a ha => absurd ha List.not_mem_nil
  | cons a l ih =>
    rw [List.forall_mem_cons] at h
    rw [List.forall_mem_cons, ← ih h.2, List.filterMap_cons, List.filterMap_cons]
    cases hf : f a with
    | none =>
      have hg : g a = none := by
        rw [← Option.isNone_iff_eq_none, ← Option.not_isSome, ← h.1, hf]
        rfl
      rw [hg]
      exact (and_iff_right rfl).symm
    | some x =>
      obtain ⟨y, hg⟩ : ∃ y, g a = some y := by
        rw [← Option.isSome_iff_exists, ← h.1, hf]
        rfl
      rw [hg]
      dsimp only
      rw [List.cons.injEq, Option.some_inj]

/-- A reading at another time rejects the same lines. -/
theorem readShard_rejected_clock (now now' : String) (file : String) (content : Bytes) :
    (readShard E now' file content).rejected = (readShard E now file content).rejected := by
  rw [readShard, readShard]
  dsimp only
  congr 1
  refine List.filter_congr fun p _ => ?_
  have hclock := @admits_clock E now now' p.1
  rw [admits, admits] at hclock
  rw [← Option.not_isSome, ← Option.not_isSome, hclock]

/-- **A shard is read alike at two times** exactly when each event has a time of its own. Which
lines are events does not depend on the clock, so only the events can differ, line by line. -/
theorem readShard_clock (now now' : String) (file : String) (content : Bytes) :
    readShard E now' file content = readShard E now file content ↔
      now' = now ∨ ∀ line ∈ byteLines content, untimed E now line = false := by
  have hevents : readShard E now' file content = readShard E now file content ↔
      (readShard E now' file content).events = (readShard E now file content).events := by
    have hrejected := @readShard_rejected_clock E now now' file content
    constructor
    · exact congrArg ShardReading.events
    · intro h
      cases hreading : readShard E now' file content with
      | mk events rejected =>
        rw [hreading] at h hrejected
        cases hreading' : readShard E now file content with
        | mk events' rejected' =>
          rw [hreading'] at h hrejected
          dsimp only at h hrejected
          rw [h, hrejected]
  -- The same lines are events at both times.
  have hsome : ∀ p ∈ strippedLines content,
      (lineEvent E now' p.1).isSome = (lineEvent E now p.1).isSome :=
    fun p _ => admits_clock now now' p.1
  have hlines : (∀ p ∈ strippedLines content, lineEvent E now' p.1 = lineEvent E now p.1) ↔
      ∀ line ∈ byteLines content,
        lineEvent E now' (stripBytes line) = lineEvent E now (stripBytes line) := by
    constructor
    · intro h line hline
      -- A blank line is not read at all, and it holds no event at any time.
      by_cases hstrip : stripBytes line = []
      · have hnone : ∀ now, lineEvent E now [] = none := by
          intro now
          rw [← Option.not_isSome_iff_eq_none]
          show ¬admits E now [] = true
          rw [admits_of_blankText rfl]
          exact Bool.false_ne_true
        rw [hstrip, hnone, hnone]
      · obtain ⟨i, hi⟩ := exists_number (@List.mem_map_of_mem _ _ _ _ stripBytes hline)
        exact h (stripBytes line, i) (List.mem_filter.mpr ⟨hi, decide_eq_true hstrip⟩)
    · intro h p hp
      have hmem := mem_of_mem_zipIdx (List.mem_filter.mp hp).1
      obtain ⟨line, hline, hp⟩ := List.mem_map.mp hmem
      rw [← hp]
      exact h line hline
  rw [hevents, readShard_events, readShard_events, filterMap_eq_iff hsome, hlines]
  constructor
  · intro h
    by_cases hnow : now' = now
    · exact .inl hnow
    · exact .inr fun line hline => ((lineEvent_clock now now' line).mp (h line hline)).resolve_left hnow
  · intro h line hline
    exact (lineEvent_clock now now' line).mpr (h.imp_right fun hall => hall line hline)

/-- Of a shard that ends in whitespace the last line end is the end, as far as it is read. -/
theorem readShard_closedLines {content : Bytes} (h : stripBytes (openLine content) = [])
    (now : String) (file : String) :
    readShard E now file content = readShard E now file (closedLines content) := by
  rw [readShard, readShard, strippedLines_of_blank h]

/-! ### `append` -/

/-- What `append` has checked when it returns, and what it has written. -/
theorem append_returns {nowAppend : String} {e : CardEvent} {before after : FileHome}
    (h : (append E nowAppend e).run before = (.ok (), after)) :
    e.validate E.env true = .ok () ∧
      (requireContent E nowAppend (shardName E.env) (before.content (shardName E.env))).isOk = true ∧
      after = (before.write (shardName E.env) (before.content (shardName E.env))).write
        (shardName E.env)
        (before.content (shardName E.env) ++ encodeUtf8 (payloadText E e ++ ['\n'])) := by
  unfold append at h
  rw [Effect.run_get_bind, Effect.run_lift_bind_eq_ok] at h
  obtain ⟨-, -, h⟩ := h
  rw [Effect.run_lift_bind_eq_ok] at h
  obtain ⟨-, -, h⟩ := h
  rw [Effect.run_lift_bind_eq_ok] at h
  obtain ⟨-, -, h⟩ := h
  rw [Effect.run_lift_bind_eq_ok] at h
  obtain ⟨⟨⟩, hvalid, h⟩ := h
  rw [Effect.run_bind_eq_ok] at h
  obtain ⟨⟨⟩, opened, hopened, h⟩ := h
  rw [Effect.run_modify] at hopened
  obtain ⟨-, rfl⟩ := Prod.mk.inj hopened
  rw [Effect.run_lift_bind_eq_ok] at h
  obtain ⟨u, hcontent, h⟩ := h
  rw [Effect.run_lift_bind_eq_ok] at h
  obtain ⟨-, -, h⟩ := h
  rw [Effect.run_modify] at h
  obtain ⟨-, rfl⟩ := Prod.mk.inj h
  refine ⟨hvalid, isOk_iff.mpr ⟨u, hcontent⟩, ?_⟩
  rw [FileHome.content_write_self]

/-- The bytes of the shard of this host behind an append. -/
theorem append_content {nowAppend : String} {e : CardEvent} {before after : FileHome}
    (h : (append E nowAppend e).run before = (.ok (), after)) :
    after.content (shardName E.env) =
      before.content (shardName E.env) ++ (encodeUtf8 (payloadText E e) ++ [10]) := by
  obtain ⟨-, -, hafter⟩ := append_returns h
  have hnewline : encodeUtf8 ['\n'] = [10] := rfl
  rw [hafter, FileHome.content_write_self, encodeUtf8_append, hnewline]

/-- The other shards stay as they are. -/
theorem append_content_ne {nowAppend : String} {e : CardEvent} {before after : FileHome}
    (h : (append E nowAppend e).run before = (.ok (), after)) {name : String}
    (hname : name ≠ shardName E.env) : after.content name = before.content name := by
  obtain ⟨-, -, hafter⟩ := append_returns h
  rw [hafter, FileHome.content_write_ne _ _ hname, FileHome.content_write_ne _ _ hname]

/-- What stands behind the last line end of a shard that `append` accepts is decoded. -/
theorem openLine_decoded {nowAppend : String} {file : String} {content : Bytes}
    (h : (requireContent E nowAppend file content).isOk = true) :
    (decodeUtf8 (openLine content)).isSome := by
  by_cases hopen : openLine content = []
  · rw [hopen]
    rfl
  · have hlines := byteLines_eq_closedLines content
    rw [if_neg hopen] at hlines
    refine isSome_of_passed ((requireContent_isOk_iff file content).mp h (openLine content) ?_)
    rw [hlines]
    exact List.mem_append_right _ List.mem_cons_self

/-- What `read_all` returned, and the new event behind the events of its shard. -/
structure ReadsBack (E : OverlayEnv) (now now' : String) (before after : FileHome)
    (e : CardEvent) : Prop where
  own : after.reading E now' (shardName E.env) =
    { before.reading E now (shardName E.env) with
      events := (before.reading E now (shardName E.env)).events ++ [e] }
  others : ∀ name, endsWith name ".jsonl" = true → name ≠ shardName E.env →
    after.reading E now' name = before.reading E now name

/-- The last line of a shard has its end, and each event of the overlay has its time, where the
clock has moved. -/
structure ReadyForLine (E : OverlayEnv) (now now' : String) (before : FileHome) : Prop where
  ended : stripBytes (openLine (before.content (shardName E.env))) = []
  timed : now' = now ∨ ∀ name, endsWith name ".jsonl" = true →
    ∀ line ∈ byteLines (before.content name), untimed E now line = false

theorem endsWith_shardName (env : Env) : endsWith (shardName env) ".jsonl" = true := by
  rw [endsWith, shardName, String.toList_append, List.isSuffixOf_iff_suffix]
  exact List.suffix_append _ _

/-- Behind a line without an end the new event is not read. -/
theorem not_readsBack_of_open {nowAppend : String} {e : CardEvent} {before after : FileHome}
    (h : (append E nowAppend e).run before = (.ok (), after))
    (hopen : stripBytes (openLine (before.content (shardName E.env))) ≠ []) :
    ¬ReadsBack E now now' before after e := by
  intro hback
  obtain ⟨-, haccepted, -⟩ := append_returns h
  have hevents := congrArg ShardReading.events hback.own
  have hlost := @readShard_merged E now' (shardName E.env) _ e (openLine_decoded haccepted) hopen
  rw [FileHome.reading, append_content h, hlost] at hevents
  -- the events up to the last line end are too few
  have hprefix := strippedLines_prefix (before.content (shardName E.env))
  have hlength : (readShard E now' (shardName E.env)
        (closedLines (before.content (shardName E.env)))).events.length ≤
      (before.reading E now (shardName E.env)).events.length := by
    have hcount : ∀ lines : List (Bytes × ℕ),
        (lines.filterMap fun p => lineEvent E now' p.1).length =
          (lines.filterMap fun p => lineEvent E now p.1).length := by
      intro lines
      rw [List.length_filterMap_eq_countP, List.length_filterMap_eq_countP]
      exact List.countP_congr fun p _ => by
        rw [show (lineEvent E now' p.1).isSome = (lineEvent E now p.1).isSome from
          admits_clock now now' p.1]
    rw [readShard_events, hcount, FileHome.reading, readShard_events]
    obtain ⟨rest, hrest⟩ := hprefix
    rw [← hrest, List.filterMap_append, List.length_append]
    exact Nat.le_add_right _ _
  rw [hevents, List.length_append, List.length_singleton] at hlength
  omega

/-- **An append is read back** exactly when the last line of its shard has its end, and every event
has a time of its own or the clock stands still. -/
theorem append_reads_back_iff {nowAppend : String} {e : CardEvent} {before after : FileHome}
    (h : (append E nowAppend e).run before = (.ok (), after)) (now now' : String) :
    ReadsBack E now now' before after e ↔ ReadyForLine E now now' before := by
  obtain ⟨hvalid, -, -⟩ := append_returns h
  -- The other shards have the bytes they had, so only the clock can change what they give.
  have hothers : ∀ name, name ≠ shardName E.env →
      (after.reading E now' name = before.reading E now name ↔
        now' = now ∨ ∀ line ∈ byteLines (before.content name), untimed E now line = false) := by
    intro name hname
    rw [FileHome.reading, append_content_ne h hname, FileHome.reading]
    exact readShard_clock now now' name (before.content name)
  -- Behind an open line the event is glued to it, and the read-back fails whatever the clock does.
  by_cases hopen : stripBytes (openLine (before.content (shardName E.env))) = []
  · -- The own shard gives its earlier events at the new time, and the event behind them.
    have hown : after.reading E now' (shardName E.env) =
          { before.reading E now (shardName E.env) with
            events := (before.reading E now (shardName E.env)).events ++ [e] } ↔
        now' = now ∨ ∀ line ∈ byteLines (before.content (shardName E.env)),
          untimed E now line = false := by
      rw [← readShard_clock now now' (shardName E.env), FileHome.reading, append_content h,
        readShard_append hvalid _ hopen, ← readShard_closedLines hopen now',
        FileHome.reading]
      constructor
      · intro heq
        have hevents := List.append_cancel_right (congrArg ShardReading.events heq)
        have hrejected := congrArg ShardReading.rejected heq
        cases hreading : readShard E now' (shardName E.env) (before.content (shardName E.env)) with
        | mk events rejected =>
          rw [hreading] at hevents hrejected
          dsimp only at hevents hrejected
          rw [hevents, hrejected]
      · intro heq
        rw [heq]
    constructor
    · intro hback
      refine ⟨hopen, ?_⟩
      by_cases hnow : now' = now
      · exact .inl hnow
      · refine .inr fun name hname => ?_
        by_cases hfile : name = shardName E.env
        · rw [hfile]
          exact (hown.mp hback.own).resolve_left hnow
        · exact ((hothers name hfile).mp (hback.others name hname hfile)).resolve_left hnow
    · intro hready
      refine ⟨hown.mpr ?_, fun name hname hfile => (hothers name hfile).mpr ?_⟩
      · exact hready.timed.imp_right fun hall => hall _ (endsWith_shardName E.env)
      · exact hready.timed.imp_right fun hall => hall name hname
  · exact iff_of_false (not_readsBack_of_open h hopen) fun hready => hopen hready.ended

/-! ### The model with validated lines -/

/-- The shards in the order of their names, whatever their contents are mapped to. -/
theorem insertionSort_map_snd {β γ : Type} (f : β → γ) (files : List (String × β)) :
    (files.map fun p => (p.1, f p.2)).insertionSort (fun p q => p.1 ≤ q.1) =
      (files.insertionSort fun p q => p.1 ≤ q.1).map fun p => (p.1, f p.2) :=
  (List.map_insertionSort (fun p q : String × β => p.1 ≤ q.1) (fun p q : String × γ => p.1 ≤ q.1)
    (fun p => (p.1, f p.2)) files fun _ _ _ _ => Iff.rfl).symm

theorem shardFiles_map {γ : Type} (f : Bytes → γ) (files : Assoc String Bytes) :
    ((files.map fun p => (p.1, f p.2)).filter fun p => endsWith p.1 ".jsonl").insertionSort
        (fun p q => p.1 ≤ q.1) = (shardFiles files).map fun p => (p.1, f p.2) := by
  rw [List.filter_map, insertionSort_map_snd]
  rfl

/-- **The events of the bytes are those of the validated lines.** -/
theorem readFiles_home {h : FileHome} {r : List CardEvent × List Rejected}
    (hread : readFiles E now h.files = .ok r) : r.1 = (h.home E now).overlay E.env := by
  unfold readFiles at hread
  obtain ⟨-, -, hread⟩ := bind_eq_ok.mp hread
  rw [← pure_eq_ok.mp hread, Home.overlay, readAll]
  dsimp only [FileHome.home]
  rw [shardFiles_map, List.flatMap_map, List.flatMap_map]
  refine List.flatMap_congr fun p _ => ?_
  rw [readShard_events, FileHome.overlayLines, List.filterMap_map]
  rfl

/-- `read_all` returns the readings of the shards one behind another. -/
theorem readFiles_readings {h : FileHome} {r : List CardEvent × List Rejected}
    (hread : readFiles E now h.files = .ok r) :
    r.1 = (shardFiles h.files).flatMap (fun p => (h.reading E now p.1).events) ∧
      r.2 = (shardFiles h.files).flatMap fun p => (h.reading E now p.1).rejected := by
  have hreading : ∀ p ∈ shardFiles h.files, readShard E now p.1 p.2 = h.reading E now p.1 := by
    intro p hp
    rw [shardFiles, List.mem_insertionSort] at hp
    have hget : Assoc.get? h.files p.1 = some p.2 :=
      Assoc.get?_of_mem h.nodup (List.mem_filter.mp hp).1
    rw [FileHome.reading, FileHome.content, hget]
    rfl
  unfold readFiles at hread
  obtain ⟨-, -, hread⟩ := bind_eq_ok.mp hread
  rw [← pure_eq_ok.mp hread, List.flatMap_map, List.flatMap_map]
  constructor
  · exact List.flatMap_congr fun p hp => congrArg ShardReading.events (hreading p hp)
  · exact List.flatMap_congr fun p hp => congrArg ShardReading.rejected (hreading p hp)

theorem set_map_snd {β γ : Type} (f : β → γ) (files : Assoc String β) (file : String) (x : β) :
    (Assoc.set files file x).map (fun p => (p.1, f p.2)) =
      Assoc.set (files.map fun p => (p.1, f p.2)) file (f x) := by
  induction files with
  | nil => rfl
  | cons p files ih =>
    obtain ⟨name, y⟩ := p
    by_cases hname : name = file
    · simp [Assoc.set, hname]
    · simp [Assoc.set, hname, ih]

/-- **An append is one validated line more**, when the last line of the shard has its end. -/
theorem home_append {nowAppend : String} {e : CardEvent} {before after : FileHome}
    (h : (append E nowAppend e).run before = (.ok (), after))
    (hended : stripBytes (openLine (before.content (shardName E.env))) = []) :
    after.home E now = (before.home E now).appendShard E.env e := by
  obtain ⟨-, -, hafter⟩ := append_returns h
  have hlines : FileHome.overlayLines E now (before.content (shardName E.env) ++
      encodeUtf8 (payloadText E e ++ ['\n'])) =
        shardLines E.env (before.home E now) ++ [some e] := by
    have hbyteLines := byteLines_append_line (before.content (shardName E.env))
      (unbroken_payload E e) (payload_ne_nil E e)
    have hstripped := strippedLines_of_byteLines hbyteLines
    rw [stripBytes_payload hended, if_neg (payload_ne_nil E e),
      ← strippedLines_of_blank hended] at hstripped
    have hnewline : encodeUtf8 ['\n'] = [10] := rfl
    have hbefore : shardLines E.env (before.home E now) =
        FileHome.overlayLines E now (before.content (shardName E.env)) := by
      rw [shardLines, FileHome.home, Assoc.get?_map, FileHome.content]
      cases Assoc.get? before.files (shardName E.env) <;> rfl
    rw [hbefore, encodeUtf8_append, hnewline, FileHome.overlayLines, hstripped, List.map_append,
      FileHome.overlayLines, List.map_singleton, validateBytes_payload]
  rw [hafter, Home.appendShard, ← hlines]
  simp only [FileHome.home, FileHome.write, Assoc.set_set, set_map_snd]

/-! ### When an append returns -/

/-- The guard against a payload of two lines never raises. -/
theorem requireOneLine_payload (E : OverlayEnv) (e : CardEvent) :
    requireOneLine (payloadText E e) = .ok () := by
  have hvisible := Json.visible_dumpsUtf8 E.floats (.obj e.modelDump)
  refine if_neg ?_
  rintro (hmem | hmem)
  · exact absurd (hvisible _ hmem) (by decide)
  · exact absurd (hvisible _ hmem) (by decide)

/-- An append whose checks pass returns. -/
theorem append_of_checks {nowAppend : String} {e : CardEvent} {before : FileHome}
    (hidentity : requireIdentity E.env e = .ok ())
    (hcard : requireCard E.env (before.home E nowAppend) e = .ok ())
    (hfile : requireFilename (shardName E.env) = .ok ())
    (hvalid : e.validate E.env true = .ok ())
    (hcontent : (requireContent E nowAppend (shardName E.env)
      (before.content (shardName E.env))).isOk = true) :
    ((append E nowAppend e).run before).1 = .ok () := by
  obtain ⟨u, hcontent⟩ := isOk_iff.mp hcontent
  unfold append
  rw [Effect.run_get_bind, hidentity, Effect.run_lift_bind, hcard]
  dsimp only
  rw [Effect.run_lift_bind, hfile]
  dsimp only
  rw [Effect.run_lift_bind, hvalid]
  dsimp only
  rw [Effect.run_lift_bind, Effect.run_bind_of_ok (Effect.run_modify _ _), hcontent,
    Effect.run_lift_bind, requireOneLine_payload]
  rfl

/-- A label of a quote, a line separator and a newline. -/
def quotedLabel : CardEvent :=
  { cardId := "c", action := "add_label", writer := "w", ts := "t", label := some "\"\u2028\n" }

/-- A home whose shard holds one record, and no line end behind it. -/
def unendedHome : FileHome :=
  { files := [("h.jsonl", encodeUtf8 (payloadText plainOverlay quotedLabel))] }

theorem append_quotedLabel {before : FileHome} (hcards : before.cards = [])
    (hcontent : (requireContent plainOverlay "" "h.jsonl" (before.content "h.jsonl")).isOk = true) :
    ((append plainOverlay "" quotedLabel).run before).1 = .ok () := by
  have hvalid : quotedLabel.validate plainOverlay.env true = .ok () := by decide +kernel
  have hcard : requireCard plainOverlay.env (before.home plainOverlay "") quotedLabel = .ok () := by
    have hdir : ((before.home plainOverlay "").store plainOverlay.env).dir "c" = {} := by
      show (Assoc.get? before.cards "c").getD {} = {}
      rw [hcards]
      rfl
    unfold requireCard
    dsimp only [quotedLabel]
    rw [hdir]
    rfl
  exact append_of_checks rfl hcard rfl hvalid hcontent

/-- A line of the sample record reads as its event. -/
theorem lineEvent_quotedLabel (now : String) :
    lineEvent plainOverlay now (encodeUtf8 (payloadText plainOverlay quotedLabel)) =
      some quotedLabel :=
  lineEvent_payload (by decide +kernel)

/-- A home whose shard holds one record with its line end. -/
def endedHome : FileHome :=
  { files := [("h.jsonl", encodeUtf8 (payloadText plainOverlay quotedLabel) ++ [10])] }

theorem byteLines_endedHome : byteLines (endedHome.content "h.jsonl") =
    [encodeUtf8 (payloadText plainOverlay quotedLabel)] := by
  have hline := byteLines_line (unbroken_payload plainOverlay quotedLabel) []
  have hcontent : endedHome.content "h.jsonl" =
      encodeUtf8 (payloadText plainOverlay quotedLabel) ++ [10] := rfl
  rw [hcontent, hline]
  rfl

/-- The label is read back behind the record that the shard holds. -/
theorem append_reads_back_label : ReadsBack plainOverlay "1" "2" endedHome
    ((append plainOverlay "" quotedLabel).run endedHome).2 quotedLabel := by
  have haccepted : (requireContent plainOverlay "" "h.jsonl" (endedHome.content "h.jsonl")).isOk =
      true := by
    rw [requireContent_isOk_iff, byteLines_endedHome, List.forall_mem_singleton, admits]
    have hevent := lineEvent_quotedLabel ""
    rw [lineEvent] at hevent
    rw [hevent]
    exact .inr rfl
  have hreturns := @append_quotedLabel endedHome rfl haccepted
  refine (append_reads_back_iff (eq_mk_of_fst_eq hreturns) "1" "2").mpr
    ⟨?_, .inr fun name _ line hline => ?_⟩
  · show stripBytes (openLine (_ ++ [10])) = []
    rw [openLine, List.reverse_append]
    rfl
  · by_cases hname : name = "h.jsonl"
    · -- the record has its own time
      rw [hname, byteLines_endedHome, List.mem_singleton] at hline
      have hstrip := @stripBytes_payload [] rfl plainOverlay quotedLabel
      rw [List.nil_append] at hstrip
      refine ((lineEvent_clock "1" "2" line).mp ?_).resolve_left (by decide)
      rw [hline, hstrip, lineEvent_quotedLabel, lineEvent_quotedLabel]
    · have hempty : endedHome.content name = [] := by
        rw [FileHome.content, endedHome, Assoc.get?_cons, if_neg (Ne.symm hname)]
        rfl
      rw [hempty] at hline
      exact absurd hline List.not_mem_nil

/-- A record without a line end swallows the event that is appended behind it. -/
theorem unended_record_swallows :
    ((append plainOverlay "" quotedLabel).run unendedHome).1 = .ok () ∧
      ¬ReadsBack plainOverlay "" "" unendedHome
        ((append plainOverlay "" quotedLabel).run unendedHome).2 quotedLabel := by
  have hcontent : unendedHome.content "h.jsonl" =
      encodeUtf8 (payloadText plainOverlay quotedLabel) := rfl
  have hunbroken := unbroken_payload plainOverlay quotedLabel
  have hne := payload_ne_nil plainOverlay quotedLabel
  have haccepted : (requireContent plainOverlay "" "h.jsonl"
      (unendedHome.content "h.jsonl")).isOk = true := by
    rw [requireContent_isOk_iff, hcontent, byteLines_unbroken hunbroken hne,
      List.forall_mem_singleton]
    have hevent := lineEvent_quotedLabel ""
    rw [lineEvent] at hevent
    right
    rw [admits, hevent]
    rfl
  have hreturns := @append_quotedLabel unendedHome rfl haccepted
  refine ⟨hreturns, not_readsBack_of_open (eq_mk_of_fst_eq hreturns) ?_⟩
  show stripBytes (openLine (unendedHome.content "h.jsonl")) ≠ []
  have hstrip := @stripBytes_payload [] rfl plainOverlay quotedLabel
  rw [List.nil_append] at hstrip
  rw [hcontent, openLine_of_unbroken hunbroken, hstrip]
  exact hne

end CardEventLog

end SkCoord
