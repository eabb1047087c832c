import SkCoord.Python.JsonUtf8
import SkCoord.Python.StripBytes
import SkCoord.Scheduler.Annotation

/-!
# The shards of the overlay as bytes

Three passes go over the bytes of a shard.  `CardEventLog.append` checks what is there before it
writes (`requireContent`), in text mode; `CardEventLog.read_all` reads the stripped lines of the
bytes (`readShard`); `scan_overlay_records` diagnoses the lines with their ends (`scanShard`).  The
pydantic model of an event is a parameter, `EventModel`.
-/

namespace SkCoord

open Python

/-! ### The model of an event -/

/-- `CardEvent.model_validate`, by what `_now_iso()` shows: a record without a time is stamped when
it is validated.  The laws are those of pydantic. -/
structure EventModel where
  validate : String → Json → Option CardEvent
  /-- A model is validated from an object. -/
  object : ∀ {now v e}, validate now v = some e → ∃ d, v = .obj d
  /-- A field that is there does not take its default. -/
  stamped : ∀ {now d e} (now' : String), validate now (.obj d) = some e → "ts" ∈ Assoc.keys d →
    validate now' (.obj d) = some e
  /-- A field that is missing takes its default, and nothing else depends on it. -/
  unstamped : ∀ {now d e} (now' : String), validate now (.obj d) = some e → "ts" ∉ Assoc.keys d →
    validate now' (.obj d) = some { e with ts := now' }
  /-- What is dumped is validated. -/
  dumped : ∀ (now : String) (e : CardEvent), validate now (.obj e.modelDump) = some e

/-! ### Records whose values have the types of the fields -/

namespace EventModel

/-- A text field; one that is missing takes its default, if it has one. -/
def textField (d : Dict) (key : String) (default : Option String) : Option String :=
  match Assoc.get? d key with
  | none => default
  | some (.str s) => some s
  | some _ => none

/-- A text field that may be `None`. -/
def optionalText (d : Dict) (key : String) : Option (Option String) :=
  match Assoc.get? d key with
  | none => some none
  | some .null => some none
  | some (.str s) => some (some s)
  | some _ => none

/-- The field `seq`. -/
def seqField (d : Dict) : Option ℤ :=
  match Assoc.get? d "seq" with
  | none => some 0
  | some (.int i) => some i
  | some _ => none

/-- The field `order`. -/
def orderField (d : Dict) : Option (Option ℤ) :=
  match Assoc.get? d "order" with
  | none => some none
  | some .null => some none
  | some (.int i) => some (some i)
  | some _ => none

/-- The names of the fields of an event. -/
def cardEventFields : List String :=
  ["card_id", "action", "event_id", "writer", "ts", "seq", "column", "order", "priority",
    "swimlane", "label", "link_key", "link_value", "owner", "title", "description"]

/-- The event of a record, without its time. -/
def ofUntimed (d : Dict) : Option CardEvent := do
  if (Assoc.keys d).any fun key => !cardEventFields.contains key then none
  let cardId ← textField d "card_id" none
  let action ← textField d "action" none
  let eventId ← optionalText d "event_id"
  let writer ← textField d "writer" (some "")
  let seq ← seqField d
  let column ← optionalText d "column"
  let order ← orderField d
  let priority ← optionalText d "priority"
  let swimlane ← optionalText d "swimlane"
  let label ← optionalText d "label"
  let linkKey ← optionalText d "link_key"
  let linkValue ← optionalText d "link_value"
  let owner ← optionalText d "owner"
  let title ← optionalText d "title"
  let description ← optionalText d "description"
  some { cardId, action, eventId, writer, ts := "", seq, column, order, priority, swimlane, label,
         linkKey, linkValue, owner, title, description }

/-- The event of a value; what pydantic would convert to the type of a field is refused. -/
def ofJson (now : String) : Json → Option CardEvent
  | .obj d => (ofUntimed d).bind fun e =>
    (textField d "ts" (some now)).map fun ts => { e with ts }
  | _ => none

theorem textField_of_mem {d : Dict} {key : String} (h : key ∈ Assoc.keys d)
    (default default' : Option String) :
    textField d key default = textField d key default' := by
  obtain ⟨v, hv⟩ := Option.isSome_iff_exists.mp ((Assoc.get?_isSome_iff d key).mpr h)
  rw [textField, textField, hv]
  cases v <;> rfl

theorem textField_of_notMem {d : Dict} {key : String} (h : key ∉ Assoc.keys d)
    (default : Option String) : textField d key default = default := by
  rw [textField, (Assoc.get?_eq_none_iff d key).mpr h]

theorem optionalText_of_get? {d : Dict} {key : String} {value : Option String}
    (h : Assoc.get? d key = some (jsonOfOption value)) : optionalText d key = some value := by
  rw [optionalText, h]
  cases value <;> rfl

theorem ofUntimed_modelDump (e : CardEvent) :
    ofUntimed e.modelDump = some { e with ts := "" } := by
  have horder : orderField e.modelDump = some e.order := by
    have hget : Assoc.get? e.modelDump "order" = some ((e.order.map Json.int).getD .null) := rfl
    rw [orderField, hget]
    cases e.order <;> rfl
  have hkeys : ((Assoc.keys e.modelDump).any fun key => !cardEventFields.contains key) = false := rfl
  have htext : ∀ {key : String} {value : Option String},
      Assoc.get? e.modelDump key = some (jsonOfOption value) →
        optionalText e.modelDump key = some value := optionalText_of_get?
  unfold ofUntimed
  rw [hkeys, horder, @htext "event_id" e.eventId rfl, @htext "column" e.column rfl,
    @htext "priority" e.priority rfl, @htext "swimlane" e.swimlane rfl, @htext "label" e.label rfl,
    @htext "link_key" e.linkKey rfl, @htext "link_value" e.linkValue rfl, @htext "owner" e.owner rfl,
    @htext "title" e.title rfl, @htext "description" e.description rfl]
  rfl

end EventModel

/-- The model on records whose values have the types of the fields. -/
def typedModel : EventModel where
  validate := EventModel.ofJson
  object := by
    intro now v e h
    cases v with
    | obj d => exact ⟨d, rfl⟩
    | null | bool | int | float | str | arr => cases h
  stamped := by
    intro now d e now' h hts
    rw [EventModel.ofJson] at h ⊢
    rw [← h, EventModel.textField_of_mem hts (some now') (some now)]
  unstamped := by
    intro now d e now' h hts
    rw [EventModel.ofJson, EventModel.textField_of_notMem hts] at h ⊢
    obtain ⟨e', he, h⟩ := Option.bind_eq_some_iff.mp h
    cases h
    rw [he]
    rfl
  dumped := by
    intro now e
    rw [EventModel.ofJson, EventModel.ofUntimed_modelDump]
    rfl

/-! ### The passes -/

/-- What the passes over a shard read of the machine. -/
structure OverlayEnv where
  env : Env
  floats : FloatText
  model : EventModel
  /-- `_sha`. -/
  sha : Bytes → String

namespace OverlayEnv

variable (E : OverlayEnv) (now : String)

/-- `CardEvent.model_validate_json` of a text. -/
def validateText (line : List Char) : OverlayLine :=
  (Json.loads E.floats line).bind (E.model.validate now)

/-- `CardEvent.model_validate_json` of bytes. -/
def validateBytes (line : Bytes) : OverlayLine := (decodeUtf8 line).bind (E.validateText now)

end OverlayEnv

namespace CardEventLog

variable (E : OverlayEnv) (now : String)

/-! ### `append` -/

/-- One turn of the loop of `append` over the lines that are there.  The text of the error also
tells what is wrong with the line. -/
def requireLine (file : String) (p : List Char × ℕ) : Except PyError Unit :=
  if stripChars p.1 = [] then pure ()
  else if (admitted E.env (E.validateText now p.1)).isNone then
    throw (.value ("existing overlay shard " ++ file ++ " line " ++ toString p.2 ++ " is invalid"))
  else pure ()

/-- The check of `append` on what is there.  A line is checked before the next part of the file is
decoded, so of two errors the one of the line may come first. -/
def requireContent (file : String) (content : Bytes) : Except PyError Unit := do
  let text ← readText content
  ((fileLines text).zipIdx 1).forM (requireLine E now file)

/-! ### `read_all` -/

/-- An entry of `self.rejected`: the text of the error is left out, and how the excerpt is decoded.
-/
structure Rejected where
  file : String
  line : ℕ
  excerpt : Bytes
  deriving DecidableEq, Repr

/-- `_EXCERPT_CHARS`. -/
def excerptChars : ℕ := 200

/-- What `read_all` takes from one shard. -/
structure ShardReading where
  events : List CardEvent
  rejected : List Rejected
  deriving DecidableEq, Repr

/-- The stripped lines of a shard that are not empty, with their numbers. -/
def strippedLines (content : Bytes) : List (Bytes × ℕ) :=
  (((byteLines content).map stripBytes).zipIdx 1).filter fun p => p.1 ≠ []

/-- The loop of `read_all` over the lines of a shard. -/
def readShard (file : String) (content : Bytes) : ShardReading :=
  let lines := strippedLines content
  { events := lines.filterMap fun p => admitted E.env (E.validateBytes now p.1)
    rejected := (lines.filter fun p => (admitted E.env (E.validateBytes now p.1)).isNone).map
      fun p => { file, line := p.2, excerpt := p.1.take excerptChars } }

/-! ### `scan_overlay_records` -/

/-- A diagnostic of a line, without the type and the text of the error. -/
structure Diagnostic where
  file : String
  line : ℕ
  lineSha256 : String
  cardHint : Option String
  actionHint : Option String
  sourceSha256 : Option String := none
  deriving DecidableEq, Repr

/-- What a record that is no event tells under one of two keys. -/
def hint (env : Env) (parsed : Option Json) (key otherKey : String) : Option String :=
  match parsed with
  | some (.obj d) =>
    match (Dict.get d key).orElse (Dict.get d otherKey) with
    | .null => none
    | v => some (env.format v)
  | _ => none

/-- `diagnose_overlay_line`. -/
def diagnoseOverlayLine (raw : Bytes) (file : String) (line : ℕ) : Option Diagnostic :=
  let parsed := (decodeUtf8 raw).bind (Json.loads E.floats)
  match admitted E.env (parsed.bind (E.model.validate now)) with
  | some _ => none
  | none => some { file, line
                   lineSha256 := E.sha raw
                   cardHint := hint E.env parsed "card_id" "card"
                   actionHint := hint E.env parsed "action" "event" }

/-- The loop of `scan_overlay_records` over the lines of a shard. -/
def scanShard (file : String) (content : Bytes) : List Diagnostic :=
  let lines := ((byteLinesKeep content).zipIdx 1).filter fun p => stripBytes p.1 ≠ []
  lines.filterMap fun p => (diagnoseOverlayLine E now p.1 file p.2).map fun d =>
    { d with sourceSha256 := some (E.sha content) }

/-! ### Both over a directory -/

/-- The shards of a directory in the order of their names. -/
def shardFiles (files : Assoc String Bytes) : List (String × Bytes) :=
  (files.filter fun p => endsWith p.1 ".jsonl").insertionSort fun p q => p.1 ≤ q.1

/-- A name that `_read_regular_file_bytes` refuses. -/
def refusedName (name : String) : Bool :=
  name = "" || name.toList.any (fun c => c = '/' || c = '\\') || contains name ".."

/-- The check of a name. -/
def requireSource (p : String × Bytes) : Except PyError Unit :=
  if refusedName p.1 then throw (.value "card event source is unsafe") else pure ()

/-- `read_all`: the events, and `self.rejected`. -/
def readFiles (files : Assoc String Bytes) : Except PyError (List CardEvent × List Rejected) := do
  (shardFiles files).forM requireSource
  let readings := (shardFiles files).map fun p => readShard E now p.1 p.2
  pure (readings.flatMap ShardReading.events, readings.flatMap ShardReading.rejected)

/-- `scan_overlay_records`. -/
def scanOverlayRecords (files : Assoc String Bytes) : Except PyError (List Diagnostic) := do
  (shardFiles files).forM requireSource
  pure ((shardFiles files).flatMap fun p => scanShard E now p.1 p.2)

end CardEventLog

end SkCoord
