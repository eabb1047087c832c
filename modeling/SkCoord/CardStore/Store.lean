import SkCoord.CardStore.Fold
import SkCoord.Python.Sort

/-!
# `CardStore`

A card is a directory with a core and one append-only log for each writer.  `readEvents` merges
the logs in the order `(ts, writer, seq)` after checking the hash chain of each, `fold` folds what
it returns together with the mutations of the legacy overlay, and `appendEvent` adds one line to
one log.  An operation that raises returns no store: it has written nothing.
-/

namespace SkCoord

open Python

/-- One line of a log. -/
inductive LogLine where
  | blank
  | malformed (text : String)
  | value (v : Json)
  deriving Inhabited, Repr

/-- What an operation reads from the machine it runs on. -/
structure Env where
  hostname : String
  /-- `card_store_write_enabled()`. -/
  writeEnabled : Bool
  /-- The SHA-256 of a stripped line. -/
  lineHash : LogLine → String
  /-- `repr` of a value. -/
  repr : Json → String

/-- A value in an f-string. -/
def Env.format (env : Env) : Json → String
  | .str s => s
  | v => env.repr v

/-- The identifier and the time that an event is stamped with. -/
structure Stamp where
  eventId : String
  ts : String

/-- The file `core.json` of a card directory. -/
inductive CoreFile where
  | absent
  | malformed
  | present (core : CardCore)
  deriving Inhabited

/-- The directory of a card: its core and the event logs by file name. -/
structure CardDir where
  core : CoreFile := .absent
  logs : Assoc String (List LogLine) := []
  nodup : (Assoc.keys logs).Nodup := by decide

/-- A directory with one more line at the end of a log. -/
def CardDir.appendLine (d : CardDir) (file : String) (line : LogLine) : CardDir :=
  { d with
    logs := Assoc.set d.logs file ((Assoc.get? d.logs file).getD [] ++ [line])
    nodup := Assoc.nodup_keys_set d.nodup _ _ }

/-- The actions of the archive index and, in the words of the store, of the overlay. -/
inductive LegacyAction where
  | archive
  | move
  | priority
  | swimlane
  | addLabel
  | removeLabel
  | link
  | assign
  | unassign
  | describe
  deriving DecidableEq, Repr, Inhabited

/-- The text of a legacy action. -/
def LegacyAction.value : LegacyAction → String
  | archive => "archive"
  | move => "move"
  | priority => "priority"
  | swimlane => "swimlane"
  | addLabel => "add_label"
  | removeLabel => "remove_label"
  | link => "link"
  | assign => "assign"
  | unassign => "unassign"
  | describe => "describe"

/-- What `load_legacy_mutations` makes of a line of the archive index or the overlay. -/
structure LegacyMutation where
  action : LegacyAction
  ts : Json
  writer : Json
  seq : Int := 0
  origin : String
  /-- The fields of `_OVERLAY_PAYLOAD_KEYS` that the line has. -/
  payload : Dict := []

/-- The event of a legacy mutation. -/
def LegacyMutation.toEvent (m : LegacyMutation) : Event :=
  [("ts", m.ts), ("writer", m.writer), ("seq", .int m.seq), ("action", .str m.action.value),
    ("origin", .str m.origin)] ++ m.payload

/-- The cards directory, with the mutations that the archive index and the overlay hold. -/
structure Store where
  cards : Assoc String CardDir := []
  legacy : Assoc String (List LegacyMutation) := []

/-- `ABANDON_REASONS`, in the order in which the error lists them. -/
def abandonReasons : List String :=
  ["capability-missing", "criteria-unsatisfiable", "dependency-unsatisfied", "error",
    "not-abandoned", "superseded", "unspecified"]

/-- `validate_abandon_reason`. -/
def validateAbandonReason (env : Env) (v : Json) : Except PyError String :=
  let unknown := PyError.value
    ("abandon_reason " ++ env.repr v ++ " is not in the closed vocabulary: " ++
      String.intercalate ", " abandonReasons)
  match v with
  | .null => pure "unspecified"
  | .str s =>
    if isBlank s then pure "unspecified"
    else match abandonReasons.find? fun r => r.toList == lower (strip s) with
      | some r => pure r
      | none => throw unknown
  -- no other value reads as a word of the vocabulary
  | _ => throw unknown

/-- `validate_card_lock_identifier`. -/
def validateCardLockIdentifier (cardId : String) : Except PyError String :=
  if cardId = "" || cardId = "." || cardId = ".." || contains cardId ".." ||
      cardId.toList.any (fun c => c = '/' || c = '\\' || c.toNat < 32 || c.toNat = 127) ||
      cardId.toList.length > 128 then
    throw (.value "card lock identifier must be a non-path identifier")
  else pure cardId

namespace Store

/-- The directory of a card. -/
def dir (st : Store) (cardId : String) : CardDir := (Assoc.get? st.cards cardId).getD {}

/-- `_load_core`. -/
def loadCore (st : Store) (cardId : String) : Except PyError (Option CardCore) := do
  let _ ← validateCardLockIdentifier cardId
  match (st.dir cardId).core with
  | .absent => pure none
  | .malformed => throw (.value ("CardStore core for " ++ cardId ++ " is malformed"))
  | .present core => pure (some core)

/-! ### Reading -/

/-- The chain check of one event behind a line with hash `prev`. -/
def checkChain (env : Env) (cardId name prev : String) (e : Event) : Except PyError Unit :=
  match e.get "prev_hash" with
  | .str h =>
    if h ≠ "" ∧ h ≠ prev then
      throw (.value ("CardStore event chain broken in " ++ cardId ++ "/" ++ name ++ ": event " ++
        env.format (e.getD "event_id" (.str "?")) ++ " prev_hash mismatch"))
    else pure ()
  | _ => pure ()

/-- The events of one log, behind a line with hash `prev`. -/
def readLog (env : Env) (cardId name : String) :
    String → List LogLine → Except PyError (List Event)
  | _, [] => pure []
  | prev, .blank :: l => readLog env cardId name prev l
  | _, .malformed _ :: _ =>
    throw (.value ("CardStore event source for " ++ cardId ++ " is malformed"))
  | prev, .value v :: l =>
    match v with
    | .obj e => do
      checkChain env cardId name prev e
      let rest ← readLog env cardId name (env.lineHash (.value v)) l
      pure (e :: rest)
    | _ => throw (.value ("CardStore event source for " ++ cardId ++ " must contain JSON objects"))

/-- `(e.get("ts", ""), e.get("writer", ""), e.get("seq", 0))`. -/
def eventKey (e : Event) : SortKey3 :=
  .ofValues (e.getD "ts" (.str "")) (e.getD "writer" (.str "")) (e.getD "seq" (.int 0))

/-- The logs of a directory in the order in which they are read. -/
def sortedLogs (d : CardDir) : List (String × List LogLine) :=
  (d.logs.filter fun p => endsWith p.1 ".jsonl").insertionSort fun p q => p.1 ≤ q.1

/-- The events of the logs of a card, before they are sorted. -/
def readLogs (env : Env) (cardId : String) :
    List (String × List LogLine) → Except PyError (List Event)
  | [] => pure []
  | (name, lines) :: logs => do
    let events ← readLog env cardId name "" lines
    let rest ← readLogs env cardId logs
    pure (events ++ rest)

/-- `_read_events`. -/
def readEvents (env : Env) (st : Store) (cardId : String) : Except PyError (List Event) := do
  let _ ← validateCardLockIdentifier cardId
  let events ← readLogs env cardId (sortedLogs (st.dir cardId))
  sortByKey eventKey events

/-- `_legacy_events`. -/
def legacyEvents (st : Store) (cardId : String) : List Event :=
  ((Assoc.get? st.legacy cardId).getD []).map LegacyMutation.toEvent

/-- The events of a card in the order in which they fold. -/
def mergedEvents (env : Env) (st : Store) (cardId : String) : Except PyError (List Event) := do
  let events ← readEvents env st cardId
  if (st.legacyEvents cardId).isEmpty then pure events
  else sortByKey eventKey (events ++ st.legacyEvents cardId)

/-- `fold`. -/
def fold (env : Env) (st : Store) (cardId : String) : Except PyError (Option Card) := do
  match ← st.loadCore cardId with
  | none => pure none
  | some core =>
    let s ← foldInit cardId core
    let events ← mergedEvents env st cardId
    let s ← s.foldEvents cardId events
    pure (some s.card)

/-! ### Appending -/

/-- The anchor of `card_mutation_lock`.  With writes to the store switched off the lock falls back
to a file of its own. -/
def requireLockAnchor (env : Env) (st : Store) (cardId : String) : Except PyError Unit :=
  if env.writeEnabled then
    match (st.dir cardId).core with
    | .absent => throw (.value ("CardStore card " ++ cardId ++ " has no foldable core"))
    | .malformed => throw (.value ("CardStore core for " ++ cardId ++ " is malformed"))
    | .present core =>
      if core.id = cardId then pure ()
      else throw (.value ("CardStore core for " ++ cardId ++ " does not match its card"))
  else pure ()

/-- `_require_foldable_core`. -/
def requireFoldableCore (env : Env) (st : Store) (cardId : String) : Except PyError Unit := do
  let card ← fold env st cardId
  match card with
  | some c => if c.id = cardId then pure () else throw noCore
  | none => throw noCore
where
  noCore := PyError.value ("CardStore card " ++ cardId ++ " has no foldable core")

/-- The actions that `append_event` refuses on a voided card. -/
def voidTerminalActions : List String :=
  ["move", "reopen", "assign", "unassign", "claim", "release_claim", "complete"]

/-- The guard of `append_event` against a `void` in the logs of the card. -/
def requireNotVoided (env : Env) (st : Store) (cardId action : String) : Except PyError Unit :=
  if action ∈ voidTerminalActions then do
    let events ← readEvents env st cardId
    if events.any fun e => (e.get "action").pyEq (.str "void") then
      throw (.value
        ("CardStore card " ++ cardId ++ " is voided; void is a terminal decision"))
    else pure ()
  else pure ()

/-- The name of the log of an agent. -/
def writerFile (env : Env) (agent : String) : String :=
  let safe := replaceChar '@' '-' (replaceChar '/' '-' (if agent = "" then "unknown" else agent))
  safe ++ "@" ++ env.hostname ++ ".jsonl"

/-- The event in a log that a caller's token names. -/
def findTransition (tid : String) : List LogLine → Except PyError (Option Event)
  | [] => pure none
  | .value v :: l => do
    let t ← v.getAttr "transition_id"
    match v with
    | .obj e => if t.pyEq (.str tid) then pure (some e) else findTransition tid l
    | _ => findTransition tid l
  | _ :: l => findTransition tid l

/-- The event that `transition_id` names, when the payload has one. -/
def replayedEvent (lines : List LogLine) (payload : Dict) : Except PyError (Option Event) :=
  match Dict.get payload "transition_id" with
  | .str tid => if tid = "" then pure none else findTransition tid lines
  | _ => pure none

/-- The event that is written behind `lines`. -/
def newEvent (env : Env) (lines : List LogLine) (action agent : String) (payload : Dict)
    (stamp : Stamp) : Event :=
  payload.foldl (fun e p => Assoc.set e p.1 p.2)
    [("event_id", .str stamp.eventId),
      ("ts", .str stamp.ts),
      ("writer", .str agent),
      ("node", .str env.hostname),
      ("seq", .int lines.length),
      ("action", .str action),
      ("prev_hash", .str ((lines.getLast?.map env.lineHash).getD ""))]

/-- The lines of a log. -/
def logLines (st : Store) (cardId file : String) : List LogLine :=
  (Assoc.get? (st.dir cardId).logs file).getD []

/-- One more line at the end of a log. -/
def appendLine (st : Store) (cardId file : String) (line : LogLine) : Store :=
  { st with cards := Assoc.set st.cards cardId ((st.dir cardId).appendLine file line) }

/-- The payload with a normalised reason, for a release. -/
def normalisePayload (env : Env) (action : String) (payload : Dict) : Except PyError Dict :=
  if action = "release_claim" then do
    let reason ← validateAbandonReason env (Dict.get payload "abandon_reason")
    pure (Assoc.set payload "abandon_reason" (.str reason))
  else pure payload

/-- `append_event`, with the store it leaves and the event it returns. -/
def appendEvent (env : Env) (st : Store) (cardId action agent : String) (payload : Dict)
    (stamp : Stamp) : Except PyError (Store × Event) := do
  let _ ← validateCardLockIdentifier cardId
  let payload ← normalisePayload env action payload
  requireLockAnchor env st cardId
  requireFoldableCore env st cardId
  requireNotVoided env st cardId action
  let file := writerFile env agent
  let lines := st.logLines cardId file
  match ← replayedEvent lines payload with
  | some e => pure (st, e)
  | none =>
    let e := newEvent env lines action agent payload stamp
    pure (st.appendLine cardId file (.value (.obj e)), e)

end Store

end SkCoord
