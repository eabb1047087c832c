import SkCoord.CardStore.Store

/-!
# The kanban overlay and the archive index

Besides the logs of the cards two append-only paths carry mutations: the shards of
`coordination/card_events`, one for each host, and the archive index.  `CardEventLog.readAll` reads
the events that a shard admits, and `loadLegacyMutations` makes of both paths the mutations that a
fold merges with the events of the store.
-/

namespace SkCoord

open Python

/-- One kanban overlay event. -/
structure CardEvent where
  cardId : String
  action : String
  eventId : Option String := none
  writer : String := ""
  ts : String
  seq : Int := 0
  column : Option String := none
  order : Option Int := none
  priority : Option String := none
  swimlane : Option String := none
  label : Option String := none
  linkKey : Option String := none
  linkValue : Option String := none
  owner : Option String := none
  title : Option String := none
  description : Option String := none
  deriving DecidableEq, Repr

/-- `OVERLAY_ACTIONS`, in sorted order. -/
def overlayActions : List String :=
  ["add_label", "assign", "describe", "link", "move", "remove_label", "set_priority",
    "set_swimlane", "unassign", "verdict"]

/-- `_ACTION_FIELDS`. -/
def actionFields (action : String) : List String :=
  match action with
  | "move" => ["column", "order"]
  | "set_priority" => ["priority"]
  | "set_swimlane" => ["swimlane"]
  | "add_label" => ["label"]
  | "remove_label" => ["label"]
  | "link" => ["link_key", "link_value"]
  | "verdict" => ["link_key", "link_value"]
  | "assign" => ["owner"]
  | "describe" => ["title", "description"]
  | _ => []

namespace CardEvent

/-- The fields of `_OVERLAY_PAYLOAD_KEYS`, in their order; a field that is `None` is left out. -/
def payload (e : CardEvent) : Dict :=
  [("column", e.column.map Json.str), ("order", e.order.map Json.int),
    ("priority", e.priority.map Json.str), ("swimlane", e.swimlane.map Json.str),
    ("label", e.label.map Json.str), ("link_key", e.linkKey.map Json.str),
    ("link_value", e.linkValue.map Json.str), ("owner", e.owner.map Json.str),
    ("title", e.title.map Json.str), ("description", e.description.map Json.str)].filterMap
    fun p => p.2.map fun v => (p.1, v)

/-- `str(value or "").strip()` is not empty. -/
def hasText (value : Option String) : Bool := !isBlank (value.getD "")

/-- A writer of the form `_WRITER_RE`. -/
def isWriter (writer : String) : Bool :=
  let isAlnum (c : Char) := ('A' ≤ c && c ≤ 'Z') || ('a' ≤ c && c ≤ 'z') || ('0' ≤ c && c ≤ '9')
  match writer.toList with
  | [] => false
  | c :: l => isAlnum c && l.length ≤ 127 &&
    l.all fun c => isAlnum c || "._@:-".toList.contains c

/-- The field that an action with exactly one field sets. -/
def singleField (e : CardEvent) : Option (String × Option String) :=
  match e.action with
  | "set_priority" => some ("priority", e.priority)
  | "set_swimlane" => some ("swimlane", e.swimlane)
  | "add_label" => some ("label", e.label)
  | "remove_label" => some ("label", e.label)
  | _ => none

/-- `validate_overlay_event`. -/
def validate (env : Env) (e : CardEvent) (requireWriter : Bool) : Except PyError Unit := do
  let shown := "overlay action " ++ env.repr (.str e.action)
  if e.action ∉ overlayActions then
    throw (.value ("unsupported " ++ shown ++ "; expected one of " ++
      env.repr (.arr (overlayActions.map .str))))
  if requireWriter && !isWriter e.writer then
    throw (.value "overlay writer must be a nonempty bounded identity")
  let populated := e.payload.map Prod.fst
  let reserved := populated.filter fun name => !(actionFields e.action).contains name
  if reserved ≠ [] then
    throw (.value (shown ++ " carries reserved field(s): " ++
      String.intercalate ", " (reserved.insertionSort fun x y => x ≤ y)))
  if e.action = "move" ∧ populated = [] then
    throw (.value "overlay action 'move' requires column or order")
  match e.singleField with
  | some (name, value) =>
    if !hasText value then throw (.value (shown ++ " requires " ++ name))
  | none => pure ()
  if (e.action = "link" ∨ e.action = "verdict") ∧ (!hasText e.linkKey || e.linkValue.isNone) then
    throw (.value (shown ++ " requires link_key and link_value"))
  if e.action = "verdict" ∧ e.linkKey ≠ some "verdict" then
    throw (.value "overlay action 'verdict' requires link_key='verdict'")
  if e.action = "assign" ∧ !hasText e.owner then
    throw (.value "overlay action 'assign' requires owner")
  if e.action = "describe" ∧ e.title = none ∧ e.description = none then
    throw (.value "overlay action 'describe' requires title or description")

end CardEvent

/-! ### Reading -/

/-- A non-blank line of a shard, `none` where `model_validate_json` refuses it. -/
abbrev OverlayLine := Option CardEvent

/-- The event of a line that the reader admits. -/
def admitted (env : Env) (line : OverlayLine) : Option CardEvent :=
  line.filter fun e => (e.validate env true).isOk

namespace CardEventLog

/-- `read_all`: the admitted events of the shards in the order of their names. -/
def readAll (env : Env) (shards : Assoc String (List OverlayLine)) : List CardEvent :=
  let shards := shards.filter fun p => endsWith p.1 ".jsonl"
  (shards.insertionSort fun p q => p.1 ≤ q.1).flatMap fun p => p.2.filterMap (admitted env)

end CardEventLog

/-- `_OVERLAY_TO_STORE_ACTION`. -/
def overlayToStoreAction (action : String) : Option LegacyAction :=
  match action with
  | "move" => some .move
  | "set_priority" => some .priority
  | "set_swimlane" => some .swimlane
  | "add_label" => some .addLabel
  | "remove_label" => some .removeLabel
  | "link" => some .link
  | "assign" => some .assign
  | "unassign" => some .unassign
  | "describe" => some .describe
  | "verdict" => some .link
  | _ => none

/-- The mutation of an overlay event. -/
def overlayMutation (e : CardEvent) : Option LegacyMutation :=
  (overlayToStoreAction e.action).map fun action =>
    { action, ts := .str e.ts, writer := .str e.writer, seq := e.seq, origin := "legacy-overlay"
      payload := e.payload }

/-- A line of the archive index. -/
structure ArchiveEntry where
  id : String
  archivedAt : Json := .str ""
  archivedBy : Json := .null

/-- The mutation of a line of the archive index. -/
def archiveMutation (entry : ArchiveEntry) : LegacyMutation :=
  { action := .archive, ts := entry.archivedAt, writer := entry.archivedBy.orElse (.str "archive")
    origin := "legacy-archive" }

/-- One more mutation of a card. -/
def addMutation (out : Assoc String (List LegacyMutation)) (p : String × LegacyMutation) :
    Assoc String (List LegacyMutation) :=
  Assoc.set out p.1 ((Assoc.get? out p.1).getD [] ++ [p.2])

/-- The mutations of the archive index and of the overlay, with the cards they are about. -/
def legacyMutations (archive : List ArchiveEntry) (overlay : List CardEvent) :
    List (String × LegacyMutation) :=
  (archive.filter fun entry => entry.id ≠ "").map (fun entry => (entry.id, archiveMutation entry))
    ++ overlay.filterMap fun e => (overlayMutation e).map fun m => (e.cardId, m)

/-- `load_legacy_mutations`. -/
def loadLegacyMutations (archive : List ArchiveEntry) (overlay : List CardEvent) :
    Assoc String (List LegacyMutation) :=
  (legacyMutations archive overlay).foldl addMutation []

/-- The shared home, as far as cards are concerned: the card directories, the lines of the archive
index and the shards of the overlay. -/
structure Home where
  cards : Assoc String CardDir := []
  archive : List ArchiveEntry := []
  shards : Assoc String (List OverlayLine) := []

namespace Home

/-- The events of the overlay. -/
def overlay (env : Env) (home : Home) : List CardEvent := CardEventLog.readAll env home.shards

/-- `CardStore(home)`. -/
def store (env : Env) (home : Home) : Store :=
  { cards := home.cards, legacy := loadLegacyMutations home.archive (home.overlay env) }

end Home

/-! ### Appending -/

namespace CardEventLog

/-- The name of the shard of this host. -/
def shardName (env : Env) : String := env.hostname ++ ".jsonl"

/-- The lines of the shard of this host. -/
def shardLines (env : Env) (home : Home) : List OverlayLine :=
  (Assoc.get? home.shards (shardName env)).getD []

/-- The checks of `append` on the event itself. -/
def requireIdentity (env : Env) (e : CardEvent) : Except PyError Unit :=
  if !CardEvent.isWriter e.writer then
    throw (.value "overlay writer must be a nonempty bounded identity")
  else if e.action ∉ overlayActions then e.validate env false
  else pure ()

/-- The checks of `append` on the card of the event. -/
def requireCard (env : Env) (home : Home) (e : CardEvent) : Except PyError Unit := do
  let store := home.store env
  let hasCore := match (store.dir e.cardId).core with
    | .absent => false
    | _ => true
  if e.action = "describe" ∨ e.action = "link" then
    let card ← store.fold env e.cardId
    if card.isNone then
      throw (.value ("CardStore card " ++ e.cardId ++ " has no foldable core"))
  if hasCore && ["move", "assign", "unassign"].contains e.action then
    store.requireNotVoided env e.cardId e.action

/-- The checks of `append` under the lock of the shard.  A line that no reader admits closes it. -/
def requireShard (env : Env) (home : Home) (e : CardEvent) : Except PyError Unit :=
  let name := shardName env
  if name.toList.any (fun c => c = '/' || c = '\\') || contains name ".." then
    throw (.value "card event writer filename is unsafe")
  else do
    e.validate env true
    -- the text of the error also names the line and what is wrong with it
    if (shardLines env home).any fun line => (admitted env line).isNone then
      throw (.value ("existing overlay shard " ++ name ++ " is invalid"))

/-- What `append` checks before it writes. -/
def requireAppendable (env : Env) (home : Home) (e : CardEvent) : Except PyError Unit := do
  requireIdentity env e
  requireCard env home e
  requireShard env home e

end CardEventLog

/-- The home with one more line at the end of the shard of this host. -/
def Home.appendShard (env : Env) (home : Home) (e : CardEvent) : Home :=
  { home with
    shards := Assoc.set home.shards (CardEventLog.shardName env)
      (CardEventLog.shardLines env home ++ [some e]) }

end SkCoord
