import SkCoord.Cmdb.Item
import SkCoord.Python.JsonIndent

/-!
# `CMDBManager`

Each item has a directory with a write-once `core.json` and one append-only log for each writer.
The files hold bytes.  `readEvents` merges the logs in the order `(ts, writer, seq)`, `getCi` folds
them over the core, and every write but `createCi` appends one line to one log.
-/

namespace SkCoord.Cmdb

open Python

/-- The directory of an item: `core.json` and the files of `events` by name. -/
structure CiDir where
  core : Option Bytes := none
  logs : Assoc String Bytes := []
  nodup : (Assoc.keys logs).Nodup := by decide

/-- `cmdb_dir`: the directories of the items by name. -/
abbrev CmdbDir := Assoc String CiDir

/-- A directory with another content of one log. -/
def CiDir.setLog (d : CiDir) (file : String) (content : Bytes) : CiDir :=
  { d with
    logs := Assoc.set d.logs file content
    nodup := Assoc.nodup_keys_set d.nodup _ _ }

namespace CmdbDir

/-- The directory of an item. -/
def ciDir (dir : CmdbDir) (ciId : String) : CiDir := (Assoc.get? dir ciId).getD {}

/-- The content of a log. -/
def log (dir : CmdbDir) (ciId file : String) : Bytes :=
  (Assoc.get? (dir.ciDir ciId).logs file).getD []

end CmdbDir

/-! ### Reading -/

/-- `(e.get("ts", ""), e.get("writer", ""), e.get("seq", 0))`. -/
def eventKey (e : Dict) : SortKey3 :=
  .ofValues (e.getD "ts" (.str "")) (e.getD "writer" (.str "")) (e.getD "seq" (.int 0))

/-- The objects on the lines of a text; other lines are skipped. -/
def eventsOfText (F : FloatText) (text : List Char) : List Dict :=
  (nonBlankLines text).filterMap fun line =>
    match Json.loads F line with
    | some (.obj e) => some e
    | _ => none

/-- The schema version of an event that is read from a log. -/
def eventVersion (env : Env) (file : String) (e : Dict) : Except PyError Int :=
  schemaVersion env (e.getD "schema_version" (.int 1)) ("event " ++ file)

/-- The events of one log. -/
def readLog (env : Env) (file : String × Bytes) : Except PyError (List Dict) := do
  let text ← readText file.2
  (eventsOfText env.floats text).mapM fun e => do
    let _ ← eventVersion env file.1 e
    pure e

/-- The logs of a directory in the order in which they are read. -/
def CiDir.sortedLogs (d : CiDir) : List (String × Bytes) :=
  (d.logs.filter fun p => endsWith p.1 ".jsonl").insertionSort fun p q => p.1 ≤ q.1

namespace CmdbDir

/-- `_read_events`. -/
def readEvents (env : Env) (dir : CmdbDir) (ciId : String) : Except PyError (List Dict) := do
  let logs ← (dir.ciDir ciId).sortedLogs.mapM (readLog env)
  sortByKey eventKey logs.flatten

/-- The value of `core.json`, if it is one. -/
def coreValue (env : Env) (content : Bytes) : Option Json :=
  (decodeUtf8 content).bind (Json.loads env.floats)

/-- `get_ci`. -/
def getCi (env : Env) (dir : CmdbDir) (ciId : String) : Except PyError (Option ConfigItem) :=
  match (dir.ciDir ciId).core with
  | none => pure none
  | some content =>
    match coreValue env content with
    | none => pure none
    | some core => do
      let ci ← ConfigItem.ofCore env ciId core
      let events ← dir.readEvents env ciId
      let ci ← events.foldlM (ConfigItem.step env) ci
      pure (some ci)

/-- The directories that hold a `core.json`, in order. -/
def ciNames (dir : CmdbDir) : List String :=
  ((dir.filter fun p => p.2.core.isSome).map Prod.fst).insertionSort fun x y => x ≤ y

/-- `list_cis`. -/
def listCis (env : Env) (dir : CmdbDir) : Except PyError (List ConfigItem) := do
  let cis ← dir.ciNames.mapM (dir.getCi env)
  pure (cis.filterMap id)

end CmdbDir

/-! ### Identifiers -/

/-- `re.sub(r"[^\w.-]+", "-", s)`; `inRun` says that the character before was replaced. -/
def dashRuns (u : CharTables) (inRun : Bool) : List Char → List Char
  | [] => []
  | c :: l =>
    if u.isWord c || c == '.' || c == '-' then c :: dashRuns u false l
    else if inRun then dashRuns u true l
    else '-' :: dashRuns u true l

/-- `_slug`. -/
def slug (u : CharTables) (text : String) : String :=
  let s := (stripDashes (dashRuns u false (u.lower text).toList)).take 48
  if s = [] then "ci" else String.ofList s

/-- `make_ci_id`. -/
def makeCiId (u : CharTables) (ciType name : String) : String :=
  "ci-" ++ ciType ++ "-" ++ slug u name

/-- `_writer_id`, with the suffix of the log. -/
def writerFile (env : Env) (agent : String) : String :=
  replaceChar '@' '-' (replaceChar '/' '-' (if agent = "" then "unknown" else agent)) ++ "@" ++
    env.hostname ++ ".jsonl"

/-! ### Writing -/

/-- The store, and how often the clock was read. -/
structure Manager where
  dir : CmdbDir := []
  ticks : Nat := 0

/-- `_now_iso()`. -/
def drawNow (env : Env) : Effect Manager String := fun s =>
  (.ok (env.now s.ticks), { s with ticks := s.ticks + 1 })

/-- The value of a new `core.json`. -/
def newCore (ciId ciType name description owner node : String) (attributes : Dict)
    (tags : List String) (createdAt : String) : Dict :=
  [("schema_version", .int schemaVersionSupported),
    ("id", .str ciId),
    ("ci_type", .str ciType),
    ("name", .str name),
    ("description", .str description),
    ("owner", .str owner),
    ("node", .str node),
    ("attributes", .obj attributes),
    ("tags", .arr (tags.map .str)),
    ("created_at", .str createdAt)]

/-- The content of `core.json`. -/
def coreContent (F : FloatText) (core : Dict) : Bytes :=
  encodeUtf8 ((Json.obj core).pretty F 0 ++ ['\n'])

/-- The write of `core.json` with `O_CREAT | O_EXCL`. -/
def CmdbDir.publishCore (dir : CmdbDir) (ciId : String) (content : Bytes) : CmdbDir :=
  if (dir.ciDir ciId).core.isSome then dir
  else Assoc.set dir ciId { dir.ciDir ciId with core := some content }

/-- `create_ci`. -/
def createCi (env : Env) (name ciType description owner node : String) (attributes : Dict)
    (tags : List String) (ciId : String) : Effect Manager (Option ConfigItem) := do
  let cid := if ciId = "" then makeCiId env.tables ciType name else ciId
  let _ ← Effect.lift (validateAttributeWrite env (.obj attributes))
  let createdAt ← drawNow env
  let core := newCore cid ciType name description owner node attributes tags createdAt
  Effect.modify fun s => { s with dir := s.dir.publishCore cid (coreContent env.floats core) }
  let s ← Effect.get
  Effect.lift (s.dir.getCi env cid)

/-- The fields of every event. -/
def eventFields (env : Env) (seq : Nat) (agent action ts : String) : Dict :=
  [("schema_version", .int schemaVersionSupported),
    ("ts", .str ts),
    ("writer", .str agent),
    ("node", .str env.hostname),
    ("seq", .int seq),
    ("action", .str action)]

/-- The event that is written behind `seq` lines. -/
def newEvent (env : Env) (seq : Nat) (agent action ts : String) (payload : Dict) : Dict :=
  payload.foldl (fun e p => Assoc.set e p.1 p.2) (eventFields env seq agent action ts)

/-- A content with the line of an event behind it. -/
def withLine (F : FloatText) (content : Bytes) (e : Dict) : Bytes :=
  content ++ encodeUtf8 ((Json.obj e).dumps F .spaced ++ ['\n'])

/-- A store with another content of one log. -/
def CmdbDir.setLog (dir : CmdbDir) (ciId file : String) (content : Bytes) : CmdbDir :=
  Assoc.set dir ciId ((dir.ciDir ciId).setLog file content)

/-- `_append`. -/
def append (env : Env) (ciId agent action : String) (payload : Dict) : Effect Manager Unit := do
  let s ← Effect.get
  let file := writerFile env agent
  let text ← Effect.lift (readText (s.dir.log ciId file))
  let ts ← drawNow env
  let event := newEvent env (fileLines text).length agent action ts payload
  Effect.modify fun s =>
    { s with dir := s.dir.setLog ciId file (withLine env.floats (s.dir.log ciId file) event) }

/-- `set_status`. -/
def setStatus (env : Env) (ciId agent status note : String) : Effect Manager Unit :=
  append env ciId agent "status" [("status", .str status), ("note", .str note)]

/-- `set_attribute`. -/
def setAttribute (env : Env) (ciId agent key : String) (value : Json) : Effect Manager Unit := do
  let _ ← Effect.lift (validateAttributeWrite env (.obj [(key, value)]))
  append env ciId agent "attribute" [("key", .str key), ("value", value)]

/-- `add_relationship`. -/
def addRelationship (env : Env) (ciId agent relType target authority : String) :
    Effect Manager Unit :=
  append env ciId agent "relate"
    [("rel_type", .str relType), ("target", .str target), ("authority", .str authority)]

/-- `remove_relationship`. -/
def removeRelationship (env : Env) (ciId agent relType target : String) : Effect Manager Unit :=
  append env ciId agent "unrelate" [("rel_type", .str relType), ("target", .str target)]

/-- `set_metadata`. -/
def setMetadata (env : Env) (ciId agent key value : String) : Effect Manager Unit :=
  if key ∈ ["name", "description", "owner", "node"] then
    append env ciId agent "metadata" [("key", .str key), ("value", .str value)]
  else .raise (.value ("unsupported mutable metadata field: " ++ key))

/-- `add_tag`. -/
def addTag (env : Env) (ciId agent tag authority : String) : Effect Manager Unit :=
  append env ciId agent "tag" [("tag", .str tag), ("authority", .str authority)]

/-- `remove_tag`. -/
def removeTag (env : Env) (ciId agent tag authority : String) : Effect Manager Unit :=
  append env ciId agent "untag" [("tag", .str tag), ("authority", .str authority)]

end SkCoord.Cmdb
