import SkCoord.Coordination.Task
import SkCoord.Itil.Records

/-!
# The creation of incidents

An outage that a health check detects gets an identifier made of the service, the failure and the
day.  `createIncident` writes the core of that record unless one is there, reopens the record if it
has been resolved, and returns it as it is folded in the end.
-/

namespace SkCoord.Itil

open Python

/-- What `create_incident` reads of the machine that it runs on. -/
structure Machine where
  env : Env
  reader : Reader
  tables : CharTables
  hostname : String
  /-- `hashlib.blake2b(key.encode("utf-8"), digest_size=4).hexdigest()`. -/
  digest : String → String
  /-- `uuid.uuid4().hex[:8]`. -/
  randomHex : String
  /-- The day, in UTC. -/
  today : String
  detectedAt : String
  /-- The stamps of the events, in the order in which they are appended. -/
  reopened : Stamp
  created : Stamp
  linked : Stamp
  /-- `_create_gtd_item_for_incident`. -/
  gtdItem : Incident → Option String
  /-- The number of record directories, which bounds a chain of redirects. -/
  recordDirs : ℕ

/-- The text is the name of a file and no path: `/` and the null character are in no such name. -/
def IsFileName (s : String) : Prop := ∀ c ∈ s.toList, c ≠ '/' ∧ c.toNat ≠ 0

instance (s : String) : Decidable (IsFileName s) :=
  List.decidableBAll (fun c => c ≠ '/' ∧ c.toNat ≠ 0) s.toList

/-- The name of an agent.  Its log is a file of the directory of the events. -/
structure AgentName where
  text : String
  isFileName : IsFileName text

instance : Coe AgentName String := ⟨AgentName.text⟩

/-- `managed_by or created_by or "unknown"`. -/
def callerOf (managedBy createdBy : String) : String :=
  if managedBy ≠ "" then managedBy
  else if createdBy ≠ "" then createdBy
  else "unknown"

/-- The arguments of `create_incident`; an empty text stands for an absent one. -/
structure IncidentCall where
  title : String
  severity : String := "sev3"
  source : String := "manual"
  affectedServices : List String := []
  impact : String := ""
  managedBy : String := ""
  createdBy : String := ""
  tags : List String := []
  failureClass : String := ""
  /-- The agent names a file. -/
  isFileName : IsFileName (callerOf managedBy createdBy)

/-- `OPEN_INCIDENT_STATUSES`. -/
def openIncidentStatuses : List IncidentStatus :=
  [.detected, .acknowledged, .investigating, .escalated]

namespace IncidentCall

variable (call : IncidentCall)

/-- The agent of the call. -/
def agent : AgentName := ⟨callerOf call.managedBy call.createdBy, call.isFileName⟩

/-- `services[0] if services else title`. -/
def service : String := call.affectedServices.headD call.title

/-- `failure_class or "unreachable"`. -/
def failure : String := if call.failureClass = "" then "unreachable" else call.failureClass

end IncidentCall

/-- `_auto_incident_id`. -/
def autoIncidentId (m : Machine) (service failureClass dayBucket : String) : String :=
  "inc-" ++ m.digest (service ++ "|" ++ failureClass ++ "|" ++ dayBucket)

/-- The identifier of the record. -/
def recordIdOf (m : Machine) (call : IncidentCall) : String :=
  if call.source = "service_health" then autoIncidentId m call.service call.failure m.today
  else "inc-" ++ m.randomHex

/-- The birth facts of the record. -/
def newIncidentCore (m : Machine) (call : IncidentCall) (severity : String) : Dict :=
  [("id", .str (recordIdOf m call)), ("type", .str "incident"), ("title", .str call.title),
    ("label", .str (String.ofList ((slugifyFilename m.tables call.title).take 40))),
    ("severity_at_creation", .str severity), ("source", .str call.source),
    ("affected_services", .arr (call.affectedServices.map .str)), ("impact", .str call.impact),
    ("managed_by", .str call.agent.text),
    ("created_by", .str (if call.createdBy ≠ "" then call.createdBy else call.agent)),
    ("detected_at", .str m.detectedAt), ("tags", .arr (call.tags.map .str))] ++
  if call.source = "service_health" then
    [("dedup_key", .str (call.service ++ ":" ++ call.failure))]
  else []

/-! ### Writing -/

/-- The tree with another directory of a record. -/
def RecordTree.put (tree : RecordTree) (recordId : String) (d : RecordDir) : RecordTree where
  names := if recordId ∈ tree.names then tree.names else recordId :: tree.names
  recDir := Function.update tree.recDir recordId d

/-- `_write_core`. -/
def writeCore (m : Machine) (tree : RecordTree) (recordId : String) (core : Dict) : RecordTree :=
  if (tree.recDir recordId).core.isSome then tree
  else
    let text := (Json.obj core).pretty m.reader.floats 0 ++ ['\n']
    tree.put recordId { tree.recDir recordId with core := some (encodeUtf8 text) }

/-- The name of the log of an agent. -/
def logName (m : Machine) (agent : String) : String :=
  (if agent = "" then "unknown" else agent) ++ "@" ++ m.hostname ++ ".jsonl"

/-- The content of a log. -/
def RecordDir.log (d : RecordDir) (file : String) : Bytes := (Assoc.get? d.logs file).getD []

/-- The event behind `seq` lines. -/
def newEvent (m : Machine) (seq : ℕ) (agent kind : String) (payload : Dict) (stamp : Stamp) :
    RecordEvent :=
  payload.foldl (fun e p => Assoc.set e p.1 p.2)
    [("event_id", .str stamp.eventId), ("ts", .str stamp.ts), ("writer", .str agent),
      ("node", .str m.hostname), ("seq", .int seq), ("kind", .str kind)]

/-- `_append_event`. -/
def appendEvent (m : Machine) (tree : RecordTree) (recordId : String) (agent : AgentName)
    (kind : String) (payload : Dict) (stamp : Stamp) : Except PyError RecordTree := do
  let d := tree.recDir recordId
  let file := logName m agent
  let text ← readText (d.log file)
  let event := newEvent m (fileLines text).length agent kind payload stamp
  let line := (Json.obj event).dumps m.reader.floats .spaced ++ ['\n']
  pure (tree.put recordId
    { d with logs := Assoc.set d.logs file (d.log file ++ encodeUtf8 line) })

/-! ### Redirects -/

/-- `["canonical"]` of `redirect.json`, where the file has one. -/
def redirectValue (r : Reader) (d : RecordDir) : Option Json :=
  match d.redirect.bind r.readFile with
  | some (.obj stub) => Assoc.get? stub "canonical"
  | _ => none

/-- `_resolve_id` for a number of steps; `seen` are the identifiers behind. -/
def resolveFrom (r : Reader) (tree : RecordTree) :
    ℕ → List String → String → Except PyError String
  | 0, _, cur => pure cur
  | steps + 1, seen, cur =>
    if cur ∈ seen then pure cur
    else if (tree.recDir cur).core.isSome then pure cur
    else
      match redirectValue r (tree.recDir cur) with
      | none => pure cur
      | some (.str target) => resolveFrom r tree steps (cur :: seen) target
      -- no other value is hashed or is part of a path
      | some v => throw (.type ("unsupported operand type: " ++ v.typeName))

/-- `_record_exists`. -/
def recordExists (m : Machine) (tree : RecordTree) (recordId : String) : Except PyError Bool := do
  let rid ← resolveFrom m.reader tree (m.recordDirs + 1) [] recordId
  pure (tree.recDir rid).core.isSome

/-! ### Creating -/

/-- `_fold_record` of an incident. -/
def foldIncidentRecord (m : Machine) (tree : RecordTree) (recordId : String) :
    Except PyError (Option Incident) :=
  foldRecord m.reader (fun _ => foldIncident m.env) tree m.reader.redirects recordId

/-- The event of a record that was resolved and is detected again. -/
def reopenResolved (m : Machine) (tree : RecordTree) (call : IncidentCall) :
    Except PyError RecordTree := do
  let recordId := recordIdOf m call
  let existing ← foldIncidentRecord m tree recordId
  if existing.any fun i => i.status == .resolved then
    appendEvent m tree recordId call.agent "reopen"
      [("note", .str ("Incident recurred: " ++ call.title))] m.reopened
  else pure tree

/-- The event that links the record to its GTD item, for a record that is open. -/
def linkGtdItem (m : Machine) (tree : RecordTree) (call : IncidentCall) :
    Except PyError RecordTree := do
  let recordId := recordIdOf m call
  match ← foldIncidentRecord m tree recordId with
  | none => pure tree
  | some i =>
    if i.status ∉ openIncidentStatuses then pure tree
    else
      match m.gtdItem i with
      | none => pure tree
      | some gtdId =>
        if gtdId = "" then pure tree
        else appendEvent m tree recordId call.agent "gtd_link" [("id", .str gtdId)] m.linked

/-- The rest of `create_incident`, behind the core and the reopening. -/
def announceIncident (m : Machine) (tree : RecordTree) (call : IncidentCall) :
    Except PyError (RecordTree × Option Incident) := do
  let recordId := recordIdOf m call
  let tree ← appendEvent m tree recordId call.agent "created"
    [("note", .str ("Incident detected: " ++ call.title))] m.created
  let tree ← linkGtdItem m tree call
  let incident ← foldIncidentRecord m tree recordId
  pure (tree, incident)

/-- `create_incident`, with the tree that it leaves. -/
def createIncident (m : Machine) (tree : RecordTree) (call : IncidentCall) :
    Except PyError (RecordTree × Option Incident) := do
  let recordId := recordIdOf m call
  let existed ← recordExists m tree recordId
  let severity ← requireMember m.env "Severity" ["sev1", "sev2", "sev3", "sev4"]
    (.str call.severity)
  let tree := writeCore m tree recordId (newIncidentCore m call severity)
  let tree ← if existed then reopenResolved m tree call else pure tree
  announceIncident m tree call

end SkCoord.Itil
