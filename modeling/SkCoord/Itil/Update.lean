import SkCoord.Itil.CreateIncident

/-!
# The updates of records

`updateIncident`, `updateProblem` and `updateChange` append events to a record that is there and
return it as it is folded in the end.  On the way they complete and emit GTD items and publish
events; `World.sent` is what a call did outside of the records.
-/

namespace SkCoord.Itil

open Python

/-- What a call does outside of the records. -/
inductive Outward where
  /-- A turn of the loop of `_complete_gtd_items`. -/
  | complete (gtdId : String)
  /-- `_publish_event`. -/
  | publish (topic : String) (payload : Dict)
  /-- `_gtd_emit`. -/
  | emit (text sourceRef status priority : String)

/-- `KEDBEntry`, as `update_problem` makes it. -/
structure KEDBEntry where
  id : String
  title : String
  symptoms : List String := []
  rootCause : String
  workaround : String
  permanentFixChangeId : Option String := none
  relatedProblemId : Option String
  managedBy : String
  createdAt : String
  tags : List String := []

/-- What the updates read of the machine that they run on. -/
structure Updater where
  machine : Machine
  disk : Disk
  votes : VoteFiles
  /-- The stamps of the events, in the order in which they are appended. -/
  stamps : ℕ → Stamp
  /-- What `_gtd_emit` returns for a text, a reference, a status and a priority. -/
  gtdEmit : String → String → String → String → Option String
  /-- The identifier and the time of a new entry of the KEDB. -/
  kedb : Stamp

/-- What a call has before it and what it did. -/
structure World where
  /-- The directory of the records of its type. -/
  tree : RecordTree
  /-- The number of events that it appended. -/
  appended : ℕ := 0
  entries : List KEDBEntry := []
  sent : List Outward := []

/-- A statement of an update. -/
abbrev Update := Effect World

/-- `if test: x`. -/
def onlyIf (test : Prop) [Decidable test] (x : Update Unit) : Update Unit :=
  if test then x else pure ()

/-- The record, or the error of reading a field of `None`. -/
def requireRecord {α : Type} (field : String) : Option α → Update α
  | some record => pure record
  | none => Effect.raise (.attr ("'NoneType' object has no attribute '" ++ field ++ "'"))

/-- What is done outside of the records. -/
def send (outward : List Outward) : Update Unit :=
  Effect.modify fun w => { w with sent := w.sent ++ outward }

namespace Updater

variable (u : Updater)

/-- `_append_event`. -/
def append (recordId : String) (agent : AgentName) (kind : String) (payload : Dict) :
    Update Unit := do
  let w ← Effect.get
  let tree ← Effect.lift
    (appendEvent u.machine w.tree recordId agent kind payload (u.stamps w.appended))
  Effect.modify fun w => { w with tree := tree, appended := w.appended + 1 }

/-- `_resolve_id`. -/
def resolveId (tree : RecordTree) (recordId : String) : Except PyError String :=
  resolveFrom u.machine.reader tree (u.machine.recordDirs + 1) [] recordId

/-- The identifier behind redirects of a record that is there. -/
def findRecord (name recordId : String) (tree : RecordTree) : Except PyError String := do
  let rid ← u.resolveId tree recordId
  let there ← recordExists u.machine tree rid
  if there then pure rid else throw (.value (name ++ " " ++ recordId ++ " not found"))

/-! ### Folding -/

/-- `_fold_record` of a type of record. -/
abbrev Fold (α : Type) := RecordTree → String → Except PyError (Option α)

def foldIncident : Fold Incident := foldIncidentRecord u.machine

def foldProblem : Fold Problem := fun tree recordId =>
  foldRecord u.machine.reader (fun _ => SkCoord.Itil.foldProblem u.machine.env) tree
    u.machine.reader.redirects recordId

def foldChange : Fold Change := fun tree recordId =>
  foldRecord u.machine.reader
    (foldVotedChange u.machine.env u.machine.reader.floats u.disk u.votes) tree
    u.machine.reader.redirects recordId

/-- `_fold_record` of the record as it is now. -/
def foldNow {α : Type} (fold : Fold α) (recordId : String) : Update (Option α) := do
  let w ← Effect.get
  Effect.lift (fold w.tree recordId)

/-! ### Incidents and problems -/

/-- The status event of an incident or a problem; the GTD items are completed when the call asks for
`resolved`. -/
def statusEvent {α : Type} (fold : Fold α) (gtdItemIds : α → List String)
    (recordId : String) (agent : AgentName) (newStatus : String) (payload : Dict) : Update Unit :=
  onlyIf (newStatus ≠ "") do
    u.append recordId agent "status" payload
    onlyIf (newStatus = "resolved") do
      let folded ← foldNow fold recordId
      let folded ← requireRecord "gtd_item_ids" folded
      send ((gtdItemIds folded).map .complete)

end Updater

/-- The arguments of `update_incident`; an empty text stands for an absent one. -/
structure IncidentUpdate where
  incidentId : String
  agent : AgentName
  newStatus : String := ""
  note : String := ""
  resolutionSummary : String := ""
  severity : String := ""
  relatedProblemId : String := ""
  managedBy : String := ""

namespace IncidentUpdate

/-- The payload of the status event. -/
def payload (call : IncidentUpdate) : Dict :=
  [("to", .str call.newStatus), ("note", .str call.note)] ++
    if call.newStatus = "resolved" ∧ call.resolutionSummary ≠ "" then
      [("resolution_summary", .str call.resolutionSummary)]
    else []

end IncidentUpdate

/-- The arguments of `update_problem`. -/
structure ProblemUpdate where
  problemId : String
  agent : AgentName
  newStatus : String := ""
  rootCause : String := ""
  workaround : String := ""
  note : String := ""
  createKedb : Bool := false

/-- The payload of the status event of a problem or a change. -/
def statusPayload (newStatus note : String) : Dict :=
  [("to", .str newStatus), ("note", .str note)]

/-- The arguments of `update_change`. -/
structure ChangeUpdate where
  changeId : String
  agent : AgentName
  newStatus : String := ""
  note : String := ""

namespace Updater

variable (u : Updater)

/-- `update_incident` behind the status event. -/
def detailIncident (recordId : String) (call : IncidentUpdate) : Update (Option Incident) := do
  onlyIf (call.severity ≠ "") do
    u.append recordId call.agent "severity" [("to", .str call.severity), ("note", .str call.note)]
    send [.publish "itil.incident.escalated"
      [("id", .str recordId), ("new_severity", .str call.severity)]]
  onlyIf (call.relatedProblemId ≠ "") do
    u.append recordId call.agent "link_problem" [("id", .str call.relatedProblemId)]
  onlyIf (call.managedBy ≠ "") do
    u.append recordId call.agent "assignment"
      [("to", .str call.managedBy), ("note", .str call.note)]
  onlyIf (call.note ≠ "" ∧ call.newStatus = "" ∧ call.severity = "" ∧ call.managedBy = "") do
    u.append recordId call.agent "note" [("note", .str call.note)]
  foldNow u.foldIncident recordId

/-- `update_incident`. -/
def updateIncident (call : IncidentUpdate) : Update (Option Incident) := do
  let w ← Effect.get
  let recordId ← Effect.lift (u.findRecord "Incident" call.incidentId w.tree)
  u.statusEvent u.foldIncident Incident.gtdItemIds recordId call.agent call.newStatus call.payload
  u.detailIncident recordId call

/-- The KEDB entry of a problem whose root cause is known. -/
def enterKedb (recordId : String) (call : ProblemUpdate) : Update Unit := do
  let folded ← foldNow u.foldProblem recordId
  let prb ← requireRecord "root_cause" folded
  let rootCause := prb.rootCause.getD ""
  onlyIf (rootCause ≠ "") do
    let entry : KEDBEntry :=
      { id := u.kedb.eventId
        title := prb.title
        rootCause := rootCause
        workaround := prb.workaround.getD ""
        relatedProblemId := some prb.id
        managedBy := call.agent
        createdAt := u.kedb.ts }
    Effect.modify fun w => { w with entries := w.entries ++ [entry] }
    u.append recordId call.agent "link_kedb" [("id", .str entry.id)]

/-- `update_problem` behind the status event. -/
def detailProblem (recordId : String) (call : ProblemUpdate) : Update (Option Problem) := do
  onlyIf (call.rootCause ≠ "") do
    u.append recordId call.agent "root_cause" [("text", .str call.rootCause)]
  onlyIf (call.workaround ≠ "") do
    u.append recordId call.agent "workaround" [("text", .str call.workaround)]
  onlyIf (call.note ≠ "" ∧ call.newStatus = "") do
    u.append recordId call.agent "note" [("note", .str call.note)]
  onlyIf (call.createKedb = true) do
    u.enterKedb recordId call
  foldNow u.foldProblem recordId

/-- `update_problem`. -/
def updateProblem (call : ProblemUpdate) : Update (Option Problem) := do
  let w ← Effect.get
  let recordId ← Effect.lift (u.findRecord "Problem" call.problemId w.tree)
  u.statusEvent u.foldProblem Problem.gtdItemIds recordId call.agent call.newStatus
    (statusPayload call.newStatus call.note)
  u.detailProblem recordId call

/-! ### Changes -/

/-- The task of an approved change, for an implementer and once. -/
def emitTask (recordId : String) (agent : AgentName) (core : Dict) (folded : Change) :
    Update Unit :=
  onlyIf ((core.get "implementer").truthy = true ∧ folded.gtdItemIds = []) do
    let text := "[ITIL:" ++ recordId ++ "] Implement: " ++
      u.machine.env.format (core.getD "title" (.str ""))
    send [.emit text recordId "next" "high"]
    let gtdId := (u.gtdEmit text recordId "next" "high").getD ""
    onlyIf (gtdId ≠ "") do
      u.append recordId agent "gtd_link" [("id", .str gtdId)]

/-- The announcement of a change that is approved or deployed as the call asks. -/
def announceChange (recordId : String) (core : Json) (call : ChangeUpdate) (folded : Change) :
    Update Unit := do
  if call.newStatus = "approved" ∧ folded.status.value = "approved" then do
    let core ← Effect.lift (asEvent core)
    send [.publish "itil.change.approved" [("id", .str recordId),
      ("title", core.getD "title" (.str "")), ("implementer", core.get "implementer")]]
    u.emitTask recordId call.agent core folded
  else if call.newStatus = "deployed" ∧ folded.status.value = "deployed" then do
    let core ← Effect.lift (asEvent core)
    send [.publish "itil.change.deployed"
      [("id", .str recordId), ("title", core.getD "title" (.str ""))]]
  else pure ()

/-- `update_change`. -/
def updateChange (call : ChangeUpdate) : Update (Option Change) := do
  let w ← Effect.get
  let recordId ← Effect.lift (u.resolveId w.tree call.changeId)
  match loadCore u.machine.reader (w.tree.recDir recordId) with
  | none => Effect.raise (.value ("Change " ++ call.changeId ++ " not found"))
  | some core => do
    onlyIf (call.newStatus ≠ "") do
      u.append recordId call.agent "status" (statusPayload call.newStatus call.note)
      let folded ← foldNow u.foldChange recordId
      let folded ← requireRecord "status" folded
      u.announceChange recordId core call folded
    onlyIf (call.note ≠ "" ∧ call.newStatus = "") do
      u.append recordId call.agent "note" [("note", .str call.note)]
    foldNow u.foldChange recordId

end Updater

/-- What a call that starts on a tree does outside of the records. -/
def sentBy {α : Type} (call : Update α) (tree : RecordTree) : List Outward :=
  (call.run { tree := tree }).2.sent

end SkCoord.Itil
