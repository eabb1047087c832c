import SkCoord.Itil.Change

/-!
# ITIL incident records

`foldIncident` is `ITILManager._fold_incident`: `IncidentState.step` is its loop body, with one
definition for each kind of event.
-/

namespace SkCoord.Itil

open Python

/-- One line of the log of a record. -/
abbrev RecordEvent := ChangeEvent

/-- `IncidentStatus`. -/
inductive IncidentStatus where
  | detected
  | acknowledged
  | investigating
  | escalated
  | resolved
  | closed
  deriving DecidableEq, Repr, Inhabited

namespace IncidentStatus

/-- The text of a status. -/
def value : IncidentStatus → String
  | detected => "detected"
  | acknowledged => "acknowledged"
  | investigating => "investigating"
  | escalated => "escalated"
  | resolved => "resolved"
  | closed => "closed"

/-- The status of a text, if it is one. -/
def ofValue? (s : String) : Option IncidentStatus :=
  match s with
  | "detected" => some detected
  | "acknowledged" => some acknowledged
  | "investigating" => some investigating
  | "escalated" => some escalated
  | "resolved" => some resolved
  | "closed" => some closed
  | _ => none

/-- `_INCIDENT_TRANSITIONS`. -/
def transitions : IncidentStatus → List IncidentStatus
  | detected => [acknowledged, escalated, resolved]
  | acknowledged => [investigating, escalated, resolved]
  | investigating => [escalated, resolved]
  | escalated => [investigating, resolved]
  | resolved => [closed]
  | closed => []

/-- `to in _INCIDENT_TRANSITIONS.get(status, set())`, with the status it names. -/
def allowed (status : IncidentStatus) (target : Json) : Except PyError (Option IncidentStatus) := do
  target.requireHashable
  match target with
  | .str s => pure ((ofValue? s).filter fun c => c ∈ status.transitions)
  | _ => pure none

end IncidentStatus

/-! ### Severities -/

/-- `_SEV_RANK.get(severity, 0)`. -/
def sevRank (severity : Json) : Except PyError ℕ := do
  severity.requireHashable
  match severity with
  | .str "sev1" => pure 4
  | .str "sev2" => pure 3
  | .str "sev3" => pure 2
  | .str "sev4" => pure 1
  | _ => pure 0

/-- `_max_severity`. -/
def maxSeverity (a b : Json) : Except PyError Json := do
  let rankA ← sevRank a
  let rankB ← sevRank b
  pure (if rankB ≤ rankA then a else b)

/-! ### The loop -/

/-- The variables of the loop. -/
structure IncidentState where
  status : IncidentStatus := .detected
  severity : Json
  timeline : List Dict := []
  acknowledgedAt : Json := .null
  resolvedAt : Json := .null
  closedAt : Json := .null
  resolutionSummary : Json := .null
  relatedProblemId : Json
  tags : List Json
  gtdIds : List Json := []
  title : Json
  managedBy : Json
  seenCreated : Bool := false

namespace IncidentState

/-- One more timeline entry. -/
def log (s : IncidentState) (entry : Dict) : IncidentState :=
  { s with timeline := s.timeline ++ [entry] }

def foldCreated (s : IncidentState) (e : RecordEvent) : IncidentState :=
  if s.seenCreated then s
  else { s with seenCreated := true }.log (e.entry "created" e.note)

/-- The fields that a new status sets. -/
def stamp (s : IncidentState) (e : RecordEvent) : IncidentStatus → IncidentState
  | .acknowledged =>
    { s with acknowledgedAt := if s.acknowledgedAt.truthy then s.acknowledgedAt else e.ts }
  | .resolved =>
    { s with
      resolvedAt := if s.resolvedAt.truthy then s.resolvedAt else e.ts
      resolutionSummary :=
        if (e.get "resolution_summary").truthy then e.get "resolution_summary"
        else s.resolutionSummary }
  | .closed => { s with closedAt := if s.closedAt.truthy then s.closedAt else e.ts }
  | _ => s

def foldStatus (env : Env) (s : IncidentState) (e : RecordEvent) : Except PyError IncidentState := do
  let target ← s.status.allowed (e.get "to")
  let action := "status:" ++ s.status.value ++ "->" ++ env.format (e.get "to")
  match target with
  | some c => pure ({ s.log (e.entry action e.note) with status := c }.stamp e c)
  | none => pure (s.log (e.conflictEntry action))

def foldReopen (s : IncidentState) (e : RecordEvent) : IncidentState :=
  if s.status == .resolved then
    { s.log (e.entry "status:resolved->investigating" (e.note.orElse (.str "reopened"))) with
      status := .investigating
      resolvedAt := .null
      resolutionSummary := .null }
  else s.log (e.conflictEntry ("reopen:" ++ s.status.value))

def foldSeverity (env : Env) (s : IncidentState) (e : RecordEvent) :
    Except PyError IncidentState := do
  let t := s.log (e.entry ("severity:" ++ env.format s.severity ++ "->" ++ env.format (e.get "to"))
    e.note)
  let severity ← maxSeverity s.severity (e.get "to")
  pure { t with severity := severity }

def foldAck (s : IncidentState) (e : RecordEvent) : IncidentState :=
  { s with acknowledgedAt := if s.acknowledgedAt.truthy then s.acknowledgedAt else e.ts }.log
    (e.entry "acknowledged" e.note)

def foldResolution (s : IncidentState) (e : RecordEvent) : IncidentState :=
  if (e.get "resolution_summary").truthy then
    { s with resolutionSummary := e.get "resolution_summary" }
  else s

def foldLinkProblem (s : IncidentState) (e : RecordEvent) : IncidentState :=
  if (e.get "id").truthy then { s with relatedProblemId := e.get "id" } else s

def foldTitle (s : IncidentState) (e : RecordEvent) : IncidentState :=
  let s := if (e.get "text").truthy then { s with title := e.get "text" } else s
  s.log (e.entry "title" (e.getD "text" (.str "")))

def foldAssignment (env : Env) (s : IncidentState) (e : RecordEvent) : IncidentState :=
  if (e.get "to").truthy then
    { s.log (e.entry ("managed_by:" ++ env.format s.managedBy ++ "->" ++ env.format (e.get "to"))
        e.note) with managedBy := e.get "to" }
  else s

def foldTags (s : IncidentState) (e : RecordEvent) : Except PyError IncidentState := do
  let added ← ((e.get "add").orElse (.arr [])).iter
  pure { s with tags := added.foldl ChangeState.addNew s.tags }

def foldGtdLink (s : IncidentState) (e : RecordEvent) : IncidentState :=
  if (e.get "id").truthy then { s with gtdIds := ChangeState.addNew s.gtdIds (e.get "id") } else s

/-- One turn of the loop. -/
def step (env : Env) (s : IncidentState) (e : RecordEvent) : Except PyError IncidentState :=
  match e.get "kind" with
  | .str "created" => pure (s.foldCreated e)
  | .str "status" => s.foldStatus env e
  | .str "reopen" => pure (s.foldReopen e)
  | .str "severity" => s.foldSeverity env e
  | .str "ack" => pure (s.foldAck e)
  | .str "resolution" => pure (s.foldResolution e)
  | .str "link_problem" => pure (s.foldLinkProblem e)
  | .str "title" => pure (s.foldTitle e)
  | .str "assignment" => pure (s.foldAssignment env e)
  | .str "tags" => s.foldTags e
  | .str "gtd_link" => pure (s.foldGtdLink e)
  | .str "note" => pure (s.log (e.entry "note" e.note))
  | .str "recovery" => pure (s.log (e.entry "note" e.note))
  | _ => pure s

end IncidentState

/-- The variables before the loop. -/
def initIncident (core : Dict) : Except PyError IncidentState := do
  let tags ← ((core.get "tags").orElse (.arr [])).iter
  pure
    { severity := (core.get "severity_at_creation").orElse (.str "sev3")
      relatedProblemId := core.get "related_problem_id"
      tags := tags
      title := core.getD "title" (.str "")
      managedBy := core.getD "managed_by" (.str "") }

/-! ### Behind the loop -/

/-- A field of a model of type `str`; of pydantic's text only the field is kept. -/
def textOf (model field : String) : Json → Except PyError String
  | .str s => pure s
  | _ => throw (.value ("validation error for " ++ model ++ ": " ++ field))

/-- A field of a model of type `Optional[str]`. -/
def optionalTextOf (model field : String) : Json → Except PyError (Option String)
  | .null => pure none
  | .str s => pure (some s)
  | _ => throw (.value ("validation error for " ++ model ++ ": " ++ field))

/-- `list(core.get(field) or [])` of a field of texts. -/
def textsOf (model field : String) (core : Dict) : Except PyError (List String) := do
  let elems ← ((core.get field).orElse (.arr [])).iter
  elems.mapM (textOf model field)

/-- A folded incident. -/
structure Incident where
  id : String
  title : String
  severity : String
  status : IncidentStatus
  source : String
  affectedServices : List String
  impact : String
  managedBy : String
  createdBy : String
  detectedAt : String
  acknowledgedAt : Option String
  resolvedAt : Option String
  closedAt : Option String
  timeline : List Dict
  relatedProblemId : Option String
  gtdItemIds : List String
  resolutionSummary : Option String
  tags : List String

/-- `Incident(...)` of the loop's variables. -/
def buildIncident (env : Env) (core : Dict) (s : IncidentState) : Except PyError Incident := do
  let id ← requireId core
  let severity ← requireMember env "Severity" ["sev1", "sev2", "sev3", "sev4"] s.severity
  let affectedServices ← textsOf "Incident" "affected_services" core
  let id ← textOf "Incident" "id" id
  let title ← textOf "Incident" "title" s.title
  let source ← textOf "Incident" "source" (core.getD "source" (.str "manual"))
  let impact ← textOf "Incident" "impact" (core.getD "impact" (.str ""))
  let managedBy ← textOf "Incident" "managed_by" s.managedBy
  let createdBy ← textOf "Incident" "created_by" (core.getD "created_by" (.str ""))
  let detectedAt ← textOf "Incident" "detected_at"
    ((core.get "detected_at").orElse (.str env.now))
  let acknowledgedAt ← optionalTextOf "Incident" "acknowledged_at" s.acknowledgedAt
  let resolvedAt ← optionalTextOf "Incident" "resolved_at" s.resolvedAt
  let closedAt ← optionalTextOf "Incident" "closed_at" s.closedAt
  let relatedProblemId ← optionalTextOf "Incident" "related_problem_id" s.relatedProblemId
  let gtdItemIds ← s.gtdIds.mapM (textOf "Incident" "gtd_item_ids")
  let resolutionSummary ← optionalTextOf "Incident" "resolution_summary" s.resolutionSummary
  let tags ← s.tags.mapM (textOf "Incident" "tags")
  pure
    { id := id
      title := title
      severity := severity
      status := s.status
      source := source
      affectedServices := affectedServices
      impact := impact
      managedBy := managedBy
      createdBy := createdBy
      detectedAt := detectedAt
      acknowledgedAt := acknowledgedAt
      resolvedAt := resolvedAt
      closedAt := closedAt
      timeline := s.timeline
      relatedProblemId := relatedProblemId
      gtdItemIds := gtdItemIds
      resolutionSummary := resolutionSummary
      tags := tags }

/-- `_fold_incident`. -/
def foldIncident (env : Env) (core : Dict) (events : List RecordEvent) :
    Except PyError Incident := do
  let s ← initIncident core
  let s ← events.foldlM (IncidentState.step env) s
  buildIncident env core s

end SkCoord.Itil
