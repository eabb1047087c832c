import SkCoord.Itil.Incident

/-!
# ITIL problem records

`foldProblem` is `ITILManager._fold_problem`: `ProblemState.step` is its loop body, with one
definition for each kind of event.
-/

namespace SkCoord.Itil

open Python

/-- `ProblemStatus`. -/
inductive ProblemStatus where
  | identified
  | analyzing
  | knownError
  | resolved
  deriving DecidableEq, Repr, Inhabited

namespace ProblemStatus

/-- The text of a status. -/
def value : ProblemStatus → String
  | identified => "identified"
  | analyzing => "analyzing"
  | knownError => "known_error"
  | resolved => "resolved"

/-- The status of a text, if it is one. -/
def ofValue? (s : String) : Option ProblemStatus :=
  match s with
  | "identified" => some identified
  | "analyzing" => some analyzing
  | "known_error" => some knownError
  | "resolved" => some resolved
  | _ => none

/-- `_PROBLEM_TRANSITIONS`. -/
def transitions : ProblemStatus → List ProblemStatus
  | identified => [analyzing]
  | analyzing => [knownError, resolved]
  | knownError => [resolved]
  | resolved => []

/-- `to in _PROBLEM_TRANSITIONS.get(status, set())`, with the status it names. -/
def allowed (status : ProblemStatus) (target : Json) : Except PyError (Option ProblemStatus) := do
  target.requireHashable
  match target with
  | .str s => pure ((ofValue? s).filter fun c => c ∈ status.transitions)
  | _ => pure none

end ProblemStatus

/-! ### The loop -/

/-- The variables of the loop. -/
structure ProblemState where
  status : ProblemStatus := .identified
  timeline : List Dict := []
  rootCause : Json
  workaround : Json
  kedbId : Json
  relatedChangeId : Json
  tags : List Json
  gtdIds : List Json := []
  title : Json
  seenCreated : Bool := false

namespace ProblemState

/-- One more timeline entry. -/
def log (s : ProblemState) (entry : Dict) : ProblemState :=
  { s with timeline := s.timeline ++ [entry] }

def foldCreated (s : ProblemState) (e : RecordEvent) : ProblemState :=
  if s.seenCreated then s
  else { s with seenCreated := true }.log (e.entry "created" e.note)

def foldStatus (env : Env) (s : ProblemState) (e : RecordEvent) : Except PyError ProblemState := do
  let target ← s.status.allowed (e.get "to")
  let action := "status:" ++ s.status.value ++ "->" ++ env.format (e.get "to")
  match target with
  | some c => pure { s.log (e.entry action e.note) with status := c }
  | none => pure (s.log (e.conflictEntry action))

def foldRootCause (s : ProblemState) (e : RecordEvent) : ProblemState :=
  if (e.get "text").truthy then { s with rootCause := e.get "text" } else s

def foldWorkaround (s : ProblemState) (e : RecordEvent) : ProblemState :=
  if (e.get "text").truthy then { s with workaround := e.get "text" } else s

def foldLinkKedb (s : ProblemState) (e : RecordEvent) : ProblemState :=
  if (e.get "id").truthy then { s with kedbId := e.get "id" } else s

def foldLinkChange (s : ProblemState) (e : RecordEvent) : ProblemState :=
  if (e.get "id").truthy then { s with relatedChangeId := e.get "id" } else s

def foldTitle (s : ProblemState) (e : RecordEvent) : ProblemState :=
  let s := if (e.get "text").truthy then { s with title := e.get "text" } else s
  s.log (e.entry "title" (e.getD "text" (.str "")))

def foldTags (s : ProblemState) (e : RecordEvent) : Except PyError ProblemState := do
  let added ← ((e.get "add").orElse (.arr [])).iter
  pure { s with tags := added.foldl ChangeState.addNew s.tags }

def foldGtdLink (s : ProblemState) (e : RecordEvent) : ProblemState :=
  if (e.get "id").truthy then { s with gtdIds := ChangeState.addNew s.gtdIds (e.get "id") } else s

/-- One turn of the loop. -/
def step (env : Env) (s : ProblemState) (e : RecordEvent) : Except PyError ProblemState :=
  match e.get "kind" with
  | .str "created" => pure (s.foldCreated e)
  | .str "status" => s.foldStatus env e
  | .str "root_cause" => pure (s.foldRootCause e)
  | .str "workaround" => pure (s.foldWorkaround e)
  | .str "link_kedb" => pure (s.foldLinkKedb e)
  | .str "link_change" => pure (s.foldLinkChange e)
  | .str "title" => pure (s.foldTitle e)
  | .str "tags" => s.foldTags e
  | .str "gtd_link" => pure (s.foldGtdLink e)
  | .str "note" => pure (s.log (e.entry "note" e.note))
  | _ => pure s

end ProblemState

/-- The variables before the loop. -/
def initProblem (core : Dict) : Except PyError ProblemState := do
  let tags ← ((core.get "tags").orElse (.arr [])).iter
  pure
    { rootCause := core.get "root_cause"
      workaround := core.get "workaround"
      kedbId := core.get "kedb_id"
      relatedChangeId := core.get "related_change_id"
      tags := tags
      title := core.getD "title" (.str "") }

/-! ### Behind the loop -/

/-- A folded problem. -/
structure Problem where
  id : String
  title : String
  status : ProblemStatus
  rootCause : Option String
  workaround : Option String
  managedBy : String
  createdBy : String
  createdAt : String
  relatedIncidentIds : List String
  relatedChangeId : Option String
  kedbId : Option String
  gtdItemIds : List String
  timeline : List Dict
  tags : List String

/-- `Problem(...)` of the loop's variables. -/
def buildProblem (env : Env) (core : Dict) (s : ProblemState) : Except PyError Problem := do
  let id ← requireId core
  let relatedIncidentIds ← textsOf "Problem" "related_incident_ids" core
  let id ← textOf "Problem" "id" id
  let title ← textOf "Problem" "title" s.title
  let rootCause ← optionalTextOf "Problem" "root_cause" s.rootCause
  let workaround ← optionalTextOf "Problem" "workaround" s.workaround
  let managedBy ← textOf "Problem" "managed_by" (core.getD "managed_by" (.str ""))
  let createdBy ← textOf "Problem" "created_by" (core.getD "created_by" (.str ""))
  let createdAt ← textOf "Problem" "created_at" ((core.get "created_at").orElse (.str env.now))
  let relatedChangeId ← optionalTextOf "Problem" "related_change_id" s.relatedChangeId
  let kedbId ← optionalTextOf "Problem" "kedb_id" s.kedbId
  let gtdItemIds ← s.gtdIds.mapM (textOf "Problem" "gtd_item_ids")
  let tags ← s.tags.mapM (textOf "Problem" "tags")
  pure
    { id := id
      title := title
      status := s.status
      rootCause := rootCause
      workaround := workaround
      managedBy := managedBy
      createdBy := createdBy
      createdAt := createdAt
      relatedIncidentIds := relatedIncidentIds
      relatedChangeId := relatedChangeId
      kedbId := kedbId
      gtdItemIds := gtdItemIds
      timeline := s.timeline
      tags := tags }

/-- `_fold_problem`. -/
def foldProblem (env : Env) (core : Dict) (events : List RecordEvent) :
    Except PyError Problem := do
  let s ← initProblem core
  let s ← events.foldlM (ProblemState.step env) s
  buildProblem env core s

end SkCoord.Itil
