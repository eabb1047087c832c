import SkCoord.Python.Json

/-!
# Cards and card cores

`CardCore` is the immutable record of a card's birth, `Card` the state folded from it.  The fields
of a `Card` that an event may overwrite with a value of its own payload are JSON values; the fold
checks the type of no other payload than the ones it names.
-/

namespace SkCoord

open Python

/-- The kind of work a card stands for. -/
inductive Kind where
  | task
  | epic
  | incident
  | problem
  | change
  deriving DecidableEq, Repr, Inhabited

namespace Kind

/-- The text of a kind. -/
def value : Kind → String
  | task => "task"
  | epic => "epic"
  | incident => "incident"
  | problem => "problem"
  | change => "change"

/-- `Kind(s)`, with `Kind.TASK` where the constructor raises. -/
def ofValue (s : String) : Kind :=
  match s with
  | "epic" => epic
  | "incident" => incident
  | "problem" => problem
  | "change" => change
  | _ => task

end Kind

/-- The kanban column of a card. -/
inductive Column where
  | backlog
  | ready
  | doing
  | review
  | done
  deriving DecidableEq, Repr, Inhabited

namespace Column

/-- The text of a column. -/
def value : Column → String
  | backlog => "backlog"
  | ready => "ready"
  | doing => "doing"
  | review => "review"
  | done => "done"

/-- The column of a text, if it is one. -/
def ofValue? (s : String) : Option Column :=
  match s with
  | "backlog" => some backlog
  | "ready" => some ready
  | "doing" => some doing
  | "review" => some review
  | "done" => some done
  | _ => none

@[simp] theorem ofValue?_value (c : Column) : ofValue? c.value = some c := by cases c <;> rfl

/-- `READY`, `DOING` and `REVIEW`: the columns in which a claim is live. -/
def isActive : Column → Bool
  | ready => true
  | doing => true
  | review => true
  | _ => false

/-- The coarse lifecycle stage that the parity check compares. -/
def bucket : Column → String
  | backlog => "todo"
  | ready => "active"
  | doing => "active"
  | review => "active"
  | done => "done"

end Column

/-- Immutable birth facts of a card. -/
structure CardCore where
  id : String
  kind : String := "task"
  title : String
  description : String := ""
  createdBy : String := ""
  createdAt : String
  acceptanceCriteria : List String := []
  dependencies : List String := []
  initialPriority : String := "medium"
  initialSwimlane : String := "feature"
  initialLabels : List String := []
  initialOwner : Option String := none
  initialClaimRevision : Option String := none
  metaData : Dict := []
  exitGates : List Dict := []
  nonGoals : List String := []
  specVersion : Option Int := none

/-- A work item on the board. -/
structure Card where
  id : String
  kind : Kind
  title : Json
  description : Json
  status : Column
  swimlane : Json
  priority : Json
  originator : String
  owner : Json
  order : Json
  labels : List Json
  acceptanceCriteria : List String
  dependencies : List String
  links : List (Json × Json)
  metaData : Dict
  archived : Bool
  createdAt : String
  updatedAt : Json
  source : String

/-! ### Fields of a model -/

/-- A field of a model that holds a text. -/
def textField (v : Json) : Except PyError String :=
  match v with
  | .str s => pure s
  | _ => throw (.value "Input should be a valid string")

/-- A field of a model that holds a text or nothing. -/
def optionalText (v : Json) : Except PyError (Option String) :=
  match v with
  | .null => pure none
  | .str s => pure (some s)
  | _ => throw (.value "Input should be a valid string")

/-! ### Events -/

/-- One line of an event log. -/
abbrev Event := Dict

/-- What an event asks for.  `other` is any value of the `action` field that the fold of a card
does not know. -/
inductive Action where
  | void
  | move
  | assign
  | unassign
  | releaseClaim
  | claim
  | complete
  | priority
  | swimlane
  | addLabel
  | removeLabel
  | link
  | describe
  | amendCriteria
  | addDependency
  | removeDependency
  | note
  | agentRunRequest
  | agentRunClaim
  | agentRunActivity
  | agentRunState
  | archive
  | reopen
  | other
  deriving DecidableEq, Repr, Inhabited

namespace Action

/-- The action a text names. -/
def ofString (s : String) : Action :=
  match s with
  | "void" => void
  | "move" => move
  | "assign" => assign
  | "unassign" => unassign
  | "release_claim" => releaseClaim
  | "claim" => claim
  | "complete" => complete
  | "priority" => priority
  | "swimlane" => swimlane
  | "add_label" => addLabel
  | "remove_label" => removeLabel
  | "link" => link
  | "describe" => describe
  | "amend_criteria" => amendCriteria
  | "add_dependency" => addDependency
  | "remove_dependency" => removeDependency
  | "note" => note
  | "agent_run_request" => agentRunRequest
  | "agent_run_claim" => agentRunClaim
  | "agent_run_activity" => agentRunActivity
  | "agent_run_state" => agentRunState
  | "archive" => archive
  | "reopen" => reopen
  | _ => other

/-- `void_terminal_actions`: the ownership and column actions that a void ends. -/
def isVoidTerminal : Action → Bool
  | move => true
  | reopen => true
  | assign => true
  | unassign => true
  | claim => true
  | releaseClaim => true
  | complete => true
  | _ => false

end Action

/-- The action of an event; an `action` that is not a text is unknown. -/
def Event.action (e : Event) : Action :=
  match Dict.get e "action" with
  | .str s => Action.ofString s
  | _ => .other

namespace Event

/-- The event `append_event(card_id, action, **fields)` asks for, without the stamps of the
store. -/
def ofFields (action : String) (fields : Dict) : Event := ("action", .str action) :: fields

/-- A claim by `owner` at `revision`. -/
def claimBy (owner revision : String) : Event :=
  ofFields "claim" [("owner", .str owner), ("claim_revision", .str revision)]

/-- A release of the claim of `owner` at `revision`. -/
def releaseOf (owner revision : String) : Event :=
  ofFields "release_claim"
    [("released_owner", .str owner), ("expected_claim_revision", .str revision)]

/-- A move to a column. -/
def moveTo (col : Column) : Event := ofFields "move" [("column", .str col.value)]

end Event

end SkCoord
