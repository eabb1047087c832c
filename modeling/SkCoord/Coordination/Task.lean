import SkCoord.CardStore.CreateExplicit

/-!
# Tasks and agent files

A task file is written once by its creator, and each agent has one file with its claims.  The files
of a task and of an agent carry names made from the title and from the agent's name; a name that
reads as a Syncthing conflict copy is skipped by every reader.
-/

namespace SkCoord

open Python

/-- The tables of the character set that texts are made of: `str.lower`, `\w` and `\d`. -/
structure CharTables where
  lower : String → String
  isWord : Char → Bool
  isDecimal : Char → Bool

/-- The characters of the ASCII set. -/
def asciiTables : CharTables where
  lower := fun s => String.ofList (lower s)
  isWord := fun c => c.isAlphanum || c == '_'
  isDecimal := Char.isDigit

/-! ### Names of files -/

/-- `\d{n}`. -/
def isDigits (u : CharTables) (n : Nat) (l : List Char) : Bool :=
  l.length == n && l.all u.isDecimal

/-- A match of `SYNC_CONFLICT_RE` at the beginning of a text.  No letter or digit is left over
behind the longest run of them, so the run ends at a dot or at the end. -/
def matchesSyncConflict (u : CharTables) (l : List Char) : Bool :=
  let marker := ".sync-conflict-".toList
  let stamp := l.drop marker.length
  let run := stamp.drop 16
  marker.isPrefixOf l && isDigits u 8 (stamp.take 8) && (stamp.drop 8).head? == some '-' &&
    isDigits u 6 ((stamp.drop 9).take 6) && (stamp.drop 15).head? == some '-' &&
    (run.takeWhile Char.isAlphanum) != [] &&
    match run.dropWhile Char.isAlphanum with
    | [] => true
    | [c] => c == '.' || c == '\n'
    | c :: _ => c == '.'

/-- `is_sync_conflict_copy`. -/
def isSyncConflictCopy (u : CharTables) (name : String) : Bool :=
  name.toList.tails.any (matchesSyncConflict u)

/-- The characters that `_slugify_filename` replaces with a dash. -/
def isIllegalInFilename (c : Char) : Bool := "/\\:*?\"<>|".toList.contains c

/-- `re.sub(r"[\s_]+", "-", s)`; `inRun` says that the character before belongs to a run. -/
def joinRuns (inRun : Bool) : List Char → List Char
  | [] => []
  | c :: l =>
    if isSpace c || c == '_' then
      if inRun then joinRuns true l else '-' :: joinRuns true l
    else c :: joinRuns false l

/-- `s.strip("-")`. -/
def stripDashes (l : List Char) : List Char :=
  ((l.dropWhile (· == '-')).reverse.dropWhile (· == '-')).reverse

/-- `_slugify_filename`. -/
def slugifyFilename (u : CharTables) (text : String) : List Char :=
  let slug := (strip (u.lower text)).toList
  let slug := slug.map fun c => if isIllegalInFilename c then '-' else c
  let slug := slug.filter fun c => u.isWord c || isSpace c || c == '-'
  stripDashes (joinRuns false slug)

/-- `AgentFile.validate_agent_name`. -/
def validateAgentName (name : String) : Except PyError String :=
  let l := name.toList
  let isInner := fun c : Char => c.isAlphanum || c == '_' || c == '.' || c == '-'
  if l.length ≤ 128 && l.all isInner && l.head?.any Char.isAlphanum &&
      l.getLast?.any Char.isAlphanum then
    pure name
  else throw (.value "agent name must be a canonical filename stem")

/-- The name of the file of an agent. -/
def agentFileName (name : String) : String := name ++ ".json"

/-! ### Tasks -/

/-- Task urgency levels. -/
inductive TaskPriority where
  | critical
  | high
  | medium
  | low
  deriving DecidableEq, Repr, Inhabited

/-- The text of a priority. -/
def TaskPriority.value : TaskPriority → String
  | critical => "critical"
  | high => "high"
  | medium => "medium"
  | low => "low"

/-- Task lifecycle states. -/
inductive TaskStatus where
  | opened
  | claimed
  | inProgress
  | review
  | done
  | blocked
  deriving DecidableEq, Repr, Inhabited

namespace TaskStatus

/-- The text of a status. -/
def value : TaskStatus → String
  | opened => "open"
  | claimed => "claimed"
  | inProgress => "in_progress"
  | review => "review"
  | done => "done"
  | blocked => "blocked"

/-- `_COLUMN_TO_STATUS`. -/
def ofColumn : Column → TaskStatus
  | .backlog => opened
  | .ready => claimed
  | .doing => inProgress
  | .review => review
  | .done => done

/-- `_STATUS_TO_COLUMN`. -/
def column : TaskStatus → Column
  | opened => .backlog
  | claimed => .ready
  | inProgress => .doing
  | review => .review
  | done => .done
  | blocked => .doing

end TaskStatus

/-- A unit of work on the coordination board. -/
structure Task where
  id : String
  title : String
  description : String := ""
  priority : TaskPriority := .medium
  tags : List String := []
  createdBy : String := ""
  createdAt : String := ""
  acceptanceCriteria : List String := []
  dependencies : List String := []
  notes : List String := []
  metaData : Dict := []

namespace Task

/-- The name of the file of a task. -/
def fileName (u : CharTables) (task : Task) : String :=
  task.id ++ "-" ++ String.ofList ((slugifyFilename u task.title).take 40) ++ ".json"

/-- `_swimlane_for_tags`. -/
def swimlaneForTags (u : CharTables) (tags : List String) : String :=
  let lowered := tags.map u.lower
  if "autopilot-staged" ∈ lowered then "proposed"
  else if "bug" ∈ lowered then "bug"
  else if "security" ∈ lowered then "security"
  else "feature"

/-- The core of the card of a task. -/
def core (u : CharTables) (task : Task) : CardCore where
  id := task.id
  kind := if "epic" ∈ task.tags.map u.lower then "epic" else "task"
  title := task.title
  description := task.description
  createdBy := task.createdBy
  createdAt := task.createdAt
  acceptanceCriteria := task.acceptanceCriteria
  dependencies := task.dependencies
  initialPriority := task.priority.value
  initialSwimlane := swimlaneForTags u task.tags
  initialLabels := task.tags
  metaData := task.metaData

/-- The core of the card of a task that is born claimed. -/
def claimedCore (u : CharTables) (task : Task) (owner revision : String) : CardCore :=
  { core u task with initialOwner := some owner, initialClaimRevision := some revision }

end Task

/-! ### Agents -/

/-- Agent availability. -/
inductive AgentState where
  | active
  | idle
  | offline
  deriving DecidableEq, Repr, Inhabited

/-- An agent's claim record. -/
structure AgentFile where
  agent : String
  lastSeen : String
  state : AgentState := .active
  currentTask : Option String := none
  claimedTasks : List String := []
  completedTasks : List String := []
  deriving DecidableEq, Repr

/-- A task with its derived status. -/
structure TaskView where
  taskId : String
  dependencies : List String
  status : TaskStatus
  claimedBy : Option String
  deriving DecidableEq, Repr

end SkCoord
