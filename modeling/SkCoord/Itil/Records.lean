import SkCoord.Itil.Problem
import SkCoord.Itil.Votes
import SkCoord.Python.Sort

/-!
# ITIL records on disk

Each record has a directory with a write-once `core.json` and one append-only log for each writer.
`foldRecord` reads both and folds them, and `loadRecords` does so for every record of one type.  A
record that was merged into another has a `redirect.json` in place of its core.
-/

namespace SkCoord.Itil

open Python

/-- The directory of a record: its files hold bytes. -/
structure RecordDir where
  core : Option Bytes := none
  redirect : Option Bytes := none
  /-- The files of `events` by name. -/
  logs : Assoc String Bytes := []

/-- The directory of the records of one type. -/
structure RecordTree where
  /-- The names that `iterdir` lists, of directories. -/
  names : List String
  /-- The record directory that a relative path leads to. -/
  recDir : String → RecordDir

/-- What `json.loads` of the interpreter refuses besides texts that are not JSON. -/
structure Reader where
  floats : FloatText
  /-- The error of a nesting that is too deep, or of an integer with too many digits. -/
  refusal : List Char → Option PyError
  /-- The number of redirects that are followed before the recursion is too deep. -/
  redirects : ℕ

/-! ### Reading -/

/-- `(e.get("ts", ""), e.get("node", ""), e.get("writer", ""), e.get("seq", 0))`. -/
def recordKey (e : RecordEvent) : SortKey :=
  .ofValues [e.getD "ts" (.str ""), e.getD "node" (.str ""), e.getD "writer" (.str ""),
    e.getD "seq" (.int 0)]

/-- `e.get` of a value that is no dictionary. -/
def asEvent : Json → Except PyError RecordEvent
  | .obj e => pure e
  | _ => throw (.attr "object has no attribute 'get'")

namespace Reader

variable (r : Reader)

/-- `json.loads` of a line; a line that is not JSON is skipped. -/
def readLine (line : List Char) : Except PyError (Option Json) :=
  match r.refusal line with
  | some e => throw e
  | none => pure (Json.loads r.floats line)

/-- The values on the lines of one log. -/
def readLog (file : String × Bytes) : Except PyError (List Json) := do
  let text ← readText file.2
  let values ← (nonBlankLines text).mapM r.readLine
  pure values.reduceOption

/-- The value of a file that is read with all errors caught. -/
def readFile (content : Bytes) : Option Json :=
  (readText content >>= r.readLine).toOption.join

end Reader

/-- The logs of a record in the order in which they are read. -/
def RecordDir.sortedLogs (d : RecordDir) : List (String × Bytes) :=
  (d.logs.filter fun p => endsWith p.1 ".jsonl").insertionSort fun p q => p.1 ≤ q.1

/-- `_read_events`. -/
def readEvents (r : Reader) (d : RecordDir) : Except PyError (List RecordEvent) := do
  let values ← d.sortedLogs.mapM r.readLog
  let events ← values.flatten.mapM asEvent
  sortByKey recordKey events

/-- `_load_core`; a core that holds `null` is taken for an absent one. -/
def loadCore (r : Reader) (d : RecordDir) : Option Json :=
  match d.core.bind r.readFile with
  | some .null => none
  | core => core

/-- `["canonical"]` of `redirect.json`, where it is the name of a record. -/
def redirectTarget (r : Reader) (d : RecordDir) : Option String :=
  match d.redirect.bind r.readFile with
  | some (.obj stub) =>
    match Assoc.get? stub "canonical" with
    | some (.str target) => some target
    | _ => none
  | _ => none

/-! ### Folding -/

section

variable {α : Type} (r : Reader) (fold : String → Dict → List RecordEvent → Except PyError α)
  (tree : RecordTree)

/-- `_fold_record`, with the number of redirects that can still be followed. -/
def foldRecord : ℕ → String → Except PyError (Option α)
  | redirects, recordId =>
    match loadCore r (tree.recDir recordId), redirects with
    | some core, _ => do
      let events ← readEvents r (tree.recDir recordId)
      match core with
      | .obj core => pure (fold recordId core events).toOption
      | _ => pure none
    | none, 0 => pure none
    | none, redirects + 1 =>
      match redirectTarget r (tree.recDir recordId) with
      | none => pure none
      | some target =>
        if target = recordId then pure none
        else pure (foldRecord redirects target).toOption.join

/-- The names of the directories that hold a `core.json`, in order. -/
def RecordTree.recordNames : List String :=
  (tree.names.insertionSort (· ≤ ·)).filter fun name => (tree.recDir name).core.isSome

/-- `_load_records`. -/
def loadRecords : Except PyError (List α) := do
  let records ← tree.recordNames.mapM (foldRecord r fold tree r.redirects)
  pure records.reduceOption

end

/-- `if value: l = [x for x in l if field(x) == value]`. -/
def filterBy {α : Type} (value : Option String) (test : α → String → Bool) (l : List α) : List α :=
  match value with
  | none => l
  | some s => if s = "" then l else l.filter fun x => test x s

/-- `list_incidents`. -/
def listIncidents (env : Env) (r : Reader) (status severity service : Option String)
    (tree : RecordTree) : Except PyError (List Incident) := do
  let incidents ← loadRecords r (fun _ => foldIncident env) tree
  let incidents := filterBy status (fun i s => i.status.value == s) incidents
  let incidents := filterBy severity (fun i s => i.severity == s) incidents
  pure (filterBy service (fun i s => i.affectedServices.contains s) incidents)

/-- `list_problems`. -/
def listProblems (env : Env) (r : Reader) (status : Option String) (tree : RecordTree) :
    Except PyError (List Problem) := do
  let problems ← loadRecords r (fun _ => foldProblem env) tree
  pure (filterBy status (fun p s => p.status.value == s) problems)

/-- `list_changes`. -/
def listChanges (env : Env) (r : Reader) (disk : Disk) (files : VoteFiles) (status : Option String)
    (tree : RecordTree) : Except PyError (List Change) := do
  let changes ← loadRecords r (foldVotedChange env r.floats disk files) tree
  pure (filterBy status (fun c s => c.status.value == s) changes)

end SkCoord.Itil
