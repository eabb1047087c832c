import SkCoord.Coordination.Recovery
import SkCoord.Python.Glob
import SkCoord.Python.JsonIndent

/-!
# Updates of a task file

`update_task` rewrites the file of a task and mirrors every tag that came or went as an event of the
card.  A `Desk` is the board with the bytes of the task files and with the recovery records of label
mirrors.  Where a mirror call fails, `undoLabels` mirrors the opposite of every event before it, and
the bytes of the file are written back.
-/

namespace SkCoord

open Python

/-- A record of a label mirror in `recovery/<host>.jsonl`. -/
structure LabelRecord where
  recordId : String
  operation : String := "label_mirror"
  taskId : String
  actor : String
  phase : String
  error : String
  compensationError : Option String := none
  recordedAt : String
  deriving Repr

/-- The board with its task files. -/
structure Desk where
  board : Board
  /-- The files of `tasks` by name. -/
  files : Assoc String Bytes
  records : List LabelRecord := []

/-- What the desk reads of its environment. -/
structure DeskEnv where
  board : BoardEnv
  floats : FloatText
  /-- The error of a nesting that is too deep, or of an integer with too many digits. -/
  refusal : List Char → Option PyError

/-- The arguments of `update_task`. -/
structure TaskUpdate where
  description : Option String := none
  acceptanceCriteria : Option (List String) := none
  addTags : Option (List String) := none
  removeTags : Option (List String) := none
  runId : Option String := none

/-- `run_id or "coord"`. -/
def TaskUpdate.actor (u : TaskUpdate) : String := (u.runId.filter (· ≠ "")).getD "coord"

/-- The two actions on a label. -/
inductive LabelAction where
  | addLabel
  | removeLabel
  deriving DecidableEq, Repr

namespace LabelAction

/-- The action as an event names it. -/
def value : LabelAction → String
  | addLabel => "add_label"
  | removeLabel => "remove_label"

/-- `"remove_label" if action == "add_label" else "add_label"`. -/
def inverse : LabelAction → LabelAction
  | addLabel => removeLabel
  | removeLabel => addLabel

end LabelAction

/-- An entry of `tag_events`. -/
structure LabelEdit where
  action : LabelAction
  tag : Json
  transitionId : String

/-! ### The file -/

/-- `_task_raw_path`. -/
def taskRawPath (files : Assoc String Bytes) (taskId : String) : Except PyError String := do
  let _ ← validateCardLockIdentifier taskId
  let names := (Assoc.keys files).filter fun name => fnmatch name (taskId ++ "-*.json")
  match names.insertionSort fun x y => x ≤ y with
  | name :: _ => pure name
  | [] =>
    if (Assoc.get? files (taskId ++ ".json")).isSome then pure (taskId ++ ".json")
    else throw (.os ("No task file for id " ++ taskId))

/-- `_read_regular_file_bytes`. -/
def readTaskBytes (files : Assoc String Bytes) (path : String) : Except PyError Bytes :=
  match Assoc.get? files path with
  | some content => pure content
  | none => throw (.value "task destination must be a regular single-link file")

/-- `data.decode("utf-8")`. -/
def decodeTask (content : Bytes) : Except PyError (List Char) :=
  match decodeUtf8 content with
  | some text => pure text
  | none => throw (.value "'utf-8' codec can't decode byte: invalid start byte")

/-- `json.loads`. -/
def loadTaskJson (env : DeskEnv) (text : List Char) : Except PyError Json :=
  match env.refusal text with
  | some e => throw e
  | none =>
    match Json.loads env.floats text with
    | some v => pure v
    | none => throw (.value "Expecting value")

/-! ### The change -/

/-- `x.setdefault(k, v)`, with what is bound to `k` then. -/
def setdefault (x : Json) (k : String) (v : Json) : Except PyError (Dict × Json) :=
  match x with
  | .obj d =>
    match Assoc.get? d k with
    | some w => pure (d, w)
    | none => pure (Assoc.set d k v, v)
  | x => throw (.attr ("'" ++ x.typeName ++ "' object has no attribute 'setdefault'"))

/-- The dictionaries around `meta.autopilot.edits`, with the entries there. -/
structure EditSlot where
  task : Dict
  metaData : Dict
  autopilot : Dict
  edits : Json

namespace EditSlot

/-- `d.setdefault("meta", {}).setdefault("autopilot", {}).setdefault("edits", [])`. -/
def find (d : Json) : Except PyError EditSlot := do
  let (task, x) ← setdefault d "meta" (.obj [])
  let (metaData, y) ← setdefault x "autopilot" (.obj [])
  let (autopilot, edits) ← setdefault y "edits" (.arr [])
  pure { task, metaData, autopilot, edits }

/-- The dictionary of the task, with the entries in their place. -/
def close (s : EditSlot) : Dict :=
  Assoc.set s.task "meta" (.obj (Assoc.set s.metaData "autopilot"
    (.obj (Assoc.set s.autopilot "edits" s.edits))))

/-- A field with a new value, and the entry that tells of it. -/
def record (s : EditSlot) (u : TaskUpdate) (ts field : String) (old new : Json) :
    Except PyError EditSlot := do
  let edits ← s.edits.append (.obj
    [("field", .str field), ("old", old), ("new", new), ("ts", .str ts),
      ("run_id", jsonOfOption u.runId)])
  pure { s with edits, task := Assoc.set s.task field new }

/-- The change of `description` or of `acceptance_criteria`. -/
def putField (s : EditSlot) (u : TaskUpdate) (ts field : String) (dflt : Json)
    (new : Option Json) : Except PyError EditSlot :=
  match new with
  | none => pure s
  | some new =>
    let old := Dict.getD s.task field dflt
    if new.pyEq old then pure s else s.record u ts field old new

end EditSlot

/-- `set(removed)` is asked for every tag in turn. -/
def dropTags (removed : List String) : List Json → Except PyError (List Json)
  | [] => pure []
  | tag :: tags => do
    tag.requireHashable
    let rest ← dropTags removed tags
    pure (if tag.mem (removed.map .str) then rest else tag :: rest)

/-- `if remove_tags: merged = [t for t in merged if t not in set(remove_tags)]`. -/
def keepTags (removed : List String) (tags : List Json) : Except PyError (List Json) :=
  if removed = [] then pure tags else dropTags removed tags

/-- The tags of a task, before and behind the update. -/
def mergeTags (u : TaskUpdate) (d : Dict) : Except PyError (List Json × List Json) := do
  let existing ← (Dict.getD d "tags" (.arr [])).iter
  let added := ((u.addTags.getD []).map Json.str).filter fun t => !t.mem existing
  let merged ← keepTags (u.removeTags.getD []) (existing ++ added)
  pure (existing, merged)

/-- The actions on labels that tell of a change of tags. -/
def labelActions (existing merged : List Json) : List (LabelAction × Json) :=
  (merged.filter fun t => !t.mem existing).map (LabelAction.addLabel, ·) ++
    (existing.filter fun t => !t.mem merged).map (LabelAction.removeLabel, ·)

/-- The change of `tags`, with the actions on labels. -/
def EditSlot.putTags (s : EditSlot) (u : TaskUpdate) (ts : String) :
    Except PyError (EditSlot × List (LabelAction × Json)) :=
  if u.addTags.getD [] = [] ∧ u.removeTags.getD [] = [] then pure (s, [])
  else do
    let (existing, merged) ← mergeTags u s.task
    if Json.pyEqList merged existing then pure (s, [])
    else do
      let s ← s.record u ts "tags" (.arr existing) (.arr merged)
      pure (s, labelActions existing merged)

/-- `_mutate`, behind the reading of the clock. -/
def mutateTask (u : TaskUpdate) (ts : String) (s : EditSlot) :
    Except PyError (Dict × List (LabelAction × Json)) := do
  let s ← s.putField u ts "description" (.str "") (u.description.map .str)
  let s ← s.putField u ts "acceptance_criteria" (.arr [])
    (u.acceptanceCriteria.map fun l => .arr (l.map .str))
  let (s, actions) ← s.putTags u ts
  pure (s.close, actions)

/-! ### The desk -/

namespace Desk

/-- A statement on the board. -/
def onBoard {α : Type} (x : Effect Board α) : Effect Desk α := fun d =>
  let (r, board) := x.run d.board
  (r, { d with board })

/-- A write that consumes the next fault. -/
def writing (x : Effect Desk Unit) : Effect Desk Unit := fun d =>
  match d.board.faults with
  | [] => x.run d
  | none :: faults => x.run { d with board := { d.board with faults } }
  | some f :: faults =>
    (if f.took then x >>= fun _ => .raise f.error else .raise f.error).run
      { d with board := { d.board with faults } }

/-- `atomic_write_text` of a task file. -/
def putFile (path : String) (text : List Char) : Effect Desk Unit :=
  Effect.modify fun d => { d with files := Assoc.set d.files path (encodeUtf8 text) }

/-- `_append_release_recovery` of a label mirror. -/
def appendRecord (r : LabelRecord) : Effect Desk Unit :=
  writing (Effect.modify fun d => { d with records := d.records ++ [r] })

end Desk

open Desk

/-- An identifier for each action on a label. -/
def drawEdits (env : DeskEnv) : List (LabelAction × Json) → Effect Desk (List LabelEdit)
  | [] => pure []
  | (action, tag) :: actions => do
    let transitionId ← onBoard (drawUuid env.board)
    let edits ← drawEdits env actions
    pure ({ action, tag, transitionId } :: edits)

/-- `_write_task_raw`, with the events that it calls for. -/
def writeTaskRaw (env : DeskEnv) (taskId : String) (u : TaskUpdate) :
    Effect Desk (String × List LabelEdit) := do
  let d ← Effect.get
  let path ← Effect.lift (taskRawPath d.files taskId)
  let content ← Effect.lift (readTaskBytes d.files path)
  let text ← Effect.lift (decodeTask content)
  let data ← Effect.lift (loadTaskJson env text)
  let slot ← Effect.lift (EditSlot.find data)
  let ts ← onBoard (drawNow env.board)
  let (task, actions) ← Effect.lift (mutateTask u ts slot)
  let edits ← drawEdits env actions
  putFile path ((Json.obj task).pretty env.floats 0 ++ ['\n'])
  pure (path, edits)

/-- `_mirror_card_store` of an action on a label. -/
def mirrorLabel (env : DeskEnv) (taskId actor : String) (edit : LabelEdit) : Effect Desk Unit :=
  onBoard (mirrorCardStore env.board
    (appendCardEvent env.board taskId edit.action.value actor
      [("label", edit.tag), ("transition_id", .str edit.transitionId)]))

/-- The error of a mirror call that failed: none if its event is durable. -/
def labelFailure (env : DeskEnv) (taskId : String) (edit : LabelEdit) (e : PyError) (d : Desk) :
    Option PyError :=
  match d.board.store.transitionsAreDurable env.board.env [(taskId, edit.transitionId)] with
  | .ok true => none
  | .ok false => some e
  | .error e' => some e'

/-- One turn of the loop over `tag_events`, with the error that ends the loop. -/
def mirrorTurn (env : DeskEnv) (taskId actor : String) (edit : LabelEdit) :
    Effect Desk (Option PyError) :=
  Effect.tryExcept
    (do
      mirrorLabel env taskId actor edit
      pure none)
    fun e => do
      let d ← Effect.get
      pure (labelFailure env taskId edit e d)

/-- The loop over `tag_events`: the events that are completed, and the error that ended it. -/
def mirrorLabels (env : DeskEnv) (taskId actor : String) :
    List LabelEdit → Effect Desk (List LabelEdit × Option PyError)
  | [] => pure ([], none)
  | edit :: edits => do
    let failure ← mirrorTurn env taskId actor edit
    match failure with
    | some e => pure ([], some e)
    | none => do
      let (completed, failure) ← mirrorLabels env taskId actor edits
      pure (edit :: completed, failure)

/-- The opposite of every event, in the order of the list. -/
def undoLabels (env : DeskEnv) (taskId actor : String) : List LabelEdit → Effect Desk Unit
  | [] => pure ()
  | edit :: edits => do
    let transitionId ← onBoard (drawUuid env.board)
    mirrorLabel env taskId actor
      { action := edit.action.inverse, tag := edit.tag, transitionId }
    undoLabels env taskId actor edits

/-- The record of a label mirror that failed. -/
def recordLabels (env : DeskEnv) (taskId actor phase : String) (e : PyError)
    (compensationError : Option String) : Effect Desk Unit := do
  let recordId ← onBoard (drawUuid env.board)
  let recordedAt ← onBoard (drawNow env.board)
  appendRecord { recordId, taskId, actor, phase, error := e.str, compensationError, recordedAt }

/-- The compensation of a label mirror that failed. -/
def restoreLabels (env : DeskEnv) (taskId actor path : String) (original : Bytes)
    (completed : List LabelEdit) (e : PyError) : Effect Desk Unit := do
  undoLabels env taskId actor completed.reverse
  let text ← Effect.lift (decodeTask original)
  Desk.writing (putFile path text)
  recordLabels env taskId actor "legacy_task_restored" e none

/-- The handler of a label mirror that failed. -/
def labelsFailed (env : DeskEnv) (taskId actor path : String) (original : Bytes)
    (completed : List LabelEdit) (e : PyError) : Effect Desk Unit :=
  Effect.tryExcept (restoreLabels env taskId actor path original completed e) fun e' => do
    recordLabels env taskId actor "label_compensation_failed" e (some e'.str)
    Effect.raise (.runtime "label mirror compensation failed; board is fail-closed")

/-- `update_task`. -/
def updateTask (env : DeskEnv) (taskId : String) (u : TaskUpdate) : Effect Desk String := do
  let d ← Effect.get
  let path ← Effect.lift (taskRawPath d.files taskId)
  let original ← Effect.lift (readTaskBytes d.files path)
  let (path, edits) ← writeTaskRaw env taskId u
  let (completed, failure) ← mirrorLabels env taskId u.actor edits
  match failure with
  | none => pure path
  | some e => do
    labelsFailed env taskId u.actor path original completed e
    Effect.raise e

end SkCoord
