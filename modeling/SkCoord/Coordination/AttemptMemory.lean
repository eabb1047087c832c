import SkCoord.Coordination.UpdateTask
import SkCoord.Log.Recent

/-!
# The memory of attempts and successes

`record_attempt` and `record_success` keep an entry of a run in `meta.autopilot` of a task file, and
`clear_attempts` empties the list of the attempts.  All three rewrite the file by `_write_task_raw`.
-/

namespace SkCoord

open Python

/-- The lists that a run is recorded in. -/
inductive RunList where
  | attempts
  | successes
  deriving DecidableEq, Repr

namespace RunList

/-- The key of the list in `meta.autopilot`. -/
def key : RunList → String
  | attempts => "attempts"
  | successes => "successes"

/-- The field of an entry that says why. -/
def whyField : RunList → String
  | attempts => "why_failed"
  | successes => "why_succeeded"

/-- The last field of an entry. -/
def hintField : RunList → String
  | attempts => "replacement_hint"
  | successes => "approach_hint"

end RunList

/-- `_MAX_ATTEMPTS`. -/
def maxAttempts : ℕ := 10

/-- The arguments of `record_attempt` and of `record_success`. -/
structure RunReport where
  runId : String
  round : ℤ
  outcome : String
  tried : String
  why : String
  hint : String := ""
  deriving DecidableEq, Repr

/-- A report with the time at which it was recorded. -/
structure Recording extends RunReport where
  ts : String
  deriving DecidableEq, Repr

/-- What tells the entries of a list apart. -/
def Recording.pair (r : Recording) : String × String := (r.runId, r.outcome)

/-- `entry`. -/
def Recording.entry (k : RunList) (r : Recording) : Dict :=
  [("run_id", .str r.runId), ("ts", .str r.ts), ("round", .int r.round),
    ("outcome", .str r.outcome), ("tried", .str r.tried), (k.whyField, .str r.why),
    (k.hintField, .str r.hint)]

/-! ### The list -/

/-- `existing.get("run_id") == run_id and existing.get("outcome") == outcome`. -/
def Recording.replaces (r : Recording) (existing : Json) : Except PyError Bool := do
  let runId ← existing.getAttr "run_id"
  if runId.pyEq (.str r.runId) then do
    let outcome ← existing.getAttr "outcome"
    pure (outcome.pyEq (.str r.outcome))
  else pure false

/-- The loop that puts the entry in the place of the first that it replaces. -/
def replaceEntry (r : Recording) (entry : Json) : List Json → Except PyError (Option (List Json))
  | [] => pure none
  | existing :: l => do
    let found ← r.replaces existing
    if found then pure (some (entry :: l))
    else do
      let rest ← replaceEntry r entry l
      pure (rest.map (existing :: ·))

/-- `if len(attempts) > self._MAX_ATTEMPTS: attempts[:] = attempts[-self._MAX_ATTEMPTS :]`. -/
def trimEntries : Json → Json
  | .arr l => .arr (if maxAttempts < l.length then l.rtake maxAttempts else l)
  | entries => entries

/-- The list with one more entry. -/
def recordEntry (k : RunList) (r : Recording) (entries : Json) : Except PyError Json := do
  let l ← entries.iter
  let replaced ← replaceEntry r (.obj (r.entry k)) l
  match replaced with
  | some l => pure (trimEntries (.arr l))
  | none => do
    let entries ← entries.append (.obj (r.entry k))
    pure (trimEntries entries)

/-! ### The file -/

/-- The dictionary of a task, that of its `meta`, and what is bound to `autopilot` there. -/
structure AutopilotSlot where
  task : Dict
  metaData : Dict
  autopilot : Json

namespace AutopilotSlot

/-- `d.setdefault("meta", {}).setdefault("autopilot", {})`. -/
def find (d : Json) : Except PyError AutopilotSlot := do
  let (task, x) ← setdefault d "meta" (.obj [])
  let (metaData, autopilot) ← setdefault x "autopilot" (.obj [])
  pure { task, metaData, autopilot }

/-- The dictionary of the task, with this one at `autopilot`. -/
def close (s : AutopilotSlot) (autopilot : Dict) : Dict :=
  Assoc.set s.task "meta" (.obj (Assoc.set s.metaData "autopilot" (.obj autopilot)))

end AutopilotSlot

/-- `_write_task_raw`. -/
def rewriteTask {α : Type} (env : DeskEnv) (taskId : String)
    (mutate : Json → Effect Desk (Dict × α)) : Effect Desk (String × α) := do
  let d ← Effect.get
  let path ← Effect.lift (taskRawPath d.files taskId)
  let content ← Effect.lift (readTaskBytes d.files path)
  let text ← Effect.lift (decodeTask content)
  let data ← Effect.lift (loadTaskJson env text)
  let (task, a) ← mutate data
  Desk.putFile path ((Json.obj task).pretty env.floats 0 ++ ['\n'])
  pure (path, a)

/-- `_mutate` of `record_attempt` and of `record_success`. -/
def mutateRecord (env : DeskEnv) (k : RunList) (report : RunReport) (data : Json) :
    Effect Desk (Dict × Unit) := do
  let slot ← Effect.lift (AutopilotSlot.find data)
  let (autopilot, entries) ← Effect.lift (setdefault slot.autopilot k.key (.arr []))
  let ts ← Desk.onBoard (drawNow env.board)
  let entries ← Effect.lift (recordEntry k { report with ts := ts } entries)
  pure (slot.close (Assoc.set autopilot k.key entries), ())

/-- `_mutate` of `clear_attempts`, with the entries that are removed. -/
def mutateClear (data : Json) : Effect Desk (Dict × List Json) := do
  let slot ← Effect.lift (AutopilotSlot.find data)
  let entries ← Effect.lift (slot.autopilot.getAttr "attempts")
  let removed ← Effect.lift (entries.orElse (.arr [])).iter
  match slot.autopilot with
  | .obj autopilot => pure (slot.close (Assoc.set autopilot "attempts" (.arr [])), removed)
  | x => Effect.raise (.type ("'" ++ x.typeName ++ "' object does not support item assignment"))

/-- `record_attempt`. -/
def recordAttempt (env : DeskEnv) (taskId : String) (report : RunReport) : Effect Desk String := do
  let (path, _) ← rewriteTask env taskId (mutateRecord env .attempts report)
  pure path

/-- `record_success`. -/
def recordSuccess (env : DeskEnv) (taskId : String) (report : RunReport) : Effect Desk String := do
  let (path, _) ← rewriteTask env taskId (mutateRecord env .successes report)
  pure path

/-- `clear_attempts`. -/
def clearAttempts (env : DeskEnv) (taskId : String) : Effect Desk (List Json) := do
  let (_, removed) ← rewriteTask env taskId mutateClear
  pure removed

/-! ### Calls in order -/

/-- A call on the memory of a task. -/
inductive MemoryCall where
  | recordAttempt (report : RunReport)
  | recordSuccess (report : RunReport)
  | clearAttempts

/-- What a call that returned did. -/
inductive MemoryEvent where
  | attempt (r : Recording)
  | success (r : Recording)
  | cleared
  deriving DecidableEq, Repr

namespace MemoryCall

/-- The call, without what it returns. -/
def perform (env : DeskEnv) (taskId : String) : MemoryCall → Effect Desk Unit
  | recordAttempt report => do
    let _ ← SkCoord.recordAttempt env taskId report
    pure ()
  | recordSuccess report => do
    let _ ← SkCoord.recordSuccess env taskId report
    pure ()
  | clearAttempts => do
    let _ ← SkCoord.clearAttempts env taskId
    pure ()

/-- What the call does at a time. -/
def event (ts : String) : MemoryCall → MemoryEvent
  | recordAttempt report => .attempt { report with ts := ts }
  | recordSuccess report => .success { report with ts := ts }
  | clearAttempts => .cleared

end MemoryCall

/-- The calls one after the other, of which one that raises does nothing: what those that returned
did, and the desk behind them. -/
def performAll (env : DeskEnv) (taskId : String) : List MemoryCall → Desk → List MemoryEvent × Desk
  | [], d => ([], d)
  | call :: calls, d =>
    match (call.perform env taskId).run d with
    | (.ok (), d') =>
      let rest := performAll env taskId calls d'
      (call.event (env.board.now d.board.ticks) :: rest.1, rest.2)
    | (.error _, d') => performAll env taskId calls d'

/-- The attempts that were recorded since the last clearing. -/
def attemptsIn : List MemoryEvent → List Recording :=
  List.foldl (fun kept e =>
    match e with
    | .attempt r => kept ++ [r]
    | .success _ => kept
    | .cleared => []) []

/-- The successes that were recorded. -/
def successesIn : List MemoryEvent → List Recording :=
  List.foldl (fun kept e =>
    match e with
    | .success r => kept ++ [r]
    | _ => kept) []

end SkCoord
