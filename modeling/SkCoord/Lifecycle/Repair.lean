import SkCoord.Lifecycle.Audit

/-!
# The repair of the lifecycle

`repairLifecycle` stages the agent files that differ from the cards, writes an `intent`, the files and
a `committed` receipt, and then a `recovered` receipt for every earlier intent that has no outcome yet.
Whatever raises in between restores the files and appends `rolled_back`.  Each write to the disk may
fail before or after it is durable, and an append may leave part of its line.
-/

namespace SkCoord

open Python Effect

/-! ### Receipts -/

/-- A character of `[A-Za-z0-9_.-]`. -/
def isActorChar (c : Char) : Bool := c.isAlphanum || c == '_' || c == '.' || c == '-'

/-- Runs of other characters as one dash. -/
def dashRuns (inRun : Bool) : List Char → List Char
  | [] => []
  | c :: l =>
    if isActorChar c then c :: dashRuns false l
    else if inRun then dashRuns true l
    else '-' :: dashRuns true l

/-- `_safe_actor`. -/
def safeActor (actor : String) : String :=
  let isEdge := fun c : Char => c == '-' || c == '.'
  let l := ((dashRuns false actor.toList).dropWhile isEdge).reverse.dropWhile isEdge
  if l.isEmpty then "operator" else String.ofList l.reverse

/-- The name of the receipt log of an actor. -/
def receiptFile (env : LifecycleEnv) (actor : String) : String :=
  safeActor actor ++ "@" ++ env.board.env.hostname ++ ".jsonl"

/-- A write of a repair. -/
inductive RepairWrite where
  | receipt (receiptId phase : String)
  | save (agent : String)
  | restore (agent : String)
  deriving DecidableEq

/-- A log with one more line, or what is left of it. -/
def ReceiptLog.append (log : ReceiptLog) (line : LogLine) (terminated : Bool) : ReceiptLog :=
  if log.terminated then ⟨log.lines ++ [line], terminated⟩
  else ⟨log.lines.dropLast ++ [.malformed "two receipts in one line"], terminated⟩

/-- The home with one more line in a receipt log. -/
def LifecycleHome.withReceipt (h : LifecycleHome) (file : String) (line : LogLine)
    (terminated : Bool) : LifecycleHome :=
  { h with
    receipts := Assoc.set h.receipts file
      (((Assoc.get? h.receipts file).getD {}).append line terminated) }

/-- `_append_receipt`. -/
def appendReceipt (env : LifecycleEnv) (faults : RepairWrite → Fault) (actor receiptId phase : String)
    (fields : Dict) : Effect LifecycleHome Unit :=
  let payload : Json := .obj (("receipt_id", .str receiptId) :: ("phase", .str phase) :: fields)
  Effect.io (faults (.receipt receiptId phase))
    (fun h => h.withReceipt (receiptFile env actor) (.value payload) true)
    fun full h => h.withReceipt (receiptFile env actor)
      (if full then .value payload else .malformed "part of a receipt") false

/-! ### Intents without an outcome -/

/-- `frozenset(ids)`. -/
def scopeSet (ids : List String) : List String := ids.dedup.insertionSort fun x y => x ≤ y

/-- `task_ids` of an intent. -/
def receiptScope (payload : Dict) : Except PyError (Option (List String)) :=
  let invalid := PyError.runtime "reconciliation receipt scope is invalid"
  match Dict.get payload "task_ids" with
  | .null => pure none
  | .arr l => do
    let ids ← l.mapM fun
      | .str taskId => pure taskId
      | _ => throw invalid
    pure (some (scopeSet ids))
  | _ => throw invalid

/-- The phases that were read so far, and the scopes of the intents. -/
structure ReceiptPhases where
  phases : Assoc String (List String) := []
  scopes : Assoc String (Option (List String)) := []

/-- One line of a receipt log. -/
def ReceiptPhases.read (r : ReceiptPhases) (line : LogLine) : Except PyError ReceiptPhases :=
  let invalid := PyError.runtime "reconciliation receipt source is invalid"
  match line with
  | .value (.obj payload) =>
    match Dict.get payload "receipt_id", Dict.get payload "phase" with
    | .null, .null => pure r
    | .str receiptId, .null =>
      pure { r with phases := Assoc.addValue r.phases (receiptId, "legacy_committed") }
    | .str receiptId, .str phase => do
      let r := { r with phases := Assoc.addValue r.phases (receiptId, phase) }
      if phase = "intent" then do
        let scope ← receiptScope payload
        if (Assoc.get? r.scopes receiptId).any (· ≠ scope) then
          throw (.runtime "reconciliation receipt scope is inconsistent")
        else pure { r with scopes := Assoc.set r.scopes receiptId scope }
      else pure r
    | _, _ => throw invalid
  | _ => throw invalid

/-- The phases that end an intent. -/
def terminalPhases : List String := ["committed", "rolled_back", "recovered", "legacy_committed"]

/-- The receipt logs, one after another. -/
def LifecycleHome.receiptLines (h : LifecycleHome) : List LogLine :=
  (h.receipts.insertionSort fun p q => p.1 ≤ q.1).flatMap fun p => p.2.lines

/-- `_unresolved_receipt_ids`. -/
def unresolvedReceiptIds (h : LifecycleHome) :
    Except PyError (List (String × Option (List String))) := do
  let r ← h.receiptLines.foldlM ReceiptPhases.read {}
  let unresolved := r.phases.filter fun p =>
    p.2.contains "intent" && !p.2.any fun phase => terminalPhases.contains phase
  pure ((unresolved.map fun p => (p.1, (Assoc.get? r.scopes p.1).join)).insertionSort
    fun p q => p.1 ≤ q.1)

/-! ### Staging -/

/-- What a repair staged: the bytes to restore, the files to write, what it reports, and the agents
as it goes along. -/
structure Staged where
  originals : Assoc String (Option Bytes) := []
  pending : Assoc String AgentRecord := []
  actions : List String := []
  agents : Assoc String AgentRecord := []

/-- `agent_projection_path`. -/
def projectionPath (name : String) : Except PyError String :=
  match validateAgentName name with
  | .ok name => pure name
  | .error e => throw (.runtime e.str)

/-- `stage`. -/
def stage (h : LifecycleHome) (a : AgentRecord) : Effect Staged Unit := do
  let path ← Effect.lift (projectionPath a.1.agent)
  Effect.modify fun s =>
    { s with
      originals := if (Assoc.get? s.originals path).isSome then s.originals
        else Assoc.set s.originals path (Assoc.get? h.projections path)
      pending := Assoc.set s.pending a.1.agent a }

/-- What becomes of one claim: `none` when it is retained. -/
def releaseOf (env : LifecycleEnv) (now : String) (staleAfterSeconds : Int)
    (taskIds : Option (List String)) (cards : Assoc String Card) (a : AgentFile) (taskId : String) :
    Option String :=
  if !inScope taskIds taskId then none
  else
    match Assoc.get? cards taskId with
    | none =>
      if isActive env now staleAfterSeconds a then none
      else some ("release orphan " ++ taskId ++ " from " ++ a.agent)
    | some c =>
      if c.status = .backlog ∨ c.status = .done then
        some ("release " ++ c.status.value ++ " " ++ taskId ++ " from " ++ a.agent)
      else if c.owner.truthy && !c.owner.pyEq (.str a.agent) then
        some ("release non-owner " ++ taskId ++ " from " ++ a.agent)
      else none

/-- `current_task` behind the releases, with the action. -/
def repairCurrent (taskIds : Option (List String)) (cards : Assoc String Card) (a : AgentFile) :
    Option String × List String :=
  match a.currentTask with
  | none => (none, [])
  | some t =>
    if !inScope taskIds t then (some t, [])
    else if t ∉ a.claimedTasks then
      (none, if t = "" then [] else ["clear current " ++ t ++ " from " ++ a.agent])
    else
      match Assoc.get? cards t with
      | some c =>
        if c.status = .doing then (some t, [])
        else (none, ["stop active " ++ t ++ " for " ++ a.agent])
      | none => (some t, [])

/-- `current_in_scope`: a file without a current task is in the scope of an unscoped repair only. -/
def currentInScope (taskIds : Option (List String)) (a : AgentFile) : Bool :=
  match a.currentTask with
  | some t => inScope taskIds t
  | none => taskIds.isNone

/-- One agent file brought to the cards. -/
def repairAgent (env : LifecycleEnv) (now : String) (staleAfterSeconds : Int)
    (taskIds : Option (List String)) (all : Assoc String Card) (a : AgentFile) :
    AgentFile × List String :=
  let cards := scopedCards taskIds all
  let release := releaseOf env now staleAfterSeconds taskIds cards a
  let released := a.claimedTasks.filterMap release
  -- `dict.fromkeys` keeps the first of equal claims
  let retained := (a.claimedTasks.filter fun t => (release t).isNone).reverse.dedup.reverse
  let claimed := { a with claimedTasks := retained }
  let (current, stopped) := repairCurrent taskIds cards claimed
  let owned := (doingBy all (.str a.agent)).insertionSort (· ≤ ·)
  let owned := owned.filter fun t => retained.contains t || inScope taskIds t
  let current := if currentInScope taskIds a && current.isNone then owned.head? else current
  let reopened := a.completedTasks.filter fun t =>
    ((Assoc.get? cards t).any fun c => c.status ≠ .done) && inScope taskIds t
  ({ claimed with
      currentTask := current
      completedTasks := a.completedTasks.filter fun t => !reopened.contains t },
    released ++ stopped ++ reopened.map fun t => "reopen " ++ t ++ " for " ++ a.agent)

/-- One turn of the pass over the agent files. -/
def stageAgent (env : LifecycleEnv) (now : String) (staleAfterSeconds : Int)
    (taskIds : Option (List String)) (all : Assoc String Card) (h : LifecycleHome) (a : AgentRecord) :
    Effect Staged Unit := do
  let repaired := repairAgent env now staleAfterSeconds taskIds all a.1
  Effect.modify fun s =>
    { s with
      actions := s.actions ++ repaired.2
      agents := Assoc.set s.agents a.1.agent (repaired.1, a.2) }
  if repaired.1 ≠ a.1 then stage h (repaired.1, a.2) else pure ()

/-- The pass over the agent files. -/
def repairAgents (env : LifecycleEnv) (now : String) (staleAfterSeconds : Int)
    (taskIds : Option (List String)) (all : Assoc String Card) (h : LifecycleHome) :
    List AgentRecord → Effect Staged Unit
  | [] => pure ()
  | a :: rest => do
    stageAgent env now staleAfterSeconds taskIds all h a
    repairAgents env now staleAfterSeconds taskIds all h rest

/-- The owner of a card, or a new file for it. -/
def ownerRecord (env : LifecycleEnv) (now : String) (agents : Assoc String AgentRecord) (owner : Json) :
    Except PyError AgentRecord := do
  match ← agentOf agents owner with
  | some a => pure a
  | none =>
    match owner with
    | .str name => do
      let agent ← validateAgentName name
      pure ({ agent, lastSeen := now, state := .offline }, env.others)
    | _ => throw (.value "agent name must be a canonical filename stem")

/-- The file of an owner brought to one card. -/
def repairOwner (taskIds : Option (List String)) (all : Assoc String Card) (c : Card) (a : AgentFile) :
    AgentFile × List String :=
  match c.status with
  | .done =>
    if a.completedTasks.contains c.id then (a, [])
    else ({ a with completedTasks := a.completedTasks ++ [c.id] },
      ["complete " ++ c.id ++ " for " ++ a.agent])
  | .backlog => (a, [])
  | status =>
    let (a, actions) := if a.claimedTasks.contains c.id then (a, [])
      else ({ a with claimedTasks := a.claimedTasks ++ [c.id] },
        ["claim " ++ c.id ++ " for " ++ a.agent])
    let a := { a with completedTasks := a.completedTasks.erase c.id }
    if status = .doing then
      let owned := (doingBy all (.str a.agent)).insertionSort fun x y => x ≤ y
      if a.currentTask.any fun current => owned.contains current then (a, actions)
      else ({ a with currentTask := (owned.filter (inScope taskIds)).head? }, actions)
    else if a.currentTask = some c.id then ({ a with currentTask := none }, actions)
    else (a, actions)

/-- One turn of the pass over the cards. -/
def stageOwner (env : LifecycleEnv) (now : String) (taskIds : Option (List String))
    (all : Assoc String Card) (h : LifecycleHome) (c : Card) : Effect Staged Unit :=
  if c.owner.truthy then do
    let s ← Effect.get
    let a ← Effect.lift (ownerRecord env now s.agents c.owner)
    let repaired := repairOwner taskIds all c a.1
    Effect.modify fun s => { s with actions := s.actions ++ repaired.2 }
    if repaired.1 ≠ a.1 then do
      stage h (repaired.1, a.2)
      Effect.modify fun s =>
        { s with agents := Assoc.set s.agents repaired.1.agent (repaired.1, a.2) }
    else pure ()
  else pure ()

/-- The pass over the cards. -/
def repairOwners (env : LifecycleEnv) (now : String) (taskIds : Option (List String))
    (all : Assoc String Card) (h : LifecycleHome) : List Card → Effect Staged Unit
  | [] => pure ()
  | c :: rest => do
    stageOwner env now taskIds all h c
    repairOwners env now taskIds all h rest

/-! ### The journal -/

/-- `_save_projection`. -/
def saveProjection (env : LifecycleEnv) (faults : RepairWrite → Fault) (a : AgentRecord) :
    Effect LifecycleHome Unit := do
  let path ← Effect.lift (projectionPath a.1.agent)
  Effect.ioAtomic (faults (.save path)) fun h =>
    { h with projections := Assoc.set h.projections path (encodeUtf8 (env.dumpAgent a)) }

/-- The writes of the staged files. -/
def saveProjections (env : LifecycleEnv) (faults : RepairWrite → Fault) :
    List AgentRecord → Effect LifecycleHome Unit
  | [] => pure ()
  | a :: rest => do
    saveProjection env faults a
    saveProjections env faults rest

/-- The bytes of one file put back; bytes that are no text raise. -/
def restoreProjection (faults : RepairWrite → Fault) (path : String) :
    Option Bytes → Effect LifecycleHome Unit
  | none => Effect.ioAtomic (faults (.restore path)) fun h =>
      { h with projections := Assoc.erase h.projections path }
  | some original =>
    match decodeUtf8 original with
    | none => .raise (.value "'utf-8' codec can't decode")
    | some text => Effect.ioAtomic (faults (.restore path)) fun h =>
        { h with projections := Assoc.set h.projections path (encodeUtf8 text) }

/-- `_restore_projections`, of the files in the order in which they are restored. -/
def restoreProjections (faults : RepairWrite → Fault) :
    List (String × Option Bytes) → Effect LifecycleHome Unit
  | [] => pure ()
  | (path, original) :: rest => do
    restoreProjection faults path original
    restoreProjections faults rest

/-- The scope as a receipt writes it. -/
def scopeValue : Option (List String) → Json
  | none => .null
  | some ids => .arr ((scopeSet ids).map .str)

/-- The receipts of the earlier intents that the repair covers. -/
def recoverable (taskIds : Option (List String)) (unresolved : List (String × Option (List String))) :
    List (String × Option (List String)) :=
  unresolved.filter fun p =>
    match taskIds with
    | none => true
    | some ids => p.2.any fun scope => scope.all ids.contains

/-- The `recovered` receipts. -/
def appendRecovered (env : LifecycleEnv) (faults : RepairWrite → Fault)
    (actor receiptId repairedAt : String) (after : LifecycleAudit) :
    List (String × Option (List String)) → Effect LifecycleHome Unit
  | [] => pure ()
  | (unresolvedId, scope) :: rest => do
    appendReceipt env faults actor unresolvedId "recovered"
      [("actor", .str actor), ("repaired_at", .str repairedAt), ("recovered_by", .str receiptId),
        ("task_ids", scopeValue scope), ("after", after.toDict)]
    appendRecovered env faults actor receiptId repairedAt after rest

/-- The receipt of a repair that returned. -/
structure LifecycleRepairReceipt where
  actor : String
  repairedAt : String
  before : LifecycleAudit
  after : LifecycleAudit
  actions : List String

/-- A call of `repair_lifecycle`, with what befalls its writes. -/
structure RepairCall where
  actor : String
  staleAfterSeconds : Int := 3600
  taskIds : Option (List String) := none
  faults : RepairWrite → Fault := fun _ => .ok

/-- The identifiers and times of a repair. -/
structure RepairStamp where
  receiptId : String
  repairedAt : String

/-- The fields that every receipt of a repair has. -/
def RepairCall.fields (call : RepairCall) (stamp : RepairStamp) (before : LifecycleAudit)
    (actions : List String) : Dict :=
  [("actor", .str call.actor), ("repaired_at", .str stamp.repairedAt), ("before", before.toDict),
    ("actions", .arr (actions.map .str))]

/-- The writes behind the `intent`. -/
def commitRepair (env : LifecycleEnv) (call : RepairCall) (stamp : RepairStamp)
    (before : LifecycleAudit) (unresolved : List (String × Option (List String))) (staged : Staged) :
    Effect LifecycleHome LifecycleRepairReceipt := do
  saveProjections env call.faults (staged.pending.map Prod.snd)
  let h ← Effect.get
  let after ← Effect.lift (auditLifecycle env call.taskIds h)
  if !after.clean then .raise (.runtime "repair did not converge; rerun audit for details")
  else do
    appendReceipt env call.faults call.actor stamp.receiptId "committed"
      (call.fields stamp before staged.actions ++ [("after", after.toDict)])
    appendRecovered env call.faults call.actor stamp.receiptId stamp.repairedAt after
      (recoverable call.taskIds unresolved)
    pure ⟨call.actor, stamp.repairedAt, before, after, staged.actions⟩

/-- The handler: the files are put back, and an intent that was written is rolled back. -/
def rollBack {α : Type} (env : LifecycleEnv) (call : RepairCall) (stamp : RepairStamp)
    (before : LifecycleAudit) (staged : Staged) (intentWritten : Bool) (e : PyError) :
    Effect LifecycleHome α := do
  Effect.tryExcept (restoreProjections call.faults staged.originals.reverse) fun _ =>
    .raise (.runtime "repair failed and projection rollback failed")
  if intentWritten then
    Effect.tryExcept
      (appendReceipt env call.faults call.actor stamp.receiptId "rolled_back"
        (call.fields stamp before staged.actions))
      fun _ => pure ()
  else pure ()
  .raise e

/-- The `try` of the repair, behind the staging. -/
def journalRepair (env : LifecycleEnv) (call : RepairCall) (stamp : RepairStamp)
    (before : LifecycleAudit) (unresolved : List (String × Option (List String)))
    (result : Except PyError Unit) (staged : Staged) : Effect LifecycleHome LifecycleRepairReceipt := do
  Effect.tryExcept
    (do
      Effect.lift result
      appendReceipt env call.faults call.actor stamp.receiptId "intent"
        (call.fields stamp before staged.actions ++
          [("projection_agents", .arr (((Assoc.keys staged.pending).insertionSort
              fun x y => x ≤ y).map .str)),
            ("task_ids", scopeValue call.taskIds)]))
    (rollBack env call stamp before staged false)
  Effect.tryExcept (commitRepair env call stamp before unresolved staged)
    (rollBack env call stamp before staged true)

/-- `repair_lifecycle`. -/
def repairLifecycle (env : LifecycleEnv) (call : RepairCall) :
    Effect LifecycleHome LifecycleRepairReceipt := do
  let h ← Effect.get
  let stamp : RepairStamp := ⟨env.board.uuid h.ticks, env.board.now (h.ticks + 1)⟩
  let unresolved ← Effect.lift (unresolvedReceiptIds h)
  let before ← Effect.lift (auditLifecycle env call.taskIds h)
  let _ ← Effect.lift
    (assertNoActiveConflicts env (env.board.now h.ticks) call.staleAfterSeconds h before)
  let all ← Effect.lift (h.cards env)
  let all := cardsById all
  let _ ← Effect.lift (doingOwners all)
  let (result, staged) := (do
      repairAgents env stamp.repairedAt call.staleAfterSeconds call.taskIds all h
        ((h.loadAgents env).map Prod.snd)
      repairOwners env stamp.repairedAt call.taskIds all h
        ((scopedCards call.taskIds all).map Prod.snd) : Effect Staged Unit).run
    { agents := h.loadAgents env }
  Effect.modify fun h => { h with ticks := h.ticks + 2 }
  journalRepair env call stamp before unresolved result staged

/-- The homes of a run of calls, each of which may raise. -/
def runRepairs (env : LifecycleEnv) (h : LifecycleHome) (calls : List RepairCall) : LifecycleHome :=
  calls.foldl (fun h call => ((repairLifecycle env call).run h).2) h

end SkCoord
