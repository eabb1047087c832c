import SkCoord.Coordination.Task

/-!
# The coordination board

The board is kept twice: as task and agent files, and as cards in the store.  `legacyTaskViews` is
the projection of the files, `taskViewsFromStore` that of the cards, and every lifecycle call
writes its agent file and mirrors the change into the store.  A mirror call and a write of the
recovery may raise, before or after they are durable; each consumes the next of the faults.
-/

namespace SkCoord

open Python

/-- A record of `recovery/<host>.jsonl`. -/
structure RecoveryRecord where
  recordId : String
  operation : String
  taskId : String
  owner : String
  actor : String
  phase : String
  error : String
  legacySnapshotPresent : Bool
  transitionIds : List (String × String)
  recordedAt : String
  restoreError : Option String := none
  deriving Repr

/-- A write that raises, behind its effect or instead of it. -/
structure WriteFault where
  took : Bool
  error : PyError
  deriving DecidableEq, Repr

/-- The shared home: the cards, the task files and the agent files by name, the recovery log, how
often the clock was read or an identifier drawn, and what befalls the writes to come. -/
structure Board where
  creation : CreationState := {}
  tasks : Assoc String Task := []
  agents : Assoc String AgentFile := []
  recovery : List RecoveryRecord := []
  ticks : Nat := 0
  faults : List (Option WriteFault) := []

/-- The cards. -/
def Board.store (b : Board) : Store := b.creation.store

/-- A board with other cards. -/
def Board.setStore (b : Board) (st : Store) : Board :=
  { b with creation := { b.creation with store := st } }

/-- What the board reads of its environment. -/
structure BoardEnv where
  creation : CreationEnv
  tables : CharTables
  /-- `card_store_read_enabled()`. -/
  readEnabled : Bool
  /-- `_now_iso()`. -/
  now : Nat → String
  /-- `uuid.uuid4().hex`. -/
  uuid : Nat → String
  /-- The seconds between two times, where the first can be parsed. -/
  age : String → String → Option Rat

/-- The environment of the store. -/
def BoardEnv.env (env : BoardEnv) : Env := env.creation.env

/-- The clock runs on between any two readings, and no identifier is drawn twice. -/
structure BoardEnv.Ticking (env : BoardEnv) : Prop where
  now : StrictMono env.now
  uuid : Function.Injective env.uuid
  uuid_ne : ∀ n, env.uuid n ≠ ""

/-! ### Clock and identifiers -/

/-- `uuid.uuid4().hex`. -/
def drawUuid (env : BoardEnv) : Effect Board String := fun b =>
  (.ok (env.uuid b.ticks), { b with ticks := b.ticks + 1 })

/-- `_now_iso()`. -/
def drawNow (env : BoardEnv) : Effect Board String := fun b =>
  (.ok (env.now b.ticks), { b with ticks := b.ticks + 1 })

/-! ### Files -/

namespace Board

/-- `archived_ids`: the tasks in the archive index. -/
def archivedIds (b : Board) : List String :=
  (b.store.legacy.filter fun p => p.2.any fun m => m.origin == "legacy-archive").map Prod.fst

/-- `load_tasks`. -/
def loadTasks (env : BoardEnv) (b : Board) (includeArchived : Bool) : List Task :=
  let names := (Assoc.keys b.tasks).insertionSort fun x y => x ≤ y
  let names := names.filter fun name => !isSyncConflictCopy env.tables name
  let tasks := names.filterMap fun name => Assoc.get? b.tasks name
  tasks.filter fun t => includeArchived || t.id ∉ b.archivedIds

/-- `load_agents`. -/
def loadAgents (env : BoardEnv) (b : Board) : List AgentFile :=
  let names := (Assoc.keys b.agents).insertionSort fun x y => agentFileName x ≤ agentFileName y
  let names := names.filter fun name => !isSyncConflictCopy env.tables (agentFileName name)
  names.filterMap fun name => (Assoc.get? b.agents name).filter fun a => a.agent = name

/-- `load_agent`. -/
def loadAgent (b : Board) (name : String) : Except PyError (Option AgentFile) := do
  let canonical ← validateAgentName name
  match Assoc.get? b.agents canonical with
  | none => pure none
  | some a =>
    if a.agent = canonical then pure (some a)
    else throw (.value "agent payload identity does not match its filename")

end Board

/-- `save_agent`, with the file as it is saved. -/
def saveAgent (env : BoardEnv) (a : AgentFile) : Effect Board AgentFile := do
  let lastSeen ← drawNow env
  let name ← Effect.lift (validateAgentName a.agent)
  Effect.modify fun b => { b with agents := Assoc.set b.agents name { a with lastSeen } }
  pure { a with lastSeen }

/-- The write of a task file. -/
def writeTask (env : BoardEnv) (task : Task) : Effect Board Unit :=
  Effect.modify fun b => { b with tasks := Assoc.set b.tasks (task.fileName env.tables) task }

/-! ### The projection of the files -/

/-- A projection of a card whose fold failed. -/
def unreadableCard (cardId : String) (e : PyError) : Card :=
  let source := "cards/" ++ cardId
  let reason := if isBlank e.str then e.className else strip e.str
  { id := cardId
    kind := .task
    title := .str ("UNREADABLE [source: " ++ source ++ "; reason: " ++ reason ++ "]")
    description := .str ("Source: " ++ source ++ "\nReason: " ++ reason)
    status := .backlog
    swimlane := .str "bug"
    priority := .str "critical"
    originator := ""
    owner := .null
    order := .int 0
    labels := [.str "unreadable"]
    acceptanceCriteria := []
    dependencies := []
    links := []
    metaData := [("unreadable", .bool true), ("source", .str source), ("reason", .str reason)]
    archived := false
    createdAt := ""
    updatedAt := .str ""
    source := "cards" }

/-- The claims of one agent file. -/
def claimsOf (claimed : Assoc String String) (a : AgentFile) : Assoc String String :=
  let claimed := a.claimedTasks.foldl (fun claimed tid => Assoc.set claimed tid a.agent) claimed
  match a.currentTask with
  | some tid => if tid = "" then claimed else Assoc.set claimed tid a.agent
  | none => claimed

/-- The claims of the agent files: the last agent that lists a task has it. -/
def claimedMap (agents : List AgentFile) : Assoc String String := agents.foldl claimsOf []

/-- The view of a task that the agent files give. -/
def legacyTaskView (agents : List AgentFile) (t : Task) (dependencies : List String) : TaskView where
  taskId := t.id
  dependencies := dependencies
  status :=
    if agents.any fun a => a.completedTasks.contains t.id then .done
    else if t.id ≠ "" ∧ agents.any (fun a => a.currentTask == some t.id) then .inProgress
    else if (Assoc.get? (claimedMap agents) t.id).isSome then .claimed
    else .opened
  claimedBy := Assoc.get? (claimedMap agents) t.id

/-- `current_acceptance_criteria`, as far as it refuses a card without a core. -/
def requireCriteria (env : BoardEnv) (b : Board) (t : Task) : Except PyError Unit := do
  let card ← Store.fold env.env b.store t.id
  if card.isNone && (Assoc.get? b.store.cards t.id).isSome then
    throw (.value ("CardStore core for " ++ t.id ++ " is missing"))
  else pure ()

/-- `current_dependencies`. -/
def currentDependenciesOf (env : BoardEnv) (b : Board) (t : Task) :
    Except PyError (List String) := do
  let card ← Store.fold env.env b.store t.id
  match card with
  | some c => pure c.dependencies
  | none => pure t.dependencies.dedup

/-- `_legacy_task_views`. -/
def legacyTaskViews (env : BoardEnv) (b : Board) (includeArchived : Bool) :
    Except PyError (List TaskView) := do
  let tasks := b.loadTasks env includeArchived
  let _ ← tasks.mapM (requireCriteria env b)
  let dependencies :=
    match tasks.mapM (currentDependenciesOf env b) with
    | .ok dependencies => dependencies
    | .error _ => tasks.map (·.dependencies)
  let agents := b.loadAgents env
  pure (List.zipWith (legacyTaskView agents) tasks dependencies)

/-! ### The projection of the cards -/

/-- The text of a value, if it is one. -/
def textOf? : Json → Option String
  | .str s => some s
  | _ => none

/-- `_task_view_from_card`, with the validation of the fields it takes from events. -/
def taskViewFromCard (c : Card) : Except PyError TaskView :=
  let invalid := PyError.value "validation error for Task"
  if (textOf? c.title).isNone || (textOf? c.description).isNone ||
      c.labels.any (fun l => (textOf? l).isNone) then
    throw invalid
  else
    match c.owner with
    | .null => pure ⟨c.id, c.dependencies, .ofColumn c.status, none⟩
    | .str owner => pure ⟨c.id, c.dependencies, .ofColumn c.status, some owner⟩
    | _ => throw invalid

/-- A card as `list_cards(degrade_unreadable=True)` lists it. -/
def listedCard (env : Env) (st : Store) (includeArchived : Bool) (cardId : String) : Option Card :=
  match Store.fold env st cardId with
  | .error e => some (unreadableCard cardId e)
  | .ok none => none
  | .ok (some c) => if c.archived && !includeArchived then none else some c

/-- `task_views_from_store`. -/
def taskViewsFromStore (env : Env) (st : Store) (includeArchived : Bool) :
    Except PyError (List TaskView) := do
  let ids ← st.listCardIds
  let cards := ids.filterMap (listedCard env st includeArchived)
  let cards := cards.filter fun c => c.kind == .task || c.kind == .epic
  cards.mapM taskViewFromCard

/-- `get_task_views`. -/
def getTaskViews (env : BoardEnv) (b : Board) (includeArchived : Bool) :
    Except PyError (List TaskView) :=
  if env.readEnabled then
    match taskViewsFromStore env.env b.store includeArchived with
    | .ok views =>
      if !views.isEmpty || b.tasks.isEmpty then pure views
      else legacyTaskViews env b includeArchived
    | .error _ => legacyTaskViews env b includeArchived
  else legacyTaskViews env b includeArchived

/-- The dependencies that are not done in the views. -/
def incompleteIn (views : List TaskView) (dependencies : List String) : List String :=
  -- a later view of one identifier replaces the earlier one
  let byId := views.foldl (fun d v => Assoc.set d v.taskId v) ([] : Assoc String TaskView)
  dependencies.filter fun dep => !(Assoc.get? byId dep).any fun v => v.status == .done

/-! ### The mirror -/

/-- A write that consumes the next fault. -/
def writing (x : Effect Board Unit) : Effect Board Unit := fun b =>
  match b.faults with
  | [] => x.run b
  | none :: faults => x.run { b with faults }
  | some f :: faults =>
    (if f.took then x >>= fun _ => .raise f.error else .raise f.error).run { b with faults }

/-- `_mirror_card_store`. -/
def mirrorCardStore (env : BoardEnv) (x : Effect Board Unit) : Effect Board Unit :=
  if env.env.writeEnabled then writing x else pure ()

/-- `append_event` on the board. -/
def appendCardEvent (env : BoardEnv) (cardId action agent : String) (payload : Dict) :
    Effect Board Unit := do
  let eventId ← drawUuid env
  let ts ← drawNow env
  let b ← Effect.get
  let r ← Effect.lift (b.store.appendEvent env.env cardId action agent payload { eventId, ts })
  Effect.modify fun b => b.setStore r.1

/-- A call on the creation state of the board. -/
def inCreation {α : Type} (x : Effect CreationState α) : Effect Board α := fun b =>
  let (r, s) := x.run b.creation
  (r, { b with creation := s })

/-- `transition_id or uuid.uuid4().hex`. -/
def orUuid (env : BoardEnv) (transitionId : String) : Effect Board String :=
  if transitionId = "" then drawUuid env else pure transitionId

/-- `mirror_coord_create`. -/
def mirrorCoordCreate (env : BoardEnv) (task : Task) : Effect Board Unit := do
  let _ ← inCreation (create env.creation .ok .ok (task.core env.tables))

/-- `mirror_coord_claim`. -/
def mirrorCoordClaim (env : BoardEnv) (taskId agent transitionId claimRevision : String) :
    Effect Board Unit := do
  let revision ← orUuid env claimRevision
  let tid ← orUuid env transitionId
  appendCardEvent env taskId "claim" agent
    [("owner", .str agent), ("claim_revision", .str revision), ("transition_id", .str tid)]

/-- `mirror_coord_complete`. -/
def mirrorCoordComplete (env : BoardEnv) (taskId agent transitionId : String) :
    Effect Board Unit := do
  let tid ← orUuid env transitionId
  appendCardEvent env taskId "complete" agent [("transition_id", .str tid)]

/-- `mirror_coord_move`. -/
def mirrorCoordMove (env : BoardEnv) (taskId column agent : String) (order : Json)
    (transitionId : String) : Effect Board Unit := do
  let tid ← orUuid env transitionId
  appendCardEvent env taskId "move" (if agent = "" then "mcp" else agent)
    [("column", .str column), ("order", order), ("transition_id", .str tid)]

/-- `mirror_coord_release`. -/
def mirrorCoordRelease (env : BoardEnv) (taskId owner actor : String)
    (expectedClaimRevision : Option String) (transitionId : String) (abandonReason : Json) :
    Effect Board Unit :=
  match expectedClaimRevision with
  | none => pure ()
  | some revision => do
    let tid ← orUuid env transitionId
    appendCardEvent env taskId "release_claim" actor
      [("released_owner", .str owner), ("expected_claim_revision", .str revision),
        ("transition_id", .str tid), ("abandon_reason", abandonReason)]

/-- The mirror of a demotion: the move of the bumped card to `ready`. -/
def mirrorDemote (env : BoardEnv) (taskId agent transitionId : String) : Effect Board Unit :=
  mirrorCardStore env (mirrorCoordMove env taskId "ready" agent .null transitionId)

end SkCoord
