import SkCoord.Coordination.Parity
import SkCoord.Python.Bytes

/-!
# The audit of the lifecycle

The cards are authoritative for status and ownership, and the agent files are a projection of them.
`auditLifecycle` lists where the two disagree, by ten codes; `assertNoActiveConflicts` rejects a
repair that would overwrite the work of an agent that is active.  The files are kept as bytes, since
a repair that fails puts the bytes back.
-/

namespace SkCoord

open Python

/-- The fields of an agent file that no check reads, as they were loaded. -/
abbrev AgentRecord := AgentFile × Dict

/-- A receipt log; behind the part of a line the next line starts in its middle. -/
structure ReceiptLog where
  lines : List LogLine := []
  terminated : Bool := true

/-- The home of the board with the bytes of the agent files and the receipts of the repairs, both by
name, and how often the clock was read or an identifier drawn. -/
structure LifecycleHome where
  kanban : KanbanHome := {}
  projections : Assoc String Bytes := []
  receipts : Assoc String ReceiptLog := []
  ticks : ℕ := 0

/-- What a repair reads of its environment. -/
structure LifecycleEnv where
  board : BoardEnv
  /-- `AgentFile.model_validate(json.loads(text))`. -/
  parseAgent : List Char → Option AgentRecord
  /-- `json.dumps(agent.model_dump(), indent=2) + "\n"`. -/
  dumpAgent : AgentRecord → List Char
  /-- The defaults of the fields that no check reads. -/
  others : Dict

namespace LifecycleHome

/-- The agent files that can be read. -/
def records (env : LifecycleEnv) (h : LifecycleHome) : Assoc String AgentRecord :=
  h.projections.filterMap fun p =>
    ((decodeUtf8 p.2).bind env.parseAgent).map fun a => (p.1, a)

/-- The home as `KanbanBoard` reads it. -/
def kanbanHome (env : LifecycleEnv) (h : LifecycleHome) : KanbanHome :=
  { h.kanban with
    board := { h.kanban.board with agents := (h.records env).map fun p => (p.1, p.2.1) } }

/-- `{agent.agent: agent for agent in board.load_agents()}`. -/
def loadAgents (env : LifecycleEnv) (h : LifecycleHome) : Assoc String AgentRecord :=
  let names := (Assoc.keys (h.records env)).insertionSort fun x y =>
    agentFileName x ≤ agentFileName y
  let names := names.filter fun name => !isSyncConflictCopy env.board.tables (agentFileName name)
  (names.filterMap fun name =>
      (Assoc.get? (h.records env) name).filter fun a => a.1.agent = name).foldl
    (fun d a => Assoc.set d a.1.agent a) []

/-- `KanbanBoard(home).cards(include_archived=True)`: the cards of the store, unless it is empty
although there are task files. -/
def cards (env : LifecycleEnv) (h : LifecycleHome) : Except PyError (List Card) :=
  let k := h.kanbanHome env
  if env.board.readEnabled then do
    let ids ← (k.store env.board).listCardIds
    let stored := ids.filterMap (listedCard env.board.env (k.store env.board) true)
    if stored ≠ [] ∨ k.board.tasks = [] then pure stored else legacyCards env.board k true
  else legacyCards env.board k true

end LifecycleHome

/-! ### Scopes -/

/-- `task_ids is None or task_id in task_ids`. -/
def inScope (taskIds : Option (List String)) (taskId : String) : Bool :=
  taskIds.all fun ids => ids.contains taskId

/-- The cards in the scope. -/
def scopedCards (taskIds : Option (List String)) (cards : Assoc String Card) : Assoc String Card :=
  cards.filter fun p => inScope taskIds p.1

/-! ### Lookups -/

/-- `agents.get(owner)`. -/
def agentOf (agents : Assoc String AgentRecord) (owner : Json) : Except PyError (Option AgentRecord) := do
  owner.requireHashable
  match owner with
  | .str name => pure (Assoc.get? agents name)
  | _ => pure none

/-- The cards that their owners do. -/
def doingCards (cards : Assoc String Card) : List Card :=
  (cards.map Prod.snd).filter fun c => c.owner.truthy && c.status == .doing

/-- `doing_by_owner`, of one owner. -/
def doingBy (cards : Assoc String Card) (owner : Json) : List String :=
  ((doingCards cards).filter fun c => c.owner.pyEq owner).map Card.id

/-- The keys of `doing_by_owner`. -/
def doingOwners (cards : Assoc String Card) : Except PyError (List Json) := do
  (doingCards cards).forM fun c => c.owner.requireHashable
  pure ((doingCards cards).foldl (fun owners c =>
    if owners.any fun o => o.pyEq c.owner then owners else owners ++ [c.owner]) [])

/-! ### Issues -/

/-- A disagreement between a card and its agent projection. -/
structure LifecycleIssue where
  code : String
  taskId : String
  agent : Json
  detail : String

/-- The result of an audit. -/
structure LifecycleAudit where
  cardCount : ℕ
  agentCount : ℕ
  issues : List LifecycleIssue

namespace LifecycleAudit

/-- `clean`. -/
def clean (a : LifecycleAudit) : Bool := a.issues.isEmpty

/-- `to_dict`. -/
def toDict (a : LifecycleAudit) : Json :=
  .obj [("clean", .bool a.clean), ("card_count", .int a.cardCount),
    ("agent_count", .int a.agentCount),
    ("issues", .arr (a.issues.map fun i => .obj [("code", .str i.code), ("task_id", .str i.taskId),
      ("agent", i.agent), ("detail", .str i.detail)]))]

end LifecycleAudit

/-- `(item.task_id, item.code, item.agent or "")`. -/
def LifecycleIssue.key (i : LifecycleIssue) : String ×ₗ String ×ₗ String :=
  toLex (i.taskId, toLex (i.code, match i.agent with | .str s => s | _ => ""))

/-- The issue of one entry of `claimed_tasks`. -/
def claimIssue (env : LifecycleEnv) (cards : Assoc String Card) (a : AgentFile) (taskId : String) :
    List LifecycleIssue :=
  match Assoc.get? cards taskId with
  | none => [⟨"orphan_claim", taskId, .str a.agent, "claimed card is missing"⟩]
  | some c =>
    if c.status = .done then
      [⟨"done_still_claimed", taskId, .str a.agent, "done card remains claimed"⟩]
    else if c.status = .backlog then
      [⟨"backlog_still_claimed", taskId, .str a.agent, "backlog card remains claimed"⟩]
    else if c.owner.truthy && !c.owner.pyEq (.str a.agent) then
      [⟨"claimant_not_owner", taskId, .str a.agent,
        "card owner is " ++ env.board.env.format c.owner⟩]
    else []

/-- The issue of `current_task` as a claim. -/
def currentClaimIssue (taskIds : Option (List String)) (a : AgentFile) : List LifecycleIssue :=
  match a.currentTask with
  | some t =>
    if t ≠ "" ∧ t ∉ a.claimedTasks ∧ inScope taskIds t = true then
      [⟨"current_not_claimed", t, .str a.agent, "current_task is absent from claimed_tasks"⟩]
    else []
  | none => []

/-- The issue of `current_task` as active execution. -/
def currentCardIssue (taskIds : Option (List String)) (cards : Assoc String Card) (a : AgentFile) :
    List LifecycleIssue :=
  match a.currentTask with
  | some t =>
    if t ≠ "" ∧ inScope taskIds t = true then
      match (Assoc.get? cards t).map Card.status with
      | some .review => [⟨"review_reported_active", t, .str a.agent,
          "review owner is still reported as active execution"⟩]
      | some .done => [⟨"done_reported_active", t, .str a.agent,
          "done card is still reported as active execution"⟩]
      | _ => []
    else []
  | none => []

/-- The issue of one entry of `completed_tasks`. -/
def completedIssue (cards : Assoc String Card) (a : AgentFile) (taskId : String) :
    List LifecycleIssue :=
  match Assoc.get? cards taskId with
  | some c =>
    if c.status = .done then []
    else [⟨"reopened_still_completed", taskId, .str a.agent,
      "non-done card remains in completed_tasks"⟩]
  | none => []

/-- The issues of one agent file. -/
def agentIssues (env : LifecycleEnv) (taskIds : Option (List String)) (cards : Assoc String Card)
    (a : AgentFile) : List LifecycleIssue :=
  currentClaimIssue taskIds a ++
    (a.claimedTasks.filter (inScope taskIds)).flatMap (claimIssue env cards a) ++
    currentCardIssue taskIds cards a ++
    (a.completedTasks.filter (inScope taskIds)).flatMap (completedIssue cards a)

/-- `holders`: who claims a task, by task. -/
def holdersOf (taskIds : Option (List String)) (agents : Assoc String AgentRecord) :
    Assoc String (List String) :=
  (agents.flatMap fun p => (p.2.1.claimedTasks.filter (inScope taskIds)).map fun t =>
    (t, p.2.1.agent)).foldl Assoc.addValue []

/-- The issue of a task with several claimants. -/
def claimantsIssue (p : String × List String) : List LifecycleIssue :=
  let owners := p.2.dedup.insertionSort fun x y => x ≤ y
  if 1 < owners.length then
    [⟨"multiple_claimants", p.1, .null,
      "card is claimed by " ++ String.intercalate ", " owners⟩]
  else []

/-- The issue of a card whose owner lacks the claim. -/
def ownerIssue (agents : Assoc String AgentRecord) (c : Card) :
    Except PyError (List LifecycleIssue) :=
  if c.owner.truthy then do
    let owner ← agentOf agents c.owner
    let detail := if c.status = .doing then "doing owner lacks a claimed projection"
      else c.status.value ++ " owner lacks a claimed projection"
    if (c.status = .ready ∨ c.status = .review ∨ c.status = .doing) ∧
        owner.all (fun a => !a.1.claimedTasks.contains c.id) = true then
      pure [⟨"owner_claim_missing", c.id, c.owner, detail⟩]
    else pure []
  else pure []

/-- The issue of an owner who does cards and reports none of them as current. -/
def doingIssue (taskIds : Option (List String)) (cards : Assoc String Card)
    (agents : Assoc String AgentRecord) (owner : Json) : Except PyError (List LifecycleIssue) := do
  let a ← agentOf agents owner
  let doing := doingBy cards owner
  match (doing.filter (inScope taskIds)).insertionSort fun x y => x ≤ y with
  | [] => pure []
  | t :: _ =>
    if a.all fun a => !a.1.currentTask.any fun current => doing.contains current then
      pure [⟨"doing_owner_not_current", t, owner,
        "doing owner does not report any owned doing card as current"⟩]
    else pure []

/-- `_audit_lifecycle_unlocked`. -/
def auditLifecycle (env : LifecycleEnv) (taskIds : Option (List String)) (h : LifecycleHome) :
    Except PyError LifecycleAudit := do
  let all := cardsById (← h.cards env)
  let cards := scopedCards taskIds all
  let agents := h.loadAgents env
  let ofAgents := agents.flatMap fun p => agentIssues env taskIds cards p.2.1
  let ofClaims := (holdersOf taskIds agents).flatMap claimantsIssue
  let ofOwners ← (cards.map Prod.snd).mapM (ownerIssue agents)
  let owners ← doingOwners all
  let ofDoing ← owners.mapM (doingIssue taskIds all agents)
  let issues := ofAgents ++ ofClaims ++ ofOwners.flatten ++ ofDoing.flatten
  pure ⟨cards.length, agents.length, issues.insertionSort fun x y => x.key ≤ y.key⟩

/-! ### Active work -/

/-- `_is_active`. -/
def isActive (env : LifecycleEnv) (now : String) (staleAfterSeconds : Int) (a : AgentFile) : Bool :=
  a.state = .active && (env.board.age a.lastSeen now).any fun age : ℚ => age ≤ (staleAfterSeconds : ℚ)

/-- The conflict of one issue with the work of an active agent. -/
def activeConflict (env : LifecycleEnv) (now : String) (staleAfterSeconds : Int)
    (agents : Assoc String AgentRecord) (i : LifecycleIssue) : Except PyError Unit :=
  match i.agent with
  | .str name =>
    if i.code = "orphan_claim" ∨ i.code = "claimant_not_owner" then
      match Assoc.get? agents name with
      | none => throw (.key name)
      | some a =>
        if isActive env now staleAfterSeconds a.1 then
          throw (.runtime ((if i.code = "orphan_claim" then "active orphan claim "
            else "active non-owner claim ") ++ i.taskId ++ " held by " ++ name))
        else pure ()
    else pure ()
  | _ => pure ()

/-- The active claimants of a task. -/
def activeClaimants (env : LifecycleEnv) (now : String) (staleAfterSeconds : Int)
    (agents : Assoc String AgentRecord) (taskId : String) : List String :=
  (agents.filter fun p => p.2.1.claimedTasks.contains taskId &&
    isActive env now staleAfterSeconds p.2.1).map fun p => p.2.1.agent

/-- `_assert_no_active_conflicts`. -/
def assertNoActiveConflicts (env : LifecycleEnv) (now : String) (staleAfterSeconds : Int)
    (h : LifecycleHome) (audit : LifecycleAudit) : Except PyError Unit := do
  let agents := h.loadAgents env
  audit.issues.forM (activeConflict env now staleAfterSeconds agents)
  (audit.issues.filter fun i => i.code = "multiple_claimants").forM fun i =>
    let owners := activeClaimants env now staleAfterSeconds agents i.taskId
    if 1 < owners.length then
      throw (.runtime ("multiple active owners for " ++ i.taskId ++ ": " ++
        String.intercalate ", " (owners.insertionSort fun x y => x ≤ y)))
    else pure ()

end SkCoord
