import SkCoord.Coordination.Recovery

/-!
# The lifecycle calls of the board

`createTask`, `createClaimedTask`, `claimTask`, `releaseClaim`, `releaseStaleClaims` and
`completeTask`, which run one after another under the lock of the board.  `BoardCall` is a call with
its arguments, and `runBoard` what a sequence of calls leaves.
-/

namespace SkCoord

open Python

/-! ### Refusals of a claim -/

/-- `TaskUnclaimable`: one task that cannot be claimed. -/
structure TaskUnclaimable where
  taskId : String
  reason : String
  message : String
  deriving DecidableEq, Repr

/-- The refusal as an exception: a `ValueError` with the message. -/
def TaskUnclaimable.error (r : TaskUnclaimable) : PyError := .value r.message

/-- `_unclaimable_absent`. -/
def unclaimableAbsent (env : BoardEnv) (b : Board) (taskId : String) :
    Except PyError TaskUnclaimable := do
  let card ← b.store.fold env.env taskId
  match card with
  | none => pure ⟨taskId, "absent", "Task " ++ taskId ++ " not found"⟩
  | some c =>
    let voidedAt := (Dict.get c.metaData "voided_at").orElse (.str "unknown time")
    let voidedBy := (Dict.get c.metaData "voided_by").orElse (.str "unknown writer")
    if (Dict.get c.metaData "voided").truthy then
      pure ⟨taskId, "voided", "Task " ++ taskId ++ " was voided at " ++ env.env.format voidedAt ++
        " by " ++ env.env.format voidedBy⟩
    else if c.archived then pure ⟨taskId, "archived", "Task " ++ taskId ++ " is archived"⟩
    else pure ⟨taskId, "inconsistent",
      "Task " ++ taskId ++ " folds but is missing from the claim projection"⟩

/-- The error of dependencies that are not done. -/
def incompleteDependencies (taskId : String) (incomplete : List String) : String :=
  "Task " ++ taskId ++ " has incomplete dependencies: " ++ String.intercalate ", " incomplete

/-- The target of a claim belongs to somebody else, or is done. -/
def TaskView.isTaken (v : TaskView) (agentName : String) : Bool :=
  let isActive := v.status == .claimed || v.status == .inProgress || v.status == .review
  -- a card that was moved there without an owner can be claimed
  let ownerlessActive := v.claimedBy.isNone && isActive
  (v.status == .done || isActive) && !ownerlessActive && v.claimedBy != some agentName

/-- The gates of `_claim_task`. -/
def requireClaimable (env : BoardEnv) (b : Board) (agentName taskId : String) :
    Except PyError Unit := do
  let views ← getTaskViews env b false
  match views.find? fun v => v.taskId == taskId with
  | none => do
    let refusal ← unclaimableAbsent env b taskId
    throw refusal.error
  | some target =>
    if target.isTaken agentName then
      let owner := (target.claimedBy.filter (· ≠ "")).getD "unknown owner"
      throw (TaskUnclaimable.error
        ⟨taskId, if target.status = .done then "done" else "owned",
          "Task " ++ taskId ++ " already " ++ target.status.value ++ " by " ++ owner⟩)
    else if target.dependencies.isEmpty then pure ()
    else do
      let views ← getTaskViews env b true
      let incomplete := incompleteIn views target.dependencies
      if incomplete.isEmpty then pure ()
      else throw (TaskUnclaimable.error
        ⟨taskId, "dependencies", incompleteDependencies taskId incomplete⟩)

/-! ### The agent file -/

namespace AgentFile

/-- The file of an agent without one; saving it stamps it. -/
def new (agent : String) : AgentFile := { agent, lastSeen := "" }

/-- The task that a claim bumps out of `current_task`. -/
def bumped (a : AgentFile) (taskId : String) : Option String :=
  a.currentTask.filter (· ≠ taskId)

/-- The file with a claim. -/
def claim (a : AgentFile) (taskId : String) (dropBumpedClaim : Bool) : AgentFile :=
  let claimed :=
    match a.bumped taskId with
    | some bumped =>
      if dropBumpedClaim then a.claimedTasks.filter (· ≠ bumped) else a.claimedTasks
    | none => a.claimedTasks
  { a with
    claimedTasks := if taskId ∈ claimed then claimed else claimed ++ [taskId]
    currentTask := some taskId
    state := .active }

/-- The file without a claim. -/
def release (a : AgentFile) (taskId : String) : AgentFile :=
  { a with
    claimedTasks := a.claimedTasks.filter (· ≠ taskId)
    currentTask := a.currentTask.filter (· ≠ taskId) }

/-- The file with a completed task. -/
def complete (a : AgentFile) (taskId : String) : AgentFile :=
  let claimed := a.claimedTasks.erase taskId
  let current := if a.currentTask = some taskId then claimed.head? else a.currentTask
  { a with
    claimedTasks := claimed
    completedTasks :=
      if taskId ∈ a.completedTasks then a.completedTasks else a.completedTasks ++ [taskId]
    currentTask := current
    state :=
      if current.any (· ≠ "") then .active
      else if a.state = .active then .idle
      else a.state }

end AgentFile

/-- `_claim_task`. -/
def claimInProjection (env : BoardEnv) (agentName taskId : String) (dropBumpedClaim : Bool) :
    Effect Board (AgentFile × Option String) := do
  let b ← Effect.get
  let _ ← Effect.lift (requireClaimable env b agentName taskId)
  let found ← Effect.lift (b.loadAgent agentName)
  let agent := found.getD (.new agentName)
  let saved ← saveAgent env (agent.claim taskId dropBumpedClaim)
  pure (saved, agent.bumped taskId)

/-- `_complete_task`. -/
def completeInProjection (env : BoardEnv) (agentName taskId : String) :
    Effect Board AgentFile := do
  let b ← Effect.get
  let found ← Effect.lift (b.loadAgent agentName)
  saveAgent env ((found.getD (.new agentName)).complete taskId)

/-! ### Claiming -/

/-- The card is there to be claimed. -/
def requireCoreToClaim (env : BoardEnv) (b : Board) (taskId : String) : Except PyError Unit :=
  if env.env.writeEnabled then do
    let core ← b.store.loadCore taskId
    if core.isSome then pure ()
    else throw (TaskUnclaimable.error
      ⟨taskId, "absent", "CardStore card " ++ taskId ++ " has no foldable core"⟩)
  else pure ()

/-- The locks of the target and of the card that it bumps, in their order. -/
def requireClaimLocks (env : BoardEnv) (b : Board) (taskId : String) (bumped : Option String) :
    Except PyError Unit := do
  let affected ←
    match bumped with
    | none => pure [taskId]
    | some other => do
      let other ← validateCardLockIdentifier other
      pure [taskId, other]
  (affected.insertionSort fun x y => x ≤ y).forM fun cardId => b.store.requireLockAnchor env.env cardId

/-- A folded card of this owner in one of these columns. -/
def isOwnedIn (card : Option Card) (owner : String) (columns : List Column) : Bool :=
  card.any fun c => c.owner.pyEq (.str owner) && columns.contains c.status

/-- `existing_revision`: the claim of this owner is live already. -/
def hasLiveClaim (card : Option Card) (owner : String) : Bool :=
  isOwnedIn card owner [.doing, .review] &&
    card.any fun c => (Dict.get c.metaData "_claim_revision").isNonEmptyStr

/-- The fold of a card, if there is one to fold. -/
def foldBumped (env : BoardEnv) (b : Board) : Option String → Except PyError (Option Card)
  | some cardId => b.store.fold env.env cardId
  | none => pure none

/-- `claim_task` of a card whose claim by this agent is live: the agent file alone changes, and the
column of the task it bumps. -/
def reclaimTask (env : BoardEnv) (canonical taskId : String) (current : Option AgentFile)
    (original : Option AgentFile) : Effect Board AgentFile := do
  let b ← Effect.get
  let bumpedCard ← Effect.lift (foldBumped env b (current.bind (·.currentTask)))
  let r ← claimInProjection env canonical taskId
    (!isOwnedIn bumpedCard canonical [.ready, .doing, .review])
  match r.2 with
  | none => pure r.1
  | some bumped =>
    if isOwnedIn bumpedCard canonical [.doing, .review] then do
      let transition ← drawUuid env
      Effect.tryExcept
        (do
          mirrorDemote env bumped canonical transition
          pure r.1)
        fun e => do
          let b ← Effect.get
          let applied ← Effect.lift (b.store.transitionsAreApplied env.env [(bumped, transition)]
            [(bumped, some canonical, .ready)])
          if applied then pure r.1
          else do
            recoverStoreFailure env "claim" taskId canonical canonical original e
              [(bumped, transition)]
            Effect.raise e
    else pure r.1

/-- The handler of a mirror that failed: what is durable is kept if it is complete, and undone
otherwise. -/
def claimFailed (env : BoardEnv) (canonical taskId claimRevision claimTransition : String)
    (demoted : Option (String × String)) (snapshot : Option Card) (original : Option AgentFile)
    (agent : AgentFile) (e : PyError) : Effect Board AgentFile := do
  let transitions := (taskId, claimTransition) :: demoted.toList
  let expected := (taskId, some canonical, Column.doing) ::
    demoted.toList.map fun p => (p.1, some canonical, Column.ready)
  let b ← Effect.get
  let applied ← Effect.lift (b.store.transitionsAreApplied env.env transitions expected)
  if applied then pure agent
  else do
    let compensation ← (if demoted.isSome then
        Effect.tryExcept
          (compensatePartialClaim env taskId canonical claimRevision claimTransition snapshot)
          fun e' => do
            recoverStoreFailure env "claim" taskId canonical canonical original e' transitions
            Effect.raise (.runtime "claim compensation failed; board is fail-closed")
      else pure [])
    recoverStoreFailure env "claim" taskId canonical canonical original e
      (transitions ++ compensation)
    Effect.raise e

/-- The demotion of the task that a claim bumps, with its transition. -/
def mirrorDemoted (env : BoardEnv) (canonical : String) :
    Option (String × String) → Effect Board Unit
  | some (cardId, transition) => mirrorDemote env cardId canonical transition
  | none => pure ()

/-- `claim_task` of a card without a live claim by this agent. -/
def claimFresh (env : BoardEnv) (canonical taskId : String) (current : Option AgentFile)
    (original : Option AgentFile) (snapshot : Option Card) : Effect Board AgentFile := do
  let b ← Effect.get
  let bumped := current.bind (·.currentTask)
  let bumpedCard ← Effect.lift
    (if env.env.writeEnabled then foldBumped env b bumped else pure none)
  let isOwned := isOwnedIn bumpedCard canonical [.ready, .doing, .review]
  let requiresDemote := bumped.isSome &&
    (!env.env.writeEnabled || isOwnedIn bumpedCard canonical [.doing, .review])
  let r ← claimInProjection env canonical taskId
    (env.env.writeEnabled && bumped.isSome && !isOwned)
  let claimTransition ← drawUuid env
  let claimRevision ← drawUuid env
  let demoted ← (if requiresDemote then do
      let transition ← drawUuid env
      pure (some (r.2.getD "", transition))
    else pure none : Effect Board (Option (String × String)))
  Effect.tryExcept
    (do
      mirrorCardStore env (mirrorCoordClaim env taskId canonical claimTransition claimRevision)
      mirrorDemoted env canonical demoted
      pure r.1)
    (claimFailed env canonical taskId claimRevision claimTransition demoted snapshot original r.1)

/-- `claim_task`. -/
def claimTask (env : BoardEnv) (agentName taskId : String) : Effect Board AgentFile := do
  let canonical ← Effect.lift (validateAgentName agentName)
  let _ ← Effect.lift (validateCardLockIdentifier taskId)
  let b ← Effect.get
  let _ ← Effect.lift (requireCoreToClaim env b taskId)
  let current ← Effect.lift (b.loadAgent canonical)
  let _ ← Effect.lift
    (requireClaimLocks env b taskId (current.bind fun a => a.bumped taskId))
  let original := Assoc.get? b.agents canonical
  let snapshot ← Effect.lift
    (if env.env.writeEnabled then b.store.fold env.env taskId else pure none)
  if hasLiveClaim snapshot canonical then
    match current.filter fun a => a.currentTask = some taskId with
    | some a => pure a
    | none => reclaimTask env canonical taskId current original
  else claimFresh env canonical taskId current original snapshot

/-! ### Releasing -/

/-- A release by this owner is the last that the log tells of. -/
def hasReleased (events : List Event) (owner : String) : Bool :=
  events.any fun e =>
    (e.get "action").pyEq (.str "release_claim") && (e.get "released_owner").pyEq (.str owner)

/-- `current_claim_precondition`. -/
def currentClaimPrecondition (env : Env) (st : Store) (taskId owner : String) :
    Except PyError (Option String) := do
  let card ← st.fold env taskId
  match card with
  | none => throw (.value ("CardStore card " ++ taskId ++ " not found"))
  | some c =>
    let live := Dict.get c.metaData "_claim_revision"
    if c.owner.pyEq (.str owner) then
      match live with
      | .str revision =>
        if revision = "" then throw (noRevision taskId) else pure (some revision)
      | _ => throw (noRevision taskId)
    else do
      let conflicts ← (Dict.getD c.metaData "claim_conflicts" (.arr [])).iter
      match conflicts.filter fun x => x.isDict && (x.field "owner").pyEq (.str owner) with
      | [] =>
        if c.owner.isNone && c.status == .backlog then do
          let events ← st.readEvents env taskId
          if hasReleased events owner then pure none else throw (ownerConflict taskId owner)
        else throw (ownerConflict taskId owner)
      | [conflict] =>
        match conflict.field "claim_revision" with
        | .str revision =>
          let existing := conflict.field "existing_claim_revision"
          if revision ≠ "" ∧ existing.isNonEmptyStr = true ∧
              (conflict.field "existing_owner").pyEq c.owner = true ∧
              existing.pyEq live = true then
            pure (some revision)
          else throw (noExactRevision taskId)
        | _ => throw (noExactRevision taskId)
      | _ => throw (.value
          ("CardStore claim conflict for " ++ taskId ++ " owned by " ++ owner ++ " is ambiguous"))
where
  noRevision (taskId : String) := PyError.value
    ("CardStore claim on " ++ taskId ++ " has no revision")
  noExactRevision (taskId : String) := PyError.value
    ("CardStore claim conflict on " ++ taskId ++ " has no exact revision")
  ownerConflict (taskId owner : String) := PyError.value
    ("CardStore owner conflict for " ++ taskId ++ ": expected " ++ owner)

/-- The card before a release with the revision that is released. -/
structure ReleaseTarget where
  before : Option Card
  revision : Option String

/-- The checks of a release against the store. -/
def checkRelease (env : Env) (st : Store) (owner taskId : String)
    (expectedClaimRevision : Option String) : Except PyError ReleaseTarget := do
  let before ← st.fold env taskId
  let revision ← currentClaimPrecondition env st taskId owner
  let releasesConflict := before.any fun c => !c.owner.pyEq (.str owner)
  if releasesConflict && (expectedClaimRevision.filter (· ≠ "")).isNone then
    throw (.value ("exact expected claim revision required to release conflict on " ++ taskId))
  else
    match expectedClaimRevision with
    | none => pure { before, revision }
    | some expected =>
      if revision = some expected then pure { before, revision }
      else throw (.value ("claim revision conflict for " ++ taskId ++ ": expected " ++ expected ++
        ", current " ++ revision.getD "None"))

/-- What a release has to mirror; a stale claim of a card without a core is only dropped from the
agent file. -/
def releaseTarget (env : BoardEnv) (b : Board) (owner taskId : String)
    (expectedClaimRevision : Option String) (allowMissingCardStore : Bool) :
    Except PyError (Option ReleaseTarget) :=
  if env.env.writeEnabled then
    match checkRelease env.env b.store owner taskId expectedClaimRevision with
    | .ok target => pure (some target)
    | .error (.value msg) =>
      if allowMissingCardStore then do
        let core ← b.store.loadCore taskId
        if core.isSome then throw (.value msg) else pure none
      else throw (.value msg)
    | .error e => throw e
  else pure none

/-- The release has reached its postcondition. -/
def releaseIsApplied (env : BoardEnv) (b : Board) (owner taskId transitionId : String)
    (target : ReleaseTarget) : Except PyError Bool :=
  match target.before, target.revision with
  | some before, some revision =>
    b.store.releaseTransitionIsApplied env.env taskId transitionId owner revision before
  | _, _ => pure false

/-- The mirror of a release, with the check of its postcondition. -/
def mirrorRelease (env : BoardEnv) (owner taskId actor transitionId : String)
    (abandonReason : Json) (target : ReleaseTarget) : Effect Board Bool := do
  mirrorCardStore env
    (mirrorCoordRelease env taskId owner actor target.revision transitionId abandonReason)
  let b ← Effect.get
  let applied ← Effect.lift (releaseIsApplied env b owner taskId transitionId target)
  if applied then pure true
  else .raise (.runtime "release transition did not reach its postcondition")

/-- The handler of a release that raised. -/
def releaseFailed (env : BoardEnv) (owner taskId actor transitionId : String)
    (target : ReleaseTarget) (original : Option AgentFile) (e : PyError) : Effect Board Bool := do
  let b ← Effect.get
  let applied ← Effect.lift (releaseIsApplied env b owner taskId transitionId target)
  if applied then pure true
  else do
    recoverStoreFailure env "release_claim" taskId owner actor original e [(taskId, transitionId)]
    Effect.raise e

/-- `_release_claim_locked`. -/
def releaseClaimLocked (env : BoardEnv) (owner taskId actor : String)
    (expectedClaimRevision : Option String) (allowMissingCardStore : Bool)
    (abandonReason : Json) : Effect Board Bool := do
  let b ← Effect.get
  let found ← Effect.lift (b.loadAgent owner)
  match found with
  | none => .raise (.value ("claim owner " ++ owner ++ " not found"))
  | some agent =>
    if taskId ∉ agent.claimedTasks ∧ agent.currentTask ≠ some taskId then pure false
    else do
      let target ← Effect.lift
        (releaseTarget env b owner taskId expectedClaimRevision allowMissingCardStore)
      let original := Assoc.get? b.agents owner
      let _ ← saveAgent env (agent.release taskId)
      match target with
      | none => pure true
      | some target => do
        let transition ← drawUuid env
        Effect.tryExcept (mirrorRelease env owner taskId actor transition abandonReason target)
          (releaseFailed env owner taskId actor transition target original)

/-- `release_claim`. -/
def releaseClaim (env : BoardEnv) (owner taskId actor : String)
    (expectedClaimRevision : Option String) (abandonReason : Json) : Effect Board Bool := do
  let canonicalOwner ← Effect.lift (validateAgentName owner)
  let _ ← Effect.lift (validateCardLockIdentifier taskId)
  let auditActor ← Effect.lift
    (validateAgentName (if actor = "" then canonicalOwner else actor))
  let b ← Effect.get
  let _ ← Effect.lift (b.store.requireLockAnchor env.env taskId)
  releaseClaimLocked env canonicalOwner taskId auditActor expectedClaimRevision false abandonReason

/-- The releases of `release_stale_claims`, with the tasks that changed. -/
def releaseEach (env : BoardEnv) (owner : String) : List String → Effect Board (List String)
  | [] => pure []
  | taskId :: released => do
    let b ← Effect.get
    let _ ← Effect.lift (b.store.requireLockAnchor env.env taskId)
    let changed ← releaseClaimLocked env owner taskId "stale-release" none true .null
    let rest ← releaseEach env owner released
    pure (if changed then taskId :: rest else rest)

/-- `release_stale_claims`. -/
def releaseStaleClaims (env : BoardEnv) (agent : String) (olderThanSeconds : Int) :
    Effect Board (List String) := do
  let canonical ← Effect.lift (validateAgentName agent)
  let b ← Effect.get
  let found ← Effect.lift (b.loadAgent canonical)
  match found with
  | none => pure []
  | some a => do
    let now ← drawNow env
    match env.age a.lastSeen now with
    | none => pure []
    | some age =>
      if age < olderThanSeconds then pure []
      else do
        let released := a.claimedTasks.dedup.insertionSort fun x y => x ≤ y
        let _ ← Effect.lift (released.forM fun taskId => do
          let _ ← validateCardLockIdentifier taskId
          pure ())
        releaseEach env canonical released

/-! ### Completing -/

/-- `_assert_no_claim_conflict`. -/
def assertNoClaimConflict (env : BoardEnv) (b : Board) (taskId owner : String) :
    Except PyError Unit := do
  let card ← b.store.fold env.env taskId
  match card with
  | none => pure ()
  | some c =>
    if (Dict.get c.metaData "claim_conflicts").truthy then
      throw (.value ("Task " ++ taskId ++ " has unresolved concurrent claim conflicts; " ++
        "explicit release or reconciliation is required"))
    else do
      c.owner.requireHashable
      if c.owner.isNone || c.owner.pyEq (.str owner) then pure ()
      else throw (.value ("Task " ++ taskId ++ " is owned by " ++ env.env.format c.owner ++
        ", not " ++ owner))

/-- `_incomplete_completion_dependencies`. -/
def incompleteCompletionDependencies (env : BoardEnv) (b : Board) (taskId : String) :
    Except PyError (List String) := do
  let views ← getTaskViews env b true
  -- the last view of an identifier is the one that the dictionary keeps
  match views.reverse.find? fun v => v.taskId == taskId with
  | none => throw (.value ("Task " ++ taskId ++ " not found"))
  | some target => pure (incompleteIn views target.dependencies)

/-- `complete_task`, as far as the board goes; `precondition` is what the caller's check does. -/
def completeTask (env : BoardEnv) (agentName taskId : String) (precondition : Except PyError Unit) :
    Effect Board AgentFile := do
  let canonical ← Effect.lift (validateAgentName agentName)
  let _ ← Effect.lift (validateCardLockIdentifier taskId)
  let b ← Effect.get
  let _ ← Effect.lift (b.store.requireLockAnchor env.env taskId)
  let _ ← Effect.lift (assertNoClaimConflict env b taskId canonical)
  match (b.loadAgents env).find? fun a => a.completedTasks.contains taskId with
  | some existing => pure existing
  | none => do
    let incomplete ← Effect.lift (incompleteCompletionDependencies env b taskId)
    if incomplete ≠ [] then .raise (.value (incompleteDependencies taskId incomplete))
    else do
      let _ ← Effect.lift precondition
      let original := Assoc.get? b.agents canonical
      let agent ← completeInProjection env canonical taskId
      let transition ← drawUuid env
      Effect.tryExcept (mirrorCardStore env (mirrorCoordComplete env taskId canonical transition))
        fun e => do
          let b ← Effect.get
          let applied ← Effect.lift (b.store.transitionsAreApplied env.env [(taskId, transition)]
            [(taskId, none, .done)])
          if applied then pure ()
          else do
            recoverStoreFailure env "complete" taskId canonical canonical original e
              [(taskId, transition)]
            Effect.raise e
      pure agent

/-! ### Creating -/

/-- `create_task`. -/
def createTask (env : BoardEnv) (task : Task) : Effect Board String := do
  mirrorCardStore env (mirrorCoordCreate env task)
  writeTask env task
  pure (task.fileName env.tables)

/-- `CardCore.model_dump() == other.model_dump()`. -/
def dumpEq (a b : CardCore) : Bool := a.createdAt == b.createdAt && semanticEq a b

/-- The error of a card that cannot be created claimed. -/
def createClaimedConflict (taskId : String) : PyError :=
  .value ("CardStore create-and-claim conflict for " ++ taskId)

/-- The claim that the card was created with is the one that folds. -/
def isCreatedClaim (card : Option Card) (owner revision : String) : Bool :=
  card.any fun c => c.owner.pyEq (.str owner) && c.status == .doing &&
    (Dict.get c.metaData "_claim_revision").pyEq (.str revision)

/-- `mirror_coord_create_claimed` without a request digest. -/
def mirrorCoordCreateClaimed (env : BoardEnv) (task : Task) (owner : String) :
    Effect Board String := do
  let b ← Effect.get
  let existing ← Effect.lift (b.store.loadCore task.id)
  match existing with
  | some stored =>
    let revision := stored.initialClaimRevision.getD ""
    if revision = "" ∨ dumpEq stored (task.claimedCore env.tables owner revision) = false then
      .raise (createClaimedConflict task.id)
    else do
      let card ← Effect.lift (b.store.fold env.env task.id)
      if isCreatedClaim card owner revision then pure revision
      else .raise (.value
        ("CardStore create-and-claim claim is no longer current for " ++ task.id))
  | none => do
    let revision ← drawUuid env
    let expected := task.claimedCore env.tables owner revision
    let _ ← inCreation (create env.creation .ok .ok expected)
    let b ← Effect.get
    let created ← Effect.lift (b.store.loadCore task.id)
    if created.any fun stored => dumpEq stored expected then pure revision
    else .raise (createClaimedConflict task.id)

/-- The dependencies of a task that is to be born claimed are done. -/
def requireDependencies (env : BoardEnv) (b : Board) (task : Task) : Except PyError Unit :=
  if task.dependencies.isEmpty then pure ()
  else do
    let views ← getTaskViews env b true
    let incomplete := incompleteIn views task.dependencies
    if incomplete.isEmpty then pure ()
    else throw (.value (incompleteDependencies task.id incomplete))

/-- `create_claimed_task` without a request digest. -/
def createClaimedTask (env : BoardEnv) (task : Task) (agentName : String) :
    Effect Board (String × String) := do
  let canonical ← Effect.lift (validateAgentName agentName)
  if env.env.writeEnabled then do
    let b ← Effect.get
    let _ ← Effect.lift (b.store.loadCore task.id)
    let _ ← Effect.lift (requireDependencies env b task)
    let revision ← mirrorCoordCreateClaimed env task canonical
    writeTask env task
    let r ← claimInProjection env canonical task.id false
    (match r.2 with
      | none => pure ()
      | some bumped => do
        let transition ← drawUuid env
        mirrorDemote env bumped canonical transition)
    let b ← Effect.get
    let card ← Effect.lift (b.store.fold env.env task.id)
    if isCreatedClaim card r.1.agent revision then pure (task.fileName env.tables, revision)
    else .raise (.runtime "atomic create-and-claim readback failed")
  else .raise (.value "atomic create-and-claim requires the CardStore")

/-! ### Sequences of calls -/

/-- A lifecycle call with its arguments. -/
inductive BoardCall where
  | createTask (task : Task)
  | createClaimedTask (task : Task) (agentName : String)
  | claimTask (agentName taskId : String)
  | releaseClaim (owner taskId actor : String) (expectedClaimRevision : Option String)
    (abandonReason : Json)
  | releaseStaleClaims (agent : String) (olderThanSeconds : Int)
  | completeTask (agentName taskId : String) (precondition : Except PyError Unit)

/-- The board that a call leaves, whether it returns or raises. -/
def BoardCall.run (env : BoardEnv) (b : Board) : BoardCall → Board
  | createTask task => ((SkCoord.createTask env task).run b).2
  | createClaimedTask task agentName => ((SkCoord.createClaimedTask env task agentName).run b).2
  | claimTask agentName taskId => ((SkCoord.claimTask env agentName taskId).run b).2
  | releaseClaim owner taskId actor expected reason =>
    ((SkCoord.releaseClaim env owner taskId actor expected reason).run b).2
  | releaseStaleClaims agent olderThan =>
    ((SkCoord.releaseStaleClaims env agent olderThan).run b).2
  | completeTask agentName taskId precondition =>
    ((SkCoord.completeTask env agentName taskId precondition).run b).2

/-- The board that calls leave, one after another. -/
def runBoard (env : BoardEnv) (b : Board) (calls : List BoardCall) : Board :=
  calls.foldl (BoardCall.run env) b

end SkCoord
