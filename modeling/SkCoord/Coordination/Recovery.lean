import SkCoord.Coordination.Board

/-!
# Recovery of the agent file

A lifecycle call writes the agent file first and mirrors the change into the store second.  Where
the mirror raises, the call looks whether its events are durable and folded as intended; if they
are not, it appends a record to the recovery log and restores the agent file.
-/

namespace SkCoord

open Python

/-! ### What the store shows of a mirror call -/

namespace Store

/-- `has_transition`. -/
def hasTransition (env : Env) (st : Store) (cardId transitionId : String) :
    Except PyError Bool := do
  let events ← readEvents env st cardId
  pure (events.any fun e => (e.get "transition_id").pyEq (.str transitionId))

/-- `_store_transitions_are_durable`. -/
def transitionsAreDurable (env : Env) (st : Store) :
    List (String × String) → Except PyError Bool
  | [] => pure true
  | (cardId, transitionId) :: transitions => do
    let durable ← hasTransition env st cardId transitionId
    if durable then transitionsAreDurable env st transitions else pure false

/-- The folds of the cards show these owners and columns. -/
def statesAreFolded (env : Env) (st : Store) :
    List (String × Option String × Column) → Except PyError Bool
  | [] => pure true
  | (cardId, owner, status) :: expected => do
    let card ← fold env st cardId
    match card with
    | none => pure false
    | some c =>
      if c.owner.pyEq (jsonOfOption owner) && c.status == status then
        statesAreFolded env st expected
      else pure false

/-- `_store_transitions_are_applied`. -/
def transitionsAreApplied (env : Env) (st : Store) (transitions : List (String × String))
    (expected : List (String × Option String × Column)) : Except PyError Bool := do
  let durable ← transitionsAreDurable env st transitions
  if durable then statesAreFolded env st expected else pure false

/-- `_release_transition_is_applied`. -/
def releaseTransitionIsApplied (env : Env) (st : Store)
    (cardId transitionId owner revision : String) (before : Card) : Except PyError Bool := do
  let durable ← hasTransition env st cardId transitionId
  if durable then do
    let card ← fold env st cardId
    match card with
    | none => pure false
    | some c =>
      let live := Dict.get before.metaData "_claim_revision"
      if before.owner.pyEq (.str owner) && live.pyEq (.str revision) then
        pure (c.owner.isNone && c.status == .backlog &&
          (Assoc.get? c.metaData "_claim_revision").isNone)
      else do
        let conflicts ← (Dict.getD before.metaData "claim_conflicts" (.arr [])).iter
        let isMatch := Card.conflictMatches (.str owner) (.str revision)
        if (conflicts.filter isMatch).length ≠ 1 then pure false
        else if c.owner.pyEq before.owner && c.status == before.status &&
            (Dict.get c.metaData "_claim_revision").pyEq live then do
          let remaining ← (Dict.getD c.metaData "claim_conflicts" (.arr [])).iter
          pure (Json.pyEqList remaining (conflicts.filter fun conflict => !isMatch conflict))
        else pure false
  else pure false

/-- `_card_matches_snapshot`. -/
def cardMatchesSnapshot (env : Env) (st : Store) (cardId : String) (snapshot : Card) :
    Except PyError Bool := do
  let card ← fold env st cardId
  pure (card.any fun c => c.owner.pyEq snapshot.owner && c.status == snapshot.status &&
    c.order.pyEq snapshot.order)

end Store

/-! ### Restoring -/

/-- `_restore_agent_projection`. -/
def restoreAgentProjection (name : String) (original : Option AgentFile) : Effect Board Unit := do
  let canonical ← Effect.lift (validateAgentName name)
  writing (Effect.modify fun b =>
    { b with
      agents := match original with
        | some a => Assoc.set b.agents canonical a
        | none => Assoc.erase b.agents canonical })

/-- `_append_release_recovery`. -/
def appendReleaseRecovery (r : RecoveryRecord) : Effect Board Unit :=
  writing (Effect.modify fun b => { b with recovery := b.recovery ++ [r] })

/-- `_recover_store_failure`. -/
def recoverStoreFailure (env : BoardEnv) (operation taskId owner actor : String)
    (original : Option AgentFile) (error : PyError) (transitionIds : List (String × String)) :
    Effect Board Unit := do
  let recordId ← drawUuid env
  let recordedAt ← drawNow env
  let r : RecoveryRecord :=
    { recordId, operation, taskId, owner, actor, phase := "card_store_write_uncertain",
      error := error.str, legacySnapshotPresent := original.isSome, transitionIds, recordedAt }
  Effect.tryExcept (appendReleaseRecovery r) fun _ => do
    Effect.tryExcept (restoreAgentProjection owner original) fun _ =>
      .raise (.runtime "mutation recovery record and restore both failed")
    Effect.raise (.runtime "mutation recovery record could not be persisted")
  Effect.tryExcept (restoreAgentProjection owner original) fun e => do
    appendReleaseRecovery { r with phase := "legacy_restore_failed", restoreError := some e.str }
    Effect.raise (.runtime "recovery record written; board is fail-closed")
  appendReleaseRecovery { r with phase := "legacy_restored_card_store_uncertain" }

/-! ### Undoing half a claim -/

/-- The release of `_compensate_partial_claim`, whose error is passed over when the release is
applied. -/
def compensateRelease (env : BoardEnv) (taskId owner claimRevision releaseTransition : String) :
    Effect Board Unit :=
  Effect.tryExcept
    (mirrorCardStore env
      (mirrorCoordRelease env taskId owner owner (some claimRevision) releaseTransition .null))
    fun e => do
      let b ← Effect.get
      let applied ← Effect.lift
        (b.store.transitionsAreApplied env.env [(taskId, releaseTransition)]
          [(taskId, none, .backlog)])
      if applied then pure () else .raise e

/-- The claim that gives the card back to the owner of the snapshot. -/
def compensateClaim (env : BoardEnv) (taskId : String) (snapshot : Card) :
    Effect Board (List (String × String)) :=
  match snapshot.owner with
  | .str owner => do
    let transition ← drawUuid env
    let revision ← drawUuid env
    mirrorCardStore env (mirrorCoordClaim env taskId owner transition revision)
    pure [(taskId, transition)]
  | .null => pure []
  | v => .raise (.attr ("'" ++ v.typeName ++ "' object has no attribute 'replace'"))

/-- The move that gives the card back its column and place. -/
def compensateMove (env : BoardEnv) (taskId owner : String) (snapshot : Card) :
    Effect Board (List (String × String)) := do
  let b ← Effect.get
  let restored ← Effect.lift (b.store.fold env.env taskId)
  match restored with
  | none => .raise (.runtime "claim compensation could not fold the target card")
  | some c =>
    if c.status ≠ snapshot.status ∨ c.order.pyEq snapshot.order = false then do
      let transition ← drawUuid env
      mirrorCardStore env
        (mirrorCoordMove env taskId snapshot.status.value owner snapshot.order transition)
      pure [(taskId, transition)]
    else pure []

/-- `_compensate_partial_claim`. -/
def compensatePartialClaim (env : BoardEnv) (taskId owner claimRevision claimTransition : String)
    (snapshot : Option Card) : Effect Board (List (String × String)) :=
  match snapshot with
  | none => pure []
  | some snapshot => do
    let b ← Effect.get
    let durable ← Effect.lift (b.store.transitionsAreDurable env.env [(taskId, claimTransition)])
    if durable then do
      let current ← Effect.lift (b.store.fold env.env taskId)
      if current.any fun c => c.owner.pyEq (.str owner) && c.status == .doing then do
        let releaseTransition ← drawUuid env
        compensateRelease env taskId owner claimRevision releaseTransition
        let claimed ← compensateClaim env taskId snapshot
        let moved ← compensateMove env taskId owner snapshot
        let b ← Effect.get
        let restored ← Effect.lift (b.store.cardMatchesSnapshot env.env taskId snapshot)
        if restored then pure ((taskId, releaseTransition) :: claimed ++ moved)
        else .raise (.runtime "claim compensation did not restore the target card")
      else pure []
    else pure []

end SkCoord
