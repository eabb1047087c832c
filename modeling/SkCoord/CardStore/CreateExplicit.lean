import SkCoord.CardStore.DependencyGraph
import SkCoord.Python.Effect

/-!
# Creation of caller-supplied card identifiers

Three durable artefacts take part: `core.json`, one pending intent for each card, and the ledger of
creation attempts.  Every write among them is a step that may fail, before or after it takes
effect; an append to the ledger may also stop in the middle of its line.  `createExplicit`,
`create` and `reserveExplicitRejection` run under the lock of the creation governor, one after
another.
-/

namespace SkCoord

open Python

/-! ### The ledger of attempts -/

/-- How an attempt ended. -/
inductive Outcome where
  | accepted
  | rejected
  deriving DecidableEq, Repr

/-- The text of an outcome. -/
def Outcome.value : Outcome → String
  | accepted => "accepted"
  | rejected => "rejected"

/-- A record of the ledger. -/
structure AttemptRecord where
  cardId : String
  requestDigest : String
  actor : String
  outcome : Outcome
  reason : String := ""
  semanticDigest : String := ""
  deriving DecidableEq, Repr

/-- A line of the ledger; `corrupt` is one that does not parse. -/
inductive LedgerLine where
  | record (r : AttemptRecord)
  | corrupt
  deriving DecidableEq, Repr

/-- What stands behind the last end of line: a whole record or a part of a line. -/
inductive LedgerTail where
  | whole (r : AttemptRecord)
  | part
  deriving DecidableEq, Repr

/-- The file `card-creation-attempts@<host>.jsonl`. -/
structure Ledger where
  lines : List LedgerLine := []
  tail : Option LedgerTail := none
  deriving DecidableEq, Repr

/-- `_is_crash_reject_reason`. -/
def isCrashRejectReason (reason : String) : Bool :=
  ["oserror", "enospc", "disk full", "cannot be written", "cannot be cleared", "no space",
    "temporary destination is unsafe"].any fun pat => searchIgnoreCase pat reason

namespace AttemptRecord

/-- The digests of the record are well formed. -/
def isWellFormed (r : AttemptRecord) : Bool :=
  isHex 64 r.requestDigest && (r.semanticDigest == "" || isHex 64 r.semanticDigest)

/-- A rejection that records an input/output abort and not a decision. -/
def isCrashReject (r : AttemptRecord) : Bool :=
  r.outcome == .rejected && isCrashRejectReason r.reason

/-- What the records of one card must agree on. -/
def binding (r : AttemptRecord) : String × String × Outcome :=
  (r.requestDigest, r.semanticDigest, r.outcome)

end AttemptRecord

namespace Ledger

/-- One more record and an end of line.  Behind a torn line it completes a line that does not
parse. -/
def append (l : Ledger) (r : AttemptRecord) : Ledger :=
  match l.tail with
  | none => { lines := l.lines ++ [.record r] }
  | some _ => { lines := l.lines ++ [.corrupt] }

/-- An append that stopped before the end of its line, with all of the record or with a part. -/
def tear (l : Ledger) (full : Bool) (r : AttemptRecord) : Ledger :=
  match l.tail with
  | none => { l with tail := some (if full then .whole r else .part) }
  | some _ => { l with tail := some .part }

/-- The lines that a reader sees.  What stands behind the last end of line is dropped, unless the
file has no end of line at all. -/
def readLines (l : Ledger) : List LedgerLine :=
  match l.lines, l.tail with
  | [], some (.whole r) => [.record r]
  | [], some .part => [.corrupt]
  | lines, _ => lines

/-- One line of the ledger. -/
def readLine : LedgerLine → Except PyError AttemptRecord
  | .record r => if r.isWellFormed then pure r else throw corruptLog
  | .corrupt => throw corruptLog
where
  corruptLog := PyError.value "creation-attempt log is corrupt"

/-- `_read_creation_attempts`. -/
def readCreationAttempts (l : Ledger) : Except PyError (List AttemptRecord) :=
  l.readLines.mapM readLine

end Ledger

/-- The records of a card, from the first that is no input/output abort on. -/
def bindingAttempts (cardId : String) (records : List AttemptRecord) : List AttemptRecord :=
  (records.filter fun r => r.cardId = cardId).dropWhile AttemptRecord.isCrashReject

/-- `_attempt_for`. -/
def attemptFor (l : Ledger) (cardId : String) : Except PyError (Option AttemptRecord) := do
  let records ← l.readCreationAttempts
  match bindingAttempts cardId records with
  | [] => pure none
  | first :: rest =>
    if rest.any fun r => r.binding ≠ first.binding then
      throw (.value ("Card ID " ++ cardId ++ " has conflicting creation attempts"))
    else pure (some first)

/-! ### The state and its steps -/

/-- The record of a pending intent. -/
structure PendingIntent where
  cardId : String
  requestDigest : String
  semanticDigest : String
  actor : String
  deriving DecidableEq, Repr

/-- A file `card-creation-pending@<card>.json`. -/
inductive PendingFile where
  | corrupt
  | record (p : PendingIntent)
  deriving DecidableEq, Repr

/-- The store, the pending intents by card, and the ledger. -/
structure CreationState where
  store : Store := {}
  pending : Assoc String PendingFile := []
  ledger : Ledger := {}

/-- What creation reads of its environment. -/
structure CreationEnv where
  env : Env
  /-- `_explicit_semantic_digest` of the dump of a core without its `created_at`. -/
  explicitSemanticDigest : CardCore → String
  isHex_explicitSemanticDigest : ∀ core, isHex 64 (explicitSemanticDigest core) = true
  /-- `_govern_create` behind its dependency checks: duplicates and depth of reviews and
  repairs. -/
  governReview : Store → CardCore → Except PyError Unit
  /-- `authorized_predecessor`, which reads the directories of the source and of the predecessor that
  a replacement names, and the legacy files. -/
  authorizedPredecessor : Assoc String (List LegacyMutation) → CardDir → CardDir → CardCore →
    Except PyError Unit
  /-- Of a core with a predecessor it raises where one of the two has no core. -/
  cores_of_authorizedPredecessor : ∀ legacy source old core,
    (Assoc.get? core.metaData "review_predecessor").isSome →
      authorizedPredecessor legacy source old core = .ok () →
        source.core ≠ .absent ∧ old.core ≠ .absent

/-- What befalls one step on a file of the recovery directory: the directory cannot be opened, or
the step itself has a fault. -/
structure StepFault where
  opening : Option PyError := none
  step : Fault := .ok
  deriving DecidableEq, Repr

/-- What befalls each step of a call.  `clear` is the last step of a creation, `rejectClear` and
`reject` are those of `_reject_explicit`, and `lastClear` is the one behind a failed
`_reject_explicit`. -/
structure Plan where
  write : StepFault := {}
  publish : Fault := .ok
  append : StepFault := {}
  clear : StepFault := {}
  rejectClear : StepFault := {}
  reject : StepFault := {}
  lastClear : StepFault := {}
  anchor : Fault := .ok
  deriving DecidableEq, Repr

/-- `creation_guard`: a core that replaces a review names two other cards. -/
def CreationEnv.creationGuard (env : CreationEnv) (st : Store) (core : CardCore) :
    Except PyError Unit :=
  if ["review_attempt", "review_predecessor", "review_replacement_authorization"].all fun k =>
      (Assoc.get? core.metaData k).isNone then
    pure ()
  else
    match Dict.getD core.metaData "link_source_card" (.str ""),
      Dict.getD core.metaData "review_predecessor" (.str "") with
    | .str source, .str old =>
      if isHex 8 source && isHex 8 old && source != old then
        env.authorizedPredecessor st.legacy (st.dir source) (st.dir old) core
      else throw invalid
    | _, _ => throw invalid
where
  invalid := PyError.value "review replacement lock identity invalid"

/-- The core without the generated timestamp. -/
def semanticCore (core : CardCore) : CardCore := { core with createdAt := "" }

/-- `_semantic_digest_for`. -/
def semanticDigestFor (env : CreationEnv) (core : CardCore) : String :=
  env.explicitSemanticDigest (semanticCore core)

/-- `_semantic_core(a) == _semantic_core(b)`. -/
def semanticEq (a b : CardCore) : Bool :=
  a.id == b.id && a.kind == b.kind && a.title == b.title && a.description == b.description &&
    a.createdBy == b.createdBy && a.acceptanceCriteria == b.acceptanceCriteria &&
    a.dependencies == b.dependencies && a.initialPriority == b.initialPriority &&
    a.initialSwimlane == b.initialSwimlane && a.initialLabels == b.initialLabels &&
    a.initialOwner == b.initialOwner && a.initialClaimRevision == b.initialClaimRevision &&
    Json.pyEq (.obj a.metaData) (.obj b.metaData) &&
    Json.pyEq (.arr (a.exitGates.map .obj)) (.arr (b.exitGates.map .obj)) &&
    a.nonGoals == b.nonGoals && a.specVersion == b.specVersion

@[simp] theorem semanticEq_refl (core : CardCore) : semanticEq core core = true := by
  simp [semanticEq]

/-- `_govern_create`. -/
def governCreate (env : CreationEnv) (st : Store) (core : CardCore) : Except PyError Unit := do
  Store.governDependencies env.env st core
  env.governReview st core

/-- `_read_pending_intent`. -/
def readPendingIntent (s : CreationState) (cardId : String) :
    Except PyError (Option PendingIntent) :=
  match Assoc.get? s.pending cardId with
  | none => pure none
  | some .corrupt => throw corruptIntent
  | some (.record p) =>
    if p.cardId = cardId ∧ isHex 64 p.requestDigest = true ∧ isHex 64 p.semanticDigest = true then
      pure (some p)
    else throw corruptIntent
where
  corruptIntent := PyError.value "creation-pending intent is corrupt"

/-- A step on a file of the recovery directory, with the text of the error that stands for an
`OSError` of the step itself. -/
def recoveryStep (f : StepFault) (msg : String) (whole : CreationState → CreationState)
    (part : Bool → CreationState → CreationState) : Effect CreationState Unit :=
  match f.opening with
  | some e => .raise e
  | none => .osAs msg (.io f.step whole part)

/-- What befalls a step as a whole. -/
def StepFault.asFault (f : StepFault) (msg : String) : Fault :=
  match f.opening with
  | some e => .fails false e
  | none => f.step.osAs msg

theorem recoveryStep_eq_io (f : StepFault) (msg : String)
    (whole : CreationState → CreationState) (part : Bool → CreationState → CreationState) :
    recoveryStep f msg whole part = .io (f.asFault msg) whole part := by
  unfold recoveryStep StepFault.asFault
  split
  · rfl
  · exact Effect.osAs_io _ _ _ _

/-- `_write_pending_intent`. -/
def writePendingIntent (f : StepFault) (p : PendingIntent) : Effect CreationState Unit :=
  recoveryStep f "creation-pending intent cannot be written"
    (fun s => { s with pending := Assoc.set s.pending p.cardId (.record p) }) fun _ s => s

/-- `_clear_pending_intent`. -/
def clearPendingIntent (f : StepFault) (cardId : String) : Effect CreationState Unit :=
  recoveryStep f "creation-pending intent cannot be cleared"
    (fun s => { s with pending := Assoc.erase s.pending cardId }) fun _ s => s

/-- `_append_creation_attempt`. -/
def appendCreationAttempt (f : StepFault) (r : AttemptRecord) : Effect CreationState Unit :=
  recoveryStep f "creation-attempt log cannot be written"
    (fun s => { s with ledger := s.ledger.append r })
    fun full s => { s with ledger := s.ledger.tear full r }

/-- `_publish_explicit_core`. -/
def publishExplicitCore (f : Fault) (core : CardCore) : Effect CreationState Unit :=
  .ioAtomic f fun s => { s with store := s.store.publishCore core }

/-- `_ensure_card_lock_anchor`. -/
def ensureCardLockAnchor (f : Fault) (cardId : String) : Effect CreationState Unit := do
  let s ← Effect.get
  let core ← Effect.lift (s.store.loadCore cardId)
  match core with
  | none => .raise noCore
  | some c => if c.id = cardId then .ioAtomic f id else .raise noCore
where
  noCore := PyError.value ("CardStore card " ++ cardId ++ " has no foldable core")

/-- `_reject_explicit`. -/
def rejectExplicit (plan : Plan) (cardId digest actor reason semanticDigest : String) :
    Effect CreationState Unit := do
  Effect.tryExcept (clearPendingIntent plan.rejectClear cardId) fun _ => pure ()
  appendCreationAttempt plan.reject
    { cardId, requestDigest := digest, actor, outcome := .rejected, reason, semanticDigest }

/-! ### `create_explicit` -/

/-- The error of a request that does not match what is stored. -/
def creationConflict (cardId : String) : PyError :=
  .value ("Card ID " ++ cardId ++ " has an explicit creation conflict")

/-- The error of a request for an identifier that a rejection has reserved. -/
def reservedByRejection (cardId : String) : PyError :=
  .value ("Card ID " ++ cardId ++ " is reserved by a rejected creation attempt")

/-- The request is an exact replay of an accepted one. -/
def requireReplay (env : CreationEnv) (core : CardCore) (digest : String)
    (attempt : AttemptRecord) (existing : Option CardCore) : Except PyError Unit :=
  match existing with
  | none => throw (creationConflict core.id)
  | some stored =>
    if attempt.semanticDigest ≠ "" ∧ semanticDigestFor env stored ≠ attempt.semanticDigest then
      throw (creationConflict core.id)
    else if attempt.requestDigest ≠ digest then throw (creationConflict core.id)
    else if semanticEq stored core = false then throw (creationConflict core.id)
    else pure ()

/-- The record of an accepted attempt. -/
def acceptedRecord (env : CreationEnv) (core : CardCore) (digest actor : String) : AttemptRecord :=
  { cardId := core.id, requestDigest := digest, actor, outcome := .accepted,
    semanticDigest := semanticDigestFor env core }

/-- The intent that is written before the core. -/
def pendingIntent (env : CreationEnv) (core : CardCore) (digest actor : String) : PendingIntent :=
  { cardId := core.id, requestDigest := digest, semanticDigest := semanticDigestFor env core,
    actor }

/-- The governor, which reserves the identifier of a core that it refuses. -/
def governExplicit (env : CreationEnv) (plan : Plan) (core : CardCore) (digest actor : String) :
    Effect CreationState Unit := do
  let s ← Effect.get
  match governCreate env s.store core with
  | .ok _ => pure ()
  | .error (.value msg) => do
    rejectExplicit plan core.id digest actor msg (semanticDigestFor env core)
    Effect.raise (.value msg)
  | .error e => .raise e

/-- The durable steps of a creation, in their order. -/
def publishSteps (env : CreationEnv) (plan : Plan) (core : CardCore) (digest actor : String)
    (pending : Option PendingIntent) : Effect CreationState Unit := do
  (if pending.isNone then writePendingIntent plan.write (pendingIntent env core digest actor)
    else pure ())
  publishExplicitCore plan.publish core
  appendCreationAttempt plan.append (acceptedRecord env core digest actor)
  clearPendingIntent plan.clear core.id

/-- The `except` clause around `publishSteps`. -/
def publishFailed (env : CreationEnv) (plan : Plan) (core : CardCore) (digest actor : String)
    (e : PyError) : Effect CreationState Unit := do
  Effect.tryExcept
    (rejectExplicit plan core.id digest actor e.reason (semanticDigestFor env core))
    fun _ => clearPendingIntent plan.lastClear core.id
  Effect.raise e

/-- A creation of the core, behind the governor or behind its pending intent. -/
def createCore (env : CreationEnv) (plan : Plan) (core : CardCore) (digest actor : String)
    (pending : Option PendingIntent) : Effect CreationState Bool := do
  Effect.tryExcept (publishSteps env plan core digest actor pending)
    (publishFailed env plan core digest actor)
  ensureCardLockAnchor plan.anchor core.id
  pure true

/-- What `create_explicit` does with the attempt, the core and the intent that it has read. -/
def answerExplicit (env : CreationEnv) (plan : Plan) (core : CardCore) (digest actor : String)
    (attempt : Option AttemptRecord) (existing : Option CardCore) (pending : Option PendingIntent) :
    Effect CreationState Bool :=
  match attempt with
  | some a =>
    match a.outcome with
    | .rejected => .raise (reservedByRejection core.id)
    | .accepted => do
      let _ ← Effect.lift (requireReplay env core digest a existing)
      pure false
  | none =>
    match pending with
    | some p =>
      if p.requestDigest ≠ digest ∨ p.semanticDigest ≠ semanticDigestFor env core then
        .raise (creationConflict core.id)
      else
        match existing with
        | some stored =>
          if semanticDigestFor env stored ≠ semanticDigestFor env core then
            .raise (creationConflict core.id)
          else do
            appendCreationAttempt plan.append (acceptedRecord env core digest actor)
            clearPendingIntent plan.clear core.id
            pure false
        | none => createCore env plan core digest actor (some p)
    | none =>
      match existing with
      | some _ => .raise (creationConflict core.id)
      | none => do
        governExplicit env plan core digest actor
        createCore env plan core digest actor none

/-- `create_explicit`. -/
def createExplicit (env : CreationEnv) (plan : Plan) (core : CardCore) (digest actor : String) :
    Effect CreationState Bool := do
  let _ ← Effect.lift (validateCardLockIdentifier core.id)
  let _ ← Effect.lift (requireDigest digest)
  let s ← Effect.get
  let attempt ← Effect.lift (attemptFor s.ledger core.id)
  let existing ← Effect.lift (s.store.loadCore core.id)
  let pending ← Effect.lift (readPendingIntent s core.id)
  answerExplicit env plan core digest actor attempt existing pending
where
  requireDigest (digest : String) : Except PyError Unit :=
    if isHex 64 digest then pure ()
    else throw (.value "explicit creation digest must be a sha256 hex digest")

/-! ### The other two calls -/

/-- `reserve_explicit_rejection`. -/
def reserveExplicitRejection (plan : Plan) (cardId digest actor reason : String) :
    Effect CreationState Unit := do
  let _ ← Effect.lift (validateCardLockIdentifier cardId)
  let s ← Effect.get
  let attempt ← Effect.lift (attemptFor s.ledger cardId)
  let core ← Effect.lift (s.store.loadCore cardId)
  if core.isSome ∨ attempt.any (fun a => a.outcome == .accepted) then pure ()
  else if attempt.isNone then rejectExplicit plan cardId digest actor reason ""
  else pure ()

/-- An exclusive write of `core.json` that stopped before the end of its text, with all of the
value or with a part. -/
def Store.tearCore (st : Store) (core : CardCore) (full : Bool) : Store :=
  if (st.dir core.id).core.exists then st
  else if full then st.setCore core
  else { st with cards := Assoc.set st.cards core.id { st.dir core.id with core := .malformed } }

/-- `create`. -/
def create (env : CreationEnv) (f anchor : Fault) (core : CardCore) :
    Effect CreationState String := do
  let s ← Effect.get
  let _ ← Effect.lift (env.creationGuard s.store core)
  let _ ← Effect.lift (validateCardLockIdentifier core.id)
  let existing ← Effect.lift (s.store.loadCore core.id)
  if existing.isSome then pure core.id
  else do
    let _ ← Effect.lift (governCreate env s.store core)
    Effect.io f (fun s => { s with store := s.store.publishCore core })
      fun full s => { s with store := s.store.tearCore core full }
    ensureCardLockAnchor anchor core.id
    pure core.id

/-! ### Sequences of calls -/

/-- A call, with the faults that befall it. -/
inductive CreationCall where
  | createExplicit (plan : Plan) (core : CardCore) (digest actor : String)
  | create (f anchor : Fault) (core : CardCore)
  | reserveExplicitRejection (plan : Plan) (cardId digest actor reason : String)

/-- The state that a call leaves, whether it returns or raises or its process dies. -/
def CreationCall.run (env : CreationEnv) (s : CreationState) : CreationCall → CreationState
  | createExplicit plan core digest actor => ((SkCoord.createExplicit env plan core digest actor).run s).2
  | create f anchor core => ((SkCoord.create env f anchor core).run s).2
  | reserveExplicitRejection plan cardId digest actor reason =>
    ((SkCoord.reserveExplicitRejection plan cardId digest actor reason).run s).2

/-- The state that calls leave, one after another. -/
def runCalls (env : CreationEnv) (calls : List CreationCall) (s : CreationState) : CreationState :=
  calls.foldl (CreationCall.run env) s

end SkCoord
