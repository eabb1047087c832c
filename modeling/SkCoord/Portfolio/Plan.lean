import Mathlib
import SkCoord.Portfolio.Canonical

/-!
# The portfolio plan

`evaluatePortfolio` decides for each candidate whether it may be worked on, ranks those that may and
excludes the others with their reasons.  The contracts carry what their validators check.
-/

namespace SkCoord.Portfolio

open Python

/-! ### Words -/

/-- `TruthState`. -/
inductive TruthState where
  | healthy | degraded | notSafe | unknown | unavailable | unauthorized
  deriving DecidableEq

def TruthState.text : TruthState → String
  | healthy => "healthy"
  | degraded => "degraded"
  | notSafe => "unsafe"
  | unknown => "unknown"
  | unavailable => "unavailable"
  | unauthorized => "unauthorized"

/-- `Priority`. -/
inductive Priority where
  | critical | high | medium | low
  deriving DecidableEq

/-- `ClassOfService`. -/
inductive ClassOfService where
  | expedite | fixedDate | standard | intangible
  deriving DecidableEq

def ClassOfService.text : ClassOfService → String
  | expedite => "expedite"
  | fixedDate => "fixed-date"
  | standard => "standard"
  | intangible => "intangible"

inductive EnrollmentState where
  | unenrolled | enrolled | suspended
  deriving DecidableEq

def EnrollmentState.text : EnrollmentState → String
  | unenrolled => "unenrolled"
  | enrolled => "enrolled"
  | suspended => "suspended"

inductive LeaseState where
  | clear | active | unknown | unavailable | unauthorized
  deriving DecidableEq

def LeaseState.text : LeaseState → String
  | clear => "clear"
  | active => "active"
  | unknown => "unknown"
  | unavailable => "unavailable"
  | unauthorized => "unauthorized"

inductive HumanGateState where
  | notRequired | pending | approved | rejected | unknown
  deriving DecidableEq

def HumanGateState.text : HumanGateState → String
  | notRequired => "not-required"
  | pending => "pending"
  | approved => "approved"
  | rejected => "rejected"
  | unknown => "unknown"

inductive ProfileKind where
  | human | service
  deriving DecidableEq

/-- `^[0-9a-f]{64}$`. -/
def isSha256 (s : String) : Bool :=
  s.toList.length = 64 && s.toList.all fun c => c.isDigit || ('a' ≤ c && c ≤ 'f')

/-- `Sha256`. -/
structure Sha256 where
  text : String
  valid : isSha256 text = true

/-! ### Contracts -/

/-- What `_require_sorted_unique` asks of texts. -/
def SortedUnique (u : Unicode) (values : List String) : Prop :=
  values.map u.nfc = values ∧ values.insertionSort (· ≤ ·) = values ∧ values.Nodup

instance (u : Unicode) (values : List String) : Decidable (SortedUnique u values) :=
  inferInstanceAs (Decidable (_ ∧ _ ∧ _))

/-- `PortfolioPolicy`. -/
structure PortfolioPolicy (u : Unicode) where
  policyId : String
  policyVersion : String
  policyHash : Sha256
  enrollmentPolicyVersion : String
  snapshotMaxAgeSeconds : ℕ
  positiveAge : 0 < snapshotMaxAgeSeconds
  eligibleStates : List String
  classOrder : List ClassOfService
  priorityOrder : List Priority
  excludedLabels : List String
  completeClasses : classOrder.length = 4 ∧ ∀ c, c ∈ classOrder
  completePriorities : priorityOrder.length = 4 ∧ ∀ p, p ∈ priorityOrder
  sortedStates : SortedUnique u eligibleStates
  sortedLabels : SortedUnique u excludedLabels

/-- `PlanDataQuality`. -/
structure PlanDataQuality where
  snapshotId : String
  snapshotHash : Sha256
  parityState : TruthState
  readState : TruthState
  observedAt : DateTime
  expiresAt : DateTime

/-- `ServiceProfileV1`. -/
structure ServiceProfile where
  profileKind : ProfileKind
  profileState : TruthState
  selectable : Bool
  fallbackEligible : Bool
  memoryPrincipalId : Option String
  defaultTools : List String
  noInteractiveAuthority : profileKind = .service →
    selectable = false ∧ fallbackEligible = false ∧ defaultTools = []

/-- `AgentCapacity`. -/
structure AgentCapacity (u : Unicode) where
  principalId : String
  profile : ServiceProfile
  allowedTaskClasses : List String
  allowedRepoIds : List String
  wipLimit : ℕ
  activeWip : ℕ
  activeCardIds : List String
  leaseStateFresh : Bool
  capabilityState : TruthState
  observedAt : DateTime
  expiresAt : DateTime
  canonicalArrays : SortedUnique u allowedTaskClasses ∧ SortedUnique u allowedRepoIds ∧
    SortedUnique u activeCardIds

/-- `WorkCandidate`. -/
structure WorkCandidate (u : Unicode) where
  cardId : String
  kind : String
  state : String
  cardRevision : String
  priority : Priority
  classOfService : ClassOfService
  humanOrder : Option ℕ
  enrollmentState : EnrollmentState
  enrollmentPolicyVersion : Option String
  tags : List String
  dependencyIds : List String
  dependencyStates : Assoc String String
  dependencyRevisions : Assoc String String
  acceptanceCriteria : List String
  repoIds : List String
  sizeValues : List String
  executionReadyAttestation : Option String
  ownerPrincipalId : Option String
  leaseState : LeaseState
  leaseExpiresAt : Option DateTime
  humanGateState : HumanGateState
  approvalRef : Option String
  approvedCardRevision : Option String
  approvedCardHash : Option Sha256
  targetExecutorPrincipalId : String
  downstreamUnlockCount : ℕ
  readyAt : Option DateTime
  fixedDateAt : Option DateTime
  expediteApprovalRef : Option String
  expediteApprovalExpiresAt : Option DateTime
  canonicalArrays : SortedUnique u tags ∧ SortedUnique u dependencyIds ∧
    SortedUnique u repoIds ∧ SortedUnique u sizeValues

/-- `RankingKey`; the tuples are compared from the left. -/
abbrev RankingKey := ℕ ×ₗ ℕ ×ₗ ℤ ×ₗ String ×ₗ String ×ₗ ℕ ×ₗ String

/-- `EligibilityDecision`. -/
structure EligibilityDecision where
  cardId : String
  eligible : Bool
  reasonCodes : List String
  normalizedClass : ClassOfService
  rankingKey : Option RankingKey := none

/-- `RankedCandidate`. -/
structure RankedCandidate where
  cardId : String
  rank : ℕ
  repoId : String
  executorPrincipalId : String
  classOfService : ClassOfService
  rankingKey : RankingKey
  positiveRank : 0 < rank

/-- `CandidateExclusion`. -/
structure CandidateExclusion (u : Unicode) where
  cardId : String
  reasonCodes : List String
  canonicalReasons : SortedUnique u reasonCodes

def CandidateExclusion.create (u : Unicode) (cardId : String) (reasonCodes : List String) :
    Except ContractError (CandidateExclusion u) :=
  if h : SortedUnique u reasonCodes then pure ⟨cardId, reasonCodes, h⟩
  else throw (.value "reason_codes must be sorted and unique")

/-- `CanonicalWarning`. -/
structure CanonicalWarning where
  code : String
  cardId : Option String

/-- `CanonicalAbstention`. -/
structure CanonicalAbstention (u : Unicode) where
  reasonCodes : List String
  canonicalReasons : SortedUnique u reasonCodes

def CanonicalAbstention.create (u : Unicode) (reasonCodes : List String) :
    Except ContractError (CanonicalAbstention u) :=
  if h : SortedUnique u reasonCodes then pure ⟨reasonCodes, h⟩
  else throw (.value "reason_codes must be sorted and unique")

/-- `CanonicalSourceRef`. -/
structure CanonicalSourceRef where
  sourceId : String
  sourceRevision : String
  sourceHash : Sha256

inductive PlanStatus where
  | proposed | abstained
  deriving DecidableEq

def PlanStatus.text : PlanStatus → String
  | proposed => "proposed"
  | abstained => "abstained"

/-- The fields of a plan before its validator. -/
structure PlanFields (u : Unicode) where
  status : PlanStatus
  objectiveHash : Sha256
  snapshotId : String
  snapshotHash : Sha256
  snapshotExpiresAt : DateTime
  policyId : String
  policyVersion : String
  policyHash : Sha256
  recommendations : List RankedCandidate
  exclusions : List (CandidateExclusion u)
  warnings : List CanonicalWarning
  abstention : Option (CanonicalAbstention u)
  sourceRefs : List CanonicalSourceRef
  claims : List String := []
  mutations : List String := []

/-- What a warning is sorted by. -/
def CanonicalWarning.key (w : CanonicalWarning) : String ×ₗ String :=
  toLex (w.cardId.getD "", w.code)

/-- `advisory_content_has_no_actions`: the first objection to the fields. -/
def PlanFields.objection {u : Unicode} (p : PlanFields u) : Option String :=
  let keys := p.recommendations.map RankedCandidate.rankingKey
  let warningKeys := p.warnings.map CanonicalWarning.key
  if p.claims ≠ [] ∨ p.mutations ≠ [] then
    some "advisory plan content cannot contain claims or mutations"
  else if ¬ (p.status = .abstained ↔ p.abstention.isSome) then
    some "abstained status and abstention evidence must agree"
  else if keys ≠ keys.insertionSort (· ≤ ·) then
    some "recommendations must be in deterministic ranking order"
  else if p.recommendations.map RankedCandidate.rank ≠ List.range' 1 p.recommendations.length ∨
      ¬ (p.recommendations.map RankedCandidate.cardId).Nodup then
    some "recommendation ranks and card ids must be unique"
  else if ¬ SortedUnique u (p.exclusions.map CandidateExclusion.cardId) then
    some "exclusion card ids must be sorted and unique"
  else if warningKeys ≠ warningKeys.insertionSort (· ≤ ·) ∨ ¬ warningKeys.Nodup then
    some "warnings must be sorted and unique"
  else if ¬ SortedUnique u (p.sourceRefs.map CanonicalSourceRef.sourceId) then
    some "source refs must be sorted and unique"
  else none

/-- `PortfolioPlanContentV1`. -/
structure PortfolioPlanContent (u : Unicode) extends PlanFields u where
  valid : toPlanFields.objection = none

def PortfolioPlanContent.create {u : Unicode} (p : PlanFields u) :
    Except ContractError (PortfolioPlanContent u) :=
  match h : p.objection with
  | none => pure ⟨p, h⟩
  | some msg => throw (.value msg)

/-! ### The hash of a plan -/

/-- A field of a dumped model. -/
def dumped (name : String) (v : PyValue) : MapKey × PyValue := (.str name, v)

/-- A text, or `None`. -/
def dumpText : Option String → PyValue
  | none => .none
  | some s => .str s

def dumpTexts (l : List String) : PyValue := .list (l.map .str)

def dumpRankingKey (k : RankingKey) : PyValue :=
  let (human, k) := ofLex k
  let (cls, k) := ofLex k
  let (unlocks, k) := ofLex k
  let (fixedDate, k) := ofLex k
  let (ready, k) := ofLex k
  let (priority, cardId) := ofLex k
  .list [.int human, .int cls, .int unlocks, .str fixedDate, .str ready, .int priority, .str cardId]

def RankedCandidate.dump (r : RankedCandidate) : PyValue :=
  .map [dumped "card_id" (.str r.cardId), dumped "rank" (.int r.rank),
    dumped "repo_id" (.str r.repoId),
    dumped "executor_principal_id" (.str r.executorPrincipalId),
    dumped "class_of_service" (.str r.classOfService.text),
    dumped "ranking_key" (dumpRankingKey r.rankingKey)]

def CandidateExclusion.dump {u : Unicode} (e : CandidateExclusion u) : PyValue :=
  .map [dumped "card_id" (.str e.cardId), dumped "reason_codes" (dumpTexts e.reasonCodes)]

def CanonicalWarning.dump (w : CanonicalWarning) : PyValue :=
  .map [dumped "code" (.str w.code), dumped "card_id" (dumpText w.cardId)]

def CanonicalAbstention.dump {u : Unicode} (a : CanonicalAbstention u) : PyValue :=
  .map [dumped "reason_codes" (dumpTexts a.reasonCodes)]

def CanonicalSourceRef.dump (s : CanonicalSourceRef) : PyValue :=
  .map [dumped "source_id" (.str s.sourceId), dumped "source_revision" (.str s.sourceRevision),
    dumped "source_hash" (.str s.sourceHash.text)]

/-- `model_dump(mode="python")`. -/
def PortfolioPlanContent.dump {u : Unicode} (p : PortfolioPlanContent u) : PyValue :=
  .map [dumped "schema_version" (.str "portfolio-plan-content.v1"),
    dumped "producer_role" (.str "portfolio-steward"),
    dumped "authority" (.str "advisory"),
    dumped "mode" (.str "shadow"),
    dumped "status" (.str p.status.text),
    dumped "objective_hash" (.str p.objectiveHash.text),
    dumped "snapshot_id" (.str p.snapshotId),
    dumped "snapshot_hash" (.str p.snapshotHash.text),
    dumped "snapshot_expires_at" (.datetime p.snapshotExpiresAt),
    dumped "policy_id" (.str p.policyId),
    dumped "policy_version" (.str p.policyVersion),
    dumped "policy_hash" (.str p.policyHash.text),
    dumped "recommendations" (.list (p.recommendations.map RankedCandidate.dump)),
    dumped "exclusions" (.list (p.exclusions.map CandidateExclusion.dump)),
    dumped "warnings" (.list (p.warnings.map CanonicalWarning.dump)),
    dumped "abstention" ((p.abstention.map CanonicalAbstention.dump).getD .none),
    dumped "source_refs" (.list (p.sourceRefs.map CanonicalSourceRef.dump)),
    dumped "claims" (dumpTexts p.claims),
    dumped "mutations" (dumpTexts p.mutations)]

/-- `content_hash`. -/
def PortfolioPlanContent.contentHash (env : Env) (p : PortfolioPlanContent env.unicode) :
    Except ContractError String := canonicalSha256 env (.model p.dump)

/-! ### Reasons -/

/-- Why a candidate is excluded, or all of them are. -/
inductive ReasonCode where
  | parity (s : TruthState) | boardRead (s : TruthState)
  | snapshotTimestampInvalid | snapshotFromFuture | snapshotExpired | snapshotStale
  | duplicateCardId | noEligibleCandidates
  | notTask | stateNotEligible | notLeafTask | excludedLabel
  | enrollment (s : EnrollmentState) | enrollmentPolicyMismatch
  | executionReadyMissing | acceptanceMissing
  | repoCountInvalid | sizeCountInvalid | sizeInvalid
  | dependencyUnknown | dependencyIncomplete
  | humanGate (s : HumanGateState) | approvalVersionMismatch
  | alreadyOwned | lease (s : LeaseState) | leaseTimestampInvalid | leaseActive
  | readyTimeMissing | readyTimeInvalid | fixedDateMissing | fixedDateInvalid
  | capacityUnknown | executorMismatch | executorProfileNotService
  | executorProfile (s : TruthState) | executorMemoryUnknown | executorCapability (s : TruthState)
  | capacityTimestampInvalid | capacityStale | capacityLeaseUnknown | capacityConflict
  | wipExhausted | taskClassUnauthorized | repoUnauthorized
  deriving DecidableEq

def ReasonCode.text : ReasonCode → String
  | parity s => "parity_" ++ s.text
  | boardRead s => "board_read_" ++ s.text
  | snapshotTimestampInvalid => "snapshot_timestamp_invalid"
  | snapshotFromFuture => "snapshot_from_future"
  | snapshotExpired => "snapshot_expired"
  | snapshotStale => "snapshot_stale"
  | duplicateCardId => "duplicate_card_id"
  | noEligibleCandidates => "no_eligible_candidates"
  | notTask => "not_task"
  | stateNotEligible => "state_not_eligible"
  | notLeafTask => "not_leaf_task"
  | excludedLabel => "excluded_label"
  | enrollment s => "enrollment_" ++ s.text
  | enrollmentPolicyMismatch => "enrollment_policy_mismatch"
  | executionReadyMissing => "execution_ready_missing"
  | acceptanceMissing => "acceptance_missing"
  | repoCountInvalid => "repo_count_invalid"
  | sizeCountInvalid => "size_count_invalid"
  | sizeInvalid => "size_invalid"
  | dependencyUnknown => "dependency_unknown"
  | dependencyIncomplete => "dependency_incomplete"
  | humanGate s => "human_gate_" ++ s.text
  | approvalVersionMismatch => "approval_version_mismatch"
  | alreadyOwned => "already_owned"
  | lease s => "lease_" ++ s.text
  | leaseTimestampInvalid => "lease_timestamp_invalid"
  | leaseActive => "lease_active"
  | readyTimeMissing => "ready_time_missing"
  | readyTimeInvalid => "ready_time_invalid"
  | fixedDateMissing => "fixed_date_missing"
  | fixedDateInvalid => "fixed_date_invalid"
  | capacityUnknown => "capacity_unknown"
  | executorMismatch => "executor_mismatch"
  | executorProfileNotService => "executor_profile_not_service"
  | executorProfile s => "executor_profile_" ++ s.text
  | executorMemoryUnknown => "executor_memory_unknown"
  | executorCapability s => "executor_capability_" ++ s.text
  | capacityTimestampInvalid => "capacity_timestamp_invalid"
  | capacityStale => "capacity_stale"
  | capacityLeaseUnknown => "capacity_lease_unknown"
  | capacityConflict => "capacity_conflict"
  | wipExhausted => "wip_exhausted"
  | taskClassUnauthorized => "task_class_unauthorized"
  | repoUnauthorized => "repo_unauthorized"

/-- The set of the texts of reasons, in order. -/
def sortedTexts (reasons : List ReasonCode) : List String :=
  (reasons.map ReasonCode.text).dedup.insertionSort (· ≤ ·)

/-- A reason that stands under a condition. -/
def flag (c : Prop) [Decidable c] (reason : ReasonCode) : List ReasonCode :=
  if c then [reason] else []

/-- `_aware`. -/
def aware (t : Option DateTime) : Bool := t.any DateTime.isAware

/-- `not text`. -/
def blank (text : Option String) : Bool := text.getD "" = ""

/-- `_global_quality_reasons`. -/
def globalQualityReasons {u : Unicode} (quality : PlanDataQuality) (policy : PortfolioPolicy u)
    (asOf : DateTime) : List ReasonCode :=
  flag (quality.parityState ≠ .healthy) (.parity quality.parityState) ++
  flag (quality.readState ≠ .healthy) (.boardRead quality.readState) ++
  if !quality.observedAt.isAware || !quality.expiresAt.isAware then [.snapshotTimestampInvalid]
  else
    flag (asOf.gap quality.observedAt < 0) .snapshotFromFuture ++
    flag (quality.expiresAt.gap asOf ≤ 0) .snapshotExpired ++
    flag (policy.snapshotMaxAgeSeconds <
      DateTime.totalSeconds (asOf.gap quality.observedAt)) .snapshotStale

variable {u : Unicode}

/-- The two lists have the same members. -/
def sameSet (l m : List String) : Bool := l.all (· ∈ m) && m.all (· ∈ l)

/-- Reasons that the card alone gives. -/
def cardReasons (card : WorkCandidate u) (policy : PortfolioPolicy u) (asOf : DateTime) :
    List ReasonCode :=
  flag (card.kind ≠ "task") .notTask ++
  flag (card.state ∉ policy.eligibleStates) .stateNotEligible ++
  flag ("leaf-task" ∉ card.tags) .notLeafTask ++
  flag (card.tags.any (· ∈ policy.excludedLabels)) .excludedLabel ++
  flag (card.enrollmentState ≠ .enrolled) (.enrollment card.enrollmentState) ++
  flag (card.enrollmentPolicyVersion ≠ some policy.enrollmentPolicyVersion)
    .enrollmentPolicyMismatch ++
  flag (blank card.executionReadyAttestation) .executionReadyMissing ++
  flag (card.acceptanceCriteria = []) .acceptanceMissing ++
  flag (card.repoIds.length ≠ 1) .repoCountInvalid ++
  (match card.sizeValues with
    | [size] => flag (size ∉ ["S", "M", "L", "XL"]) .sizeInvalid
    | _ => [.sizeCountInvalid]) ++
  (if !sameSet card.dependencyIds (Assoc.keys card.dependencyStates) ||
      !sameSet card.dependencyIds (Assoc.keys card.dependencyRevisions) then
    [.dependencyUnknown]
  else
    flag (card.dependencyIds.any fun dep => Assoc.get? card.dependencyStates dep ≠ some "done")
      .dependencyIncomplete) ++
  flag (card.humanGateState ≠ .notRequired ∧ card.humanGateState ≠ .approved)
    (.humanGate card.humanGateState) ++
  flag (card.humanGateState = .approved ∧ (blank card.approvalRef ∨ card.approvedCardHash.isNone ∨
    card.approvedCardRevision ≠ some card.cardRevision)) .approvalVersionMismatch ++
  flag (!blank card.ownerPrincipalId) .alreadyOwned ++
  flag (card.leaseState ≠ .clear) (.lease card.leaseState) ++
  (match card.leaseExpiresAt with
    | none => []
    | some t => if !t.isAware then [.leaseTimestampInvalid]
      else flag (asOf.gap t < 0) .leaseActive) ++
  flag (!aware card.readyAt)
    (if card.readyAt = none then .readyTimeMissing else .readyTimeInvalid) ++
  flag (card.classOfService = .fixedDate ∧ !aware card.fixedDateAt)
    (if card.fixedDateAt = none then .fixedDateMissing else .fixedDateInvalid)

/-- Reasons that the capacity of the executor gives. -/
def capacityReasons (card : WorkCandidate u) (capacity : AgentCapacity u) (asOf : DateTime) :
    List ReasonCode :=
  flag (capacity.principalId ≠ card.targetExecutorPrincipalId) .executorMismatch ++
  flag (capacity.profile.profileKind ≠ .service) .executorProfileNotService ++
  flag (capacity.profile.profileState ≠ .healthy)
    (.executorProfile capacity.profile.profileState) ++
  flag (blank capacity.profile.memoryPrincipalId) .executorMemoryUnknown ++
  flag (capacity.capabilityState ≠ .healthy) (.executorCapability capacity.capabilityState) ++
  (if !capacity.observedAt.isAware || !capacity.expiresAt.isAware then
    [.capacityTimestampInvalid]
  else
    flag (capacity.expiresAt.gap asOf ≤ 0 ∨ asOf.gap capacity.observedAt < 0)
      .capacityStale) ++
  flag (!capacity.leaseStateFresh) .capacityLeaseUnknown ++
  flag (capacity.activeWip ≠ capacity.activeCardIds.length) .capacityConflict ++
  flag (capacity.wipLimit ≤ capacity.activeWip) .wipExhausted ++
  flag (card.kind ∉ capacity.allowedTaskClasses) .taskClassUnauthorized ++
  (match card.repoIds with
    | [repoId] => flag (repoId ∉ capacity.allowedRepoIds) .repoUnauthorized
    | _ => [])

/-- All reasons against a card. -/
def candidateReasons (card : WorkCandidate u) (capacity : Option (AgentCapacity u))
    (policy : PortfolioPolicy u) (asOf : DateTime) : List ReasonCode :=
  cardReasons card policy asOf ++
  match capacity with
  | none => [.capacityUnknown]
  | some capacity => capacityReasons card capacity asOf

/-- An expedited card without an approval that still stands. -/
def expediteLapsed (card : WorkCandidate u) (asOf : DateTime) : Bool :=
  card.classOfService = .expedite && (blank card.expediteApprovalRef ||
    match card.expediteApprovalExpiresAt with
    | none => true
    | some t => !t.isAware || t.gap asOf ≤ 0)

/-- The class under which a card is ranked. -/
def normalizedClass (card : WorkCandidate u) (asOf : DateTime) : ClassOfService :=
  if expediteLapsed card asOf then .standard else card.classOfService

/-! ### Ranking -/

variable {env : Env}

/-- `astimezone(timezone.utc)`; a time without an offset is one of the machine. -/
def toUtc (env : Env) (t : DateTime) : Except ContractError DateTime :=
  match t.offset.or (env.localOffset t.wall) with
  | none => throw (.value "year is out of range")
  | some offset =>
    match t.toUtc? offset with
    | none => throw (.overflow "date value out of range")
    | some utc => pure utc

/-- The fixed date in a key. -/
def fixedDateText (env : Env) : Option DateTime → Except ContractError String
  | none => pure "9999-12-31T23:59:59+00:00"
  | some t => do
    let utc ← toUtc env t
    pure utc.isoUtc

/-- The key of a card against which nothing speaks. -/
def rankingKey (card : WorkCandidate env.unicode) (readyAt : DateTime)
    (policy : PortfolioPolicy env.unicode) (asOf : DateTime) :
    Except ContractError RankingKey := do
  let fixedDate ← fixedDateText env card.fixedDateAt
  let ready ← toUtc env readyAt
  pure (toLex (card.humanOrder.getD (2 ^ 31 - 1),
    toLex (policy.classOrder.idxOf (normalizedClass card asOf),
    toLex (-(card.downstreamUnlockCount : ℤ), toLex (fixedDate, toLex (ready.isoUtc,
    toLex (policy.priorityOrder.idxOf card.priority, card.cardId)))))))

/-- The key of a card, if it gets one. -/
def decisionKey (card : WorkCandidate env.unicode) (reasons : List ReasonCode)
    (policy : PortfolioPolicy env.unicode) (asOf : DateTime) :
    Except ContractError (Option RankingKey) :=
  match card.readyAt with
  | none => pure none
  | some readyAt =>
    if reasons = [] then do
      let key ← rankingKey card readyAt policy asOf
      pure (some key)
    else pure none

/-- `_candidate_decision`. -/
def candidateDecision (card : WorkCandidate env.unicode)
    (capacity : Option (AgentCapacity env.unicode)) (policy : PortfolioPolicy env.unicode)
    (asOf : DateTime) : Except ContractError (EligibilityDecision × Option CanonicalWarning) := do
  let reasons := candidateReasons card capacity policy asOf
  let warning := if expediteLapsed card asOf then
    some ⟨"expedite_downgraded", some card.cardId⟩ else none
  let key ← decisionKey card reasons policy asOf
  pure (⟨card.cardId, reasons = [], sortedTexts reasons, normalizedClass card asOf, key⟩, warning)

/-! ### The plan -/

/-- The cards in the order of their ids; of those with one id the last one is kept. -/
def orderedCandidates (globalReasons : List ReasonCode) (candidates : List (WorkCandidate u)) :
    List (WorkCandidate u) :=
  let ordered := candidates.insertionSort fun c d => c.cardId ≤ d.cardId
  if .duplicateCardId ∈ globalReasons then
    (ordered.foldl (fun d card => Assoc.set d card.cardId card) []).map Prod.snd
  else ordered

/-- The decision on a card of the plan. -/
def decideCard (globalReasons : List ReasonCode)
    (capacities : Assoc String (AgentCapacity env.unicode))
    (policy : PortfolioPolicy env.unicode) (asOf : DateTime) (card : WorkCandidate env.unicode) :
    Except ContractError (EligibilityDecision × Option CanonicalWarning) :=
  if globalReasons ≠ [] then
    pure (⟨card.cardId, false, sortedTexts globalReasons, card.classOfService, none⟩, none)
  else
    candidateDecision card (Assoc.get? capacities card.targetExecutorPrincipalId) policy asOf

/-- The eligible decisions, `rank` many of them before, with their ranks. -/
def rankFrom (cardsById : Assoc String (WorkCandidate u)) :
    ℕ → List EligibilityDecision → Except ContractError (List RankedCandidate)
  | _, [] => pure []
  | rank, decision :: decisions =>
    match Assoc.get? cardsById decision.cardId, decision.rankingKey with
    | none, _ => throw (.lookup decision.cardId)
    | some card, key =>
      match card.repoIds, key with
      | [], _ => throw (.lookup "tuple index out of range")
      | _, none => throw (.value "ranking_key")
      | repoId :: _, some key => do
        let ranked ← rankFrom cardsById (rank + 1) decisions
        pure (⟨decision.cardId, rank + 1, repoId, card.targetExecutorPrincipalId,
          decision.normalizedClass, key, rank.succ_pos⟩ :: ranked)

/-- `objective_hash` as the contract takes it. -/
def checkSha256 (text : String) : Except ContractError Sha256 :=
  if h : isSha256 text = true then pure ⟨text, h⟩
  else throw (.value "String should match pattern '^[0-9a-f]{64}$'")

/-- The reasons against the whole plan. -/
def globalReasonsOf (candidates : List (WorkCandidate u)) (quality : PlanDataQuality)
    (policy : PortfolioPolicy u) (asOf : DateTime) : List ReasonCode :=
  globalQualityReasons quality policy asOf ++
    flag (¬ (candidates.map WorkCandidate.cardId).Nodup) .duplicateCardId

/-- The reasons for which the plan abstains. -/
def abstentionReasons (globalReasons : List ReasonCode) (ranked : List RankedCandidate) :
    List String :=
  if sortedTexts globalReasons = [] ∧ ranked = [] then [ReasonCode.noEligibleCandidates.text]
  else sortedTexts globalReasons

/-- `decision.ranking_key or ()`: no key comes before every key. -/
def EligibilityDecision.sortKey (d : EligibilityDecision) : WithBot RankingKey := d.rankingKey

/-- The abstention that goes with reasons. -/
def abstentionOf (u : Unicode) (reasons : List String) :
    Except ContractError (Option (CanonicalAbstention u)) :=
  if reasons = [] then pure none
  else do
    let abstention ← CanonicalAbstention.create u reasons
    pure (some abstention)

/-- The eligible decisions by their keys. -/
def eligibleDecisions (decisions : List EligibilityDecision) : List EligibilityDecision :=
  (decisions.filter EligibilityDecision.eligible).insertionSort fun d e => d.sortKey ≤ e.sortKey

/-- The fields of the plan. -/
def planFields (quality : PlanDataQuality) (policy : PortfolioPolicy u) (objectiveHash : Sha256)
    (status : PlanStatus) (sourceRefs : List CanonicalSourceRef)
    (ranked : List RankedCandidate)
    (exclusions : List (CandidateExclusion u)) (warnings : List CanonicalWarning)
    (abstention : Option (CanonicalAbstention u)) : PlanFields u where
  status := status
  objectiveHash := objectiveHash
  snapshotId := quality.snapshotId
  snapshotHash := quality.snapshotHash
  snapshotExpiresAt := quality.expiresAt
  policyId := policy.policyId
  policyVersion := policy.policyVersion
  policyHash := policy.policyHash
  recommendations := ranked
  exclusions := exclusions
  warnings := warnings.insertionSort fun v w => v.key ≤ w.key
  abstention := abstention
  sourceRefs := sourceRefs.insertionSort fun r s => r.sourceId ≤ s.sourceId

/-- `evaluate_portfolio`. -/
def evaluatePortfolio (env : Env) (candidates : List (WorkCandidate env.unicode))
    (capacities : Assoc String (AgentCapacity env.unicode)) (quality : PlanDataQuality)
    (policy : PortfolioPolicy env.unicode) (objectiveHash : String) (asOf : DateTime)
    (sourceRefs : List CanonicalSourceRef) :
    Except ContractError (PortfolioPlanContent env.unicode) :=
  if !asOf.isAware then throw (.value "as_of must be timezone-aware")
  else do
    let globalReasons := globalReasonsOf candidates quality policy asOf
    let decided ← (orderedCandidates globalReasons candidates).mapM
      (decideCard globalReasons capacities policy asOf)
    let decisions := decided.map Prod.fst
    let cardsById := candidates.foldl (fun d card => Assoc.set d card.cardId card) []
    let ranked ← rankFrom cardsById 0 (eligibleDecisions decisions)
    let exclusions ← (decisions.filter fun d => !d.eligible).mapM fun d =>
      CandidateExclusion.create env.unicode d.cardId d.reasonCodes
    let reasons := abstentionReasons globalReasons ranked
    let abstention ← abstentionOf env.unicode reasons
    let objectiveHash ← checkSha256 objectiveHash
    let status := if reasons = [] then PlanStatus.proposed else .abstained
    PortfolioPlanContent.create (planFields quality policy objectiveHash status sourceRefs ranked
      exclusions (decided.filterMap Prod.snd) abstention)

end SkCoord.Portfolio
