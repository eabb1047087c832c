import SkCoord.Coordination.Board
import SkCoord.Scheduler.JoinedTruth
import Mathlib.Algebra.BigOperators.Group.List.Basic

/-!
# Scheduler truth

Each card of a population gets its structural facts from the store, has the evidence of the joined
truth laid over them, and is judged by `primaryReason`: no reason means that it is ready.  The facts
are an instance of a frozen model, so the overlay is a statement on an object that refuses every
assignment, inside a handler that catches what it raises.
-/

namespace SkCoord

open Python

/-- The canonical primary reasons, in the order of their priority. -/
inductive PrimaryReason where
  | notTask
  | stateNotEligible
  | voided
  | archived
  | excludedLabel
  | dependencyIncomplete
  | dependencyUnknown
  | verdictBlocked
  | alreadyOwned
  | humanGateOpen
  | superseded
  | notReadyTime
  deriving DecidableEq, Repr

namespace PrimaryReason

/-- The text of a reason. -/
def value : PrimaryReason → String
  | notTask => "not_task"
  | stateNotEligible => "state_not_eligible"
  | voided => "voided"
  | archived => "archived"
  | excludedLabel => "excluded_label"
  | dependencyIncomplete => "dependency_incomplete"
  | dependencyUnknown => "dependency_unknown"
  | verdictBlocked => "verdict_blocked"
  | alreadyOwned => "already_owned"
  | humanGateOpen => "human_gate_open"
  | superseded => "superseded"
  | notReadyTime => "not_ready_time"

/-- `PRIMARY_REASONS`. -/
def all : List PrimaryReason :=
  [notTask, stateNotEligible, voided, archived, excludedLabel, dependencyIncomplete,
    dependencyUnknown, verdictBlocked, alreadyOwned, humanGateOpen, superseded, notReadyTime]

/-- `_LEGACY_REASON_ALIASES`. -/
def legacyAliases : Assoc String PrimaryReason :=
  [("state-not-eligible", stateNotEligible),
    ("status-open-but-wip-limit-reached", stateNotEligible),
    ("not-leaf-task", notTask),
    ("excluded-label", excludedLabel),
    ("do-not-claim", excludedLabel),
    ("not-claimable", excludedLabel),
    ("human-gate", humanGateOpen),
    ("superseded", superseded),
    ("verdict_blocked", verdictBlocked),
    ("blocked", verdictBlocked),
    ("blocked-fail-closed", verdictBlocked),
    ("blocked-accurate-outcome-not-runtime-approval", verdictBlocked),
    ("owned", alreadyOwned),
    ("claimed", alreadyOwned),
    ("no-ready-at", notReadyTime),
    ("ready-at-missing", notReadyTime),
    ("ready-at-in-future", notReadyTime),
    ("dep-incomplete", dependencyIncomplete),
    ("dep-unknown", dependencyUnknown)]

/-- `_canonicalize_reason`, of a spelling that is known. -/
def canonicalize (raw : String) : Option PrimaryReason :=
  let key := String.ofList (lower (strip raw))
  (all.find? fun r => r.value == key).or (Assoc.get? legacyAliases key)

end PrimaryReason

/-! ### Facts -/

/-- Read-only structural facts for one evaluated card. -/
structure SchedulerCardFacts where
  cardId : String
  kind : String
  state : String
  owner : Option String
  archived : Bool
  voided : Bool
  labels : List String
  dependencies : List String
  dependencyStates : Assoc String String
  verdict : Option String
  verdicts : List String
  humanGate : Option String
  supersededBy : Option String
  readyAt : Option String
  liveFacts : Dict

/-- The configuration of a model, as far as it concerns assignments. -/
structure ModelConfig where
  frozen : Bool

/-- `ContractModel.model_config`. -/
def contractModel : ModelConfig := { frozen := true }

/-- `facts.field = value`. -/
def ModelConfig.setField {σ : Type} (config : ModelConfig) (update : σ → σ) : Effect σ Unit :=
  if config.frozen then .raise (.value "Instance is frozen") else .modify update

/-- What the evaluation reads of its environment. -/
structure SchedulerEnv where
  env : Env
  Instant : Type
  /-- `datetime.now(timezone.utc)`. -/
  now : Instant
  isoformat : Instant → String
  /-- `datetime.fromisoformat`, in UTC where the text names no zone. -/
  fromIsoformat : String → Except PyError Instant
  /-- `x > y`. -/
  later : Instant → Instant → Except PyError Bool

/-- The arguments of `evaluate_scheduler_truth`. -/
structure SchedulerQuery (S : SchedulerEnv) where
  cards : Option (List String) := none
  liveFacts : Assoc String Dict := []
  policyLabels : List String := []
  asOf : Option S.Instant := none

/-- `canonical_arrays`. -/
def canonicalArrays (facts : SchedulerCardFacts) : Except PyError SchedulerCardFacts :=
  let sorted (l : List String) := l.insertionSort fun x y => x ≤ y
  if sorted facts.labels ≠ facts.labels then throw (.value "labels must be sorted")
  else if sorted facts.dependencies ≠ facts.dependencies then
    throw (.value "dependencies must be sorted")
  else if sorted facts.verdicts ≠ facts.verdicts then throw (.value "verdicts must be sorted")
  else pure facts

/-- `_dependencies`. -/
def sortedDependencies (env : Env) (st : Store) (cardId : String) :
    Except PyError (List String) := do
  match ← st.fold env cardId with
  | none => pure []
  | some card => pure (card.dependencies.insertionSort fun x y => x ≤ y)

/-- `_dependency_states_for`. -/
def dependencyStatesFor (env : Env) (st : Store) (cardId : String) :
    Except PyError (Assoc String String) := do
  let dependencies ← sortedDependencies env st cardId
  dependencies.foldlM (fun out dep => do
    let card ← st.fold env dep
    pure (Assoc.set out dep ((card.map fun c => c.status.value).getD "unknown"))) []

/-- The facts of a card before any evidence. -/
def structuralFacts (env : Env) (st : Store) (cardId : String) (card : Card) (liveFacts : Dict) :
    Except PyError SchedulerCardFacts := do
  let owner ← optionalText card.owner
  let events ← st.readEvents env cardId
  let labels ← sortByKey (fun label => .ofValues [label]) card.labels
  let labels ← labels.mapM textField
  let dependencies ← sortedDependencies env st cardId
  let dependencyStates ← dependencyStatesFor env st cardId
  let readyAt ← optionalText ((Dict.get card.metaData "ready_at").orElse .null)
  canonicalArrays
    { cardId := card.id
      kind := card.kind.value
      state := card.status.value
      owner
      archived := card.archived
      voided := events.any fun e => (Dict.get e "action").pyEq (.str "void")
      labels
      dependencies
      dependencyStates
      verdict := none
      verdicts := []
      humanGate := none
      supersededBy := none
      readyAt
      liveFacts }

/-- The evidence of the joined truth laid over the facts. -/
def overlayEvidence (env : Env) (home : Home) (cardId : String) :
    Effect SchedulerCardFacts Unit := do
  let truth ← Effect.lift (readJoinedTruth env home cardId)
  let verdicts := (truth.verdicts.map (·.value)).insertionSort fun x y => x ≤ y
  contractModel.setField fun facts => { facts with verdicts }
  if truth.verdicts ≠ [] then
    contractModel.setField fun facts => { facts with verdict := facts.verdicts.getLast? }
  let gate := truth.gateStatus.filter fun a => a.key == "gate_status" || a.key == "gate"
  if gate ≠ [] then
    contractModel.setField fun facts => { facts with humanGate := gate.getLast?.map (·.value) }
  if truth.supersession ≠ [] then
    contractModel.setField fun facts =>
      { facts with supersededBy := truth.supersession.getLast?.map (·.value) }

/-! ### The reason -/

/-- `_latest_verdict` of the verdict links of the live facts. -/
def latestVerdict (links : Json) : Except PyError (Option String) :=
  let keys := ["verdict", "verdict_", "_verdict", "_verdict_"]
  let values := ["PASS", "PASS_FOR_REVIEW", "BLOCKED", "FAIL"]
  match links.orElse (.obj []) with
  | .obj d =>
    let items := d.insertionSort fun p q => p.1 ≤ q.1
    pure ((items.filter fun p => keys.contains (String.ofList (lower p.1))).findSome? fun p =>
      (textOf? p.2).filter values.contains)
  | v => throw (.attr ("'" ++ v.typeName ++ "' object has no attribute 'items'"))

/-- A label that takes the card out of the selection. -/
def isExcluding (label : String) : Bool :=
  (PrimaryReason.canonicalize label).any fun r =>
    r == .excludedLabel || r == .humanGateOpen || r == .superseded

/-- A gate value that a human has not closed. -/
def isOpenGate (value : String) : Bool := value != "not-required" && value != "approved"

/-- The card is not ready before its `ready_at`, nor at a time that does not parse. -/
def isBeforeReady (S : SchedulerEnv) (readyAt : Option String) (asOf : Option S.Instant) :
    Except PyError Bool :=
  match readyAt.filter (· ≠ ""), asOf with
  | some text, some asOf =>
    match (S.fromIsoformat text >>= fun ready => S.later ready asOf) with
    | .ok b => pure b
    | .error (.value _) => pure true
    | .error e => throw e
  | _, _ => pure false

/-- `_primary_reason`. -/
def primaryReason (S : SchedulerEnv) (facts : SchedulerCardFacts) (asOf : Option S.Instant) :
    Except PyError (Option PrimaryReason) := do
  let stateOf (dep : String) := Assoc.get? facts.dependencyStates dep
  if facts.kind ≠ "task" ∧ facts.kind ≠ "epic" then return some .notTask
  if facts.state ≠ "backlog" ∧ facts.state ≠ "ready" then return some .stateNotEligible
  if facts.voided then return some .voided
  if facts.archived then return some .archived
  if facts.labels.any isExcluding then return some .excludedLabel
  if facts.dependencies.any fun dep => stateOf dep == some "unknown" then
    return some .dependencyUnknown
  if facts.dependencies.any fun dep => stateOf dep != some "done" then
    return some .dependencyIncomplete
  if facts.verdict = some "BLOCKED" then return some .verdictBlocked
  if (← latestVerdict (Dict.get facts.liveFacts "verdict_links")) = some "BLOCKED" then
    return some .verdictBlocked
  if facts.owner.any (· ≠ "") then return some .alreadyOwned
  if facts.humanGate.any isOpenGate then return some .humanGateOpen
  if facts.supersededBy.any (· ≠ "") then return some .superseded
  if ← isBeforeReady S facts.readyAt asOf then return some .notReadyTime
  return none

/-! ### The evaluation -/

/-- The facts of one card with its reason; a card that is not in the store is passed over. -/
def evaluateCard (S : SchedulerEnv) (home : Home) (q : SchedulerQuery S) (cardId : String) :
    Except PyError (Option (SchedulerCardFacts × Option PrimaryReason)) := do
  let st := home.store S.env
  match ← st.fold S.env cardId with
  | none => pure none
  | some card =>
    let facts ← structuralFacts S.env st cardId card ((Assoc.get? q.liveFacts cardId).getD [])
    let r := (Effect.tryExcept (overlayEvidence S.env home cardId) fun _ => pure ()).run facts
    let _ ← r.1
    let reason ← primaryReason S r.2 q.asOf
    pure (some (r.2, reason))

/-- The cards of the population. -/
def populationIds (S : SchedulerEnv) (home : Home) (q : SchedulerQuery S) :
    Except PyError (List String) :=
  match q.cards with
  | some cards => pure cards
  | none => do
    let views ← taskViewsFromStore S.env (home.store S.env) true
    pure (views.map (·.taskId))

/-- How often a reason was given. -/
def countOf (evaluated : List (SchedulerCardFacts × Option PrimaryReason)) (r : PrimaryReason) : ℕ :=
  evaluated.countP fun p => p.2 == some r

/-- `reason_counts`: the reasons that were given, in the order of their texts. -/
def reasonCounts (evaluated : List (SchedulerCardFacts × Option PrimaryReason)) :
    Assoc PrimaryReason ℕ :=
  let given := PrimaryReason.all.filter fun r => countOf evaluated r != 0
  (given.insertionSort fun x y => x.value ≤ y.value).map fun r => (r, countOf evaluated r)

/-- The scheduler truth.  The population is what is ready and what each reason holds back. -/
structure SchedulerTruthV1 where
  generatedAt : String
  population : ℕ
  readyCount : ℕ
  reasonCounts : Assoc PrimaryReason ℕ
  cards : List SchedulerCardFacts
  population_eq : population = readyCount + (reasonCounts.map Prod.snd).sum

theorem length_eq_countP (evaluated : List (SchedulerCardFacts × Option PrimaryReason)) :
    evaluated.length = evaluated.countP (fun p => p.2.isNone) +
      (PrimaryReason.all.map (countOf evaluated)).sum := by
  induction evaluated with
  | nil => simp [countOf, PrimaryReason.all]
  | cons p evaluated ih =>
    have hcount : ∀ r, countOf (p :: evaluated) r =
        countOf evaluated r + if p.2 == some r then 1 else 0 := fun r => List.countP_cons
    simp only [funext hcount]
    rw [List.length_cons, List.countP_cons, ih, List.sum_map_add]
    -- a card counts as ready or under one reason
    have hone : (if p.2.isNone then 1 else 0) +
        (PrimaryReason.all.map fun r => if p.2 == some r then 1 else 0).sum = 1 := by
      rcases p.2 with - | r
      · rfl
      · cases r <;> rfl
    omega

theorem sum_reasonCounts (evaluated : List (SchedulerCardFacts × Option PrimaryReason)) :
    ((reasonCounts evaluated).map Prod.snd).sum = (PrimaryReason.all.map (countOf evaluated)).sum := by
  let given := PrimaryReason.all.filter fun r => countOf evaluated r != 0
  have hperm : (given.insertionSort fun x y => x.value ≤ y.value).Perm given :=
    List.perm_insertionSort _ _
  show (((given.insertionSort fun x y => x.value ≤ y.value).map fun r =>
    (r, countOf evaluated r)).map Prod.snd).sum = _
  rw [List.map_map]
  show ((given.insertionSort fun x y => x.value ≤ y.value).map (countOf evaluated)).sum = _
  rw [(hperm.map _).sum_eq]
  -- a reason that is not given counts nothing
  show ((PrimaryReason.all.filter fun r => countOf evaluated r != 0).map _).sum = _
  induction PrimaryReason.all with
  | nil => rfl
  | cons r l ih =>
    rw [List.filter_cons, List.map_cons, List.sum_cons, ← ih]
    by_cases h : countOf evaluated r = 0
    · simp [h]
    · simp [h]

/-- Each evaluated card is ready or held back by one reason. -/
theorem length_eq_ready_add (evaluated : List (SchedulerCardFacts × Option PrimaryReason)) :
    evaluated.length = evaluated.countP (fun p => p.2.isNone) +
      ((reasonCounts evaluated).map Prod.snd).sum := by
  rw [length_eq_countP, sum_reasonCounts]

/-- `evaluate_scheduler_truth`. -/
def evaluateSchedulerTruth (S : SchedulerEnv) (home : Home) (q : SchedulerQuery S) :
    Except PyError SchedulerTruthV1 := do
  let ids ← populationIds S home q
  let evaluated ← ids.mapM (evaluateCard S home q)
  let evaluated := evaluated.reduceOption
  pure
    { generatedAt := S.isoformat (q.asOf.getD S.now)
      population := evaluated.length
      readyCount := evaluated.countP fun p => p.2.isNone
      reasonCounts := reasonCounts evaluated
      cards := evaluated.map Prod.fst
      population_eq := length_eq_ready_add evaluated }

end SkCoord
