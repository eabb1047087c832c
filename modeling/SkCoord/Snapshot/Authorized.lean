import SkCoord.CardStore.Store
import SkCoord.Python.JsonFile

/-!
# `AuthorizedCardSnapshotReader`

A reader that an owner policy limits to a set of cards, a field mask and a set of semantic classes.
`read` checks the decision, folds the cards that it names and projects them: records, dependency
edges with what lies on their paths, milestones, counts, errors and a watermark.  A result that is
too large gives way to the constant one that `noValue` returns.
-/

namespace SkCoord.Snapshot

open Python

/-! ### Constants -/

def maxVisibleEdges : ℕ := 10000
def maxOutputRecords : ℕ := 200
def maxOutputFindings : ℕ := 200
def maxOutputMilestones : ℕ := 200
def maxPathDepth : ℕ := 32
def maxPathRefs : ℕ := 8
def maxProjectItemBytes : ℕ := 384 * 1024
def maxIdLength : ℕ := 128
def maxOwnerLength : ℕ := 128
def maxDependencies : ℕ := 128
def maxTimestampLength : ℕ := 64

/-- `STALE_AFTER`, in microseconds. -/
def staleAfter : Int := 30 * 86400 * 1000000

def staleRule : String := "dependency-unresolved-30d@1.0.0"

def semanticLabels : List String :=
  ["benefit", "decision", "human-gate", "investment", "milestone", "objective", "project", "risk"]

def priorities : List String := ["low", "medium", "high", "critical"]

/-! ### Requests and decisions -/

/-- A `datetime`: its microseconds since the epoch, in UTC where it has no zone, and its
`utcoffset`. -/
structure Datetime where
  utc : Int
  offset : Option Int

structure AuthorizedCardIdentity where
  subjectPrincipalId : String
  actingPrincipalId : String
  nodeId : String
  capauthIdentityRef : String
  deriving DecidableEq

structure AuthorizedCardScope where
  role : String
  scope : String := "estate"
  service : String := "all"
  window : String := "latest"
  baseline : String := "none"
  deriving DecidableEq

structure AuthorizedCardSnapshotRequest where
  identity : AuthorizedCardIdentity
  scope : AuthorizedCardScope
  purpose : String := "project-management-reporting"
  audience : String := "skdashboard"
  capability : String := "skdashboard.read"
  target : String := "/api/v1/overview"
  resourceType : String := "skcoord.card_store.project_snapshot"
  resourceId : String
  capauthDecisionId : String
  ownerPolicyRevision : String

structure AuthorizedCardSetDecision where
  capauthDecisionId : String
  ownerPolicyRevision : String
  state : String
  code : String
  identity : AuthorizedCardIdentity
  purpose : String := "project-management-reporting"
  audience : String := "skdashboard"
  capability : String := "skdashboard.read"
  target : String := "/api/v1/overview"
  resourceType : String := "skcoord.card_store.project_snapshot"
  resourceId : String
  scope : AuthorizedCardScope
  issuedAt : Datetime
  expiresAt : Datetime
  visibleCardIds : List String := []
  visibleAbsentIds : List String := []
  visibleSetSha256 : String
  fieldMask : List String := []
  semanticClasses : List String := []

/-- What a reader reads of its environment. -/
structure SnapshotEnv where
  env : Env
  floats : FloatText
  /-- `hashlib.sha256(b).hexdigest()`. -/
  sha256 : Bytes → String
  /-- `datetime.fromisoformat(value.replace("Z", "+00:00"))`. -/
  fromisoformat : String → Option Datetime
  /-- `isoformat().replace("+00:00", "Z")` of a time in UTC. -/
  isoformat : Int → String

/-- A dictionary from a list of pairs. -/
def dictOf {ν : Type} (l : List (String × ν)) : Assoc String ν :=
  l.foldl (fun d p => Assoc.set d p.1 p.2) []

/-- `tuple(sorted(set(l)))`. -/
def sortedSet (l : List String) : List String := l.dedup.insertionSort fun x y => x ≤ y

/-- `_identifier(value) is not None`. -/
def isIdentifier (value : String) : Bool :=
  value ≠ "" && value.toList.length ≤ maxIdLength && value.toList.all (fun c => c.toNat < 128) &&
    value ≠ "." && value ≠ ".." && !contains value ".." &&
    !value.toList.any fun c => c = '/' || c = '\\' || c.toNat < 32 || c.toNat = 127

section

variable (E : SnapshotEnv)

/-- `_canonical_bytes`. -/
def canonicalBytes (v : Json) : Bytes := encodeUtf8 (v.canonical E.floats)

/-- `_watermark`. -/
def watermark (v : Json) : Json :=
  .obj [("source", .str "skcoord.authorized_card_snapshot"),
    ("value", .str ("sha256:" ++ E.sha256 (canonicalBytes E v)))]

/-- `visible_set_sha256`. -/
def visibleSetSha256 (values : List String) : String :=
  "sha256:" ++ E.sha256 (canonicalBytes E (.arr (values.map .str)))

/-- `_scope`. -/
def scopeDict (s : AuthorizedCardScope) : Json :=
  .obj [("role", .str s.role), ("scope", .str s.scope), ("service", .str s.service),
    ("window", .str s.window), ("baseline", .str s.baseline)]

/-- `authorized_card_resource_id`. -/
def authorizedCardResourceId (d : AuthorizedCardSetDecision) : String :=
  "authorized-card-set:sha256:" ++ E.sha256 (canonicalBytes E (.obj [
    ("visible_set_sha256", .str (visibleSetSha256 E d.visibleCardIds)),
    ("field_mask", .arr (d.fieldMask.map .str)),
    ("semantic_classes", .arr (d.semanticClasses.map .str)),
    ("visible_absent_ids", .arr (d.visibleAbsentIds.map .str)),
    ("scope", scopeDict d.scope)]))

/-- `_no_value`. -/
def noValue (scope : AuthorizedCardScope) : Json :=
  .obj [("projection_type", .str "project_records"), ("schema_version", .str "1.0.0"),
    ("source_owner", .str "skcoord"), ("source_model", .str "AuthorizedCardSnapshotReader"),
    ("classification", .str "internal"), ("scope", scopeDict scope),
    ("visibility", .obj [("state", .str "policy_filtered"), ("authorization", .str "unknown")]),
    ("truth_state", .str "unknown"), ("snapshot_consistency", .str "policy_unevaluated"),
    ("observed_at", .null), ("projected_at", .null),
    ("watermark", .obj [("source", .str "skcoord.authorized_card_snapshot"), ("value", .null)]),
    ("population_counts", .null), ("classification_complete", .bool false), ("truncated", .null),
    ("records", .arr []), ("dependency_edges", .arr []), ("milestones", .arr []),
    ("errors", .arr [.obj [("code", .str "AUTHORIZED_SNAPSHOT_UNAVAILABLE"),
      ("message", .str "Authorized CardStore snapshot is unavailable"), ("retryable", .bool true)]])]

/-! ### Fields of a card -/

/-- `_parse_timestamp`, in microseconds since the epoch. -/
def parseTimestamp (v : Json) : Option Int :=
  match v with
  | .str value =>
    if value = "" ∨ maxTimestampLength < value.toList.length ∨
        ¬ value.toList.all (fun c => c.toNat < 128) = true then none
    else (E.fromisoformat value).bind fun t => if t.offset.isSome then some t.utc else none
  | _ => none

/-- `_timestamp_text`. -/
def timestampText (v : Json) : Json := jsonOfOption ((parseTimestamp E v).map E.isoformat)

/-- `_owner`. -/
def ownerText (v : Json) : Option String :=
  if v.isNone then none
  else
    let text := E.env.format v
    if 0 < text.toList.length ∧ text.toList.length ≤ maxOwnerLength ∧
        (encodeUtf8 text.toList).length ≤ 256 then some text
    else none

/-- A label that is semantic and allowed. -/
def approvedLabel (allowed : List String) : Json → Option String
  | .str label => if semanticLabels.contains label && allowed.contains label then some label else none
  | _ => none

/-- `_classes`. -/
def classes (c : Card) (allowed : List String) : List String :=
  sortedSet (c.labels.filterMap (approvedLabel allowed))

/-- A list of conflicts that is not empty. -/
def hasConflicts (c : Card) : Bool :=
  ["claim_conflicts", "release_conflicts"].any fun key =>
    match Dict.get c.metaData key with
    | .arr l => !l.isEmpty
    | _ => false

/-- `_conflict`. -/
def conflict (c : Card) (fieldMask : List String) : Bool :=
  fieldMask.contains "claim_conflict" && hasConflicts c

/-- `_safe_visible_dependencies`. -/
def safeVisibleDependencies (c : Card) (visibleIds absentIds : List String) :
    Option (List String × List String) :=
  let visible := sortedSet (c.dependencies.filter visibleIds.contains)
  let absent := sortedSet (c.dependencies.filter absentIds.contains)
  if maxDependencies < visible.length + absent.length then none else some (visible, absent)

/-- `_record`: the record and whether its fields are valid. -/
def record (c : Card) (dependencies fieldMask semanticClasses : List String) :
    Except PyError (Json × Bool) := do
  c.priority.requireHashable
  let priority := match c.priority with
    | .str p => if priorities.contains p then some p else none
    | _ => none
  let owner := if fieldMask.contains "owner_ref" then ownerText E c.owner else none
  let createdAt := timestampText E (.str c.createdAt)
  let updatedAt := timestampText E c.updatedAt
  let valid := priority.isSome &&
    (!fieldMask.contains "owner_ref" || c.owner.isNone || owner.isSome) &&
    (c.createdAt = "" || !createdAt.isNone) && (!c.updatedAt.truthy || !updatedAt.isNone)
  pure (.obj [("record_id", .str c.id), ("source_ref", .str ("skcoord.card_store:" ++ c.id)),
    ("kind", .str c.kind.value), ("classifications", .arr ((classes c semanticClasses).map .str)),
    ("status", .str c.status.value), ("priority", jsonOfOption priority),
    ("owner", jsonOfOption owner), ("created_at", createdAt), ("updated_at", updatedAt),
    ("archived", .bool c.archived), ("visible_dependency_count", .int dependencies.length),
    ("folded_conflict_evidence", .bool (conflict c fieldMask))], valid)

/-- `_activity`. -/
def activity (c : Card) : Option Int :=
  (parseTimestamp E c.updatedAt).or (parseTimestamp E (.str c.createdAt))

/-! ### Paths -/

/-- The loop of `_path_nodes`.  Every node is expanded once, so that as many turns as there are
edges and one more empty the stack. -/
def pathLoop (graph : Assoc String (List String)) : ℕ → List (String × ℕ) → List String → Bool →
    List String × Bool
  | _, [], ordered, limited => (ordered, limited)
  | 0, _ :: _, ordered, _ => (ordered, true)
  | n + 1, (node, depth) :: stack, ordered, limited =>
    if maxPathDepth ≤ ordered.length then (ordered, true)
    else if ordered.contains node then pathLoop graph n stack ordered limited
    else
      let children := (Assoc.get? graph node).getD []
      if maxPathDepth - 1 ≤ depth then
        pathLoop graph n stack (ordered ++ [node]) (limited || !children.isEmpty)
      else
        pathLoop graph n ((children.map fun child => (child, depth + 1)) ++ stack)
          (ordered ++ [node]) limited

/-- `_path_nodes`. -/
def pathNodes (start : String) (graph : Assoc String (List String)) : List String × Bool :=
  pathLoop graph ((graph.map fun p => p.2.length).sum + 1) [(start, 0)] [] false

/-! ### Findings -/

/-- A classified edge. -/
structure Finding where
  fromRecordId : String
  toRecordId : String
  resolution : String
  conditions : List String
  sourceOwner : Option String
  targetOwner : Option String
  targetStatus : Option String
  staleRule : Option String
  staleRecordRefs : List String
  freshnessUnknownRecordRefs : List String
  pathRecordIds : List String
  evidenceRefs : List String

/-- The dictionary of a finding. -/
def Finding.dict (f : Finding) : Json :=
  let texts := fun l : List String => Json.arr (l.map .str)
  .obj [("from_record_id", .str f.fromRecordId), ("to_record_id", .str f.toRecordId),
    ("resolution", .str f.resolution), ("conditions", texts f.conditions),
    ("source_owner", jsonOfOption f.sourceOwner), ("target_owner", jsonOfOption f.targetOwner),
    ("target_status", jsonOfOption f.targetStatus), ("stale_rule", jsonOfOption f.staleRule),
    ("stale_record_refs", texts f.staleRecordRefs),
    ("freshness_unknown_record_refs", texts f.freshnessUnknownRecordRefs),
    ("path_record_ids", texts f.pathRecordIds), ("evidence_refs", texts f.evidenceRefs)]

/-- The owner of a card under the mask. -/
def maskedOwner (fieldMask : List String) (c : Card) : Option String :=
  if fieldMask.contains "owner_ref" then ownerText E c.owner else none

/-- A card that is not done and whose last activity is long ago. -/
def isStale (fieldMask : List String) (now : Int) (c : Card) : Bool :=
  c.status ≠ .done && fieldMask.contains "stale_activity" &&
    (activity E c).any fun a => a ≤ now && staleAfter < now - a

/-- A card that is not done and whose last activity is not known. -/
def isFreshnessUnknown (fieldMask : List String) (now : Int) (c : Card) : Bool :=
  c.status ≠ .done && fieldMask.contains "stale_activity" &&
    (activity E c).all fun a => now < a

/-- `_edge`, of the cards of the edge and of the path behind it. -/
def edgeOf (decision : AuthorizedCardSetDecision) (now : Int) (graph : Assoc String (List String))
    (source target : Card) (pathCards : List Card) : Finding :=
  let mask := decision.fieldMask
  let (pathIds, limited) := pathNodes target.id graph
  let cycle := pathIds.contains source.id
  let stale := pathCards.filter (isStale E mask now)
  let freshnessUnknown := pathCards.filter (isFreshnessUnknown E mask now)
  let claimConflict := (source :: pathCards).any fun c => conflict c mask
  let humanGated := (source :: pathCards).any fun c => mask.contains "human_gate" &&
    c.status ≠ .done && (classes c decision.semanticClasses).contains "human-gate"
  let milestonePath := mask.contains "milestone" &&
    (source :: pathCards).any fun c => (classes c decision.semanticClasses).contains "milestone"
  { fromRecordId := source.id
    toRecordId := target.id
    resolution := if target.status = .done then "satisfied" else "open"
    conditions := ([("stale", !stale.isEmpty), ("freshness_unknown", !freshnessUnknown.isEmpty),
      ("conflicted", cycle || claimConflict), ("dependency_cycle", cycle),
      ("record_claim_conflict", claimConflict), ("human_gated", humanGated),
      ("milestone_path", milestonePath), ("archived_target", target.archived),
      ("path_classification_partial", limited)].filter Prod.snd).map Prod.fst
    sourceOwner := maskedOwner E mask source
    targetOwner := maskedOwner E mask target
    targetStatus := some target.status.value
    staleRule := some staleRule
    staleRecordRefs := (stale.take maxPathRefs).map Card.id
    freshnessUnknownRecordRefs := (freshnessUnknown.take maxPathRefs).map Card.id
    pathRecordIds := pathIds.take maxPathRefs
    evidenceRefs := source.id :: pathIds.take (maxPathRefs - 1) }

/-- `_orphan`. -/
def orphanOf (decision : AuthorizedCardSetDecision) (source : Card) (targetId : String) : Finding where
  fromRecordId := source.id
  toRecordId := targetId
  resolution := "orphaned"
  conditions := ["owner_attested_absent"]
  sourceOwner := maskedOwner E decision.fieldMask source
  targetOwner := none
  targetStatus := none
  staleRule := none
  staleRecordRefs := []
  freshnessUnknownRecordRefs := []
  pathRecordIds := []
  evidenceRefs := [source.id, targetId]

/-- `by_id[card_id]`. -/
def cardAt (byId : Assoc String Card) (cardId : String) : Except PyError Card :=
  match Assoc.get? byId cardId with
  | some c => pure c
  | none => throw (.key cardId)

/-- One edge classified. -/
def classify (decision : AuthorizedCardSetDecision) (now : Int) (graph : Assoc String (List String))
    (byId : Assoc String Card) (edge : String × String × String) : Except PyError Finding := do
  let (sourceId, targetId, edgeType) := edge
  let source ← cardAt byId sourceId
  if edgeType = "visible" then do
    let target ← cardAt byId targetId
    let pathCards ← (pathNodes targetId graph).1.mapM (cardAt byId)
    pure (edgeOf E decision now graph source target pathCards)
  else pure (orphanOf E decision source targetId)

/-- `_finding_key`. -/
def findingKey (f : Finding) : Int ×ₗ String ×ₗ String :=
  let order := ["dependency_cycle", "human_gated", "record_claim_conflict", "stale",
    "freshness_unknown", "archived_target", "path_classification_partial"]
  let rank : Int := if f.resolution = "orphaned" then -1
    else match order.findIdx? fun condition => f.conditions.contains condition with
      | some i => i
      | none => 9
  toLex (rank, toLex (f.fromRecordId, f.toRecordId))

/-- The conditions that a milestone counts. -/
def milestoneConditions : List String :=
  ["stale", "freshness_unknown", "conflicted", "dependency_cycle", "record_claim_conflict",
    "human_gated", "owner_attested_absent", "archived_target", "path_classification_partial"]

/-- `_milestone`. -/
def milestone (graph : Assoc String (List String)) (classified : List Finding)
    (recordsById : Assoc String Json) (isPartial : Bool) (cardId : String) : Json :=
  let (nodes, limited) := pathNodes cardId graph
  let paths := classified.filter fun f => nodes.contains f.fromRecordId
  let fields := match Assoc.get? recordsById cardId with
    | some (.obj fields) => fields
    | _ => []
  .obj (fields ++ [("dependency_path_summary", .obj [("findings", .int paths.length),
    ("conditions", .obj (milestoneConditions.map fun condition =>
      (condition, .int (paths.filter fun f => f.conditions.contains condition).length))),
    ("path_record_ids", .arr ((nodes.take maxPathRefs).map .str)),
    ("partial", .bool (isPartial || limited))])])

/-! ### The projection -/

/-- The cards under their own identifiers. -/
def presentCards (decision : AuthorizedCardSetDecision) (folded : List (Option Card)) : List Card :=
  (decision.visibleCardIds.zip folded).filterMap fun p => p.2.filter fun c => c.id = p.1

/-- How many cards are under another identifier than their own. -/
def mismatchCount (decision : AuthorizedCardSetDecision) (folded : List (Option Card)) : ℕ :=
  ((decision.visibleCardIds.zip folded).filter fun p => p.2.any fun c => c.id ≠ p.1).length

/-- `dependency_map`. -/
def dependencyMap (decision : AuthorizedCardSetDecision) (cards : List Card) :
    Assoc String (Option (List String × List String)) :=
  dictOf (cards.map fun c => (c.id,
    if decision.fieldMask.contains "visible_edges" then
      safeVisibleDependencies c (cards.map Card.id) decision.visibleAbsentIds
    else some ([], [])))

/-- `graph`. -/
def graphOf (dependencies : Assoc String (Option (List String × List String))) :
    Assoc String (List String) :=
  dependencies.map fun p => (p.1, (p.2.map Prod.fst).getD [])

/-- `attested_absent`. -/
def attestedAbsent (decision : AuthorizedCardSetDecision)
    (dependencies : Assoc String (Option (List String × List String))) : Assoc String (List String) :=
  dependencies.map fun p => (p.1,
    if decision.fieldMask.contains "orphan_evidence" then (p.2.map Prod.snd).getD [] else [])

/-- `sorted((source, target) …)`, with the kind of the edges. -/
def edgesOf (kind : String) (graph : Assoc String (List String)) : List (String × String × String) :=
  (graph.flatMap fun p => p.2.map fun target => (p.1, target, kind)).insertionSort
    fun x y => toLex (x.1, x.2.1) ≤ toLex (y.1, y.2.1)

/-- `raw_edges`. -/
def rawEdges (graph absent : Assoc String (List String)) : List (String × String × String) :=
  (edgesOf "visible" graph ++ edgesOf "orphan" absent).insertionSort
    fun x y => toLex (x.1, toLex x.2) ≤ toLex (y.1, toLex y.2)

/-- The records with their validity. -/
def recordPairs (decision : AuthorizedCardSetDecision) (graph : Assoc String (List String))
    (cards : List Card) : Except PyError (List (String × Json × Bool)) :=
  cards.mapM fun c => do
    let r ← record E c ((Assoc.get? graph c.id).getD []) decision.fieldMask decision.semanticClasses
    pure (c.id, r)

/-- What `selected_ids` is sorted by. -/
def selectionKey (decision : AuthorizedCardSetDecision) (byId : Assoc String Card)
    (exceptional : List String) (cardId : String) : Bool ×ₗ Bool ×ₗ Bool ×ₗ String :=
  let c := Assoc.get? byId cardId
  toLex (!exceptional.contains cardId,
    toLex (c.all fun c => (classes c decision.semanticClasses).isEmpty,
      toLex (c.any fun c => c.status = .done, cardId)))

/-- `selected_ids`. -/
def selectedIds (decision : AuthorizedCardSetDecision) (byId : Assoc String Card)
    (exceptional ids : List String) : List String :=
  (ids.dedup.insertionSort fun x y => selectionKey decision byId exceptional x ≤
    selectionKey decision byId exceptional y).take maxOutputRecords

/-- The identifiers of `milestone_cards`. -/
def milestoneIds (decision : AuthorizedCardSetDecision) (cards : List Card) : List String :=
  ((cards.filter fun c => decision.fieldMask.contains "milestone" &&
    (classes c decision.semanticClasses).contains "milestone").map Card.id).insertionSort
      fun x y => x ≤ y

/-- `errors`. -/
def errorsOf (complete retryable truncated : Bool) : Json :=
  .arr ((if complete then [] else [.obj [("code", .str "AUTHORIZED_CARD_SNAPSHOT_PARTIAL"),
      ("message", .str "The authorized CardStore snapshot has a bounded consistency or field gap"),
      ("retryable", .bool retryable)]]) ++
    if truncated then [.obj [("code", .str "AUTHORIZED_CARD_OUTPUT_TRUNCATED"),
      ("message", .str "The authorized CardStore output is truncated after bounded classification"),
      ("retryable", .bool false)]] else [])

/-- `_fit`. -/
def fit (scope : AuthorizedCardScope) (result : Json) : Json :=
  if (canonicalBytes E result).length ≤ maxProjectItemBytes then result else noValue scope

/-- `_project`, up to the size of its result. -/
def projectValue (scope : AuthorizedCardScope) (decision : AuthorizedCardSetDecision)
    (folded : List (Option Card)) (now : Int) : Except PyError Json := do
  let gaps := (folded.filter Option.isNone).length
  let mismatches := mismatchCount decision folded
  let cards := presentCards decision folded
  let dependencies := dependencyMap decision cards
  let invalidDependencies := (dependencies.filter fun p => p.2.isNone).length
  let graph := graphOf dependencies
  let absent := attestedAbsent decision dependencies
  let pairs ← recordPairs E decision graph cards
  let invalidFields := (pairs.filter fun p => !p.2.2).length
  let safeRecords := pairs.map fun p => p.2.1
  let edges := rawEdges graph absent
  let edgeCap := decide (maxVisibleEdges < edges.length)
  let byId := dictOf (cards.map fun c => (c.id, c))
  let classified ← (edges.take maxVisibleEdges).mapM (classify E decision now graph byId)
  let classified := classified.insertionSort fun x y => findingKey x ≤ findingKey y
  let findings := classified.take maxOutputFindings
  let exceptional := (findings.filter fun f => !f.conditions.isEmpty).flatMap Finding.evidenceRefs
  let selected := selectedIds decision byId exceptional (cards.map Card.id)
  let recordsById := dictOf (pairs.map fun p => (p.1, p.2.1))
  let records := selected.filterMap (Assoc.get? recordsById)
  let milestoneCards := milestoneIds decision cards
  let milestones := (milestoneCards.take maxOutputMilestones).map
    (milestone graph classified recordsById edgeCap)
  let truncated := decide (records.length < safeRecords.length) ||
    decide (findings.length < classified.length) ||
    decide (milestones.length < milestoneCards.length)
  let complete := gaps == 0 && mismatches == 0 && invalidDependencies == 0 && invalidFields == 0 &&
    !edgeCap
  let observed := cards.filterMap (activity E)
  pure (.obj [("projection_type", .str "project_records"),
    ("schema_version", .str "1.0.0"), ("source_owner", .str "skcoord"),
    ("source_model", .str "AuthorizedCardSnapshotReader"), ("classification", .str "internal"),
    ("scope", scopeDict scope),
    ("policy_decision", .obj [("capauth_decision_id", .str decision.capauthDecisionId),
      ("owner_policy_revision", .str decision.ownerPolicyRevision),
      ("visible_set_sha256", .str decision.visibleSetSha256),
      ("expires_at", .str (E.isoformat decision.expiresAt.utc))]),
    ("visibility", .obj [("state", .str "visible"), ("authorization", .str "authorized"),
      ("reason", .str "Owner policy filtered identifiers before CardStore retrieval")]),
    ("truth_state", .str (if complete && !truncated then "current" else "partial")),
    ("snapshot_consistency", .str "per_authorized_record_fold"),
    ("observed_at", jsonOfOption (observed.max?.map E.isoformat)),
    ("projected_at", .str (E.isoformat now)),
    ("watermark", watermark E (.obj [("records", .arr safeRecords),
      ("analyzed_edges", .arr ((edges.take maxVisibleEdges).map fun e =>
        .arr [.str e.1, .str e.2.1, .str e.2.2])),
      ("classification_complete", .bool complete)])),
    ("population_counts", .obj [("authorized_ids", .int decision.visibleCardIds.length),
      ("folded", .int cards.length), ("emitted_records", .int records.length),
      ("visible_edges", .int (edgesOf "visible" graph).length),
      ("attested_orphan_edges", .int (edgesOf "orphan" absent).length),
      ("emitted_findings", .int findings.length),
      ("explicit_milestones", .int milestoneCards.length),
      ("emitted_milestones", .int milestones.length)]),
    ("classification_complete", .bool complete), ("truncated", .bool truncated),
    ("records", .arr records), ("dependency_edges", .arr (findings.map Finding.dict)),
    ("milestones", .arr milestones),
    ("errors", errorsOf complete (gaps ≠ 0 || mismatches ≠ 0) truncated)])

/-- `_project`. -/
def project (scope : AuthorizedCardScope) (decision : AuthorizedCardSetDecision)
    (folded : List (Option Card)) (now : Int) : Except PyError Json := do
  let v ← projectValue E scope decision folded now
  pure (fit E scope v)

/-! ### The decision -/

/-- `_allows`. -/
def allows (request : AuthorizedCardSnapshotRequest) (decision : AuthorizedCardSetDecision)
    (now : Int) : Bool :=
  decision.state = "allow" && decision.code = "ALLOW" &&
    [request.identity.subjectPrincipalId, request.identity.actingPrincipalId,
      request.identity.nodeId, request.identity.capauthIdentityRef, request.resourceId,
      request.capauthDecisionId, request.ownerPolicyRevision, decision.capauthDecisionId,
      decision.ownerPolicyRevision, decision.code, decision.identity.subjectPrincipalId,
      decision.identity.actingPrincipalId, decision.identity.nodeId,
      decision.identity.capauthIdentityRef, decision.resourceId].all isIdentifier &&
    decision.capauthDecisionId = request.capauthDecisionId &&
    decision.ownerPolicyRevision = request.ownerPolicyRevision &&
    decision.identity = request.identity && decision.purpose = request.purpose &&
    decision.audience = request.audience && decision.capability = request.capability &&
    decision.target = request.target && decision.resourceType = request.resourceType &&
    decision.resourceId = request.resourceId &&
    decision.visibleSetSha256 = visibleSetSha256 E decision.visibleCardIds &&
    decision.resourceId = authorizedCardResourceId E decision && decision.scope = request.scope &&
    decision.issuedAt.offset = some 0 && decision.expiresAt.offset = some 0 &&
    decision.issuedAt.utc ≤ now && now < decision.expiresAt.utc

/-- `read`, of a policy that decides on the request. -/
def read (policy : AuthorizedCardSnapshotRequest → Except PyError (Option AuthorizedCardSetDecision))
    (st : Store) (request : AuthorizedCardSnapshotRequest) (now : Datetime) : Except PyError Json :=
  let denied := noValue request.scope
  if now.offset.isNone then pure denied
  else
    match policy request with
    | .error .killed => throw .killed
    | .ok (some decision) =>
      if allows E request decision now.utc then
        match decision.visibleCardIds.mapM (st.fold E.env) with
        | .ok folded => project E request.scope decision folded now.utc
        | .error .killed => throw .killed
        | .error _ => pure denied
      else pure denied
    | _ => pure denied

end

end SkCoord.Snapshot
