import SkCoord.Cmdb.Discovery

/-!
# Reconciliation of discovered items

`reconcile` compares a batch of discovered items with the store and, when it is told to apply,
writes the differences.  `validatedDiscovery` merges and checks the batch, `identify` finds the
identifier under which each item is stored, `reconcileItem` is one turn of the loop over the items,
and `linkAlias` one turn of the loop over the duplicates.
-/

namespace SkCoord.Cmdb

open Python

/-! ### The report -/

/-- An entry of `validation_failures`. -/
structure ValidationFailure where
  ciId : String
  field : String
  reason : String
  deriving DecidableEq, Repr

/-- An entry of `secret_redaction_findings`. -/
structure RedactionFinding where
  ciId : String
  path : String
  deriving DecidableEq, Repr

/-- The action of an entry of `relationships`. -/
inductive EdgeAction where
  | add
  | remove
  deriving DecidableEq, Repr

/-- An entry of `relationships`. -/
structure RelationshipChange where
  ciId : String
  action : EdgeAction
  relType : String
  target : String
  deriving DecidableEq, Repr

/-- `ReconcileReport`. -/
structure ReconcileReport where
  applied : Bool := false
  created : List String := []
  updated : Assoc String (List String) := []
  unchanged : List String := []
  orphans : List String := []
  relationships : List RelationshipChange := []
  validationFailures : List ValidationFailure := []
  secretRedactionFindings : List RedactionFinding := []
  deriving DecidableEq, Repr

/-! ### Validation -/

mutual

/-- `_redact_attributes`. -/
def redactAttributes (env : Env) (ciId path : String) : Json → Json × List RedactionFinding
  | .obj d =>
    let r := redactFields env ciId path d
    (.obj r.1, r.2)
  | .arr l =>
    let r := redactElems env ciId path 0 l
    (.arr r.1, r.2)
  | v => (v, [])

def redactFields (env : Env) (ciId path : String) :
    List (String × Json) → List (String × Json) × List RedactionFinding
  | [] => ([], [])
  | (key, child) :: d =>
    let childPath := path ++ "." ++ key
    let rest := redactFields env ciId path d
    if isSecretAttributeKey env key then (rest.1, ⟨ciId, childPath⟩ :: rest.2)
    else
      let clean := redactAttributes env ciId childPath child
      ((key, clean.1) :: rest.1, clean.2 ++ rest.2)

def redactElems (env : Env) (ciId path : String) (index : Nat) :
    List Json → List Json × List RedactionFinding
  | [] => ([], [])
  | child :: l =>
    let clean := redactAttributes env ciId (indexPath path index) child
    let rest := redactElems env ciId path (index + 1) l
    (clean.1 :: rest.1, clean.2 ++ rest.2)

end

/-- An item whose attributes are an object without secret keys. -/
structure CleanCI where
  item : DiscoveredCI
  attributes : Dict

/-- The failures of one relationship. -/
def relationshipFailures (knownIds : List String) (ciId : String) (rel : String × String) :
    List ValidationFailure :=
  if rel.1 ∉ allowedRelationships then
    [⟨ciId, "relationships", "unsupported relationship: " ++ rel.1⟩]
  else if rel.2 = ciId then [⟨ciId, "relationships", "self edge"⟩]
  else if rel.2 ∉ knownIds then [⟨ciId, "relationships", "missing target: " ++ rel.2⟩]
  else []

/-- The item with redacted attributes, and what was redacted. -/
def cleanItem (env : Env) (item : DiscoveredCI) : CleanCI × List RedactionFinding :=
  match item.attributes with
  | .obj d =>
    let r := redactFields env (item.ciId env.tables) "attributes" d
    (⟨item, r.1⟩, r.2)
  | _ => (⟨item, []⟩, [])

/-- The failures of one item. -/
def itemFailures (env : Env) (knownIds : List String) (item : DiscoveredCI) :
    List ValidationFailure :=
  let ciId := item.ciId env.tables
  (if item.ciType ∈ CIType.all.map CIType.value then [] else [⟨ciId, "ci_type", "unsupported"⟩]) ++
    (if isBlank item.label then [⟨ciId, "name", "empty"⟩] else []) ++
    (if item.attributes.isDict then [] else [⟨ciId, "attributes", "must be an object"⟩]) ++
    item.relationships.flatMap (relationshipFailures knownIds ciId)

/-- `_validated_discovery`. -/
def validatedDiscovery (env : Env) (dir : CmdbDir) (discovered : List DiscoveredCI) :
    Except PyError (List CleanCI × List ValidationFailure × List RedactionFinding) := do
  let normalized ← merge env.tables discovered
  let cis ← dir.listCis env
  let knownIds := cis.map (·.id) ++ normalized.map (·.ciId env.tables)
  pure (normalized.map fun item => (cleanItem env item).1,
    normalized.flatMap (itemFailures env knownIds),
    normalized.flatMap fun item => (cleanItem env item).2)

/-- `syncthing_ci_status`. -/
def syncthingCiStatus (c : CleanCI) : Except PyError (Option CIStatus) :=
  if c.item.ciType ≠ CIType.service.value ∨ "sync-health" ∉ c.item.tags then pure none
  else match Dict.get c.attributes "sync_health_state" with
    | .str "down" => pure (some .down)
    | .str "degraded" => pure (some .degraded)
    | state => do
      -- `state in {"healthy", "syncing"}`
      state.requireHashable
      pure (if state.pyEq (.str "healthy") || state.pyEq (.str "syncing") then some .operational
        else none)

/-- The status that `active_state` implies. -/
def activeStatus (c : CleanCI) : Option CIStatus :=
  match Dict.get c.attributes "active_state" with
  | .str "active" => some .operational
  | .str "failed" => some .down
  | _ => none

/-- `_observed_status`. -/
def observedStatus (c : CleanCI) : Except PyError (Option CIStatus) :=
  if !c.item.observed || c.item.ciType ≠ CIType.service.value then pure none
  else do
    let sync ← syncthingCiStatus c
    pure (sync.orElse fun _ => activeStatus c)

/-! ### Identity resolution -/

/-- `{ci.id: ci for ci in cis}`. -/
def byIdentifier (cis : List ConfigItem) : Assoc String ConfigItem :=
  cis.foldl (fun d ci => Assoc.set d ci.id ci) []

/-- The identifier of an item, with the stored items that become aliases of it. -/
def resolve (env : Env) (existing : Assoc String ConfigItem) (item : DiscoveredCI) :
    Except PyError (String × List (String × String)) :=
  let ciId := item.ciId env.tables
  if isIdentityType item.ciType then do
    let ids ← matchingIdentityIds env item (existing.map Prod.snd)
    let found := ids.filterMap fun cid => Assoc.get? existing cid
    -- the smallest identifier comes first, since the identifiers are sorted
    let sameType := found.filter fun ci => ci.ciType = item.ciType
    let target := (Assoc.get? existing ciId).orElse fun _ => sameType.head?
    let ciId := (target.map (·.id)).getD ciId
    pure (ciId, ((found.map (·.id)).filter (· ≠ ciId)).map fun duplicate => (duplicate, ciId))
  else pure (ciId, [])

/-- The items by their identifiers, and the migrations. -/
structure Identified where
  byId : Assoc String CleanCI := []
  migrations : List (String × String) := []

/-- One turn of the first loop. -/
def identifyItem (env : Env) (existing : Assoc String ConfigItem) (s : Identified) (c : CleanCI) :
    Except PyError Identified := do
  let r ← resolve env existing c.item
  pure { byId := Assoc.set s.byId r.1 c, migrations := s.migrations ++ r.2 }

/-- The first loop of `reconcile`. -/
def identify (env : Env) (existing : Assoc String ConfigItem) (items : List CleanCI) :
    Except PyError Identified :=
  items.foldlM (identifyItem env existing) {}

/-! ### Differences -/

/-- `evidence`, without the fields that only some items have. -/
def CleanCI.baseEvidence (env : Env) (c : CleanCI) : Dict :=
  [("canonical_name", .str c.item.label),
    ("aliases", .arr ((c.item.identityAliases env.tables).map .str)),
    ("source_authority", .str (orText c.item.authority
      (if c.item.observed then authorityObserved else authorityDeclared))),
    ("observation_schema_version", .int c.item.schemaVersion)]

/-- `{**item.attributes, **evidence}`. -/
def CleanCI.desiredAttributes (env : Env) (c : CleanCI) : Dict :=
  let d := (c.baseEvidence env).foldl (fun d p => Assoc.set d p.1 p.2) c.attributes
  let d := if c.item.lifecycleScope = "" then d
    else Assoc.set d "lifecycle_scope" (.str c.item.lifecycleScope)
  if c.item.observedAt = "" then d
  else Assoc.set (Assoc.set d "observed_at" (.str c.item.observedAt)) "scan_id"
    (.str c.item.scanId)

/-- What an item asks of the stored item. -/
structure Changes where
  changed : Dict
  missingRels : List (String × String)
  staleRels : List (String × String)
  metadata : List (String × String)
  missingTags : List String
  staleTags : List String
  status : Option CIStatus
  deriving Repr

/-- A stored relationship that an item asks for. -/
def CleanCI.hasRel (c : CleanCI) (current : ConfigItem) (rel : String × String) : Bool :=
  current.relationships.any fun r =>
    r.links rel.1 rel.2 && (c.item.authority = "" || r.authority = "" ||
      r.authority = c.item.authority)

/-- The differences between an item and the stored item. -/
def CleanCI.changes (env : Env) (c : CleanCI) (derived : Option CIStatus)
    (current : ConfigItem) : Changes where
  changed := (c.desiredAttributes env).filter fun p =>
    !(getAttribute current.attributes p.1).pyEq p.2
  missingRels := c.item.relationships.filter fun rel => !c.hasRel current rel
  staleRels := (current.relationships.filter fun r =>
      c.item.authority ≠ "" && r.authority = c.item.authority &&
        (r.relType, r.target) ∉ c.item.relationships).map fun r => (r.relType, r.target)
  metadata := [("name", c.item.name, current.name),
      ("description", c.item.description, current.description),
      ("node", c.item.node, current.node)].filterMap fun p =>
    if p.2.1 ≠ "" ∧ p.2.2 ≠ p.2.1 then some (p.1, p.2.1) else none
  missingTags := sortedTexts (c.item.tags.filter fun tag => tag ∉ current.tags)
  staleTags := ((current.tagAuthorities.filter fun p =>
      p.2 = c.item.authority && p.1 ∉ c.item.tags).map Prod.fst).insertionSort fun x y => x ≤ y
  status := derived.filter fun status =>
    !current.status.pyEq (.str CIStatus.retired.value) && !current.status.pyEq (.str status.value)

namespace Changes

/-- There are none. -/
def isEmpty (d : Changes) : Bool :=
  d.changed.isEmpty && d.missingRels.isEmpty && d.staleRels.isEmpty && d.metadata.isEmpty &&
    d.missingTags.isEmpty && d.staleTags.isEmpty && d.status.isNone

/-- The entry of `updated`. -/
def entry (d : Changes) : List String :=
  (if d.status.isSome then ["status"] else []) ++
    (d.changed.map Prod.fst).insertionSort (fun x y => x ≤ y) ++
    d.missingRels.map (fun r => r.1 ++ "->" ++ r.2) ++
    d.staleRels.map (fun r => "remove:" ++ r.1 ++ "->" ++ r.2) ++
    ((d.metadata.map Prod.fst).insertionSort fun x y => x ≤ y).map (fun k => "metadata:" ++ k) ++
    d.missingTags.map (fun tag => "tag:+" ++ tag) ++
    d.staleTags.map (fun tag => "tag:-" ++ tag)

/-- The entries of `relationships`. -/
def edges (d : Changes) (ciId : String) : List RelationshipChange :=
  d.missingRels.map (fun r => ⟨ciId, .add, r.1, r.2⟩) ++
    d.staleRels.map fun r => ⟨ciId, .remove, r.1, r.2⟩

end Changes

/-! ### Writing -/

/-- A loop over a list that only writes. -/
def forEach {α : Type} (l : List α) (x : α → Effect Manager Unit) : Effect Manager Unit :=
  l.foldlM (fun _ a => x a) ()

/-- A statement under a condition. -/
def onlyIf (b : Bool) (x : Effect Manager Unit) : Effect Manager Unit := if b then x else pure ()

/-- The write of a derived status. -/
def writeStatus (env : Env) (agent ciId : String) : Option CIStatus → Effect Manager Unit
  | none => pure ()
  | some status => setStatus env ciId agent status.value "from observed active_state"

/-- The entry of a relationship that is added. -/
def addedEdge (ciId : String) (rel : String × String) : RelationshipChange :=
  ⟨ciId, .add, rel.1, rel.2⟩

/-- The relationships of a new item, each with its entry in the report. -/
def addRelationships (env : Env) (agent ciId authority : String) (report : ReconcileReport)
    (rels : List (String × String)) : Effect Manager ReconcileReport :=
  rels.foldlM (fun report rel => do
    addRelationship env ciId agent rel.1 rel.2 authority
    pure { report with relationships := report.relationships ++ [addedEdge ciId rel] }) report

/-- The writes for a new item, with its relationships in the report. -/
def createItem (env : Env) (agent ciId : String) (c : CleanCI) (derived : Option CIStatus)
    (report : ReconcileReport) : Effect Manager ReconcileReport := do
  let _ ← createCi env c.item.name c.item.ciType c.item.description "" c.item.node
    (c.desiredAttributes env) c.item.tags ciId
  onlyIf (c.item.authority ≠ "")
    (forEach c.item.tags fun tag => addTag env ciId agent tag c.item.authority)
  -- a new item is operational without an event
  writeStatus env agent ciId (derived.filter fun status => status ≠ .operational)
  addRelationships env agent ciId c.item.authority report c.item.relationships

/-- The branch of the loop for an item that is not stored. -/
def reconcileNew (env : Env) (agent : String) (apply : Bool) (report : ReconcileReport)
    (ciId : String) (c : CleanCI) (derived : Option CIStatus) : Effect Manager ReconcileReport :=
  let report := { report with created := report.created ++ [ciId] }
  if apply then createItem env agent ciId c derived report
  else pure { report with
    relationships := report.relationships ++ c.item.relationships.map (addedEdge ciId) }

/-- The writes for a stored item. -/
def applyChanges (env : Env) (agent ciId : String) (c : CleanCI) (d : Changes) :
    Effect Manager Unit := do
  forEach d.changed fun p => setAttribute env ciId agent p.1 p.2
  writeStatus env agent ciId d.status
  forEach d.missingRels fun r => addRelationship env ciId agent r.1 r.2 c.item.authority
  forEach d.staleRels fun r => removeRelationship env ciId agent r.1 r.2
  forEach d.metadata fun p => setMetadata env ciId agent p.1 p.2
  forEach d.missingTags fun tag => addTag env ciId agent tag c.item.authority
  forEach d.staleTags fun tag => removeTag env ciId agent tag c.item.authority

/-- The branch of the loop for a stored item. -/
def reconcileStored (env : Env) (agent : String) (apply : Bool) (report : ReconcileReport)
    (ciId : String) (c : CleanCI) (derived : Option CIStatus) (current : ConfigItem) :
    Effect Manager ReconcileReport :=
  let d := c.changes env derived current
  if d.isEmpty then pure { report with unchanged := report.unchanged ++ [ciId] }
  else do
    let report := { report with
      updated := Assoc.set report.updated ciId d.entry
      relationships := report.relationships ++ d.edges ciId }
    onlyIf apply (applyChanges env agent ciId c d)
    pure report

/-- One turn of the loop over the items. -/
def reconcileItem (env : Env) (agent : String) (apply : Bool)
    (existing : Assoc String ConfigItem) (report : ReconcileReport) (p : String × CleanCI) :
    Effect Manager ReconcileReport := do
  let derived ← Effect.lift (observedStatus p.2)
  match Assoc.get? existing p.1 with
  | none => reconcileNew env agent apply report p.1 p.2 derived
  | some current => reconcileStored env agent apply report p.1 p.2 derived current

/-- The stored items that the scan did not see. -/
def orphansOf (existing : Assoc String ConfigItem) (s : Identified) : List String :=
  (existing.filter fun p =>
    (Assoc.get? s.byId p.1).isNone && !(s.migrations.any fun m => m.1 == p.1) &&
      p.2.tags.contains discoveredTag &&
        !p.2.status.pyEq (.str CIStatus.retired.value)).map Prod.fst

/-- A stored item is linked to its canonical item already. -/
def isAliasOf (existing : Assoc String ConfigItem) (m : String × String) : Bool :=
  (Assoc.get? existing m.1).any fun duplicate =>
    duplicate.relationships.any fun r => r.links "alias_of" m.2

/-- One turn of the loop over the migrations. -/
def linkAlias (env : Env) (agent : String) (apply : Bool) (existing : Assoc String ConfigItem)
    (report : ReconcileReport) (m : String × String) : Effect Manager ReconcileReport :=
  if isAliasOf existing m then pure report
  else do
    let report := { report with
      updated := Assoc.set report.updated m.1
        ((Assoc.get? report.updated m.1).getD [] ++ ["alias_of->" ++ m.2])
      relationships := report.relationships ++ [⟨m.1, .add, "alias_of", m.2⟩] }
    onlyIf apply (addRelationship env m.1 agent "alias_of" m.2 "")
    pure report

/-- The loops of `reconcile` behind the identity resolution. -/
def reconcileIdentified (env : Env) (agent : String) (apply scanComplete : Bool)
    (existing : Assoc String ConfigItem) (s : Identified) (report : ReconcileReport) :
    Effect Manager ReconcileReport := do
  let report ← s.byId.foldlM (reconcileItem env agent apply existing) report
  if scanComplete then
    let report := { report with orphans := orphansOf existing s }
    (sortedPairs s.migrations).foldlM (linkAlias env agent apply existing) report
  else pure report

/-- `reconcile`. -/
def reconcile (env : Env) (discovered : List DiscoveredCI) (agent : String)
    (apply scanComplete : Bool) : Effect Manager ReconcileReport := do
  let s ← Effect.get
  let (items, failures, findings) ← Effect.lift (validatedDiscovery env s.dir discovered)
  let report : ReconcileReport :=
    { applied := apply, validationFailures := failures, secretRedactionFindings := findings }
  if failures.isEmpty then
    let cis ← Effect.lift (s.dir.listCis env)
    let existing := byIdentifier cis
    let identified ← Effect.lift (identify env existing items)
    reconcileIdentified env agent apply scanComplete existing identified report
  else pure { report with applied := false }

end SkCoord.Cmdb
