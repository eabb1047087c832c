import SkCoord.Cmdb.Discovery

/-!
# Ownership backfill

`planOwnershipBackfill` previews which items are enrolled into the ownership of the discovery, with a
digest of the folded state of each and a digest of the whole plan.  `applyOwnershipBackfill` takes a
plan with an approval and enrolls the items.
-/

namespace SkCoord.Cmdb

open Python

/-- `OwnershipEntry`. -/
structure OwnershipEntry where
  ciId : String
  authority : String
  scopeFingerprint : String

/-- `ShadowGate`. -/
structure ShadowGate where
  eligible : Bool
  scopeFingerprint : String
  scanIds : List String
  errors : List String

/-- `hashlib.sha256(·).hexdigest()`. -/
abbrev Sha256Hex := Bytes → String

/-- `_BACKFILL_SCHEMA`. -/
def backfillSchema : String := "skcoord.cmdb.ownership-backfill/v1"

variable (env : Env) (sha256 : Sha256Hex)

/-- `sha256(_canonical(value).encode()).hexdigest()`. -/
def canonicalDigest (value : Json) : String :=
  sha256 (encodeUtf8 (Json.canonical env.floats value))

/-! ### The state of an item -/

/-- A key as `json.dumps` writes it. -/
def keyText : Json → String
  | .str s => s
  | .null => "null"
  | .bool b => if b then "true" else "false"
  | .int i => String.ofList (intText i).text
  | .float q => String.ofList (env.floats.repr q).text
  | .arr _ => ""
  | .obj _ => ""

/-- The attributes with sorted keys; keys of several types cannot be sorted. -/
def sortedAttributes (attributes : List (Json × Json)) : Except PyError Dict := do
  let sorted ← sortByKey (fun p : Json × Json => SortKey.ofValues [p.1]) attributes
  pure (sorted.map fun p => (keyText env p.1, p.2.sortKeys))

/-- What the digest of an item is taken of, with sorted keys. -/
def ciState (ci : ConfigItem) (attributes : Dict) : Json :=
  .obj
    [("attributes", .obj attributes),
      ("ci_type", .str ci.ciType),
      ("id", .str ci.id),
      ("name", .str ci.name),
      ("status", ci.status.sortKeys),
      ("tag_authorities", (Json.obj (ci.tagAuthorities.map fun p => (p.1, .str p.2))).sortKeys),
      ("tags", .arr (ci.tags.map .str))]

/-- `_ci_state_digest`. -/
def ciStateDigest (ci : ConfigItem) : Except PyError String := do
  let attributes ← sortedAttributes env ci.attributes
  pure (sha256 (encodeUtf8 ((ciState ci attributes).dumps env.floats .compact)))

/-! ### The preview -/

/-- The errors that an entry with its item gives. -/
def entryErrors (entry : OwnershipEntry) (gate : ShadowGate) (ci : ConfigItem) : List String :=
  (if isBlank entry.authority then [entry.ciId ++ ": authority is required"] else []) ++
  (if entry.scopeFingerprint ≠ gate.scopeFingerprint then
    [entry.ciId ++ ": scope does not match shadow gate"] else []) ++
  (if ci.status.pyEq (.str CIStatus.retired.value) then
    [entry.ciId ++ ": retired CI cannot be enrolled"] else []) ++
  (if discoveredTag ∈ ci.tags then [entry.ciId ++ ": already discovery-owned"] else [])

/-- One turn of the loop over the entries. -/
def planEntry (dir : CmdbDir) (gate : ShadowGate) (acc : List String × List Json)
    (entry : OwnershipEntry) : Except PyError (List String × List Json) := do
  match ← dir.getCi env entry.ciId with
  | none => pure (acc.1 ++ [entry.ciId ++ ": CI does not exist"], acc.2)
  | some ci => do
    let digest ← ciStateDigest env sha256 ci
    pure (acc.1 ++ entryErrors entry gate ci,
      acc.2 ++ [.obj [("ci_id", .str entry.ciId), ("authority", .str entry.authority),
        ("scope_fingerprint", .str entry.scopeFingerprint), ("ci_state_digest", .str digest)]])

/-- The part of a plan that its digest is taken of. -/
def planBody (schema scanIds scopeFingerprint actions : Json) : Dict :=
  [("schema", schema), ("shadow_scan_ids", scanIds), ("scope_fingerprint", scopeFingerprint),
    ("actions", actions)]

/-- `plan_ownership_backfill`. -/
def planOwnershipBackfill (dir : CmdbDir) (entries : List OwnershipEntry) (gate : ShadowGate) :
    Except PyError Dict := do
  let sorted := entries.insertionSort fun e f => e.ciId ≤ f.ciId
  let acc ← sorted.foldlM (planEntry env sha256 dir gate) (gate.errors, [])
  let body := planBody (.str backfillSchema) (.arr (gate.scanIds.map .str))
    (.str gate.scopeFingerprint) (.arr acc.2)
  pure (body ++
    [("eligible", .bool (gate.eligible && acc.1.isEmpty && !acc.2.isEmpty)),
      ("errors", .arr (acc.1.map .str)),
      ("plan_digest", .str (canonicalDigest env sha256 (.obj body)))])

/-! ### The application -/

end SkCoord.Cmdb
