import SkCoord.Cmdb.Reconcile

/-!
# Retirement of items that are no longer discovered

`applyRetirementLifecycle` counts, for an authority and a scope, how many complete passes in a row
did not discover an item.  The count is an attribute of the item; where it reaches the threshold the
item is set retired.
-/

namespace SkCoord.Cmdb

open Python

/-! ### Impact -/

/-- An entry of `dependents`. -/
structure Dependent where
  id : String
  name : String
  ciType : String
  rel : String
  deriving DecidableEq, Repr

/-- The relationships of an item that depend on another one. -/
def dependentsOf (ciId : String) (other : ConfigItem) : List Dependent :=
  (other.relationships.filter fun r =>
    r.target == ciId && ["depends_on", "runs_on"].contains r.relType).map fun r =>
      ⟨other.id, other.name, other.ciType, r.relType⟩

/-- `impact_analysis(ci_id).get("dependents", [])`. -/
def impactDependents (env : Env) (dir : CmdbDir) (ciId : String) :
    Except PyError (List Dependent) := do
  let ci ← dir.getCi env ciId
  match ci with
  | none => pure []
  | some _ => do
    let cis ← dir.listCis env
    pure (cis.flatMap (dependentsOf ciId))

/-! ### The pass -/

/-- The arguments of a pass. -/
structure RetirementPass where
  authority : String
  scopeFingerprint : String
  discoveredIds : List String
  ownedIds : List String
  complete : Bool
  threshold : Int := 3
  agent : String := "cmdb-lifecycle"

/-- An entry of the list that a pass returns. -/
structure RetirementAction where
  ciId : String
  authority : String
  action : String
  misses : Int
  threshold : Int
  dependents : List Dependent
  deriving DecidableEq, Repr

/-- The attribute that counts the misses. -/
def missesKey (authority scopeFingerprint : String) : String :=
  "discovery_misses:" ++ authority ++ ":" ++ scopeFingerprint

/-- `re.fullmatch(r"[0-9a-f]{64}", s)`. -/
def isScopeFingerprint (s : String) : Bool :=
  s.toList.length == 64 &&
    s.toList.all fun c => ('0' ≤ c && c ≤ '9') || ('a' ≤ c && c ≤ 'f')

/-- `int(x or 0)`. -/
def countOf (env : Env) (x : Json) : Except PyError Int :=
  if x.truthy then
    match intOf env x with
    | some n => pure n
    | none =>
      match x with
      | .str _ => throw (.value "invalid literal for int()")
      | _ => throw (.type "int() argument must be a string or a number")
  else pure 0

namespace RetirementPass

/-- The attribute that the pass counts in. -/
def key (p : RetirementPass) : String := missesKey p.authority p.scopeFingerprint

/-- The count behind the pass. -/
def misses (p : RetirementPass) (ciId : String) (previous : Int) : Int :=
  if ciId ∈ p.discoveredIds then 0 else previous + 1

/-- The pass sets the item retired. -/
def retires (p : RetirementPass) (ci : ConfigItem) (misses : Int) : Bool :=
  p.threshold ≤ misses && !ci.status.pyEq (.str CIStatus.retired.value)

/-- The word for what the pass does to the count. -/
def action (p : RetirementPass) (ciId : String) (previous : Int) : String :=
  if ciId ∈ p.discoveredIds then (if previous ≠ 0 then "reset" else "seen") else "miss"

/-- The note of the retirement. -/
def note (p : RetirementPass) : String :=
  "not seen in " ++ toString p.threshold ++ " complete " ++ p.authority ++ " scans"

end RetirementPass

/-- The loop body of `apply_retirement_lifecycle` for an item with the tag. -/
def advanceItem (env : Env) (p : RetirementPass) (apply : Bool) (ciId : String) (ci : ConfigItem) :
    Effect Manager RetirementAction := do
  let previous ← Effect.lift (countOf env (getAttributeD ci.attributes p.key (.int 0)))
  let misses := p.misses ciId previous
  let s ← Effect.get
  let dependents ← Effect.lift
    (if p.threshold ≤ misses then impactDependents env s.dir ciId else pure [])
  let retire := p.retires ci misses
  onlyIf (apply && misses ≠ previous) (setAttribute env ciId p.agent p.key (.int misses))
  onlyIf (apply && retire) (setStatus env ciId p.agent CIStatus.retired.value p.note)
  pure
    { ciId
      authority := p.authority
      action := if retire then "retire" else p.action ciId previous
      misses
      threshold := p.threshold
      dependents }

/-- The loop of `apply_retirement_lifecycle`. -/
def advanceItems (env : Env) (p : RetirementPass) (apply : Bool) :
    List String → Effect Manager (List RetirementAction)
  | [] => pure []
  | ciId :: ids => do
    let s ← Effect.get
    let ci ← Effect.lift (s.dir.getCi env ciId)
    match ci.filter fun ci => ci.tags.contains discoveredTag with
    | none => advanceItems env p apply ids
    | some ci => do
      let action ← advanceItem env p apply ciId ci
      let actions ← advanceItems env p apply ids
      pure (action :: actions)

/-- `apply_retirement_lifecycle`. -/
def applyRetirementLifecycle (env : Env) (p : RetirementPass) (apply : Bool) :
    Effect Manager (List RetirementAction) :=
  if p.threshold < 1 then .raise (.value "threshold must be positive")
  else if isBlank p.authority || !isScopeFingerprint p.scopeFingerprint then
    .raise (.value "authority and a SHA-256 scope_fingerprint are required")
  else if p.complete then
    advanceItems env p apply (p.ownedIds.dedup.insertionSort fun x y => x ≤ y)
  else pure []

end SkCoord.Cmdb
