import SkCoord.Cmdb.Store

/-!
# Discovered items

A `DiscoveredCI` is one configuration item as a collector saw it.  `merge` folds the sightings of a
batch into one item for each identity, and `matchingIdentityIds` finds the stored hosts and devices
that an item may be a sighting of.
-/

namespace SkCoord.Cmdb

open Python

/-- `tuple(sorted(set(l)))` of texts. -/
def sortedTexts (l : List String) : List String := l.dedup.insertionSort fun x y => x ≤ y

/-- `tuple(sorted(set(l)))` of pairs. -/
def sortedPairs (l : List (String × String)) : List (String × String) :=
  l.dedup.insertionSort fun x y => toLex x ≤ toLex y

/-- `x or y` of texts. -/
def orText (x y : String) : String := if x = "" then y else x

/-- `DISCOVERED_TAG`. -/
def discoveredTag : String := "discovered"

/-- `AUTHORITY_DECLARED`. -/
def authorityDeclared : String := "declared"

/-- `AUTHORITY_OBSERVED`. -/
def authorityObserved : String := "observed"

/-- `DiscoveredCI`. -/
structure DiscoveredCI where
  ciType : String
  name : String
  source : String
  observed : Bool := false
  node : String := ""
  description : String := ""
  attributes : Json := .obj []
  tags : List String := []
  relationships : List (String × String) := []
  declaredFlag : Option Bool := none
  canonicalName : String := ""
  aliases : List String := []
  observedAt : String := ""
  scanId : String := ""
  authority : String := ""
  lifecycleScope : String := ""
  schemaVersion : Int := 1

/-- `s.rstrip(".")`. -/
def stripDots (l : List Char) : List Char := (l.reverse.dropWhile (· == '.')).reverse

/-- `_normalise_alias` of a text. -/
def normaliseAlias (u : CharTables) (value : String) : String :=
  String.ofList (stripDots (u.lower (strip value)).toList)

/-- The type is one that is recognised by its aliases. -/
def isIdentityType (ciType : String) : Bool :=
  ciType == CIType.host.value || ciType == CIType.device.value

/-- `s.split(c)`. -/
def splitOn (c : Char) : List Char → List (List Char)
  | [] => [[]]
  | d :: l =>
    if d = c then [] :: splitOn c l
    else match splitOn c l with
      | [] => [[d]]
      | part :: parts => (d :: part) :: parts

namespace DiscoveredCI

/-- `canonical_name or name`. -/
def label (item : DiscoveredCI) : String := orText item.canonicalName item.name

/-- `ci_id`. -/
def ciId (u : CharTables) (item : DiscoveredCI) : String := makeCiId u item.ciType item.label

/-- `declared`. -/
def declared (item : DiscoveredCI) : Bool := item.declaredFlag.getD !item.observed

/-- `identity_aliases`. -/
def identityAliases (u : CharTables) (item : DiscoveredCI) : List String :=
  sortedTexts (((item.name :: item.canonicalName :: item.aliases).filter (· ≠ "")).map
    (normaliseAlias u))

/-- The canonical name of two sightings. -/
def mergedName (self other : DiscoveredCI) : Except PyError String :=
  if self.declared && !other.declared then pure self.label
  else if other.declared && !self.declared then pure other.label
  else match [self.label, other.label].filter (· ≠ "") with
    | [] => throw (.value "min() iterable argument is empty")
    | [x] => pure x
    | x :: y :: _ => pure (min x y)

/-- `{**secondary, **primary}`. -/
def mergedAttributes (secondary primary : Json) : Except PyError Json :=
  match secondary, primary with
  | .obj s, .obj p => pure (.obj (p.foldl (fun d q => Assoc.set d q.1 q.2) s))
  | .obj _, x => throw (.type ("'" ++ x.typeName ++ "' object is not a mapping"))
  | x, _ => throw (.type ("'" ++ x.typeName ++ "' object is not a mapping"))

/-- `"+".join(sorted({*self.split("+"), *other.split("+")}))`. -/
def mergedSource (self other : String) : String :=
  let parts := fun s : String => (splitOn '+' s.toList).map String.ofList
  String.intercalate "+" (sortedTexts (parts self ++ parts other))

/-- `merged_with`. -/
def mergedWith (u : CharTables) (self other : DiscoveredCI) : Except PyError DiscoveredCI := do
  let primary := if other.observed && !self.observed then other else self
  let secondary := if other.observed && !self.observed then self else other
  let canonicalName ← mergedName self other
  let attributes ← mergedAttributes secondary.attributes primary.attributes
  pure
    { primary with
      source := mergedSource self.source other.source
      observed := self.observed || other.observed
      declaredFlag := some (self.declared || other.declared)
      node := orText primary.node secondary.node
      description := orText primary.description secondary.description
      attributes := attributes
      tags := sortedTexts (self.tags ++ other.tags)
      relationships := sortedPairs (self.relationships ++ other.relationships)
      canonicalName := canonicalName
      aliases := sortedTexts (self.identityAliases u ++ other.identityAliases u)
      observedAt := max self.observedAt other.observedAt
      scanId := orText primary.scanId secondary.scanId
      authority := if self.observed || other.observed then authorityObserved else authorityDeclared
      lifecycleScope := orText primary.lifecycleScope secondary.lifecycleScope }

/-- The two sightings are of one item. -/
def sameIdentity (u : CharTables) (existing item : DiscoveredCI) : Bool :=
  existing.ciType == item.ciType &&
    (existing.ciId u == item.ciId u ||
      isIdentityType item.ciType &&
        (existing.identityAliases u).any (item.identityAliases u).contains)

end DiscoveredCI

/-- One more sighting in the fold of `merge`. -/
def mergeStep (u : CharTables) (folded : List DiscoveredCI) (item : DiscoveredCI) :
    Except PyError (List DiscoveredCI) :=
  match folded.filter fun existing => existing.sameIdentity u item with
  | [] => pure (folded ++ [item])
  | found => do
    let merged ← found.foldlM (fun merged existing => existing.mergedWith u merged) item
    -- every sighting that was found has been removed, and those equal to one of them were found too
    pure ((folded.filter fun existing => !existing.sameIdentity u item) ++ [merged])

/-- `merge`. -/
def merge (u : CharTables) (items : List DiscoveredCI) : Except PyError (List DiscoveredCI) := do
  let folded ← items.foldlM (mergeStep u) []
  pure (folded.insertionSort fun x y => toLex (x.ciType, x.label) ≤ toLex (y.ciType, y.label))

/-! ### Identities of stored items -/

/-- `s.removeprefix(p)`. -/
def removePrefix (p s : String) : String :=
  if p.toList.isPrefixOf s.toList then String.ofList (s.toList.drop p.toList.length) else s

/-- The names by which a stored item is recognised, before they are normalised. -/
def identityValues (ci : ConfigItem) : Except PyError (List Json) := do
  let aliases ← (getAttributeD ci.attributes "aliases" (.arr [])).iter
  pure (.str (removePrefix ("ci-" ++ ci.ciType ++ "-") ci.id) :: .str ci.name ::
    getAttributeD ci.attributes "canonical_name" (.str "") :: aliases)

/-- The normalised names of a stored item. -/
def storedAliases (env : Env) (ci : ConfigItem) : Except PyError (List String) := do
  let values ← identityValues ci
  pure ((values.filter Json.truthy).map fun value => normaliseAlias env.tables (env.format value))

/-- The stored items that an item may be a sighting of. -/
def matchingItems (env : Env) (item : DiscoveredCI) (existing : List ConfigItem) :
    Except PyError (List ConfigItem) := do
  let hosts := existing.filter fun ci => isIdentityType ci.ciType
  let found ← hosts.mapM fun ci => do
    let names ← storedAliases env ci
    pure (ci, (item.identityAliases env.tables).any names.contains)
  pure ((found.filter Prod.snd).map Prod.fst)

/-- `_matching_identity_ids`. -/
def matchingIdentityIds (env : Env) (item : DiscoveredCI) (existing : List ConfigItem) :
    Except PyError (List String) :=
  if isIdentityType item.ciType then do
    let found ← matchingItems env item existing
    pure (sortedTexts (item.ciId env.tables :: found.map (·.id)))
  else pure [item.ciId env.tables]

end SkCoord.Cmdb
