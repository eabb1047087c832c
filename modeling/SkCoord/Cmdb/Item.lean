import SkCoord.Coordination.Task
import SkCoord.Python.JsonFile

/-!
# Configuration items

A configuration item is an immutable core with a log of events.  `ConfigItem.ofCore` is the item at
its birth and `ConfigItem.step` the loop body of `CMDBManager.get_ci`, with one definition for each
action.
-/

namespace SkCoord.Cmdb

open Python

/-! ### Types, statuses and relationships -/

/-- `CIType`. -/
inductive CIType where
  | service
  | host
  | agent
  | credential
  | port
  | datastore
  | network
  | device
  deriving DecidableEq, Repr, Inhabited

namespace CIType

/-- The text of a type. -/
def value : CIType → String
  | service => "service"
  | host => "host"
  | agent => "agent"
  | credential => "credential"
  | port => "port"
  | datastore => "datastore"
  | network => "network"
  | device => "device"

/-- The types, in the order of their declaration. -/
def all : List CIType := [service, host, agent, credential, port, datastore, network, device]

end CIType

/-- `CIStatus`. -/
inductive CIStatus where
  | operational
  | degraded
  | down
  | retired
  deriving DecidableEq, Repr, Inhabited

/-- The text of a status. -/
def CIStatus.value : CIStatus → String
  | operational => "operational"
  | degraded => "degraded"
  | down => "down"
  | retired => "retired"

/-- The keys of `ALLOWED_RELATIONSHIPS`. -/
def allowedRelationships : List String :=
  ["depends_on", "runs_on", "hosts", "connects_to", "alias_of"]

/-- An edge of the dependency graph. -/
structure Relationship where
  relType : String := "depends_on"
  target : String
  authority : String := ""
  deriving DecidableEq, Repr

/-- The edge is `rel_type` to `target`, whoever vouches for it. -/
def Relationship.links (r : Relationship) (relType target : String) : Bool :=
  r.relType == relType && r.target == target

/-! ### The environment -/

/-- What the manager reads of the machine it runs on. -/
structure Env where
  floats : FloatText
  tables : CharTables
  hostname : String
  /-- `_now_iso()`, by how often the clock was read. -/
  now : Nat → String
  /-- `str(x)` of a value that is no text. -/
  repr : Json → String
  /-- `int(s)` of a text. -/
  intOfText : String → Option Int

/-- `str(x)`. -/
def Env.format (env : Env) : Json → String
  | .str s => s
  | v => env.repr v

/-- A machine without floats whose clock counts in unary. -/
def unaryMachine : Env where
  floats := zeroFloats
  tables := asciiTables
  hostname := "box"
  now := fun n => String.ofList (List.replicate n 'a')
  repr := fun _ => ""
  intOfText := fun _ => none

/-! ### Secret keys -/

/-- `SECRET_ATTRIBUTE_KEY_FRAGMENTS`. -/
def secretAttributeKeyFragments : List String :=
  ["secret", "password", "passphrase", "token", "credential", "private_key", "api_key",
    "authorization"]

/-- `is_secret_attribute_key`. -/
def isSecretAttributeKey (env : Env) (key : String) : Bool :=
  secretAttributeKeyFragments.any fun fragment => contains (env.tables.lower key) fragment

/-- An index of a list in a path. -/
def indexPath (path : String) (index : Nat) : String := path ++ "[" ++ toString index ++ "]"

mutual

/-- `_secret_attribute_paths`. -/
def secretAttributePaths (env : Env) (path : String) : Json → List String
  | .obj d => secretFieldPaths env path d
  | .arr l => secretElemPaths env path 0 l
  | _ => []

def secretFieldPaths (env : Env) (path : String) : List (String × Json) → List String
  | [] => []
  | (key, child) :: d =>
    let childPath := path ++ "." ++ key
    (if isSecretAttributeKey env key then [childPath] else []) ++
      secretAttributePaths env childPath child ++ secretFieldPaths env path d

def secretElemPaths (env : Env) (path : String) (index : Nat) : List Json → List String
  | [] => []
  | child :: l =>
    secretAttributePaths env (indexPath path index) child ++
      secretElemPaths env path (index + 1) l

end

/-- `_validate_attribute_write`. -/
def validateAttributeWrite (env : Env) (value : Json) : Except PyError Unit :=
  match secretAttributePaths env "attributes" value with
  | [] => pure ()
  | findings => throw (.value ("CMDB attributes contain forbidden secret-looking key(s): " ++
      String.intercalate ", " findings))

/-! ### Schema versions -/

/-- `CMDB_CORE_SCHEMA_VERSION` and `CMDB_EVENT_SCHEMA_VERSION`. -/
def schemaVersionSupported : Int := 2

/-- `int(x)`, where it returns. -/
def intOf (env : Env) : Json → Option Int
  | .bool b => some (if b then 1 else 0)
  | .int i => some i
  | .float q => some (q.num.tdiv q.den)
  | .str s => env.intOfText s
  | _ => none

/-- `_schema_version`. -/
def schemaVersion (env : Env) (value : Json) (record : String) : Except PyError Int :=
  match intOf env value with
  | none => throw (.value ("invalid schema_version for " ++ record ++ ": " ++ env.repr value))
  | some version =>
    if version < 1 then
      throw (.value ("invalid schema_version for " ++ record ++ ": " ++ toString version))
    else if version > schemaVersionSupported then
      throw (.value (record ++ " schema v" ++ toString version ++ " is newer than supported v" ++
        toString schemaVersionSupported))
    else pure version

/-! ### Items -/

/-- `ConfigItem`. -/
structure ConfigItem where
  id : String
  ciType : String
  name : String
  status : Json := .str CIStatus.operational.value
  description : String := ""
  owner : String := ""
  node : String := ""
  attributes : List (Json × Json) := []
  relationships : List Relationship := []
  tags : List String := []
  createdAt : String := ""
  updatedAt : Json := .str ""
  schemaVersion : Int := 1
  tagAuthorities : Assoc String String := []

/-- `d[k] = v`; a key that is equal to a bound one replaces its value. -/
def setItem (k v : Json) : List (Json × Json) → List (Json × Json)
  | [] => [(k, v)]
  | (k', w) :: l => if k'.pyEq k then (k', v) :: l else (k', w) :: setItem k v l

/-- `d.get(k)` for a text `k`. -/
def getAttribute (d : List (Json × Json)) (k : String) : Json :=
  ((d.find? fun p => p.1.pyEq (.str k)).map Prod.snd).getD .null

/-- `d.get(k, dflt)` for a text `k`. -/
def getAttributeD (d : List (Json × Json)) (k : String) (dflt : Json) : Json :=
  ((d.find? fun p => p.1.pyEq (.str k)).map Prod.snd).getD dflt

/-- `dict(x)`. -/
def dictOfValue (x : Json) : Except PyError (List (Json × Json)) :=
  match x with
  | .obj d => pure (d.map fun p => (.str p.1, p.2))
  | x => do
    let elems ← x.iter
    elems.foldlM (fun d elem => do
      let pair ← elem.iter
      match pair with
      | [k, v] => do
        k.requireHashable
        pure (setItem k v d)
      | _ => throw (.value "dictionary update sequence element has not length 2")) []

/-- `list(x)` of a field that holds texts. -/
def textsOfValue (x : Json) : Except PyError (List String) := do
  let elems ← x.iter
  elems.mapM textField

/-- `core["id"]`. -/
def coreId (core : Dict) : Except PyError Json :=
  match Assoc.get? core "id" with
  | some id => pure id
  | none => throw (.key "'id'")

namespace ConfigItem

/-- The item of a core, before any event. -/
def ofCore (env : Env) (ciId : String) (core : Json) : Except PyError ConfigItem :=
  match core with
  | .obj d => do
    let version ← Cmdb.schemaVersion env (Dict.getD d "schema_version" (.int 1)) ("CI " ++ ciId)
    let id ← coreId d
    let attributes ← dictOfValue (Dict.getD d "attributes" (.obj []))
    let tags ← textsOfValue (Dict.getD d "tags" (.arr []))
    pure
      { id := ← textField id
        ciType := ← textField (Dict.getD d "ci_type" (.str "service"))
        name := ← textField (Dict.getD d "name" (.str ""))
        description := ← textField (Dict.getD d "description" (.str ""))
        owner := ← textField (Dict.getD d "owner" (.str ""))
        node := ← textField (Dict.getD d "node" (.str ""))
        attributes := attributes
        tags := tags
        createdAt := ← textField (Dict.getD d "created_at" (.str ""))
        schemaVersion := version }
  | x => throw (.attr ("'" ++ x.typeName ++ "' object has no attribute 'get'"))

/-! ### Events -/

/-- What an event asks for; `other` is any action that the fold does not know. -/
inductive Action where
  | status
  | setAttribute
  | relate
  | unrelate
  | metadata
  | tag
  | untag
  | other
  deriving DecidableEq, Repr, Inhabited

/-- The action of an event. -/
def Action.of (e : Dict) : Action :=
  match e.get "action" with
  | .str s =>
    match s with
    | "status" => status
    | "attribute" => setAttribute
    | "relate" => relate
    | "unrelate" => unrelate
    | "metadata" => metadata
    | "tag" => tag
    | "untag" => untag
    | _ => other
  | _ => other

def foldStatus (ci : ConfigItem) (e : Dict) : ConfigItem :=
  { ci with status := e.getD "status" ci.status }

def foldAttribute (ci : ConfigItem) (e : Dict) : Except PyError ConfigItem :=
  if (e.get "key").truthy then do
    (e.get "key").requireHashable
    pure { ci with attributes := setItem (e.get "key") (e.get "value") ci.attributes }
  else pure ci

/-- The relationship of a `relate` event. -/
def relationshipOf (e : Dict) : Except PyError Relationship := do
  pure
    { relType := ← textField (e.getD "rel_type" (.str "depends_on"))
      target := ← textField (e.getD "target" (.str ""))
      authority := ← textField (e.getD "authority" (.str "")) }

def foldRelate (ci : ConfigItem) (e : Dict) : Except PyError ConfigItem := do
  let rel ← relationshipOf e
  pure (if rel.target = "" then ci
    else { ci with
      relationships :=
        (ci.relationships.filter fun r => !r.links rel.relType rel.target) ++ [rel] })

def foldUnrelate (ci : ConfigItem) (e : Dict) : ConfigItem :=
  { ci with
    relationships := ci.relationships.filter fun r =>
      !((Json.str r.relType).pyEq (e.get "rel_type") && (Json.str r.target).pyEq (e.get "target")) }

/-- `setattr(ci, key, text)` of one of the four mutable fields. -/
def setMetadata (ci : ConfigItem) (key text : String) : ConfigItem :=
  match key with
  | "name" => { ci with name := text }
  | "description" => { ci with description := text }
  | "owner" => { ci with owner := text }
  | "node" => { ci with node := text }
  | _ => ci

def foldMetadata (env : Env) (ci : ConfigItem) (e : Dict) : Except PyError ConfigItem := do
  (e.get "key").requireHashable
  match e.get "key" with
  | .str key => pure (ci.setMetadata key (env.format (e.getD "value" (.str ""))))
  | _ => pure ci

def foldTag (env : Env) (ci : ConfigItem) (e : Dict) : ConfigItem :=
  if (e.get "tag").truthy then
    let tag := env.format (e.get "tag")
    { ci with
      tags := if tag ∈ ci.tags then ci.tags else ci.tags ++ [tag]
      tagAuthorities :=
        if (e.get "authority").truthy then
          Assoc.set ci.tagAuthorities tag (env.format (e.get "authority"))
        else ci.tagAuthorities }
  else ci

/-- `ci.tag_authorities.get(tag) == authority`. -/
def tagOwnedBy (ci : ConfigItem) (tag : String) (authority : Json) : Bool :=
  (jsonOfOption (Assoc.get? ci.tagAuthorities tag)).pyEq authority

def foldUntag (env : Env) (ci : ConfigItem) (e : Dict) : ConfigItem :=
  if (e.get "tag").truthy then
    let tag := env.format (e.get "tag")
    if !(e.get "authority").truthy || ci.tagOwnedBy tag (e.get "authority") then
      { ci with
        tags := ci.tags.filter fun item => item ≠ tag
        tagAuthorities := Assoc.erase ci.tagAuthorities tag }
    else ci
  else ci

/-- The branches of the loop body. -/
def foldAction (env : Env) (ci : ConfigItem) (e : Dict) : Action → Except PyError ConfigItem
  | .status => pure (ci.foldStatus e)
  | .setAttribute => ci.foldAttribute e
  | .relate => ci.foldRelate e
  | .unrelate => pure (ci.foldUnrelate e)
  | .metadata => ci.foldMetadata env e
  | .tag => pure (ci.foldTag env e)
  | .untag => pure (ci.foldUntag env e)
  | .other => pure ci

/-- `ci.updated_at = e.get("ts", ci.updated_at)`. -/
def touch (ci : ConfigItem) (e : Dict) : ConfigItem :=
  { ci with updatedAt := e.getD "ts" ci.updatedAt }

/-- One turn of the loop. -/
def step (env : Env) (ci : ConfigItem) (e : Dict) : Except PyError ConfigItem := do
  let ci ← ci.foldAction env e (Action.of e)
  pure (ci.touch e)

end ConfigItem

end SkCoord.Cmdb
