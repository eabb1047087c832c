import SkCoord.Coordination.Parity
import SkCoord.Python.Glob
import SkCoord.Python.JsonFile

/-!
# Helpers

The owner of a claimed card delegates parts of its work to helpers: cards of their own that name
their parent and the paths they may write.  `validateHelperRequest` is `validate_helper_request`, one
definition for each group of its checks, and `createHelperTask` runs it before the explicit creation
of the card.
-/

namespace SkCoord

open Python

/-- What `urlsplit` finds in an address. -/
structure SplitResult where
  scheme : String
  hostname : Option String := none
  username : Option String := none
  password : Option String := none
  query : String := ""
  fragment : String := ""

/-- What the creation of a helper reads of its environment. -/
structure HelperEnv where
  creation : CreationEnv
  tables : CharTables
  floats : FloatText
  /-- `hashlib.sha256(s.encode()).hexdigest()`. -/
  sha256 : List Char → String
  /-- `urlsplit`, whose checks of a host depend on the interpreter. -/
  urlsplit : String → Except PyError SplitResult

/-- The environment of the store. -/
def HelperEnv.env (env : HelperEnv) : Env := env.creation.env

/-! ### Fields and labels -/

/-- `_SOURCE`. -/
def sourceFields : List String := ["repository", "base_ref", "base_revision"]

/-- `_HELPER`. -/
def helperFields : List String :=
  ["helper_request_id", "helper_parent_id", "helper_parent_claim_revision", "helper_objective",
    "helper_allowed_paths", "helper_verification", "helper_parent_contract_sha256",
    "logical_route"]

/-- `_ROUTES`. -/
def routes : List String :=
  ["sk-s", "sk-m", "sk-l", "sk-xl"] ++
    ["codex", "deepseek", "glm", "zai"].flatMap fun family =>
      ["s", "m", "l"].map fun size => "sk-" ++ family ++ "-" ++ size

/-- `[a-z]`. -/
def isLowerLetter (c : Char) : Bool := 'a' ≤ c && c ≤ 'z'

/-- `label.strip().lower()`, as far as a comparison with ASCII text can tell. -/
def routeText (label : String) : List Char := lower (strip label)

/-- `_is_route_label`. -/
def isRouteLabel (label : String) : Bool :=
  match routeText label with
  | 's' :: 'k' :: '-' :: l =>
    l.takeWhile isLowerLetter ≠ [] &&
      match l.dropWhile isLowerLetter with
      | [] => true
      | '-' :: m => m ≠ [] && m.all isLowerLetter
      | _ => false
  | _ => false

/-- `label.strip().lower() == route`. -/
def selectsRoute (route label : String) : Bool := routeText label = route.toList

/-- Two lists hold the same texts. -/
def sameTexts (l m : List String) : Bool := l.all m.contains && m.all l.contains

/-! ### Digests -/

/-- `task.model_dump(mode="json")`. -/
def Task.dump (task : Task) : Json :=
  .obj
    [("id", .str task.id),
      ("title", .str task.title),
      ("description", .str task.description),
      ("priority", .str task.priority.value),
      ("tags", .arr (task.tags.map .str)),
      ("created_by", .str task.createdBy),
      ("created_at", .str task.createdAt),
      ("acceptance_criteria", .arr (task.acceptanceCriteria.map .str)),
      ("dependencies", .arr (task.dependencies.map .str)),
      ("notes", .arr (task.notes.map .str)),
      ("meta", .obj task.metaData)]

namespace HelperEnv

variable (env : HelperEnv)

/-- `explicit_creation_request_digest`. -/
def explicitCreationRequestDigest (request : Json) : String :=
  env.sha256 (request.canonical env.floats)

/-- `parent_contract_digest`. -/
def parentContractDigest (parent : Card) : String :=
  env.explicitCreationRequestDigest
    (.obj
      [("title", parent.title),
        ("description", parent.description),
        ("acceptance_criteria", .arr (parent.acceptanceCriteria.map .str))])

/-- The identifier of the helper of a request. -/
def helperId (parentId requestId : String) : String :=
  String.ofList ((env.sha256 (parentId ++ ":" ++ requestId).toList).toList.take 8)

end HelperEnv

/-! ### Lists and paths -/

/-- The texts of a list of non-blank texts of bounded length. -/
def boundedTexts : List Json → Option (List String)
  | [] => some []
  | .str s :: l =>
    if isBlank s || decide (4096 < s.toList.length) then none else (boundedTexts l).map (s :: ·)
  | _ :: _ => none

/-- `_strings`. -/
def stringsOf (value : Json) (name : String) (empty : Bool) : Except PyError (List String) :=
  let unbounded := PyError.value (name ++ " must be a bounded list")
  match value with
  | .arr l =>
    if (l = [] ∧ empty = false) ∨ 64 < l.length then throw unbounded
    else match boundedTexts l with
      | none => throw (.value (name ++ " must contain nonempty strings"))
      | some texts =>
        if texts.Nodup then pure texts else throw (.value (name ++ " contains duplicates"))
  | _ => throw unbounded

/-- The parts of a literal repository path. -/
def literalPath (value : String) : Except PyError (List String) :=
  let path := pathParts value
  if isAbsolutePath value || pathStr path != value || value == "." ||
      path.any (fun part => part == ".." || part == ".git") ||
      value.toList.any (fun c => "\\\x00*?[]".toList.contains c) then
    throw (.value "helper_allowed_paths must be literal repository paths")
  else pure path

/-- `_paths`. -/
def pathsOf (value : Json) : Except PyError (List (List String)) := do
  let paths ← stringsOf value "helper_allowed_paths" true
  paths.mapM literalPath

/-- `a == b or a in b.parents or b in a.parents`. -/
def pathsOverlap (a b : List String) : Bool :=
  a == b || (pathParents b).contains a || (pathParents a).contains b

/-! ### The source of the parent -/

/-- `mapping.get(key)` of the links of a card. -/
def Card.linkValue (c : Card) (key : String) : Json :=
  ((c.links.find? fun p => p.1.pyEq (.str key)).map Prod.snd).getD .null

/-- The text that one mapping of the parent has for a field, if it has one. -/
def sourceText (u : CharTables) (key : String) : Json → Except PyError (List String)
  | .null => pure []
  | .str s =>
    if isBlank s then pure []
    else pure [if key = "base_revision" then u.lower (strip s) else strip s]
  | _ => throw (.value ("parent " ++ key ++ " must be a string"))

/-- The value of a field that `meta` and `links` of the parent agree on. -/
def sourceValue (u : CharTables) (parent : Card) (key : String) : Except PyError String := do
  let inMeta ← sourceText u key (Dict.get parent.metaData key)
  let inLinks ← sourceText u key (parent.linkValue key)
  match inMeta ++ inLinks with
  | [] => throw (.value ("parent " ++ key ++ " is missing or conflicting"))
  | v :: rest =>
    if rest.all (· == v) then pure v
    else throw (.value ("parent " ++ key ++ " is missing or conflicting"))

/-- An address is `https`, with a host and without credentials, a query or a fragment. -/
def SplitResult.isPlain (url : SplitResult) : Bool :=
  url.scheme == "https" && url.hostname.getD "" != "" && url.username.getD "" == "" &&
    url.password.getD "" == "" && url.query == "" && url.fragment == ""

/-- `_binding`. -/
def HelperEnv.binding (env : HelperEnv) (parent : Card) :
    Except PyError (List (String × String)) := do
  let repository ← sourceValue env.tables parent "repository"
  let baseRef ← sourceValue env.tables parent "base_ref"
  let baseRevision ← sourceValue env.tables parent "base_revision"
  let url ← env.urlsplit repository
  if url.isPlain = false then
    throw (.value "parent repository must be credential-free HTTPS")
  else if isHex 40 baseRevision = false then
    throw (.value "parent base_revision must be an exact commit")
  else if baseRef.toList.any (fun c => isSpace c || c.toNat < 32) then
    throw (.value "parent base_ref must be a named ref")
  else
    pure [("repository", repository), ("base_ref", baseRef), ("base_revision", baseRevision)]

/-! ### `validate_helper_request` -/

/-- The checks of the parent and of its claim. -/
def HelperEnv.requireParent (env : HelperEnv) (st : Store) (actor parentId revision : String) :
    Except PyError Card := do
  match ← st.fold env.env parentId with
  | none => throw notCurrent
  | some parent =>
    if parent.archived || (Dict.get parent.metaData "voided").truthy ||
        !(parent.status == .ready || parent.status == .doing) ||
        !parent.owner.pyEq (.str actor) || actor == "" || revision == "" ||
        !(Dict.get parent.metaData "_claim_revision").pyEq (.str revision) ||
        (Dict.get parent.metaData "claim_conflicts").truthy then
      throw notCurrent
    else pure parent
where
  notCurrent := PyError.value "helper parent owner/claim is not current and active"

/-- `label.lower().startswith("seat-") or label.lower() == "review"`. -/
def isSeatLabel (label : Json) : Except PyError Bool :=
  match label with
  | .str s => pure ("seat-".toList.isPrefixOf (lower s) || lower s == "review".toList)
  | v => throw (.attr ("'" ++ v.typeName ++ "' object has no attribute 'lower'"))

/-- `re.search(r"\[(?:REVIEW|REREVIEW)\]", title, re.I)`. -/
def isReviewTitle (title : String) : Bool :=
  searchIgnoreCase "[review]" title || searchIgnoreCase "[rereview]" title

/-- A task that is no helper and no review. -/
def requireDelegable (parent : Card) : Except PyError Unit := do
  if parent.kind != .task || (Dict.get parent.metaData "helper_parent_id").truthy then
    throw governed
  else if ← parent.labels.anyM isSeatLabel then throw governed
  else
    match parent.title with
    | .str title => if isReviewTitle title then throw governed else pure ()
    | _ => throw (.type "expected string or bytes-like object")
where
  governed := PyError.value "governed reviewers and helpers cannot delegate helpers"

/-- `re.fullmatch(r"[A-Za-z0-9][A-Za-z0-9_.-]{0,63}", s)`. -/
def isRequestId (s : String) : Bool :=
  match s.toList with
  | [] => false
  | c :: l =>
    c.isAlphanum && l.length ≤ 63 &&
      l.all fun d => d.isAlphanum || d == '_' || d == '.' || d == '-'

/-- The checks of the metadata against the parent. -/
def HelperEnv.requireContract (env : HelperEnv) (parent : Card) (task : Task)
    (actor parentId revision : String) : Except PyError Unit :=
  let field := Dict.get task.metaData
  if task.createdBy ≠ actor ∨ task.createdAt ≠ parent.createdAt then
    throw (.value "helper creator and stable creation time must match its parent")
  else if sameTexts (Assoc.keys task.metaData) (sourceFields ++ helperFields) = false then
    throw (.value "helper metadata must contain only source and helper contract fields")
  else if !(field "helper_parent_contract_sha256").pyEq (.str (env.parentContractDigest parent)) then
    throw (.value "helper parent contract changed before creation")
  else
    match field "helper_request_id" with
    | .str requestId =>
      if isRequestId requestId = false then
        throw (.value "helper_request_id must be a stable request identifier")
      else if task.id ≠ env.helperId parentId requestId then
        throw (.value "helper ID must bind its parent and request")
      else if !(field "helper_parent_id").pyEq (.str parentId) ||
          !(field "helper_parent_claim_revision").pyEq (.str revision) then
        throw (.value "helper metadata does not match the parent's current claim")
      else pure ()
    | _ => throw (.value "helper_request_id must be a stable request identifier")

/-- The source of the task is that of its parent. -/
def HelperEnv.requireSource (env : HelperEnv) (parent : Card) (task : Task) :
    Except PyError Unit := do
  let binding ← env.binding parent
  match binding.find? fun p => !(Dict.get task.metaData p.1).pyEq (.str p.2) with
  | some (key, _) => throw (.value ("helper " ++ key ++ " must match its parent's exact source"))
  | none => pure ()

/-- The labels of the parent that are no route, or belong to a card by their prefix. -/
def keptLabels (labels : List String) : List String :=
  labels.filter fun label => "parent-".toList.isPrefixOf label.toList || !isRouteLabel label

/-- The checks of the route and of the tags; the labels of the parent are texts here. -/
def requireTags (parent : Card) (task : Task) (parentId : String) : Except PyError Unit :=
  let labels := parent.labels.filterMap fun
    | .str s => some s
    | _ => none
  match Dict.get task.metaData "logical_route" with
  | .str route =>
    if route ∉ routes then throw unsupported
    else if labels.any fun label => isRouteLabel label && !(routes.any (selectsRoute · label)) then
      throw (.value "helper parent has an unsupported inherited route")
    else if task.tags.countP (fun label => isRouteLabel label && selectsRoute route label) ≠ 1 then
      throw (.value "helper must carry exactly one occurrence of the selected route tag")
    else if task.tags.any fun label => isRouteLabel label && !selectsRoute route label then
      throw (.value "helper must not carry a second exact route tag")
    else if sameTexts task.tags (keptLabels labels ++
        ["source-only", "owner-helper", "parent-" ++ parentId, route]) = false then
      throw (.value "helper must preserve parent restrictions without granting new ones")
    else pure ()
  | _ => throw unsupported
where
  unsupported := PyError.value "helper logical_route is not a supported exact route"

/-- The dependencies of the task are those of its parent. -/
def requireSameDependencies (parent : Card) (task : Task) (parentId : String) :
    Except PyError Unit :=
  if sameTexts task.dependencies parent.dependencies = false ∨ parentId ∈ task.dependencies ∨
      task.id ∈ task.dependencies then
    throw (.value "helper must retain external dependencies without a parent cycle")
  else pure ()

/-- `re.findall(r"\[(?:S|M|L|XL)\]", title)`. -/
def titleSizes (title : String) : List String :=
  title.toList.tails.filterMap fun l =>
    ["[S]", "[M]", "[L]", "[XL]"].find? fun size => size.toList.isPrefixOf l

/-- The checks of the title, of the lists and of the objective. -/
def requireContent (task : Task) : Except PyError Unit := do
  if !(titleSizes task.title == ["[S]"] || titleSizes task.title == ["[M]"]) ||
      isReviewTitle task.title then
    throw (.value "helper needs a bounded source title")
  else
    let _ ← stringsOf (.arr (task.acceptanceCriteria.map .str)) "acceptance_criteria" false
    let _ ← stringsOf (Dict.get task.metaData "helper_verification") "helper_verification" false
    match Dict.get task.metaData "helper_objective" with
    | .str objective =>
      if isBlank objective || decide (8192 < objective.toList.length) then throw unbounded
      else pure ()
    | _ => throw unbounded
where
  unbounded := PyError.value "helper_objective must identify a bounded output"

/-- The turn of the last loop for one card of the store. -/
def requireDisjoint (task : Task) (parentId : String) (paths : List (List String))
    (other : Card) : Except PyError Unit :=
  if other.id = task.id ∨ other.archived = true ∨ (Dict.get other.metaData "voided").truthy = true ∨
      other.status = .done ∨
      (Dict.get other.metaData "helper_parent_id").pyEq (.str parentId) = false then
    pure ()
  else do
    let otherPaths ← pathsOf (Dict.get other.metaData "helper_allowed_paths")
    if paths.any fun a => otherPaths.any (pathsOverlap a) then
      throw (.value ("helper write paths overlap active helper " ++ other.id))
    else pure ()

/-- `validate_helper_request`. -/
def HelperEnv.validateHelperRequest (env : HelperEnv) (st : Store) (task : Task)
    (digest actor parentId revision : String) : Except PyError Unit := do
  let parent ← env.requireParent st actor parentId revision
  requireDelegable parent
  env.requireContract parent task actor parentId revision
  env.requireSource parent task
  requireTags parent task parentId
  requireSameDependencies parent task parentId
  requireContent task
  let paths ← pathsOf (Dict.get task.metaData "helper_allowed_paths")
  if digest ≠ env.explicitCreationRequestDigest task.dump then
    throw (.value "helper request digest does not match its exact content")
  else if paths = [] then pure ()
  else
    let cards ← st.listCards env.env false
    let _ ← cards.mapM (requireDisjoint task parentId paths)
    pure ()

/-! ### `create_helper_task` -/

/-- The file of a task in the legacy directory. -/
inductive Projection where
  | irregular
  | unreadable
  | file (stored : Task)

/-- The store, and the task files of the legacy directory by name. -/
structure HelperHome where
  creation : CreationState := {}
  projections : Assoc String Projection := []

/-- What befalls the steps of a call. -/
structure HelperPlan where
  create : Plan := {}
  projection : Fault := .ok
  /-- An unsafe projection can be removed. -/
  unlinks : Bool := true

/-- The arguments of `create_helper_task`. -/
structure HelperCall where
  task : Task
  digest : String
  actor : String
  parentId : String
  expectedClaimRevision : String

namespace HelperEnv

variable (env : HelperEnv)

/-- A statement on the store. -/
def onCreation {α : Type} (x : Effect CreationState α) : Effect HelperHome α := fun s =>
  let (result, creation) := x.run s.creation
  (result, { s with creation := creation })

/-- `_create_explicit_task_unlocked`. -/
def createExplicitTaskUnlocked (plan : HelperPlan) (task : Task) (digest actor : String) :
    Effect HelperHome String := do
  let path := task.fileName env.tables
  let created ← onCreation
    (createExplicit env.creation plan.create (task.core env.tables) digest actor)
  let s ← Effect.get
  match created, Assoc.get? s.projections path with
  | false, some .irregular => do
    (if plan.unlinks then Effect.modify fun s =>
        { s with projections := Assoc.erase s.projections path }
      else pure ())
    .raise (.value "legacy projection is unsafe")
  | false, some .unreadable => .raise (creationConflict task.id)
  | false, some (.file stored) =>
    if stored.dump.pyEq task.dump then pure path else .raise (creationConflict task.id)
  | _, _ => do
    Effect.ioAtomic plan.projection fun s =>
      { s with projections := Assoc.set s.projections path (.file task) }
    pure path

/-- The checks of a call under its locks. -/
def validateCall (st : Store) (call : HelperCall) : Except PyError Unit := do
  st.requireLockAnchor env.env call.parentId
  env.validateHelperRequest st call.task call.digest call.actor call.parentId
    call.expectedClaimRevision

/-- `create_helper_task`. -/
def createHelperTask (plan : HelperPlan) (call : HelperCall) : Effect HelperHome String := do
  let s ← Effect.get
  Effect.lift (env.validateCall s.creation.store call)
  env.createExplicitTaskUnlocked plan call.task call.digest call.actor

end HelperEnv

end SkCoord
