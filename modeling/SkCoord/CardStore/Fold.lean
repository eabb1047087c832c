import SkCoord.CardStore.Card

/-!
# `CardStore.fold`

The state of a card is its core with the events of its logs applied in order.  `foldInit` is the
card at birth, `step` the loop body, one definition for each branch, and `foldEvents` the loop.
A branch that Python leaves with an exception leaves the fold with it.
-/

namespace SkCoord

open Python

namespace Card

/-- `col in {c.value for c in Column}`, with the column it names. -/
def columnOf (col : Json) : Except PyError (Option Column) := do
  col.requireHashable
  match col with
  | .str s => pure (Column.ofValue? s)
  | _ => pure none

/-! ### Ownership and columns -/

def foldVoid (c : Card) (e : Event) : Card :=
  let md := Assoc.erase c.metaData "_claim_revision"
  let md := Assoc.set md "voided" (.bool true)
  let md := Assoc.set md "voided_at" (e.get "ts")
  let md := Assoc.set md "voided_by" (e.get "writer")
  { c with archived := true, owner := .null, metaData := md }

def foldMove (c : Card) (e : Event) : Except PyError Card := do
  let col ← columnOf (e.get "column")
  let c := { c with status := col.getD c.status }
  pure (if (e.get "order").isNone then c else { c with order := e.get "order" })

def foldAssign (c : Card) (e : Event) : Card :=
  { c with owner := e.get "owner", metaData := Assoc.erase c.metaData "_claim_revision" }

def foldUnassign (c : Card) : Card :=
  { c with owner := .null, metaData := Assoc.erase c.metaData "_claim_revision" }

/-- A recorded conflict that a release of `owner` at `revision` names. -/
def conflictMatches (owner revision conflict : Json) : Bool :=
  conflict.isDict && (conflict.field "owner").pyEq owner &&
    (conflict.field "claim_revision").pyEq revision

/-- `valid_release`. -/
def validRelease (e : Event) : Bool :=
  (e.get "released_owner").isNonEmptyStr && (e.get "expected_claim_revision").isNonEmptyStr

/-- `releases_current`. -/
def releasesCurrent (c : Card) (e : Event) : Bool :=
  validRelease e && c.owner.pyEq (e.get "released_owner") &&
    (Dict.get c.metaData "_claim_revision").pyEq (e.get "expected_claim_revision")

/-- `releases_conflict`, for the conflicts that match. -/
def releasesConflict (c : Card) (e : Event) (matching : List Json) : Bool :=
  match matching with
  | [conflict] =>
    let actual := Dict.get c.metaData "_claim_revision"
    validRelease e && actual.isNonEmptyStr && c.owner.pyEq (conflict.field "existing_owner") &&
      actual.pyEq (conflict.field "existing_claim_revision")
  | _ => false

def foldReleaseClaim (c : Card) (e : Event) : Except PyError Card := do
  let conflicts ← (Dict.getD c.metaData "claim_conflicts" (.arr [])).iter
  let isMatch := conflictMatches (e.get "released_owner") (e.get "expected_claim_revision")
  if releasesCurrent c e then
    pure { c with
      owner := .null
      status := .backlog
      metaData := Assoc.erase c.metaData "_claim_revision" }
  else if releasesConflict c e (conflicts.filter isMatch) then
    -- exactly one conflict matches, so dropping that object is dropping what matches
    let remaining := conflicts.filter fun conflict => !isMatch conflict
    pure { c with
      metaData :=
        if remaining.isEmpty then Assoc.erase c.metaData "claim_conflicts"
        else Assoc.set c.metaData "claim_conflicts" (.arr remaining) }
  else
    let entries ← (Dict.getD c.metaData "release_conflicts" (.arr [])).append (.obj
      [("event_id", e.get "event_id"),
        ("reason", .str "claim precondition did not match"),
        ("released_owner", e.get "released_owner"),
        ("expected_claim_revision", e.get "expected_claim_revision"),
        ("actual_owner", c.owner),
        ("actual_claim_revision", Dict.get c.metaData "_claim_revision")])
    pure { c with metaData := Assoc.set c.metaData "release_conflicts" entries }

/-- A claim of an active card that somebody else owns. -/
def claimConflicts (c : Card) (e : Event) : Bool :=
  (e.get "owner").isNonEmptyStr && c.owner.truthy && !c.owner.pyEq (e.get "owner") &&
    c.status.isActive

/-- The entry that a losing claim leaves in `claim_conflicts`. -/
def conflictEntry (c : Card) (e : Event) : Json :=
  .obj
    [("event_id", e.get "event_id"),
      ("owner", e.get "owner"),
      ("claim_revision", e.get "claim_revision"),
      ("existing_owner", c.owner),
      ("existing_claim_revision", Dict.get c.metaData "_claim_revision"),
      ("reason", .str "concurrent claim requires explicit release or completion")]

/-- The revision of a claim event. -/
def claimRevision (e : Event) : Json := (e.get "claim_revision").orElse (e.get "event_id")

def foldClaim (c : Card) (e : Event) : Except PyError Card :=
  if claimConflicts c e then do
    let entries ← (Dict.getD c.metaData "claim_conflicts" (.arr [])).append (conflictEntry c e)
    pure { c with metaData := Assoc.set c.metaData "claim_conflicts" entries }
  else
    let wasUnownedBacklog := c.owner.isNone && c.status == .backlog
    let md :=
      if (claimRevision e).isNonEmptyStr then
        Assoc.set c.metaData "_claim_revision" (claimRevision e)
      else Assoc.erase c.metaData "_claim_revision"
    let md :=
      if wasUnownedBacklog && (e.get "owner").truthy then Assoc.erase md "claim_conflicts" else md
    pure { c with owner := e.get "owner", status := .doing, metaData := md }

def foldComplete (c : Card) : Card :=
  { c with
    status := .done
    owner := .null
    metaData := Assoc.erase c.metaData "_claim_revision" }

def foldArchive (c : Card) (e : Event) : Card :=
  let md := Assoc.set c.metaData "archived_at" (e.get "ts")
  { c with archived := true, metaData := Assoc.set md "archived_by" (e.get "writer") }

def foldReopen (c : Card) (e : Event) : Except PyError Card := do
  let col ← columnOf (e.get "column")
  pure { c with archived := false, status := col.getD c.status }

/-! ### Presentation -/

def foldPriority (c : Card) (e : Event) : Card :=
  if (e.get "priority").truthy then { c with priority := e.get "priority" } else c

def foldSwimlane (c : Card) (e : Event) : Card :=
  if (e.get "swimlane").truthy then { c with swimlane := e.get "swimlane" } else c

def foldAddLabel (c : Card) (e : Event) : Card :=
  if (e.get "label").truthy && !(e.get "label").mem c.labels then
    { c with labels := c.labels ++ [e.get "label"] }
  else c

def foldRemoveLabel (c : Card) (e : Event) : Card :=
  { c with labels := (e.get "label").remove c.labels }

/-- `links[k] = v`; a key that is equal to a bound one replaces its value. -/
def setLink (k v : Json) : List (Json × Json) → List (Json × Json)
  | [] => [(k, v)]
  | (k', w) :: l => if k'.pyEq k then (k', v) :: l else (k', w) :: setLink k v l

def foldLink (c : Card) (e : Event) : Except PyError Card :=
  if (e.get "link_key").isNone then pure c
  else do
    (e.get "link_key").requireHashable
    pure { c with links := setLink (e.get "link_key") (e.get "link_value") c.links }

def foldDescribe (c : Card) (e : Event) : Card :=
  let c := if (e.get "title").isNone then c else { c with title := e.get "title" }
  if (e.get "description").isNone then c else { c with description := e.get "description" }

/-- The texts of a list of non-blank texts. -/
def criteriaOf : List Json → Option (List String)
  | [] => some []
  | .str s :: l => if isBlank s then none else (criteriaOf l).map (s :: ·)
  | _ :: _ => none

def foldAmendCriteria (cardId : String) (c : Card) (e : Event) : Except PyError Card :=
  let malformed := PyError.value ("CardStore criteria amendment for " ++ cardId ++ " is malformed")
  match e.get "criteria" with
  | .arr [] => throw malformed
  | .arr l => match criteriaOf l with
    | some criteria => pure { c with acceptanceCriteria := criteria }
    | none => throw malformed
  | _ => throw malformed

/-! ### Dependencies -/

/-- `add_dependency` on a list of dependencies. -/
def addDependency (deps : List String) (d : String) : List String :=
  if d ≠ "" ∧ d ∉ deps then deps ++ [d] else deps

def foldAddDependency (c : Card) (e : Event) : Card :=
  match e.get "dependency" with
  | .str d => { c with dependencies := addDependency c.dependencies d }
  | _ => c

def foldRemoveDependency (c : Card) (e : Event) : Card :=
  match e.get "dependency" with
  | .str d => { c with dependencies := c.dependencies.erase d }
  | _ => c

/-! ### Notes and agent runs -/

def foldNote (c : Card) (e : Event) : Except PyError Card :=
  if (e.get "text").truthy then do
    let comments ← (Dict.getD c.metaData "comments" (.arr [])).append
      (.obj [("ts", e.get "ts"), ("writer", e.get "writer"), ("text", e.get "text")])
    pure { c with metaData := Assoc.set c.metaData "comments" comments }
  else pure c

def foldAgentRunRequest (c : Card) (e : Event) : Card :=
  { c with metaData := Assoc.set c.metaData "agent_run" (.obj
      [("run_id", e.get "run_id"),
        ("state", .str "queued"),
        ("instruction", e.getD "instruction" (.str "")),
        ("agent", e.get "run_agent"),
        ("mode", e.getD "mode" (.str "propose")),
        ("kind", e.get "kind"),
        ("requester", e.get "writer"),
        ("created_at", e.get "ts"),
        ("activity", .arr []),
        ("attempts", .int 0),
        ("links", .obj [])]) }

/-- `update` applied to the run in `meta`, when there is one and the event is about it. -/
def withAgentRun (c : Card) (e : Event) (update : Dict → Except PyError Dict) :
    Except PyError Card := do
  let r := Dict.get c.metaData "agent_run"
  if r.truthy then
    let runId ← r.getAttr "run_id"
    match r with
    | .obj d =>
      if runId.pyEq (e.get "run_id") then
        let d ← update d
        pure { c with metaData := Assoc.set c.metaData "agent_run" (.obj d) }
      else pure c
    | _ => pure c
  else pure c

def foldAgentRunClaim (c : Card) (e : Event) : Except PyError Card :=
  withAgentRun c e fun d => do
    let d := Assoc.set d "state" (.str "running")
    let d := Assoc.set d "worker" (e.get "worker")
    let d := Assoc.set d "lease_expires" (e.get "lease_expires")
    let attempts ← (Dict.getD d "attempts" (.int 0)).addOne
    pure (Assoc.set d "attempts" attempts)

def foldAgentRunActivity (c : Card) (e : Event) : Except PyError Card :=
  withAgentRun c e fun d => do
    let activity ← (Dict.getD d "activity" (.arr [])).append (.obj
      [("ts", e.get "ts"), ("atype", e.get "atype"), ("text", e.get "text"),
        ("writer", e.get "writer")])
    pure (Assoc.set d "activity" activity)

def foldAgentRunState (c : Card) (e : Event) : Except PyError Card :=
  withAgentRun c e fun d => do
    let d := Assoc.set d "state" (e.getD "state" (Dict.get d "state"))
    let d := if (e.get "last_error").truthy then Assoc.set d "last_error" (e.get "last_error")
      else d
    ["pr", "commit", "branch", "transcript"].foldlM (fun d k =>
      if (e.get k).truthy then do
        let links ← (Dict.getD d "links" (.obj [])).setItem k (e.get k)
        pure (Assoc.set d "links" links)
      else pure d) d

end Card

/-! ### The loop -/

/-- The variables of the loop. -/
structure FoldState where
  card : Card
  voided : Bool

namespace FoldState

/-- The branches of the loop body below the void. -/
def foldAction (cardId : String) (c : Card) (e : Event) : Action → Except PyError Card
  | .void => pure (c.foldVoid e)
  | .move => c.foldMove e
  | .assign => pure (c.foldAssign e)
  | .unassign => pure c.foldUnassign
  | .releaseClaim => c.foldReleaseClaim e
  | .claim => c.foldClaim e
  | .complete => pure c.foldComplete
  | .priority => pure (c.foldPriority e)
  | .swimlane => pure (c.foldSwimlane e)
  | .addLabel => pure (c.foldAddLabel e)
  | .removeLabel => pure (c.foldRemoveLabel e)
  | .link => c.foldLink e
  | .describe => pure (c.foldDescribe e)
  | .amendCriteria => c.foldAmendCriteria cardId e
  | .addDependency => pure (c.foldAddDependency e)
  | .removeDependency => pure (c.foldRemoveDependency e)
  | .note => c.foldNote e
  | .agentRunRequest => pure (c.foldAgentRunRequest e)
  | .agentRunClaim => c.foldAgentRunClaim e
  | .agentRunActivity => c.foldAgentRunActivity e
  | .agentRunState => c.foldAgentRunState e
  | .archive => pure (c.foldArchive e)
  | .reopen => c.foldReopen e
  | .other => pure c

/-- `card.updated_at = e.get("ts", card.updated_at)`. -/
def touch (c : Card) (e : Event) : Card := { c with updatedAt := e.getD "ts" c.updatedAt }

/-- `action in void_terminal_actions`, which hashes the action. -/
def lookupTerminal (s : FoldState) (e : Event) : Except PyError Unit :=
  if s.voided then (e.get "action").requireHashable else pure ()

/-- One turn of the loop. -/
def step (cardId : String) (s : FoldState) (e : Event) : Except PyError FoldState := do
  lookupTerminal s e
  if s.voided && e.action.isVoidTerminal then pure { s with card := touch s.card e }
  else
    let c ← foldAction cardId s.card e e.action
    pure { card := touch c e, voided := s.voided || e.action == .void }

/-- The loop over a list of events. -/
def foldEvents (cardId : String) (s : FoldState) (events : List Event) :
    Except PyError FoldState :=
  events.foldlM (step cardId) s

end FoldState

/-- An optional text as a JSON value. -/
def jsonOfOption : Option String → Json
  | some s => .str s
  | none => .null

/-- The card before any event. -/
def foldInit (cardId : String) (core : CardCore) : Except PyError FoldState :=
  let card : Card :=
    { id := core.id
      kind := Kind.ofValue core.kind
      title := .str core.title
      description := .str core.description
      status := .backlog
      swimlane := .str core.initialSwimlane
      priority := .str core.initialPriority
      originator := core.createdBy
      owner := jsonOfOption core.initialOwner
      order := .int 0
      labels := core.initialLabels.map .str
      acceptanceCriteria := core.acceptanceCriteria
      dependencies := core.dependencies
      links := []
      metaData := core.metaData
      archived := false
      createdAt := core.createdAt
      updatedAt := .str ""
      source := "cards" }
  match core.initialOwner with
  | none => pure { card := card, voided := false }
  | some _ =>
    match core.initialClaimRevision with
    | some r =>
      if r = "" then
        throw (.value ("CardStore card " ++ cardId ++ " has an owner without a claim revision"))
      else
        pure
          { card := { card with
              status := .doing
              metaData := Assoc.set core.metaData "_claim_revision" (.str r) }
            voided := false }
    | none =>
      throw (.value ("CardStore card " ++ cardId ++ " has an owner without a claim revision"))

/-- `CardStore.fold` of a core and of its events, given in the order in which they fold. -/
def foldCard (cardId : String) (core : CardCore) (events : List Event) :
    Except PyError FoldState := do
  let s ← foldInit cardId core
  s.foldEvents cardId events

end SkCoord
