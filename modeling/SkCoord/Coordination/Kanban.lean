import SkCoord.CardStore.Overlay
import SkCoord.Coordination.Board

/-!
# The legacy kanban projection

`KanbanBoard.cards` without the store: the task views of the files, the records of the ITIL store,
and over both the patches that the overlay folds to.  The projection takes three facts from the
store all the same: the current criteria and dependencies of a task, and whether a card is voided.
-/

namespace SkCoord

open Python

/-! ### The overlay -/

/-- What the overlay says about one card. -/
structure Patch where
  column : Option String := none
  order : Option Int := none
  priority : Option String := none
  swimlane : Option String := none
  labels : List String := []
  links : Assoc String (Option String) := []
  owner : Option String := none
  ownerSet : Bool := false
  title : Option String := none
  description : Option String := none

/-- One event on the patch of its card. -/
def Patch.apply (p : Patch) (e : CardEvent) : Patch :=
  match e.action with
  | "move" => { p with column := e.column.or p.column, order := e.order.or p.order }
  | "set_priority" => { p with priority := e.priority.or p.priority }
  | "set_swimlane" => { p with swimlane := e.swimlane.or p.swimlane }
  | "add_label" =>
    match e.label with
    | some label =>
      if label ≠ "" ∧ label ∉ p.labels then { p with labels := p.labels ++ [label] } else p
    | none => p
  | "remove_label" => { p with labels := e.label.elim p.labels p.labels.erase }
  | "link" =>
    match e.linkKey with
    | some key => { p with links := Assoc.set p.links key e.linkValue }
    | none => p
  | "assign" =>
    if e.owner.any (· ≠ "") then { p with owner := e.owner, ownerSet := true } else p
  | "unassign" => { p with owner := none, ownerSet := true }
  | "describe" =>
    { p with title := e.title.or p.title, description := e.description.or p.description }
  | _ => p

/-- `(e.ts, e.writer, e.seq)`. -/
def CardEvent.order3 (e : CardEvent) : String ×ₗ String ×ₗ Int :=
  toLex (e.ts, toLex (e.writer, e.seq))

/-- `sorted(events, key=lambda e: (e.ts, e.writer, e.seq))`. -/
def sortedOverlay (events : List CardEvent) : List CardEvent :=
  events.insertionSort fun x y => x.order3 ≤ y.order3

/-- `fold_overlay`. -/
def foldOverlay (events : List CardEvent) : Assoc String Patch :=
  (sortedOverlay events).foldl (fun overlay e =>
    Assoc.set overlay e.cardId (((Assoc.get? overlay e.cardId).getD {}).apply e)) []

/-- A card under its patch. -/
def Patch.patch (p : Patch) (c : Card) : Card :=
  { c with
    status := (p.column.bind Column.ofValue?).getD c.status
    order := (p.order.map Json.int).getD c.order
    priority := ((p.priority.filter (· ≠ "")).map Json.str).getD c.priority
    swimlane := ((p.swimlane.filter (· ≠ "")).map Json.str).getD c.swimlane
    labels := p.labels.foldl (fun labels label =>
      if (Json.str label).mem labels then labels else labels ++ [.str label]) c.labels
    links := p.links.foldl (fun links l =>
      Card.setLink (.str l.1) (jsonOfOption l.2) links) c.links
    owner := if p.ownerSet then jsonOfOption p.owner else c.owner
    title := (p.title.map Json.str).getD c.title
    description := (p.description.map Json.str).getD c.description }

/-! ### Tasks -/

/-- `card_from_taskview`. -/
def cardFromTaskview (u : CharTables) (t : Task) (v : TaskView) : Card where
  id := t.id
  kind := if "epic" ∈ t.tags.map u.lower then .epic else .task
  title := .str t.title
  description := .str t.description
  status := v.status.column
  swimlane := .str (Task.swimlaneForTags u t.tags)
  priority := .str t.priority.value
  originator := t.createdBy
  owner := jsonOfOption v.claimedBy
  order := .int 0
  labels := t.tags.map .str
  acceptanceCriteria := t.acceptanceCriteria
  dependencies := t.dependencies
  links := []
  metaData := if v.status = .blocked then Assoc.set t.metaData "blocked" (.bool true) else t.metaData
  archived := false
  createdAt := t.createdAt
  updatedAt := .str ""
  source := "coord"

/-- `current_acceptance_criteria`. -/
def currentCriteria (env : BoardEnv) (b : Board) (t : Task) : Except PyError (List String) := do
  let card ← Store.fold env.env b.store t.id
  match card with
  | some c => pure c.acceptanceCriteria
  | none =>
    if (Assoc.get? b.store.cards t.id).isSome then
      throw (.value ("CardStore core for " ++ t.id ++ " is missing"))
    else pure t.acceptanceCriteria

/-- The tasks of `_legacy_task_views`, under the amendments of their cards. -/
def legacyTasks (env : BoardEnv) (b : Board) (includeArchived : Bool) :
    Except PyError (List Task) := do
  let tasks := b.loadTasks env includeArchived
  let criteria ← tasks.mapM (currentCriteria env b)
  let tasks := List.zipWith (fun t c => { t with acceptanceCriteria := c }) tasks criteria
  match tasks.mapM (currentDependenciesOf env b) with
  | .ok dependencies =>
    pure (List.zipWith (fun t d => { t with dependencies := d }) tasks dependencies)
  | .error _ => pure tasks

/-! ### ITIL records -/

/-- A record of the ITIL store, as far as the board shows it. -/
inductive ItilRecord where
  | incident (id title status severity : String)
  | problem (id title status : String)
  | change (id title status : String) (metaFields : Dict)

/-- `_INCIDENT_COLUMN`. -/
def incidentColumn (status : String) : Column :=
  match status with
  | "resolved" => .review
  | "closed" => .done
  | _ => .doing

/-- `_PROBLEM_COLUMN`. -/
def problemColumn (status : String) : Column :=
  match status with
  | "identified" => .ready
  | "known_error" => .review
  | "resolved" => .done
  | _ => .doing

/-- `_CHANGE_COLUMN`. -/
def changeColumn (status : String) : Column :=
  match status with
  | "reviewing" => .ready
  | "approved" => .ready
  | "scheduled" => .ready
  | "implementing" => .doing
  | "failed" => .doing
  | "deployed" => .review
  | "verified" => .done
  | "closed" => .done
  | "rejected" => .done
  | _ => .backlog

/-- The card of an ITIL record. -/
def cardFromItil : ItilRecord → Card
  | .incident id title status severity =>
    itilCard id title .incident (incidentColumn status) "expedite" "high"
      [("severity", .str severity), ("itil_status", .str status)]
  | .problem id title status =>
    itilCard id title .problem (problemColumn status) "problem" "medium"
      [("itil_status", .str status)]
  | .change id title status metaFields =>
    itilCard id title .change (changeColumn status) "change" "medium"
      (("itil_status", .str status) :: metaFields)
where
  itilCard (id title : String) (kind : Kind) (status : Column) (swimlane priority : String)
      (metaData : Dict) : Card :=
    { id, kind, title := .str title, description := .str "", status, swimlane := .str swimlane
      priority := .str priority, originator := "", owner := .null, order := .int 0, labels := []
      acceptanceCriteria := [], dependencies := [], links := [], metaData, archived := false
      createdAt := "", updatedAt := .str "", source := "itil" }

/-! ### The projection -/

/-- The shared home of the board: its files and cards, the archive index, the overlay, the ITIL
records and the tasks whose file carries a `status`.  The mutations in the store of `board` are
those of the index and the overlay. -/
structure KanbanHome where
  board : Board := {}
  archive : List ArchiveEntry := []
  shards : Assoc String (List OverlayLine) := []
  itil : List ItilRecord := []
  statusIds : List String := []

namespace KanbanHome

/-- The home as far as cards are concerned. -/
def home (k : KanbanHome) : Home :=
  { cards := k.board.store.cards, archive := k.archive, shards := k.shards }

/-- The events of the overlay. -/
def overlay (env : BoardEnv) (k : KanbanHome) : List CardEvent := k.home.overlay env.env

/-- `CardStore(home)`. -/
def store (env : BoardEnv) (k : KanbanHome) : Store := k.home.store env.env

/-- `Board(home)`. -/
def openBoard (env : BoardEnv) (k : KanbanHome) : Board := k.board.setStore (k.store env)

/-- A call on the board of the home. -/
def onBoard {α : Type} (env : BoardEnv) (x : Effect Board α) (k : KanbanHome) :
    Except PyError α × KanbanHome :=
  let (r, board) := x.run (k.openBoard env)
  (r, { k with board })

end KanbanHome

/-- `KanbanBoard.cards` under a forced legacy read, before the overlay. -/
def projectedCards (env : BoardEnv) (b : Board) (itil : List ItilRecord) (includeArchived : Bool) :
    Except PyError (List Card) := do
  let tasks ← legacyTasks env b includeArchived
  let agents := b.loadAgents env
  let cards := tasks.map fun t =>
    let c := cardFromTaskview env.tables t (legacyTaskView agents t t.dependencies)
    { c with archived := decide (c.id ∈ b.archivedIds) }
  pure (cards ++ itil.map cardFromItil)

/-- A card of the store has a `void` in its logs. -/
def isVoidedCard (env : Env) (st : Store) (cardId : String) : Except PyError Bool := do
  let events ← st.readEvents env cardId
  pure (events.any fun e => (Dict.get e "action").pyEq (.str "void"))

/-- A card under the overlay; a voided card is archived and keeps nothing else. -/
def overlaid (overlay : Assoc String Patch) (c : Card) (voided : Bool) : Card :=
  if voided then { c with archived := true, owner := .null }
  else
    match Assoc.get? overlay c.id with
    | some p => p.patch c
    | none => c

/-- `KanbanBoard.cards` under a forced legacy read. -/
def legacyCards (env : BoardEnv) (k : KanbanHome) (includeArchived : Bool) :
    Except PyError (List Card) := do
  let b := k.openBoard env
  let out ← projectedCards env b k.itil includeArchived
  let voided ← out.mapM fun c => isVoidedCard env.env b.store c.id
  let out := List.zipWith (overlaid (foldOverlay (k.overlay env))) out voided
  pure (if includeArchived then out else out.filter fun c => !c.archived)

end SkCoord
