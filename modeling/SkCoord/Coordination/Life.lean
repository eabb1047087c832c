import SkCoord.Coordination.Claims

/-!
# The life of a task

What both boards are about: a task is free, held by an agent at a claim revision, or done.  A board
is in step when the projection of its files and the fold of its cards show the same for every task.
`BoardCall.KeepsStep` is what a call must not do for the board to stay in step.
-/

namespace SkCoord

open Python

/-- What a task is up to. -/
inductive Life where
  | free
  | held (owner revision : String)
  | done
  deriving DecidableEq, Repr

/-- The life of every task that there is. -/
abbrev Lives := String → Option Life

/-- Nobody else holds the task, and it is not done. -/
def Life.OpenTo (agentName : String) : Life → Prop
  | free => True
  | held owner _ => owner = agentName
  | done => False

/-! ### What shows a life -/

/-- A card that is listed as a task. -/
structure Card.IsTask (c : Card) (cardId : String) : Prop where
  id : c.id = cardId
  kind : c.kind = .task ∨ c.kind = .epic
  title : ∃ t, c.title = .str t
  description : ∃ t, c.description = .str t
  labels : ∀ l ∈ c.labels, ∃ t, l = .str t
  archived : c.archived = false

/-- A folded card shows a life. -/
def Card.Shows (c : Card) : Life → Prop
  | .free => c.owner = .null ∧ c.status = .backlog
  | .held owner revision =>
    c.owner = .str owner ∧ (c.status = .ready ∨ c.status = .doing) ∧
      Assoc.get? c.metaData "_claim_revision" = some (.str revision) ∧ owner ≠ "" ∧ revision ≠ ""
  | .done => c.owner = .null ∧ c.status = .done

/-- A view of a task shows a life. -/
def TaskView.Shows (v : TaskView) : Life → Prop
  | .free => v.status = .opened ∧ v.claimedBy = none
  | .held owner _ => (v.status = .claimed ∨ v.status = .inProgress) ∧ v.claimedBy = some owner
  | .done => v.status = .done ∧ v.claimedBy = none

/-! ### Boards in step -/

/-- A view of the files and a card of the store agree on the bucket and on the owner. -/
structure TaskView.AgreesWith (v : TaskView) (c : Card) : Prop where
  bucket : v.status.column.bucket = c.status.bucket
  owner : jsonOfOption v.claimedBy = c.owner

/-- The projection of the files has a view of every card, and each view agrees with the fold of its
card. -/
structure Board.InStep (env : BoardEnv) (b : Board) (includeArchived : Bool)
    (views : List TaskView) : Prop where
  read : legacyTaskViews env b includeArchived = .ok views
  agrees : ∀ v ∈ views, ∃ c, b.store.fold env.env v.taskId = .ok (some c) ∧ v.AgreesWith c
  covers : ∀ cardId, (b.store.dir cardId).core.exists = true → ∃ v ∈ views, v.taskId = cardId

/-! ### Calls that keep the boards in step -/

/-- The readers do not take the file of the agent for a conflict copy. -/
def ListsAgent (env : BoardEnv) (agentName : String) : Prop :=
  isSyncConflictCopy env.tables (agentFileName agentName) = false

/-- The readers do not take the file of the task for a conflict copy, and it is not the file of
another task. -/
structure ListsTask (env : BoardEnv) (b : Board) (task : Task) : Prop where
  listed : isSyncConflictCopy env.tables (task.fileName env.tables) = false
  own : ∀ t, Assoc.get? b.tasks (task.fileName env.tables) = some t → t.id = task.id

/-- Where the fold has this owner, a release event can be folded behind it. -/
def FoldsRelease (env : BoardEnv) (b : Board) (owner taskId : String) : Prop :=
  ∀ c, b.store.fold env.env taskId = .ok (some c) → c.owner = .str owner →
    (Dict.getD c.metaData "claim_conflicts" (.arr [])).iter.isOk = true

/-- A call that keeps the boards in step. -/
def BoardCall.KeepsStep (env : BoardEnv) (b : Board) : BoardCall → Prop
  | createTask task => ListsTask env b task
  | createClaimedTask task agentName => ListsTask env b task ∧ ListsAgent env agentName
  | claimTask agentName _ => ListsAgent env agentName
  | releaseClaim owner taskId _ _ _ => FoldsRelease env b owner taskId
  | releaseStaleClaims agent _ => ∀ taskId, FoldsRelease env b agent taskId
  | completeTask agentName _ _ => ListsAgent env agentName

/-- Every call keeps the boards in step, on the board that it finds. -/
def AllKeepStep (env : BoardEnv) : Board → List BoardCall → Prop
  | _, [] => True
  | b, call :: calls => call.KeepsStep env b ∧ AllKeepStep env (call.run env b) calls

end SkCoord
