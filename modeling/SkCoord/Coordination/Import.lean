import SkCoord.Coordination.Kanban

/-!
# `import_from_legacy`

The cards of the legacy board that have no core yet are created and brought to their place by up to
three events.  Each of these writes is durable on its own: the process may die between any two.
-/

namespace SkCoord

open Python

/-- The home during an import, with the durable writes that are left before the process dies, where
it does. -/
structure ImportState where
  kanban : KanbanHome
  left : Option ℕ := none

/-- A durable write, if the process lives to make it. -/
def durably (env : BoardEnv) (x : Effect Board Unit) : Effect ImportState Unit := fun s =>
  match s.left with
  | some 0 => (.error .killed, s)
  | left =>
    let (r, kanban) := s.kanban.onBoard env x
    (r, { kanban, left := left.map (· - 1) })

/-- The core that a legacy card is imported with. -/
def importCore (env : BoardEnv) (c : Card) : Effect Board CardCore := do
  let title ← Effect.lift (textField c.title)
  let description ← Effect.lift (textField c.description)
  let createdAt ← if c.createdAt = "" then drawNow env else pure c.createdAt
  let initialPriority ← Effect.lift (textField c.priority)
  let initialSwimlane ← Effect.lift (textField c.swimlane)
  let initialLabels ← Effect.lift (c.labels.mapM textField)
  pure
    { id := c.id
      kind := c.kind.value
      title
      description
      createdBy := c.originator
      createdAt
      acceptanceCriteria := c.acceptanceCriteria
      dependencies := c.dependencies
      initialPriority
      initialSwimlane
      initialLabels
      metaData := c.metaData }

/-- The creation of a legacy card. -/
def importCreate (env : BoardEnv) (c : Card) : Effect Board Unit := do
  let core ← importCore env c
  let _ ← inCreation (create env.creation .ok .ok core)

/-- The writer of the events of a legacy card. -/
def importWriter (c : Card) : String := if c.originator = "" then "import" else c.originator

/-- The turn of the loop for one legacy card, with whether it is imported. -/
def importCard (env : BoardEnv) (dryRun : Bool) (c : Card) : Effect ImportState Bool := do
  let s ← Effect.get
  let existing ← Effect.lift ((s.kanban.store env).loadCore c.id)
  if existing.isSome then pure false
  else if dryRun then pure true
  else do
    durably env (importCreate env c)
    durably env (appendCardEvent env c.id "move" (importWriter c)
      [("column", .str c.status.value), ("order", c.order)])
    if c.owner.truthy then
      durably env (appendCardEvent env c.id "assign" (importWriter c) [("owner", c.owner)])
    if c.archived then durably env (appendCardEvent env c.id "archive" (importWriter c) [])
    pure true

/-- The loop over the legacy cards, with the number of those it imports. -/
def importCards (env : BoardEnv) (dryRun : Bool) : List Card → Effect ImportState ℕ
  | [] => pure 0
  | c :: legacy => do
    let isImported ← importCard env dryRun c
    let imported ← importCards env dryRun legacy
    pure (imported + if isImported then 1 else 0)

/-- The report of an import. -/
structure ImportReport where
  imported : ℕ
  skipped : ℕ
  total : ℕ
  deriving DecidableEq, Repr

/-- `import_from_legacy`. -/
def importFromLegacy (env : BoardEnv) (dryRun : Bool) : Effect ImportState ImportReport := do
  let s ← Effect.get
  let legacy ← Effect.lift (legacyCards env s.kanban true)
  let imported ← importCards env dryRun legacy
  pure { imported, skipped := legacy.length - imported, total := legacy.length }

end SkCoord
