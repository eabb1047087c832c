import SkCoord.Coordination.Kanban

/-!
# `parity_check` and `reconcile_from_legacy`

The parity check compares the legacy projection with the fold of every card, field by field, and a
reconciliation appends events that bring the store to the legacy side.  The check reads a copy of
the home that no writer changes; a side that cannot be read makes it non-actionable.
-/

namespace SkCoord

open Python

/-- `{c.id: c for c in cards}`. -/
def cardsById (cards : List Card) : Assoc String Card :=
  cards.foldl (fun d c => Assoc.set d c.id c) []

/-! ### The comparison -/

/-- The gating differences of a card, each with the legacy value and that of the store. -/
structure FieldDiff where
  status : Option (Column × Column)
  owner : Option (Json × Json)
  archived : Option (Bool × Bool)
  acceptanceCriteria : Option (List String × List String)

/-- The differences that are reported and do not gate. -/
structure InfoDiff where
  priority : Option (Json × Json)
  swimlane : Option (Json × Json)

/-- The gating differences of a card.  Without a physical `status` in its task file the legacy
status is unknown. -/
def fieldDiff (statusIds : List String) (cardId : String) (lc sc : Card) : FieldDiff where
  status :=
    if cardId ∈ statusIds ∧ lc.status.bucket ≠ sc.status.bucket then some (lc.status, sc.status)
    else none
  owner :=
    if (lc.owner.orElse .null).pyEq (sc.owner.orElse .null) then none
    else some (lc.owner, sc.owner)
  archived := if lc.archived = sc.archived then none else some (lc.archived, sc.archived)
  acceptanceCriteria :=
    if lc.acceptanceCriteria = sc.acceptanceCriteria then none
    else some (lc.acceptanceCriteria, sc.acceptanceCriteria)

/-- The informational differences of a card. -/
def infoDiff (lc sc : Card) : InfoDiff where
  priority := if lc.priority.pyEq sc.priority then none else some (lc.priority, sc.priority)
  swimlane := if lc.swimlane.pyEq sc.swimlane then none else some (lc.swimlane, sc.swimlane)

/-- No gating field differs. -/
def FieldDiff.isEmpty (d : FieldDiff) : Bool :=
  d.status.isNone && d.owner.isNone && d.archived.isNone && d.acceptanceCriteria.isNone

/-- No informational field differs. -/
def InfoDiff.isEmpty (d : InfoDiff) : Bool := d.priority.isNone && d.swimlane.isNone

/-- A card with its differences. -/
structure Mismatch where
  id : String
  diff : FieldDiff

/-- `_open_count`, for the cards with a known status. -/
def openCount (statusIds : List String) (cards : Assoc String Card) : ℕ :=
  cards.countP fun p => decide (p.1 ∈ statusIds) && !p.2.archived &&
    (p.2.kind == .task || p.2.kind == .epic) && p.2.status == .backlog

/-- The report of a parity check. -/
structure ParityReport where
  outcome : String
  checked : ℕ
  matched : ℕ
  mismatches : List Mismatch
  informational : List (String × InfoDiff)
  missing : List String
  openLegacy : ℕ
  openStore : ℕ
  openDrift : ℕ
  openDriftThreshold : ℕ
  openAlert : Bool

/-- What a parity check returns: its report, or why it is non-actionable. -/
inductive Parity where
  | failure (outcome reason : String)
  | report (r : ParityReport)

/-- The mismatch of a legacy card, if the store has the card and a gating field differs. -/
def mismatchOf (statusIds : List String) (stored : Assoc String Card) (p : String × Card) :
    Option Mismatch :=
  match Assoc.get? stored p.1 with
  | none => none
  | some sc =>
    let diff := fieldDiff statusIds p.1 p.2 sc
    if diff.isEmpty then none else some { id := p.1, diff }

/-- The informational difference of a legacy card, if the store has the card. -/
def infoOf (stored : Assoc String Card) (p : String × Card) : Option (String × InfoDiff) :=
  match Assoc.get? stored p.1 with
  | none => none
  | some sc =>
    let info := infoDiff p.2 sc
    if info.isEmpty then none else some (p.1, info)

/-- The comparison of both sides. -/
def compareSides (statusIds : List String) (threshold : ℕ) (legacy stored : Assoc String Card) :
    ParityReport :=
  let mismatches := legacy.filterMap (mismatchOf statusIds stored)
  let missing := (legacy.filter fun p => (Assoc.get? stored p.1).isNone).map Prod.fst
  let openLegacy := openCount statusIds legacy
  let openStore := openCount statusIds stored
  let openDrift := max openLegacy openStore - min openLegacy openStore
  { outcome := if mismatches.isEmpty && missing.isEmpty then "healthy" else "drift"
    checked := legacy.length
    matched := legacy.length - missing.length - mismatches.length
    mismatches
    informational := legacy.filterMap (infoOf stored)
    missing
    openLegacy
    openStore
    openDrift
    openDriftThreshold := threshold
    openAlert := decide (threshold < openDrift) }

/-- `OPEN_DRIFT_THRESHOLD`. -/
def openDriftThreshold : ℕ := 5

/-- `parity_check`. -/
def parityCheck (env : BoardEnv) (k : KanbanHome) : Parity :=
  match legacyCards env k true with
  | .error e => .failure "snapshot_unstable" e.str
  | .ok legacy =>
    match (k.store env).listCards env.env true with
    | .error e => .failure "snapshot_unstable" e.str
    | .ok stored =>
      .report (compareSides k.statusIds openDriftThreshold (cardsById legacy) (cardsById stored))

/-! ### The repair -/

/-- `_would_uncomplete`. -/
def wouldUncomplete (d : FieldDiff) : Bool :=
  match d.status with
  | none => false
  | some (legacy, store) => store == .done && legacy != .done

/-- The events that bring a card to the legacy side. -/
def reconcileActions (d : FieldDiff) : List (String × Dict) :=
  let column := (d.status.map fun s => Json.str s.1.value).getD .null
  let archived :=
    match d.archived with
    | none => []
    | some (true, _) => [("archive", [])]
    | some (false, _) => [("reopen", [("column", column)])]
  let status :=
    match d.status with
    | none => []
    | some _ => [("move", [("column", column)])]
  let owner :=
    match d.owner with
    | none => []
    | some (legacy, _) =>
      if legacy.truthy then [("assign", [("owner", legacy)])] else [("unassign", [])]
  archived ++ status ++ owner

/-- The report of a reconciliation. -/
structure ReconcileReport where
  fixed : Option ℕ
  wouldFix : Option ℕ
  skippedUncomplete : List String
  outcome : Option String := none
  actionable : Bool := true
  deriving DecidableEq

/-- `store.append_event(cid, action, "reconcile", **payload)`. -/
def appendReconcile (env : BoardEnv) (cardId action : String) (payload : Dict) :
    Effect KanbanHome Unit := fun k =>
  k.onBoard env (appendCardEvent env cardId action "reconcile" payload)

/-- The events of a card, in order. -/
def appendActions (env : BoardEnv) (cardId : String) : List (String × Dict) → Effect KanbanHome Unit
  | [] => pure ()
  | (action, payload) :: actions => do
    appendReconcile env cardId action payload
    appendActions env cardId actions

/-- The repair of one card; a dry run leaves it. -/
def repair (env : BoardEnv) (dryRun : Bool) (m : Mismatch) : Effect KanbanHome Unit :=
  if dryRun then pure () else appendActions env m.id (reconcileActions m.diff)

/-- The loop over the mismatches, with the number of cards it repairs and those it skips. -/
def reconcileLoop (env : BoardEnv) (dryRun allowUncomplete : Bool) :
    List Mismatch → Effect KanbanHome (ℕ × List String)
  | [] => pure (0, [])
  | m :: mismatches => do
    if !allowUncomplete && wouldUncomplete m.diff then
      let (count, skipped) ← reconcileLoop env dryRun allowUncomplete mismatches
      pure (count, m.id :: skipped)
    else if (reconcileActions m.diff).isEmpty then
      reconcileLoop env dryRun allowUncomplete mismatches
    else
      repair env dryRun m
      let (count, skipped) ← reconcileLoop env dryRun allowUncomplete mismatches
      pure (count + 1, skipped)

/-- `reconcile_from_legacy`. -/
def reconcileFromLegacy (env : BoardEnv) (dryRun allowUncomplete : Bool) :
    Effect KanbanHome ReconcileReport := do
  let k ← Effect.get
  match parityCheck env k with
  | .failure outcome _ =>
    pure { fixed := some 0, wouldFix := some 0, skippedUncomplete := [], outcome := some outcome
           actionable := false }
  | .report r =>
    let (count, skipped) ← reconcileLoop env dryRun allowUncomplete r.mismatches
    pure
      { fixed := if dryRun then none else some count
        wouldFix := if dryRun then some count else none
        skippedUncomplete := skipped }

end SkCoord
