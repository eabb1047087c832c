import SkCoord.CardStore.Fold

/-!
# The claim on a card

`ClaimView` is what the fold of a card knows about its ownership: the owner, the column, the
revision of the live claim, the conflicts that losing claims left, and whether the card is archived
or voided.  `ClaimView.next` is the fold seen through it, a total function of the view and the
event: no other field of the card decides what happens to the claim.
-/

namespace SkCoord

open Python

/-- The part of a folded card that ownership is about. -/
structure ClaimView where
  owner : Json
  status : Column
  revision : Option Json
  conflicts : Option Json
  archived : Bool
  voided : Bool

namespace ClaimView

/-- The live revision, `None` without one. -/
def actualRevision (v : ClaimView) : Json := v.revision.getD .null

/-- The recorded conflicts. -/
def conflictList (v : ClaimView) : List Json :=
  match v.conflicts with
  | some (.arr l) => l
  | _ => []

/-- The column after a move or a reopen to `col`. -/
def columnAfter (v : ClaimView) (col : Json) : Column :=
  match col with
  | .str s => (Column.ofValue? s).getD v.status
  | _ => v.status

/-- A release names the live claim. -/
def releasesCurrent (v : ClaimView) (e : Event) : Bool :=
  Card.validRelease e && v.owner.pyEq (e.get "released_owner") &&
    v.actualRevision.pyEq (e.get "expected_claim_revision")

/-- The recorded conflicts that a release names. -/
def matching (v : ClaimView) (e : Event) : List Json :=
  v.conflictList.filter
    (Card.conflictMatches (e.get "released_owner") (e.get "expected_claim_revision"))

/-- A release names exactly one recorded conflict, and that with the live claim. -/
def releasesConflict (v : ClaimView) (e : Event) : Bool :=
  match v.matching e with
  | [conflict] =>
    Card.validRelease e && v.actualRevision.isNonEmptyStr &&
      v.owner.pyEq (conflict.field "existing_owner") &&
      v.actualRevision.pyEq (conflict.field "existing_claim_revision")
  | _ => false

/-- A claim of an active card that somebody else owns. -/
def claimConflicts (v : ClaimView) (e : Event) : Bool :=
  (e.get "owner").isNonEmptyStr && v.owner.truthy && !v.owner.pyEq (e.get "owner") &&
    v.status.isActive

/-- The entry that a losing claim leaves. -/
def conflictEntry (v : ClaimView) (e : Event) : Json :=
  .obj
    [("event_id", e.get "event_id"),
      ("owner", e.get "owner"),
      ("claim_revision", e.get "claim_revision"),
      ("existing_owner", v.owner),
      ("existing_claim_revision", v.actualRevision),
      ("reason", .str "concurrent claim requires explicit release or completion")]

def releaseClaim (v : ClaimView) (e : Event) : ClaimView :=
  if v.releasesCurrent e then { v with owner := .null, status := .backlog, revision := none }
  else if v.releasesConflict e then
    let remaining := v.conflictList.filter fun conflict =>
      !Card.conflictMatches (e.get "released_owner") (e.get "expected_claim_revision") conflict
    { v with conflicts := if remaining.isEmpty then none else some (.arr remaining) }
  else v

def claim (v : ClaimView) (e : Event) : ClaimView :=
  if v.claimConflicts e then
    { v with conflicts := some (.arr (v.conflictList ++ [v.conflictEntry e])) }
  else
    { v with
      owner := e.get "owner"
      status := .doing
      revision :=
        if (Card.claimRevision e).isNonEmptyStr then some (Card.claimRevision e) else none
      conflicts :=
        if v.owner.isNone && v.status == .backlog && (e.get "owner").truthy then none
        else v.conflicts }

/-- `o` holds the card at revision `r`, in a column where a claim is live. -/
structure Live (v : ClaimView) (o r : Json) : Prop where
  owner : v.owner = o
  revision : v.revision = some r
  active : v.status.isActive = true

/-- The card is cancelled: archived, with no owner and no claim. -/
structure Cancelled (v : ClaimView) : Prop where
  voided : v.voided = true
  archived : v.archived = true
  owner : v.owner = .null
  revision : v.revision = none

/-- The events that may end the claim the card is held by: the release that names it, every
assignment, completion and cancellation, and a claim, unless it is the claim of another owner that
loses against the live one. -/
def endsClaim (v : ClaimView) (e : Event) : Bool :=
  match e.action with
  | .void => true
  | .assign => true
  | .unassign => true
  | .complete => true
  | .releaseClaim => v.releasesCurrent e
  | .claim => !(e.get "owner").isNonEmptyStr || v.owner.pyEq (e.get "owner") || !v.status.isActive
  | _ => false

/-- The events that take a card out of `DONE` without being asked for a column: a claim, and the
release of a claim that is live there. -/
def undoesDone (v : ClaimView) (e : Event) : Bool :=
  !v.voided && (e.action == .claim || e.action == .releaseClaim && v.releasesCurrent e)

/-- The view after one event. -/
def next (v : ClaimView) (e : Event) : ClaimView :=
  if v.voided && e.action.isVoidTerminal then v
  else match e.action with
    | .void => { v with archived := true, owner := .null, revision := none, voided := true }
    | .move => { v with status := v.columnAfter (e.get "column") }
    | .reopen => { v with archived := false, status := v.columnAfter (e.get "column") }
    | .assign => { v with owner := e.get "owner", revision := none }
    | .unassign => { v with owner := .null, revision := none }
    | .releaseClaim => v.releaseClaim e
    | .claim => v.claim e
    | .complete => { v with status := .done, owner := .null, revision := none }
    | .archive => { v with archived := true }
    | _ => v

end ClaimView

/-- The claim part of a card. -/
def Card.view (c : Card) (voided : Bool) : ClaimView where
  owner := c.owner
  status := c.status
  revision := Assoc.get? c.metaData "_claim_revision"
  conflicts := Assoc.get? c.metaData "claim_conflicts"
  archived := c.archived
  voided := voided

/-- The claim part of the loop's variables. -/
def FoldState.view (s : FoldState) : ClaimView := s.card.view s.voided

end SkCoord
