import SkCoord.Coordination.Kanban
import SkCoord.Python.Lines
import SkCoord.Scheduler.JoinedTruth

/-!
# The readers of evidence

The overlay holds the evidence about a card, and four readers fold it: the store, the kanban
projection, the joined truth and `load_evidence` of the lifecycle assessment, which reads the texts of
the shards on its own.
-/

namespace SkCoord

open Python

/-- An event that the overlay accepts. -/
def AcceptedEvent (env : Env) := {e : CardEvent // (e.validate env true).isOk = true}

/-- The shared home of cards, of an archive index and of shards that hold accepted events. -/
def evidenceHome {env : Env} (cards : Assoc String CardDir) (archive : List ArchiveEntry)
    (shards : Assoc String (List (AcceptedEvent env))) : Home :=
  { cards, archive, shards := shards.map fun p => (p.1, p.2.map fun e => some e.1) }

/-- The events of the shards. -/
def shardEvents {env : Env} (shards : Assoc String (List (AcceptedEvent env))) :
    Assoc String (List CardEvent) :=
  shards.map fun p => (p.1, p.2.map Subtype.val)

/-! ### `load_evidence` -/

/-- A row of `load_evidence`, but for the folded key. -/
structure EvidenceRow where
  ts : String
  rawKey : Option String
  value : Option String
  eventId : String
  deriving DecidableEq, Repr

/-- A text that stands in a line with a line boundary of `str.splitlines` in it.  The control
characters among them are escaped. -/
def breaksLine (s : String) : Bool := s.toList.any fun c => isLineBreak c && 32 ≤ c.toNat

/-- A link event whose line the reader breaks.  No piece of a broken line is a JSON object with an
action. -/
def CardEvent.isBroken (e : CardEvent) : Bool :=
  [some e.cardId, e.eventId, some e.writer, some e.ts, e.linkKey, e.linkValue].reduceOption.any
    breaksLine

/-- The row of a link event. -/
def CardEvent.row (e : CardEvent) : EvidenceRow :=
  { ts := e.ts
    rawKey := e.linkKey
    value := e.linkValue
    eventId := ((e.eventId.filter (· ≠ "")).or e.linkKey).getD "" }

/-- What the line of an event adds to the rows. -/
def evidenceRow (e : CardEvent) : Option (String × EvidenceRow) :=
  if e.action = "link" ∧ e.isBroken = false then some (e.cardId, e.row) else none

/-- `(str(r.get("ts") or ""), str(r.get("event_id") or ""))`. -/
def EvidenceRow.order (r : EvidenceRow) : String ×ₗ String := toLex (r.ts, r.eventId)

/-- The events of shards in the order in which the files are read. -/
def eventsInOrder (shards : Assoc String (List CardEvent)) : List CardEvent :=
  ((shards.filter fun p => endsWith p.1 ".jsonl").insertionSort fun p q => p.1 ≤ q.1).flatMap
    Prod.snd

/-- `load_evidence` of shards that hold these events. -/
def loadEvidence (shards : Assoc String (List CardEvent)) : Assoc String (List EvidenceRow) :=
  let rows := ((eventsInOrder shards).filterMap evidenceRow).foldl Assoc.addValue []
  rows.map fun p => (p.1, p.2.insertionSort fun x y => x.order ≤ y.order)

/-! ### The current value of a key -/

/-- `card.links.get(key)`. -/
def Card.link (c : Card) (key : String) : Option Json :=
  (c.links.find? fun p => p.1.pyEq (.str key)).map Prod.snd

/-- The value of a key in the patch of a card. -/
def patchLink (overlay : List CardEvent) (cardId key : String) : Option Json :=
  (Assoc.get? (foldOverlay overlay) cardId).bind fun p => (Assoc.get? p.links key).map jsonOfOption

/-- The value of a key among the annotations of the overlay. -/
def JoinedCardTruth.link (t : JoinedCardTruth) (key : String) : Option Json :=
  (t.annotations.find? fun a => a.key = key && a.legacy).map fun a => .str a.value

/-- The value of the last row of a card with a key. -/
def evidenceLink (rows : Assoc String (List EvidenceRow)) (cardId key : String) : Option Json :=
  (((Assoc.get? rows cardId).getD []).filter fun r => r.rawKey = some key).getLast?.map fun r =>
    jsonOfOption r.value

end SkCoord
