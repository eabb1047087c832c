import SkCoord.Lifecycle.Patterns
import SkCoord.Python.DateTime
import SkCoord.Python.Lines

/-!
# The reassessment of the lifecycle

`assess` reads the cores and event logs of the cards and the shards of the evidence store, and sorts
out the cards that a rotation must not assign.  A core or a line that is no JSON object is recorded
and left out; `loadCards` and `loadEvidence` are the readers, and the classes have one definition
each.
-/

namespace SkCoord.Reassessment

open Python

/-! ### Files -/

/-- `<card>/core.json` and the files of `<card>/events` by name. -/
structure CardFiles where
  core : Option Bytes := none
  events : Assoc String Bytes := []

/-- The directories that an assessment reads, by name. -/
structure AssessFiles where
  cardsDir : String
  cards : Assoc String CardFiles := []
  evidence : Assoc String Bytes := []

/-- What an assessment reads of its environment. -/
structure AssessEnv where
  floats : FloatText
  /-- `json.loads` raises a `ValueError`: an integer of the text has too many digits. -/
  tooLong : List Char → Bool
  /-- `json.loads` raises a `RecursionError`, which no reader catches. -/
  tooDeep : List Char → Bool
  tables : CharTables
  /-- `str(x)` of a value that is no text. -/
  repr : Json → String
  /-- `datetime.fromisoformat`, where it returns. -/
  fromIsoformat : String → Option DateTime
  /-- The class and the message of the exception that a text raises. -/
  errorText : Bytes → String

/-- `str(x)`. -/
def AssessEnv.format (E : AssessEnv) : Json → String
  | .str s => s
  | v => E.repr v

/-- `json.loads`, where it returns. -/
def AssessEnv.loads (E : AssessEnv) (text : List Char) : Option Json :=
  if E.tooLong text || E.tooDeep text then none else Json.loads E.floats text

/-- The `RecursionError` of `json.loads`. -/
def recursionError : PyError := .runtime "maximum recursion depth exceeded"

/-- An entry of `unreadable`; a line of a log has no card. -/
structure Unreadable where
  cardId : Option String := none
  path : String
  error : String
  deriving DecidableEq, Repr

/-- `CardRecord`. -/
structure CardRecord where
  cardId : String
  core : Dict
  events : List Event

/-- A row of the evidence store. -/
structure EvidenceRow where
  ts : Json
  key : String
  rawKey : Json
  value : Json
  eventId : Json

/-- The files of a directory whose names end in `.jsonl`, in order. -/
def jsonlFiles (files : Assoc String Bytes) : List (String × Bytes) :=
  (files.filter fun p => endsWith p.1 ".jsonl").insertionSort fun p q => p.1 ≤ q.1

section

variable (E : AssessEnv)

/-! ### Reading -/

/-- The object of a line, or what is wrong with it. -/
def lineObject (line : List Char) : Except String Dict :=
  match E.loads line with
  | none => .error (E.errorText (encodeUtf8 line))
  | some (.obj d) => .ok d
  | some _ => .error "line is not a JSON object"

/-- The lines of a text that are not blank, with their numbers. -/
def numberedLines (text : List Char) : List (List Char × ℕ) :=
  ((splitlines text).zipIdx 1).filter fun p => !p.1.all isSpace

/-- The entry of a line that is damaged. -/
def lineDamage (path : String) (p : List Char × ℕ) : Option Unreadable :=
  match lineObject E p.1 with
  | .error error => some { path := path ++ ":" ++ toString p.2, error }
  | .ok _ => none

/-- `_json_object_lines`: the objects of a file, and the lines that are none. -/
def jsonObjectLines (path : String) (content : Bytes) :
    Except PyError (List Dict × List Unreadable) := do
  let text ← readText content
  if (numberedLines text).any fun p => E.tooDeep p.1 then throw recursionError
  else pure ((numberedLines text).filterMap fun p => (lineObject E p.1).toOption,
    (numberedLines text).filterMap (lineDamage E path))

/-- `(str(row.get("ts", "")), str(row.get("writer", "")), row.get("seq", 0))`. -/
def recordEventKey (e : Event) : SortKey3 :=
  .ofValues (.str (E.format (e.getD "ts" (.str "")))) (.str (E.format (e.getD "writer" (.str ""))))
    (e.getD "seq" (.int 0))

/-- The object of a core, or what is wrong with it. -/
def coreObject (content : Bytes) : Except String Dict :=
  match (decodeUtf8 content).bind E.loads with
  | none => .error (E.errorText content)
  | some (.obj d) => .ok d
  | some _ => .error "core.json is not a JSON object"

/-- The record of a card whose core is read. -/
def loadRecord (dir name : String) (core : Dict) (events : Assoc String Bytes) :
    Except PyError (CardRecord × List Unreadable) := do
  let logs ← (jsonlFiles events).mapM fun p =>
    jsonObjectLines E (dir ++ "/" ++ name ++ "/events/" ++ p.1) p.2
  let events ← sortByKey (recordEventKey E) (logs.flatMap Prod.fst)
  pure ({ cardId := E.format ((Dict.get core "id").orElse (.str name)), core, events },
    logs.flatMap Prod.snd)

/-- One turn of the loop of `load_cards`. -/
def loadCard (dir : String) (p : String × CardFiles) :
    Except PyError (Option CardRecord × List Unreadable) :=
  match p.2.core with
  | none => pure (none, [])
  | some content =>
    if (decodeUtf8 content).any E.tooDeep then throw recursionError
    else match coreObject E content with
    | .error error =>
      pure (none, [{ cardId := some p.1, path := dir ++ "/" ++ p.1 ++ "/core.json", error }])
    | .ok core => do
      let r ← loadRecord E dir p.1 core p.2.events
      pure (some r.1, r.2)

/-- The directories of the cards, in order. -/
def AssessFiles.cardDirs (files : AssessFiles) : List (String × CardFiles) :=
  files.cards.insertionSort fun p q => p.1 ≤ q.1

/-- `{record.card_id: record for record in records}`. -/
def recordsById (records : List CardRecord) : Assoc String CardRecord :=
  records.foldl (fun d r => Assoc.set d r.cardId r) []

/-- `load_cards`. -/
def loadCards (files : AssessFiles) : Except PyError (Assoc String CardRecord × List Unreadable) := do
  let loaded ← files.cardDirs.mapM (loadCard E files.cardsDir)
  pure (recordsById (loaded.filterMap Prod.fst), loaded.flatMap Prod.snd)

/-- The row of a link event. -/
def evidenceRow (e : Event) : Option (String × EvidenceRow) :=
  match e.get "action", e.get "card_id" with
  | .str "link", .str cardId =>
    some (cardId,
      { ts := e.get "ts"
        key := foldKey E.tables (E.format ((e.get "link_key").orElse (.str "")))
        rawKey := e.get "link_key"
        value := e.get "link_value"
        eventId := (e.get "event_id").orElse (e.get "link_key") })
  | _, _ => none

/-- `(str(r.get("ts") or ""), str(r.get("event_id") or ""))`. -/
def EvidenceRow.sortKey (r : EvidenceRow) : String ×ₗ String :=
  toLex (E.format (r.ts.orElse (.str "")), E.format (r.eventId.orElse (.str "")))

/-- The rows of some objects by card, in order. -/
def evidenceOf (objects : List Dict) : Assoc String (List EvidenceRow) :=
  ((objects.filterMap (evidenceRow E)).foldl Assoc.addValue []).map fun p =>
    (p.1, p.2.insertionSort fun r s => r.sortKey E ≤ s.sortKey E)

/-- `load_evidence`. -/
def loadEvidence (evidence : Assoc String Bytes) : Except PyError (Assoc String (List EvidenceRow)) := do
  let shards ← (jsonlFiles evidence).mapM fun p => jsonObjectLines E p.1 p.2
  pure (evidenceOf E (shards.flatMap Prod.fst))

/-! ### Times -/

/-- `s.replace("Z", "+00:00")`. -/
def zuluOffset (s : String) : String :=
  String.ofList (s.toList.flatMap fun c => if c = 'Z' then "+00:00".toList else [c])

/-- `_parse_time`. -/
def parseTime (v : Json) : Except PyError (Option DateTime) :=
  match v with
  | .str s =>
    if s = "" then pure none
    else match E.fromIsoformat (zuluOffset s) with
      | none => pure none
      | some t =>
        match t.toUtc? (t.offset.getD 0) with
        | some t => pure (some t)
        | none => throw (.value "date value out of range")
  | _ => pure none

/-! ### Claims -/

/-- `str(event.get("action"))`. -/
def actionTexts (r : CardRecord) : List String := r.events.map fun e => E.format (e.get "action")

/-- `_dependencies`. -/
def CardRecord.dependencies (r : CardRecord) : Except PyError (List String) := do
  let elems ← (Dict.getD r.core "dependencies" (.arr [])).iter
  pure (r.events.foldl (fun deps e =>
    match e.get "action", e.get "dependency" with
    | .str "add_dependency", .str d => if d ∈ deps then deps else deps ++ [d]
    | .str "remove_dependency", .str d => deps.erase d
    | _, _ => deps) ((elems.filter Json.truthy).map E.format))

end

/-- The variables of the loop of `_current_claim`. -/
structure ClaimScan where
  claim : Option Event := none
  terminal : Bool := false

/-- One turn of the loop of `_current_claim`. -/
def ClaimScan.step (s : ClaimScan) (e : Event) : Except PyError ClaimScan :=
  if e.action = .claim ∧ s.terminal = false ∧ (e.get "owner").isNonEmptyStr = true then
    pure { s with claim := some e }
  else do
    -- `action in _TERMINAL`
    (e.get "action").requireHashable
    match e.action with
    | .complete | .void | .archive => pure { claim := none, terminal := true }
    | .unassign | .releaseClaim => pure { s with claim := none }
    | _ => pure s

/-- `_current_claim`. -/
def currentClaim (events : List Event) : Except PyError (Option Event) := do
  let s ← events.foldlM ClaimScan.step {}
  pure s.claim

section

variable (E : AssessEnv)

/-- A blocked verdict of an event, with a digest of its artifact. -/
def isBlockedVerdict (e : Event) : Bool :=
  match e.get "verdict" with
  | .str verdict =>
    blockedRe E.tables verdict &&
      match ((e.get "artifact_sha256").orElse (e.get "verdict_hash")).orElse
          (e.get "evidence_sha256") with
      | .str hash => hash.toList.length == 64
      | _ => false
  | _ => false

/-- What a row says when its outcome is a blocked one. -/
def blockedRow (row : EvidenceRow) : Option Dict :=
  match row.value with
  | .str value =>
    if outcomeKeyRe row.key ∧ blockedRe E.tables value then
      some [("event_id", row.eventId), ("ts", row.ts), ("verdict", .str value),
        ("source", .str "evidence_store"), ("link_key", row.rawKey)]
    else none
  | _ => none

/-- The time is known and not before another one. -/
def notBefore (after : DateTime) (t : Option DateTime) : Bool := t.any fun t => 0 ≤ t.gap after

/-- `_blocked_evidence_after`. -/
def blockedEvidenceAfter (r : CardRecord) (after : DateTime) (rows : List EvidenceRow) :
    Except PyError (Option Dict) := do
  let result ← r.events.foldlM (fun result e => do
    let time ← parseTime E (e.get "ts")
    pure (if notBefore after time && isBlockedVerdict E e then some e else result)) none
  rows.foldlM (fun result row => do
    let time ← parseTime E row.ts
    pure (if notBefore after time then (blockedRow E row).or result else result)) result

/-- `any((_parse_time(row.get("ts")) or claimed_at) >= claimed_at for row in card_evidence)`. -/
def producedAnything (claimedAt : DateTime) : List EvidenceRow → Except PyError Bool
  | [] => pure false
  | row :: rows => do
    let time ← parseTime E row.ts
    if 0 ≤ (time.getD claimedAt).gap claimedAt then pure true else producedAnything claimedAt rows

/-- An entry of `stale_claims` or of `dead_worker_claims`. -/
structure ClaimEntry where
  cardId : String
  owner : Json
  claimedAt : String
  ageHours : ℤ
  evidenceEventId : Json := .null
  verdict : Json := .null
  evidenceSource : Json := .null
  kind : String

/-- What an assessment is asked. -/
structure AssessQuery where
  now : DateTime
  staleAfter : ℤ := 24 * 3600000000
  deadWorkerAfter : ℤ := 6 * 3600000000
  /-- The lines of the launch logs. -/
  launchLog : List (List Char) := []

/-- The entries of one claim, stale and dead. -/
def claimEntries (q : AssessQuery) (r : CardRecord) (rows : List EvidenceRow) (claim : Event)
    (claimedAt : DateTime) : Except PyError (List ClaimEntry × List ClaimEntry) := do
  let age := q.now.gap claimedAt
  let ageHours := ⌊DateTime.totalSeconds age / 3600⌋
  match ← blockedEvidenceAfter E r claimedAt rows with
  | some blocked =>
    pure ([{
      cardId := r.cardId
      owner := claim.get "owner"
      claimedAt := claimedAt.isoUtc
      ageHours
      evidenceEventId := Dict.get blocked "event_id"
      verdict := Dict.get blocked "verdict"
      evidenceSource := Dict.getD blocked "source" (.str "structure_store")
      kind := "finished_in_evidence" }], [])
  | none =>
    let produced ← producedAnything E claimedAt rows
    let owner := (claim.get "owner").orElse (.str "")
    pure ([], if !produced && ephemeralOwnerRe (E.format owner) && q.deadWorkerAfter ≤ age then
      [{ cardId := r.cardId
         owner
         claimedAt := claimedAt.isoUtc
         ageHours
         kind := "dead_worker" }] else [])

/-- One turn of the loop over the claims. -/
def assessClaim (q : AssessQuery) (evidence : Assoc String (List EvidenceRow)) (r : CardRecord) :
    Except PyError (List ClaimEntry × List ClaimEntry) := do
  match ← currentClaim r.events with
  | none => pure ([], [])
  | some claim =>
    match ← parseTime E (claim.get "ts") with
    | none => pure ([], [])
    | some claimedAt =>
      if q.now.gap claimedAt < q.staleAfter then pure ([], [])
      else claimEntries E q r ((Assoc.get? evidence r.cardId).getD []) claim claimedAt

/-! ### The other classes -/

/-- An entry of `void_dependency_edges`. -/
structure VoidEdge where
  cardId : String
  voidDependencyId : String
  deriving DecidableEq, Repr

/-- The void dependencies of one card. -/
def voidEdges (records : Assoc String CardRecord) (r : CardRecord) :
    Except PyError (List VoidEdge) := do
  let deps ← r.dependencies E
  pure ((deps.filter fun d => (Assoc.get? records d).any fun dep =>
    (actionTexts E dep).contains "void").map fun d => ⟨r.cardId, d⟩)

/-- `_launch_counts`. -/
def launchCounts (lines : List (List Char)) : Assoc String ℕ :=
  (lines.filterMap fun line =>
      match line.splitOn '|' with
      | launched :: _ :: _ :: cardId :: _ =>
        if launched = "LAUNCHED".toList then some (String.ofList cardId) else none
      | _ => none).foldl
    (fun d cardId => Assoc.set d cardId ((Assoc.get? d cardId).getD 0 + 1)) []

/-- An entry of `unclaimable_cards`. -/
structure UnclaimableCard where
  cardId : String
  launchCount : ℕ
  deriving DecidableEq, Repr

/-- The cards that were launched again and again but never claimed. -/
def unclaimableCards (records : Assoc String CardRecord) (lines : List (List Char)) :
    List UnclaimableCard :=
  (((launchCounts lines).insertionSort fun p q => p.1 ≤ q.1).filter fun p =>
    2 ≤ p.2 && (Assoc.get? records p.1).all fun r => !(actionTexts E r).contains "claim").map
    fun p => ⟨p.1, p.2⟩

/-- A field of a core as a text. -/
def CardRecord.coreText (r : CardRecord) (key : String) : String :=
  E.format (Dict.getD r.core key (.str ""))

/-- The labels of a core. -/
def CardRecord.labels (r : CardRecord) : Except PyError (List Json) :=
  (Dict.getD r.core "initial_labels" (.arr [])).iter

/-- The cards that a card says it supersedes. -/
def supersededBy (r : CardRecord) : Except PyError (List String) := do
  let labels ← r.labels
  let text := (r.coreText E "title" ++ " " ++ r.coreText E "description").toList
  pure ((labels.filterMap fun
      | .str label =>
        if "supersedes-".toList.isPrefixOf (E.tables.lower label).toList then
          some (String.ofList (label.toList.drop "supersedes-".length))
        else none
      | _ => none) ++
    supersedesRe E.tables text.length false text ++
    r.events.filterMap fun e =>
      match e.get "action", e.get "supersedes" with
      | .str "supersede", .str old => some old
      | _, _ => none)

/-- The card of an identifier or of the only one that begins with it. -/
def resolveId (records : Assoc String CardRecord) (id : String) : Option String :=
  if id ∈ Assoc.keys records then some id
  else match (Assoc.keys records).filter fun c => id.toList.isPrefixOf c.toList with
    | [c] => some c
    | _ => none

/-- A gate that only a person may discharge. -/
def isHumanGate (r : CardRecord) : Except PyError Bool := do
  let labels ← ((Dict.get r.core "initial_labels").orElse (.arr [])).iter
  pure (contains (String.ofList (upper (r.coreText E "title"))) "[HUMAN]" ||
    labels.any fun x => E.tables.lower (E.format x) = "human-gate")

/-- The old and the new card of a row of the evidence store, before they are resolved. -/
def supersededLink (cardId : String) (row : EvidenceRow) : Option (String × String) :=
  let key := E.tables.lower (strip (E.format (((Json.str row.key).orElse row.rawKey).orElse
    (.str ""))))
  let value := strip (E.format (row.value.orElse (.str "")))
  if value = "" then none
  else if key = "superseded_by" then some (cardId, value)
  else if key = "supersedes" then some (value, cardId)
  else none

/-- The supersession that a row of the evidence store records. -/
def evidenceSupersedes (records : Assoc String CardRecord) (cardId : String) (row : EvidenceRow) :
    Except PyError (List (String × String)) :=
  match (supersededLink E cardId row).bind fun p =>
      (resolveId records p.2).bind fun new =>
        (resolveId records p.1).bind fun old =>
          (Assoc.get? records old).map fun r => (r, old, new) with
  | none => pure []
  | some (r, old, new) => do
    if ← isHumanGate E r then pure []
    else pure (if old ≠ new then [(old, new)] else [])

/-- `_superseded_ids`. -/
def supersededIds (records : Assoc String CardRecord) (evidence : Assoc String (List EvidenceRow)) :
    Except PyError (Assoc String (List String)) := do
  let stored ← records.mapM fun p => do
    let old ← supersededBy E p.2
    pure ((old.filter fun id => id ∈ Assoc.keys records ∧ id ≠ p.2.cardId).map fun id =>
      (id, p.2.cardId))
  let linked ← evidence.mapM fun p => p.2.mapM (evidenceSupersedes E records p.1)
  pure (((stored.flatten ++ linked.flatten.flatten).foldl Assoc.addValue []).map fun p =>
    (p.1, p.2.dedup.insertionSort fun x y => x ≤ y))

/-- An entry of `volatile_ci_identity`. -/
structure VolatileCi where
  cardId : String
  reason : String
  deriving DecidableEq, Repr

/-- The entry of one card. -/
def volatileCi (r : CardRecord) : Option VolatileCi :=
  if contains (r.coreText E "title") "CMDB-IDENT-01" then some ⟨r.cardId, "tracking_card"⟩
  else if (Dict.get r.core "kind").pyEq (.str "incident") &&
      volatileCiRe E.tables (r.coreText E "description") then
    some ⟨r.cardId, "volatile_ci_identity"⟩
  else none

/-! ### The report -/

/-- `classes`. -/
structure AssessClasses where
  voidDependencyEdges : List VoidEdge
  staleClaims : List ClaimEntry
  deadWorkerClaims : List ClaimEntry
  unclaimableCards : List UnclaimableCard
  supersededCards : List (String × List String)
  volatileCiIdentity : List VolatileCi
  unreadableCards : List Unreadable

/-- The report, as far as its parts are not constant or computed from the others. -/
structure AssessReport where
  generatedAt : String
  classes : AssessClasses
  excludedCardIds : List String

/-- `excluded`. -/
def AssessClasses.excluded (c : AssessClasses) : List String :=
  (c.voidDependencyEdges.map VoidEdge.cardId ++ c.staleClaims.map ClaimEntry.cardId ++
    c.deadWorkerClaims.map ClaimEntry.cardId ++ c.unclaimableCards.map UnclaimableCard.cardId ++
    c.supersededCards.map Prod.fst ++
    c.unreadableCards.filterMap Unreadable.cardId).dedup.insertionSort fun x y => x ≤ y

/-- Rows in the order of their cards. -/
def sortedByCard {α : Type} (cardId : α → String) (rows : List α) : List α :=
  rows.insertionSort fun r s => cardId r ≤ cardId s

/-- The classes of what was read. -/
def classify (q : AssessQuery) (records : Assoc String CardRecord) (unreadable : List Unreadable)
    (evidence : Assoc String (List EvidenceRow)) : Except PyError AssessClasses := do
  let edges ← records.mapM fun p => voidEdges E records p.2
  let claims ← records.mapM fun p => assessClaim E q evidence p.2
  let superseded ← supersededIds E records evidence
  pure
    { voidDependencyEdges := edges.flatten.insertionSort fun x y =>
        toLex (x.cardId, x.voidDependencyId) ≤ toLex (y.cardId, y.voidDependencyId)
      staleClaims := sortedByCard ClaimEntry.cardId (claims.flatMap Prod.fst)
      deadWorkerClaims := sortedByCard ClaimEntry.cardId (claims.flatMap Prod.snd)
      unclaimableCards := unclaimableCards E records q.launchLog
      supersededCards := superseded.insertionSort fun p q => p.1 ≤ q.1
      volatileCiIdentity :=
        sortedByCard VolatileCi.cardId (records.filterMap fun p => volatileCi E p.2)
      -- a row without a card is left out
      unreadableCards := (unreadable.filter fun row => (row.cardId.getD "") ≠ "").insertionSort
        fun x y => toLex (x.cardId.getD "", x.path) ≤ toLex (y.cardId.getD "", y.path) }

/-- `assess`. -/
def assess (files : AssessFiles) (q : AssessQuery) : Except PyError AssessReport := do
  let (records, unreadable) ← loadCards E files
  let evidence ← loadEvidence E files.evidence
  let classes ← classify E q records unreadable evidence
  pure { generatedAt := q.now.isoUtc, classes, excludedCardIds := classes.excluded }

end

end SkCoord.Reassessment
