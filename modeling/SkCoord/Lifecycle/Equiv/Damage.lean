import SkCoord.Lifecycle.Equiv.CurrentClaim
import SkCoord.Python.ByteLines

/-!
# Damaged files and a reassessment

`assess` skips a core or a line that is no JSON object.  `assess_eq_ok_iff` says when it returns,
and `assess_intact` with what: with the classes of the intact files, since a file is read line by
line.  A log or a shard that is no text as a whole makes it raise, as JSON that nests too deep does,
and a damaged line of a log has no row in the report, so `isolates_iff` has a condition.
-/

namespace SkCoord.Reassessment

open Python

section

variable (E : AssessEnv)

/-! ### What is intact -/

/-- The line is a JSON object. -/
def isObjectLine (line : List Char) : Bool := (lineObject E line).isOk

/-- The intact lines of a file, also of one that is no text as a whole. -/
def intactLines (content : Bytes) : List (List Char) :=
  ((content.splitOn 10).filterMap decodeUtf8).flatMap fun text =>
    (splitlines text).filter (isObjectLine E)

/-- A file without its damaged lines. -/
def intactFile (content : Bytes) : Bytes := encodeUtf8 (unlines (intactLines E content))

/-- A core that is a JSON object. -/
def CardFiles.intactCore (c : CardFiles) : Option Dict :=
  c.core.bind fun content => (coreObject E content).toOption

/-- The files of a card without what is damaged. -/
def CardFiles.intact (c : CardFiles) : CardFiles where
  core := c.core.filter fun content => (coreObject E content).isOk
  events := c.events.map fun p => (p.1, intactFile E p.2)

/-- The files of an assessment without what is damaged. -/
def AssessFiles.intact (files : AssessFiles) : AssessFiles where
  cardsDir := files.cardsDir
  cards := files.cards.map fun p => (p.1, p.2.intact E)
  evidence := files.evidence.map fun p => (p.1, intactFile E p.2)

/-- The places of a log that are damaged: the file, if it is no text, else its lines. -/
def logDamage (path : String) (content : Bytes) : List String :=
  match decodeUtf8 content with
  | none => [path]
  | some text => ((numberedLines text).filter fun p => !isObjectLine E p.1).map fun p =>
      path ++ ":" ++ toString p.2

/-- The path of a log. -/
def logPath (dir name log : String) : String := dir ++ "/" ++ name ++ "/events/" ++ log

/-- The places of a card that are damaged; without a core there is no card. -/
def CardFiles.damage (dir name : String) (c : CardFiles) : List String :=
  match c.core with
  | none => []
  | some content =>
    (if (coreObject E content).isOk then [] else [dir ++ "/" ++ name ++ "/core.json"]) ++
      (jsonlFiles c.events).flatMap fun p => logDamage E (logPath dir name p.1) p.2

/-- An assessment isolates the damage of its files, and reports what of it belongs to a card. -/
structure Isolates (files : AssessFiles) (q : AssessQuery) : Prop where
  returns : ∃ report, assess E files q = .ok report
  isolated : ∀ report, assess E files q = .ok report →
    ∃ report', assess E (files.intact E) q = .ok report' ∧ report.classes =
      { report'.classes with unreadableCards := report.classes.unreadableCards }
  reported : ∀ report, assess E files q = .ok report → ∀ p ∈ files.cards,
    ∀ place ∈ p.2.damage E files.cardsDir p.1,
      ∃ row ∈ report.classes.unreadableCards, row.path = place

/-! ### What is read -/

/-- The objects of the intact lines of a file. -/
def logObjects (content : Bytes) : List Dict :=
  (intactLines E content).filterMap fun line => (lineObject E line).toOption

/-- What a log adds to the report. -/
def logUnreadable (path : String) (content : Bytes) : List Unreadable :=
  ((decodeUtf8 content).map fun text => (numberedLines text).filterMap (lineDamage E path)).getD []

/-- The intact events of a card. -/
def CardFiles.objects (c : CardFiles) : List Dict :=
  (jsonlFiles c.events).flatMap fun p => logObjects E p.2

/-- The record of a card whose core is intact. -/
def CardFiles.record (name : String) (c : CardFiles) : Option CardRecord :=
  (c.intactCore E).map fun core =>
    { cardId := E.format ((Dict.get core "id").orElse (.str name))
      core
      events := (c.objects E).insertionSort fun e f => recordEventKey E e ≤ recordEventKey E f }

/-- The records of the intact cores, by card. -/
def AssessFiles.records (files : AssessFiles) : Assoc String CardRecord :=
  recordsById (files.cardDirs.filterMap fun p => p.2.record E p.1)

/-- The intact rows of the evidence store. -/
def AssessFiles.rows (files : AssessFiles) : Assoc String (List EvidenceRow) :=
  evidenceOf E ((jsonlFiles files.evidence).flatMap fun p => logObjects E p.2)

/-- What a card adds to the report. -/
def CardFiles.unreadable (dir name : String) (c : CardFiles) : List Unreadable :=
  match c.core with
  | none => []
  | some content =>
    match coreObject E content with
    | .error error => [{ cardId := some name, path := dir ++ "/" ++ name ++ "/core.json", error }]
    | .ok _ => (jsonlFiles c.events).flatMap fun p => logUnreadable E (logPath dir name p.1) p.2

/-- A file is a text, and no line of it nests too deep. -/
def HasLines (content : Bytes) : Prop :=
  ∃ text, decodeUtf8 content = some text ∧ ∀ p ∈ numberedLines text, E.tooDeep p.1 = false

/-- A core that nests too deep, if it is a text. -/
def CardFiles.isTooDeep (c : CardFiles) : Bool := (c.core.bind decodeUtf8).any E.tooDeep

/-- The logs of a card are texts, and its events have an order. -/
structure CardFiles.Reads (c : CardFiles) : Prop where
  texts : ∀ p ∈ jsonlFiles c.events, HasLines E p.2
  ordered : (c.objects E).Pairwise fun e f =>
    SortKey.Comparable (recordEventKey E e) (recordEventKey E f)

/-- The files of the cards with intact cores are read, and so are those of the evidence. -/
structure AssessFiles.Reads (files : AssessFiles) : Prop where
  cores : ∀ p ∈ files.cards, p.2.isTooDeep E = false
  cards : ∀ p ∈ files.cards, (p.2.intactCore E).isSome → p.2.Reads E
  shards : ∀ p ∈ jsonlFiles files.evidence, HasLines E p.2

end

section

variable {E : AssessEnv}

theorem isObjectLine_of_spaces {line : List Char} (h : line.all isSpace = true) :
    isObjectLine E line = false := by
  rw [isObjectLine, lineObject, AssessEnv.loads, Json.loads_of_spaces h, ite_self]
  rfl

theorem loads_of_tooDeep {text : List Char} (h : E.tooDeep text = true) : E.loads text = none := by
  rw [AssessEnv.loads, h, Bool.or_true, if_pos rfl]

/-- A line that is read does not nest too deep. -/
theorem not_tooDeep_of_isObjectLine {line : List Char} (h : isObjectLine E line = true) :
    E.tooDeep line = false := by
  refine Bool.eq_false_of_not_eq_true fun hdeep => ?_
  rw [isObjectLine, lineObject, loads_of_tooDeep hdeep] at h
  cases h

/-- The intact lines of a text. -/
theorem intactLines_eq {content : Bytes} {text : List Char} (h : decodeUtf8 content = some text) :
    intactLines E content = (splitlines text).filter (isObjectLine E) := by
  have hpieces : ∀ l : List (List Char), (l.map encodeUtf8).filterMap decodeUtf8 = l := by
    intro l
    rw [List.filterMap_map]
    conv_rhs => rw [← List.filterMap_some (l := l)]
    exact List.filterMap_congr fun t _ => decodeUtf8_encodeUtf8 t
  rw [intactLines, ← encodeUtf8_of_decodeUtf8 h, splitOn_encodeUtf8, hpieces]
  exact flatMap_splitOn_splitlines (isObjectLine_of_spaces rfl) text

/-- Lines that are JSON are not blank, so the numbered lines hold them all. -/
theorem filter_numberedLines (text : List Char) :
    ((numberedLines text).map Prod.fst).filter (isObjectLine E) =
      (splitlines text).filter (isObjectLine E) := by
  have hmap : ((splitlines text).zipIdx 1).map Prod.fst = splitlines text := by
    rw [List.zipIdx_map_fst]
  rw [numberedLines, ← hmap, List.filter_map, List.filter_map, List.filter_filter, hmap]
  congr 1
  refine List.filter_congr fun p _ => ?_
  show (isObjectLine E p.1 && !p.1.all isSpace) = isObjectLine E p.1
  cases hspaces : p.1.all isSpace with
  | false => rw [Bool.not_false, Bool.and_true]
  | true => rw [isObjectLine_of_spaces hspaces, Bool.false_and]

theorem logObjects_eq {content : Bytes} {text : List Char} (h : decodeUtf8 content = some text) :
    logObjects E content = (numberedLines text).filterMap fun p => (lineObject E p.1).toOption := by
  have hskip : ∀ l : List (List Char),
      (l.filter (isObjectLine E)).filterMap (fun line => (lineObject E line).toOption) =
        l.filterMap fun line => (lineObject E line).toOption := by
    intro l
    rw [List.filterMap_filter]
    refine List.filterMap_congr fun line _ => ?_
    unfold isObjectLine
    cases lineObject E line <;> rfl
  rw [logObjects, intactLines_eq h, ← filter_numberedLines, hskip, List.filterMap_map]
  rfl

theorem jsonObjectLines_eq_ok {path : String} {content : Bytes} {r : List Dict × List Unreadable} :
    jsonObjectLines E path content = .ok r ↔
      HasLines E content ∧ r = (logObjects E content, logUnreadable E path content) := by
  rw [jsonObjectLines, bind_eq_ok]
  simp only [readText_eq_ok]
  constructor
  · rintro ⟨text, htext, h⟩
    split at h
    · cases h
    · rename_i hdeep
      refine ⟨⟨text, htext, by simpa using hdeep⟩, ?_⟩
      rw [← pure_eq_ok.mp h, logObjects_eq htext, logUnreadable, htext]
      rfl
  · rintro ⟨⟨text, htext, hdeep⟩, rfl⟩
    refine ⟨text, htext, ?_⟩
    rw [if_neg (by simpa using hdeep), logObjects_eq htext, logUnreadable, htext]
    rfl

/-! ### Loading -/

theorem loadRecord_eq_ok {dir name : String} {c : CardFiles} {core : Dict}
    {r : CardRecord × List Unreadable} :
    loadRecord E dir name core c.events = .ok r ↔ c.Reads E ∧
      r = ({ cardId := E.format ((Dict.get core "id").orElse (.str name))
             core
             events := (c.objects E).insertionSort fun e f =>
               recordEventKey E e ≤ recordEventKey E f },
        (jsonlFiles c.events).flatMap fun p => logUnreadable E (logPath dir name p.1) p.2) := by
  rw [loadRecord, bind_eq_ok]
  simp only [mapM_eq_ok_iff_map fun p r => jsonObjectLines_eq_ok (r := r), bind_eq_ok,
    sortByKey_eq_ok_iff, pure_eq_ok]
  constructor
  · rintro ⟨logs, ⟨htexts, rfl⟩, events, ⟨hpairs, rfl⟩, rfl⟩
    rw [List.flatMap_map] at hpairs
    rw [List.flatMap_map, List.flatMap_map]
    exact ⟨⟨htexts, hpairs⟩, rfl⟩
  · rintro ⟨⟨htexts, hpairs⟩, rfl⟩
    refine ⟨_, ⟨htexts, rfl⟩, _, ⟨?_, rfl⟩, ?_⟩
    · rw [List.flatMap_map]
      exact hpairs
    · rw [List.flatMap_map, List.flatMap_map]
      rfl

theorem loadCard_eq_ok {dir : String} {p : String × CardFiles}
    {r : Option CardRecord × List Unreadable} :
    loadCard E dir p = .ok r ↔ (p.2.isTooDeep E = false ∧
      ((p.2.intactCore E).isSome → p.2.Reads E)) ∧
      r = (p.2.record E p.1, p.2.unreadable E dir p.1) := by
  unfold loadCard CardFiles.record CardFiles.unreadable CardFiles.intactCore CardFiles.isTooDeep
  cases hfile : p.2.core with
  | none => exact ⟨fun h => ⟨⟨rfl, nofun⟩, (pure_eq_ok.mp h).symm⟩, fun h => h.2 ▸ rfl⟩
  | some content =>
    dsimp only [Option.bind_some]
    cases hdeep : (decodeUtf8 content).any E.tooDeep with
    | true => exact ⟨fun h => (nomatch h), fun h => (nomatch h.1.1)⟩
    | false =>
      rw [if_neg Bool.false_ne_true]
      cases hcore : coreObject E content with
      | error error =>
        exact ⟨fun h => ⟨⟨rfl, nofun⟩, (pure_eq_ok.mp h).symm⟩, fun h => h.2 ▸ rfl⟩
      | ok core =>
        dsimp only [Except.toOption, Option.map_some]
        simp only [bind_eq_ok, loadRecord_eq_ok, pure_eq_ok]
        constructor
        · rintro ⟨_, ⟨hreads, rfl⟩, rfl⟩
          exact ⟨⟨trivial, fun _ => hreads⟩, rfl⟩
        · rintro ⟨⟨-, hreads⟩, rfl⟩
          exact ⟨_, ⟨hreads rfl, rfl⟩, rfl⟩

theorem mem_cardDirs {files : AssessFiles} {p : String × CardFiles} :
    p ∈ files.cardDirs ↔ p ∈ files.cards :=
  (List.perm_insertionSort _ _).mem_iff

/-- The rows of the report. -/
def AssessFiles.unreadable (E : AssessEnv) (files : AssessFiles) : List Unreadable :=
  files.cardDirs.flatMap fun p => p.2.unreadable E files.cardsDir p.1

theorem loadCards_eq_ok {files : AssessFiles} {r : Assoc String CardRecord × List Unreadable} :
    loadCards E files = .ok r ↔
      (∀ p ∈ files.cards, p.2.isTooDeep E = false ∧ ((p.2.intactCore E).isSome → p.2.Reads E)) ∧
        r = (files.records E, files.unreadable E) := by
  rw [loadCards, bind_eq_ok]
  simp only [mapM_eq_ok_iff_map fun p r => loadCard_eq_ok (r := r), pure_eq_ok, mem_cardDirs]
  have hvalue : ∀ l : List (String × CardFiles),
      (recordsById ((l.map fun p =>
          (p.2.record E p.1, p.2.unreadable E files.cardsDir p.1)).filterMap Prod.fst),
        (l.map fun p => (p.2.record E p.1, p.2.unreadable E files.cardsDir p.1)).flatMap Prod.snd) =
        (recordsById (l.filterMap fun p => p.2.record E p.1),
          l.flatMap fun p => p.2.unreadable E files.cardsDir p.1) := by
    intro l
    rw [List.filterMap_map, List.flatMap_map]
    rfl
  constructor
  · rintro ⟨loaded, ⟨hreads, rfl⟩, rfl⟩
    exact ⟨hreads, hvalue _⟩
  · rintro ⟨hreads, rfl⟩
    exact ⟨_, ⟨hreads, rfl⟩, hvalue _⟩

theorem loadEvidence_eq_ok {files : AssessFiles} {r : Assoc String (List EvidenceRow)} :
    loadEvidence E files.evidence = .ok r ↔
      (∀ p ∈ jsonlFiles files.evidence, HasLines E p.2) ∧ r = files.rows E := by
  rw [loadEvidence, bind_eq_ok]
  simp only [mapM_eq_ok_iff_map fun p r => jsonObjectLines_eq_ok (r := r), pure_eq_ok]
  constructor
  · rintro ⟨shards, ⟨htexts, rfl⟩, rfl⟩
    rw [List.flatMap_map]
    exact ⟨htexts, rfl⟩
  · rintro ⟨htexts, rfl⟩
    refine ⟨_, ⟨htexts, rfl⟩, ?_⟩
    rw [List.flatMap_map]
    rfl

/-! ### Classifying -/

/-- What the classes need of a record: its lists are lists, its actions have hashes, and the times
that are compared lie in the range of a `datetime`. -/
structure Classifiable (E : AssessEnv) (q : AssessQuery) (rows : List EvidenceRow)
    (r : CardRecord) : Prop where
  dependencies : ((Dict.getD r.core "dependencies" (.arr [])).iter).isOk
  labels : r.labels.isOk
  actions : ∀ e ∈ r.events, (Dict.get e "action").hashable
  claimTime : ∀ claim, currentClaim r.events = .ok (some claim) →
    (parseTime E (claim.get "ts")).isOk
  times : ∀ claim t, currentClaim r.events = .ok (some claim) →
    parseTime E (claim.get "ts") = .ok (some t) → q.staleAfter ≤ q.now.gap t →
      (∀ e ∈ r.events, (parseTime E (Dict.get e "ts")).isOk) ∧
        ∀ row ∈ rows, (parseTime E row.ts).isOk

variable {q : AssessQuery} {r : CardRecord} {rows : List EvidenceRow}

theorem voidEdges_isOk (records : Assoc String CardRecord) :
    (voidEdges E records r).isOk ↔ ((Dict.getD r.core "dependencies" (.arr [])).iter).isOk := by
  simp only [isOk_iff, voidEdges, CardRecord.dependencies, bind_eq_ok, pure_eq_ok]
  constructor
  · rintro ⟨_, _, ⟨elems, helems, -⟩, -⟩
    exact ⟨elems, helems⟩
  · rintro ⟨elems, helems⟩
    exact ⟨_, _, ⟨elems, helems, rfl⟩, rfl⟩

theorem currentClaim_isOk {events : List Event} :
    (currentClaim events).isOk ↔ ∀ e ∈ events, (Dict.get e "action").hashable = true := by
  simp only [isOk_iff, currentClaim, bind_eq_ok, ClaimScan.foldlM_step, pure_eq_ok]
  constructor
  · rintro ⟨_, _, ⟨hall, -⟩, -⟩
    exact hall
  · exact fun hall => ⟨_, _, ⟨hall, rfl⟩, rfl⟩

/-- A loop that parses a time in each turn returns exactly when all times are in range. -/
theorem foldlM_parseTime {α β : Type} (ts : α → Json) (next : β → α → Option DateTime → β) :
    ∀ {l : List α} {b : β},
      (∃ c, l.foldlM (fun b a => do
        let time ← parseTime E (ts a)
        pure (next b a time)) b = Except.ok c) ↔ ∀ a ∈ l, (parseTime E (ts a)).isOk
  | [], b => ⟨fun _ _ ha => (List.not_mem_nil ha).elim, fun _ => ⟨b, rfl⟩⟩
  | a :: l, b => by
    simp only [foldlM_cons_eq_ok, bind_eq_ok, pure_eq_ok, List.forall_mem_cons]
    constructor
    · rintro ⟨c, _, ⟨t, ht, rfl⟩, hl⟩
      exact ⟨isOk_iff.mpr ⟨t, ht⟩, (foldlM_parseTime ts next).mp ⟨c, hl⟩⟩
    · rintro ⟨ha, hl⟩
      obtain ⟨t, ht⟩ := isOk_iff.mp ha
      obtain ⟨c, hc⟩ := (foldlM_parseTime ts next (b := next b a t)).mpr hl
      exact ⟨c, _, ⟨t, ht, rfl⟩, hc⟩

theorem blockedEvidenceAfter_isOk (after : DateTime) :
    (blockedEvidenceAfter E r after rows).isOk ↔
      (∀ e ∈ r.events, (parseTime E (Dict.get e "ts")).isOk) ∧
        ∀ row ∈ rows, (parseTime E row.ts).isOk := by
  rw [isOk_iff, blockedEvidenceAfter]
  simp only [bind_eq_ok]
  constructor
  · rintro ⟨b, c, hevents, hrows⟩
    exact ⟨(foldlM_parseTime (fun e : Event => e.get "ts") _).mp ⟨c, hevents⟩,
      (foldlM_parseTime EvidenceRow.ts _).mp ⟨b, hrows⟩⟩
  · rintro ⟨hevents, hrows⟩
    obtain ⟨c, hc⟩ := (foldlM_parseTime (fun e : Event => e.get "ts") _).mpr hevents
    obtain ⟨b, hb⟩ := (foldlM_parseTime EvidenceRow.ts _).mpr hrows
    exact ⟨b, c, hc, hb⟩

theorem producedAnything_isOk {after : DateTime} : ∀ {rows : List EvidenceRow},
    (∀ row ∈ rows, (parseTime E row.ts).isOk) → (producedAnything E after rows).isOk
  | [], _ => rfl
  | row :: rows, h => by
    obtain ⟨t, ht⟩ := isOk_iff.mp (h row List.mem_cons_self)
    rw [producedAnything, ht, ok_bind]
    split
    · rfl
    · exact producedAnything_isOk fun row' hrow => h row' (List.mem_cons_of_mem _ hrow)

theorem claimEntries_isOk {claim : Event} {after : DateTime} :
    (claimEntries E q r rows claim after).isOk ↔
      (∀ e ∈ r.events, (parseTime E (Dict.get e "ts")).isOk) ∧
        ∀ row ∈ rows, (parseTime E row.ts).isOk := by
  rw [← blockedEvidenceAfter_isOk after, claimEntries]
  constructor
  · intro h
    obtain ⟨_, h⟩ := isOk_iff.mp h
    obtain ⟨blocked, hblocked, -⟩ := bind_eq_ok.mp h
    exact isOk_iff.mpr ⟨blocked, hblocked⟩
  · intro h
    obtain ⟨blocked, hblocked⟩ := isOk_iff.mp h
    have hproduced : (producedAnything E after rows).isOk :=
      producedAnything_isOk ((blockedEvidenceAfter_isOk after).mp h).2
    rw [hblocked, ok_bind]
    cases blocked with
    | some blocked => rfl
    | none =>
      obtain ⟨produced, hproduced⟩ := isOk_iff.mp hproduced
      dsimp only
      rw [hproduced]
      rfl

/-- When the assessment of one claim returns: every action of the log can be hashed, the time of the
claim is readable, and where the claim is old enough, so are the times of all events and of all
evidence rows. -/
theorem assessClaim_isOk {evidence : Assoc String (List EvidenceRow)} :
    (assessClaim E q evidence r).isOk ↔
      (∀ e ∈ r.events, (Dict.get e "action").hashable) ∧
      (∀ claim, currentClaim r.events = .ok (some claim) → (parseTime E (claim.get "ts")).isOk) ∧
      ∀ claim t, currentClaim r.events = .ok (some claim) →
        parseTime E (claim.get "ts") = .ok (some t) → q.staleAfter ≤ q.now.gap t →
          (∀ e ∈ r.events, (parseTime E (Dict.get e "ts")).isOk) ∧
            ∀ row ∈ (Assoc.get? evidence r.cardId).getD [], (parseTime E row.ts).isOk := by
  rw [← currentClaim_isOk]
  unfold assessClaim
  cases currentClaim r.events with
  | error x => exact ⟨nofun, fun h => nomatch h.1⟩
  | ok claim =>
    rw [ok_bind]
    cases claim with
    | none =>
      refine ⟨fun _ => ⟨rfl, fun c hc => ?_, fun c t hc => ?_⟩, fun _ => rfl⟩
      · cases hc
      · cases hc
    | some claim =>
      -- The claim is known here, so the conditions speak of it alone.
      have hone : ∀ {P : Event → Prop},
          (∀ c, (Except.ok (some claim) : Except PyError (Option Event)) = .ok (some c) → P c) ↔
            P claim :=
        ⟨fun h => h claim rfl, fun h c hc => by cases hc; exact h⟩
      rw [hone]
      dsimp only
      cases htime : parseTime E (claim.get "ts") with
      | error x => exact ⟨fun h => (nomatch h), fun h => (nomatch h.2.1)⟩
      | ok time =>
        rw [ok_bind]
        cases time with
        | none =>
          refine ⟨fun _ => ⟨rfl, rfl, fun c t hc ht => ?_⟩, fun _ => rfl⟩
          cases hc
          cases htime.symm.trans ht
        | some t =>
          dsimp only
          -- A fresh claim ends the assessment before any other time is read.
          by_cases hfresh : q.now.gap t < q.staleAfter
          · rw [if_pos hfresh]
            refine ⟨fun _ => ⟨rfl, rfl, fun c u hc hu hstale => ?_⟩, fun _ => rfl⟩
            cases hc
            obtain rfl := Option.some.inj (Except.ok.inj (htime.symm.trans hu))
            omega
          · rw [if_neg hfresh, claimEntries_isOk]
            refine ⟨fun h => ⟨rfl, rfl, fun c u hc _ _ => h⟩,
              fun h => h.2.2 claim t rfl htime (by omega)⟩

theorem supersededBy_isOk : (supersededBy E r).isOk ↔ r.labels.isOk := by
  simp only [isOk_iff, supersededBy, bind_eq_ok, pure_eq_ok]
  constructor
  · rintro ⟨_, labels, hlabels, -⟩
    exact ⟨labels, hlabels⟩
  · rintro ⟨labels, hlabels⟩
    exact ⟨_, labels, hlabels, rfl⟩

/-- A core whose labels are a list says whether its card is a gate. -/
theorem isHumanGate_isOk (h : r.labels.isOk) : (isHumanGate E r).isOk := by
  have hiter : ((Dict.get r.core "initial_labels").orElse (.arr [])).iter.isOk := by
    unfold CardRecord.labels Dict.getD at h
    unfold Dict.get Json.orElse
    cases hget : Assoc.get? r.core "initial_labels" with
    | none => rfl
    | some v =>
      rw [hget] at h
      simp only [Option.getD_some] at h ⊢
      split
      · exact h
      · rfl
  obtain ⟨labels, hlabels⟩ := isOk_iff.mp hiter
  rw [isHumanGate, hlabels]
  rfl

theorem evidenceSupersedes_isOk {records : Assoc String CardRecord}
    (h : ∀ p ∈ records, p.2.labels.isOk) (cardId : String) (row : EvidenceRow) :
    (evidenceSupersedes E records cardId row).isOk := by
  unfold evidenceSupersedes
  split
  · rfl
  · rename_i r old new hlink
    obtain ⟨_, -, hnew⟩ := Option.bind_eq_some_iff.mp hlink
    obtain ⟨_, -, hold⟩ := Option.bind_eq_some_iff.mp hnew
    obtain ⟨_, -, hget⟩ := Option.bind_eq_some_iff.mp hold
    obtain ⟨r', hr', heq⟩ := Option.map_eq_some_iff.mp hget
    cases heq
    obtain ⟨gate, hgate⟩ := isOk_iff.mp (isHumanGate_isOk (E := E) (h _ (Assoc.mem_of_get? hr')))
    rw [hgate, ok_bind]
    cases gate <;> rfl

theorem supersededIds_isOk {records : Assoc String CardRecord}
    (evidence : Assoc String (List EvidenceRow)) :
    (supersededIds E records evidence).isOk ↔ ∀ p ∈ records, p.2.labels.isOk := by
  rw [isOk_iff]
  unfold supersededIds
  constructor
  · rintro ⟨_, h⟩ p hp
    obtain ⟨stored, hstored, -⟩ := bind_eq_ok.mp h
    obtain ⟨_, -, hcard⟩ := mapM_ok_of_mem hstored p hp
    obtain ⟨old, hold, -⟩ := bind_eq_ok.mp hcard
    exact supersededBy_isOk.mp (isOk_iff.mpr ⟨old, hold⟩)
  · intro h
    have hstored : ∃ m, records.mapM (fun p => do
        let old ← supersededBy E p.2
        pure ((old.filter fun id => id ∈ Assoc.keys records ∧ id ≠ p.2.cardId).map fun id =>
          (id, p.2.cardId))) = Except.ok m := by
      refine exists_mapM_ok fun p hp => ?_
      obtain ⟨old, hold⟩ := isOk_iff.mp (supersededBy_isOk.mpr (h p hp))
      exact ⟨_, bind_eq_ok.mpr ⟨old, hold, rfl⟩⟩
    have hlinked : ∃ m, evidence.mapM (fun p =>
        p.2.mapM (evidenceSupersedes E records p.1)) = Except.ok m :=
      exists_mapM_ok fun p _ =>
        isOk_iff.mp (mapM_isOk.mpr fun row _ => evidenceSupersedes_isOk h p.1 row)
    obtain ⟨stored, hstored⟩ := hstored
    obtain ⟨linked, hlinked⟩ := hlinked
    exact ⟨_, bind_eq_ok.mpr ⟨stored, hstored, bind_eq_ok.mpr ⟨linked, hlinked, rfl⟩⟩⟩

/-- The rows of a record. -/
def rowsOf (evidence : Assoc String (List EvidenceRow)) (r : CardRecord) : List EvidenceRow :=
  (Assoc.get? evidence r.cardId).getD []

theorem classify_isOk {records : Assoc String CardRecord} (unreadable : List Unreadable)
    {evidence : Assoc String (List EvidenceRow)} :
    (classify E q records unreadable evidence).isOk ↔
      ∀ p ∈ records, Classifiable E q (rowsOf evidence p.2) p.2 := by
  rw [isOk_iff]
  unfold classify
  simp only [bind_eq_ok]
  constructor
  · rintro ⟨_, edges, hedges, claims, hclaims, superseded, hsuperseded, -⟩ p hp
    obtain ⟨_, -, hedge⟩ := mapM_ok_of_mem hedges p hp
    obtain ⟨_, -, hclaim⟩ := mapM_ok_of_mem hclaims p hp
    obtain ⟨hactions, htime, htimes⟩ := assessClaim_isOk.mp (isOk_iff.mpr ⟨_, hclaim⟩)
    exact ⟨(voidEdges_isOk _).mp (isOk_iff.mpr ⟨_, hedge⟩),
      (supersededIds_isOk _).mp (isOk_iff.mpr ⟨_, hsuperseded⟩) p hp, hactions, htime, htimes⟩
  · intro h
    obtain ⟨edges, hedges⟩ := isOk_iff.mp (mapM_isOk.mpr fun p hp =>
      (voidEdges_isOk records).mpr (h p hp).dependencies)
    obtain ⟨claims, hclaims⟩ := isOk_iff.mp (mapM_isOk.mpr fun p hp =>
      assessClaim_isOk.mpr ⟨(h p hp).actions, (h p hp).claimTime, (h p hp).times⟩)
    obtain ⟨superseded, hsuperseded⟩ := isOk_iff.mp
      ((supersededIds_isOk evidence).mpr fun p hp => (h p hp).labels)
    exact ⟨_, edges, hedges, claims, hclaims, superseded, hsuperseded, rfl⟩

/-- Of what was not readable only its own class depends. -/
theorem classify_unreadable {records : Assoc String CardRecord} (unreadable : List Unreadable)
    {evidence : Assoc String (List EvidenceRow)} {c : AssessClasses}
    (h : classify E q records unreadable evidence = .ok c) (unreadable' : List Unreadable) :
    ∃ c', classify E q records unreadable' evidence = .ok c' ∧
      c = { c' with unreadableCards := c.unreadableCards } := by
  unfold classify at h ⊢
  simp only [bind_eq_ok, pure_eq_ok] at h ⊢
  obtain ⟨edges, hedges, claims, hclaims, superseded, hsuperseded, rfl⟩ := h
  exact ⟨_, ⟨edges, hedges, claims, hclaims, superseded, hsuperseded, rfl⟩, rfl⟩

variable {files : AssessFiles}

/-- **What an assessment returns**, and when. -/
theorem assess_eq_ok_iff {report : AssessReport} :
    assess E files q = .ok report ↔ files.Reads E ∧
      classify E q (files.records E) (files.unreadable E) (files.rows E) = .ok report.classes ∧
        report.generatedAt = q.now.isoUtc ∧ report.excludedCardIds = report.classes.excluded := by
  unfold assess
  simp only [bind_eq_ok, loadCards_eq_ok, loadEvidence_eq_ok, pure_eq_ok]
  constructor
  · rintro ⟨_, ⟨hcards, rfl⟩, _, ⟨hshards, rfl⟩, classes, hclasses, rfl⟩
    exact ⟨⟨fun p hp => (hcards p hp).1, fun p hp => (hcards p hp).2, hshards⟩, hclasses, rfl, rfl⟩
  · rintro ⟨hreads, hclasses, hat, hids⟩
    refine ⟨_, ⟨fun p hp => ⟨hreads.cores p hp, hreads.cards p hp⟩, rfl⟩, _,
      ⟨hreads.shards, rfl⟩, report.classes, hclasses, ?_⟩
    obtain ⟨at', classes', ids⟩ := report
    dsimp only at hat hids
    rw [hat, hids]

theorem assess_isOk_iff : (assess E files q).isOk ↔ files.Reads E ∧
    ∀ p ∈ files.records E, Classifiable E q (rowsOf (files.rows E) p.2) p.2 := by
  rw [← classify_isOk (files.unreadable E), isOk_iff, isOk_iff]
  constructor
  · rintro ⟨report, h⟩
    obtain ⟨hreads, hclasses, -⟩ := assess_eq_ok_iff.mp h
    exact ⟨hreads, _, hclasses⟩
  · rintro ⟨hreads, classes, hclasses⟩
    exact ⟨⟨q.now.isoUtc, classes, classes.excluded⟩,
      assess_eq_ok_iff.mpr ⟨hreads, hclasses, rfl, rfl⟩⟩

/-! ### The intact files -/

theorem decodeUtf8_intactFile (content : Bytes) :
    decodeUtf8 (intactFile E content) = some (unlines (intactLines E content)) :=
  decodeUtf8_encodeUtf8 _

theorem mem_intactLines {content : Bytes} {line : List Char} (h : line ∈ intactLines E content) :
    (∀ c ∈ line, isLineBreak c = false) ∧ isObjectLine E line = true := by
  obtain ⟨text, -, hline⟩ := List.mem_flatMap.mp h
  obtain ⟨hmem, hobject⟩ := List.mem_filter.mp hline
  exact ⟨unbroken_of_mem_splitlines hmem, hobject⟩

/-- Taking damaged lines away leaves the intact ones. -/
theorem intactLines_intactFile (content : Bytes) :
    intactLines E (intactFile E content) = intactLines E content := by
  rw [intactLines_eq (decodeUtf8_intactFile content),
    splitlines_unlines fun line hline => (mem_intactLines hline).1]
  exact List.filter_eq_self.mpr fun line hline => (mem_intactLines hline).2

theorem logObjects_intactFile (content : Bytes) :
    logObjects E (intactFile E content) = logObjects E content := by
  rw [logObjects, intactLines_intactFile]
  rfl

theorem jsonlFiles_map (f : Bytes → Bytes) (logs : Assoc String Bytes) :
    jsonlFiles (logs.map fun p => (p.1, f p.2)) = (jsonlFiles logs).map fun p => (p.1, f p.2) := by
  rw [jsonlFiles, jsonlFiles, List.filter_map]
  exact insertionSort_mapValues f _

theorem flatMap_logObjects_intact (logs : Assoc String Bytes) :
    ((jsonlFiles (logs.map fun p => (p.1, intactFile E p.2))).flatMap fun p => logObjects E p.2) =
      (jsonlFiles logs).flatMap fun p => logObjects E p.2 := by
  rw [jsonlFiles_map, List.flatMap_map]
  exact List.flatMap_congr fun p _ => logObjects_intactFile p.2

theorem mem_splitlines_of_numberedLines {text : List Char} {p : List Char × ℕ}
    (h : p ∈ numberedLines text) : p.1 ∈ splitlines text ∧ p.1.all isSpace = false := by
  obtain ⟨hmem, hspaces⟩ := List.mem_filter.mp h
  exact ⟨List.fst_mem_of_mem_zipIdx hmem, by simpa using hspaces⟩

theorem hasLines_intact (logs : Assoc String Bytes) :
    ∀ p ∈ jsonlFiles (logs.map fun p => (p.1, intactFile E p.2)), HasLines E p.2 := by
  intro p hp
  rw [jsonlFiles_map, List.mem_map] at hp
  obtain ⟨q, -, rfl⟩ := hp
  refine ⟨_, decodeUtf8_intactFile q.2, fun line hline => ?_⟩
  have hmem := (mem_splitlines_of_numberedLines hline).1
  rw [splitlines_unlines fun line hline => (mem_intactLines hline).1] at hmem
  exact not_tooDeep_of_isObjectLine (mem_intactLines hmem).2

theorem isTooDeep_intact (c : CardFiles) : (c.intact E).isTooDeep E = false := by
  unfold CardFiles.intact CardFiles.isTooDeep
  cases c.core with
  | none => rfl
  | some content =>
    dsimp only
    rw [Option.filter_some]
    cases hcore : coreObject E content with
    | error error => rfl
    | ok core =>
      show (decodeUtf8 content).any E.tooDeep = false
      cases htext : decodeUtf8 content with
      | none => rfl
      | some text =>
        refine Bool.eq_false_of_not_eq_true fun hdeep => ?_
        rw [coreObject, htext, Option.bind_some, loads_of_tooDeep hdeep] at hcore
        cases hcore

theorem intactCore_intact (c : CardFiles) : (c.intact E).intactCore E = c.intactCore E := by
  unfold CardFiles.intact CardFiles.intactCore
  cases c.core with
  | none => rfl
  | some content =>
    dsimp only
    rw [Option.filter_some, Option.bind_some]
    cases hcore : coreObject E content with
    | error error => rfl
    | ok core =>
      show ((some content).bind fun content => (coreObject E content).toOption) = _
      rw [Option.bind_some, hcore]

theorem objects_intact (c : CardFiles) : (c.intact E).objects E = c.objects E :=
  flatMap_logObjects_intact c.events

theorem record_intact (name : String) (c : CardFiles) :
    (c.intact E).record E name = c.record E name := by
  rw [CardFiles.record, intactCore_intact, objects_intact]
  rfl

theorem cardDirs_intact :
    (files.intact E).cardDirs = files.cardDirs.map fun p => (p.1, p.2.intact E) :=
  insertionSort_mapValues (CardFiles.intact E) files.cards

theorem records_intact : (files.intact E).records E = files.records E := by
  rw [AssessFiles.records, cardDirs_intact, List.filterMap_map]
  exact congrArg recordsById (List.filterMap_congr fun p _ => record_intact p.1 p.2)

theorem rows_intact : (files.intact E).rows E = files.rows E :=
  congrArg (evidenceOf E) (flatMap_logObjects_intact files.evidence)

/-- Files that are read are read without what is damaged. -/
theorem AssessFiles.Reads.intact (h : files.Reads E) : (files.intact E).Reads E where
  cores := by
    intro p hp
    obtain ⟨q, -, rfl⟩ := List.mem_map.mp hp
    exact isTooDeep_intact q.2
  cards := by
    intro p hp hcore
    obtain ⟨q, hq, rfl⟩ := List.mem_map.mp hp
    rw [intactCore_intact] at hcore
    refine ⟨hasLines_intact q.2.events, ?_⟩
    rw [objects_intact]
    exact (h.cards q hq hcore).ordered
  shards := hasLines_intact files.evidence

/-- **Isolation**: the classes of the report are those of the intact files. -/
theorem assess_intact {report : AssessReport} (h : assess E files q = .ok report) :
    ∃ report', assess E (files.intact E) q = .ok report' ∧ report.classes =
      { report'.classes with unreadableCards := report.classes.unreadableCards } := by
  obtain ⟨hreads, hclasses, -⟩ := assess_eq_ok_iff.mp h
  obtain ⟨classes, hintact, heq⟩ :=
    classify_unreadable _ hclasses ((files.intact E).unreadable E)
  rw [← records_intact, ← rows_intact] at hintact
  exact ⟨⟨q.now.isoUtc, classes, classes.excluded⟩,
    assess_eq_ok_iff.mpr ⟨hreads.intact, hintact, rfl, rfl⟩, heq⟩

/-! ### The report -/

/-- A log that is a text of objects and blank lines. -/
def IntactLog (E : AssessEnv) (content : Bytes) : Prop :=
  ∃ text, decodeUtf8 content = some text ∧
    ∀ line ∈ splitlines text, line.all isSpace = false → isObjectLine E line = true

theorem intactLog_iff {path : String} {content : Bytes} :
    IntactLog E content ↔ logDamage E path content = [] := by
  unfold IntactLog logDamage
  cases decodeUtf8 content with
  | none => exact ⟨fun ⟨_, h, _⟩ => (nomatch h), fun h => (nomatch h)⟩
  | some text =>
    simp only [Option.some.injEq, exists_eq_left', List.map_eq_nil_iff, List.filter_eq_nil_iff,
      numberedLines, List.mem_filter, Bool.not_eq_true', Bool.not_eq_false]
    constructor
    · rintro h p ⟨hp, hspaces⟩
      exact h p.1 (List.fst_mem_of_mem_zipIdx hp) hspaces
    · intro h line hline hspaces
      obtain ⟨n, hn, rfl⟩ := List.mem_iff_getElem.mp hline
      exact h (_, 1 + n) ⟨List.mk_add_mem_zipIdx_iff_getElem?.mpr (List.getElem?_eq_getElem hn),
        hspaces⟩

/-- A row of the report is about a core that is damaged. -/
theorem mem_unreadable {dir name : String} {c : CardFiles} {row : Unreadable}
    (h : row ∈ c.unreadable E dir name) (hcard : row.cardId.getD "" ≠ "") :
    name ≠ "" ∧ row.path = dir ++ "/" ++ name ++ "/core.json" := by
  unfold CardFiles.unreadable at h
  cases hfile : c.core with
  | none =>
    rw [hfile] at h
    exact absurd h List.not_mem_nil
  | some content =>
    rw [hfile] at h
    dsimp only at h
    cases hcore : coreObject E content with
    | error error =>
      rw [hcore] at h
      obtain rfl := List.mem_singleton.mp h
      exact ⟨hcard, rfl⟩
    | ok core =>
      -- a line of a log has no card
      rw [hcore] at h
      exfalso
      obtain ⟨p, -, hrow⟩ := List.mem_flatMap.mp h
      unfold logUnreadable at hrow
      cases hdecode : decodeUtf8 p.2 with
      | none =>
        rw [hdecode] at hrow
        exact absurd hrow List.not_mem_nil
      | some text =>
        rw [hdecode] at hrow
        obtain ⟨line, -, hline⟩ := List.mem_filterMap.mp hrow
        unfold lineDamage at hline
        split at hline
        · cases hline
          exact hcard rfl
        · cases hline

theorem mem_unreadableCards {report : AssessReport} (h : assess E files q = .ok report)
    {row : Unreadable} : row ∈ report.classes.unreadableCards ↔
      row ∈ files.unreadable E ∧ row.cardId.getD "" ≠ "" := by
  obtain ⟨-, hclasses, -⟩ := assess_eq_ok_iff.mp h
  unfold classify at hclasses
  simp only [bind_eq_ok, pure_eq_ok] at hclasses
  obtain ⟨_, -, _, -, _, -, hclasses⟩ := hclasses
  rw [← hclasses]
  dsimp only
  rw [(List.perm_insertionSort _ _).mem_iff, List.mem_filter, decide_eq_true_iff]

theorem mem_files_unreadable {row : Unreadable} :
    row ∈ files.unreadable E ↔ ∃ p ∈ files.cards, row ∈ p.2.unreadable E files.cardsDir p.1 := by
  rw [AssessFiles.unreadable, List.mem_flatMap]
  simp only [mem_cardDirs]

/-- No place of a log is the path of a core. -/
theorem getLast?_logDamage {path place : String} {content : Bytes} (hpath : endsWith path ".jsonl")
    (h : place ∈ logDamage E path content) : place.toList.getLast? ≠ some 'n' := by
  unfold logDamage at h
  cases hdecode : decodeUtf8 content with
  | none =>
    rw [hdecode] at h
    obtain rfl := List.mem_singleton.mp h
    obtain ⟨l, hl⟩ := List.isSuffixOf_iff_suffix.mp hpath
    rw [← hl]
    have hsuffix : ".jsonl".toList = ".json".toList ++ ['l'] := by decide
    rw [hsuffix, ← List.append_assoc, List.getLast?_append, List.getLast?_singleton, Option.some_or]
    decide
  | some text =>
    rw [hdecode] at h
    obtain ⟨p, -, rfl⟩ := List.mem_map.mp h
    rw [String.toList_append, Nat.toString_eq_repr, Nat.toList_repr]
    intro hlast
    rw [List.getLast?_append_of_ne_nil _ Nat.toDigits_ne_nil] at hlast
    exact absurd (Nat.isDigit_of_mem_toDigits (by decide) (by decide)
      (List.mem_of_getLast? hlast)) (by decide)

theorem getLast?_corePath (dir name : String) :
    (dir ++ "/" ++ name ++ "/core.json").toList.getLast? = some 'n' := by
  have hsuffix : "/core.json".toList = "/core.jso".toList ++ ['n'] := by decide
  rw [String.toList_append, hsuffix, ← List.append_assoc, List.getLast?_append]
  rfl

/-! ### The condition -/

/-- The files are such that an assessment returns and reports what is damaged. -/
structure Tolerable (E : AssessEnv) (files : AssessFiles) (q : AssessQuery) : Prop where
  cores : ∀ p ∈ files.cards, p.2.isTooDeep E = false
  named : ∀ p ∈ files.cards, p.2.core.isSome → p.2.intactCore E = none → p.1 ≠ ""
  logs : ∀ p ∈ files.cards, p.2.core.isSome → ∀ log ∈ jsonlFiles p.2.events, IntactLog E log.2
  ordered : ∀ p ∈ files.cards, (p.2.intactCore E).isSome → (p.2.objects E).Pairwise fun e f =>
    SortKey.Comparable (recordEventKey E e) (recordEventKey E f)
  shards : ∀ p ∈ jsonlFiles files.evidence, HasLines E p.2
  classes : ∀ p ∈ files.records E, Classifiable E q (rowsOf (files.rows E) p.2) p.2

theorem Tolerable.reads (h : Tolerable E files q) : files.Reads E where
  cores := h.cores
  cards := by
    intro p hp hcore
    have hfile : p.2.core.isSome := by
      unfold CardFiles.intactCore at hcore
      cases hfile : p.2.core with
      | none =>
        rw [hfile] at hcore
        cases hcore
      | some content => rfl
    refine ⟨fun log hlog => ?_, h.ordered p hp hcore⟩
    obtain ⟨text, htext, hlines⟩ := h.logs p hp hfile log hlog
    refine ⟨text, htext, fun line hline => ?_⟩
    obtain ⟨hmem, hspaces⟩ := mem_splitlines_of_numberedLines hline
    exact not_tooDeep_of_isObjectLine (hlines _ hmem hspaces)
  shards := h.shards

/-- What is damaged of a tolerable card is its core. -/
theorem Tolerable.mem_damage (h : Tolerable E files q) {p : String × CardFiles}
    (hp : p ∈ files.cards) {place : String} (hplace : place ∈ p.2.damage E files.cardsDir p.1) :
    ∃ row ∈ p.2.unreadable E files.cardsDir p.1, row.cardId.getD "" ≠ "" ∧ row.path = place := by
  have hnamed := h.named p hp
  have hlogs := h.logs p hp
  unfold CardFiles.damage at hplace
  unfold CardFiles.unreadable
  unfold CardFiles.intactCore at hnamed
  cases hfile : p.2.core with
  | none =>
    rw [hfile] at hplace
    exact absurd hplace List.not_mem_nil
  | some content =>
    rw [hfile] at hplace hnamed hlogs
    rcases List.mem_append.mp hplace with hplace | hplace
    · cases hcore : coreObject E content with
      | error error =>
        rw [hcore] at hplace
        obtain rfl := List.mem_singleton.mp hplace
        have hname : p.1 ≠ "" := by
          refine hnamed rfl ?_
          rw [Option.bind_some, hcore]
          rfl
        refine ⟨⟨some p.1, files.cardsDir ++ "/" ++ p.1 ++ "/core.json", error⟩, ?_, hname, rfl⟩
        dsimp only
        rw [hcore]
        exact List.mem_singleton_self _
      | ok core =>
        rw [hcore] at hplace
        exact absurd hplace List.not_mem_nil
    · obtain ⟨log, hlog, hplace⟩ := List.mem_flatMap.mp hplace
      rw [intactLog_iff.mp (hlogs rfl log hlog)] at hplace
      exact absurd hplace List.not_mem_nil

theorem endsWith_of_mem_jsonlFiles {logs : Assoc String Bytes} {p : String × Bytes}
    (h : p ∈ jsonlFiles logs) : endsWith p.1 ".jsonl" := by
  rw [jsonlFiles, (List.perm_insertionSort _ _).mem_iff] at h
  exact (List.mem_filter.mp h).2

theorem endsWith_logPath {dir name log : String} (h : endsWith log ".jsonl") :
    endsWith (logPath dir name log) ".jsonl" := by
  obtain ⟨l, hl⟩ := List.isSuffixOf_iff_suffix.mp h
  refine List.isSuffixOf_iff_suffix.mpr ⟨(dir ++ "/" ++ name ++ "/events/").toList ++ l, ?_⟩
  have hpath : (logPath dir name log).toList = (dir ++ "/" ++ name ++ "/events/").toList ++
      log.toList := String.toList_append
  rw [List.append_assoc, hl, hpath]

/-- The directory of a core is known from its path. -/
theorem corePath_injective {dir name name' : String}
    (h : dir ++ "/" ++ name ++ "/core.json" = dir ++ "/" ++ name' ++ "/core.json") :
    name = name' := by
  have hlist := congrArg String.toList h
  simp only [String.toList_append] at hlist
  exact String.toList_inj.mp (List.append_cancel_left (List.append_cancel_right hlist))

/-- What is reported is the path of a core. -/
theorem Isolates.corePath (h : Isolates E files q) {p : String × CardFiles} (hp : p ∈ files.cards)
    {place : String} (hplace : place ∈ p.2.damage E files.cardsDir p.1) :
    ∃ name, name ≠ "" ∧ place = files.cardsDir ++ "/" ++ name ++ "/core.json" := by
  obtain ⟨report, hreport⟩ := h.returns
  obtain ⟨row, hrow, rfl⟩ := h.reported report hreport p hp place hplace
  obtain ⟨hmem, hcard⟩ := (mem_unreadableCards hreport).mp hrow
  obtain ⟨r, -, hr⟩ := mem_files_unreadable.mp hmem
  exact ⟨r.1, mem_unreadable hr hcard⟩

theorem Isolates.named (h : Isolates E files q) {p : String × CardFiles} (hp : p ∈ files.cards)
    (hfile : p.2.core.isSome) (hnone : p.2.intactCore E = none) : p.1 ≠ "" := by
  obtain ⟨content, hcontent⟩ := Option.isSome_iff_exists.mp hfile
  have hdamaged : (coreObject E content).isOk = false := by
    unfold CardFiles.intactCore at hnone
    rw [hcontent, Option.bind_some] at hnone
    cases hobject : coreObject E content with
    | error error => rfl
    | ok core =>
      rw [hobject] at hnone
      cases hnone
  have hplace : files.cardsDir ++ "/" ++ p.1 ++ "/core.json" ∈
      p.2.damage E files.cardsDir p.1 := by
    rw [CardFiles.damage, hcontent]
    dsimp only
    rw [hdamaged]
    exact List.mem_append_left _ (List.mem_singleton_self _)
  obtain ⟨name, hname, hpath⟩ := h.corePath hp hplace
  rw [corePath_injective hpath]
  exact hname

theorem Isolates.intactLog (h : Isolates E files q) {p : String × CardFiles} (hp : p ∈ files.cards)
    (hfile : p.2.core.isSome) {log : String × Bytes} (hlog : log ∈ jsonlFiles p.2.events) :
    IntactLog E log.2 := by
  obtain ⟨content, hcontent⟩ := Option.isSome_iff_exists.mp hfile
  have hnone : ∀ place, place ∉ logDamage E (logPath files.cardsDir p.1 log.1) log.2 := by
    intro place hplace
    have hmem : place ∈ p.2.damage E files.cardsDir p.1 := by
      rw [CardFiles.damage, hcontent]
      exact List.mem_append_right _ (List.mem_flatMap.mpr ⟨log, hlog, hplace⟩)
    obtain ⟨name, -, hpath⟩ := h.corePath hp hmem
    refine getLast?_logDamage (endsWith_logPath (endsWith_of_mem_jsonlFiles hlog)) hplace ?_
    rw [hpath, getLast?_corePath]
  exact intactLog_iff.mpr (List.eq_nil_iff_forall_not_mem.mpr hnone)

/-- **An assessment isolates damage and reports it** exactly when it tolerates its files: every log
of a card and every shard is a text, nothing nests too deep, no line of a log is damaged, and what
is intact can be sorted and classified. -/
theorem isolates_iff (E : AssessEnv) (files : AssessFiles) (q : AssessQuery) :
    Isolates E files q ↔ Tolerable E files q := by
  constructor
  · intro h
    obtain ⟨hreads, hclasses⟩ := assess_isOk_iff.mp (isOk_iff.mpr h.returns)
    exact ⟨hreads.cores, fun p hp => h.named hp, fun p hp hfile log => h.intactLog hp hfile,
      fun p hp hcore => (hreads.cards p hp hcore).ordered, hreads.shards, hclasses⟩
  · intro h
    refine ⟨isOk_iff.mp (assess_isOk_iff.mpr ⟨h.reads, h.classes⟩), fun report => assess_intact,
      fun report hreport p hp place hplace => ?_⟩
    obtain ⟨row, hrow, hcard, hpath⟩ := h.mem_damage hp hplace
    exact ⟨row, (mem_unreadableCards hreport).mpr ⟨mem_files_unreadable.mpr ⟨p, hp, hrow⟩, hcard⟩,
      hpath⟩

/-! ### A log that is cut -/

/-- The line of a comment. -/
def commentLine : Bytes :=
  encodeUtf8 "\x7b\"action\": \"comment\", \"text\": \"café\"\x7d".toList

/-- A card of whose log `n` bytes have arrived. -/
def cutLog (n : ℕ) : AssessFiles where
  cardsDir := "cards"
  cards := [("c1", {
    core := some (encodeUtf8 "\x7b\"id\": \"c1\"\x7d".toList)
    events := [("h.jsonl", commentLine.take n)] })]

/-- An environment without times. -/
def plainAssessEnv : AssessEnv where
  floats := zeroFloats
  tooLong := fun _ => false
  tooDeep := fun _ => false
  tables := asciiTables
  repr := fun _ => ""
  fromIsoformat := fun _ => none
  errorText := fun _ => "ValueError"

theorem intactLog_of_cutLog {n : ℕ} (h : Isolates E (cutLog n) q) :
    IntactLog E (commentLine.take n) := by
  have hjsonl : endsWith "h.jsonl" ".jsonl" = true := by decide
  have hlogs : jsonlFiles [("h.jsonl", commentLine.take n)] =
      [("h.jsonl", commentLine.take n)] := by
    rw [jsonlFiles, List.filter_eq_self.mpr fun p hp => by rw [List.mem_singleton.mp hp, hjsonl]]
    rfl
  have hmem : ("h.jsonl", commentLine.take n) ∈ jsonlFiles [("h.jsonl", commentLine.take n)] := by
    rw [hlogs]
    exact List.mem_singleton_self _
  exact h.intactLog List.mem_cons_self rfl hmem

/-- A log that is cut inside a character makes the assessment raise, and the line of one that is cut
before it is lost without a row in the report. -/
theorem cutLog_not_isolated :
    ¬ Isolates plainAssessEnv (cutLog 35) { now := { wall := 0 } } ∧
      ¬ Isolates plainAssessEnv (cutLog 34) { now := { wall := 0 } } := by
  constructor
  · intro h
    obtain ⟨text, htext, -⟩ := intactLog_of_cutLog h
    have hnone : decodeUtf8 (commentLine.take 35) = none := by decide +kernel
    rw [hnone] at htext
    cases htext
  · intro h
    obtain ⟨text, htext, hlines⟩ := intactLog_of_cutLog h
    have hread : decodeUtf8 (commentLine.take 34) =
        some "\x7b\"action\": \"comment\", \"text\": \"caf".toList := by decide +kernel
    obtain rfl := Option.some.inj (hread.symm.trans htext)
    have hlines' := hlines _ (by decide +kernel :
      "\x7b\"action\": \"comment\", \"text\": \"caf".toList ∈ splitlines _) (by decide +kernel)
    have hdamaged : isObjectLine plainAssessEnv
        "\x7b\"action\": \"comment\", \"text\": \"caf".toList = false := by decide +kernel
    rw [hdamaged] at hlines'
    cases hlines'

end

end SkCoord.Reassessment
