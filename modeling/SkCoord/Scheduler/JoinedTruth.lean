import SkCoord.CardStore.Overlay

/-!
# Joined truth

`readJoinedTruth` joins the structural facts of a card with the annotations that the links of its
own events and of the overlay make.  Both sources fold in one order, an annotation keeps where it
came from, and the lists of verdicts, gates and supersessions hold the annotations whose keys and
values read as such.
-/

namespace SkCoord

open Python

/-- One current link annotation with storage provenance. -/
structure Annotation where
  key : String
  value : String := ""
  authoritative : Bool := false
  legacy : Bool := false
  deriving DecidableEq, Repr

/-- Current presence or explicit removal of one label in each store. -/
structure LabelProvenance where
  label : String
  authoritative : Bool := false
  legacy : Bool := false
  authoritativeRemoved : Bool := false
  legacyRemoved : Bool := false
  deriving DecidableEq, Repr

/-- Current card facts joined without converting annotations into structure. -/
structure JoinedCardTruth where
  cardId : String
  lifecycle : String
  dependencies : List String
  claim : Option String
  void : Bool
  archived : Bool
  labels : List String
  labelProvenance : List LabelProvenance
  annotations : List Annotation
  verdicts : List Annotation
  hashes : List Annotation
  gateStatus : List Annotation
  reviewResults : List Annotation
  supersession : List Annotation
  deriving DecidableEq, Repr

/-! ### Classification -/

/-- `_normalized_key`. -/
def normalizedKey (key : String) : String :=
  String.ofList ((lower key).map fun c => if c = '_' then '-' else c)

/-- `_VERDICT_KEYS`. -/
def verdictKeys : List String :=
  ["closure-state", "disposition", "final-state", "gate-status", "independent-review", "result",
    "review", "review-result", "review-status"]

/-- The alternatives of `_VERDICT_TOKEN`, in lower case. -/
def verdictTokens : List (List Char) :=
  let joined (a b : String) : List (List Char) :=
    (a ++ b).toList :: "._ -".toList.map fun c => a.toList ++ c :: b.toList
  joined "changes" "required" ++ joined "fail" "closed" ++
    ["blocked".toList, "pass".toList, "fail".toList, "hold".toList]

/-- A letter, of a text whose case is folded. -/
def isLetter (c : Char) : Bool := 'a' ≤ c && c ≤ 'z'

/-- A token at the front of a text with no letter behind it. -/
def startsWithToken (l : List Char) : Bool :=
  verdictTokens.any fun token => token.isPrefixOf l && !(l.drop token.length).head?.any isLetter

/-- `_VERDICT_TOKEN.search`, behind a letter or not. -/
def searchVerdictToken (behindLetter : Bool) : List Char → Bool
  | [] => false
  | c :: l => (!behindLetter && startsWithToken (c :: l)) || searchVerdictToken (isLetter c) l

/-- `_has_explicit_verdict`. -/
def hasExplicitVerdict (value : String) : Bool :=
  let stripped := strip value
  let normalized := (upper stripped).map fun c => if "-. ".toList.contains c then '_' else c
  ["PASS", "FAIL", "BLOCKED", "HOLD", "FAIL_CLOSED", "CHANGES_REQUIRED"].contains
      (String.ofList normalized) ||
    searchVerdictToken false (stripped.toList.map foldChar)

/-- `_is_verdict`. -/
def isVerdict (key value : String) : Bool :=
  let lowered := normalizedKey key
  (verdictKeys.contains lowered || contains lowered "verdict") && hasExplicitVerdict value

/-- `_classify`. -/
def classify (annotations : List Annotation) (needles : List String) : List Annotation :=
  annotations.filter fun item => needles.any (contains (normalizedKey item.key))

/-! ### Folding -/

/-- `model_dump()`. -/
def CardEvent.dump (e : CardEvent) : Event :=
  let text (value : Option String) : Json := (value.map Json.str).getD .null
  [("card_id", .str e.cardId), ("action", .str e.action), ("event_id", text e.eventId),
    ("writer", .str e.writer), ("ts", .str e.ts), ("seq", .int e.seq), ("column", text e.column),
    ("order", (e.order.map Json.int).getD .null), ("priority", text e.priority),
    ("swimlane", text e.swimlane), ("label", text e.label), ("link_key", text e.linkKey),
    ("link_value", text e.linkValue), ("owner", text e.owner), ("title", text e.title),
    ("description", text e.description)]

/-- `_event_order`; an overlay event has the order of its dump. -/
def eventOrder (env : Env) (e : Event) : String ×ₗ String ×ₗ Int :=
  let seq :=
    match Dict.getD e "seq" (.int 0) with
    | .int i => i
    | .bool b => if b then 1 else 0
    | _ => 0
  toLex (env.format (Dict.getD e "ts" (.str "")),
    toLex (env.format (Dict.getD e "writer" (.str "")), seq))

/-- `sorted(events, key=_event_order)`. -/
def sortedEvents (env : Env) (events : List Event) : List Event :=
  events.insertionSort fun x y => eventOrder env x ≤ eventOrder env y

/-- `_current_links`. -/
def currentLinks (env : Env) (events : List Event) : Assoc String String :=
  (sortedEvents env events).foldl (fun links e =>
    match Dict.get e "link_key" with
    | .str key =>
      if (Dict.get e "action").pyEq (.str "link") then
        Assoc.set links key (env.format ((Dict.get e "link_value").orElse (.str "")))
      else links
    | _ => links) []

/-- `_fold_labels`: whether each label is present and whether it was removed. -/
def foldLabels (env : Env) (events : List Event) (initial : List String) :
    Assoc String (Bool × Bool) :=
  let start := initial.foldl (fun state label => Assoc.set state label (true, false)) []
  (sortedEvents env events).foldl (fun state e =>
    match Dict.get e "label" with
    | .str label =>
      if label = "" then state
      else if (Dict.get e "action").pyEq (.str "add_label") then
        Assoc.set state label (true, false)
      else if (Dict.get e "action").pyEq (.str "remove_label") then
        Assoc.set state label (false, true)
      else state
    | _ => state) start

/-- The annotations of two sets of links. -/
def joinAnnotations (authoritative legacy : Assoc String String) : List Annotation :=
  let pairs := (authoritative ++ legacy).dedup.insertionSort fun x y => toLex x ≤ toLex y
  pairs.map fun p =>
    { key := p.1
      value := p.2
      authoritative := Assoc.get? authoritative p.1 == some p.2
      legacy := Assoc.get? legacy p.1 == some p.2 }

/-- The provenance of the labels of two folds. -/
def joinLabels (authoritative legacy : Assoc String (Bool × Bool)) : List LabelProvenance :=
  let labels := (Assoc.keys authoritative ++ Assoc.keys legacy).dedup.insertionSort fun x y => x ≤ y
  labels.map fun label =>
    let a := (Assoc.get? authoritative label).getD (false, false)
    let l := (Assoc.get? legacy label).getD (false, false)
    { label, authoritative := a.1, legacy := l.1, authoritativeRemoved := a.2, legacyRemoved := l.2 }

/-- `_read_joined_truth`.  The fold is that of the card's own events: the cache of legacy mutations
is emptied before. -/
def joinTruth (env : Env) (st : Store) (cardId : String) (legacyModels : List CardEvent) :
    Except PyError JoinedCardTruth := do
  let st := { st with legacy := [] }
  match ← st.fold env cardId with
  | none => throw (.value ("CardStore card " ++ cardId ++ " has no foldable core"))
  | some card =>
    let core ← st.loadCore cardId
    let events ← st.readEvents env cardId
    let legacy := legacyModels.map CardEvent.dump
    let annotations := joinAnnotations (currentLinks env events) (currentLinks env legacy)
    let labelProvenance := joinLabels
      (foldLabels env events ((core.map (·.initialLabels)).getD [])) (foldLabels env legacy [])
    let claim ← optionalText card.owner
    pure
      { cardId
        lifecycle := card.status.value
        dependencies := card.dependencies.insertionSort fun x y => x ≤ y
        claim
        void := events.any fun e => (Dict.get e "action").pyEq (.str "void")
        archived := card.archived
        labels := (labelProvenance.filter fun p => p.authoritative || p.legacy).map (·.label)
        labelProvenance
        annotations
        verdicts := annotations.filter fun a => isVerdict a.key a.value
        hashes := classify annotations ["sha256", "hash"]
        gateStatus := classify annotations ["gate"]
        reviewResults := annotations.filter fun a =>
          contains (normalizedKey a.key) "review" && isVerdict a.key a.value
        supersession := classify annotations ["supersed"] }

/-- `read_joined_truth`. -/
def readJoinedTruth (env : Env) (home : Home) (cardId : String) : Except PyError JoinedCardTruth :=
  joinTruth env (home.store env) cardId ((home.overlay env).filter fun e => e.cardId = cardId)

end SkCoord
