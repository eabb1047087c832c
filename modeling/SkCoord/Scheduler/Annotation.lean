import SkCoord.Scheduler.Evidence

/-!
# Verified annotations

`write_verified_annotation` writes a label or a link twice, as an event of the card and as an event
of the overlay with the same identifier, and reads both back.  The first append is keyed by a
transition identifier and the second by the identifier of the event, so a call that dies in between
can be made again.
-/

namespace SkCoord

open Python

/-- The shared home, with how often an identifier was drawn or the clock was read. -/
structure SharedHome where
  home : Home := {}
  ticks : Nat := 0
  /-- A directory holds no two files of one name. -/
  nodup : (Assoc.keys home.shards).Nodup := by decide

/-- What a call reads of its environment. -/
structure AnnotationEnv where
  env : Env
  /-- `_now_iso()`. -/
  now : Nat → String
  /-- `uuid.uuid4().hex`. -/
  uuid : Nat → String
  /-- `_open_existing_coordination_lock`: whether the lock file of the card is there. -/
  lockFile : String → Except PyError Bool

namespace SharedHome

/-- The cards. -/
def store (env : AnnotationEnv) (d : SharedHome) : Store := d.home.store env.env

/-- The events of the overlay. -/
def overlay (env : AnnotationEnv) (d : SharedHome) : List CardEvent := d.home.overlay env.env

/-- The home with other card directories. -/
def setCards (d : SharedHome) (cards : Assoc String CardDir) : SharedHome :=
  { d with home := { d.home with cards } }

/-- The home with one more line in the shard of this host. -/
def appendShard (env : AnnotationEnv) (d : SharedHome) (e : CardEvent) : SharedHome :=
  { d with
    home := d.home.appendShard env.env e
    nodup := Assoc.nodup_keys_set d.nodup _ _ }

end SharedHome

/-- An identifier and a time. -/
def drawStamp (env : AnnotationEnv) : Effect SharedHome Stamp := fun d =>
  (.ok { eventId := env.uuid d.ticks, ts := env.now d.ticks }, { d with ticks := d.ticks + 1 })

/-! ### What is read back -/

/-- `event.model_dump()`. -/
def CardEvent.modelDump (e : CardEvent) : Dict :=
  [("card_id", .str e.cardId), ("action", .str e.action), ("event_id", jsonOfOption e.eventId),
    ("writer", .str e.writer), ("ts", .str e.ts), ("seq", .int e.seq),
    ("column", jsonOfOption e.column), ("order", (e.order.map Json.int).getD .null),
    ("priority", jsonOfOption e.priority), ("swimlane", jsonOfOption e.swimlane),
    ("label", jsonOfOption e.label), ("link_key", jsonOfOption e.linkKey),
    ("link_value", jsonOfOption e.linkValue), ("owner", jsonOfOption e.owner),
    ("title", jsonOfOption e.title), ("description", jsonOfOption e.description)]

/-- `_matches`. -/
def matchesFields (event : Dict) (action : String) (payload : Dict) : Bool :=
  (event.get "action").pyEq (.str action) && payload.all fun p => (event.get p.1).pyEq p.2

/-- `_fold_reflects`. -/
def foldReflects (c : Card) (action : String) (payload : Dict) : Bool :=
  if action = "link" then
    match Dict.get payload "link_key" with
    | .str key => ((c.link key).getD .null).pyEq (Dict.get payload "link_value")
    | _ => false
  else if action = "add_label" then (Dict.get payload "label").mem c.labels
  else !(Dict.get payload "label").mem c.labels

/-- `_exact_overlay_event`. -/
def exactOverlayEvent (e : CardEvent) (eventId cardId action writer : String) (payload : Dict) :
    Bool :=
  e.eventId = some eventId && e.cardId = cardId && e.writer = writer &&
    matchesFields e.modelDump action payload

/-- The events of the card that a call counts as its own. -/
def exactAuthoritative (events : List Event) (eventId : Json) (operationId action writer : String)
    (payload : Dict) : List Event :=
  events.filter fun item => (item.get "event_id").pyEq eventId &&
    (item.get "writer").pyEq (.str writer) && (item.get "transition_id").pyEq (.str operationId) &&
    matchesFields item action payload

/-! ### The call -/

/-- Where a process dies in a call: between the two appends or behind the second. -/
inductive Death where
  | between
  | behind
  deriving DecidableEq, Repr

/-- How a call ends that does not raise. -/
inductive CallEnd where
  | died
  | returned (event : Event)

/-- The arguments of `write_verified_annotation`, and where the process dies, if it does. -/
structure AnnotationCall where
  action : String
  writer : String := ""
  label : Json := .null
  linkKey : Json := .null
  linkValue : Json := .null
  transitionId : Json := .null
  death : Option Death := none

namespace AnnotationCall

/-- `payload`. -/
def payload (c : AnnotationCall) : Dict :=
  if c.action ≠ "link" then [("label", c.label)]
  else [("link_key", c.linkKey), ("link_value", c.linkValue)]

/-- The checks of the arguments. -/
def validate (c : AnnotationCall) : Except PyError Unit := do
  if c.action ∉ ["add_label", "remove_label", "link"] then
    throw (.value "annotation action must be add_label, remove_label, or link")
  if c.payload.any fun p => !p.2.isNonEmptyStr then
    throw (.value "annotation payload values are required")
  if !c.transitionId.isNone && !c.transitionId.isNonEmptyStr then
    throw (.value "transition_id must be a non-empty string")

/-- `writer or socket.gethostname()`. -/
def actor (env : AnnotationEnv) (c : AnnotationCall) : String :=
  if c.writer = "" then env.env.hostname else c.writer

/-- `transition_id or uuid.uuid4().hex`. -/
def operationId (env : AnnotationEnv) (c : AnnotationCall) : Effect SharedHome String :=
  match c.transitionId with
  | .str t => pure t
  | _ => do
    let stamp ← drawStamp env
    pure stamp.eventId

/-- The locks of the call, which creates none of their files. -/
def requireLocks (env : AnnotationEnv) (d : SharedHome) (cardId : String) :
    Except PyError Unit := do
  let anchored ← env.lockFile cardId
  if !anchored then
    throw (.value ("CardStore card " ++ cardId ++ " has no stable lock anchor"))
  (d.store env).requireLockAnchor { env.env with writeEnabled := true } cardId

/-- The append to the log of the card. -/
def appendAuthoritative (env : AnnotationEnv) (cardId operationId : String) (c : AnnotationCall) :
    Effect SharedHome Event := do
  let stamp ← drawStamp env
  let d ← Effect.get
  let (st, event) ← Effect.lift ((d.store env).appendEvent env.env cardId c.action (c.actor env)
    (("transition_id", .str operationId) :: c.payload) stamp)
  Effect.modify fun d => d.setCards st.cards
  pure event

/-- The readback of the first append, with the identifier of the event. -/
def readAuthoritative (env : AnnotationEnv) (cardId operationId : String) (c : AnnotationCall)
    (event : Event) (d : SharedHome) : Except PyError String := do
  let failed := PyError.runtime
    ("authoritative readback failed for " ++ cardId ++ "; no success reported")
  let authoritative ← (d.store env).readEvents env.env cardId
  let folded ← (d.store env).fold env.env cardId
  let exact := exactAuthoritative authoritative (event.get "event_id") operationId c.action
    (c.actor env) c.payload
  match event.get "event_id", folded with
  | .str eventId, some card =>
    if exact.length = 1 && foldReflects card c.action c.payload then pure eventId
    else throw failed
  | _, _ => throw failed

/-- The event of the second append. -/
def overlayEvent (env : AnnotationEnv) (cardId eventId ts : String) (c : AnnotationCall) :
    CardEvent :=
  { cardId, action := c.action, eventId := some eventId, writer := c.actor env, ts
    label := textOf? (Dict.get c.payload "label")
    linkKey := textOf? (Dict.get c.payload "link_key")
    linkValue := textOf? (Dict.get c.payload "link_value") }

/-- The append to the overlay. -/
def appendOverlay (env : AnnotationEnv) (e : CardEvent) : Effect SharedHome Unit := do
  let d ← Effect.get
  Effect.lift (CardEventLog.requireAppendable env.env d.home e)
  Effect.modify fun d => d.appendShard env e

/-- The events of the overlay with an identifier. -/
def overlayEvents (env : AnnotationEnv) (d : SharedHome) (eventId : String) : List CardEvent :=
  (d.overlay env).filter fun item => item.eventId = some eventId

/-- The second append, unless the overlay has the event. -/
def appendMissing (env : AnnotationEnv) (cardId eventId : String) (c : AnnotationCall) :
    Effect SharedHome Unit := do
  let d ← Effect.get
  match overlayEvents env d eventId with
  | [] => do
    let stamp ← drawStamp env
    appendOverlay env (c.overlayEvent env cardId eventId stamp.ts)
  | [item] =>
    if exactOverlayEvent item eventId cardId c.action (c.actor env) c.payload then pure ()
    else Effect.raise (.runtime "legacy overlay event identity conflict")
  | _ => Effect.raise (.runtime "legacy overlay event identity conflict")

/-- The readback of the second append. -/
def readOverlay (env : AnnotationEnv) (cardId eventId : String) (c : AnnotationCall)
    (d : SharedHome) : Except PyError Unit :=
  match overlayEvents env d eventId with
  | [item] =>
    if exactOverlayEvent item eventId cardId c.action (c.actor env) c.payload then pure ()
    else throw (.runtime "legacy overlay readback failed")
  | _ => throw (.runtime "legacy overlay readback failed")

/-- The overlay part of a call. -/
def mirrorToOverlay (env : AnnotationEnv) (cardId eventId : String) (c : AnnotationCall) :
    Effect SharedHome Unit := do
  c.appendMissing env cardId eventId
  let d ← Effect.get
  Effect.lift (c.readOverlay env cardId eventId d)

/-- `write_verified_annotation`. -/
def write (env : AnnotationEnv) (cardId : String) (c : AnnotationCall) :
    Effect SharedHome CallEnd := do
  Effect.lift c.validate
  let operationId ← c.operationId env
  let d ← Effect.get
  Effect.lift ((d.store env).requireFoldableCore env.env cardId)
  Effect.lift (requireLocks env d cardId)
  let event ← c.appendAuthoritative env cardId operationId
  let d ← Effect.get
  let eventId ← Effect.lift (c.readAuthoritative env cardId operationId event d)
  if c.death = some .between then pure .died
  else do
    Effect.tryExcept (c.mirrorToOverlay env cardId eventId) fun _ =>
      Effect.raise (.runtime ("authoritative event " ++ eventId ++
        " is durable but legacy overlay failed; partial state reported"))
    pure (if c.death = some .behind then .died else .returned event)

end AnnotationCall

/-- The home behind calls about one card, of which some raise and some die. -/
def SharedHome.after (env : AnnotationEnv) (cardId : String) (d : SharedHome)
    (calls : List AnnotationCall) : SharedHome :=
  calls.foldl (fun d c => ((c.write env cardId).run d).2) d

end SkCoord
