import SkCoord.Python.Json

/-!
# ITIL change records

A change is an immutable core with a log of events and a set of CAB votes.  `foldChange` is
`ITILManager._fold_change`: `ChangeState.step` is its loop body, with one definition for each kind
of event, and `cabResolvedStatus` the status that a transition is checked against.
-/

namespace SkCoord.Itil

open Python

/-- `ChangeStatus`. -/
inductive ChangeStatus where
  | proposed
  | reviewing
  | approved
  | scheduled
  | rejected
  | implementing
  | deployed
  | verified
  | failed
  | closed
  deriving DecidableEq, Repr, Inhabited

namespace ChangeStatus

/-- The text of a status. -/
def value : ChangeStatus → String
  | proposed => "proposed"
  | reviewing => "reviewing"
  | approved => "approved"
  | scheduled => "scheduled"
  | rejected => "rejected"
  | implementing => "implementing"
  | deployed => "deployed"
  | verified => "verified"
  | failed => "failed"
  | closed => "closed"

/-- The status of a text, if it is one. -/
def ofValue? (s : String) : Option ChangeStatus :=
  match s with
  | "proposed" => some proposed
  | "reviewing" => some reviewing
  | "approved" => some approved
  | "scheduled" => some scheduled
  | "rejected" => some rejected
  | "implementing" => some implementing
  | "deployed" => some deployed
  | "verified" => some verified
  | "failed" => some failed
  | "closed" => some closed
  | _ => none

/-- `_CHANGE_TRANSITIONS`. -/
def transitions : ChangeStatus → List ChangeStatus
  | proposed => [reviewing, approved, rejected]
  | reviewing => [approved, rejected]
  | approved => [implementing, rejected, scheduled]
  | scheduled => [implementing, approved, rejected]
  | rejected => [closed]
  | implementing => [deployed, failed]
  | deployed => [verified, failed]
  | verified => [closed]
  | failed => [implementing, closed]
  | closed => []

/-- `status in ("proposed", "reviewing")`: the change waits for its approval. -/
def isPending : ChangeStatus → Bool
  | proposed => true
  | reviewing => true
  | _ => false

/-- The statuses that only an approved change reaches. -/
def isAuthorized : ChangeStatus → Bool
  | approved => true
  | scheduled => true
  | implementing => true
  | deployed => true
  | verified => true
  | failed => true
  | _ => false

end ChangeStatus

/-- `CABDecisionValue`. -/
inductive CABDecisionValue where
  | approved
  | rejected
  | abstain
  deriving DecidableEq, Repr, Inhabited

/-- A CAB vote. -/
structure CABDecision where
  changeId : String
  agent : String
  subjectRole : String := ""
  subjectFingerprint : String := ""
  authorizationId : String := ""
  decision : CABDecisionValue := .abstain
  conditions : String := ""
  decidedAt : String
  deriving DecidableEq, Repr

/-- A parsed timestamp: the second of a time with a time zone, or a time without one. -/
inductive DateTime where
  | aware (second : ℚ)
  | naive
  deriving DecidableEq, Repr

/-- What a fold reads from the machine it runs on. -/
structure Env where
  /-- `_now_iso()`. -/
  now : String
  /-- `repr` of a value. -/
  repr : Json → String
  /-- `datetime.fromisoformat`, whose grammar depends on the interpreter. -/
  fromisoformat : String → Option DateTime

/-- A value in an f-string. -/
def Env.format (env : Env) : Json → String
  | .str s => s
  | v => env.repr v

/-- `_LEGACY_CAB_PROVENANCE_CUTOFF`, in seconds. -/
def legacyCabProvenanceCutoff : ℚ := 1787270400

/-- `_is_legacy_unprovenanced_approval`. -/
def isLegacyUnprovenancedApproval (env : Env) (vote : CABDecision) : Bool :=
  if vote.subjectRole ≠ "" ∨ vote.subjectFingerprint ≠ "" ∨ vote.authorizationId ≠ "" then false
  else match env.fromisoformat vote.decidedAt with
    | some (.aware second) => second < legacyCabProvenanceCutoff
    | _ => false

/-- `_is_human_approval`. -/
def isHumanApproval (env : Env) (vote : CABDecision) : Bool :=
  vote.agent = "human" || vote.subjectRole = "owner" || vote.subjectRole = "approver" ||
    isLegacyUnprovenancedApproval env vote

/-- The `REJECTED` votes. -/
def rejections (votes : List CABDecision) : List CABDecision :=
  votes.filter fun v => v.decision = .rejected

/-- The `APPROVED` votes of others than the drafter. -/
def approvals (votes : List CABDecision) (preparedBy : Json) : List CABDecision :=
  votes.filter fun v => v.decision = .approved && !(Json.str v.agent).pyEq preparedBy

/-- The condition under which a normal change approves itself. -/
def autoNormal (changeType : Json) (tags : List Json) (core : Dict) (votes : List CABDecision) :
    Except PyError Bool :=
  if changeType.pyEq (.str "normal") && (Json.str "auto-normal").mem tags &&
      (core.get "created_by").pyEq (.str "operator") &&
      !(core.getD "risk" (.str "medium")).pyEq (.str "high") then do
    let blank ← ((core.get "rollback_plan").orElse (.str "")).stripEmpty
    pure (!blank && (rejections votes).isEmpty)
  else pure false

/-- `_cab_resolved_status`. -/
def cabResolvedStatus (env : Env) (status : ChangeStatus) (changeType : Json) (tags : List Json)
    (core : Dict) (votes : List CABDecision) (preparedBy : Json) :
    Except PyError ChangeStatus :=
  if !status.isPending then pure status
  else if changeType.pyEq (.str "standard") then pure .approved
  else do
    let auto ← autoNormal changeType tags core votes
    if auto then pure .approved
    else if !(rejections votes).isEmpty then pure .rejected
    else if (approvals votes preparedBy).any (isHumanApproval env) then pure .approved
    else pure status

/-! ### The loop -/

/-- One line of the log of a change. -/
abbrev ChangeEvent := Dict

/-- The kind of an event; `other` is any kind that the fold does not know. -/
inductive EventKind where
  | created
  | status
  | linkProblem
  | title
  | tags
  | gtdLink
  | note
  | autoApproved
  | prLink
  | validation
  | schedule
  | unschedule
  | windowMissed
  | other
  deriving DecidableEq, Repr, Inhabited

/-- The kind a text names. -/
def EventKind.ofString (s : String) : EventKind :=
  match s with
  | "created" => created
  | "proposed" => created
  | "status" => status
  | "link_problem" => linkProblem
  | "title" => title
  | "tags" => tags
  | "gtd_link" => gtdLink
  | "note" => note
  | "auto-approved" => autoApproved
  | "pr_link" => prLink
  | "validation" => validation
  | "schedule" => schedule
  | "unschedule" => unschedule
  | "window_missed" => windowMissed
  | _ => other

namespace ChangeEvent

/-- The kind of an event. -/
def kind (e : ChangeEvent) : EventKind :=
  match e.get "kind" with
  | .str s => EventKind.ofString s
  | _ => .other

/-- `e.get("note", "") or ""`. -/
def note (e : ChangeEvent) : Json := (e.getD "note" (.str "")).orElse (.str "")

/-- `e.get("writer", "") or ""`. -/
def agent (e : ChangeEvent) : Json := (e.getD "writer" (.str "")).orElse (.str "")

/-- `e.get("ts", "")`. -/
def ts (e : ChangeEvent) : Json := e.getD "ts" (.str "")

/-- A timeline entry for this event. -/
def entry (e : ChangeEvent) (action : String) (note : Json) : Dict :=
  [("ts", e.ts), ("agent", e.agent), ("action", .str action), ("note", note)]

/-- A timeline entry for an event that was refused. -/
def conflictEntry (e : ChangeEvent) (action : String) : Dict :=
  e.entry action e.note ++ [("conflicted", .bool true)]

/-- A timeline entry for an event that was refused, with the reason. -/
def refusal (e : ChangeEvent) (action reason : String) : Dict :=
  e.conflictEntry action ++ [("conflict_reason", .str reason)]

end ChangeEvent

/-- The variables of the loop. -/
structure ChangeState where
  status : ChangeStatus := .proposed
  timeline : List Dict := []
  tags : List Json
  gtdIds : List Json := []
  title : Json
  relatedProblemId : Json
  seenCreated : Bool := false
  preparedPr : Option Dict := none
  preparedBy : Json := .null
  validation : Option Dict := none
  scheduledWindow : Option Dict := none

namespace ChangeState

/-- One more timeline entry. -/
def log (s : ChangeState) (entry : Dict) : ChangeState :=
  { s with timeline := s.timeline ++ [entry] }

/-- `to in _CHANGE_TRANSITIONS.get(status, set())`, with the status it names. -/
def allowed (status : ChangeStatus) (target : Json) : Except PyError (Option ChangeStatus) := do
  target.requireHashable
  match target with
  | .str s => pure ((ChangeStatus.ofValue? s).filter fun c => c ∈ status.transitions)
  | _ => pure none

/-- `pir_gated`. -/
def pirGated (gate : ChangeStatus) (e : ChangeEvent) : Bool :=
  gate == .deployed && (e.get "to").pyEq (.str "verified")

/-- `rollback_gated`. -/
def rollbackGated (gate : ChangeStatus) (e : ChangeEvent) : Bool :=
  gate == .failed && (e.get "to").pyEq (.str "closed")

/-- `cab_gated`. -/
def cabGated (gate : ChangeStatus) (e : ChangeEvent) : Bool :=
  (e.get "to").pyEq (.str "approved") && gate.isPending &&
    !(e.get "node").pyEq (.str "migrated")

/-- `(pir_gated or rollback_gated) and not note.strip()`. -/
def noteMissing (gate : ChangeStatus) (e : ChangeEvent) : Except PyError Bool :=
  if pirGated gate e || rollbackGated gate e then e.note.stripEmpty else pure false

def foldCreated (s : ChangeState) (e : ChangeEvent) : ChangeState :=
  if s.seenCreated then s
  else { s with seenCreated := true }.log (e.entry "proposed" e.note)

/-- A status event, checked against `gate`. -/
def foldStatus (env : Env) (s : ChangeState) (e : ChangeEvent) (gate : ChangeStatus) :
    Except PyError ChangeState := do
  let target ← allowed gate (e.get "to")
  let missing ← noteMissing gate e
  let action := "status:" ++ gate.value ++ "->" ++ env.format (e.get "to")
  match target with
  | some c =>
    if !missing && !cabGated gate e then
      pure { s.log (e.entry action e.note) with status := c }
    else pure (refuse s e gate missing action)
  | none => pure (refuse s e gate missing action)
where
  /-- The branches that keep the status. -/
  refuse (s : ChangeState) (e : ChangeEvent) (gate : ChangeStatus) (missing : Bool)
      (action : String) : ChangeState :=
    if cabGated gate e then
      s.log (e.refusal action ("CAB approval required: approval comes from a " ++
        "qualifying vote (submit_cab_vote) or a " ++
        "standard/auto-normal derivation, never from a raw status event"))
    else if missing then
      s.log (e.refusal action
        (if pirGated gate e then "PIR note required" else "rollback note required"))
    else s.log (e.conflictEntry action)

def foldLinkProblem (s : ChangeState) (e : ChangeEvent) : ChangeState :=
  if (e.get "id").truthy then { s with relatedProblemId := e.get "id" } else s

def foldTitle (s : ChangeState) (e : ChangeEvent) : ChangeState :=
  let s := if (e.get "text").truthy then { s with title := e.get "text" } else s
  s.log (e.entry "title" (e.getD "text" (.str "")))

/-- `x` behind `l`, unless it is there. -/
def addNew (l : List Json) (x : Json) : List Json := if x.mem l then l else l ++ [x]

def foldTags (s : ChangeState) (e : ChangeEvent) : Except PyError ChangeState := do
  let added ← ((e.get "add").orElse (.arr [])).iter
  pure { s with tags := added.foldl addNew s.tags }

def foldGtdLink (s : ChangeState) (e : ChangeEvent) : ChangeState :=
  if (e.get "id").truthy then { s with gtdIds := addNew s.gtdIds (e.get "id") } else s

def foldPrLink (s : ChangeState) (e : ChangeEvent) : ChangeState :=
  { s with
    preparedPr := some [("url", e.get "url"), ("branch", e.get "branch"),
      ("run_id", e.get "run_id"), ("head_sha", e.get "head_sha")]
    preparedBy := e.agent }.log (e.entry "pr_link" (e.getD "url" (.str "")))

def foldValidation (s : ChangeState) (e : ChangeEvent) : ChangeState :=
  let passed := (e.get "passed").truthy
  let t := { s with
    validation := some [("passed", .bool passed), ("head_sha", e.get "head_sha"),
      ("url", e.get "url"), ("summary", e.get "summary"), ("checks", e.get "checks")] }.log
    (e.entry "validation" (.str (if passed then "passed" else "failed")))
  if passed && s.status == .proposed then
    { t.log (e.entry "status:proposed->reviewing" (.str "validation passed")) with
      status := .reviewing }
  else t

/-- A schedule event, checked against `gate`. -/
def foldSchedule (s : ChangeState) (e : ChangeEvent) (gate : ChangeStatus) : ChangeState :=
  if gate == .approved && ChangeStatus.scheduled ∈ gate.transitions then
    let asap := (e.getD "asap" (.bool false)).truthy
    { s.log (e.entry ("status:" ++ gate.value ++ "->scheduled")
        (e.note.orElse (.str (if asap then "ASAP" else "")))) with
      status := .scheduled
      scheduledWindow := some [("window_start", e.get "window_start"),
        ("window_end", e.get "window_end"), ("asap", .bool asap),
        ("deploy_mode", (e.get "deploy_mode").orElse (.str "confirm"))] }
  else s.log (e.conflictEntry ("schedule:" ++ gate.value))

/-- A scheduled change back to `approved`, by an event of this name. -/
def foldBackToApproved (name dfltNote : String) (s : ChangeState) (e : ChangeEvent) : ChangeState :=
  if s.status == .scheduled && ChangeStatus.approved ∈ s.status.transitions then
    { s.log (e.entry ("status:" ++ s.status.value ++ "->approved")
        (e.note.orElse (.str dfltNote))) with
      status := .approved
      scheduledWindow := none }
  else s.log (e.conflictEntry (name ++ ":" ++ s.status.value))

def foldUnschedule : ChangeState → ChangeEvent → ChangeState :=
  foldBackToApproved "unschedule" "unscheduled"

def foldWindowMissed : ChangeState → ChangeEvent → ChangeState :=
  foldBackToApproved "window_missed" "window missed"

/-- `_cab_resolved_status` of the loop's variables. -/
def gate (env : Env) (changeType : Json) (core : Dict) (votes : List CABDecision)
    (s : ChangeState) : Except PyError ChangeStatus :=
  cabResolvedStatus env s.status changeType s.tags core votes s.preparedBy

/-- One turn of the loop. -/
def step (env : Env) (changeType : Json) (core : Dict) (votes : List CABDecision)
    (s : ChangeState) (e : ChangeEvent) : Except PyError ChangeState :=
  match e.kind with
  | .created => pure (s.foldCreated e)
  | .status => do
    let g ← gate env changeType core votes s
    s.foldStatus env e g
  | .linkProblem => pure (s.foldLinkProblem e)
  | .title => pure (s.foldTitle e)
  | .tags => s.foldTags e
  | .gtdLink => pure (s.foldGtdLink e)
  | .note => pure (s.log (e.entry "note" e.note))
  | .autoApproved => pure (s.log (e.entry "auto-approved" e.note))
  | .prLink => pure (s.foldPrLink e)
  | .validation => pure (s.foldValidation e)
  | .schedule => do
    let g ← gate env changeType core votes s
    pure (s.foldSchedule e g)
  | .unschedule => pure (s.foldUnschedule e)
  | .windowMissed => pure (s.foldWindowMissed e)
  | .other => pure s

end ChangeState

/-- `core.get("change_type", "normal")`. -/
def changeTypeOf (core : Dict) : Json := core.getD "change_type" (.str "normal")

/-- The variables before the loop. -/
def initChange (core : Dict) : Except PyError ChangeState := do
  let tags ← ((core.get "tags").orElse (.arr [])).iter
  pure
    { tags := tags
      title := core.getD "title" (.str "")
      relatedProblemId := core.get "related_problem_id" }

/-- The variables behind the loop over `events`. -/
def loopChange (env : Env) (core : Dict) (votes : List CABDecision) (events : List ChangeEvent) :
    Except PyError ChangeState := do
  let s ← initChange core
  events.foldlM (ChangeState.step env (changeTypeOf core) core votes) s

/-! ### Behind the loop -/

/-- The greatest of some texts. -/
def maxText : List String → String
  | [] => ""
  | s :: l => l.foldl (fun m t => if m < t then t else m) s

/-- The entry that an approval or a rejection by votes leaves. -/
def cabEntry (votes : List CABDecision) (action label : String) : Dict :=
  [("ts", .str (maxText (votes.map (·.decidedAt)))), ("agent", .str "cab-system"),
    ("action", .str action),
    ("note", .str (label ++ ": " ++ String.intercalate ", " (votes.map (·.agent))))]

/-- A standard change approves itself. -/
def resolveStandard (env : Env) (core : Dict) (s : ChangeState) : ChangeState :=
  if (changeTypeOf core).pyEq (.str "standard") && s.status == .proposed then
    { s.log [("ts", (core.get "created_at").orElse (.str env.now)),
        ("agent", core.getD "created_by" (.str "")), ("action", .str "auto-approved"),
        ("note", .str "Standard change")] with status := .approved }
  else s

/-- A normal change of the operator approves itself under `autoNormal`. -/
def resolveAutoNormal (env : Env) (core : Dict) (votes : List CABDecision) (s : ChangeState) :
    Except PyError ChangeState :=
  if s.status == .proposed then do
    let auto ← autoNormal (changeTypeOf core) s.tags core votes
    pure (if auto then
      { s.log [("ts", (core.get "created_at").orElse (.str env.now)), ("agent", .str "operator"),
          ("action", .str "auto-approved"),
          ("note", .str "Auto-normal (operator, risk!=high, rollback, no reject)")] with
        status := .approved }
      else s)
  else pure s

/-- The votes decide what still waits for them. -/
def resolveVotes (env : Env) (votes : List CABDecision) (s : ChangeState) : ChangeState :=
  if s.status.isPending && !votes.isEmpty then
    if !(rejections votes).isEmpty then
      { s.log (cabEntry (rejections votes) "status:proposed->rejected" "Rejected by") with
        status := .rejected }
    else if (approvals votes s.preparedBy).any (isHumanApproval env) then
      { s.log (cabEntry (approvals votes s.preparedBy) "status:proposed->approved"
          "Approved by") with status := .approved }
    else s
  else s

/-- A folded change. -/
structure Change where
  id : String
  title : String
  changeType : String
  status : ChangeStatus
  risk : String
  rollbackPlan : String
  testPlan : String
  managedBy : String
  createdBy : String
  implementer : Option String
  cabRequired : Bool
  createdAt : String
  relatedProblemId : Option String
  gtdItemIds : List String
  timeline : List Dict
  tags : List String
  preparedPr : Option Dict
  preparedBy : Option String
  validation : Option Dict
  scheduledWindow : Option Dict

/-- The error of a field that has the wrong type; of pydantic's text only the field is kept. -/
def invalidField (field : String) : PyError :=
  .value ("validation error for Change: " ++ field)

/-- A field of type `str`. -/
def requireStr (field : String) : Json → Except PyError String
  | .str s => pure s
  | _ => throw (invalidField field)

/-- A field of type `Optional[str]`. -/
def requireOptionalStr (field : String) : Json → Except PyError (Option String)
  | .null => pure none
  | .str s => pure (some s)
  | _ => throw (invalidField field)

/-- `core["id"]`. -/
def requireId (core : Dict) : Except PyError Json :=
  match Assoc.get? core "id" with
  | some v => pure v
  | none => throw (.key "'id'")

/-- `E(v)` for an enumeration of texts. -/
def requireMember (env : Env) (name : String) (members : List String) (v : Json) :
    Except PyError String :=
  match v with
  | .str s => if s ∈ members then pure s else throw (invalid v)
  | _ => throw (invalid v)
where
  invalid (v : Json) := PyError.value (env.repr v ++ " is not a valid " ++ name)

/-- `Change(...)` of the loop's variables. -/
def buildChange (env : Env) (core : Dict) (s : ChangeState) : Except PyError Change := do
  let id ← requireId core
  let changeType ←
    requireMember env "ChangeType" ["standard", "normal", "emergency"] (changeTypeOf core)
  let risk ←
    requireMember env "Risk" ["low", "medium", "high"] (core.getD "risk" (.str "medium"))
  let id ← requireStr "id" id
  let title ← requireStr "title" s.title
  let rollbackPlan ← requireStr "rollback_plan" (core.getD "rollback_plan" (.str ""))
  let testPlan ← requireStr "test_plan" (core.getD "test_plan" (.str ""))
  let managedBy ← requireStr "managed_by" (core.getD "managed_by" (.str ""))
  let createdBy ← requireStr "created_by" (core.getD "created_by" (.str ""))
  let implementer ← requireOptionalStr "implementer" (core.get "implementer")
  let createdAt ← requireStr "created_at" ((core.get "created_at").orElse (.str env.now))
  let relatedProblemId ← requireOptionalStr "related_problem_id" s.relatedProblemId
  let gtdItemIds ← s.gtdIds.mapM (requireStr "gtd_item_ids")
  let tags ← s.tags.mapM (requireStr "tags")
  let preparedBy ← requireOptionalStr "prepared_by" s.preparedBy
  pure
    { id := id
      title := title
      changeType := changeType
      status := s.status
      risk := risk
      rollbackPlan := rollbackPlan
      testPlan := testPlan
      managedBy := managedBy
      createdBy := createdBy
      implementer := implementer
      cabRequired := (core.getD "cab_required"
        (.bool (!(changeTypeOf core).pyEq (.str "standard")))).truthy
      createdAt := createdAt
      relatedProblemId := relatedProblemId
      gtdItemIds := gtdItemIds
      timeline := s.timeline
      tags := tags
      preparedPr := s.preparedPr
      preparedBy := preparedBy
      validation := s.validation
      scheduledWindow := s.scheduledWindow }

/-- `_fold_change`. -/
def foldChange (env : Env) (core : Dict) (events : List ChangeEvent) (votes : List CABDecision) :
    Except PyError Change := do
  let s ← loopChange env core votes events
  let s ← resolveAutoNormal env core votes (resolveStandard env core s)
  buildChange env core (resolveVotes env votes s)

end SkCoord.Itil
