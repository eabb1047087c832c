import SkCoord.Python.JsonFile

/-!
# The review broker

`GitHubReviewBroker` submits at most one review for a request: it reserves the request in an audit
file, asks GitHub for the head and the checks, creates the review and records the outcome, all under
an exclusive lock of the audit file.  A call is a machine that takes one step after another
(`Call.next`), and a system has any number of calls, the audit file and the pull requests they share
(`System.step`).  Between two steps of a call others may call, push or die.

A value that a GitHub client returns is any object: `Objects` has the operations that the broker
uses on it, each of which may raise.
-/

namespace SkCoord

open Python

namespace Review

/-! ### Exceptions and objects -/

/-- The classes that the handlers of `submit_review` tell apart: `TimeoutError`, `ValueError` with
its subclasses, other subclasses of `Exception`, and those that are none. -/
inductive ExcClass where
  | timeout
  | value
  | other
  | base
  deriving DecidableEq, Repr

/-- An exception: its class, `type(exc).__name__` and `str(exc)`. -/
structure Exc where
  cls : ExcClass
  name : String
  message : String
  deriving DecidableEq, Repr

/-- `BrokerError(message)`. -/
def brokerError (message : String) : Exc := { cls := .value, name := "BrokerError", message }

/-- The operations of Python on the values that a client returns. -/
structure Objects (V : Type) where
  /-- `bool(v)`. -/
  truthy : V → Except Exc Bool
  /-- `v.get(key)`, if `v` has the key. -/
  get? : V → String → Except Exc (Option V)
  /-- `key in v`. -/
  contains : V → String → Except Exc Bool
  /-- `v[key]`. -/
  item : V → String → Except Exc V
  /-- `v.values()`. -/
  values : V → Except Exc (List V)
  /-- `isinstance(v, Mapping)`. -/
  isMapping : V → Bool
  /-- `str(v)`. -/
  str : V → Except Exc String
  /-- What `json.dumps` writes for `v`; a value it cannot write raises. -/
  json : V → Except Exc Json

/-- `str(v.get(key, ""))`. -/
def Objects.strField {V : Type} (O : Objects V) (v : V) (key : String) : Except Exc String := do
  match ← O.get? v key with
  | none => pure ""
  | some x => O.str x

/-! ### Requests -/

/-- `ReviewRequest`. -/
structure ReviewRequest where
  caller : String
  repository : String
  pullRequest : ℤ
  head : String
  evidenceHash : String
  preflightHash : String
  preflightDigest : String
  decision : String
  body : String := ""
  requestId : String := ""
  deriving DecidableEq, Repr

/-- `GitHubReviewBroker`: its configuration and the functions of the language that it calls. -/
structure Broker (V : Type) where
  objects : Objects V
  floats : FloatText
  allowlist : List String
  reviewer : String
  /-- `s.casefold()`. -/
  casefold : String → String
  /-- `s.lower()`. -/
  lower : String → String
  /-- `hashlib.sha256(b).hexdigest()`. -/
  sha256 : Bytes → String
  /-- `str(v)` of a JSON value. -/
  strOf : Json → String

/-- A reading of the clock. -/
abbrev Broker.Time {V : Type} (b : Broker V) : Type := { q : Rat // b.floats.IsDouble q }

variable {V : Type}

namespace Broker

/-- A guard of the broker. -/
def guardThat (ok : Bool) (message : String) : Except Exc Unit :=
  if ok then pure () else throw (brokerError message)

/-- `_validate`. -/
def validate (b : Broker V) (r : ReviewRequest) : Except Exc Unit := do
  guardThat (r.repository ∈ b.allowlist) "repository is not allowlisted"
  guardThat (decide (0 < r.pullRequest)) "malformed pull request"
  guardThat (isHex 40 r.head) "malformed exact head"
  guardThat (isHex 64 r.evidenceHash) "missing or malformed evidence hash"
  guardThat (isHex 64 r.preflightHash) "missing or malformed local preflight hash"
  guardThat (isHex 64 r.preflightDigest) "missing or malformed local preflight digest"
  guardThat (r.decision ∈ ["approve", "request-changes"]) "unsupported review decision"
  guardThat (decide (r.body.length ≤ 10000)) "review body too large"
  guardThat (b.casefold r.caller ≠ b.casefold b.reviewer) "same-author review"
  guardThat (!(["merge", "push", "deploy"].any fun word => contains (b.lower r.body) word))
    "merge/push requests are forbidden"

/-! ### The preflight receipt -/

/-- The file of the receipt as `_receipt` finds it: it cannot be read, it is no regular file, or it
has these first bytes, and its status has changed while they were read or not. -/
inductive PreflightFile where
  | unreadable
  | notRegular
  | bytes (raw : Bytes) (changed : Bool)

/-- `set(d) == set(names)`. -/
def hasKeys (d : Dict) (names : List String) : Bool :=
  (Assoc.keys d).all (· ∈ names) && names.all (· ∈ Assoc.keys d)

/-- `_REQUIRED_PREFLIGHT`. -/
def requiredPreflight : List String :=
  ["diff", "black", "ruff", "docs", "gitleaks", "shim-imports", "tests"]

/-- A text that is a hexadecimal number of `n` digits. -/
def hexField (n : ℕ) : Json → Bool
  | .str s => isHex n s
  | _ => false

/-- A path of the receipt. -/
def relativePath : Json → Option String
  | .str s => if s = "" ∨ s.toList.head? = some '/' then none else some s
  | _ => none

/-- The loop over the checks of the receipt, with the names it has seen. -/
def checkNames : List Json → List String → Except Exc (List String)
  | [], names => pure names
  | check :: checks, names =>
    match check with
    | .obj d => do
      guardThat (hasKeys d ["name", "exit_code", "elapsed_ms"])
        "local preflight check record is malformed"
      match Dict.get d "name" with
      | .str name => do
        guardThat (name ∉ names) "local preflight check names are malformed"
        guardThat ((Dict.get d "exit_code").pyEq (.int 0)) "local preflight check failed"
        match Dict.get d "elapsed_ms" with
        | .int i =>
          guardThat (decide (0 ≤ i)) "local preflight check duration is malformed"
          checkNames checks (name :: names)
        | .bool _ => checkNames checks (name :: names)
        | _ => throw (brokerError "local preflight check duration is malformed")
      | _ => throw (brokerError "local preflight check names are malformed")
    | _ => throw (brokerError "local preflight check record is malformed")

/-- `_validate_receipt`. -/
def validateReceipt (b : Broker V) (r : ReviewRequest) (receipt : Dict) : Except Exc Unit := do
  guardThat (hasKeys receipt ["schema", "repository", "base", "head", "tree", "paths",
      "diff_sha256", "checks", "state", "digest"] &&
    (receipt.get "schema").pyEq (.str "skfleet.local-ci-preflight/v1"))
    "local preflight receipt schema mismatch"
  guardThat ((receipt.get "head").pyEq (.str r.head) && (receipt.get "state").pyEq (.str "PASS"))
    "local preflight candidate did not pass"
  guardThat (hexField 40 (receipt.get "base")) "local preflight base is malformed"
  guardThat (hexField 40 (receipt.get "head")) "local preflight head is malformed"
  guardThat (hexField 40 (receipt.get "tree")) "local preflight tree is malformed"
  guardThat (hexField 64 (receipt.get "diff_sha256")) "local preflight diff_sha256 is malformed"
  guardThat (hexField 64 (receipt.get "digest")) "local preflight digest is malformed"
  let repository := b.strOf (receipt.get "repository")
  let repository := if endsWith repository ".git" then
    String.ofList (repository.toList.take (repository.length - 4)) else repository
  guardThat (endsWith repository ("/" ++ r.repository)) "local preflight repository mismatch"
  match receipt.get "paths" with
  | .arr paths =>
    let names := paths.map relativePath
    guardThat (!paths.isEmpty && names.all Option.isSome && decide names.Nodup)
      "local preflight paths are malformed"
  | _ => throw (brokerError "local preflight paths are malformed")
  match receipt.get "checks" with
  | .arr checks => do
    let names ← checkNames checks []
    guardThat (names.all (· ∈ requiredPreflight) && requiredPreflight.all (· ∈ names))
      "local preflight check set is incomplete"
  | _ => throw (brokerError "local preflight checks are malformed")

/-- `_canonical_bytes`. -/
def canonicalBytes (b : Broker V) (v : Json) : Bytes := encodeUtf8 (v.canonical b.floats)

/-- `_receipt`, with the digest of the receipt. -/
def receipt (b : Broker V) (r : ReviewRequest) : PreflightFile → Except Exc String
  | .unreadable => throw (brokerError "local preflight receipt is unreadable")
  | .notRegular => throw (brokerError "local preflight receipt is not a regular file")
  | .bytes raw changed => do
    guardThat (decide (raw.length ≤ 1024 * 1024)) "local preflight receipt is too large"
    guardThat (!changed) "local preflight receipt changed while reading"
    guardThat (b.sha256 raw = r.preflightHash) "local preflight receipt hash mismatch"
    match (decodeUtf8 raw).bind (Json.loads b.floats) with
    | none => throw (brokerError "local preflight receipt is malformed")
    | some (.obj d) => do
      guardThat (raw = b.canonicalBytes (.obj d) ++ encodeUtf8 ['\n'])
        "local preflight receipt is not canonical"
      let unsigned := d.filter fun p => p.1 ≠ "digest"
      guardThat ((Dict.get d "digest").pyEq (.str (b.sha256 (b.canonicalBytes (.obj unsigned)))))
        "local preflight canonical digest mismatch"
      guardThat ((Dict.get d "digest").pyEq (.str r.preflightDigest))
        "local preflight pinned digest mismatch"
      b.validateReceipt r d
      pure r.preflightDigest
    | some _ => throw (brokerError "local preflight receipt is not canonical")

/-! ### The audit file -/

/-- The line of a record. -/
def recordLine (b : Broker V) (record : Dict) : List Char :=
  (Json.obj record).canonical b.floats ++ ['\n']

/-- `_TERMINAL_OUTCOMES`. -/
def terminalOutcomes : List String := ["accepted", "rejected", "error", "uncertain"]

/-- What a record makes of the outcome of a request. -/
def outcomeAfter (requestId : String) (outcome : Option String) (record : Dict) : Option String :=
  if (record.get "request_id").pyEq (.str requestId) then
    if (record.get "type").pyEq (.str "github_review_reservation") then some "in_flight"
    else if (record.get "type").pyEq (.str "github_review_result") then
      match record.get "outcome" with
      | .str value => if value ∈ terminalOutcomes then some value else some "uncertain"
      | _ => some "uncertain"
    else outcome
  else outcome

/-- The loop of `_prior_outcome` over the values of the lines; `record.get` of a value that is no
dictionary raises. -/
def priorOutcome (requestId : String) : List Json → Option String → Except Exc (Option String)
  | [], outcome => pure outcome
  | .obj record :: records, outcome =>
    priorOutcome requestId records (outcomeAfter requestId outcome record)
  | _ :: _, _ => throw { cls := .other, name := "AttributeError", message := "get" }

/-- The beginning of a transaction: every line of the audit file is read, and then the outcome of
the request. -/
def scan (b : Broker V) (audit : List Char) (requestId : String) : Except Exc (Option String) :=
  match (fileLines audit).mapM (Json.loads b.floats) with
  | none => throw (brokerError "corrupt audit log")
  | some records => priorOutcome requestId records none

/-- The refusal of a request with an outcome. -/
def replayed (prior : String) : Exc :=
  let detail := if prior ∈ ["in_flight", "uncertain"] then
    "uncertain; reconcile GitHub before retry" else "terminal"
  brokerError ("replayed request (" ++ detail ++ ")")

/-- The reservation of a request. -/
def reservation (b : Broker V) (r : ReviewRequest) (digest : String) (now : b.Time) : Dict :=
  [("type", .str "github_review_reservation"),
    ("state", .str "in_flight"),
    ("request_id", .str r.requestId),
    ("caller", .str r.caller),
    ("repository", .str r.repository),
    ("pull_request", .int r.pullRequest),
    ("head", .str r.head),
    ("evidence_hash", .str r.evidenceHash),
    ("preflight_hash", .str r.preflightHash),
    ("preflight_digest", .str digest),
    ("decision", .str r.decision),
    ("reviewer", .str b.reviewer),
    ("timestamp", .float now.1)]

/-- What `_record` keeps of a field of a response: its value, or `None`. -/
def safeField (b : Broker V) (response : V) (key : String) :
    Except Exc (Option (String × Option V)) := do
  if ← b.objects.contains response key then
    let value ← b.objects.item response key
    if key = "user" && b.objects.isMapping value then
      pure (some (key, ← b.objects.get? value "login"))
    else pure (some (key, some value))
  else pure none

/-- What `_record` keeps of a response. -/
def safeResponse (b : Broker V) (response : V) : Except Exc (List (String × Option V)) := do
  if ← b.objects.truthy response then
    let fields ← ["id", "node_id", "user", "submitted_at", "html_url"].mapM (b.safeField response)
    pure fields.reduceOption
  else pure []

/-- What `json.dumps` writes for a field. -/
def dumpField (b : Broker V) : String × Option V → Except Exc (String × Json)
  | (key, none) => pure (key, .null)
  | (key, some value) => do pure (key, ← b.objects.json value)

/-- The record of `_record`. -/
def result (b : Broker V) (r : ReviewRequest) (outcome : String) (exitStatus : ℤ) (response : Dict)
    (error : Option String) (now : b.Time) : Dict :=
  [("type", .str "github_review_result"),
    ("request_id", .str r.requestId),
    ("caller", .str r.caller),
    ("repository", .str r.repository),
    ("pull_request", .int r.pullRequest),
    ("head", .str r.head),
    ("evidence_hash", .str r.evidenceHash),
    ("preflight_hash", .str r.preflightHash),
    ("preflight_digest", .str r.preflightDigest),
    ("decision", .str r.decision),
    ("reviewer", .str b.reviewer),
    ("github_review_identity", .str b.reviewer),
    ("response", .obj response),
    ("timestamp", .float now.1),
    ("exit_status", .int exitStatus),
    ("outcome", .str outcome)] ++
    match error with
    | none => []
    | some message => if message = "" then [] else [("error", .str message)]

/-- The record of an accepted review; a response that cannot be written raises. -/
def accepted (b : Broker V) (r : ReviewRequest) (response : V) (now : b.Time) : Except Exc Dict := do
  let fields ← b.safeResponse response
  let fields ← fields.mapM b.dumpField
  pure (b.result r "accepted" 0 fields none now)

/-- What the handlers record of an exception, and what they raise; an exception that is no
`Exception` has no handler. -/
def handled (b : Broker V) (r : ReviewRequest) (e : Exc) (now : b.Time) : Option (Dict × Exc) :=
  match e.cls with
  | .timeout => some (b.result r "uncertain" 124 [] (some "timeout") now,
      brokerError "GitHub request timed out; reconcile before retry")
  | .value => some (b.result r "rejected" 1 [] (some e.message) now, e)
  | .other => some (b.result r "uncertain" 1 [] (some e.name) now,
      brokerError "GitHub result uncertain; reconcile before retry")
  | .base => none

/-! ### The checks -/

/-- The guards on what `pull_request` returned. -/
def verifyPull (b : Broker V) (r : ReviewRequest) (current : V) : Except Exc Unit := do
  let head ← b.objects.strField current "head_sha"
  guardThat (head = r.head) "head drift"
  let author ← b.objects.strField current "author"
  guardThat (b.casefold author ≠ b.casefold b.reviewer) "same-author review"

/-- A check has completed with success. -/
def checkPasses (b : Broker V) (value : V) : Except Exc Bool := do
  if b.objects.isMapping value then
    let status ← b.objects.strField value "status"
    if b.casefold status = "completed" then
      let conclusion ← b.objects.strField value "conclusion"
      pure (b.casefold conclusion = "success")
    else pure false
  else pure false

/-- All checks have; the first that has not ends the loop. -/
def checksPass (b : Broker V) : List V → Except Exc Bool
  | [] => pure true
  | value :: values => do
    if ← b.checkPasses value then b.checksPass values else pure false

/-- The guards on what `required_checks` returned. -/
def verifyChecks (b : Broker V) (checks : V) : Except Exc Unit := do
  if ← b.objects.truthy checks then
    let values ← b.objects.values checks
    guardThat (← b.checksPass values) "missing or failed required checks"
  else throw (brokerError "missing or failed required checks")

/-- What `submit_review` returns of a response. -/
def returned (b : Broker V) (response : V) : Except Exc (List (String × V)) := do
  let fields ← ["id", "node_id", "html_url"].mapM fun key => do
    if ← b.objects.contains response key then
      pure (some (key, ← b.objects.item response key))
    else pure none
  pure fields.reduceOption

end Broker

/-! ### A call -/

/-- Where a call of `submit_review` stands. -/
inductive Phase (V : Type) where
  /-- Before `_validate` and `_receipt`. -/
  | called
  /-- Before the lock. -/
  | waiting (digest : String)
  /-- Before the audit file is read. -/
  | scanning (digest : String)
  /-- Before the reservation is written. -/
  | reserving (digest : String)
  /-- Before `pull_request`. -/
  | viewing
  /-- Before `required_checks`. -/
  | checking
  /-- Before `create_review`. -/
  | submitting
  /-- Before the accepted review is recorded. -/
  | accepting (response : V)
  /-- Before the fields of the response are returned. -/
  | returning (response : V)
  /-- Before the exception is handled. -/
  | handling (e : Exc)
  /-- The call has returned or raised. -/
  | ended (r : Except Exc (List (String × V)))
  /-- The process has died. -/
  | dead

/-- The call holds the lock. -/
def Phase.inTransaction : Phase V → Bool
  | .called => false
  | .waiting _ => false
  | .ended _ => false
  | .dead => false
  | _ => true

/-- The call has come to its end. -/
def Phase.over : Phase V → Bool
  | .ended _ => true
  | .dead => true
  | _ => false

/-- A call of `submit_review` on a request, with its identifier. -/
structure Call (V : Type) where
  request : ReviewRequest
  phase : Phase V := .called

/-- What a write to the audit file leaves. -/
inductive Write where
  /-- The whole line. -/
  | done
  /-- The whole line, and the write raises behind it, as `fsync` may. -/
  | unsynced (e : Exc)
  /-- Nothing, or any part of the line, before it raises. -/
  | fails (left : List Char) (e : Exc)

/-- The exception of a write. -/
def Write.raised : Write → Option Exc
  | .done => none
  | .unsynced e => some e
  | .fails _ e => some e

/-- A step of a call, with what its surroundings answer. -/
inductive Step (b : Broker V) where
  | validate (file : Broker.PreflightFile)
  | enter
  | scan
  | reserve (now : b.Time) (w : Write)
  | view (answer : Except Exc V)
  | check (answer : Except Exc V)
  /-- GitHub creates the review or does not, whatever it answers. -/
  | submit (answer : Except Exc V) (created : Bool)
  | accept (now : b.Time) (w : Write)
  | give
  | handle (now : b.Time) (w : Write)

/-- A request to GitHub, with its answer. -/
inductive Asked (V : Type) where
  | pullRequest (answer : Except Exc V)
  | requiredChecks (answer : Except Exc V)
  | createReview (answer : Except Exc V)

/-- What a step does: where the call stands behind it, what it leaves at the end of the audit file,
the record of which this is the line, what it has asked of GitHub, and whether GitHub has created a
review. -/
structure Move (V : Type) where
  phase : Phase V
  text : List Char := []
  record : Option Dict := none
  asked : Option (Asked V) := none
  created : Bool := false

/-- A write to the audit file, and where the call stands behind it. -/
def Move.write (b : Broker V) (record : Dict) (next : Phase V) (failed : Exc → Phase V) :
    Write → Move V
  | .done => { phase := next, text := b.recordLine record, record := some record }
  | .unsynced e => { phase := failed e, text := b.recordLine record, record := some record }
  | .fails left e => { phase := failed e, text := left }

/-- The next step of a call, if it stands before this one.  `free` says that no call holds the
lock. -/
def Call.next (b : Broker V) (audit : List Char) (free : Bool) (c : Call V) (s : Step b) :
    Option (Move V) :=
  match s, c.phase with
  | .validate file, .called =>
    match (do b.validate c.request; b.receipt c.request file) with
    | .error e => some { phase := .ended (.error e) }
    | .ok digest => some { phase := .waiting digest }
  | .enter, .waiting digest => if free then some { phase := .scanning digest } else none
  | .scan, .scanning digest =>
    match b.scan audit c.request.requestId with
    | .error e => some { phase := .ended (.error e) }
    | .ok (some prior) => some { phase := .ended (.error (Broker.replayed prior)) }
    | .ok none => some { phase := .reserving digest }
  | .reserve now w, .reserving digest =>
    some (.write b (b.reservation c.request digest now) .viewing (fun e => .ended (.error e)) w)
  | .view answer, .viewing =>
    match (do b.verifyPull c.request (← answer)) with
    | .error e => some { phase := .handling e, asked := some (.pullRequest answer) }
    | .ok _ => some { phase := .checking, asked := some (.pullRequest answer) }
  | .check answer, .checking =>
    match (do b.verifyChecks (← answer)) with
    | .error e => some { phase := .handling e, asked := some (.requiredChecks answer) }
    | .ok _ => some { phase := .submitting, asked := some (.requiredChecks answer) }
  | .submit answer created, .submitting =>
    match answer with
    | .error e => some { phase := .handling e, asked := some (.createReview answer), created }
    | .ok response =>
      some { phase := .accepting response, asked := some (.createReview answer), created }
  | .accept now w, .accepting response =>
    match b.accepted c.request response now with
    | .error e => some { phase := .handling e }
    | .ok record => some (.write b record (.returning response) .handling w)
  | .give, .returning response =>
    match b.returned response with
    | .error e => some { phase := .handling e }
    | .ok fields => some { phase := .ended (.ok fields) }
  | .handle now w, .handling e =>
    match b.handled c.request e now with
    | none => some { phase := .ended (.error e) }
    | some (record, raised) =>
      some (.write b record (.ended (.error raised)) (fun e => .ended (.error e)) w)
  | _, _ => none

/-! ### The system -/

/-- A review on GitHub: the request it was created for and the commit it is attached to. -/
structure CreatedReview where
  request : ReviewRequest
  commit : String
  deriving DecidableEq, Repr

/-- A request that a call has sent to GitHub. -/
structure Sent (V : Type) where
  call : ℕ
  request : ReviewRequest
  asked : Asked V

/-- The calls, the audit file they share, the heads of the pull requests, the reviews on GitHub, and
what has happened so far, the latest first. -/
structure System (V : Type) where
  audit : List Char
  heads : String → ℤ → String
  calls : List (Call V) := []
  reviews : List CreatedReview := []
  /-- The records whose lines have been written, with the call that wrote them. -/
  written : List (ℕ × Dict) := []
  /-- What the calls have asked of GitHub. -/
  sent : List (Sent V) := []

/-- What happens next. -/
inductive Label (b : Broker V) where
  /-- A process calls `submit_review`; a request without an identifier takes this one. -/
  | call (request : ReviewRequest) (uuid : String)
  /-- A push replaces the head of a pull request. -/
  | push (repository : String) (number : ℤ) (sha : String)
  /-- The process of a call dies; a write that it had begun may leave something. -/
  | die (i : ℕ) (left : List Char)
  | step (i : ℕ) (s : Step b)

namespace System

/-- No call holds the lock. -/
def free (s : System V) : Bool := s.calls.all fun c => !c.phase.inTransaction

/-- The state behind a step of a call. -/
def apply (s : System V) (i : ℕ) (c : Call V) (m : Move V) : System V :=
  { s with
    audit := s.audit ++ m.text
    calls := s.calls.set i { c with phase := m.phase }
    -- a review without a commit is attached to the head of the moment
    reviews := if m.created then
        ⟨c.request, s.heads c.request.repository c.request.pullRequest⟩ :: s.reviews
      else s.reviews
    written := m.record.toList.map (Prod.mk i) ++ s.written
    sent := m.asked.toList.map (Sent.mk i c.request) ++ s.sent }

/-- What a process leaves that dies: a call outside the transaction has opened no file. -/
def diesLeaving (c : Call V) (left : List Char) : Move V :=
  { phase := .dead, text := if c.phase.inTransaction then left else [] }

/-- The state behind a label; one that is not possible leaves it. -/
def step (b : Broker V) (s : System V) : Label b → System V
  | .call request uuid =>
    let request := if request.requestId = "" then { request with requestId := uuid } else request
    { s with calls := s.calls ++ [{ request }] }
  | .push repository number sha =>
    { s with heads := fun r n => if r = repository ∧ n = number then sha else s.heads r n }
  | .die i left =>
    match s.calls[i]? with
    | none => s
    | some c => if c.phase.over then s else s.apply i c (diesLeaving c left)
  | .step i st =>
    match s.calls[i]? with
    | none => s
    | some c =>
      match c.next b s.audit s.free st with
      | none => s
      | some m => s.apply i c m

/-- The state behind a run. -/
def run (b : Broker V) (s : System V) (labels : List (Label b)) : System V :=
  labels.foldl (step b) s

/-- Every label of a run meets a condition in the state before it. -/
def StepsMeet (b : Broker V) (P : System V → Label b → Prop) : System V → List (Label b) → Prop
  | _, [] => True
  | s, label :: labels => P s label ∧ StepsMeet b P (s.step b label) labels

/-- A system in which no call has been made. -/
def start (audit : List Char) (heads : String → ℤ → String) : System V := { audit, heads }

end System

end Review

end SkCoord
