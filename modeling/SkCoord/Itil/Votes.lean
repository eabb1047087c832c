import SkCoord.Itil.Change
import SkCoord.Python.Glob
import SkCoord.Python.JsonIndent

/-!
# CAB votes

Each vote is a file of its own in `cab_dir`, under a name that puts the change and the voter
together.  `submitCabVote` writes one and `getCabVotes` reads those that a pattern finds.
-/

namespace SkCoord.Itil

open Python

/-- The text of a decision. -/
def CABDecisionValue.value : CABDecisionValue → String
  | approved => "approved"
  | rejected => "rejected"
  | abstain => "abstain"

/-- The decision of a text, if it is one. -/
def CABDecisionValue.ofValue? (s : String) : Option CABDecisionValue :=
  match s with
  | "approved" => some approved
  | "rejected" => some rejected
  | "abstain" => some abstain
  | _ => none

/-! ### The file system -/

/-- The file system around `cab_dir`, which is the directory `0`. -/
structure Disk where
  /-- The directory that the parts of a path lead to. -/
  directory : List String → Option ℕ
  /-- A directory that the parts of a pattern lead to. -/
  isUnder : List String → ℕ → Bool
  /-- The error of a write under a name. -/
  refusal : ℕ → String → Option PyError
  /-- `**` in a part of a pattern is an error. -/
  refusesStars : Bool
  directory_nil : directory [] = some 0
  isUnder_nil : ∀ n, isUnder [] n = (n == 0)

/-- A file: its directory and its name. -/
abbrev FileKey := ℕ × String

/-- The files of the votes. -/
abbrev VoteFiles := Assoc FileKey Bytes

namespace Disk

/-- The file of a path, where it can be written. -/
def place (disk : Disk) (path : String) : Except PyError FileKey :=
  let parts := pathParts path
  match parts.getLast?, disk.directory parts.dropLast with
  | some name, some n =>
    match disk.refusal n name with
    | none => pure (n, name)
    | some e => throw e
  | none, _ => throw (.value "atomic write destination is unsafe")
  | some _, none => throw (.value "atomic write parent is unsafe")

/-- The parts of a pattern. -/
def patternParts (disk : Disk) (pattern : String) : Except PyError (List String) :=
  let parts := pathParts pattern
  if isAbsolutePath pattern then throw (.runtime "Non-relative patterns are unsupported")
  else if disk.refusesStars && parts.any fun part => contains part "**" && part ≠ "**" then
    throw (.value "Invalid pattern: '**' can only be an entire path component")
  else pure parts

/-- The pattern with these parts finds the file. -/
def finds (disk : Disk) (parts : List String) (file : FileKey) : Bool :=
  disk.isUnder parts.dropLast file.1 && fnmatch file.2 (parts.getLastD "")

end Disk

/-! ### Votes as files -/

/-- The path of a vote in `cab_dir`. -/
def voteName (changeId voter : String) : String := changeId ++ "-" ++ voter ++ ".json"

/-- The pattern of the votes on a change. -/
def votePattern (changeId : String) : String := changeId ++ "-*.json"

namespace CABDecision

/-- `vote.model_dump()`. -/
def modelDump (vote : CABDecision) : Dict :=
  [("change_id", .str vote.changeId),
    ("agent", .str vote.agent),
    ("subject_role", .str vote.subjectRole),
    ("subject_fingerprint", .str vote.subjectFingerprint),
    ("authorization_id", .str vote.authorizationId),
    ("decision", .str vote.decision.value),
    ("conditions", .str vote.conditions),
    ("decided_at", .str vote.decidedAt)]

/-- The content of the file of a vote. -/
def content (F : FloatText) (vote : CABDecision) : Bytes :=
  encodeUtf8 ((Json.obj vote.modelDump).pretty F 0 ++ ['\n'])

/-- A field of type `str` without a default. -/
def requiredText (d : Dict) (k : String) : Option String :=
  match Assoc.get? d k with
  | some (.str s) => some s
  | _ => none

/-- A field of type `str` with a default. -/
def optionalText (d : Dict) (k dflt : String) : Option String :=
  match Assoc.get? d k with
  | none => some dflt
  | some (.str s) => some s
  | some _ => none

/-- The field `decision`. -/
def decisionField (d : Dict) : Option CABDecisionValue :=
  match Assoc.get? d "decision" with
  | none => some .abstain
  | some (.str s) => CABDecisionValue.ofValue? s
  | some _ => none

/-- `CABDecision.model_validate`, where it returns. -/
def modelValidate (now : String) : Json → Option CABDecision
  | .obj d => do
    pure
      { changeId := ← requiredText d "change_id"
        agent := ← requiredText d "agent"
        subjectRole := ← optionalText d "subject_role" ""
        subjectFingerprint := ← optionalText d "subject_fingerprint" ""
        authorizationId := ← optionalText d "authorization_id" ""
        decision := ← decisionField d
        conditions := ← optionalText d "conditions" ""
        decidedAt := ← optionalText d "decided_at" now }
  | _ => none

end CABDecision

/-- The vote of a file, if it is read. -/
def readVote (env : Env) (F : FloatText) (content : Bytes) : Option CABDecision :=
  ((decodeUtf8 content).bind (Json.loads F)).bind (CABDecision.modelValidate env.now)

/-! ### Submitting and reading -/

/-- The arguments of `submit_cab_vote`, with the time of the call. -/
structure VoteCall where
  changeId : String
  agent : String
  decision : String := "abstain"
  conditions : String := ""
  subject : Option String := none
  subjectRole : String := ""
  subjectFingerprint : String := ""
  authorizationId : String := ""
  now : String

/-- `subject if subject else agent`. -/
def VoteCall.voter (call : VoteCall) : String :=
  match call.subject with
  | none => call.agent
  | some subject => if subject = "" then call.agent else subject

/-- `not subject`. -/
def VoteCall.noSubject (call : VoteCall) : Bool := call.subject.getD "" = ""

/-- The vote of a call. -/
def VoteCall.vote (env : Env) (call : VoteCall) : Except PyError CABDecision :=
  if call.subjectRole ≠ "" ∧
      call.subjectRole ∉ ["owner", "operator", "approver", "implementer"] then
    throw (.value ("unsupported CAB subject role: " ++ env.repr (.str call.subjectRole)))
  else if call.subjectRole ∈ ["owner", "approver"] ∧ call.noSubject then
    throw (.value "a qualifying human role requires an authenticated subject")
  else match CABDecisionValue.ofValue? call.decision with
    | none => throw (.value (env.repr (.str call.decision) ++ " is not a valid CABDecisionValue"))
    | some decision => pure
        { changeId := call.changeId
          agent := call.voter
          subjectRole := call.subjectRole
          subjectFingerprint := call.subjectFingerprint
          authorizationId := call.authorizationId
          decision := decision
          conditions := call.conditions
          decidedAt := call.now }

/-- `submit_cab_vote`. -/
def submitCabVote (env : Env) (F : FloatText) (disk : Disk) (files : VoteFiles) (call : VoteCall) :
    Except PyError (CABDecision × VoteFiles) := do
  let vote ← call.vote env
  let file ← disk.place (voteName vote.changeId vote.agent)
  pure (vote, Assoc.set files file (vote.content F))

/-- `get_cab_votes`. -/
def getCabVotes (env : Env) (F : FloatText) (disk : Disk) (files : VoteFiles) (changeId : String) :
    Except PyError (List CABDecision) := do
  let parts ← disk.patternParts (votePattern changeId)
  pure ((files.filter fun p => disk.finds parts p.1).filterMap fun p => readVote env F p.2)

/-- The votes that are submitted, and the files that they leave. -/
structure Ballot where
  submitted : List CABDecision := []
  files : VoteFiles := []

/-- One more call; one that raises leaves everything as it is. -/
def Ballot.call (env : Env) (F : FloatText) (disk : Disk) (b : Ballot) (call : VoteCall) : Ballot :=
  match submitCabVote env F disk b.files call with
  | .ok (vote, files) => ⟨b.submitted ++ [vote], files⟩
  | .error _ => b

/-- The calls, one after the other. -/
def Ballot.after (env : Env) (F : FloatText) (disk : Disk) (calls : List VoteCall) : Ballot :=
  calls.foldl (Ballot.call env F disk) {}

/-- `_fold_record` of a change, behind its core and its events. -/
def foldVotedChange (env : Env) (F : FloatText) (disk : Disk) (files : VoteFiles)
    (recordId : String) (core : Dict) (events : List ChangeEvent) : Except PyError Change := do
  let votes ← getCabVotes env F disk files (env.format (core.getD "id" (.str recordId)))
  foldChange env core events votes

end SkCoord.Itil
