import SkCoord.CardStore.CreateExplicit
import SkCoord.Python.ByteLines

/-!
# The files of the ledger of attempts

Each host appends its creation attempts to a log of its own in the recovery directory, one JSON
object on each line, and a reader goes through the logs of all hosts.  `readCreationAttempts` drops
what stands behind the last newline of a log, and `appendCreationAttempt` writes behind it.
-/

namespace SkCoord

open Python

/-- What reads the lines of a log. -/
structure LineReader where
  floats : FloatText
  /-- What `json.loads` makes of bytes that are no UTF-8, or that open like UTF-16 or UTF-32. -/
  foreign : Bytes → Except PyError Json

namespace AttemptLog

/-- The error of a log with a bad line. -/
def corruptLog : PyError := .value "creation-attempt log is corrupt"

/-- The error of a log that is no plain file. -/
def notSafe : PyError := .value "creation-attempt log is unsafe"

/-- The text opens like one of another encoding. -/
def opensForeign : List Char → Bool
  | [] => false
  | c :: l => c == '\uFEFF' || c.toNat == 0 || l.head?.any fun d => d.toNat == 0

/-- `json.loads(line)` of bytes. -/
def loadsLine (r : LineReader) (line : Bytes) : Except PyError Json :=
  match decodeUtf8 line with
  | none => r.foreign line
  | some text =>
    if opensForeign text then r.foreign line
    else match Json.loads r.floats text with
      | some v => pure v
      | none => throw corruptLog

/-- `isinstance(v, str)`. -/
def isText : Json → Bool
  | .str _ => true
  | _ => false

/-- `re.fullmatch(r"[0-9a-f]{64}", str(v))`. -/
def isDigest : Json → Bool
  | .str s => isHex 64 s
  | .int n => isHex 64 (toString n)
  | _ => false

/-- The checks on one record. -/
def checkRecord (record : Dict) : Except PyError Dict :=
  let semantic := record.getD "semantic_digest" (.str "")
  if !isText (record.get "card_id") || !isDigest (record.getD "request_digest" (.str "")) ||
      (semantic.truthy && !isDigest semantic) || !isText (record.get "actor") ||
      !isText (record.get "ts") then throw corruptLog
  else do
    (record.get "outcome").requireHashable
    if (record.get "outcome").mem [.str "accepted", .str "rejected"] then pure record
    else throw corruptLog

/-- The checks on the value of a line. -/
def checkAttempt : Json → Except PyError Dict
  | .obj record => checkRecord record
  | v => throw (.attr ("'" ++ v.typeName ++ "' object has no attribute 'get'"))

/-- One line of a log. -/
def readLine (r : LineReader) (line : Bytes) : Except PyError Dict := do
  let v ← loadsLine r line
  checkAttempt v

/-- The data of a log without what stands behind its last newline. -/
def wholeLines (data : Bytes) : Bytes :=
  if data ≠ [] ∧ data.getLast? ≠ some 10 then beforeLastNewline data ++ [10] else data

/-- The records of one log; `none` is a file that is not plain. -/
def readLog (r : LineReader) : Option Bytes → Except PyError (List Dict)
  | none => throw notSafe
  | some data => (byteLines (wholeLines data)).mapM (readLine r)

/-- The log of a host. -/
def logName (host : String) : String := "card-creation-attempts@" ++ host ++ ".jsonl"

/-- `name.startswith(_CREATION_ATTEMPT_PREFIX) and name.endswith(".jsonl")`. -/
def isLogName (name : String) : Bool :=
  "card-creation-attempts@".toList.isPrefixOf name.toList && endsWith name ".jsonl"

end AttemptLog

/-- The directory `recovery`: its names, and the bytes of each plain file. -/
structure RecoveryDir where
  names : List String
  file : String → Option Bytes

namespace RecoveryDir

/-- The logs that are read, in their order. -/
def logNames (d : RecoveryDir) : List String :=
  (d.names.insertionSort (· ≤ ·)).filter AttemptLog.isLogName

/-- `_read_creation_attempts`. -/
def readCreationAttempts (r : LineReader) (d : RecoveryDir) : Except PyError (List Dict) := do
  let logs ← d.logNames.mapM fun name => AttemptLog.readLog r (d.file name)
  pure logs.flatten

end RecoveryDir

/-! ### Writing -/

/-- A creation attempt with its time. -/
structure LoggedAttempt where
  record : AttemptRecord
  ts : String
  wellFormed : record.isWellFormed = true

namespace LoggedAttempt

/-- The record that is written. -/
def toDict (a : LoggedAttempt) : Dict :=
  [("card_id", .str a.record.cardId), ("request_digest", .str a.record.requestDigest),
    ("actor", .str a.record.actor), ("ts", .str a.ts), ("outcome", .str a.record.outcome.value)] ++
  (if a.record.semanticDigest ≠ "" then [("semantic_digest", .str a.record.semanticDigest)]
    else []) ++
  if a.record.reason ≠ "" then [("reason", .str a.record.reason)] else []

/-- `json.dumps(record, sort_keys=True)`. -/
def text (F : FloatText) (a : LoggedAttempt) : List Char := (Json.obj a.toDict).sortKeys.dumps F .spaced

/-- The bytes of one append. -/
def line (F : FloatText) (a : LoggedAttempt) : Bytes := encodeUtf8 (a.text F ++ ['\n'])

end LoggedAttempt

/-- `_append_creation_attempt` on a host. -/
def RecoveryDir.appendCreationAttempt (F : FloatText) (host : String) (d : RecoveryDir)
    (a : LoggedAttempt) : Except PyError RecoveryDir :=
  let name := AttemptLog.logName host
  if name ∈ d.names then
    match d.file name with
    | none => throw AttemptLog.notSafe
    | some data => pure { d with file := Function.update d.file name (some (data ++ a.line F)) }
  else
    pure { names := name :: d.names, file := Function.update d.file name (some (a.line F)) }

end SkCoord
