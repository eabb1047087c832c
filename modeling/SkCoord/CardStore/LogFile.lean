import SkCoord.CardStore.Store
import SkCoord.Python.Lines

/-!
# The file of a log

A log is a text with one JSON object on a line.  `appendToFile` is the chain write of `append_event`,
`readFile` the chain check of `_read_events` on the bytes of a file.
-/

namespace SkCoord

open Python

/-- How the lines of a log are written, read and hashed. -/
structure FileEnv where
  floats : FloatText
  /-- `hashlib.sha256(b).hexdigest()`. -/
  hexdigest : Bytes → String
  hexdigest_ne : ∀ b, hexdigest b ≠ ""

/-- The SHA-256 of a stripped line. -/
def FileEnv.lineHash (E : FileEnv) (line : List Char) : String := E.hexdigest (encodeUtf8 line)

/-! ### Writing -/

/-- What is appended: a payload of JSON values and the stamp of the event. -/
structure Append (E : FileEnv) where
  action : String
  agent : String
  payload : Dict
  stamp : Stamp
  wellFormed : (Json.obj payload).WellFormed E.floats

/-- The event in a file that a caller's token names. -/
def findInFile (E : FileEnv) (tid : String) : List (List Char) → Except PyError (Option Event)
  | [] => pure none
  | line :: lines =>
    match Json.loads E.floats line with
    | none => findInFile E tid lines
    | some v => do
      let t ← v.getAttr "transition_id"
      match v with
      | .obj e => if t.pyEq (.str tid) then pure (some e) else findInFile E tid lines
      | _ => findInFile E tid lines

/-- The event that `transition_id` names, when the payload has one. -/
def replayedInFile (E : FileEnv) (payload : Dict) (lines : List (List Char)) :
    Except PyError (Option Event) :=
  match Dict.get payload "transition_id" with
  | .str tid => if tid = "" then pure none else findInFile E tid lines
  | _ => pure none

/-- The event behind `seq` lines, the last of which has the hash `prevHash`. -/
def chainedEvent (hostname : String) (seq : ℕ) (prevHash action agent : String) (payload : Dict)
    (stamp : Stamp) : Event :=
  payload.foldl (fun e p => Assoc.set e p.1 p.2)
    [("event_id", .str stamp.eventId),
      ("ts", .str stamp.ts),
      ("writer", .str agent),
      ("node", .str hostname),
      ("seq", .int seq),
      ("action", .str action),
      ("prev_hash", .str prevHash)]

/-- The hash of the last line, empty where there is none. -/
def lastHash (E : FileEnv) (lines : List (List Char)) : String :=
  (lines.getLast?.map fun line => E.lineHash (stripChars line)).getD ""

/-- The line of an event. -/
def eventLine (E : FileEnv) (e : Event) : List Char := (Json.obj e).dumps E.floats .spaced

/-- The chain write of `append_event`, with the text it leaves and the event it returns. -/
def appendToFile (env : Env) (E : FileEnv) (text : List Char) (a : Append E) :
    Except PyError (List Char × Event) := do
  let lines := fileLines text
  match ← replayedInFile E a.payload lines with
  | some e => pure (text, e)
  | none =>
    let e := chainedEvent env.hostname lines.length (lastHash E lines) a.action a.agent a.payload
      a.stamp
    pure (text ++ eventLine E e ++ ['\n'], e)

/-- The text that a call of `append_event` leaves; a call that raises has written nothing. -/
def appended (env : Env) (E : FileEnv) (text : List Char) (a : Append E) : List Char :=
  match appendToFile env E text a with
  | .ok r => r.1
  | .error _ => text

/-- The text that a sequence of calls makes of an empty file. -/
def writeLog (env : Env) (E : FileEnv) (appends : List (Append E)) : List Char :=
  appends.foldl (appended env E) []

/-! ### Reading -/

/-- The events of the lines behind one with hash `prev`. -/
def readLines (env : Env) (E : FileEnv) (cardId name : String) :
    String → List (List Char) → Except PyError (List Event)
  | _, [] => pure []
  | prev, line :: lines =>
    if stripChars line = [] then readLines env E cardId name prev lines
    else
      match Json.loads E.floats (stripChars line) with
      | none => throw (.value ("CardStore event source for " ++ cardId ++ " is malformed"))
      | some (.obj e) => do
        Store.checkChain env cardId name prev e
        let rest ← readLines env E cardId name (E.lineHash (stripChars line)) lines
        pure (e :: rest)
      | some _ =>
        throw (.value ("CardStore event source for " ++ cardId ++ " must contain JSON objects"))

/-- The part of `_read_events` that reads one file. -/
def readFile (env : Env) (E : FileEnv) (cardId name : String) (raw : Bytes) :
    Except PyError (List Event) :=
  match decodeUtf8 raw with
  | none => throw (.value ("CardStore event source for " ++ cardId ++ " is malformed"))
  | some text => readLines env E cardId name "" (splitlines text)

/-! ### Tampering -/

/-- Every file that is accepted and ends with the last line of the log ends with the whole log. -/
def TamperEvident (env : Env) (E : FileEnv) (cardId name : String) (text : List Char) : Prop :=
  ∀ raw events t, readFile env E cardId name raw = .ok events → decodeUtf8 raw = some t →
    (nonBlankLines t).getLast? = (nonBlankLines text).getLast? →
      nonBlankLines text <:+ nonBlankLines t

/-- The payload leaves the link to the line before as it is, if there is a line before and the call
writes. -/
def Append.KeepsLink {E : FileEnv} (text : List Char) (a : Append E) : Prop :=
  replayedInFile E a.payload (fileLines text) = .ok none →
    ∀ line, (nonBlankLines text).getLast? = some line →
      ∀ v, Assoc.get? a.payload "prev_hash" = some v → v = .str (E.lineHash line)

/-- Every call of a sequence leaves the link to the line before as it is. -/
def AllKeepLink (env : Env) (E : FileEnv) : List Char → List (Append E) → Prop
  | _, [] => True
  | text, a :: appends => a.KeepsLink text ∧ AllKeepLink env E (appended env E text a) appends

end SkCoord
