import SkCoord.Python.DateTime
import SkCoord.Python.JsonUtf8
import Mathlib.Data.List.Lex
import Mathlib.Data.List.Sort

/-!
# Canonical JSON

`canonicalValue` maps a value of a contract to JSON without floats: times become texts in UTC, texts
and keys are normalized, and the keys of a map are sorted by their UTF-16 code units.
`canonicalJsonBytes` writes the result, and `canonicalSha256` hashes the bytes.
-/

namespace SkCoord.Portfolio

open Python

/-- `unicodedata.normalize("NFC", ·)`: a normalized text stays as it is, and so does ASCII. -/
structure Unicode where
  nfc : String → String
  nfc_nfc : ∀ s, nfc (nfc s) = nfc s
  nfc_ascii : ∀ s, DateTime.IsAscii s.toList → nfc s = s

/-- Texts that are all normalized. -/
def plainUnicode : Unicode where
  nfc := id
  nfc_nfc := fun _ => rfl
  nfc_ascii := fun _ _ => rfl

/-- What the contracts use of the interpreter. -/
structure Env where
  floats : FloatText
  unicode : Unicode
  /-- `hashlib.sha256(·).hexdigest()`. -/
  sha256 : Bytes → String
  /-- The offset of the machine at a reading of its wall clock, where it knows one. -/
  localOffset : Int → Option Int

/-- A machine in UTC whose hashes are all alike. -/
def utcMachine : Env where
  floats := zeroFloats
  unicode := plainUnicode
  sha256 := fun _ => String.ofList (List.replicate 64 'a')
  localOffset := fun _ => some 0

/-- The key of a map. -/
inductive MapKey where
  | str (s : String)
  | other
  deriving DecidableEq

/-- A value, as `_canonical_value` tells values apart. -/
inductive PyValue where
  | none
  | bool (b : Bool)
  | int (i : Int)
  | float (q : Rat)
  | str (s : String)
  | datetime (t : DateTime)
  /-- A list or a tuple. -/
  | list (l : List PyValue)
  | map (d : List (MapKey × PyValue))
  /-- A `BaseModel`, with its `model_dump(mode="python")`. -/
  | model (dump : PyValue)
  | other (typeName : String)

/-- The errors of the contracts. -/
inductive ContractError where
  /-- `ValueError`, and the `ValidationError` that pydantic makes of one. -/
  | value (msg : String)
  /-- `OverflowError`. -/
  | overflow (msg : String)
  /-- `KeyError` and `IndexError`. -/
  | lookup (msg : String)
  deriving DecidableEq, Repr

/-- The code units of a text as bytes, the high one first. -/
def utf16be (s : String) : List ℕ :=
  (s.toList.flatMap units).flatMap fun u => [u / 256, u % 256]

/-- The fields in the order of their keys. -/
def sortFields (d : Dict) : Dict := d.insertionSort fun p q => utf16be p.1 ≤ utf16be q.1

/-- A time in UTC. -/
def canonicalTime (t : DateTime) : Except ContractError String :=
  match t.offset with
  | none => throw (.value "canonical timestamps must be timezone-aware")
  | some offset =>
    match t.toUtc? offset with
    | some utc => pure utc.canonicalText
    | none => throw (.overflow "date value out of range")

variable (env : Env)

mutual

/-- `_canonical_value`. -/
def canonicalValue : PyValue → Except ContractError Json
  | .model dump => canonicalValue dump
  | .datetime t => do
    let text ← canonicalTime t
    pure (.str text)
  | .str s => pure (.str (env.unicode.nfc s))
  | .none => pure .null
  | .bool b => pure (.bool b)
  | .int i => pure (.int i)
  | .float _ => throw (.value "canonical contract values forbid floats")
  | .map d => do
    let normalized ← canonicalFields [] d
    pure (.obj (sortFields normalized))
  | .list l => do
    let items ← canonicalItems l
    pure (.arr items)
  | .other typeName => throw (.value ("unsupported canonical value: " ++ typeName))

/-- The items of a list. -/
def canonicalItems : List PyValue → Except ContractError (List Json)
  | [] => pure []
  | item :: l => do
    let value ← canonicalValue item
    let values ← canonicalItems l
    pure (value :: values)

/-- The fields of a map behind those that are normalized. -/
def canonicalFields (normalized : Dict) : List (MapKey × PyValue) → Except ContractError Dict
  | [] => pure normalized
  | (.other, _) :: _ => throw (.value "canonical map keys must be strings")
  | (.str key, item) :: d =>
    let normalizedKey := env.unicode.nfc key
    if normalizedKey ∈ Assoc.keys normalized then
      throw (.value "canonical map keys collide after NFC normalization")
    else do
      let value ← canonicalValue item
      canonicalFields (normalized ++ [(normalizedKey, value)]) d

end

/-- `canonical_json_bytes`. -/
def canonicalJsonBytes (value : PyValue) : Except ContractError Bytes := do
  let normalized ← canonicalValue env value
  pure (encodeUtf8 (normalized.dumpsUtf8 env.floats))

/-- `canonical_sha256`. -/
def canonicalSha256 (value : PyValue) : Except ContractError String := do
  let bytes ← canonicalJsonBytes env value
  pure (env.sha256 bytes)

mutual

/-- What `json.loads` returns, as a value. -/
def PyValue.ofJson : Json → PyValue
  | .null => .none
  | .bool b => .bool b
  | .int i => .int i
  | .float q => .float q
  | .str s => .str s
  | .arr l => .list (ofItems l)
  | .obj d => .map (ofFields d)

def PyValue.ofItems : List Json → List PyValue
  | [] => []
  | v :: l => ofJson v :: ofItems l

def PyValue.ofFields : List (String × Json) → List (MapKey × PyValue)
  | [] => []
  | (k, v) :: d => (.str k, ofJson v) :: ofFields d

end

end SkCoord.Portfolio
