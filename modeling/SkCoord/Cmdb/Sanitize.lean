import SkCoord.Cmdb.Item

/-!
# Sanitized run artifacts

`sanitize` masks the values under secret keys of a run artifact and bounds its lists and texts.
-/

namespace SkCoord.Cmdb

open Python

/-- A value of a run artifact; the keys of a mapping are values, and `other` are the objects that
are none of the rest. -/
inductive Artifact where
  | null
  | bool (b : Bool)
  | int (i : Int)
  | float (q : Rat)
  | str (s : String)
  | list (l : List Artifact)
  | tuple (l : List Artifact)
  | dict (d : List (Json × Artifact))
  | other (object : ℕ)

/-- The key under which findings are kept. -/
def findingsKey : String := "secret_redaction_findings"

/-- What a masked value becomes. -/
def redacted : Artifact := .str "[redacted]"

/-- A dictionary with texts for keys. -/
def Artifact.ofFields (d : Assoc String Artifact) : Artifact :=
  .dict (d.map fun p => (.str p.1, p.2))

mutual

/-- `_sanitize_with_findings`: the value with masked fields, and their paths. -/
def sanitizeWithFindings (env : Env) (path : String) : Artifact → Artifact × List String
  | .dict d =>
    let r := sanitizeFields env path [] d
    (.ofFields r.1, r.2)
  | .list l =>
    let r := sanitizeItems env path 0 l
    (.list r.1, r.2)
  | .tuple l =>
    let r := sanitizeItems env path 0 l
    (.list r.1, r.2)
  | .str s => (.str (String.ofList (s.toList.take 1000)), [])
  | .null => (.null, [])
  | .bool b => (.bool b, [])
  | .int i => (.int i, [])
  | .float q => (.float q, [])
  | .other object => (.other object, [])

/-- The fields of a mapping behind those that are clean. -/
def sanitizeFields (env : Env) (path : String) (clean : Assoc String Artifact) :
    List (Json × Artifact) → Assoc String Artifact × List String
  | [] => (clean, [])
  | (rawKey, child) :: d =>
    let key := env.format rawKey
    let childPath := path ++ "." ++ key
    let r :=
      if key = findingsKey then sanitizeWithFindings env childPath child
      else if isSecretAttributeKey env key then (redacted, [childPath])
      else sanitizeWithFindings env childPath child
    let rest := sanitizeFields env path (Assoc.set clean key r.1) d
    (rest.1, r.2 ++ rest.2)

/-- The items of a list from an index on, up to a thousand of them. -/
def sanitizeItems (env : Env) (path : String) (index : ℕ) :
    List Artifact → List Artifact × List String
  | [] => ([], [])
  | item :: l =>
    if index < 1000 then
      let r := sanitizeWithFindings env (indexPath path index) item
      let rest := sanitizeItems env path (index + 1) l
      (r.1 :: rest.1, r.2 ++ rest.2)
    else ([], [])

end

/-- `_sanitize`. -/
def sanitize (env : Env) (value : Artifact) : Artifact := (sanitizeWithFindings env "$" value).1

end SkCoord.Cmdb
