import SkCoord.Python.Json
import Mathlib.Data.Nat.Digits.Defs

/-!
# JSON texts

`Json.dumps` writes a value as `json.dumps` does, in ASCII and on one line, and `Json.loads` reads a
text as `json.loads` does.  A text of Lean holds no lone surrogates; where an escape names one, the
reader puts the replacement character.
-/

namespace Python

/-! ### Numbers -/

/-- A number as it is written: sign, digits before the dot, digits behind it, exponent. -/
structure NumText where
  negative : Bool := false
  whole : List Char
  frac : List Char := []
  /-- The letter, the sign and the digits. -/
  exponent : Option (Char × List Char × List Char) := none
  deriving DecidableEq

namespace NumText

/-- The dot with the digits behind it. -/
def fracText (frac : List Char) : List Char := if frac = [] then [] else '.' :: frac

/-- The letter of an exponent with what follows. -/
def exponentText : Option (Char × List Char × List Char) → List Char
  | none => []
  | some (letter, sign, digits) => letter :: (sign ++ digits)

/-- The characters of a number. -/
def text (t : NumText) : List Char :=
  (if t.negative then ['-'] else []) ++
    (t.whole ++ (fracText t.frac ++ exponentText t.exponent))

/-- The number has a fraction or an exponent. -/
def isFloat (t : NumText) : Bool := t.frac ≠ [] || t.exponent.isSome

/-- `(-?(?:0|[1-9][0-9]*))(\.[0-9]+)?([eE][-+]?[0-9]+)?`. -/
structure Valid (t : NumText) : Prop where
  whole : t.whole = ['0'] ∨
    (t.whole ≠ [] ∧ t.whole.head? ≠ some '0' ∧ ∀ c ∈ t.whole, c.isDigit = true)
  frac : ∀ c ∈ t.frac, c.isDigit = true
  exponent : ∀ letter sign digits, t.exponent = some (letter, sign, digits) →
    (letter = 'e' ∨ letter = 'E') ∧ (sign = [] ∨ sign = ['+'] ∨ sign = ['-']) ∧
      digits ≠ [] ∧ ∀ c ∈ digits, c.isDigit = true

end NumText

/-- How floats are written and read: `float.__repr__` and `float(text)`. -/
structure FloatText where
  repr : Rat → NumText
  value : NumText → Rat
  /-- `NaN`, `Infinity` and `-Infinity`. -/
  constant : List Char → Rat
  /-- The numbers that are floats. -/
  IsDouble : Rat → Prop
  valid : ∀ q, (repr q).Valid
  isFloat : ∀ q, (repr q).isFloat = true
  value_repr : ∀ q, IsDouble q → value (repr q) = q

/-- The one text of a float. -/
def zeroText : NumText := { whole := ['0'], frac := ['0'] }

theorem zeroText_valid : zeroText.Valid :=
  ⟨Or.inl rfl, List.forall_mem_singleton.mpr rfl, nofun⟩

/-- Floats of which there is one. -/
def zeroFloats : FloatText where
  repr := fun _ => zeroText
  value := fun _ => 0
  constant := fun _ => 0
  IsDouble := fun q => q = 0
  valid := fun _ => zeroText_valid
  isFloat := fun _ => rfl
  value_repr := fun _ h => h.symm

/-- The character of a decimal digit. -/
def digitChar (d : ℕ) : Char := Char.ofNat (48 + d)

/-- The decimal digits of a number, first digit first. -/
def decimal (n : ℕ) : List Char :=
  if n = 0 then ['0'] else ((Nat.digits 10 n).reverse.map digitChar)

/-- The number of decimal digits. -/
def ofDecimal (ds : List Char) : ℕ := Nat.ofDigits 10 (ds.map fun c => c.toNat - 48).reverse

/-- An integer as it is written. -/
def intText (i : ℤ) : NumText := { negative := decide (i < 0), whole := decimal i.natAbs }

/-- The minus sign. -/
def takeMinus (l : List Char) : Bool × List Char :=
  match l with
  | c :: r => if c = '-' then (true, r) else (false, l)
  | [] => (false, [])

/-- The digits before the dot. -/
def takeWhole (l : List Char) : List Char × List Char :=
  match l with
  | c :: r =>
    if c = '0' then (['0'], r) else (l.takeWhile Char.isDigit, l.dropWhile Char.isDigit)
  | [] => ([], [])

/-- The dot with the digits behind it. -/
def takeFrac (l : List Char) : List Char × List Char :=
  match l with
  | c :: r =>
    if c = '.' ∧ r.takeWhile Char.isDigit ≠ [] then
      (r.takeWhile Char.isDigit, r.dropWhile Char.isDigit)
    else ([], l)
  | [] => ([], [])

/-- The sign of an exponent. -/
def takeSign (l : List Char) : List Char × List Char :=
  match l with
  | c :: r => if c = '+' ∨ c = '-' then ([c], r) else ([], l)
  | [] => ([], [])

/-- The exponent. -/
def takeExponent (l : List Char) : Option (Char × List Char × List Char) × List Char :=
  match l with
  | c :: r =>
    let (sign, digits) := takeSign r
    if (c = 'e' ∨ c = 'E') ∧ digits.takeWhile Char.isDigit ≠ [] then
      (some (c, sign, digits.takeWhile Char.isDigit), digits.dropWhile Char.isDigit)
    else (none, l)
  | [] => (none, [])

/-- The number at the beginning of a text. -/
def lexNumber (l : List Char) : Option (NumText × List Char) :=
  let (negative, l) := takeMinus l
  let (whole, l) := takeWhole l
  if whole = [] then none
  else
    let (frac, l) := takeFrac l
    let (exponent, l) := takeExponent l
    some ({ negative, whole, frac, exponent }, l)

/-! ### Texts in quotes -/

/-- A digit of a hexadecimal number. -/
def hexDigit (d : ℕ) : Char := if d < 10 then Char.ofNat (48 + d) else Char.ofNat (87 + d)

/-- The value of a hexadecimal digit. -/
def hexVal (c : Char) : Option ℕ :=
  if c.isDigit then some (c.toNat - 48)
  else if 'a' ≤ c ∧ c ≤ 'f' then some (c.toNat - 87)
  else if 'A' ≤ c ∧ c ≤ 'F' then some (c.toNat - 55)
  else none

/-- `\uXXXX`. -/
def unicodeEscape (u : ℕ) : List Char :=
  ['\\', 'u', hexDigit (u / 4096), hexDigit (u / 256 % 16), hexDigit (u / 16 % 16),
    hexDigit (u % 16)]

/-- The code units of a character: a surrogate pair outside the basic plane. -/
def units (c : Char) : List ℕ :=
  if c.toNat < 0x10000 then [c.toNat]
  else [0xD800 + (c.toNat - 0x10000) / 0x400, 0xDC00 + (c.toNat - 0x10000) % 0x400]

/-- A character that is escaped by a letter or by itself. -/
def shortEscapes : List (Char × Char) :=
  [('"', '"'), ('\\', '\\'), ('\n', 'n'), ('\r', 'r'), ('\t', 't'), ('\x0c', 'f'), ('\x08', 'b')]

/-- A character as it stands between quotes. -/
def escapeChar (c : Char) : List Char :=
  match Assoc.get? shortEscapes c with
  | some e => ['\\', e]
  | none =>
    if 32 ≤ c.toNat ∧ c.toNat ≤ 126 then [c] else (units c).flatMap unicodeEscape

/-- A text in quotes. -/
def quote (s : String) : List Char := '"' :: s.toList.flatMap escapeChar ++ ['"']

/-- The character that an escape stands for. -/
def unescape (e : Char) : Option Char :=
  if e = '/' then some '/' else (shortEscapes.find? fun p => p.2 == e).map Prod.fst

/-- The code units of a text behind its opening quote. -/
def scanString : List Char → Option (List ℕ × List Char)
  | [] => none
  | '"' :: l => some ([], l)
  | '\\' :: 'u' :: a :: b :: c :: d :: l => do
    let u := (← hexVal a) * 4096 + (← hexVal b) * 256 + (← hexVal c) * 16 + (← hexVal d)
    let (us, l) ← scanString l
    some (u :: us, l)
  | '\\' :: e :: l => do
    let c ← unescape e
    let (us, l) ← scanString l
    some (c.toNat :: us, l)
  | c :: l =>
    if c.toNat < 32 then none
    else do
      let (us, l) ← scanString l
      some (c.toNat :: us, l)

/-- A code unit outside a pair. -/
def unitChar (u : ℕ) : Char := if 0xD800 ≤ u ∧ u < 0xE000 then '\uFFFD' else Char.ofNat u

/-- The characters of code units. -/
def joinUnits : List ℕ → List Char
  | [] => []
  | [u] => [unitChar u]
  | u :: v :: us =>
    if 0xD800 ≤ u ∧ u < 0xDC00 ∧ 0xDC00 ≤ v ∧ v < 0xE000 then
      Char.ofNat (0x10000 + (u - 0xD800) * 0x400 + (v - 0xDC00)) :: joinUnits us
    else unitChar u :: joinUnits (v :: us)

/-- The text behind an opening quote. -/
def lexString (l : List Char) : Option (String × List Char) :=
  (scanString l).map fun p => (String.ofList (joinUnits p.1), p.2)

/-! ### Values -/

/-- The separators of `json.dumps`: with blanks, or without. -/
inductive JsonLayout where
  | spaced
  | compact
  deriving DecidableEq

/-- The separator of items. -/
def JsonLayout.item : JsonLayout → List Char
  | spaced => [',', ' ']
  | compact => [',']

/-- The separator of a key and its value. -/
def JsonLayout.key : JsonLayout → List Char
  | spaced => [':', ' ']
  | compact => [':']

namespace Json

mutual

/-- `json.dumps`. -/
def dumps (F : FloatText) (y : JsonLayout) : Json → List Char
  | null => "null".toList
  | bool true => "true".toList
  | bool false => "false".toList
  | int i => (intText i).text
  | float q => (F.repr q).text
  | str s => quote s
  | arr [] => ['[', ']']
  | arr (v :: l) => '[' :: dumps F y v ++ dumpsElems F y l
  | obj [] => ['{', '}']
  | obj ((k, v) :: d) => '{' :: quote k ++ y.key ++ dumps F y v ++ dumpsFields F y d

/-- The elements behind the first. -/
def dumpsElems (F : FloatText) (y : JsonLayout) : List Json → List Char
  | [] => [']']
  | v :: l => y.item ++ dumps F y v ++ dumpsElems F y l

/-- The fields behind the first. -/
def dumpsFields (F : FloatText) (y : JsonLayout) : List (String × Json) → List Char
  | [] => ['}']
  | (k, v) :: d => y.item ++ quote k ++ y.key ++ dumps F y v ++ dumpsFields F y d

end

/-- The whitespace between tokens. -/
def isBlankChar (c : Char) : Bool := c == ' ' || c == '\t' || c == '\n' || c == '\r'

/-- A text behind its leading whitespace. -/
def skipBlanks (l : List Char) : List Char := l.dropWhile isBlankChar

/-- The value of a number as it is written. -/
def ofNumber (F : FloatText) (t : NumText) : Json :=
  if t.isFloat then float (F.value t)
  else int (if t.negative then -(ofDecimal t.whole : ℤ) else ofDecimal t.whole)

/-- The dictionary of a list of pairs: of two values for a key, the later one. -/
def ofPairs (l : List (String × Json)) : Dict := l.foldl (fun d p => Assoc.set d p.1 p.2) []

mutual

/-- The value at the beginning of a text.  The number bounds the depth of the calls. -/
def parseValue (F : FloatText) : ℕ → List Char → Option (Json × List Char)
  | 0, _ => none
  | n + 1, l =>
    match l with
    | '"' :: l => (lexString l).map fun p => (str p.1, p.2)
    | '[' :: l =>
      match skipBlanks l with
      | ']' :: l => some (arr [], l)
      | l => do
        let (v, l) ← parseValue F n l
        let (vs, l) ← parseElems F n l
        some (arr (v :: vs), l)
    | '{' :: l =>
      match skipBlanks l with
      | '}' :: l => some (obj [], l)
      | l => do
        let (p, l) ← parseField F n l
        let (ps, l) ← parseFields F n l
        some (obj (ofPairs (p :: ps)), l)
    | 'n' :: 'u' :: 'l' :: 'l' :: l => some (null, l)
    | 't' :: 'r' :: 'u' :: 'e' :: l => some (bool true, l)
    | 'f' :: 'a' :: 'l' :: 's' :: 'e' :: l => some (bool false, l)
    | 'N' :: 'a' :: 'N' :: l => some (float (F.constant "NaN".toList), l)
    | 'I' :: 'n' :: 'f' :: 'i' :: 'n' :: 'i' :: 't' :: 'y' :: l =>
      some (float (F.constant "Infinity".toList), l)
    | '-' :: 'I' :: 'n' :: 'f' :: 'i' :: 'n' :: 'i' :: 't' :: 'y' :: l =>
      some (float (F.constant "-Infinity".toList), l)
    | l => (lexNumber l).map fun p => (ofNumber F p.1, p.2)

/-- The elements behind a value. -/
def parseElems (F : FloatText) : ℕ → List Char → Option (List Json × List Char)
  | 0, _ => none
  | n + 1, l =>
    match skipBlanks l with
    | ']' :: l => some ([], l)
    | ',' :: l => do
      let (v, l) ← parseValue F n (skipBlanks l)
      let (vs, l) ← parseElems F n l
      some (v :: vs, l)
    | _ => none

/-- A key with its value. -/
def parseField (F : FloatText) : ℕ → List Char → Option ((String × Json) × List Char)
  | 0, _ => none
  | n + 1, l =>
    match l with
    | '"' :: l => do
      let (k, l) ← lexString l
      match skipBlanks l with
      | ':' :: l => do
        let (v, l) ← parseValue F n (skipBlanks l)
        some ((k, v), l)
      | _ => none
    | _ => none

/-- The fields behind a value. -/
def parseFields (F : FloatText) : ℕ → List Char → Option (List (String × Json) × List Char)
  | 0, _ => none
  | n + 1, l =>
    match skipBlanks l with
    | '}' :: l => some ([], l)
    | ',' :: l => do
      let (p, l) ← parseField F n (skipBlanks l)
      let (ps, l) ← parseFields F n l
      some (p :: ps, l)
    | _ => none

end

/-- `json.loads`. -/
def loads (F : FloatText) (l : List Char) : Option Json :=
  match parseValue F (l.length + 1) (skipBlanks l) with
  | some (v, rest) => if skipBlanks rest = [] then some v else none
  | none => none

end Json

end Python
