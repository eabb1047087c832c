import Mathlib.Data.List.Basic

/-!
# Exceptions and strings

The exceptions a Python statement can leave with, and the string tests that source code makes on
them and on other texts: blank strings, case-insensitive search, hexadecimal digests.

Case is folded only as far as comparisons with ASCII text can see it: besides `A`–`Z` the Kelvin
sign folds to `k`, and under `re.IGNORECASE` the long s folds to `s` and the dotted capital and the
dotless small i fold to `i`.
-/

namespace Python

/-- How a call ends when it does not return.  `killed` is the death of the process, which no
`except` clause catches. -/
inductive PyError where
  | value (msg : String)
  | type (msg : String)
  | attr (msg : String)
  | runtime (msg : String)
  | os (msg : String)
  | key (msg : String)
  | killed
  deriving DecidableEq, Repr, Inhabited

namespace PyError

/-- `str(exc)`. -/
def str : PyError → String
  | value msg => msg
  | type msg => msg
  | attr msg => msg
  | runtime msg => msg
  | os msg => msg
  | key msg => msg
  | killed => ""

/-- `exc.__class__.__name__`. -/
def className : PyError → String
  | value _ => "ValueError"
  | type _ => "TypeError"
  | attr _ => "AttributeError"
  | runtime _ => "RuntimeError"
  | os _ => "OSError"
  | key _ => "KeyError"
  | killed => "BaseException"

/-- `str(exc) or exc.__class__.__name__`. -/
def reason (e : PyError) : String := if e.str = "" then e.className else e.str

end PyError

/-- The characters `str.strip()` removes. -/
def isSpace (c : Char) : Bool :=
  let n := c.toNat
  (9 ≤ n && n ≤ 13) || (28 ≤ n && n ≤ 32) || n == 0x85 || n == 0xA0 || n == 0x1680 ||
    (0x2000 ≤ n && n ≤ 0x200A) || n == 0x2028 || n == 0x2029 || n == 0x202F || n == 0x205F ||
    n == 0x3000

/-- `not s.strip()`. -/
def isBlank (s : String) : Bool := s.toList.all isSpace

/-- `s.strip()`. -/
def strip (s : String) : String :=
  String.ofList ((s.toList.dropWhile isSpace).reverse.dropWhile isSpace).reverse

/-- `s.endswith(suffix)`. -/
def endsWith (s suffix : String) : Bool := suffix.toList.isSuffixOf s.toList

/-- `sub in s`. -/
def contains (s sub : String) : Bool := s.toList.tails.any sub.toList.isPrefixOf

/-- `s.replace(a, b)` for single characters. -/
def replaceChar (a b : Char) (s : String) : String :=
  String.ofList (s.toList.map fun c => if c = a then b else c)

/-- `c.lower()` as far as a comparison with ASCII text can tell. -/
def lowerChar (c : Char) : Char := if c = '\u212A' then 'k' else c.toLower

/-- `s.lower()` as far as a comparison with ASCII text can tell. -/
def lower (s : String) : List Char := s.toList.map lowerChar

/-- The folding of `re.IGNORECASE` against an ASCII pattern. -/
def foldChar (c : Char) : Char :=
  if c = '\u017F' then 's'
  else if c = '\u0130' ∨ c = '\u0131' then 'i'
  else lowerChar c

/-- The capitals of `c` in `s.upper()`, as far as a comparison with ASCII text can tell. -/
def upperChar (c : Char) : List Char :=
  if c = '\u00DF' then ['S', 'S']
  else if c = '\u0131' then ['I']
  else if c = '\u017F' then ['S']
  else if c = '\uFB00' then ['F', 'F']
  else if c = '\uFB01' then ['F', 'I']
  else if c = '\uFB02' then ['F', 'L']
  else if c = '\uFB03' then ['F', 'F', 'I']
  else if c = '\uFB04' then ['F', 'F', 'L']
  else if c = '\uFB05' ∨ c = '\uFB06' then ['S', 'T']
  else [c.toUpper]

/-- `s.upper()` as far as a comparison with ASCII text can tell. -/
def upper (s : String) : List Char := s.toList.flatMap upperChar

/-- `re.search(pat, s, re.IGNORECASE)` for a pattern without metacharacters, given in lower
case. -/
def searchIgnoreCase (pat : String) (s : String) : Bool :=
  (s.toList.map foldChar).tails.any pat.toList.isPrefixOf

/-- `re.fullmatch(r"[0-9a-f]{n}", s)`. -/
def isHex (n : Nat) (s : String) : Bool :=
  s.toList.length == n &&
    s.toList.all fun c => ('0' ≤ c && c ≤ '9') || ('a' ≤ c && c ≤ 'f')

end Python
