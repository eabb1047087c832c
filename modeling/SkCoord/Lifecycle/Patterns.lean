import SkCoord.Coordination.Task

/-!
# Text patterns of the reassessment

The regular expressions that sort owners, verdicts, evidence keys and descriptions, each as the
predicate or the rewriting that its use makes of it.
-/

namespace SkCoord

open Python

/-- `$`: the end of a text, or the newline that ends it. -/
def atEnd (l : List Char) : Bool := l == [] || l == ['\n']

/-- The text behind a word that is given in lower case, under `re.IGNORECASE`. -/
def afterWord (word : String) (l : List Char) : Option (List Char) :=
  if word.toList.isPrefixOf (l.map foldChar) then some (l.drop word.toList.length) else none

/-- The places behind `^` or one of some separators. -/
def startsBehind (separators : List Char) (l : List Char) : List (List Char) :=
  l :: l.tails.filterMap fun
    | c :: r => if c ∈ separators then some r else none
    | [] => none

/-- `[0-9a-f]`. -/
def isHexChar (c : Char) : Bool := ('0' ≤ c && c ≤ '9') || ('a' ≤ c && c ≤ 'f')

/-! ### Owners and verdicts -/

/-- `_BLOCKED_RE.match(s)`. -/
def blockedRe (u : CharTables) (s : String) : Bool :=
  (afterWord "blocked" s.toList).any fun
    | [] => true
    | c :: _ => c == '_' || !u.isWord c

/-- `_EPHEMERAL_OWNER_RE.match(s)`. -/
def ephemeralOwnerRe (s : String) : Bool :=
  ["pi", "codex"].any fun word => (afterWord word s.toList).any fun
    | [] => false
    | c :: _ => c == '-' || c == '_'

/-- `_OUTCOME_KEY_RE.search(s)`. -/
def outcomeKeyRe (s : String) : Bool :=
  ["verdict", "result", "disposition", "review_decision"].any fun word =>
    (startsBehind ['_'] s.toList).any fun l =>
      word.toList.isPrefixOf l &&
        let rest := l.drop word.toList.length
        atEnd rest || rest.head? == some '_'

/-! ### Keys of evidence -/

/-- Up to `n` of the characters in front go. -/
def dropUpTo (p : Char → Bool) : ℕ → List Char → List Char
  | 0, l => l
  | _ + 1, [] => []
  | n + 1, c :: l => if p c then dropUpTo p n l else c :: l

/-- The text behind `20\d{6}t?\d{0,6}z?`. -/
def afterDate (u : CharTables) : List Char → Option (List Char)
  | '2' :: '0' :: l =>
    if (l.take 6).length = 6 ∧ (l.take 6).all u.isDecimal then
      let l := dropUpTo (· == 't') 1 (l.drop 6)
      some (dropUpTo (· == 'z') 1 (dropUpTo u.isDecimal 6 l))
    else none
  | _ => none

/-- `re.sub(r"_?20\d{6}t?\d{0,6}z?", "", s)`, with fuel for the length of the text. -/
def dropDates (u : CharTables) : ℕ → List Char → List Char
  | 0, l => l
  | _ + 1, [] => []
  | n + 1, c :: l =>
    match (if c = '_' then afterDate u l else none).orElse fun _ => afterDate u (c :: l) with
    | some rest => dropDates u n rest
    | none => c :: dropDates u n l

/-- `re.sub(r"_[0-9a-f]{8,64}$", "", s)`. -/
def dropHash : List Char → List Char
  | [] => []
  | c :: l =>
    let hex := l.takeWhile isHexChar
    let rest := l.drop hex.length
    if c = '_' ∧ 8 ≤ hex.length ∧ hex.length ≤ 64 ∧ atEnd rest = true then rest
    else c :: dropHash l

/-- `re.sub(r"__+", "_", s)`. -/
def joinUnderscores : List Char → List Char
  | '_' :: '_' :: l => joinUnderscores ('_' :: l)
  | c :: l => c :: joinUnderscores l
  | [] => []

/-- `s.strip("_")`. -/
def stripUnderscores (l : List Char) : List Char :=
  ((l.dropWhile (· == '_')).reverse.dropWhile (· == '_')).reverse

/-- `_fold_key` of the text of a key. -/
def foldKey (u : CharTables) (key : String) : String :=
  let k := (replaceChar '-' '_' (u.lower (strip key))).toList
  String.ofList (stripUnderscores (joinUnderscores (dropHash (dropDates u k.length k))))

example : foldKey asciiTables "Runtime-Verdict-20260827T1200Z" = "runtime_verdict" := by
  decide +kernel

/-! ### Cards that descriptions name -/

/-- `[a-z0-9-]` under `re.IGNORECASE`. -/
def isIdChar (c : Char) : Bool :=
  ('a' ≤ foldChar c && foldChar c ≤ 'z') || ('0' ≤ c && c ≤ '9') || c == '-'

/-- `\s+([a-z0-9-]+)`: the group and the text behind it. -/
def idBehindBlanks (l : List Char) : Option (List Char × List Char) :=
  let rest := l.dropWhile isSpace
  let id := rest.takeWhile isIdChar
  if rest.length = l.length ∨ id = [] then none else some (id, rest.dropWhile isIdChar)

/-- `supersedes(?:\s+card)?\s+([a-z0-9-]+)`. -/
def supersedesAt (l : List Char) : Option (List Char × List Char) :=
  (afterWord "supersedes" l).bind fun l =>
    let rest := l.dropWhile isSpace
    let card := if rest.length = l.length then none
      else (afterWord "card" rest).bind idBehindBlanks
    card.orElse fun _ => idBehindBlanks l

/-- The groups of `_SUPERSEDES_RE.finditer(s)`, with fuel for the length of the text; `inWord` says
that the character before is one of a word. -/
def supersedesRe (u : CharTables) : ℕ → Bool → List Char → List String
  | 0, _, _ => []
  | _ + 1, _, [] => []
  | n + 1, inWord, c :: l =>
    match if inWord then none else supersedesAt (c :: l) with
    | some (id, rest) =>
      String.ofList id :: supersedesRe u n ((id.getLast?.map u.isWord).getD false) rest
    | none => supersedesRe u n (u.isWord c) l

example : supersedesRe asciiTables 60 false "Supersedes card c91a7504, not card".toList =
    ["c91a7504"] := by
  decide +kernel

/-- `_VOLATILE_CI_RE.search(s)`. -/
def volatileCiRe (u : CharTables) (s : String) : Bool :=
  (startsBehind ['-', '_'] s.toList).any fun l =>
    decide (2 ≤ (l.takeWhile u.isDecimal).length) &&
      match l.dropWhile u.isDecimal with
      | [] => true
      | c :: rest => atEnd (c :: rest) || (c == '-' || c == '_') &&
          decide (6 ≤ (rest.takeWhile isHexChar).length) && atEnd (rest.dropWhile isHexChar)

end SkCoord
