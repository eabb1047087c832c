import SkCoord.Lifecycle.Patterns
import SkCoord.Python.Deletion

/-!
# The vocabulary of evidence keys

`schemas/evidence_vocab.py`: `normalize` folds the spellings of a key, and `canonical` is the core key
that it stands for.
-/

namespace SkCoord

open Python

namespace EvidenceVocab

/-! ### Normal forms -/

/-- The text behind `(_\d+)*`, with fuel for its length. -/
def afterNumbers (u : CharTables) : ℕ → List Char → List Char
  | n + 1, '_' :: l =>
    let digits := l.takeWhile u.isDecimal
    if digits = [] then '_' :: l else afterNumbers u n (l.drop digits.length)
  | _, l => l

/-- The text behind `_v\d+(_\d+)*`. -/
def afterVersion (u : CharTables) : Deletion.Pattern Char
  | '_' :: 'v' :: l =>
    let digits := l.takeWhile u.isDecimal
    if digits = [] then none else some (afterNumbers u l.length (l.drop digits.length))
  | _ => none

/-- `re.sub(r"_v\d+(_\d+)*", "", s)`. -/
def dropVersions (u : CharTables) (l : List Char) : List Char :=
  Deletion.deleteAll (afterVersion u) l.length l

/-- The text behind the first two deletions of `normalize`. -/
def undated (u : CharTables) (key : String) : List Char :=
  let k := (replaceChar '-' '_' (u.lower (strip key))).toList
  dropHash (dropDates u k.length k)

/-- `normalize`. -/
def normalize (u : CharTables) (key : String) : String :=
  String.ofList (stripUnderscores (joinUnderscores (dropVersions u (undated u key))))

/-! ### Core keys -/

/-- The keys of `CORE`. -/
def core : List String :=
  ["verdict", "disposition", "review_decision", "result", "blocker", "blocked_by", "limitations",
    "evidence", "evidence_sha256", "evidence_commit", "evidence_tree", "manifest_sha256",
    "candidate", "candidate_commit", "candidate_tree", "commit", "tree", "merge_commit", "pr",
    "files", "hashes", "superseded_by", "supersedes", "predecessor", "successor", "replacement",
    "followup_card", "tests", "tdd", "verification", "acceptance", "independent_review", "ci",
    "rollback", "safe_state", "scope", "execution_boundary", "prohibited_actions",
    "human_approval", "review", "review_commit", "review_tree", "review_evidence",
    "qualification", "gate_status", "source_commit", "source_tree", "manifest", "release",
    "publish", "doc", "tag", "repair", "worktree", "cwd", "pane", "runtime", "route",
    "startup_log", "merge", "architecture_evidence"]

/-- A pattern of `_ALIAS_RULES`, with the words that its optional parts leave. -/
inductive AliasPattern where
  /-- `^(w|…)(_|$)`. -/
  | starts (words : List String)
  /-- `^(w|…)$`. -/
  | exact (words : List String)
  /-- `(^|_)(w|…)(_|$)`. -/
  | within (words : List String)

/-- `(_|$)`. -/
def endsWord (rest : List Char) : Bool := atEnd rest || rest.head? == some '_'

/-- A word at the beginning, with a condition on what is behind it. -/
def wordThen (test : List Char → Bool) (word : String) (l : List Char) : Bool :=
  word.toList.isPrefixOf l && test (l.drop word.toList.length)

/-- `rx.search(n)`. -/
def AliasPattern.search (n : String) : AliasPattern → Bool
  | starts words => words.any fun w => wordThen endsWord w n.toList
  | exact words => words.any fun w => wordThen atEnd w n.toList
  | within words => words.any fun w => (startsBehind ['_'] n.toList).any (wordThen endsWord w)

open AliasPattern in
/-- `_ALIAS_RULES`. -/
def aliasRules : List (AliasPattern × String) :=
  [(starts ["superseded", "superseding"], "superseded_by"),
    (starts ["supersedes"], "supersedes"),
    (within ["review_verdict", "verdict"], "verdict"),
    (starts ["review_decision", "review_disposition"], "review_decision"),
    (starts ["disposition"], "disposition"),
    (exact ["evidence_sha256", "evidence_hash"], "evidence_sha256"),
    (exact ["evidence", "evidence_doc", "evidence_path", "evidence_file"], "evidence"),
    (exact ["evidence_commit", "evidence_sha"], "evidence_commit"),
    (exact ["candidate_commit"], "candidate_commit"),
    (exact ["candidate_tree"], "candidate_tree"),
    (starts ["candidate"], "candidate"),
    (exact ["merge_commit"], "merge_commit"),
    (exact ["exact_base_commit", "exact_basecommit", "base_commit", "basecommit", "commit"],
      "commit"),
    (exact ["tree", "base_tree"], "tree"),
    (exact ["manifest_sha256", "manifest_hash"], "manifest_sha256"),
    (starts ["blocked_by"], "blocked_by"),
    (starts ["blocker", "blockers"], "blocker"),
    (starts ["predecessor"], "predecessor"),
    (starts ["successor"], "successor"),
    (starts ["replacement", "replaces"], "replacement"),
    (exact ["followup_card", "follow_up_card"], "followup_card"),
    (starts ["test", "tests"], "tests"),
    (starts ["tdd"], "tdd"),
    (starts ["independent_review", "independent_rereview"], "independent_review"),
    (starts ["rollback"], "rollback"),
    (starts ["limitation", "limitations"], "limitations"),
    (starts ["safe_state"], "safe_state"),
    (starts ["acceptance"], "acceptance"),
    (starts ["verification"], "verification"),
    (starts ["scope"], "scope"),
    (starts ["execution_boundary"], "execution_boundary"),
    (starts ["result"], "result"),
    (starts ["pr"], "pr"),
    (starts ["ci"], "ci"),
    (starts ["human_approval", "approval", "approved_by"], "human_approval"),
    (exact ["review_commit"], "review_commit"),
    (exact ["review_tree"], "review_tree"),
    (starts ["review_evidence", "review_bundle"], "review_evidence"),
    (starts ["review"], "review"),
    (starts ["qualification"], "qualification"),
    (starts ["gate_status", "gate"], "gate_status"),
    (exact ["source_commit"], "source_commit"),
    (exact ["source_tree"], "source_tree"),
    (starts ["manifest"], "manifest"),
    (starts ["release"], "release"),
    (starts ["publish", "publication"], "publish"),
    (starts ["doc", "docs", "documentation"], "doc"),
    (starts ["tag", "tags"], "tag"),
    (starts ["repair"], "repair"),
    (starts ["worktree"], "worktree"),
    (starts ["cwd"], "cwd"),
    (starts ["pane"], "pane"),
    (starts ["runtime"], "runtime"),
    (starts ["route"], "route"),
    (starts ["startup_log"], "startup_log"),
    (starts ["merge"], "merge"),
    (starts ["architecture_evidence"], "architecture_evidence"),
    (starts ["prohibited_action", "prohibited_actions"], "prohibited_actions"),
    (within ["blocker", "blockers"], "blocker"),
    (starts ["focused_test", "focused_tests"], "tests")]

/-- `[a-z0-9]`. -/
def isIdLetter (c : Char) : Bool := ('a' ≤ c && c ≤ 'z') || ('0' ≤ c && c ≤ '9')

/-- `[a-z0-9_.-]`. -/
def isEscapeChar (c : Char) : Bool := isIdLetter c || c == '_' || c == '.' || c == '-'

/-- `ESCAPE.match(raw)`. -/
def escapeRe (raw : String) : Bool :=
  match raw.toList with
  | 'x' :: '-' :: c :: l =>
    let parts := l.takeWhile isEscapeChar
    isIdLetter c && atEnd (l.dropWhile isEscapeChar) && parts.tails.any fun
      | '-' :: c :: _ => isIdLetter c
      | _ => false
  | _ => false

/-- The second value of `canonical`. -/
inductive KeyStatus where
  | core
  | aliased
  | escape
  | unknown
  deriving DecidableEq, Repr

/-- The first rule that matches a normal form. -/
def aliasOf (n : String) : Option String :=
  (aliasRules.find? fun rule => rule.1.search n).map Prod.snd

/-- `canonical`. -/
def canonical (u : CharTables) (key : String) : String × KeyStatus :=
  let raw := strip key
  if escapeRe raw then (raw, .escape)
  else
    let n := normalize u raw
    if n ∈ core then (n, if raw = n then .core else .aliased)
    else match aliasOf n with
      | some target => (target, .aliased)
      | none => (n, .unknown)

example : canonical asciiTables "Review-Verdict-20260826T021646Z" = ("verdict", .aliased) := by
  decide +kernel

end EvidenceVocab

end SkCoord
