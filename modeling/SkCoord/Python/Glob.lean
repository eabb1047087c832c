import Mathlib.Data.List.Infix

/-!
# Paths and patterns

`pathParts` are the parts of a path, and `fnmatch` the match of one name with one part of a pattern:
`*`, `?`, sets of characters in brackets, and characters that stand for themselves.
`fnmatch_star`: a pattern with one star between plain texts matches what begins and ends with them.
-/

namespace Python

/-- `Path(s).parts`. -/
def pathParts (s : String) : List String :=
  let slashes := (s.toList.takeWhile (· = '/')).length
  (if slashes = 0 then [] else if slashes = 2 then ["//"] else ["/"]) ++
    ((s.toList.splitOn '/').map String.ofList).filter fun part => part ≠ "" ∧ part ≠ "."

/-- `Path(s).is_absolute()`. -/
def isAbsolutePath (s : String) : Bool := s.toList.head? == some '/'

/-- `"/".join(parts)`. -/
def joinSlash (parts : List String) : String :=
  String.ofList (['/'].intercalate (parts.map String.toList))

/-- `str(Path(s))`, of the parts of a path. -/
def pathStr : List String → String
  | [] => "."
  | part :: parts =>
    if part = "/" ∨ part = "//" then part ++ joinSlash parts else joinSlash (part :: parts)

/-- `Path(s).parents`, of the parts of a path. -/
def pathParents (parts : List String) : List (List String) :=
  if parts = [] then [] else parts.dropLast.inits

/-- A name without a slash is its only part. -/
theorem pathParts_of_name {s : String} (hslash : '/' ∉ s.toList) (hne : s ≠ "") (hdot : s ≠ ".") :
    pathParts s = [s] := by
  have hnone : s.toList.takeWhile (· = '/') = [] := by
    cases h : s.toList with
    | nil => rfl
    | cons c l =>
      have hc : c ≠ '/' := fun heq => hslash (h ▸ heq ▸ List.mem_cons_self)
      rw [List.takeWhile_cons, if_neg (by simpa using hc)]
  have hsplit : s.toList.splitOn '/' = [s.toList] :=
    List.splitOnP_eq_singleton fun c hc => beq_eq_false_iff_ne.mpr fun heq => hslash (heq ▸ hc)
  have hkeep : decide (s ≠ "" ∧ s ≠ ".") = true := decide_eq_true ⟨hne, hdot⟩
  rw [pathParts, hnone, hsplit, List.map_singleton, String.ofList_toList, List.filter_cons,
    if_pos hkeep]
  rfl

theorem pathParts_of_relative {s : String} (h : isAbsolutePath s = false) :
    pathParts s = ((s.toList.splitOn '/').map String.ofList).filter
      fun part => part ≠ "" ∧ part ≠ "." := by
  have hnone : s.toList.takeWhile (· = '/') = [] := by
    unfold isAbsolutePath at h
    cases hs : s.toList with
    | nil => rfl
    | cons c l =>
      rw [hs] at h
      have hc : c ≠ '/' := fun heq => absurd h (by simp [heq])
      rw [List.takeWhile_cons, if_neg (by simpa using hc)]
  rw [pathParts, hnone]
  rfl

/-! ### Paths below another one -/

/-- The path `w` lies under `v`. -/
def LiesUnder (w v : String) : Prop := v.toList ++ ['/'] <+: w.toList

/-- What lies under a path has its parts, and more. -/
theorem pathParts_of_liesUnder {v w : String} (hv : isAbsolutePath v = false)
    (hw : isAbsolutePath w = false) (h : LiesUnder w v) :
    ∃ r, pathParts w = pathParts v ++ r := by
  obtain ⟨rest, hrest⟩ := h
  have hsplit : w.toList.splitOn '/' = v.toList.splitOn '/' ++ rest.splitOn '/' := by
    rw [← hrest, List.append_assoc]
    exact List.splitOn_append_cons_self _ _
  rw [pathParts_of_relative hv, pathParts_of_relative hw, hsplit, List.map_append,
    List.filter_append]
  exact ⟨_, rfl⟩

theorem toList_joinSlash_append {p r : List String} (hp : p ≠ []) (hr : r ≠ []) :
    (joinSlash (p ++ r)).toList = (joinSlash p).toList ++ ['/'] ++ (joinSlash r).toList := by
  simp only [joinSlash, String.toList_ofList, List.map_append]
  have hr' : r.map String.toList ≠ [] := by simpa using hr
  induction p with
  | nil => exact absurd rfl hp
  | cons part p ih =>
    cases p with
    | nil => rw [List.map_singleton, List.singleton_append, List.intercalate_cons_of_ne_nil hr',
        List.intercalate_singleton]
    | cons part' p =>
      have hne : (part' :: p).map String.toList ≠ [] := by simp
      rw [List.map_cons, List.cons_append, List.intercalate_cons_of_ne_nil (by simp),
        ih (List.cons_ne_nil _ _), List.intercalate_cons_of_ne_nil hne]
      simp only [List.append_assoc]

/-- A relative path that is written as `str` writes it. -/
structure IsLiteral (s : String) : Prop where
  relative : isAbsolutePath s = false
  written : pathStr (pathParts s) = s
  ne_dot : s ≠ "."

theorem IsLiteral.parts {s : String} (h : IsLiteral s) :
    pathParts s ≠ [] ∧ joinSlash (pathParts s) = s := by
  have hwritten := h.written
  cases hparts : pathParts s with
  | nil =>
    rw [hparts] at hwritten
    exact absurd hwritten.symm h.ne_dot
  | cons part parts =>
    rw [hparts] at hwritten
    -- a part with a slash would be a root
    have hroot : ¬(part = "/" ∨ part = "//") := by
      intro hroot
      have hhead : s.toList.head? = some '/' := by
        rw [← hwritten, pathStr, if_pos hroot]
        rcases hroot with rfl | rfl <;> simp
      have hrelative := h.relative
      rw [isAbsolutePath, hhead] at hrelative
      cases hrelative
    rw [pathStr, if_neg hroot] at hwritten
    exact ⟨List.cons_ne_nil _ _, hwritten⟩

/-- `a in b.parents`, for literal paths: the text of `a` with a slash begins that of `b`. -/
theorem mem_pathParents_iff {v w : String} (hv : IsLiteral v) (hw : IsLiteral w) :
    pathParts v ∈ pathParents (pathParts w) ↔ LiesUnder w v ∧ pathParts v ≠ pathParts w := by
  obtain ⟨hvne, hvjoin⟩ := hv.parts
  obtain ⟨hwne, hwjoin⟩ := hw.parts
  rw [pathParents, if_neg hwne, List.mem_inits]
  constructor
  · rintro ⟨r, hr⟩
    have hlast := List.dropLast_append_getLast hwne
    generalize (pathParts w).getLast hwne = last at hlast
    rw [← hr, List.append_assoc] at hlast
    refine ⟨⟨(joinSlash (r ++ [last])).toList, ?_⟩, fun heq => ?_⟩
    · rw [← hwjoin, ← hlast, toList_joinSlash_append hvne (by simp), hvjoin]
    · rw [heq] at hlast
      have hlength := congrArg List.length hlast
      simp at hlength
  · rintro ⟨hunder, hne⟩
    obtain ⟨r, hr⟩ := pathParts_of_liesUnder hv.relative hw.relative hunder
    have hrne : r ≠ [] := by
      rintro rfl
      rw [List.append_nil] at hr
      exact hne hr.symm
    rw [hr, List.dropLast_append_of_ne_nil hrne]
    exact List.prefix_append _ _

/-! ### Patterns -/

/-- A piece of a pattern. -/
inductive GlobPiece where
  | star
  | any
  | set (negated : Bool) (ranges : List (Char × Char))
  | lit (c : Char)
  deriving DecidableEq, Repr

/-- A piece that takes one character takes this one. -/
def GlobPiece.takes (c : Char) : GlobPiece → Bool
  | star => false
  | any => true
  | set negated ranges => negated != ranges.any fun r => r.1 ≤ c && c ≤ r.2
  | lit d => d == c

/-- The ranges between the brackets of a set; a range whose ends are in the wrong order is empty. -/
def charRanges : List Char → List (Char × Char)
  | a :: '-' :: b :: l => (a, b) :: charRanges l
  | a :: l => (a, a) :: charRanges l
  | [] => []

/-- A set and what stands behind its closing bracket; a bracket that comes first is a member. -/
def splitSet (l : List Char) : Option (GlobPiece × List Char) :=
  let negated := l.head? == some '!'
  let l := if negated then l.tail else l
  let first := if l.head? = some ']' then [']'] else []
  let rest := l.drop first.length
  match rest.dropWhile (· ≠ ']') with
  | [] => none
  | _ :: behind => some (.set negated (charRanges (first ++ rest.takeWhile (· ≠ ']'))), behind)

/-- The pieces of a pattern; the number bounds its length. -/
def globPieces : ℕ → List Char → List GlobPiece
  | 0, _ => []
  | _ + 1, [] => []
  | n + 1, '*' :: l => .star :: globPieces n l
  | n + 1, '?' :: l => .any :: globPieces n l
  | n + 1, '[' :: l =>
    match splitSet l with
    | some (piece, behind) => piece :: globPieces n behind
    | none => .lit '[' :: globPieces n l
  | n + 1, c :: l => .lit c :: globPieces n l

/-- The pieces match a text. -/
def globMatches : List GlobPiece → List Char → Bool
  | [], l => l.isEmpty
  | .star :: pieces, l => l.tails.any (globMatches pieces)
  | piece :: pieces, c :: l => piece.takes c && globMatches pieces l
  | _ :: _, [] => false

/-- `fnmatch.fnmatchcase(name, pattern)`. -/
def fnmatch (name pattern : String) : Bool :=
  globMatches (globPieces pattern.toList.length pattern.toList) name.toList

/-! ### Plain texts -/

/-- A text without the characters of patterns. -/
def IsPlain (l : List Char) : Prop := ∀ c ∈ l, c ≠ '*' ∧ c ≠ '?' ∧ c ≠ '['

instance (l : List Char) : Decidable (IsPlain l) := List.decidableBAll _ l

theorem globPieces_append {l m : List Char} (hl : IsPlain l) : ∀ n,
    globPieces (l.length + n) (l ++ m) = l.map .lit ++ globPieces n m := by
  induction l with
  | nil =>
    intro n
    rw [List.length_nil, Nat.zero_add]
    rfl
  | cons c l ih =>
    intro n
    obtain ⟨hstar, hany, hset⟩ := hl c List.mem_cons_self
    have hlength : (c :: l).length + n = (l.length + n) + 1 := by
      rw [List.length_cons]
      omega
    rw [hlength, List.cons_append, globPieces, ih (fun d hd => hl d (List.mem_cons_of_mem _ hd))]
    · rfl
    · exact hstar
    · exact hany
    · exact hset

theorem globMatches_lits (pieces : List GlobPiece) : ∀ l m : List Char,
    globMatches (l.map .lit ++ pieces) m = true ↔
      ∃ m', m = l ++ m' ∧ globMatches pieces m' = true
  | [], m => ⟨fun h => ⟨m, rfl, h⟩, fun ⟨_, hm, h⟩ => hm ▸ h⟩
  | c :: l, [] => ⟨fun h => Bool.noConfusion h, fun ⟨_, hm, _⟩ => nomatch hm⟩
  | c :: l, d :: m => by
    show (GlobPiece.takes d (.lit c) && globMatches (l.map .lit ++ pieces) m) = true ↔ _
    rw [Bool.and_eq_true, GlobPiece.takes, beq_iff_eq, globMatches_lits pieces l m]
    constructor
    · rintro ⟨rfl, m', rfl, h⟩
      exact ⟨m', rfl, h⟩
    · rintro ⟨m', hm, h⟩
      obtain ⟨rfl, rfl⟩ := List.cons.inj hm
      exact ⟨rfl, m', rfl, h⟩

theorem globMatches_star (pieces : List GlobPiece) (m : List Char) :
    globMatches (.star :: pieces) m = true ↔ ∃ l m', m = l ++ m' ∧ globMatches pieces m' = true := by
  rw [globMatches, List.any_eq_true]
  constructor
  · rintro ⟨m', hm', h⟩
    obtain ⟨l, rfl⟩ := (List.mem_tails _ _).mp hm'
    exact ⟨l, m', rfl, h⟩
  · rintro ⟨l, m', rfl, h⟩
    exact ⟨m', (List.mem_tails _ _).mpr (List.suffix_append _ _), h⟩

/-- **One star** between plain texts. -/
theorem fnmatch_star {name before behind : String} (hbefore : IsPlain before.toList)
    (hbehind : IsPlain behind.toList) :
    fnmatch name (before ++ "*" ++ behind) = true ↔
      ∃ middle : List Char, name.toList = before.toList ++ middle ++ behind.toList := by
  have htext : (before ++ "*" ++ behind).toList = before.toList ++ ('*' :: behind.toList) := by
    rw [String.toList_append, String.toList_append, List.append_assoc]
    rfl
  have hlength : (before.toList ++ ('*' :: behind.toList)).length =
      before.toList.length + (behind.toList.length + 1) := by
    rw [List.length_append, List.length_cons]
  have hpieces := globPieces_append (m := []) hbehind 0
  rw [List.append_nil, Nat.add_zero] at hpieces
  rw [fnmatch, htext, hlength, globPieces_append hbefore, globPieces, hpieces, globMatches_lits]
  constructor
  · rintro ⟨m, hname, h⟩
    obtain ⟨middle, m', rfl, hrest⟩ := (globMatches_star _ _).mp h
    obtain ⟨m'', rfl, hend⟩ := (globMatches_lits _ _ _).mp hrest
    rw [globPieces, globMatches, List.isEmpty_iff] at hend
    refine ⟨middle, ?_⟩
    rw [hname, hend, List.append_nil, List.append_assoc]
  · rintro ⟨middle, hname⟩
    refine ⟨middle ++ behind.toList, by rw [hname, List.append_assoc], ?_⟩
    refine (globMatches_star _ _).mpr ⟨middle, _, rfl, ?_⟩
    exact (globMatches_lits _ _ _).mpr ⟨[], (List.append_nil _).symm, rfl⟩

example : fnmatch "chg-1-bob.json" "chg-?-[!a-]*.json" = true := by decide

end Python
