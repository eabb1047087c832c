import SkCoord.Lifecycle.EvidenceVocab
import Mathlib.Data.List.Chain

/-!
# The folding of evidence keys

`_fold_key` has no rule for versions, so it folds a key as `normalize` does exactly when the key has
none.  `normalize` deletes dates, a hash and versions once each, and what is left may have more of
them: the canonical key of an unknown key is its own one exactly when it has not
(`evidence_keys_iff`).
-/

namespace SkCoord.EvidenceVocab

open Python Deletion

variable {u : CharTables} {l rest : List Char} {c : Char} {key n : String}

/-! ### The deletions -/

theorem dropUpTo_suffix (p : Char → Bool) : ∀ (n : ℕ) (l : List Char), dropUpTo p n l <:+ l
  | 0, l => List.suffix_refl l
  | _ + 1, [] => List.suffix_refl []
  | n + 1, c :: l => by
    unfold dropUpTo
    split
    · exact (dropUpTo_suffix p n l).trans (List.suffix_cons c l)
    · exact List.suffix_refl _

theorem afterDate_spec (h : afterDate u l = some rest) :
    rest <:+ l ∧ rest.length < l.length ∧ ∃ r, l = '2' :: '0' :: r := by
  unfold afterDate at h
  split at h
  · rename_i r
    split at h
    · have hsuffix : rest <:+ r := by
        rw [← Option.some.inj h]
        exact (dropUpTo_suffix _ _ _).trans ((dropUpTo_suffix _ _ _).trans
          ((dropUpTo_suffix _ _ _).trans (List.drop_suffix 6 r)))
      refine ⟨hsuffix.trans ⟨['2', '0'], rfl⟩, ?_, r, rfl⟩
      have hlen := hsuffix.length_le
      rw [List.length_cons, List.length_cons]
      omega
    · cases h
  · cases h

/-- `_?20\\d{6}t?\\d{0,6}z?`. -/
def dateAt (u : CharTables) : Pattern Char
  | [] => none
  | c :: l => (if c = '_' then afterDate u l else none).orElse fun _ => afterDate u (c :: l)

theorem dropDates_eq (u : CharTables) : ∀ (n : ℕ) (l : List Char),
    dropDates u n l = deleteAll (dateAt u) n l
  | 0, _ => rfl
  | _ + 1, [] => rfl
  | n + 1, c :: l => by
    have hmatch : dateAt u (c :: l) =
        (if c = '_' then afterDate u l else none).orElse fun _ => afterDate u (c :: l) := rfl
    unfold dropDates deleteAll
    rw [hmatch]
    cases (if c = '_' then afterDate u l else none).orElse fun _ => afterDate u (c :: l) with
    | some rest => exact dropDates_eq u n rest
    | none => exact congrArg (c :: ·) (dropDates_eq u n l)

/-- A date has the digits of a year. -/
theorem dateAt_spec (h : dateAt u l = some rest) :
    rest <:+ l ∧ rest.length < l.length ∧ ∃ r, ('2' :: '0' :: r) <:+ l := by
  cases l with
  | nil => cases h
  | cons c l =>
    have hcases : afterDate u l = some rest ∨ afterDate u (c :: l) = some rest := by
      have hmatch : dateAt u (c :: l) =
          (if c = '_' then afterDate u l else none).orElse fun _ => afterDate u (c :: l) := rfl
      rw [hmatch] at h
      cases hif : (if c = '_' then afterDate u l else none) with
      | some r =>
        rw [hif] at h
        split at hif
        · exact .inl (hif.trans h)
        · cases hif
      | none =>
        rw [hif] at h
        exact .inr h
    rcases hcases with h | h
    · obtain ⟨hsuffix, hlen, r, hr⟩ := afterDate_spec h
      exact ⟨hsuffix.trans (List.suffix_cons c l), hlen.trans (Nat.lt_succ_self _), r,
        hr ▸ List.suffix_cons c l⟩
    · obtain ⟨hsuffix, hlen, r, hr⟩ := afterDate_spec h
      exact ⟨hsuffix, hlen, r, hr ▸ List.suffix_refl _⟩

theorem shrinks_dateAt (u : CharTables) : Shrinks (dateAt u) :=
  ⟨fun h => (dateAt_spec h).1, fun h => (dateAt_spec h).2.1⟩

/-- `_[0-9a-f]{8,64}$`. -/
def hashAt : Pattern Char
  | [] => none
  | c :: l =>
    let hex := l.takeWhile isHexChar
    let rest := l.drop hex.length
    if c = '_' ∧ 8 ≤ hex.length ∧ hex.length ≤ 64 ∧ atEnd rest = true then some rest else none

theorem hashAt_spec (h : hashAt l = some rest) :
    rest <:+ l ∧ rest.length < l.length ∧ atEnd rest = true := by
  cases l with
  | nil => cases h
  | cons c l =>
    unfold hashAt at h
    dsimp only at h
    split at h
    · rename_i hhash
      obtain ⟨-, -, -, hend⟩ := hhash
      cases h
      refine ⟨(List.drop_suffix _ _).trans (List.suffix_cons c l), ?_, hend⟩
      rw [List.length_drop, List.length_cons]
      omega
    · cases h

theorem shrinks_hashAt : Shrinks hashAt :=
  ⟨fun h => (hashAt_spec h).1, fun h => (hashAt_spec h).2.1⟩

/-- There is no hash in what is behind one. -/
theorem deleteAll_hashAt_of_atEnd (h : atEnd rest = true) (n : ℕ) :
    deleteAll hashAt n rest = rest := by
  have hcases : rest = [] ∨ rest = ['\n'] := by
    unfold atEnd at h
    simpa using h
  rcases hcases with rfl | rfl
  · exact deleteAll_nil n
  · cases n with
    | zero => rfl
    | succ n => exact congrArg ('\n' :: ·) (deleteAll_nil n)

theorem dropHash_eq : ∀ l : List Char, dropHash l = deleteAll hashAt l.length l
  | [] => rfl
  | c :: l => by
    unfold dropHash
    rw [List.length_cons]
    unfold deleteAll
    by_cases hhash : c = '_' ∧ 8 ≤ (l.takeWhile isHexChar).length ∧
        (l.takeWhile isHexChar).length ≤ 64 ∧
        atEnd (l.drop (l.takeWhile isHexChar).length) = true
    · have hmatch : hashAt (c :: l) = some (l.drop (l.takeWhile isHexChar).length) := if_pos hhash
      rw [hmatch]
      exact (if_pos hhash).trans (deleteAll_hashAt_of_atEnd hhash.2.2.2 _).symm
    · have hmatch : hashAt (c :: l) = none := if_neg hhash
      rw [hmatch]
      exact (if_neg hhash).trans (congrArg (c :: ·) (dropHash_eq l))

theorem afterNumbers_suffix (u : CharTables) : ∀ (n : ℕ) (l : List Char),
    afterNumbers u n l <:+ l
  | 0, l => by
    unfold afterNumbers
    exact List.suffix_refl l
  | n + 1, l => by
    unfold afterNumbers
    split
    · rename_i n' r hn
      dsimp only
      split
      · exact List.suffix_refl _
      · exact (afterNumbers_suffix u _ _).trans
          ((List.drop_suffix _ _).trans (List.suffix_cons '_' r))
    · exact List.suffix_refl _

theorem afterVersion_spec (h : afterVersion u l = some rest) :
    ∃ r, l = '_' :: 'v' :: r ∧ rest <:+ r := by
  unfold afterVersion at h
  split at h
  · rename_i r
    dsimp only at h
    split at h
    · cases h
    · cases h
      exact ⟨r, rfl, (afterNumbers_suffix u _ _).trans (List.drop_suffix _ _)⟩
  · cases h

theorem shrinks_afterVersion (u : CharTables) : Shrinks (afterVersion u) := by
  refine ⟨fun h => ?_, fun h => ?_⟩ <;> obtain ⟨r, rfl, hsuffix⟩ := afterVersion_spec h
  · exact hsuffix.trans ⟨['_', 'v'], rfl⟩
  · have hlen := hsuffix.length_le
    rw [List.length_cons, List.length_cons]
    omega

/-! ### The ends and the underscores -/

theorem stripUnderscores_eq (l : List Char) : stripUnderscores l = trim (· == '_') l := rfl

theorem toList_strip (s : String) : (strip s).toList = trim isSpace s.toList :=
  String.toList_ofList

theorem joinUnderscores_sublist (l : List Char) : (joinUnderscores l).Sublist l := by
  fun_induction joinUnderscores l with
  | case1 l ih => exact ih.cons '_'
  | case2 c l hne ih => exact ih.cons_cons c
  | case3 => exact List.Sublist.refl []

theorem count_joinUnderscores (hc : c ≠ '_') (l : List Char) :
    (joinUnderscores l).count c = l.count c := by
  fun_induction joinUnderscores l with
  | case1 l ih => rw [ih, List.count_cons_of_ne hc.symm, List.count_cons_of_ne hc.symm,
      List.count_cons_of_ne hc.symm]
  | case2 d l hne ih => rw [List.count_cons, List.count_cons, ih]
  | case3 => rfl

/-- No two underscores stand side by side. -/
def Joined (l : List Char) : Prop := l.IsChain fun a b => ¬(a = '_' ∧ b = '_')

/-- What is left between is joined as well. -/
theorem Joined.trimmed {p : Char → Bool} {l : List Char} (h : Joined l) : Joined (trim p l) := by
  obtain ⟨before, behind, hparts⟩ := @infix_trim _ p l
  unfold Joined at h ⊢
  rw [← hparts] at h
  exact h.left_of_append.right_of_append

theorem joined_joinUnderscores (l : List Char) : Joined (joinUnderscores l) := by
  unfold Joined
  fun_induction joinUnderscores l with
  | case1 l ih => exact ih
  | case2 c l hne ih =>
    refine List.isChain_cons.mpr ⟨fun b hb => ?_, ih⟩
    rintro ⟨rfl, rfl⟩
    -- the head of the rest is the head of what follows
    cases l with
    | nil => simp [joinUnderscores] at hb
    | cons d l =>
      have hd : d ≠ '_' := fun hd => hne l rfl (hd ▸ rfl)
      have hhead : (joinUnderscores (d :: l)).head? = some d := by
        unfold joinUnderscores
        split
        · rename_i heq
          exact absurd (List.cons.inj heq).1 hd
        · rename_i heq
          rw [(List.cons.inj heq).1]
          rfl
        · rename_i heq
          cases heq
      rw [hhead] at hb
      exact hd (Option.some.inj hb)
  | case3 => exact List.IsChain.nil

theorem joinUnderscores_of_joined (h : Joined l) : joinUnderscores l = l := by
  unfold Joined at h
  fun_induction joinUnderscores l with
  | case1 l ih => exact absurd ⟨rfl, rfl⟩ (List.isChain_cons_cons.mp h).1
  | case2 c l hne ih => rw [ih h.tail]
  | case3 => rfl

/-! ### Normal forms -/

/-- The text of a key in lower case, with underscores for its hyphens. -/
def lowered (u : CharTables) (key : String) : List Char :=
  (replaceChar '-' '_' (u.lower (strip key))).toList

theorem undated_eq (u : CharTables) (key : String) : undated u key =
    deleteAll hashAt (deleteAll (dateAt u) (lowered u key).length (lowered u key)).length
      (deleteAll (dateAt u) (lowered u key).length (lowered u key)) := by
  have hundated : undated u key = dropHash (dropDates u (lowered u key).length (lowered u key)) :=
    rfl
  rw [hundated, dropDates_eq, dropHash_eq]

theorem undated_sublist (u : CharTables) (key : String) :
    (undated u key).Sublist (lowered u key) := by
  rw [undated_eq]
  exact (deleteAll_sublist shrinks_hashAt _ _).trans (deleteAll_sublist (shrinks_dateAt u) _ _)

theorem toList_normalize (u : CharTables) (key : String) : (normalize u key).toList =
    stripUnderscores (joinUnderscores (dropVersions u (undated u key))) := String.toList_ofList

theorem normalize_sublist (u : CharTables) (key : String) :
    (normalize u key).toList.Sublist (undated u key) := by
  rw [toList_normalize, stripUnderscores_eq]
  exact (infix_trim _).sublist.trans ((joinUnderscores_sublist _).trans
    (deleteAll_sublist (shrinks_afterVersion u) _ _))

theorem count_stripUnderscores (hc : c ≠ '_') (l : List Char) :
    (stripUnderscores l).count c = l.count c :=
  count_trim (by rw [beq_eq_false_iff_ne]; exact hc) l

/-- **The two foldings agree** on the keys without a version. -/
theorem foldKey_eq_normalize_iff : foldKey u key = normalize u key ↔
    ¬Matches (afterVersion u) (undated u key) := by
  have hfold : foldKey u key =
      String.ofList (stripUnderscores (joinUnderscores (undated u key))) := rfl
  have hnorm : normalize u key = String.ofList (stripUnderscores (joinUnderscores
      (dropVersions u (undated u key)))) := rfl
  constructor
  · -- the `v` of a version is missing in the one text and not in the other
    intro h hmatches
    have hlt : (dropVersions u (undated u key)).count 'v' < (undated u key).count 'v' := by
      refine count_deleteAll_lt (shrinks_afterVersion u) (fun {l rest} h => ?_) le_rfl hmatches
      obtain ⟨r, rfl, hsuffix⟩ := afterVersion_spec h
      rw [List.count_cons_of_ne (by decide), List.count_cons_self]
      exact Nat.lt_succ_of_le (hsuffix.sublist.count_le 'v')
    rw [hfold, hnorm, String.ofList_inj] at h
    have hcount := congrArg (List.count 'v') h
    rw [count_stripUnderscores (by decide), count_stripUnderscores (by decide),
      count_joinUnderscores (by decide), count_joinUnderscores (by decide)] at hcount
    omega
  · intro hno
    have hsame : dropVersions u (undated u key) = undated u key :=
      deleteAll_of_not_matches _ hno
    rw [hfold, hnorm, hsame]

/-- The character is one of lower-case texts. -/
def Lowered (u : CharTables) (c : Char) : Prop :=
  u.lower (String.singleton c) = String.singleton c

/-- What `str.lower` does: its texts consist of characters that it leaves alone, as the small
letters, the digits and the underscore are, and a text of such characters is left alone. -/
structure LowersOnce (u : CharTables) : Prop where
  lowered : ∀ s, ∀ c ∈ (u.lower s).toList, Lowered u c
  keeps : ∀ s : String, (∀ c ∈ s.toList, Lowered u c) → u.lower s = s
  plain : ∀ c, isIdLetter c = true ∨ c = '_' → Lowered u c

/-- A text as `normalize` leaves it: lower-case, with single underscores for hyphens and none at
either end. -/
structure IsFolded (u : CharTables) (l : List Char) : Prop where
  lowered : ∀ c ∈ l, Lowered u c
  hyphen : '-' ∉ l
  joined : Joined l
  stripped : stripUnderscores l = l

/-- **Normal forms** are in lower case, without hyphens, and with single underscores between the
words. -/
theorem isFolded_normalize (hu : LowersOnce u) (key : String) :
    IsFolded u (normalize u key).toList := by
  have hsub := (normalize_sublist u key).trans (undated_sublist u key)
  have hmem : ∀ c ∈ (normalize u key).toList, c = '_' ∨ c ≠ '-' ∧
      c ∈ (u.lower (strip key)).toList := by
    intro c hc
    have hc' := hsub.subset hc
    unfold lowered replaceChar at hc'
    rw [String.toList_ofList] at hc'
    obtain ⟨d, hd, hdc⟩ := List.mem_map.mp hc'
    split at hdc
    · exact .inl hdc.symm
    · rename_i hne
      rw [← hdc]
      exact .inr ⟨hne, hd⟩
  refine ⟨fun c hc => ?_, fun hc => ?_, ?_, ?_⟩
  · rcases hmem c hc with rfl | ⟨-, hlower⟩
    · exact hu.plain '_' (.inr rfl)
    · exact hu.lowered _ c hlower
  · rcases hmem _ hc with hc | ⟨hne, -⟩
    · exact absurd hc (by decide)
    · exact hne rfl
  · rw [toList_normalize, stripUnderscores_eq]
    exact (joined_joinUnderscores _).trimmed
  · rw [toList_normalize, stripUnderscores_eq, stripUnderscores_eq, trim_trim]

/-- A text in which `normalize` finds nothing more to delete. -/
structure IsPlain (u : CharTables) (l : List Char) : Prop where
  blanks : trim isSpace l = l
  date : ¬Matches (dateAt u) l
  hash : ¬Matches hashAt l
  version : ¬Matches (afterVersion u) l

/-- The text of a folded key is in lower case already. -/
theorem lowered_of_isFolded (hu : LowersOnce u) (h : IsFolded u n.toList) :
    lowered u n = trim isSpace n.toList := by
  have hmem : ∀ c ∈ (strip n).toList, c ∈ n.toList := by
    intro c hc
    rw [toList_strip] at hc
    exact (infix_trim _).subset hc
  have hkeep : u.lower (strip n) = strip n := hu.keeps _ fun c hc => h.lowered c (hmem c hc)
  unfold lowered replaceChar
  rw [hkeep, String.toList_ofList, ← toList_strip]
  conv_rhs => rw [← List.map_id (strip n).toList]
  refine List.map_congr_left fun c hc => if_neg ?_
  rintro rfl
  exact h.hyphen (hmem _ hc)

/-- **A folded key is its own normal form** exactly when there is nothing more to delete in it. -/
theorem normalize_eq_self_iff (hu : LowersOnce u) (h : IsFolded u n.toList) :
    normalize u n = n ↔ IsPlain u n.toList := by
  have hlowered := lowered_of_isFolded hu h
  have hself : normalize u n = n ↔ (normalize u n).toList = n.toList := String.toList_inj.symm
  have htrim : (trim isSpace n.toList).Sublist n.toList := (infix_trim _).sublist
  have hdates : (deleteAll (dateAt u) (lowered u n).length (lowered u n)).Sublist
      (lowered u n) := deleteAll_sublist (shrinks_dateAt u) _ _
  rw [hself]
  constructor
  · intro heq
    -- every deletion is one of a list that is as long behind them all
    have hsub : n.toList.Sublist (undated u n) := by
      conv_lhs => rw [← heq]
      exact normalize_sublist u n
    have hundated := undated_sublist u n
    have hblanks : trim isSpace n.toList = n.toList := by
      rw [← hlowered]
      refine List.Sublist.antisymm ?_ (hsub.trans hundated)
      rw [hlowered]
      exact htrim
    rw [hblanks] at hlowered
    have hkept : deleteAll (dateAt u) (lowered u n).length (lowered u n) = lowered u n := by
      refine hdates.antisymm ?_
      conv_lhs => rw [hlowered]
      refine hsub.trans ?_
      rw [undated_eq]
      exact deleteAll_sublist shrinks_hashAt _ _
    have hkept' : undated u n = n.toList := by
      refine List.Sublist.antisymm ?_ hsub
      rw [← hlowered]
      exact hundated
    refine ⟨hblanks, ?_, ?_, ?_⟩
    · rw [← hlowered]
      exact (deleteAll_eq_self_iff (shrinks_dateAt u) le_rfl).mp hkept
    · rw [undated_eq, hkept, hlowered] at hkept'
      exact (deleteAll_eq_self_iff shrinks_hashAt le_rfl).mp hkept'
    · refine (deleteAll_eq_self_iff (shrinks_afterVersion u) le_rfl).mp ?_
      refine (deleteAll_sublist (shrinks_afterVersion u) _ _).antisymm ?_
      conv_lhs => rw [← heq, toList_normalize, hkept', stripUnderscores_eq]
      exact (infix_trim _).sublist.trans (joinUnderscores_sublist _)
  · intro hplain
    rw [hplain.blanks] at hlowered
    have hundated : undated u n = n.toList := by
      rw [undated_eq, hlowered, deleteAll_of_not_matches _ hplain.date,
        deleteAll_of_not_matches _ hplain.hash]
    have hversions : dropVersions u n.toList = n.toList :=
      deleteAll_of_not_matches _ hplain.version
    rw [toList_normalize, hundated, hversions, joinUnderscores_of_joined h.joined, h.stripped]

/-! ### Canonical keys -/

theorem strip_strip (s : String) : strip (strip s) = strip s := by
  rw [← String.toList_inj, toList_strip, toList_strip, trim_trim]

theorem normalize_strip (u : CharTables) (key : String) :
    normalize u (strip key) = normalize u key := by
  unfold normalize undated
  rw [strip_strip]

/-- The first value of `canonical`. -/
theorem canonical_fst (u : CharTables) (key : String) : (canonical u key).1 =
    if escapeRe (strip key) then strip key
    else if normalize u key ∈ core then normalize u key
    else (aliasOf (normalize u key)).getD (normalize u key) := by
  unfold canonical
  dsimp only
  rw [normalize_strip]
  split
  · rfl
  · split
    · rfl
    · cases aliasOf (normalize u key) <;> rfl

theorem escapeRe_of_no_hyphen {raw : String} (h : '-' ∉ raw.toList) : escapeRe raw = false := by
  unfold escapeRe
  split
  · rename_i heq
    exact absurd (by rw [heq]; simp) h
  · rfl

/-- A key of `CORE` is spelled as `normalize` leaves keys. -/
def isCoreText (w : String) : Bool :=
  w.toList.all (fun c => isIdLetter c || c == '_') &&
    (joinUnderscores w.toList == w.toList && stripUnderscores w.toList == w.toList &&
      trim isSpace w.toList == w.toList) &&
    w.toList.tails.all fun t =>
      !(['2', '0'].isPrefixOf t) && !(['_', 'v'].isPrefixOf t) && (hashAt t).isNone

theorem core_isCoreText : core.all isCoreText = true := by decide +kernel

theorem aliasRules_core : aliasRules.all (fun rule => decide (rule.2 ∈ core)) = true := by
  decide +kernel

theorem mem_core_of_aliasOf {target : String} (h : aliasOf n = some target) : target ∈ core := by
  obtain ⟨rule, hrule, rfl⟩ := Option.map_eq_some_iff.mp h
  exact of_decide_eq_true (List.all_eq_true.mp aliasRules_core rule
    (List.mem_of_find?_eq_some hrule))

/-- A key of `CORE` is in lower case, with single underscores, and has nothing to delete. -/
theorem core_spec (hu : LowersOnce u) (h : n ∈ core) :
    IsFolded u n.toList ∧ IsPlain u n.toList := by
  have hcheck := List.all_eq_true.mp core_isCoreText n h
  unfold isCoreText at hcheck
  simp only [Bool.and_eq_true, List.all_eq_true, Bool.or_eq_true, beq_iff_eq,
    Bool.not_eq_true', Option.isNone_iff_eq_none, List.mem_tails] at hcheck
  obtain ⟨⟨hchars, ⟨hjoined, hstripped⟩, hblanks⟩, htails⟩ := hcheck
  refine ⟨⟨fun c hc => hu.plain c (hchars c hc), fun hc => ?_, ?_, hstripped⟩,
    ⟨hblanks, ?_, ?_, ?_⟩⟩
  · rcases hchars _ hc with hc | hc <;> exact absurd hc (by decide)
  · rw [← hjoined]
    exact joined_joinUnderscores _
  · rintro ⟨t, ht, hsome⟩
    obtain ⟨rest, hrest⟩ := Option.isSome_iff_exists.mp hsome
    obtain ⟨-, -, r, hr⟩ := dateAt_spec hrest
    have hno := (htails _ (hr.trans ht)).1.1
    cases hno
  · rintro ⟨t, ht, hsome⟩
    rw [(htails t ht).2] at hsome
    cases hsome
  · rintro ⟨t, ht, hsome⟩
    obtain ⟨rest, hrest⟩ := Option.isSome_iff_exists.mp hsome
    obtain ⟨r, rfl, -⟩ := afterVersion_spec hrest
    have hno := (htails _ ht).1.2
    cases hno

/-- The canonical key of a folded one. -/
theorem canonical_fst_of_isFolded (h : IsFolded u n.toList) : (canonical u n).1 =
    if normalize u n ∈ core then normalize u n
    else (aliasOf (normalize u n)).getD (normalize u n) := by
  have hno : escapeRe (strip n) = false := by
    refine escapeRe_of_no_hyphen fun hmem => h.hyphen ?_
    rw [toList_strip] at hmem
    exact (infix_trim _).subset hmem
  rw [canonical_fst, hno, if_neg Bool.false_ne_true]

/-- A core key is its own canonical key. -/
theorem canonical_of_mem_core (hu : LowersOnce u) (h : n ∈ core) : (canonical u n).1 = n := by
  obtain ⟨hfolded, hplain⟩ := core_spec hu h
  rw [canonical_fst_of_isFolded hfolded, (normalize_eq_self_iff hu hfolded).mpr hplain, if_pos h]

/-- **A canonical key is its own one** when it is an escape, a core key or an alias, or when there
is nothing more to delete in it. -/
theorem canonical_canonical_iff (hu : LowersOnce u) :
    (canonical u (canonical u key).1).1 = (canonical u key).1 ↔
      escapeRe (strip key) = true ∨ normalize u key ∈ core ∨
        (aliasOf (normalize u key)).isSome = true ∨ IsPlain u (normalize u key).toList := by
  have hkey := canonical_fst u key
  by_cases hescape : escapeRe (strip key) = true
  · rw [if_pos hescape] at hkey
    rw [hkey, canonical_fst, strip_strip, if_pos hescape]
    exact ⟨fun _ => .inl hescape, fun _ => rfl⟩
  rw [if_neg hescape] at hkey
  by_cases hcore : normalize u key ∈ core
  · rw [if_pos hcore] at hkey
    rw [hkey, canonical_of_mem_core hu hcore]
    exact ⟨fun _ => .inr (.inl hcore), fun _ => rfl⟩
  rw [if_neg hcore] at hkey
  cases halias : aliasOf (normalize u key) with
  | some target =>
    rw [halias, Option.getD_some] at hkey
    rw [hkey, canonical_of_mem_core hu (mem_core_of_aliasOf halias)]
    exact ⟨fun _ => .inr (.inr (.inl rfl)), fun _ => rfl⟩
  | none =>
    rw [halias, Option.getD_none] at hkey
    have hfolded := isFolded_normalize hu key
    rw [hkey, ← normalize_eq_self_iff hu hfolded, canonical_fst_of_isFolded hfolded]
    constructor
    · -- another normal form gives another key
      intro h
      refine .inr (.inr (.inr ?_))
      by_cases hcore' : normalize u (normalize u key) ∈ core
      · rw [if_pos hcore'] at h
        exact h
      · rw [if_neg hcore'] at h
        cases halias' : aliasOf (normalize u (normalize u key)) with
        | none =>
          rw [halias', Option.getD_none] at h
          exact h
        | some target =>
          rw [halias', Option.getD_some] at h
          exact absurd (h ▸ mem_core_of_aliasOf halias') hcore
    · rintro (h | h | h | h)
      · exact absurd h hescape
      · exact absurd h hcore
      · cases h
      · rw [h, if_neg hcore, halias, Option.getD_none]

/-- **Evidence keys**: the two foldings agree on a key exactly when it has no version, and its
canonical key is the one of itself exactly when it is known or the deletions leave nothing more to
delete. -/
theorem evidence_keys_iff (u : CharTables) (hu : LowersOnce u) (key : String) :
    (foldKey u key = normalize u key ↔ ¬Matches (afterVersion u) (undated u key)) ∧
      ((canonical u (canonical u key).1).1 = (canonical u key).1 ↔
        escapeRe (strip key) = true ∨ normalize u key ∈ core ∨
          (aliasOf (normalize u key)).isSome = true ∨ IsPlain u (normalize u key).toList) :=
  ⟨foldKey_eq_normalize_iff, canonical_canonical_iff hu⟩

/-! ### Keys of the ASCII set -/

/-- A character in lower case is none of the capitals. -/
theorem toLower_cases (c : Char) : c.toLower = c ∧ ¬(65 ≤ c.toNat ∧ c.toNat ≤ 90) ∨
    97 ≤ c.toLower.toNat ∧ c.toLower.toNat ≤ 122 := by
  unfold Char.toLower
  split
  · rename_i h
    have hlow : 65 ≤ c.val.toNat := UInt32.le_iff_toNat_le.mp h.1
    have hhigh : c.val.toNat ≤ 90 := UInt32.le_iff_toNat_le.mp h.2
    have hadd : (c.val + ('a'.val - 'A'.val)).toNat = c.val.toNat + 32 := by
      have hgap : ('a'.val - 'A'.val).toNat = 32 := by decide
      rw [UInt32.toNat_add, hgap]
      omega
    refine .inr ⟨?_, ?_⟩
    · show 97 ≤ (c.val + ('a'.val - 'A'.val)).toNat
      omega
    · show (c.val + ('a'.val - 'A'.val)).toNat ≤ 122
      omega
  · rename_i h
    refine .inl ⟨rfl, fun hrange => h ⟨?_, ?_⟩⟩
    · exact UInt32.le_iff_toNat_le.mpr hrange.1
    · exact UInt32.le_iff_toNat_le.mpr hrange.2

theorem lowerChar_of_not_capital (hkelvin : c ≠ '\u212A') (h : ¬(65 ≤ c.toNat ∧ c.toNat ≤ 90)) :
    lowerChar c = c := by
  have hlower : lowerChar c = c.toLower := if_neg hkelvin
  rw [hlower]
  unfold Char.toLower
  split
  · rename_i hrange
    exact absurd ⟨UInt32.le_iff_toNat_le.mp hrange.1, UInt32.le_iff_toNat_le.mp hrange.2⟩ h
  · rfl

theorem lowerChar_lowerChar (c : Char) : lowerChar (lowerChar c) = lowerChar c := by
  by_cases hkelvin : c = '\u212A'
  · subst hkelvin
    decide
  · have hlower : lowerChar c = c.toLower := if_neg hkelvin
    rw [hlower]
    rcases toLower_cases c with ⟨hsame, hrange⟩ | ⟨hlow, hhigh⟩
    · rw [hsame]
      exact lowerChar_of_not_capital hkelvin hrange
    · refine lowerChar_of_not_capital (fun heq => ?_) (by omega)
      rw [heq] at hhigh
      exact absurd hhigh (by decide)

theorem lowered_ascii_iff : Lowered asciiTables c ↔ lowerChar c = c := by
  have hlower : asciiTables.lower (String.singleton c) = String.singleton (lowerChar c) := by
    rw [← String.toList_inj]
    show (String.ofList (lower (String.singleton c))).toList = _
    rw [String.toList_ofList, String.toList_singleton]
    unfold lower
    rw [String.toList_singleton]
    rfl
  unfold Lowered
  rw [hlower, ← String.toList_inj, String.toList_singleton, String.toList_singleton]
  simp

theorem lowersOnce_ascii : LowersOnce asciiTables := by
  refine ⟨fun s c hc => ?_, fun s hs => ?_, fun c hc => ?_⟩
  · have hc' : c ∈ lower s := by
      rwa [show asciiTables.lower s = String.ofList (lower s) from rfl, String.toList_ofList] at hc
    obtain ⟨d, -, rfl⟩ := List.mem_map.mp hc'
    exact lowered_ascii_iff.mpr (lowerChar_lowerChar d)
  · rw [← String.toList_inj, show asciiTables.lower s = String.ofList (lower s) from rfl,
      String.toList_ofList]
    conv_rhs => rw [← List.map_id s.toList]
    exact List.map_congr_left fun c hc => lowered_ascii_iff.mp (hs c hc)
  · rw [lowered_ascii_iff]
    have hrange : 97 ≤ c.toNat ∧ c.toNat ≤ 122 ∨ 48 ≤ c.toNat ∧ c.toNat ≤ 57 ∨ c.toNat = 95 := by
      rcases hc with hc | rfl
      · unfold isIdLetter at hc
        simp only [Bool.or_eq_true, Bool.and_eq_true, decide_eq_true_eq] at hc
        rcases hc with ⟨hlow, hhigh⟩ | ⟨hlow, hhigh⟩
        · exact .inl ⟨UInt32.le_iff_toNat_le.mp hlow, UInt32.le_iff_toNat_le.mp hhigh⟩
        · exact .inr (.inl ⟨UInt32.le_iff_toNat_le.mp hlow, UInt32.le_iff_toNat_le.mp hhigh⟩)
      · exact .inr (.inr rfl)
    refine lowerChar_of_not_capital (fun heq => ?_) (by omega)
    subst heq
    exact absurd hrange (by decide)

/-- The key of a verdict with a date: without a version the two foldings agree, and its canonical
key is canonical. -/
theorem evidence_keys_iff_verdict :
    ¬Matches (afterVersion asciiTables) (undated asciiTables "Review-Verdict-20260827") ∧
      (canonical asciiTables (canonical asciiTables "Review-Verdict-20260827").1).1 =
        (canonical asciiTables "Review-Verdict-20260827").1 := by
  have h := evidence_keys_iff asciiTables lowersOnce_ascii "Review-Verdict-20260827"
  exact ⟨h.1.mp (by decide +kernel), h.2.mpr (.inr (.inr (.inl (by decide +kernel))))⟩

/-- A version is kept by one folding, and a version that is left by the deletion of two others hides
the core key of a canonical key. -/
theorem verdict_v2_folds_apart :
    foldKey asciiTables "verdict_v2" = "verdict_v2" ∧
      normalize asciiTables "verdict_v2" = "verdict" ∧
      canonical asciiTables "com__v1v1mit" = ("com_v1mit", .unknown) ∧
      canonical asciiTables "com_v1mit" = ("commit", .aliased) ∧
      ¬(∀ key, foldKey asciiTables key = normalize asciiTables key ∧
        (canonical asciiTables (canonical asciiTables key).1).1 =
          (canonical asciiTables key).1) := by
  have hfold : foldKey asciiTables "verdict_v2" = "verdict_v2" := by decide +kernel
  have hnorm : normalize asciiTables "verdict_v2" = "verdict" := by decide +kernel
  refine ⟨hfold, hnorm, by decide +kernel, by decide +kernel, fun h => ?_⟩
  have hsame := (h "verdict_v2").1
  rw [hfold, hnorm] at hsame
  exact absurd hsame (by decide)

end SkCoord.EvidenceVocab
