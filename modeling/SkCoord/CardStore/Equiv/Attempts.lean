import SkCoord.CardStore.CreateExplicit
import SkCoord.CardStore.Equiv.Store

/-!
# What the ledger of attempts says of a card

* `readCreationAttempts_append`: the records that are read behind an append, when the log can be
  read at all.
* `Ledger.Extends`: whatever is read later, what was read before is its beginning.  Appends, torn
  or not, extend the ledger (`extends_append`, `extends_tear`).
* `Ledger.Binds`: the first binding record of a card is an acceptance of a digest.  It stays so in
  every extension.
-/

namespace SkCoord

open Python

namespace Ledger

variable {l l' l'' : Ledger} {r : AttemptRecord} {records : List AttemptRecord}

/-! ### Reading -/

theorem mapM_readLine_append {lines : List LedgerLine} {line : LedgerLine}
    (h : (lines ++ [line]).mapM readLine = .ok records) :
    ∃ before r, lines.mapM readLine = .ok before ∧ readLine line = .ok r ∧
      records = before ++ [r] := by
  rw [List.mapM_append] at h
  obtain ⟨before, hbefore, h⟩ := bind_eq_ok.mp h
  obtain ⟨last, hlast, h⟩ := bind_eq_ok.mp h
  rw [List.mapM_cons] at hlast
  obtain ⟨r, hr, hlast⟩ := bind_eq_ok.mp hlast
  rw [List.mapM_nil] at hlast
  cases hlast
  cases h
  exact ⟨before, r, hbefore, hr, rfl⟩

theorem readLine_record {r' : AttemptRecord} (h : readLine (.record r) = .ok r') : r' = r := by
  unfold readLine at h
  dsimp only at h
  split at h
  · cases h; rfl
  · cases h

/-- The lines of a log whose last line is complete. -/
theorem readLines_of_tail (h : l.tail = none) : l.readLines = l.lines := by
  unfold readLines
  rw [h]
  split <;> first | rfl | simp_all

theorem readLines_append (l : Ledger) (r : AttemptRecord) :
    (l.append r).readLines = (l.append r).lines := by
  refine readLines_of_tail ?_
  unfold append
  split <;> rfl

/-- **An append that can be read** went behind a complete line, and its record is the last. -/
theorem readCreationAttempts_append (h : (l.append r).readCreationAttempts = .ok records) :
    l.tail = none ∧ ∃ before, l.readCreationAttempts = .ok before ∧ records = before ++ [r] := by
  unfold readCreationAttempts at h
  rw [readLines_append] at h
  unfold append at h
  cases htail : l.tail with
  | some tail =>
    rw [htail] at h
    obtain ⟨_, _, _, hline, _⟩ := mapM_readLine_append h
    cases hline
  | none =>
    rw [htail] at h
    obtain ⟨before, r', hbefore, hline, rfl⟩ := mapM_readLine_append h
    rw [readLine_record hline]
    refine ⟨rfl, before, ?_, rfl⟩
    rw [readCreationAttempts, readLines_of_tail htail, hbefore]

/-- A well-formed record behind a complete line is read back. -/
theorem readCreationAttempts_append_ok (htail : l.tail = none) (hr : r.isWellFormed = true)
    (h : l.readCreationAttempts = .ok records) :
    (l.append r).readCreationAttempts = .ok (records ++ [r]) := by
  have hline : readLine (.record r) = .ok r := by
    unfold readLine
    exact if_pos hr
  unfold readCreationAttempts at h ⊢
  rw [readLines_of_tail htail] at h
  rw [readLines_append]
  unfold append
  rw [htail, List.mapM_append, h, List.mapM_cons, hline, List.mapM_nil]
  rfl

/-! ### Extensions -/

/-- Whatever is read from `l'` begins with what is read from `l`. -/
def Extends (l l' : Ledger) : Prop :=
  ∀ records', l'.readCreationAttempts = .ok records' →
    ∃ records, l.readCreationAttempts = .ok records ∧ records <+: records'

theorem Extends.refl (l : Ledger) : l.Extends l := fun records h => ⟨records, h, List.prefix_rfl⟩

theorem Extends.trans (h : l.Extends l') (h' : l'.Extends l'') : l.Extends l'' := by
  intro records'' hread
  obtain ⟨records', hread', hpre'⟩ := h' records'' hread
  obtain ⟨records, hread, hpre⟩ := h records' hread'
  exact ⟨records, hread, hpre.trans hpre'⟩

theorem extends_append (l : Ledger) (r : AttemptRecord) : l.Extends (l.append r) := by
  intro records h
  obtain ⟨-, before, hbefore, rfl⟩ := readCreationAttempts_append h
  exact ⟨before, hbefore, List.prefix_append _ _⟩

/-- A torn append is dropped by the reader, or it is all that the reader sees. -/
theorem extends_tear (l : Ledger) (full : Bool) (r : AttemptRecord) :
    l.Extends (l.tear full r) := by
  intro records h
  obtain ⟨lines, tail⟩ := l
  cases lines with
  | cons line lines =>
    refine ⟨records, ?_, List.prefix_rfl⟩
    cases tail <;> exact h
  | nil =>
    cases tail with
    | none => exact ⟨[], rfl, List.nil_prefix⟩
    | some tail => cases h

/-! ### Binding -/

/-- A prefix that decides which records bind a card decides how they begin. -/
theorem bindingAttempts_prefix {cardId : String} {records records' : List AttemptRecord}
    (hpre : records <+: records') {first : AttemptRecord} {rest : List AttemptRecord}
    (h : bindingAttempts cardId records = first :: rest) :
    ∃ rest', bindingAttempts cardId records' = first :: rest' := by
  obtain ⟨more, rfl⟩ := hpre
  unfold bindingAttempts at h ⊢
  rw [List.filter_append, List.dropWhile_append, h]
  exact ⟨_, rfl⟩

/-- Records that do not bind leave the next one to decide. -/
theorem bindingAttempts_append {cardId : String} {records : List AttemptRecord}
    (h : bindingAttempts cardId records = []) (r : AttemptRecord) :
    bindingAttempts cardId (records ++ [r]) = bindingAttempts cardId [r] := by
  unfold bindingAttempts at h ⊢
  rw [List.filter_append, List.dropWhile_append, h]
  rfl

/-- If the log can be read, its first binding record of the card accepts the digest. -/
def Binds (l : Ledger) (cardId digest : String) : Prop :=
  ∀ records, l.readCreationAttempts = .ok records →
    ∃ first rest, bindingAttempts cardId records = first :: rest ∧
      first.outcome = .accepted ∧ first.requestDigest = digest

/-- **What binds a card binds it in every extension.** -/
theorem Binds.mono {cardId digest : String} (h : l.Binds cardId digest) (hext : l.Extends l') :
    l'.Binds cardId digest := by
  intro records' hread
  obtain ⟨records, hread, hpre⟩ := hext records' hread
  obtain ⟨first, rest, hfirst, hout, hdig⟩ := h records hread
  obtain ⟨rest', hfirst'⟩ := bindingAttempts_prefix hpre hfirst
  exact ⟨first, rest', hfirst', hout, hdig⟩

end Ledger

/-! ### `_attempt_for` -/

theorem attemptFor_eq_none_iff {l : Ledger} {cardId : String} :
    attemptFor l cardId = .ok none ↔
      ∃ records, l.readCreationAttempts = .ok records ∧ bindingAttempts cardId records = [] := by
  unfold attemptFor
  constructor
  · intro h
    obtain ⟨records, hread, h⟩ := bind_eq_ok.mp h
    refine ⟨records, hread, ?_⟩
    split at h
    · assumption
    · split at h <;> cases h
  · rintro ⟨records, hread, h⟩
    refine bind_eq_ok.mpr ⟨records, hread, ?_⟩
    rw [h]
    rfl

/-- The attempt that binds a card is the first of its binding records, and the others agree with
it. -/
theorem attemptFor_eq_some_iff {l : Ledger} {cardId : String} {a : AttemptRecord} :
    attemptFor l cardId = .ok (some a) ↔
      ∃ records rest, l.readCreationAttempts = .ok records ∧
        bindingAttempts cardId records = a :: rest ∧
        (rest.any fun r => r.binding ≠ a.binding) = false := by
  unfold attemptFor
  constructor
  · intro h
    obtain ⟨records, hread, h⟩ := bind_eq_ok.mp h
    split at h
    · cases h
    · rename_i first rest hfirst
      split at h
      · cases h
      · rename_i hany
        cases h
        exact ⟨records, rest, hread, hfirst, by simpa using hany⟩
  · rintro ⟨records, rest, hread, hfirst, hany⟩
    refine bind_eq_ok.mpr ⟨records, hread, ?_⟩
    rw [hfirst]
    dsimp only
    rw [hany]
    rfl

/-- An acceptance behind a log without a binding record of the card binds it. -/
theorem binds_append {l : Ledger} {r : AttemptRecord} (hnone : attemptFor l r.cardId = .ok none)
    (hr : r.outcome = .accepted) : (l.append r).Binds r.cardId r.requestDigest := by
  intro records hread
  obtain ⟨before, hbefore, hempty⟩ := attemptFor_eq_none_iff.mp hnone
  obtain ⟨-, before', hbefore', rfl⟩ := Ledger.readCreationAttempts_append hread
  rw [hbefore] at hbefore'
  cases hbefore'
  refine ⟨r, [], ?_, hr, rfl⟩
  rw [Ledger.bindingAttempts_append hempty]
  simp [bindingAttempts, AttemptRecord.isCrashReject, hr]

/-- A binding acceptance is the attempt that is found. -/
theorem Ledger.Binds.attemptFor {l : Ledger} {cardId digest : String} (h : l.Binds cardId digest)
    {a : Option AttemptRecord} (ha : attemptFor l cardId = .ok a) :
    ∃ first, a = some first ∧ first.outcome = .accepted ∧ first.requestDigest = digest := by
  cases a with
  | none =>
    obtain ⟨records, hread, hempty⟩ := attemptFor_eq_none_iff.mp ha
    obtain ⟨first, rest, hfirst, -, -⟩ := h records hread
    rw [hempty] at hfirst
    cases hfirst
  | some first =>
    obtain ⟨records, rest, hread, hfirst, -⟩ := attemptFor_eq_some_iff.mp ha
    obtain ⟨first', rest', hfirst', hout, hdig⟩ := h records hread
    rw [hfirst] at hfirst'
    cases hfirst'
    exact ⟨first, rfl, hout, hdig⟩

/-! ### Ledgers in which nothing binds a card -/

/-- The ledger ends with a complete line and has no binding record of the card. -/
def Ledger.Quiet (l : Ledger) (cardId : String) : Prop :=
  l.tail = none ∧ attemptFor l cardId = .ok none

/-- The next record of the card is the attempt that is found, unless it is an input/output
abort. -/
theorem attemptFor_append {l : Ledger} {r : AttemptRecord} (hquiet : l.Quiet r.cardId)
    (hr : r.isWellFormed = true) :
    attemptFor (l.append r) r.cardId = .ok (if r.isCrashReject then none else some r) := by
  obtain ⟨htail, hnone⟩ := hquiet
  obtain ⟨records, hread, hempty⟩ := attemptFor_eq_none_iff.mp hnone
  have hread' := Ledger.readCreationAttempts_append_ok htail hr hread
  have hone : bindingAttempts r.cardId (records ++ [r]) = if r.isCrashReject then [] else [r] := by
    rw [Ledger.bindingAttempts_append hempty]
    by_cases hcrash : r.isCrashReject = true <;> simp [bindingAttempts, hcrash]
  by_cases hcrash : r.isCrashReject = true
  · rw [if_pos hcrash] at hone ⊢
    exact attemptFor_eq_none_iff.mpr ⟨_, hread', hone⟩
  · rw [if_neg hcrash] at hone ⊢
    exact attemptFor_eq_some_iff.mpr ⟨_, [], hread', hone, rfl⟩

/-- Behind an input/output abort still nothing binds the card. -/
theorem quiet_append {l : Ledger} {r : AttemptRecord} (hquiet : l.Quiet r.cardId)
    (hr : r.isWellFormed = true) (hcrash : r.isCrashReject = true) :
    (l.append r).Quiet r.cardId := by
  refine ⟨?_, ?_⟩
  · unfold Ledger.append
    rw [hquiet.1]
  · rw [attemptFor_append hquiet hr, if_pos hcrash]

/-- **A rejection behind an acceptance** is a conflict, whatever its reason. -/
theorem attemptFor_conflict {l : Ledger} {a r : AttemptRecord} (hquiet : l.Quiet a.cardId)
    (hcard : r.cardId = a.cardId) (ha : a.isWellFormed = true) (hr : r.isWellFormed = true)
    (haout : a.outcome = .accepted) (hrout : r.outcome = .rejected) :
    ∃ e, attemptFor ((l.append a).append r) a.cardId = .error e := by
  obtain ⟨htail, hnone⟩ := hquiet
  obtain ⟨records, hread, hempty⟩ := attemptFor_eq_none_iff.mp hnone
  have hread' := Ledger.readCreationAttempts_append_ok htail ha hread
  have htail' : (l.append a).tail = none := by
    unfold Ledger.append
    rw [htail]
  have hread'' := Ledger.readCreationAttempts_append_ok htail' hr hread'
  have htwo : bindingAttempts a.cardId (records ++ [a] ++ [r]) = [a, r] := by
    rw [List.append_assoc]
    unfold bindingAttempts at hempty ⊢
    rw [List.filter_append, List.dropWhile_append, hempty]
    simp [AttemptRecord.isCrashReject, haout, hcard]
  refine ⟨.value ("Card ID " ++ a.cardId ++ " has conflicting creation attempts"), ?_⟩
  unfold attemptFor
  rw [hread'']
  dsimp only [bind, Except.bind]
  rw [htwo]
  refine if_pos ?_
  simp [AttemptRecord.binding, haout, hrout]

end SkCoord
