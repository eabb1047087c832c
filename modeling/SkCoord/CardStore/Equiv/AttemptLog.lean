import SkCoord.CardStore.AttemptLog
import Mathlib.Algebra.Order.BigOperators.Group.List

/-!
# Logs of attempts with a torn tail

An attempt that is written whole is read back.  What a crash left of one is dropped by the reader
as long as the log has a whole line before it, and the next append makes one line of both.
`attempts_survive_iff`: the logs are read as the whole records exactly when nothing was left, or
there is a whole record before what was left and nothing behind it.
-/

namespace SkCoord

open Python

variable {F : FloatText} {r : LineReader}

/-! ### One record -/

namespace LoggedAttempt

variable {a b : LoggedAttempt} {q : List Char}

/-- The record as it is read: its keys are sorted. -/
def stored (a : LoggedAttempt) : Dict :=
  [("actor", .str a.record.actor), ("card_id", .str a.record.cardId),
    ("outcome", .str a.record.outcome.value)] ++
  (if a.record.reason ≠ "" then [("reason", .str a.record.reason)] else []) ++
  [("request_digest", .str a.record.requestDigest)] ++
  (if a.record.semanticDigest ≠ "" then [("semantic_digest", .str a.record.semanticDigest)]
    else []) ++ [("ts", .str a.ts)]

theorem sortKeys_toDict (a : LoggedAttempt) : (Json.obj a.toDict).sortKeys = .obj a.stored := by
  unfold toDict stored
  split <;> split <;>
    simp [Json.sortKeys, Json.sortFields, List.insertionSort, List.orderedInsert]

theorem wellFormed_stored (F : FloatText) (a : LoggedAttempt) : (Json.obj a.stored).WellFormed F := by
  unfold stored
  split <;> split <;> simp [Json.WellFormed, Json.FieldsWellFormed, Assoc.keys]

theorem text_eq (F : FloatText) (a : LoggedAttempt) :
    a.text F = (Json.obj a.stored).dumps F .spaced := by
  rw [text, sortKeys_toDict]

theorem loads_text (F : FloatText) (a : LoggedAttempt) :
    Json.loads F (a.text F) = some (.obj a.stored) := by
  rw [text_eq]
  exact Json.loads_dumps F .spaced (wellFormed_stored F a)

theorem printable_text (F : FloatText) (a : LoggedAttempt) : Printable (a.text F) := by
  rw [text_eq]
  exact Json.printable_dumps F .spaced _

/-- The text opens with the quoted key `actor` and ends with a brace. -/
theorem text_ends (F : FloatText) (a : LoggedAttempt) :
    (∃ rest, a.text F = '{' :: '"' :: rest) ∧ (a.text F).getLast? = some '}' := by
  rw [text_eq]
  refine ⟨?_, (Json.dumps_obj_ends F .spaced a.stored).2⟩
  unfold stored
  rw [List.append_assoc, List.append_assoc, List.append_assoc, List.cons_append, Json.dumps]
  exact ⟨_, rfl⟩

theorem recordText_text (F : FloatText) (a : LoggedAttempt) : Json.RecordText F (a.text F) := by
  rw [text_eq]
  exact Json.recordText_dumps (k := "actor") (c := 'a') rfl (by decide)
    ⟨by decide, by decide, by decide, by decide, by decide⟩

/-- What is left of a record in front of another one is no value. -/
theorem loads_glued (F : FloatText) (b : LoggedAttempt) (hq : q <+: a.text F) (hne : q ≠ []) :
    Json.loads F (q ++ b.text F) = none := by
  refine Json.loads_torn (recordText_text F b) ?_
  obtain ⟨⟨rest, htext⟩, -⟩ := text_ends F a
  rw [htext] at hq
  cases q with
  | nil => exact absurd rfl hne
  | cons c q =>
    obtain ⟨rfl, -⟩ := List.cons_prefix_cons.mp hq
    exact ⟨_, _, rfl, rfl⟩

/-- What is left of a record that was not written whole is no value. -/
theorem loads_rest (hq : q <+: a.text F) (hne : q ≠ []) (hpart : q ≠ a.text F) :
    Json.loads F q = none := by
  obtain ⟨s, hs⟩ := hq
  obtain ⟨⟨rest, htext⟩, hlast⟩ := text_ends F a
  refine Json.loads_part (s := s) ?_ ?_ (hs ▸ loads_text F a)
  · cases q with
    | nil => exact absurd rfl hne
    | cons c q =>
      rw [htext, List.cons_append] at hs
      rw [(List.cons.inj hs).1]
      rfl
  · -- the text ends with a brace, so its rest does
    have hsne : s ≠ [] := by
      rintro rfl
      exact hpart (by rw [← hs, List.append_nil])
    intro hblank
    unfold Json.skipBlanks at hblank
    rw [List.dropWhile_eq_nil_iff] at hblank
    rw [← hs, List.getLast?_append_of_ne_nil _ hsne] at hlast
    exact absurd (hblank '}' (List.mem_of_getLast? hlast)) (by decide)

theorem outcome_mem (o : Outcome) :
    (Json.str o.value).mem [.str "accepted", .str "rejected"] = true := by
  cases o <;> decide

/-- A stored record passes the checks. -/
theorem checkRecord_stored (a : LoggedAttempt) : AttemptLog.checkRecord a.stored = .ok a.stored := by
  have hcard : Dict.get a.stored "card_id" = .str a.record.cardId := by
    unfold stored; split <;> split <;> rfl
  have hrequest : Dict.getD a.stored "request_digest" (.str "") =
      .str a.record.requestDigest := by
    unfold stored; split <;> split <;> rfl
  have hactor : Dict.get a.stored "actor" = .str a.record.actor := by
    unfold stored; split <;> split <;> rfl
  have hts : Dict.get a.stored "ts" = .str a.ts := by
    unfold stored; split <;> split <;> rfl
  have houtcome : Dict.get a.stored "outcome" = .str a.record.outcome.value := by
    unfold stored; split <;> split <;> rfl
  have hsemantic : Dict.getD a.stored "semantic_digest" (.str "") =
      .str a.record.semanticDigest := by
    unfold stored
    split <;> split
    · rfl
    · rename_i h; rw [not_not.mp h]; rfl
    · rfl
    · rename_i h; rw [not_not.mp h]; rfl
  have hformed := a.wellFormed
  unfold AttemptRecord.isWellFormed at hformed
  obtain ⟨hdigest, hsem⟩ := Bool.and_eq_true_iff.mp hformed
  have hsem' : ((Json.str a.record.semanticDigest).truthy &&
      !AttemptLog.isDigest (.str a.record.semanticDigest)) = false := by
    rcases Bool.or_eq_true_iff.mp hsem with h | h
    · rw [eq_of_beq h]
      rfl
    · rw [AttemptLog.isDigest, h, Bool.not_true, Bool.and_false]
  unfold AttemptLog.checkRecord
  dsimp only
  rw [hcard, hrequest, hactor, hts, houtcome, hsemantic, hsem', AttemptLog.isDigest, hdigest]
  rw [if_neg (by exact Bool.false_ne_true)]
  show (if _ then _ else _) = _
  rw [if_pos (outcome_mem a.record.outcome)]
  rfl

end LoggedAttempt

/-! ### One line -/

namespace AttemptLog

variable {a b : LoggedAttempt} {q s : List Char}

/-- A text of a record and what is left of one opens like UTF-8. -/
theorem readLine_encodeUtf8 (hs : opensForeign s = false) :
    readLine r (encodeUtf8 s) = match Json.loads r.floats s with
      | some v => checkAttempt v
      | none => .error corruptLog := by
  unfold readLine loadsLine
  rw [decodeUtf8_encodeUtf8]
  dsimp only
  rw [hs, if_neg Bool.false_ne_true]
  cases Json.loads r.floats s <;> rfl

theorem opensForeign_part (hq : q <+: a.text F) : opensForeign q = false := by
  obtain ⟨⟨rest, htext⟩, -⟩ := LoggedAttempt.text_ends F a
  rw [htext] at hq
  cases q with
  | nil => rfl
  | cons c q =>
    obtain ⟨rfl, hrest⟩ := List.cons_prefix_cons.mp hq
    cases q with
    | nil => rfl
    | cons d q =>
      obtain ⟨rfl, -⟩ := List.cons_prefix_cons.mp hrest
      rfl

theorem opensForeign_glued (hq : q <+: a.text F) (b : LoggedAttempt) :
    opensForeign (q ++ b.text F) = false := by
  obtain ⟨⟨rest, htext⟩, -⟩ := LoggedAttempt.text_ends F a
  obtain ⟨⟨rest', htext'⟩, -⟩ := LoggedAttempt.text_ends F b
  rw [htext] at hq
  rw [htext']
  cases q with
  | nil => rfl
  | cons c q =>
    obtain ⟨rfl, hrest⟩ := List.cons_prefix_cons.mp hq
    cases q with
    | nil => rfl
    | cons d q =>
      obtain ⟨rfl, -⟩ := List.cons_prefix_cons.mp hrest
      rfl

/-- A whole record is read. -/
theorem readLine_text (a : LoggedAttempt) : readLine r (encodeUtf8 (a.text r.floats)) = .ok a.stored := by
  rw [readLine_encodeUtf8 (opensForeign_part List.prefix_rfl), LoggedAttempt.loads_text]
  exact LoggedAttempt.checkRecord_stored a

/-- What is left of a record is not read together with the next one. -/
theorem readLine_glued (hq : q <+: a.text r.floats) (hne : q ≠ []) (b : LoggedAttempt) :
    readLine r (encodeUtf8 (q ++ b.text r.floats)) = .error corruptLog := by
  rw [readLine_encodeUtf8 (opensForeign_glued hq b), LoggedAttempt.loads_glued r.floats b hq hne]

/-- What is left of a record is not read. -/
theorem readLine_rest (hq : q <+: a.text r.floats) (hne : q ≠ []) (hpart : q ≠ a.text r.floats) :
    readLine r (encodeUtf8 q) = .error corruptLog := by
  rw [readLine_encodeUtf8 (opensForeign_part hq), LoggedAttempt.loads_rest hq hne hpart]

/-! ### One log -/

/-- The bytes of whole records. -/
def bytesOf (F : FloatText) (attempts : List LoggedAttempt) : Bytes := attempts.flatMap (LoggedAttempt.line F)

theorem line_eq (F : FloatText) (a : LoggedAttempt) : a.line F = encodeUtf8 (a.text F) ++ [10] :=
  encodeUtf8_append _ _

theorem bytesOf_eq (F : FloatText) (attempts : List LoggedAttempt) :
    bytesOf F attempts = unlinesBytes (attempts.map fun a => encodeUtf8 (a.text F)) := by
  unfold bytesOf unlinesBytes
  rw [List.flatMap_map]
  exact congrArg attempts.flatMap (funext fun a => line_eq F a)

theorem bytesOf_append (F : FloatText) (l m : List LoggedAttempt) :
    bytesOf F (l ++ m) = bytesOf F l ++ bytesOf F m :=
  List.flatMap_append

theorem readLog_some (data : Bytes) :
    readLog r (some data) = (byteLines (wholeLines data)).mapM (readLine r) :=
  rfl

theorem wholeLines_unlines (lines : List Bytes) :
    wholeLines (unlinesBytes lines) = unlinesBytes lines := by
  unfold wholeLines
  refine if_neg fun h => h.2 ?_
  cases lines using List.reverseRecOn with
  | nil => exact absurd rfl h.1
  | append_singleton lines line =>
    unfold unlinesBytes
    rw [List.flatMap_append, List.flatMap_singleton, ← List.append_assoc,
      List.getLast?_append_of_ne_nil _ (List.cons_ne_nil _ _)]
    rfl

theorem unbroken_text (F : FloatText) (a : LoggedAttempt) : UnbrokenBytes (encodeUtf8 (a.text F)) :=
  unbroken_encodeUtf8 (LoggedAttempt.printable_text F a)

/-- **Whole records are read back**. -/
theorem readLog_bytesOf (attempts : List LoggedAttempt) :
    readLog r (some (bytesOf r.floats attempts)) = .ok (attempts.map LoggedAttempt.stored) := by
  rw [readLog_some, bytesOf_eq, wholeLines_unlines, byteLines_unlines, List.mapM_map]
  · exact mapM_eq_map fun a _ => readLine_text a
  · intro line hline
    obtain ⟨a, -, rfl⟩ := List.mem_map.mp hline
    exact unbroken_text _ a

/-- Behind whole records the reader drops what is left of one. -/
theorem readLog_torn {attempts : List LoggedAttempt} (hheld : attempts ≠ [])
    (hq : q <+: a.text r.floats) :
    readLog r (some (bytesOf r.floats attempts ++ encodeUtf8 q)) =
      .ok (attempts.map LoggedAttempt.stored) := by
  have hprintable : Printable q := fun c hc =>
    LoggedAttempt.printable_text r.floats a c (hq.subset hc)
  cases q with
  | nil =>
    have hnil : encodeUtf8 [] = [] := rfl
    rw [hnil, List.append_nil]
    exact readLog_bytesOf attempts
  | cons c q =>
    have hunbroken := unbroken_encodeUtf8 hprintable
    have hten : (10 : UInt8) ∉ encodeUtf8 (c :: q) := fun h => (hunbroken 10 h).1 rfl
    have hne : encodeUtf8 (c :: q) ≠ [] := by
      intro h
      have hlength := congrArg List.length h
      rw [length_encodeUtf8 hprintable] at hlength
      cases hlength
    have hwhole : wholeLines (bytesOf r.floats attempts ++ encodeUtf8 (c :: q)) =
        bytesOf r.floats attempts := by
      unfold wholeLines
      rw [if_pos]
      · cases attempts using List.reverseRecOn with
        | nil => exact absurd rfl hheld
        | append_singleton attempts b =>
          rw [bytesOf_append, bytesOf, bytesOf, List.flatMap_singleton, line_eq,
            ← List.append_assoc, List.append_assoc _ [10], List.singleton_append,
            beforeLastNewline_append hten]
      · refine ⟨List.append_ne_nil_of_right_ne_nil _ hne, fun hlast => ?_⟩
        rw [List.getLast?_append_of_ne_nil _ hne] at hlast
        exact hten (List.mem_of_getLast? hlast)
    have hread := readLog_bytesOf (r := r) attempts
    rw [readLog_some, bytesOf_eq, wholeLines_unlines, ← bytesOf_eq] at hread
    rw [readLog_some, hwhole]
    exact hread

/-- **What is left of a record spoils the log** with the next append. -/
theorem readLog_glued {held new : List LoggedAttempt} {b : LoggedAttempt} (hq : q <+: a.text r.floats)
    (hne : q ≠ []) (ds : List Dict) :
    readLog r (some (bytesOf r.floats held ++ encodeUtf8 q ++ bytesOf r.floats (b :: new))) ≠
      .ok ds := by
  have hprintable : Printable (q ++ b.text r.floats) := by
    intro c hc
    rcases List.mem_append.mp hc with hc | hc
    · exact LoggedAttempt.printable_text r.floats a c (hq.subset hc)
    · exact LoggedAttempt.printable_text r.floats b c hc
  have hlines : bytesOf r.floats held ++ encodeUtf8 q ++ bytesOf r.floats (b :: new) =
      unlinesBytes ((held.map fun a => encodeUtf8 (a.text r.floats)) ++
        encodeUtf8 (q ++ b.text r.floats) :: new.map fun a => encodeUtf8 (a.text r.floats)) := by
    have hcons : bytesOf r.floats (b :: new) = b.line r.floats ++ bytesOf r.floats new := rfl
    rw [hcons, line_eq, bytesOf_eq, bytesOf_eq]
    simp [unlinesBytes, encodeUtf8_append]
  intro h
  rw [readLog_some, hlines, wholeLines_unlines, byteLines_unlines] at h
  · obtain ⟨d, -, hd⟩ := mapM_ok_of_mem h (encodeUtf8 (q ++ b.text r.floats)) (by simp)
    rw [readLine_glued hq hne b] at hd
    cases hd
  · intro line hline
    rcases List.mem_append.mp hline with hline | hline
    · obtain ⟨c, -, rfl⟩ := List.mem_map.mp hline
      exact unbroken_text _ c
    · rcases List.mem_cons.mp hline with rfl | hline
      · exact unbroken_encodeUtf8 hprintable
      · obtain ⟨c, -, rfl⟩ := List.mem_map.mp hline
        exact unbroken_text _ c

/-- What is left of the first record of a log is a line of its own. -/
theorem readLog_first (hq : q <+: a.text r.floats) (hne : q ≠ []) :
    readLog r (some (encodeUtf8 q)) = (readLine r (encodeUtf8 q)).map ([·]) := by
  have hprintable : Printable q := fun c hc =>
    LoggedAttempt.printable_text r.floats a c (hq.subset hc)
  have hunbroken := unbroken_encodeUtf8 hprintable
  have hten : (10 : UInt8) ∉ encodeUtf8 q := fun h => (hunbroken 10 h).1 rfl
  have hwhole : wholeLines (encodeUtf8 q) = encodeUtf8 q ++ [10] := by
    unfold wholeLines
    rw [if_pos, beforeLastNewline_of_notMem hten]
    refine ⟨fun h => ?_, fun hlast => hten (List.mem_of_getLast? hlast)⟩
    have hlength := congrArg List.length h
    rw [length_encodeUtf8 hprintable, List.length_nil] at hlength
    exact hne (List.eq_nil_of_length_eq_zero hlength)
  have hlines : byteLines (wholeLines (encodeUtf8 q)) = [encodeUtf8 q] := by
    rw [hwhole]
    exact byteLines_line hunbroken []
  rw [readLog_some, hlines, List.mapM_cons, List.mapM_nil]
  cases readLine r (encodeUtf8 q) <;> rfl

/-- The first record of a log is read without its newline. -/
theorem readLog_whole (a : LoggedAttempt) :
    readLog r (some (encodeUtf8 (a.text r.floats))) = .ok [a.stored] := by
  have hne : a.text r.floats ≠ [] := by
    obtain ⟨⟨rest, htext⟩, -⟩ := LoggedAttempt.text_ends r.floats a
    rw [htext]
    exact List.cons_ne_nil _ _
  rw [readLog_first List.prefix_rfl hne, readLine_text]
  rfl

/-- Any other part of a first record spoils the log. -/
theorem readLog_part (hq : q <+: a.text r.floats) (hne : q ≠ []) (hpart : q ≠ a.text r.floats) :
    readLog r (some (encodeUtf8 q)) = .error corruptLog := by
  rw [readLog_first hq hne, readLine_rest hq hne hpart]
  rfl

end AttemptLog

/-! ### The ledger of the calls -/

namespace AttemptLog

variable {a b : LoggedAttempt} {q : List Char}

/-- The ledger that a log with whole records and what is left of one stands for. -/
def ledgerOf (F : FloatText) (held : List LoggedAttempt) (a : LoggedAttempt) (q : List Char) : Ledger where
  lines := held.map fun a => .record a.record
  tail := if q = [] then none else some (if q = a.text F then .whole a.record else .part)

theorem mapM_readLine_records (held : List LoggedAttempt) :
    (held.map fun a => LedgerLine.record a.record).mapM Ledger.readLine =
      .ok (held.map LoggedAttempt.record) := by
  rw [List.mapM_map]
  exact mapM_eq_map fun a _ => if_pos a.wellFormed

/-- **The ledger is what the log holds**: both are read as the records of the same attempts, or
neither is read. -/
theorem readLog_ledgerOf (held : List LoggedAttempt) (hq : q <+: a.text r.floats) :
    (∃ as : List LoggedAttempt,
      readLog r (some (bytesOf r.floats held ++ encodeUtf8 q)) = .ok (as.map LoggedAttempt.stored) ∧
      (ledgerOf r.floats held a q).readCreationAttempts = .ok (as.map LoggedAttempt.record)) ∨
    readLog r (some (bytesOf r.floats held ++ encodeUtf8 q)) = .error corruptLog ∧
      (ledgerOf r.floats held a q).readCreationAttempts = .error corruptLog := by
  cases held with
  | cons c held =>
    refine .inl ⟨c :: held, readLog_torn (List.cons_ne_nil _ _) hq, ?_⟩
    exact mapM_readLine_records (c :: held)
  | nil =>
    have hbytes : bytesOf r.floats [] = [] := rfl
    rw [hbytes, List.nil_append]
    by_cases hne : q = []
    · subst hne
      exact .inl ⟨[], rfl, rfl⟩
    · by_cases hwhole : q = a.text r.floats
      · refine .inl ⟨[a], hwhole ▸ readLog_whole a, ?_⟩
        unfold ledgerOf
        rw [if_neg hne, if_pos hwhole]
        exact mapM_readLine_records [a]
      · refine .inr ⟨readLog_part hq hne hwhole, ?_⟩
        unfold ledgerOf
        rw [if_neg hne, if_neg hwhole]
        rfl

/-- An append to the log is one to the ledger. -/
theorem append_ledgerOf (held : List LoggedAttempt) (b : LoggedAttempt) :
    (ledgerOf r.floats held a []).append b.record = ledgerOf r.floats (held ++ [b]) a [] := by
  unfold ledgerOf Ledger.append
  rw [if_pos rfl, List.map_append]
  rfl

end AttemptLog

/-! ### All logs -/

namespace RecoveryDir

variable {d d' : RecoveryDir} {host : String} {a : LoggedAttempt} {p : Bytes}

/-- The appends of a host, one after another. -/
def appendCreationAttempts (F : FloatText) (host : String) (d : RecoveryDir)
    (attempts : List LoggedAttempt) : Except PyError RecoveryDir :=
  attempts.foldlM (appendCreationAttempt F host) d

theorem appendCreationAttempts_eq {F : FloatText} {data : Bytes} {attempts : List LoggedAttempt}
    (hname : AttemptLog.logName host ∈ d.names)
    (hfile : d.file (AttemptLog.logName host) = some data) :
    appendCreationAttempts F host d attempts = .ok ⟨d.names, Function.update d.file
      (AttemptLog.logName host) (some (data ++ AttemptLog.bytesOf F attempts))⟩ := by
  induction attempts generalizing d data with
  | nil =>
    have hnil : AttemptLog.bytesOf F [] = [] := rfl
    rw [hnil, List.append_nil, ← hfile, Function.update_eq_self]
    rfl
  | cons a attempts ih =>
    have hstep : d.appendCreationAttempt F host a = .ok ⟨d.names, Function.update d.file
        (AttemptLog.logName host) (some (data ++ a.line F))⟩ := by
      unfold appendCreationAttempt
      dsimp only
      rw [if_pos hname, hfile]
      rfl
    have hcons : AttemptLog.bytesOf F (a :: attempts) = a.line F ++ AttemptLog.bytesOf F attempts :=
      rfl
    have hrest := ih (d := ⟨d.names, Function.update d.file (AttemptLog.logName host)
      (some (data ++ a.line F))⟩) hname (Function.update_self _ _ _)
    unfold appendCreationAttempts at hrest ⊢
    rw [List.foldlM_cons, hstep, ok_bind, hrest, Function.update_idem, hcons, List.append_assoc]

theorem mem_logNames {name : String} :
    name ∈ d.logNames ↔ name ∈ d.names ∧ AttemptLog.isLogName name = true := by
  unfold logNames
  rw [List.mem_filter, (List.perm_insertionSort _ _).mem_iff]

/-- The name of a log is one. -/
theorem isLogName_logName (host : String) :
    AttemptLog.isLogName (AttemptLog.logName host) = true := by
  unfold AttemptLog.isLogName AttemptLog.logName endsWith
  rw [Bool.and_eq_true_iff, List.isPrefixOf_iff_prefix, List.isSuffixOf_iff_suffix]
  rw [String.toList_append, String.toList_append]
  exact ⟨by rw [List.append_assoc]; exact List.prefix_append _ _, List.suffix_append _ _⟩

/-- **Torn logs.** Behind a part of a line that a dead writer has left in the log of the host, new
attempts are written and read back, and no other is lost, exactly when nothing was torn, or nothing
is written and the log holds a whole record before the part. -/
theorem attempts_survive_iff {held : String → List LoggedAttempt} {new : List LoggedAttempt}
    (hname : AttemptLog.logName host ∈ d.names)
    (hheld : ∀ name ∈ d.logNames, d.file name = some (AttemptLog.bytesOf r.floats (held name) ++
      if name = AttemptLog.logName host then p else []))
    (hp : p <+: a.line r.floats) (hpart : p ≠ a.line r.floats) :
    (∃ d', appendCreationAttempts r.floats host d new = .ok d' ∧
      readCreationAttempts r d' = .ok (d.logNames.flatMap fun name =>
        (held name ++ if name = AttemptLog.logName host then new else []).map LoggedAttempt.stored)) ↔
    p = [] ∨ held (AttemptLog.logName host) ≠ [] ∧ new = [] := by
  obtain ⟨q, hq, rfl⟩ : ∃ q, q <+: a.text r.floats ∧ p = encodeUtf8 q := by
    refine exists_prefix_of_encodeUtf8 (LoggedAttempt.printable_text _ a) ?_
    rw [AttemptLog.line_eq] at hp hpart
    exact (List.prefix_concat_iff.mp hp).resolve_left hpart
  have hnil : encodeUtf8 q = [] ↔ q = [] :=
    ⟨fun h => encodeUtf8_injective h, fun h => by rw [h]; rfl⟩
  have hown : AttemptLog.logName host ∈ d.logNames :=
    mem_logNames.mpr ⟨hname, isLogName_logName host⟩
  have hdata := hheld _ hown
  rw [if_pos rfl] at hdata
  have hread : ∀ ds, (∃ d', appendCreationAttempts r.floats host d new = .ok d' ∧
      readCreationAttempts r d' = .ok ds) ↔
      ∃ logs, d.logNames.mapM (fun name => AttemptLog.readLog r
        (Function.update d.file (AttemptLog.logName host) (some (AttemptLog.bytesOf r.floats
          (held (AttemptLog.logName host)) ++ encodeUtf8 q ++ AttemptLog.bytesOf r.floats new))
          name)) = .ok logs ∧ logs.flatten = ds := by
    intro ds
    rw [appendCreationAttempts_eq hname hdata]
    constructor
    · rintro ⟨d', hd', h⟩
      cases hd'
      obtain ⟨logs, hlogs, h⟩ := bind_eq_ok.mp h
      exact ⟨logs, hlogs, pure_eq_ok.mp h⟩
    · rintro ⟨logs, hlogs, h⟩
      exact ⟨_, rfl, bind_eq_ok.mpr ⟨logs, hlogs, pure_eq_ok.mpr h⟩⟩
  have hother : ∀ name ∈ d.logNames, name ≠ AttemptLog.logName host →
      AttemptLog.readLog r (Function.update d.file (AttemptLog.logName host)
        (some (AttemptLog.bytesOf r.floats (held (AttemptLog.logName host)) ++ encodeUtf8 q ++
          AttemptLog.bytesOf r.floats new)) name) = .ok ((held name).map LoggedAttempt.stored) := by
    intro name hmem hne
    rw [Function.update_of_ne hne, hheld name hmem, if_neg hne, List.append_nil]
    exact AttemptLog.readLog_bytesOf _
  rw [hread, hnil]
  constructor
  · rintro ⟨logs, hlogs, hflat⟩
    by_contra hnot
    obtain ⟨hqne, hcond⟩ := not_or.mp hnot
    obtain ⟨ds, -, hds⟩ := mapM_ok_of_mem hlogs _ hown
    rw [Function.update_self] at hds
    cases new with
    | cons b new => exact AttemptLog.readLog_glued hq hqne ds hds
    | nil =>
      have hempty : held (AttemptLog.logName host) = [] := by
        by_contra hne
        exact hcond ⟨hne, rfl⟩
      have hbytes : AttemptLog.bytesOf r.floats [] = [] := rfl
      rw [hempty, hbytes, List.nil_append, List.append_nil] at hds
      by_cases hwhole : q = a.text r.floats
      · -- the part is read as one record too many
        have hfirst := AttemptLog.readLog_whole (r := r) a
        rw [← hwhole] at hfirst
        have hmap := hlogs
        rw [mapM_eq_map (g := fun name => if name = AttemptLog.logName host then [a.stored]
          else (held name).map LoggedAttempt.stored)] at hmap
        · rw [← Except.ok.inj hmap, ← List.flatMap_def] at hflat
          have hlength := congrArg List.length hflat
          rw [List.length_flatMap, List.length_flatMap] at hlength
          refine absurd hlength.symm (Nat.ne_of_lt (List.sum_lt_sum _ _ ?_ ⟨_, hown, ?_⟩))
          · intro name hmem
            split
            · rename_i heq
              rw [heq, hempty]
              exact Nat.zero_le _
            · rw [List.append_nil]
          · rw [if_pos rfl, if_pos rfl, hempty]
            exact Nat.zero_lt_one
        · intro name hmem
          split
          · rename_i heq
            rw [heq, Function.update_self, hempty, hbytes, List.nil_append, List.append_nil]
            exact hfirst
          · rename_i hne
            exact hother name hmem hne
      · rw [AttemptLog.readLog_part hq hqne hwhole] at hds
        cases hds
  · intro hcond
    refine ⟨_, mapM_eq_map (g := fun name =>
      (held name ++ if name = AttemptLog.logName host then new else []).map LoggedAttempt.stored) ?_,
      (List.flatMap_def ..).symm⟩
    intro name hmem
    split
    · rename_i heq
      rw [heq, Function.update_self]
      rcases hcond with rfl | ⟨hne, rfl⟩
      · have hbytes : encodeUtf8 [] = [] := rfl
        rw [hbytes, List.append_nil, ← AttemptLog.bytesOf_append]
        exact AttemptLog.readLog_bytesOf _
      · have hbytes : AttemptLog.bytesOf r.floats [] = [] := rfl
        rw [hbytes, List.append_nil, List.append_nil]
        exact AttemptLog.readLog_torn hne hq
    · rename_i hne
      rw [List.append_nil]
      exact hother name hmem hne

/-- A reader for texts without floats that takes nothing but UTF-8. -/
def plainReader : LineReader :=
  { floats := zeroFloats, foreign := fun _ => throw AttemptLog.corruptLog }

/-- An accepted attempt. -/
def sampleAttempt : LoggedAttempt where
  record :=
    { cardId := "a1b2c3d4", actor := "jarvis", outcome := .accepted
      requestDigest := String.ofList (List.replicate 64 'a') }
  ts := "2026-09-01T00:00:00Z"
  wellFormed := by decide

/-- The log of one host, with some records and what is left of another one. -/
def tornDir (held : List LoggedAttempt) (p : Bytes) : RecoveryDir :=
  { names := [AttemptLog.logName "box"]
    file := fun _ => some (AttemptLog.bytesOf zeroFloats held ++ p) }

theorem logNames_eq {d : RecoveryDir} (h : d.names = [AttemptLog.logName host]) :
    d.logNames = [AttemptLog.logName host] := by
  unfold logNames
  rw [h]
  exact List.filter_cons_of_pos (isLogName_logName host)

/-- A directory with one log holds what the log does. -/
theorem readCreationAttempts_one {d : RecoveryDir} (h : d.names = [AttemptLog.logName host]) :
    readCreationAttempts r d = AttemptLog.readLog r (d.file (AttemptLog.logName host)) := by
  unfold readCreationAttempts
  rw [logNames_eq h, List.mapM_cons, List.mapM_nil]
  cases AttemptLog.readLog r (d.file (AttemptLog.logName host)) with
  | error e => rfl
  | ok ds => exact congrArg Except.ok (List.append_nil ds)

theorem brace_prefix : ['{'] <+: sampleAttempt.text zeroFloats := by
  obtain ⟨⟨rest, htext⟩, -⟩ := LoggedAttempt.text_ends zeroFloats sampleAttempt
  rw [htext]
  exact ⟨_, rfl⟩

/-- The brace of a record that was cut is not read, where a whole record stands before it. -/
theorem attempts_survive_iff_torn :
    ∃ d', appendCreationAttempts zeroFloats "box" (tornDir [sampleAttempt] (encodeUtf8 ['{'])) [] =
        .ok d' ∧
      readCreationAttempts plainReader d' = .ok
        ((tornDir [sampleAttempt] (encodeUtf8 ['{'])).logNames.flatMap fun name =>
          ([sampleAttempt] ++ if name = AttemptLog.logName "box" then [] else []).map
            LoggedAttempt.stored) := by
  have hp : encodeUtf8 ['{'] <+: sampleAttempt.line zeroFloats := by
    obtain ⟨rest, htext⟩ := brace_prefix
    rw [AttemptLog.line_eq, ← htext, encodeUtf8_append, List.append_assoc]
    exact List.prefix_append _ _
  have hpart : encodeUtf8 ['{'] ≠ sampleAttempt.line zeroFloats := by
    intro h
    have hlast := congrArg List.getLast? h
    rw [AttemptLog.line_eq, List.getLast?_concat] at hlast
    exact absurd hlast (by decide)
  refine (@attempts_survive_iff plainReader _ "box" sampleAttempt _ (fun _ => [sampleAttempt]) []
    List.mem_cons_self ?_ hp hpart).mpr (.inr ⟨List.cons_ne_nil _ _, rfl⟩)
  intro name hname
  rw [logNames_eq rfl, List.mem_singleton] at hname
  rw [if_pos hname]
  rfl

/-- One byte of a record spoils the log with the next append, and the whole text of a first record
is read without its newline. -/
theorem torn_attempt_spoils :
    (∃ d', appendCreationAttempts zeroFloats "box"
        (tornDir [sampleAttempt] (encodeUtf8 ['{'])) [sampleAttempt] = .ok d' ∧
      ∀ ds, readCreationAttempts plainReader d' ≠ .ok ds) ∧
    readCreationAttempts plainReader
      (tornDir [] (encodeUtf8 (sampleAttempt.text zeroFloats))) = .ok [sampleAttempt.stored] := by
  constructor
  · refine ⟨_, appendCreationAttempts_eq List.mem_cons_self rfl, fun ds h => ?_⟩
    rw [@readCreationAttempts_one plainReader "box" _ rfl] at h
    dsimp only at h
    rw [Function.update_self] at h
    exact AttemptLog.readLog_glued (r := plainReader) brace_prefix (List.cons_ne_nil _ _) ds h
  · rw [@readCreationAttempts_one plainReader "box" _ rfl]
    have hbytes : AttemptLog.bytesOf zeroFloats [] = [] := rfl
    show AttemptLog.readLog plainReader (some (_ ++ _)) = _
    rw [hbytes, List.nil_append]
    exact AttemptLog.readLog_whole sampleAttempt

end RecoveryDir

end SkCoord
