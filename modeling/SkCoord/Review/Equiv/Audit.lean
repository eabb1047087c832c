import SkCoord.Review.Equiv.Once

/-!
# What the audit file tells

A record whose whole line is written behind lines that have their ends is read back with what it says
of its request (`scan_append_record`).  So in a run in which no write leaves a part of a line, the
audit file tells of a request what its call has written (`Told`).
-/

namespace SkCoord

open Python

namespace Review

variable {V : Type} {b : Broker V} {audit : List Char} {requestId : String}

/-! ### Reading a record back -/

theorem pyEq_str_reread (F : FloatText) (v : Json) (s : String) :
    (v.sortKeys.reread F).pyEq (.str s) = v.pyEq (.str s) := by
  cases v <;> rfl

theorem get_readBack {record : Dict} (hrecord : (Assoc.keys record).Nodup) (key : String) :
    Dict.get (Json.readBack b.floats record) key =
      (Dict.get record key).sortKeys.reread b.floats := by
  rw [Dict.get, Dict.get, Json.get?_readBack b.floats hrecord]
  cases Assoc.get? record key <;> rfl

/-- A record says of a request what it says when it is read back. -/
theorem outcomeAfter_readBack {record : Dict} (hrecord : (Assoc.keys record).Nodup)
    (outcome : Option String) :
    Broker.outcomeAfter requestId outcome (Json.readBack b.floats record) =
      Broker.outcomeAfter requestId outcome record := by
  unfold Broker.outcomeAfter
  rw [get_readBack hrecord, get_readBack hrecord, get_readBack hrecord, pyEq_str_reread,
    pyEq_str_reread, pyEq_str_reread]
  cases Dict.get record "outcome" <;> rfl

theorem outcomeAfter_of_ne {record : Dict} {other : String}
    (hid : Dict.get record "request_id" = .str other) (hne : other ≠ requestId)
    (outcome : Option String) : Broker.outcomeAfter requestId outcome record = outcome := by
  unfold Broker.outcomeAfter
  rw [hid]
  refine if_neg fun hsame => hne ?_
  exact Json.str.inj ((Json.pyEq_str_right_iff _ _).mp hsame)

theorem priorOutcome_append : ∀ {records : List Json} {outcome outcome' : Option String},
    Broker.priorOutcome requestId records outcome = .ok outcome' → ∀ record,
      Broker.priorOutcome requestId (records ++ [.obj record]) outcome =
        .ok (Broker.outcomeAfter requestId outcome' record)
  | [], outcome, outcome', h, record => by
    cases h
    rfl
  | .obj first :: records, outcome, outcome', h, record =>
    @priorOutcome_append records _ _ h record
  | .null :: _, _, _, h, _ => by cases h
  | .bool _ :: _, _, _, h, _ => by cases h
  | .int _ :: _, _, _, h, _ => by cases h
  | .float _ :: _, _, _, h, _ => by cases h
  | .str _ :: _, _, _, h, _ => by cases h
  | .arr _ :: _, _, _, h, _ => by cases h

theorem canonical_line (b : Broker V) (record : Dict) :
    Unbroken ((Json.obj record).canonical b.floats) ∧ (Json.obj record).canonical b.floats ≠ [] := by
  refine ⟨Json.unbroken_dumps _ _ _, fun hnil => ?_⟩
  obtain ⟨⟨rest, hrest⟩, -⟩ := Json.dumps_obj_ends b.floats .compact
    ((Json.sortFields record).insertionSort fun p q => p.1 ≤ q.1)
  cases hrest.symm.trans hnil

theorem linesEnd_append (h : LinesEnd audit) (record : Dict) :
    LinesEnd (audit ++ b.recordLine record) :=
  h.append (canonical_line b record).1 (canonical_line b record).2

/-- **A record behind lines that have their ends** is the last that the scan reads. -/
theorem scan_append_record (hends : LinesEnd audit) {record : Dict}
    (hrecord : (Assoc.keys record).Nodup) {outcome : Option String}
    (h : b.scan audit requestId = .ok outcome) :
    b.scan (audit ++ b.recordLine record) requestId =
      .ok (Broker.outcomeAfter requestId outcome record) := by
  obtain ⟨records, hrecords, hprior⟩ := scan_eq_ok h
  have hlines : fileLines (audit ++ b.recordLine record) =
      fileLines audit ++ [b.recordLine record] :=
    hends.fileLines_append (canonical_line b record).1 (canonical_line b record).2
  have hread : (fileLines (audit ++ b.recordLine record)).mapM (Json.loads b.floats) =
      some (records ++ [.obj (Json.readBack b.floats record)]) := by
    rw [hlines, List.mapM_append, hrecords, List.mapM_cons, Broker.recordLine,
      Json.loads_canonical_line]
    rfl
  unfold Broker.scan
  rw [hread]
  dsimp only
  rw [priorOutcome_append hprior, outcomeAfter_readBack hrecord]

/-! ### What a call writes -/

variable {strict : Bool} {r : ReviewRequest} {W : List Dict} {A : List (Asked V)}

theorem accepted_eq {response : V} {now : b.Time} {record : Dict}
    (h : b.accepted r response now = .ok record) :
    ∃ fields, record = b.result r "accepted" 0 fields none now := by
  obtain ⟨fields, -, h⟩ := bind_eq_ok.mp h
  obtain ⟨fields', -, h⟩ := bind_eq_ok.mp h
  exact ⟨fields', (pure_eq_ok.mp h).symm⟩

/-- What a handler records: an uncertain outcome, or the rejection of a `ValueError`. -/
theorem handled_eq {e raised : Exc} {now : b.Time} {record : Dict}
    (h : b.handled r e now = some (record, raised)) : ∃ outcome exitStatus error,
      record = b.result r outcome exitStatus [] error now ∧
        (outcome = "uncertain" ∨ outcome = "rejected" ∧ e.cls = .value) := by
  unfold Broker.handled at h
  split at h
  · cases h
    exact ⟨_, _, _, rfl, .inl rfl⟩
  · rename_i hcls
    cases h
    exact ⟨_, _, _, rfl, .inr ⟨rfl, hcls⟩⟩
  · cases h
    exact ⟨_, _, _, rfl, .inl rfl⟩
  · cases h

theorem keys_result (outcome : String) (exitStatus : ℤ) (response : Dict) (error : Option String)
    (now : b.Time) :
    (Assoc.keys (b.result r outcome exitStatus response error now)).Nodup := by
  have hkeys : ∀ rest : Dict, rest = [] ∨ (∃ v, rest = [("error", v)]) →
      (Assoc.keys ([("type", Json.null), ("request_id", .null), ("caller", .null),
        ("repository", .null), ("pull_request", .null), ("head", .null), ("evidence_hash", .null),
        ("preflight_hash", .null), ("preflight_digest", .null), ("decision", .null),
        ("reviewer", .null), ("github_review_identity", .null), ("response", .null),
        ("timestamp", .null), ("exit_status", .null), ("outcome", .null)] ++ rest)).Nodup := by
    rintro rest (rfl | ⟨v, rfl⟩)
    · show ["type", "request_id", "caller", "repository", "pull_request", "head", "evidence_hash",
        "preflight_hash", "preflight_digest", "decision", "reviewer", "github_review_identity",
        "response", "timestamp", "exit_status", "outcome"].Nodup
      decide
    · show ["type", "request_id", "caller", "repository", "pull_request", "head", "evidence_hash",
        "preflight_hash", "preflight_digest", "decision", "reviewer", "github_review_identity",
        "response", "timestamp", "exit_status", "outcome", "error"].Nodup
      decide
  cases error with
  | none => exact hkeys [] (.inl rfl)
  | some message =>
    unfold Broker.result
    dsimp only
    split
    · exact hkeys [] (.inl rfl)
    · exact hkeys _ (.inr ⟨_, rfl⟩)

/-- Every record of a call has each key once, and the identifier of its request. -/
theorem Over.records (h : Over b strict r W A) : ∀ record ∈ W,
    (Assoc.keys record).Nodup ∧ Dict.get record "request_id" = .str r.requestId := by
  have hreservation : ∀ (digest : String) (now : b.Time),
      (Assoc.keys (b.reservation r digest now)).Nodup ∧
        Dict.get (b.reservation r digest now) "request_id" = .str r.requestId :=
    fun digest now => ⟨reservation_wellFormed.1, rfl⟩
  have hinside : ∀ {W A}, Inside b r W A → ∀ record ∈ W,
      (Assoc.keys record).Nodup ∧ Dict.get record "request_id" = .str r.requestId := by
    intro W A h
    cases h with
    | reserved _ => exact List.forall_mem_singleton.mpr (hreservation _ _)
    | accepted _ _ hrecord =>
      obtain ⟨fields, rfl⟩ := accepted_eq hrecord
      exact List.forall_mem_cons.mpr ⟨⟨keys_result _ _ _ _ _, rfl⟩,
        List.forall_mem_singleton.mpr (hreservation _ _)⟩
  cases h with
  | nothing => exact fun record hmem => (List.not_mem_nil hmem).elim
  | inside h => exact hinside h
  | handled h hrecord _ =>
    obtain ⟨outcome, exitStatus, error, rfl, -⟩ := handled_eq hrecord
    exact List.forall_mem_cons.mpr ⟨⟨keys_result _ _ _ _ _, rfl⟩, hinside h⟩

/-- A write leaves no part of a line. -/
def Write.LeavesNoPart : Write → Prop
  | .fails left _ => left = []
  | _ => True

/-- A step leaves no part of a line. -/
def Step.LeavesNoPart : Step b → Prop
  | .reserve _ w => w.LeavesNoPart
  | .accept _ w => w.LeavesNoPart
  | .handle _ w => w.LeavesNoPart
  | _ => True

/-- A label leaves no part of a line in the audit file: neither a write that fails nor a process
that dies in a write. -/
def LeavesNoPart (b : Broker V) (s : System V) : Label b → Prop
  | .step _ st => st.LeavesNoPart
  | .die i left => ∀ c, s.calls[i]? = some c → c.phase.inTransaction = true → left = []
  | _ => True

/-- **What a step writes**: the line of one record, or nothing. Three phases of a call write, and
each through the same move. -/
theorem next_text {free : Bool} {c : Call V} {st : Step b} {m : Move V}
    (hm : c.next b audit free st = some m) (hst : st.LeavesNoPart) :
    (∃ record, m.record = some record ∧ m.text = b.recordLine record) ∨
      m.record = none ∧ m.text = [] := by
  have hturn := Call.next_turn hm
  obtain ⟨r, phase⟩ := c
  dsimp only at hturn
  -- The move that writes: its line is there, also where the flush behind it failed, unless the
  -- write itself did.
  have hwrite : ∀ (record : Dict) (next : Phase V) (failed : Exc → Phase V) {w : Write},
      w.LeavesNoPart →
        (∃ record', (Move.write b record next failed w).record = some record' ∧
          (Move.write b record next failed w).text = b.recordLine record') ∨
        (Move.write b record next failed w).record = none ∧
          (Move.write b record next failed w).text = [] := by
    intro record next failed w hw
    cases w with
    | done => exact .inl ⟨record, rfl, rfl⟩
    | unsynced e => exact .inl ⟨record, rfl, rfl⟩
    | fails left e => exact .inr ⟨rfl, hw⟩
  cases hturn with
  | reserve _ _ | accept _ _ | handle _ _ => exact hwrite _ _ _ hst
  | _ => exact .inr ⟨rfl, rfl⟩

/-! ### Runs -/

/-- What the records of one call make of its request. -/
def outcomeOf (requestId : String) (W : List Dict) : Option String :=
  W.foldr (fun record outcome => Broker.outcomeAfter requestId outcome record) none


/-- The audit file tells of a request what its call has written; if it can be read, every line has
its end. -/
structure Told (b : Broker V) (s : System V) : Prop where
  ends : ∀ (requestId : String) (outcome : Option String),
    b.scan s.audit requestId = .ok outcome → LinesEnd s.audit
  told : ∀ (i : ℕ) (c : Call V), s.calls[i]? = some c → s.writtenBy i ≠ [] →
    b.scan s.audit c.request.requestId = .ok (outcomeOf c.request.requestId (s.writtenBy i))

variable {s : System V} {i : ℕ} {c : Call V} {m : Move V}

theorem writtenBy_ne_nil_of_record {record : Dict} (h : m.record = some record) :
    (s.apply i c m).writtenBy i ≠ [] := by
  rw [writtenBy_apply_self, h]
  exact List.cons_ne_nil _ _

/-- **A step that writes no part of a line** is told. -/
theorem Told.apply (h : Told b s) (hsafe : Safe b strict s) (hc : s.calls[i]? = some c)
    (hm : Sound b strict s i c m)
    (htext : (∃ record, m.record = some record ∧ m.text = b.recordLine record) ∨
      m.record = none ∧ m.text = []) : Told b (s.apply i c m) := by
  have hafter : Safe b strict (s.apply i c m) := hsafe.apply hc hm
  rcases htext with ⟨record, hrecord, htext⟩ | ⟨hrecord, htext⟩
  · have haudit : (s.apply i c m).audit = s.audit ++ b.recordLine record := by
      rw [← htext]
      rfl
    have hwritten : (s.apply i c m).writtenBy i = record :: s.writtenBy i := by
      rw [writtenBy_apply_self, hrecord]
      rfl
    obtain ⟨hkeys, hid⟩ := (hafter.calls i _ (calls_apply_self hc)).over.records record
      (hwritten ▸ List.mem_cons_self)
    -- what the audit file told of the request before
    have hbefore : b.scan s.audit c.request.requestId =
        .ok (outcomeOf c.request.requestId (s.writtenBy i)) := by
      by_cases hnone : s.writtenBy i = []
      · obtain ⟨digest, -, -, hphase, -⟩ := hm.first (hrecord ▸ Option.some_ne_none record) hnone
        rw [hnone]
        exact hsafe.reserving i c digest hc hphase
      · exact h.told i c hc hnone
    have hends : LinesEnd s.audit := h.ends _ _ hbefore
    refine ⟨fun _ _ _ => haudit ▸ linesEnd_append hends record, fun j d hd hwrote => ?_⟩
    rw [haudit]
    rcases calls_apply hc hd with ⟨rfl, rfl⟩ | ⟨hne, hdold⟩
    · rw [hwritten]
      exact scan_append_record hends hkeys hbefore
    · have hother : c.request.requestId ≠ d.request.requestId := fun heq => hne
        (hafter.unique j i d _ hd (calls_apply_self hc) hwrote
          (writtenBy_ne_nil_of_record hrecord) heq.symm)
      rw [writtenBy_apply_ne hne] at hwrote ⊢
      rw [scan_append_record hends hkeys (h.told j d hdold hwrote), outcomeAfter_of_ne hid hother]
  · have haudit : (s.apply i c m).audit = s.audit := by
      show s.audit ++ m.text = s.audit
      rw [htext, List.append_nil]
    have hwritten : ∀ j, (s.apply i c m).writtenBy j = s.writtenBy j := by
      intro j
      by_cases hj : j = i
      · rw [hj, writtenBy_apply_self, hrecord]
        rfl
      · exact writtenBy_apply_ne hj
    refine ⟨fun requestId outcome hscan => haudit ▸ h.ends requestId outcome (haudit ▸ hscan),
      fun j d hd hwrote => ?_⟩
    rw [hwritten] at hwrote ⊢
    rw [haudit]
    rcases calls_apply hc hd with ⟨rfl, rfl⟩ | ⟨-, hd⟩
    · exact h.told j c hc hwrote
    · exact h.told j d hd hwrote

/-- **One label** that leaves no part of a line is told. -/
theorem Told.step (h : Told b s) (hsafe : Safe b strict s) (label : Label b)
    (hvalue : strict = true → RaisesNoValue b s label) (hlabel : LeavesNoPart b s label) :
    Told b (s.step b label) := by
  unfold System.step
  split
  · rename_i request uuid
    refine ⟨h.ends, fun j d hd hwrote => ?_⟩
    have hlt : j < s.calls.length := by
      by_contra hge
      exact hwrote (hsafe.fresh j (Nat.le_of_not_lt hge)).1
    exact h.told j d ((List.getElem?_append_left hlt).symm.trans hd) hwrote
  · exact ⟨h.ends, h.told⟩
  · rename_i i left
    split
    · exact h
    · rename_i c hc
      split
      · exact h
      · refine h.apply hsafe hc (hsafe.sound_dies hc left) (.inr ⟨rfl, ?_⟩)
        unfold System.diesLeaving
        dsimp only
        split
        · rename_i hin
          exact hlabel c hc hin
        · rfl
  · rename_i i st
    split
    · exact h
    · rename_i c hc
      split
      · exact h
      · rename_i m hm
        exact h.apply hsafe hc (hsafe.sound_next hc hm fun hstrict => hvalue hstrict c hc)
          (next_text hm hlabel)

/-- **Every run** in which no write leaves a part of a line is told. -/
theorem Told.run : ∀ (labels : List (Label b)) {s : System V}, Told b s → Safe b true s →
    s.StepsMeet b (fun s label => RaisesNoValue b s label ∧ LeavesNoPart b s label) labels →
      Told b (s.run b labels) ∧ Safe b true (s.run b labels)
  | [], _, h, hsafe, _ => ⟨h, hsafe⟩
  | label :: labels, s, h, hsafe, hmeet => by
    obtain ⟨⟨hvalue, hlabel⟩, hmeet⟩ := hmeet
    show Told b ((s.step b label).run b labels) ∧ Safe b true ((s.step b label).run b labels)
    exact Told.run labels (h.step hsafe label (fun _ => hvalue) hlabel)
      (hsafe.step label fun _ => hvalue) hmeet

end Review

end SkCoord
