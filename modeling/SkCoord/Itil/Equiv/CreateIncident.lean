import SkCoord.Itil.CreateIncident
import SkCoord.Itil.Equiv.Records
import SkCoord.Itil.Equiv.Timeline
import SkCoord.Python.TornLine

/-!
# A detected outage is an open incident

An append puts its event behind all others, where the log of its writer is a text of whole lines and
nothing is dated behind it (`appendEvent_spec`).  So the events of a call are the last turns of
the fold, and none of them but a reopening changes the status.  `createIncident_open_iff`: the call
shows an open incident that names the service when the record does before it, or is resolved and
reopened; a closed record stays closed.
-/

namespace SkCoord.Itil

open Python

variable {m : Machine} {r : Reader} {d : RecordDir} {tree : RecordTree} {call : IncidentCall}

/-! ### One more line in a log -/

/-- A dictionary of texts, lists of texts and integers below a limit. -/
def Shallow (limit : ℕ) (e : Dict) : Prop :=
  ∀ p ∈ e, (∃ s, p.2 = .str s) ∨ (∃ l : List String, p.2 = .arr (l.map .str)) ∨
    ∃ n : ℕ, p.2 = .int n ∧ n < limit

/-- The interpreter reads what is written of such dictionaries. -/
structure Reader.ReadsShallow (r : Reader) (limit : ℕ) : Prop where
  core : ∀ e : Dict, Shallow limit e →
    r.refusal ((Json.obj e).pretty r.floats 0 ++ ['\n']) = none
  event : ∀ e : Dict, Shallow limit e → r.refusal ((Json.obj e).dumps r.floats .spaced) = none

/-- A log that can be read: a text whose JSON lines hold objects. -/
structure Reader.LogReadable (r : Reader) (content : Bytes) : Prop where
  decoded : ∃ text, decodeUtf8 content = some text ∧
    ∀ line ∈ nonBlankLines text, r.refusal line = none
  objects : ∀ v ∈ r.values content, ∃ e, v = .obj e

theorem readable_iff : d.Readable r ↔ (∀ log ∈ d.sortedLogs, r.LogReadable log.2) ∧
    (d.objects r).Pairwise fun a b => SortKey.Comparable (recordKey a) (recordKey b) :=
  ⟨fun h => ⟨fun log hlog => ⟨h.decoded log hlog, h.objects log hlog⟩, h.ordered⟩,
    fun h => ⟨fun log hlog => (h.1 log hlog).decoded, fun log hlog => (h.1 log hlog).objects, h.2⟩⟩

/-- The line of an event. -/
def lineOf (r : Reader) (e : Dict) : List Char := (Json.obj e).dumps r.floats .spaced ++ ['\n']

section

variable {content : Bytes} {text : List Char} {e : Dict}

theorem values_append (hdecode : decodeUtf8 content = some text) (hwhole : WholeLines text)
    (he : (Json.obj e).WellFormed r.floats) :
    r.values (content ++ encodeUtf8 (lineOf r e)) = r.values content ++ [.obj e] := by
  unfold Reader.values
  rw [decodeUtf8_append hdecode, hdecode]
  simp only [Option.map_some, Option.getD_some]
  rw [lineOf, hwhole.nonBlankLines_append (isLine_dumps _ _ e), List.filterMap_append,
    List.filterMap_cons, Json.loads_dumps _ _ he]
  rfl

theorem logReadable_append (hdecode : decodeUtf8 content = some text) (hwhole : WholeLines text)
    (he : (Json.obj e).WellFormed r.floats)
    (hrefusal : r.refusal ((Json.obj e).dumps r.floats .spaced) = none) :
    r.LogReadable (content ++ encodeUtf8 (lineOf r e)) ↔ r.LogReadable content := by
  have hlines := hwhole.nonBlankLines_append (isLine_dumps r.floats .spaced e)
  constructor
  · rintro ⟨⟨text', hdecode', hread⟩, hobjects⟩
    rw [decodeUtf8_append hdecode, lineOf] at hdecode'
    cases hdecode'
    rw [values_append hdecode hwhole he] at hobjects
    refine ⟨⟨text, hdecode, fun line hline => hread line ?_⟩, fun v hv =>
      hobjects v (List.mem_append_left _ hv)⟩
    rw [hlines]
    exact List.mem_append_left _ hline
  · rintro ⟨⟨text', hdecode', hread⟩, hobjects⟩
    rw [hdecode] at hdecode'
    cases hdecode'
    refine ⟨⟨text ++ lineOf r e, decodeUtf8_append hdecode _, fun line hline => ?_⟩, fun v hv => ?_⟩
    · rw [lineOf, hlines, List.mem_append, List.mem_singleton] at hline
      rcases hline with hline | rfl
      · exact hread line hline
      · exact hrefusal
    · rw [values_append hdecode hwhole he, List.mem_append, List.mem_singleton] at hv
      rcases hv with hv | rfl
      · exact hobjects v hv
      · exact ⟨e, rfl⟩

end

/-! ### One more line in a directory -/

/-- The directory with one more line in a log. -/
def RecordDir.appendLine (r : Reader) (d : RecordDir) (file : String) (e : Dict) : RecordDir :=
  { d with logs := Assoc.set d.logs file (d.log file ++ encodeUtf8 (lineOf r e)) }

/-- The log of a writer: it is a text of whole lines under a name of its own. -/
structure RecordDir.OwnLog (d : RecordDir) (file : String) (text : List Char) : Prop where
  nodup : (Assoc.keys d.logs).Nodup
  name : endsWith file ".jsonl" = true
  decoded : decodeUtf8 (d.log file) = some text
  whole : WholeLines text

theorem mem_sortedLogs {log : String × Bytes} :
    log ∈ d.sortedLogs ↔ log ∈ d.logs ∧ endsWith log.1 ".jsonl" = true := by
  rw [RecordDir.sortedLogs, List.mem_insertionSort, List.mem_filter]

/-- The events of a log. -/
def Reader.contentEvents (r : Reader) (content : Bytes) : List RecordEvent :=
  (r.values content).filterMap fun
    | .obj e => some e
    | _ => none

theorem objects_eq (d : RecordDir) : d.objects r =
    readByName (fun log => r.contentEvents log.2) (fun name => endsWith name ".jsonl") d.logs := by
  rw [RecordDir.objects, List.filterMap_flatMap]
  rfl

namespace RecordDir.OwnLog

variable {file : String} {text : List Char} {e : Dict} (h : d.OwnLog file text)

include h

/-- The log is that of the directory with the line behind it. -/
theorem appendLine (r : Reader) (e : Dict) :
    (d.appendLine r file e).OwnLog file (text ++ lineOf r e) where
  nodup := Assoc.nodup_keys_set h.nodup _ _
  name := h.name
  decoded := by
    rw [log, RecordDir.appendLine, Assoc.get?_set_self, Option.getD_some]
    exact decodeUtf8_append h.decoded _
  whole := .append _ _

variable (he : (Json.obj e).WellFormed r.floats)

include he

/-- One more line is one more event. -/
theorem objects_appendLine : ∃ p q, d.objects r = p ++ q ∧
    (d.appendLine r file e).objects r = p ++ e :: q := by
  obtain ⟨p, q, hold, hnew⟩ := readByName_set (c := fun name => endsWith name ".jsonl")
    (fun log : String × Bytes => r.contentEvents log.2) h.nodup h.name
    (d.log file ++ encodeUtf8 (lineOf r e))
  have hlog : ((Assoc.get? d.logs file).elim [] fun w => r.contentEvents w) =
      r.contentEvents (d.log file) := by
    unfold log
    cases Assoc.get? d.logs file <;> rfl
  refine ⟨p ++ r.contentEvents (d.log file), q, ?_, ?_⟩
  · rw [objects_eq, hold, hlog]
  · rw [objects_eq, RecordDir.appendLine, hnew, Reader.contentEvents,
      values_append h.decoded h.whole he, List.filterMap_append, List.append_assoc,
      List.append_assoc, List.append_assoc]
    rfl

/-- **One more line** leaves a directory as readable as it was. -/
theorem readable_appendLine
    (hrefusal : r.refusal ((Json.obj e).dumps r.floats .spaced) = none)
    (hcomparable : ∀ x ∈ d.objects r, SortKey.Comparable (recordKey x) (recordKey e) ∧
      SortKey.Comparable (recordKey e) (recordKey x)) :
    (d.appendLine r file e).Readable r ↔ d.Readable r := by
  have happend := logReadable_append h.decoded h.whole he hrefusal
  have hget : ∀ log ∈ d.logs, Assoc.get? d.logs log.1 = some log.2 := fun log hlog =>
    Assoc.get?_of_mem h.nodup hlog
  have hset := Assoc.get?_set_self d.logs file (d.log file ++ encodeUtf8 (lineOf r e))
  -- log by log: the one that got the line, and the others
  have hlogs : (∀ log ∈ (d.appendLine r file e).sortedLogs, r.LogReadable log.2) ↔
      ∀ log ∈ d.sortedLogs, r.LogReadable log.2 := by
    simp only [mem_sortedLogs]
    constructor
    · rintro hnew ⟨name, content⟩ ⟨hlog, hname⟩
      by_cases hfile : name = file
      · have hcontent : d.log file = content := by
          rw [RecordDir.log, ← hfile, hget _ hlog, Option.getD_some]
        rw [← hcontent, ← happend]
        exact hnew _ ⟨Assoc.mem_of_get? hset, h.name⟩
      · refine hnew _ ⟨Assoc.mem_of_get? ?_, hname⟩
        rw [RecordDir.appendLine, Assoc.get?_set_ne _ _ hfile]
        exact hget _ hlog
    · rintro hold ⟨name, content⟩ ⟨hlog, hname⟩
      rcases Assoc.mem_set hlog with heq | hlog
      · cases heq
        rw [happend]
        cases hfile : Assoc.get? d.logs file with
        | some content =>
          rw [RecordDir.log, hfile, Option.getD_some]
          exact hold _ ⟨Assoc.mem_of_get? hfile, h.name⟩
        | none =>
          rw [RecordDir.log, hfile, Option.getD_none]
          exact ⟨⟨[], rfl, fun line hline => absurd hline List.not_mem_nil⟩,
            fun v hv => absurd hv List.not_mem_nil⟩
      · exact hold _ ⟨hlog, hname⟩
  rw [readable_iff, readable_iff, hlogs, and_congr_right_iff]
  intro _
  -- the events must be comparable in pairs, and the new one is so with all others
  obtain ⟨p, q, hold, hnew⟩ := h.objects_appendLine he
  rw [hold] at hcomparable ⊢
  rw [hnew]
  constructor
  · exact List.Pairwise.sublist
      (List.Sublist.append (List.Sublist.refl p) (List.sublist_cons_self e q))
  · intro hpairs
    obtain ⟨hp, hq, hpq⟩ := List.pairwise_append.mp hpairs
    refine List.pairwise_append.mpr ⟨hp, List.pairwise_cons.mpr ⟨fun x hx => ?_, hq⟩, ?_⟩
    · exact (hcomparable x (List.mem_append_right _ hx)).2
    · intro x hx y hy
      rcases List.mem_cons.mp hy with rfl | hy
      · exact (hcomparable x (List.mem_append_left _ hx)).1
      · exact hpq x hx y hy

end RecordDir.OwnLog

/-! ### The order of the events -/

/-- An event comes before what an agent appends at a time behind `seq` lines. -/
def Earlier (m : Machine) (agent ts : String) (seq : ℕ) (x : RecordEvent) : Prop :=
  (∃ t, x.getD "ts" (.str "") = .str t ∧ t < ts) ∨
    ∃ (t : String) (n : ℕ),
      recordKey x = .ofValues [.str t, .str m.hostname, .str agent, .int n] ∧ t ≤ ts ∧ n < seq

/-- Keys that begin with texts go by the texts. -/
theorem lt_of_text_lt {s t : String} (hst : s < t) (k l : List Json) :
    SortKey.ofValues (.str s :: k) < SortKey.ofValues (.str t :: l) ∧
      SortKey.Comparable (SortKey.ofValues (.str s :: k)) (SortKey.ofValues (.str t :: l)) ∧
      SortKey.Comparable (SortKey.ofValues (.str t :: l)) (SortKey.ofValues (.str s :: k)) := by
  have hlt := SortToken.text_lt hst
  refine ⟨List.Lex.rel hlt, ?_, ?_⟩
  · show (if _ then _ else _) = true
    rw [if_neg hlt.ne]
    rfl
  · show (if _ then _ else _) = true
    rw [if_neg hlt.ne']
    rfl

theorem Earlier.key {agent ts : String} {seq : ℕ} {x e : RecordEvent}
    (h : Earlier m agent ts seq x)
    (he : recordKey e = .ofValues [.str ts, .str m.hostname, .str agent, .int seq]) :
    recordKey x < recordKey e ∧ SortKey.Comparable (recordKey x) (recordKey e) ∧
      SortKey.Comparable (recordKey e) (recordKey x) := by
  rcases h with ⟨t, hx, hlt⟩ | ⟨t, n, hx, hle, hn⟩
  · rw [he, recordKey, hx]
    exact lt_of_text_lt hlt _ _
  · rw [he, hx]
    rcases hle.lt_or_eq with hlt | rfl
    · exact lt_of_text_lt hlt _ _
    · have hseq : ((n : ℤ) : ℚ) < ((seq : ℤ) : ℚ) := by exact_mod_cast hn
      have hlt := SortToken.number_lt hseq
      refine ⟨.cons (.cons (.cons (.rel hlt))), ?_, ?_⟩
      · simp [SortKey.Comparable, SortKey.comparable, SortKey.ofValues, Json.sortKey]
        exact .inr rfl
      · simp [SortKey.Comparable, SortKey.comparable, SortKey.ofValues, Json.sortKey]
        exact .inr rfl

theorem Earlier.mono {agent ts ts' : String} {seq seq' : ℕ} {x : RecordEvent} (hts : ts ≤ ts')
    (hseq : seq ≤ seq') (h : Earlier m agent ts seq x) : Earlier m agent ts' seq' x := by
  rcases h with ⟨t, hx, hlt⟩ | ⟨t, n, hx, hle, hn⟩
  · exact .inl ⟨t, hx, hlt.trans_le hts⟩
  · exact .inr ⟨t, n, hx, hle.trans hts, hn.trans_le hseq⟩

/-- **The latest event** is read behind all others. -/
theorem readEvents_appendLine {file : String} {text : List Char} {e : Dict}
    (h : d.OwnLog file text) (he : (Json.obj e).WellFormed r.floats)
    (hrefusal : r.refusal ((Json.obj e).dumps r.floats .spaced) = none)
    (hlast : ∀ x ∈ d.objects r, recordKey x < recordKey e ∧
      SortKey.Comparable (recordKey x) (recordKey e) ∧
      SortKey.Comparable (recordKey e) (recordKey x)) {events : List RecordEvent}
    (hread : readEvents r d = .ok events) :
    readEvents r (d.appendLine r file e) = .ok (events ++ [e]) := by
  have hreadable := (h.readable_appendLine he hrefusal fun x hx => (hlast x hx).2).mpr
    (exists_readEvents_iff.mp ⟨events, hread⟩)
  obtain ⟨events', hread'⟩ := exists_readEvents_iff.mpr hreadable
  rw [hread', readEvents_eq hread, readEvents_eq hread']
  obtain ⟨p, q, hold, hnew⟩ := h.objects_appendLine he
  rw [hold] at hlast ⊢
  rw [hnew]
  exact congrArg Except.ok (insertionSort_insert_top _ fun x hx => not_le.mpr (hlast x hx).1)

/-! ### One more event in the fold -/

section

variable {env : Env} {core : Dict} {s s' : IncidentState} {e : RecordEvent} {i : Incident}
  {events : List RecordEvent}

/-- Variables from which a record is made when it is made from others. -/
structure Builds (s s' : IncidentState) : Prop where
  severity : s'.severity = s.severity
  title : s'.title = s.title
  managedBy : s'.managedBy = s.managedBy
  acknowledgedAt : s'.acknowledgedAt = s.acknowledgedAt
  resolvedAt : s'.resolvedAt = s.resolvedAt ∨ s'.resolvedAt = .null
  closedAt : s'.closedAt = s.closedAt
  relatedProblemId : s'.relatedProblemId = s.relatedProblemId
  gtdIds : s'.gtdIds = s.gtdIds ∨ ∃ g, s'.gtdIds = s.gtdIds ++ [.str g]
  resolutionSummary : s'.resolutionSummary = s.resolutionSummary ∨ s'.resolutionSummary = .null
  tags : s'.tags = s.tags

/-- A record names the same service as another. -/
structure SameService (i i' : Incident) : Prop where
  affectedServices : i'.affectedServices = i.affectedServices
  title : i'.title = i.title

theorem SameService.trans {i₁ i₂ i₃ : Incident} (h : SameService i₁ i₂) (h' : SameService i₂ i₃) :
    SameService i₁ i₃ :=
  ⟨h'.affectedServices.trans h.affectedServices, h'.title.trans h.title⟩

theorem buildIncident_builds (h : buildIncident env core s = .ok i) (hs : Builds s s') :
    ∃ i', buildIncident env core s' = .ok i' ∧ i'.status = s'.status ∧ SameService i i' := by
  unfold buildIncident at h ⊢
  simp only [bind_eq_ok, pure_eq_ok] at h ⊢
  obtain ⟨id, hid, severity, hseverity, services, hservices, idText, hidText, title, htitle,
    source, hsource, impact, himpact, managedBy, hmanaged, createdBy, hcreated, detected, hdetected,
    acknowledged, hacknowledged, resolved, hresolved, closed, hclosed, problem, hproblem, gtd, hgtd,
    summary, hsummary, tags, htags, rfl⟩ := h
  rw [hs.severity, hs.title, hs.managedBy, hs.acknowledgedAt, hs.closedAt, hs.relatedProblemId,
    hs.tags]
  obtain ⟨resolved', hresolved'⟩ : ∃ o,
      optionalTextOf "Incident" "resolved_at" s'.resolvedAt = .ok o := by
    rcases hs.resolvedAt with h | h <;> rw [h]
    · exact ⟨_, hresolved⟩
    · exact ⟨_, rfl⟩
  obtain ⟨summary', hsummary'⟩ : ∃ o,
      optionalTextOf "Incident" "resolution_summary" s'.resolutionSummary = .ok o := by
    rcases hs.resolutionSummary with h | h <;> rw [h]
    · exact ⟨_, hsummary⟩
    · exact ⟨_, rfl⟩
  obtain ⟨gtd', hgtd'⟩ : ∃ l, s'.gtdIds.mapM (textOf "Incident" "gtd_item_ids") = .ok l := by
    rcases hs.gtdIds with h | ⟨g, h⟩ <;> rw [h]
    · exact ⟨_, hgtd⟩
    · refine exists_mapM_ok fun v hv => ?_
      rcases List.mem_append.mp hv with hv | hv
      · obtain ⟨t, -, ht⟩ := mapM_ok_of_mem hgtd v hv
        exact ⟨t, ht⟩
      · rw [List.mem_singleton.mp hv]
        exact ⟨g, rfl⟩
  exact ⟨_, ⟨id, hid, severity, hseverity, services, hservices, idText, hidText, title, htitle,
    source, hsource, impact, himpact, managedBy, hmanaged, createdBy, hcreated, detected, hdetected,
    acknowledged, hacknowledged, resolved', hresolved', closed, hclosed, problem, hproblem, gtd',
    hgtd', summary', hsummary', tags, htags, rfl⟩, rfl, rfl, rfl⟩

theorem foldIncident_eq (env : Env) (core : Dict) (events : List RecordEvent) :
    foldIncident env core events = loopIncident env core events >>= buildIncident env core := by
  unfold foldIncident loopIncident
  cases initIncident core <;> rfl

theorem loopIncident_concat (env : Env) (core : Dict) (events : List RecordEvent)
    (e : RecordEvent) :
    loopIncident env core (events ++ [e]) = loopIncident env core events >>= (·.step env e) := by
  unfold loopIncident
  cases initIncident core with
  | error _ => rfl
  | ok s =>
    show (events ++ [e]).foldlM (IncidentState.step env) s = _
    rw [List.foldlM_append]
    refine congrArg (_ >>= ·) (funext fun t => ?_)
    rw [List.foldlM_cons]
    cases t.step env e <;> rfl

/-- A turn of the loop that builds on the variables before it. -/
theorem foldIncident_concat {f : IncidentState → IncidentState}
    (hstep : ∀ s : IncidentState, s.step env e = .ok (f s))
    (hbuilds : ∀ s : IncidentState, i.status = s.status → Builds s (f s))
    (h : foldIncident env core events = .ok i) :
    ∃ (s : IncidentState) (i' : Incident), foldIncident env core (events ++ [e]) = .ok i' ∧
      i.status = s.status ∧ i'.status = (f s).status ∧ SameService i i' := by
  rw [foldIncident_eq] at h
  obtain ⟨s, hs, hbuild⟩ := bind_eq_ok.mp h
  have hstatus := (buildIncident_shows hbuild).status
  obtain ⟨i', hbuild', hstatus', hsame⟩ := buildIncident_builds hbuild (hbuilds s hstatus)
  refine ⟨s, i', ?_, hstatus, hstatus', hsame⟩
  rw [foldIncident_eq, loopIncident_concat, hs, ok_bind, hstep, ok_bind, hbuild']

theorem builds_foldCreated (s : IncidentState) (e : RecordEvent) :
    Builds s (s.foldCreated e) ∧ Builds (s.foldCreated e) s ∧
      (s.foldCreated e).status = s.status := by
  unfold IncidentState.foldCreated
  split <;> exact ⟨⟨rfl, rfl, rfl, rfl, .inl rfl, rfl, rfl, .inl rfl, .inl rfl, rfl⟩,
    ⟨rfl, rfl, rfl, rfl, .inl rfl, rfl, rfl, .inl rfl, .inl rfl, rfl⟩, rfl⟩

theorem builds_foldReopen (hs : s.status = .resolved) (e : RecordEvent) :
    Builds s (s.foldReopen e) ∧ (s.foldReopen e).status = .investigating := by
  unfold IncidentState.foldReopen
  rw [hs, if_pos (beq_self_eq_true _)]
  exact ⟨⟨rfl, rfl, rfl, rfl, .inr rfl, rfl, rfl, .inl rfl, .inr rfl, rfl⟩, rfl⟩

theorem builds_foldGtdLink {g : String} (hid : e.get "id" = .str g) (s : IncidentState) :
    Builds s (s.foldGtdLink e) ∧ (s.foldGtdLink e).status = s.status := by
  have hsame : Builds s s :=
    ⟨rfl, rfl, rfl, rfl, .inl rfl, rfl, rfl, .inl rfl, .inl rfl, rfl⟩
  unfold IncidentState.foldGtdLink
  rw [hid]
  split
  · refine ⟨{ hsame with gtdIds := ?_ }, rfl⟩
    unfold ChangeState.addNew
    split
    · exact .inl rfl
    · exact .inr ⟨g, rfl⟩
  · exact ⟨hsame, rfl⟩

/-- An event of the creation leaves an incident in its status. -/
theorem foldIncident_created (hkind : e.get "kind" = .str "created") :
    (∀ i, foldIncident env core events = .ok i → ∃ i',
        foldIncident env core (events ++ [e]) = .ok i' ∧ i'.status = i.status ∧ SameService i i') ∧
      ∀ i', foldIncident env core (events ++ [e]) = .ok i' →
        ∃ i, foldIncident env core events = .ok i := by
  have hstep : ∀ s : IncidentState, s.step env e = .ok (s.foldCreated e) := by
    intro s
    unfold IncidentState.step
    rw [hkind]
    rfl
  constructor
  · intro i h
    obtain ⟨s, i', hfold, hstatus, hstatus', hsame⟩ :=
      foldIncident_concat hstep (fun s _ => (builds_foldCreated s e).1) h
    exact ⟨i', hfold, by rw [hstatus', (builds_foldCreated s e).2.2, hstatus], hsame⟩
  · intro i' h
    rw [foldIncident_eq, loopIncident_concat] at h
    obtain ⟨s', hs', hbuild⟩ := bind_eq_ok.mp h
    obtain ⟨s, hs, hs'⟩ := bind_eq_ok.mp hs'
    rw [hstep] at hs'
    cases hs'
    obtain ⟨i, hi, -⟩ := buildIncident_builds hbuild (builds_foldCreated s e).2.1
    exact ⟨i, by rw [foldIncident_eq, hs, ok_bind, hi]⟩

/-- A resolved incident is under investigation again. -/
theorem foldIncident_reopen (hkind : e.get "kind" = .str "reopen")
    (h : foldIncident env core events = .ok i) (hresolved : i.status = .resolved) :
    ∃ i', foldIncident env core (events ++ [e]) = .ok i' ∧ i'.status = .investigating ∧
      SameService i i' := by
  have hstep : ∀ s : IncidentState, s.step env e = .ok (s.foldReopen e) := by
    intro s
    unfold IncidentState.step
    rw [hkind]
    rfl
  obtain ⟨s, i', hfold, hstatus, hstatus', hsame⟩ :=
    foldIncident_concat hstep (fun s hs => (builds_foldReopen (hs ▸ hresolved) e).1) h
  exact ⟨i', hfold, hstatus'.trans (builds_foldReopen (hstatus ▸ hresolved) e).2, hsame⟩

/-- A link to a GTD item leaves an incident in its status. -/
theorem foldIncident_gtdLink {g : String} (hkind : e.get "kind" = .str "gtd_link")
    (hid : e.get "id" = .str g) (h : foldIncident env core events = .ok i) :
    ∃ i', foldIncident env core (events ++ [e]) = .ok i' ∧ i'.status = i.status ∧
      SameService i i' := by
  have hstep : ∀ s : IncidentState, s.step env e = .ok (s.foldGtdLink e) := by
    intro s
    unfold IncidentState.step
    rw [hkind]
    rfl
  obtain ⟨s, i', hfold, hstatus, hstatus', hsame⟩ :=
    foldIncident_concat hstep (fun s _ => (builds_foldGtdLink hid s).1) h
  exact ⟨i', hfold, by rw [hstatus', (builds_foldGtdLink hid s).2, hstatus], hsame⟩

end

/-! ### One append -/

theorem recDir_put_self (tree : RecordTree) (recordId : String) (d : RecordDir) :
    (tree.put recordId d).recDir recordId = d :=
  Function.update_self _ _ _

theorem recDir_put_of_ne (tree : RecordTree) {recordId name : String} (h : name ≠ recordId)
    (d : RecordDir) : (tree.put recordId d).recDir name = tree.recDir name :=
  Function.update_of_ne h _ _

/-- An agent can append `n` events from a time on: its log is a text of whole lines, and every event
of the directory comes before the new ones. -/
structure Ready (m : Machine) (limit : ℕ) (agent ts : String) (n : ℕ) (d : RecordDir) : Prop where
  own : ∃ text, d.OwnLog (logName m agent) text ∧ (fileLines text).length + n ≤ limit ∧
    ∀ x ∈ d.objects m.reader, Earlier m agent ts (fileLines text).length x

theorem endsWith_logName (m : Machine) (agent : String) :
    endsWith (logName m agent) ".jsonl" = true := by
  unfold endsWith logName
  rw [List.isSuffixOf_iff_suffix, String.toList_append]
  exact List.suffix_append _ _

/-- The event of an append with one field of its own. -/
theorem newEvent_eq (m : Machine) (seq : ℕ) (agent kind value : String) {key : String}
    (hkey : key = "note" ∨ key = "id") (stamp : Stamp) :
    newEvent m seq agent kind [(key, .str value)] stamp =
      [("event_id", .str stamp.eventId), ("ts", .str stamp.ts), ("writer", .str agent),
        ("node", .str m.hostname), ("seq", .int seq), ("kind", .str kind), (key, .str value)] := by
  rcases hkey with rfl | rfl <;> rfl

/-- What an append leaves of a tree. -/
structure Appends (m : Machine) (recordId : String) (tree tree' : RecordTree) (e : RecordEvent) :
    Prop where
  dir : ∃ logs, tree' = tree.put recordId { tree.recDir recordId with logs := logs }
  reads : ∀ events, readEvents m.reader (tree.recDir recordId) = .ok events →
    readEvents m.reader (tree'.recDir recordId) = .ok (events ++ [e])
  readable : (tree'.recDir recordId).Readable m.reader ↔
    (tree.recDir recordId).Readable m.reader

/-- **An append** puts its event behind all others. -/
theorem appendEvent_spec {limit n : ℕ} {recordId kind key value : String} {agent : AgentName}
    {stamp : Stamp} (hreads : m.reader.ReadsShallow limit) (hkey : key = "note" ∨ key = "id")
    (h : Ready m limit agent stamp.ts (n + 1) (tree.recDir recordId)) :
    ∃ e tree', appendEvent m tree recordId agent kind [(key, .str value)] stamp = .ok tree' ∧
      e.get "kind" = .str kind ∧ e.get key = .str value ∧ Appends m recordId tree tree' e ∧
      ∀ ts', stamp.ts ≤ ts' → Ready m limit agent ts' n (tree'.recDir recordId) := by
  obtain ⟨text, hown, hlimit, hearlier⟩ := h.own
  have hevent := newEvent_eq m (fileLines text).length agent kind value hkey stamp
  have hkeyed :
      recordKey (newEvent m (fileLines text).length agent kind [(key, .str value)] stamp) =
      .ofValues [.str stamp.ts, .str m.hostname, .str agent, .int (fileLines text).length] := by
    rw [hevent]
    rfl
  set e := newEvent m (fileLines text).length agent kind [(key, .str value)] stamp with he
  -- the new event can be written and read back, within the limits of the reader
  have hwell : (Json.obj e).WellFormed m.reader.floats := by
    rw [hevent]
    rcases hkey with rfl | rfl <;> simp [Json.WellFormed, Json.FieldsWellFormed, Assoc.keys]
  have hshallow : Shallow limit e := by
    rw [hevent]
    intro p hp
    simp only [List.mem_cons, List.not_mem_nil, or_false] at hp
    rcases hp with rfl | rfl | rfl | rfl | rfl | rfl | rfl
    · exact .inl ⟨_, rfl⟩
    · exact .inl ⟨_, rfl⟩
    · exact .inl ⟨_, rfl⟩
    · exact .inl ⟨_, rfl⟩
    · exact .inr (.inr ⟨_, rfl, by omega⟩)
    · exact .inl ⟨_, rfl⟩
    · exact .inl ⟨_, rfl⟩
  have hrefusal := hreads.event e hshallow
  have hlast : ∀ x ∈ (tree.recDir recordId).objects m.reader, recordKey x < recordKey e ∧
      SortKey.Comparable (recordKey x) (recordKey e) ∧
      SortKey.Comparable (recordKey e) (recordKey x) := fun x hx => (hearlier x hx).key hkeyed
  have hdir : (tree.put recordId ((tree.recDir recordId).appendLine m.reader (logName m agent)
      e)).recDir recordId = (tree.recDir recordId).appendLine m.reader (logName m agent) e :=
    recDir_put_self _ _ _
  refine ⟨e, tree.put recordId ((tree.recDir recordId).appendLine m.reader (logName m agent) e),
    ?_, ?_, ?_, ⟨⟨_, rfl⟩, ?_, ?_⟩, fun ts' hts => ?_⟩
  · unfold appendEvent
    exact bind_eq_ok.mpr ⟨text, readText_eq_ok.mpr hown.decoded, rfl⟩
  · rw [hevent]
    rfl
  · rw [hevent]
    rcases hkey with rfl | rfl <;> rfl
  · intro events hread
    rw [hdir]
    exact readEvents_appendLine hown hwell hrefusal hlast hread
  · rw [hdir]
    exact hown.readable_appendLine hwell hrefusal fun x hx => (hlast x hx).2
  · -- another append by the same agent comes behind this one, by the number of lines
    have hlines := hown.whole.fileLines_append (isLine_dumps m.reader.floats .spaced e)
    have hlength : (fileLines (text ++ lineOf m.reader e)).length =
        (fileLines text).length + 1 := by
      rw [lineOf, hlines, List.length_append, List.length_singleton]
    rw [hdir]
    refine ⟨text ++ lineOf m.reader e, hown.appendLine m.reader e, by omega, fun x hx => ?_⟩
    obtain ⟨p, q, hold, hnew⟩ := hown.objects_appendLine hwell
    rw [hlength]
    rw [hold] at hearlier
    rw [hnew] at hx
    have hcases : x = e ∨ x ∈ p ++ q := by
      simp only [List.mem_append, List.mem_cons] at hx ⊢
      tauto
    rcases hcases with rfl | hx
    · exact .inr ⟨_, _, hkeyed, hts, Nat.lt_succ_self _⟩
    · exact (hearlier x hx).mono hts (Nat.le_succ _)

/-! ### The record behind an append -/

section

variable {recordId : String} {tree' : RecordTree} {e : RecordEvent} {core : Json}

theorem Appends.recDir (h : Appends m recordId tree tree' e) :
    loadCore m.reader (tree'.recDir recordId) = loadCore m.reader (tree.recDir recordId) := by
  obtain ⟨logs, rfl⟩ := h.dir
  rw [recDir_put_self]
  rfl

/-- A record whose core is not read does not depend on its logs. -/
theorem foldRecord_put {α : Type} {fold : String → Dict → List RecordEvent → Except PyError α}
    (hcore : loadCore r (tree.recDir recordId) = none) (logs : Assoc String Bytes)
    (redirects : ℕ) (name : String) :
    foldRecord r fold (tree.put recordId { tree.recDir recordId with logs := logs }) redirects
        name =
      foldRecord r fold tree redirects name := by
  have hdir := recDir_put_self tree recordId { tree.recDir recordId with logs := logs }
  have hcore' : loadCore r { tree.recDir recordId with logs := logs } = none := hcore
  induction redirects generalizing name with
  | zero =>
    unfold foldRecord
    by_cases hname : name = recordId
    · rw [hname, hdir, hcore', hcore]
    · rw [recDir_put_of_ne tree hname]
      cases loadCore r (tree.recDir name) <;> rfl
  | succ redirects ih =>
    unfold foldRecord
    by_cases hname : name = recordId
    · rw [hname, hdir, hcore', hcore]
      have htarget : redirectTarget r { tree.recDir recordId with logs := logs } =
          redirectTarget r (tree.recDir recordId) := rfl
      dsimp only
      rw [htarget]
      cases redirectTarget r (tree.recDir recordId) with
      | none => rfl
      | some target => dsimp only; rw [ih]
    · rw [recDir_put_of_ne tree hname]
      cases loadCore r (tree.recDir name) with
      | some _ => rfl
      | none =>
        dsimp only
        cases redirectTarget r (tree.recDir name) with
        | none => rfl
        | some target => dsimp only; rw [ih]

theorem Appends.foldIncidentRecord (h : Appends m recordId tree tree' e)
    (hcore : loadCore m.reader (tree.recDir recordId) = none) :
    SkCoord.Itil.foldIncidentRecord m tree' recordId =
      SkCoord.Itil.foldIncidentRecord m tree recordId := by
  obtain ⟨logs, rfl⟩ := h.dir
  exact foldRecord_put hcore logs _ _

/-- The incident of a core and events. -/
def incidentOf (m : Machine) (core : Json) (events : List RecordEvent) : Option Incident :=
  match core with
  | .obj core => (foldIncident m.env core events).toOption
  | _ => none

/-- The fold of a record whose core is read. -/
theorem foldIncidentRecord_eq (hcore : loadCore m.reader (tree.recDir recordId) = some core) :
    foldIncidentRecord m tree recordId =
      (readEvents m.reader (tree.recDir recordId)).map (incidentOf m core) := by
  unfold foldIncidentRecord foldRecord
  rw [hcore]
  cases readEvents m.reader (tree.recDir recordId) with
  | error e => rfl
  | ok events => cases core <;> rfl

theorem incidentOf_eq_some {events : List RecordEvent} {i : Incident}
    (h : incidentOf m core events = some i) :
    ∃ c, core = .obj c ∧ foldIncident m.env c events = .ok i := by
  unfold incidentOf at h
  split at h
  · exact ⟨_, rfl, toOption_eq_some.mp h⟩
  · cases h

/-- An event that keeps the service keeps it in the incident of a core. -/
theorem incidentOf_concat {events : List RecordEvent} {i : Incident} {status : IncidentStatus}
    (hfold : ∀ c, foldIncident m.env c events = .ok i → ∃ i',
      foldIncident m.env c (events ++ [e]) = .ok i' ∧ i'.status = status ∧ SameService i i')
    (h : incidentOf m core events = some i) :
    ∃ i', incidentOf m core (events ++ [e]) = some i' ∧ i'.status = status ∧ SameService i i' := by
  obtain ⟨c, rfl, hc⟩ := incidentOf_eq_some h
  obtain ⟨i', hi', hrest⟩ := hfold c hc
  exact ⟨i', toOption_eq_some.mpr hi', hrest⟩

/-- No incident comes out of one more event of the creation. -/
theorem incidentOf_created {events : List RecordEvent} (hkind : e.get "kind" = .str "created")
    (h : incidentOf m core events = none) : incidentOf m core (events ++ [e]) = none := by
  cases hi : incidentOf m core (events ++ [e]) with
  | none => rfl
  | some i' =>
    obtain ⟨c, rfl, hc⟩ := incidentOf_eq_some hi
    obtain ⟨i, hfold⟩ := (foldIncident_created hkind).2 i' hc
    rw [incidentOf, hfold] at h
    cases h

end

/-! ### The call -/

/-- The record names the service that a call is about: among its services, or in its title where the
call has no services. -/
def Incident.Names (i : Incident) (call : IncidentCall) : Prop :=
  call.service ∈ i.affectedServices ∨ call.affectedServices = [] ∧ i.title = call.service

theorem SameService.names {i i' : Incident} (h : SameService i i') :
    i'.Names call ↔ i.Names call := by
  unfold Incident.Names
  rw [h.affectedServices, h.title]

/-- A record that is folded is linked to a GTD item or left as it is. -/
theorem linkGtdItem_cases {o : Option Incident}
    (hfold : foldIncidentRecord m tree (recordIdOf m call) = .ok o) :
    linkGtdItem m tree call = .ok tree ∨ ∃ gtdId, linkGtdItem m tree call =
      appendEvent m tree (recordIdOf m call) call.agent "gtd_link" [("id", .str gtdId)]
        m.linked := by
  unfold linkGtdItem
  dsimp only
  rw [hfold, ok_bind]
  cases o with
  | none => exact .inl rfl
  | some i =>
    dsimp only
    split
    · exact .inl rfl
    · split
      · exact .inl rfl
      · split
        · exact .inl rfl
        · exact .inr ⟨_, rfl⟩

/-- What the call does behind the write of the core. -/
def announceAgain (m : Machine) (tree : RecordTree) (call : IncidentCall) (existed : Bool) :
    Except PyError (RecordTree × Option Incident) := do
  let tree ← if existed then reopenResolved m tree call else pure tree
  announceIncident m tree call

/-- The call shows an open incident that names the service. -/
def ShowsOpen (call : IncidentCall) (result : Except PyError (RecordTree × Option Incident)) :
    Prop :=
  ∃ tree' i, result = .ok (tree', some i) ∧ i.status ∈ openIncidentStatuses ∧ i.Names call

theorem showsOpen_some {i i' : Incident} {tree' : RecordTree} (hsame : SameService i i') :
    ShowsOpen call (.ok (tree', some i')) ↔ i'.status ∈ openIncidentStatuses ∧ i.Names call := by
  rw [← hsame.names]
  constructor
  · rintro ⟨_, _, h, hopen, hnames⟩
    cases h
    exact ⟨hopen, hnames⟩
  · exact fun h => ⟨_, _, rfl, h⟩

theorem not_showsOpen_none {tree' : RecordTree} : ¬ShowsOpen call (.ok (tree', none)) := by
  rintro ⟨_, _, h, -⟩
  cases h

/-- A record that is not resolved, or not there before, is not reopened. -/
theorem announceAgain_stays {existed : Bool} {o : Option Incident}
    (hfold : foldIncidentRecord m tree (recordIdOf m call) = .ok o)
    (h : existed = true → ∀ i, o = some i → i.status ≠ .resolved) :
    announceAgain m tree call existed = announceIncident m tree call := by
  unfold announceAgain
  cases existed with
  | false => rfl
  | true =>
    have hany : ¬(o.any fun i => i.status == .resolved) = true := by
      cases o with
      | none => exact Bool.false_ne_true
      | some i => exact fun hany => h rfl i rfl (eq_of_beq hany)
    rw [if_pos rfl, reopenResolved]
    dsimp only
    rw [hfold, ok_bind, if_neg hany]
    rfl

/-- A resolved record is reopened. -/
theorem announceAgain_reopens {i : Incident}
    (hfold : foldIncidentRecord m tree (recordIdOf m call) = .ok (some i))
    (h : i.status = .resolved) : announceAgain m tree call true = (do
      let tree ← appendEvent m tree (recordIdOf m call) call.agent "reopen"
        [("note", .str ("Incident recurred: " ++ call.title))] m.reopened
      announceIncident m tree call) := by
  have hany : ((some i).any fun i => i.status == .resolved) = true :=
    beq_iff_eq.mpr h
  unfold announceAgain
  rw [if_pos rfl, reopenResolved]
  dsimp only
  rw [hfold, ok_bind, if_pos hany]

section

variable {limit : ℕ} {core : Json} {events : List RecordEvent} {i : Incident}
  (hreads : m.reader.ReadsShallow limit)

include hreads

/-- The link to a GTD item leaves the incident of a core. -/
theorem linkGtdItem_spec
    (hready : Ready m limit call.agent m.linked.ts 1 (tree.recDir (recordIdOf m call)))
    (hcore : loadCore m.reader (tree.recDir (recordIdOf m call)) = some core)
    (hread : readEvents m.reader (tree.recDir (recordIdOf m call)) = .ok events)
    (hi : incidentOf m core events = some i) :
    ∃ tree' i', linkGtdItem m tree call = .ok tree' ∧
      foldIncidentRecord m tree' (recordIdOf m call) = .ok (some i') ∧ i'.status = i.status ∧
      SameService i i' := by
  have hfold : foldIncidentRecord m tree (recordIdOf m call) = .ok (some i) := by
    rw [foldIncidentRecord_eq hcore, hread]
    exact congrArg Except.ok hi
  rcases linkGtdItem_cases hfold with hstay | ⟨gtdId, hlink⟩
  · exact ⟨tree, i, hstay, hfold, rfl, rfl, rfl⟩
  · obtain ⟨e, tree', happend, hkind, hid, happends, -⟩ :=
      appendEvent_spec hreads (.inr rfl) hready
    obtain ⟨i', hi', hstatus, hsame⟩ :=
      incidentOf_concat (fun c hc => foldIncident_gtdLink hkind hid hc) hi
    refine ⟨tree', i', hlink.trans happend, ?_, hstatus, hsame⟩
    rw [foldIncidentRecord_eq (happends.recDir.trans hcore), happends.reads events hread]
    exact congrArg Except.ok hi'

/-- **The rest of the call** leaves an incident of a core in its status. -/
theorem announceIncident_some (hclock : m.created.ts ≤ m.linked.ts)
    (hready : Ready m limit call.agent m.created.ts 2 (tree.recDir (recordIdOf m call)))
    (hcore : loadCore m.reader (tree.recDir (recordIdOf m call)) = some core)
    (hread : readEvents m.reader (tree.recDir (recordIdOf m call)) = .ok events)
    (hi : incidentOf m core events = some i) :
    ∃ tree' i', announceIncident m tree call = .ok (tree', some i') ∧ i'.status = i.status ∧
      SameService i i' := by
  obtain ⟨e, tree₁, happend, hkind, -, happends, hnext⟩ :=
    appendEvent_spec hreads (.inl rfl) hready
  obtain ⟨i₁, hi₁, hstatus₁, hsame₁⟩ :=
    incidentOf_concat (fun c hc => (foldIncident_created hkind).1 i hc) hi
  obtain ⟨tree', i', hlink, hfold, hstatus, hsame⟩ := linkGtdItem_spec hreads
    (hnext _ hclock) (happends.recDir.trans hcore) (happends.reads events hread) hi₁
  refine ⟨tree', i', ?_, hstatus.trans hstatus₁, hsame₁.trans hsame⟩
  unfold announceIncident
  exact bind_eq_ok.mpr ⟨tree₁, happend, bind_eq_ok.mpr ⟨tree', hlink,
    bind_eq_ok.mpr ⟨some i', hfold, rfl⟩⟩⟩

/-- Where no incident comes out of a core, none does in the end. -/
theorem announceIncident_none
    (hready : Ready m limit call.agent m.created.ts 2 (tree.recDir (recordIdOf m call)))
    (hcore : loadCore m.reader (tree.recDir (recordIdOf m call)) = some core)
    (hread : readEvents m.reader (tree.recDir (recordIdOf m call)) = .ok events)
    (hi : incidentOf m core events = none) :
    ∃ tree', announceIncident m tree call = .ok (tree', none) := by
  obtain ⟨e, tree₁, happend, hkind, -, happends, -⟩ :=
    appendEvent_spec hreads (.inl rfl) hready
  have hfold : foldIncidentRecord m tree₁ (recordIdOf m call) = .ok none := by
    rw [foldIncidentRecord_eq (happends.recDir.trans hcore), happends.reads events hread]
    exact congrArg Except.ok (incidentOf_created hkind hi)
  have hlink : linkGtdItem m tree₁ call = .ok tree₁ := by
    unfold linkGtdItem
    dsimp only
    rw [hfold]
    rfl
  refine ⟨tree₁, ?_⟩
  unfold announceIncident
  exact bind_eq_ok.mpr ⟨tree₁, happend, bind_eq_ok.mpr ⟨tree₁, hlink,
    bind_eq_ok.mpr ⟨none, hfold, rfl⟩⟩⟩

/-- Where the logs of a record are not read, the call raises. -/
theorem announceIncident_unreadable
    (hready : Ready m limit call.agent m.created.ts 2 (tree.recDir (recordIdOf m call)))
    (hcore : loadCore m.reader (tree.recDir (recordIdOf m call)) = some core)
    (hread : ¬(tree.recDir (recordIdOf m call)).Readable m.reader)
    (p : RecordTree × Option Incident) :
    announceIncident m tree call ≠ .ok p := by
  obtain ⟨e, tree₁, happend, -, -, happends, -⟩ :=
    appendEvent_spec hreads (.inl rfl) hready
  intro h
  obtain ⟨tree₁', happend', h⟩ := bind_eq_ok.mp h
  obtain rfl : tree₁ = tree₁' := Except.ok.inj (happend.symm.trans happend')
  obtain ⟨tree₂, hlink, -⟩ := bind_eq_ok.mp h
  obtain ⟨o, hfold, -⟩ := bind_eq_ok.mp hlink
  rw [foldIncidentRecord_eq (happends.recDir.trans hcore)] at hfold
  refine hread (happends.readable.mp (exists_readEvents_iff.mp ?_))
  cases hevents : readEvents m.reader (tree₁.recDir (recordIdOf m call)) with
  | ok events => exact ⟨events, rfl⟩
  | error err => rw [hevents] at hfold; cases hfold

/-- Where the core of a record is not read, the call returns what a redirect leads to. -/
theorem announceIncident_no_core (hclock : m.created.ts ≤ m.linked.ts)
    (hready : Ready m limit call.agent m.created.ts 2 (tree.recDir (recordIdOf m call)))
    (hcore : loadCore m.reader (tree.recDir (recordIdOf m call)) = none) {o : Option Incident}
    (hfold : foldIncidentRecord m tree (recordIdOf m call) = .ok o) :
    ∃ tree', announceIncident m tree call = .ok (tree', o) := by
  obtain ⟨e, tree₁, happend, -, -, happends, hnext⟩ :=
    appendEvent_spec hreads (.inl rfl) hready
  have hcore₁ := happends.recDir.trans hcore
  have hfold₁ := (happends.foldIncidentRecord hcore).trans hfold
  obtain ⟨tree₂, hlink, hfold₂⟩ : ∃ tree₂, linkGtdItem m tree₁ call = .ok tree₂ ∧
      foldIncidentRecord m tree₂ (recordIdOf m call) = .ok o := by
    rcases linkGtdItem_cases hfold₁ with hstay | ⟨gtdId, hlink⟩
    · exact ⟨tree₁, hstay, hfold₁⟩
    · obtain ⟨e', tree₂, happend', -, -, happends', -⟩ :=
        appendEvent_spec hreads (.inr rfl) (hnext _ hclock)
      exact ⟨tree₂, hlink.trans happend', (happends'.foldIncidentRecord hcore₁).trans hfold₁⟩
  refine ⟨tree₂, ?_⟩
  unfold announceIncident
  exact bind_eq_ok.mpr ⟨tree₁, happend, bind_eq_ok.mpr ⟨tree₂, hlink,
    bind_eq_ok.mpr ⟨o, hfold₂, rfl⟩⟩⟩

/-- The stages behind the core show an open incident exactly when the record is open, or is resolved
and reopened. -/
theorem announceAgain_iff (existed : Bool)
    (hclock : m.reopened.ts ≤ m.created.ts ∧ m.created.ts ≤ m.linked.ts)
    (hready : Ready m limit call.agent m.reopened.ts 3 (tree.recDir (recordIdOf m call))) :
    ShowsOpen call (announceAgain m tree call existed) ↔
      ∃ i, foldIncidentRecord m tree (recordIdOf m call) = .ok (some i) ∧ i.Names call ∧
        (i.status ∈ openIncidentStatuses ∨ i.status = .resolved ∧ existed = true ∧
          (loadCore m.reader (tree.recDir (recordIdOf m call))).isSome) := by
  have hready₂ : Ready m limit call.agent m.created.ts 2 (tree.recDir (recordIdOf m call)) := by
    obtain ⟨text, hown, hlines, hearlier⟩ := hready.own
    exact ⟨text, hown, by omega, fun x hx => (hearlier x hx).mono hclock.1 le_rfl⟩
  cases hcore : loadCore m.reader (tree.recDir (recordIdOf m call)) with
  | none =>
    obtain ⟨o, hfold⟩ : ∃ o, foldIncidentRecord m tree (recordIdOf m call) = .ok o :=
      exists_foldRecord_iff.mpr fun h => absurd hcore h
    -- a reopening does not reach the record that a redirect leads to
    obtain ⟨tree', hrun⟩ : ∃ tree', announceAgain m tree call existed = .ok (tree', o) := by
      by_cases hreopen : existed = true ∧ ∃ i, o = some i ∧ i.status = .resolved
      · obtain ⟨rfl, i, rfl, hresolved⟩ := hreopen
        obtain ⟨e, tree₁, happend, -, -, happends, hnext⟩ :=
          appendEvent_spec hreads (.inl rfl) hready
        rw [announceAgain_reopens hfold hresolved, happend, ok_bind]
        exact announceIncident_no_core hreads hclock.2 (hnext _ hclock.1)
          (happends.recDir.trans hcore) ((happends.foldIncidentRecord hcore).trans hfold)
      · rw [announceAgain_stays hfold fun hexisted i hi hresolved =>
          hreopen ⟨hexisted, i, hi, hresolved⟩]
        exact announceIncident_no_core hreads hclock.2 hready₂ hcore hfold
    rw [hrun, hfold]
    constructor
    · rintro ⟨_, i, h, hopen, hnames⟩
      cases h
      exact ⟨i, rfl, hnames, .inl hopen⟩
    · rintro ⟨i, h, hnames, hopen | ⟨-, -, hsome⟩⟩
      · cases h
        exact ⟨tree', i, rfl, hopen, hnames⟩
      · cases hsome
  | some core =>
    have hfold := foldIncidentRecord_eq hcore
    cases hread : readEvents m.reader (tree.recDir (recordIdOf m call)) with
    | error err =>
      rw [hread] at hfold
      have hunread : ¬(tree.recDir (recordIdOf m call)).Readable m.reader := fun h => by
        obtain ⟨events, hevents⟩ := exists_readEvents_iff.mpr h
        rw [hread] at hevents
        cases hevents
      constructor
      · rintro ⟨tree', i, h, -⟩
        cases existed with
        | false =>
          exact absurd h (announceIncident_unreadable hreads hready₂ hcore hunread _)
        | true =>
          obtain ⟨tree₁, hstage, -⟩ := bind_eq_ok.mp h
          obtain ⟨o, ho, -⟩ := bind_eq_ok.mp hstage
          rw [hfold] at ho
          cases ho
      · rintro ⟨i, h, -⟩
        rw [hfold] at h
        cases h
    | ok events =>
      rw [hread] at hfold
      cases hi : incidentOf m core events with
      | none =>
        have hfold' : foldIncidentRecord m tree (recordIdOf m call) = .ok none :=
          hfold.trans (congrArg Except.ok hi)
        obtain ⟨tree', hrun⟩ := announceIncident_none hreads hready₂ hcore hread hi
        rw [announceAgain_stays hfold' (fun _ i h => nomatch h), hrun, hfold']
        exact ⟨fun h => absurd h not_showsOpen_none, fun ⟨i, h, _⟩ => nomatch h⟩
      | some i =>
        have hfold' : foldIncidentRecord m tree (recordIdOf m call) = .ok (some i) :=
          hfold.trans (congrArg Except.ok hi)
        by_cases hreopen : existed = true ∧ i.status = .resolved
        · obtain ⟨rfl, hresolved⟩ := hreopen
          obtain ⟨e, tree₁, happend, hkind, -, happends, hnext⟩ :=
            appendEvent_spec hreads (.inl rfl) hready
          obtain ⟨i₁, hi₁, hstatus₁, hsame₁⟩ := incidentOf_concat
            (fun c hc => foldIncident_reopen hkind hc hresolved) hi
          obtain ⟨tree', i', hrun, hstatus, hsame⟩ := announceIncident_some hreads hclock.2
            (hnext _ hclock.1) (happends.recDir.trans hcore) (happends.reads events hread) hi₁
          rw [announceAgain_reopens hfold' hresolved, happend, ok_bind, hrun,
            showsOpen_some (hsame₁.trans hsame), hstatus, hstatus₁, hfold']
          constructor
          · exact fun h => ⟨i, rfl, h.2, .inr ⟨hresolved, rfl, rfl⟩⟩
          · rintro ⟨j, hj, hnames, -⟩
            cases hj
            exact ⟨by decide, hnames⟩
        · obtain ⟨tree', i', hrun, hstatus, hsame⟩ :=
            announceIncident_some hreads hclock.2 hready₂ hcore hread hi
          rw [announceAgain_stays hfold' fun hexisted j hj hresolved =>
            hreopen ⟨hexisted, by cases hj; exact hresolved⟩, hrun, showsOpen_some hsame, hstatus,
            hfold']
          constructor
          · exact fun h => ⟨i, rfl, h.2, .inl h.1⟩
          · rintro ⟨j, hj, hnames, hopen | ⟨hresolved, hexisted, -⟩⟩
            · cases hj
              exact ⟨hopen, hnames⟩
            · cases hj
              exact absurd ⟨hexisted, hresolved⟩ hreopen

end

/-- The tree with the core of a call in its record. -/
def coredTree (m : Machine) (tree : RecordTree) (call : IncidentCall) : RecordTree :=
  writeCore m tree (recordIdOf m call) (newIncidentCore m call call.severity)

/-- The logs of the record are as they were. -/
theorem recDir_coredTree (m : Machine) (tree : RecordTree) (call : IncidentCall) :
    ∃ core, (coredTree m tree call).recDir (recordIdOf m call) =
      { tree.recDir (recordIdOf m call) with core := core } := by
  unfold coredTree writeCore
  split
  · exact ⟨_, rfl⟩
  · exact ⟨_, recDir_put_self _ _ _⟩

/-- **A detected outage is an open incident** exactly when the severity is one, and the record that
the call finds or makes names the service and is open, or is resolved and was there before. -/
theorem createIncident_open_iff {limit : ℕ} {text : List Char}
    (hreads : m.reader.ReadsShallow limit)
    (hlog : (tree.recDir (recordIdOf m call)).OwnLog (logName m call.agent) text)
    (hlines : (fileLines text).length + 3 ≤ limit)
    (hdated : ∀ e ∈ (tree.recDir (recordIdOf m call)).objects m.reader, ∃ t,
      e.getD "ts" (.str "") = .str t ∧ t < m.reopened.ts)
    (hclock : m.reopened.ts ≤ m.created.ts ∧ m.created.ts ≤ m.linked.ts) :
    ShowsOpen call (createIncident m tree call) ↔
      call.severity ∈ ["sev1", "sev2", "sev3", "sev4"] ∧
      ∃ existed i, recordExists m tree (recordIdOf m call) = .ok existed ∧
        foldIncidentRecord m (coredTree m tree call) (recordIdOf m call) = .ok (some i) ∧
        i.Names call ∧
        (i.status ∈ openIncidentStatuses ∨ i.status = .resolved ∧ existed = true ∧
          (loadCore m.reader ((coredTree m tree call).recDir (recordIdOf m call))).isSome) := by
  obtain ⟨core, hdir⟩ := recDir_coredTree m tree call
  -- no event is dated behind the call, so its own events come last
  have hready : Ready m limit call.agent m.reopened.ts 3
      ((coredTree m tree call).recDir (recordIdOf m call)) := by
    rw [hdir]
    exact ⟨text, ⟨hlog.nodup, hlog.name, hlog.decoded, hlog.whole⟩, hlines,
      fun x hx => .inl (hdated x hx)⟩
  cases hexists : recordExists m tree (recordIdOf m call) with
  | error err =>
    constructor
    · rintro ⟨tree', i, h, -⟩
      unfold createIncident at h
      dsimp only at h
      rw [hexists] at h
      cases h
    · rintro ⟨-, existed, i, h, -⟩
      cases h
  | ok existed =>
    by_cases hsev : call.severity ∈ ["sev1", "sev2", "sev3", "sev4"]
    · have hrun : createIncident m tree call =
          announceAgain m (coredTree m tree call) call existed := by
        unfold createIncident requireMember
        dsimp only
        rw [hexists, ok_bind, if_pos hsev]
        rfl
      rw [hrun]
      rw [announceAgain_iff hreads existed hclock hready]
      constructor
      · rintro ⟨i, hfold, hrest⟩
        exact ⟨hsev, existed, i, rfl, hfold, hrest⟩
      · rintro ⟨-, existed', i, hexisted, hfold, hrest⟩
        cases hexisted
        exact ⟨i, hfold, hrest⟩
    · constructor
      · rintro ⟨tree', i, h, -⟩
        unfold createIncident requireMember at h
        dsimp only at h
        rw [hexists, ok_bind, if_neg hsev] at h
        cases h
      · exact fun h => absurd h.1 hsev

/-! ### A first outage, and one of a closed record -/

theorem iter_orElse_arr (l : List Json) : ((Json.arr l).orElse (.arr [])).iter = .ok l := by
  cases l <;> rfl

/-- The core of a call is read as it was written. -/
theorem readFile_newIncidentCore {limit : ℕ} (hreads : m.reader.ReadsShallow limit) :
    m.reader.readFile (encodeUtf8
      ((Json.obj (newIncidentCore m call call.severity)).pretty m.reader.floats 0 ++ ['\n'])) =
      some (.obj (newIncidentCore m call call.severity)) := by
  have hwell : (Json.obj (newIncidentCore m call call.severity)).WellFormed m.reader.floats := by
    have helems : ∀ l : List String, Json.ElemsWellFormed m.reader.floats (l.map .str) := by
      intro l
      induction l with
      | nil => trivial
      | cons s l ih => exact ⟨trivial, ih⟩
    unfold newIncidentCore
    by_cases hsource : call.source = "service_health"
    · rw [if_pos hsource]
      simp [Json.WellFormed, Json.FieldsWellFormed, Assoc.keys, helems]
    · rw [if_neg hsource]
      simp [Json.WellFormed, Json.FieldsWellFormed, Assoc.keys, helems]
  have hshallow : Shallow limit (newIncidentCore m call call.severity) := by
    have hstr : ∀ t : String, (∃ s, Json.str t = .str s) ∨
        (∃ l : List String, Json.str t = .arr (l.map .str)) ∨
        ∃ n : ℕ, Json.str t = .int n ∧ n < limit := fun t => .inl ⟨t, rfl⟩
    have harr : ∀ l : List String, (∃ s, Json.arr (l.map .str) = .str s) ∨
        (∃ l' : List String, Json.arr (l.map .str) = .arr (l'.map .str)) ∨
        ∃ n : ℕ, Json.arr (l.map .str) = .int n ∧ n < limit := fun l => .inr (.inl ⟨l, rfl⟩)
    intro p hp
    rcases List.mem_append.mp hp with hp | hp
    · simp only [List.mem_cons, List.not_mem_nil, or_false] at hp
      rcases hp with rfl | rfl | rfl | rfl | rfl | rfl | rfl | rfl | rfl | rfl | rfl | rfl
      all_goals first | exact hstr _ | exact harr _
    · split at hp
      · rw [List.mem_singleton.mp hp]
        exact hstr _
      · exact absurd hp List.not_mem_nil
  rw [Reader.readFile, readText_eq_ok.mpr (decodeUtf8_encodeUtf8 _), ok_bind, Reader.readLine,
    hreads.core _ hshallow, Json.loads_pretty, Json.reread_of_wellFormed hwell]
  rfl

/-- The record of a first call has its core. -/
theorem loadCore_fresh {limit : ℕ} (hreads : m.reader.ReadsShallow limit)
    (hdir : tree.recDir (recordIdOf m call) = {}) :
    loadCore m.reader ((coredTree m tree call).recDir (recordIdOf m call)) =
      some (.obj (newIncidentCore m call call.severity)) := by
  have hput : coredTree m tree call = tree.put (recordIdOf m call)
      { core := some (encodeUtf8
          ((Json.obj (newIncidentCore m call call.severity)).pretty m.reader.floats 0 ++
            ['\n'])) } := by
    unfold coredTree writeCore
    rw [hdir]
    rfl
  rw [hput, recDir_put_self, loadCore, Option.bind_some,
    readFile_newIncidentCore hreads]

theorem mapM_textOf (model field : String) (l : List String) :
    (l.map Json.str).mapM (textOf model field) = .ok l := by
  rw [List.mapM_map]
  exact (mapM_eq_map fun s _ => rfl).trans (congrArg Except.ok (List.map_id l))

/-- A call with a severity goes on behind the write of the core. -/
theorem createIncident_of_exists {existed : Bool}
    (hexists : recordExists m tree (recordIdOf m call) = .ok existed)
    (hsev : call.severity ∈ ["sev1", "sev2", "sev3", "sev4"]) :
    createIncident m tree call = announceAgain m (coredTree m tree call) call existed := by
  unfold createIncident requireMember
  dsimp only
  rw [hexists, ok_bind, if_pos hsev]
  rfl

/-- **The first outage** of a service is an incident that names it. -/
theorem foldIncident_fresh (hsev : call.severity ∈ ["sev1", "sev2", "sev3", "sev4"]) :
    ∃ i, foldIncident m.env (newIncidentCore m call call.severity) [] = .ok i ∧
      i.status = .detected ∧ i.Names call := by
  set c := newIncidentCore m call call.severity with hc
  -- the core was written by the call itself, so every field of it is known
  have hinit : initIncident c = .ok
      { severity := .str call.severity, relatedProblemId := .null, tags := call.tags.map .str,
        title := .str call.title, managedBy := .str call.agent.text } := by
    have hne : call.severity ≠ "" := by
      rintro h
      rw [h] at hsev
      exact absurd hsev (by decide)
    have horElse : (Json.str call.severity).orElse (.str "sev3") = .str call.severity := by
      unfold Json.orElse Json.truthy
      rw [if_pos (bne_iff_ne.mpr hne)]
    have hproblem : c.get "related_problem_id" = .null := by
      rw [hc, newIncidentCore]
      by_cases hsource : call.source = "service_health"
      · rw [if_pos hsource]
        rfl
      · rw [if_neg hsource]
        rfl
    unfold initIncident
    rw [show c.get "tags" = .arr (call.tags.map .str) from rfl, iter_orElse_arr, ok_bind, hproblem,
      show c.get "severity_at_creation" = .str call.severity from rfl, horElse]
    rfl
  have hservices : textsOf "Incident" "affected_services" c = .ok call.affectedServices := by
    unfold textsOf
    rw [show c.get "affected_services" = .arr (call.affectedServices.map .str) from rfl,
      iter_orElse_arr, ok_bind, mapM_textOf]
  obtain ⟨i, hi, hstatus, hserv, htitle⟩ : ∃ i, foldIncident m.env c [] = .ok i ∧
      i.status = .detected ∧ i.affectedServices = call.affectedServices ∧ i.title = call.title := by
    -- the time may be blank, and is read as it stands all the same
    have hdetected : ∃ t, textOf "Incident" "detected_at"
        ((c.get "detected_at").orElse (.str m.env.now)) = .ok t := by
      rw [show c.get "detected_at" = .str m.detectedAt from rfl]
      unfold Json.orElse
      split <;> exact ⟨_, rfl⟩
    obtain ⟨detected, hdetected⟩ := hdetected
    unfold foldIncident
    rw [hinit, ok_bind, List.foldlM_nil]
    show ∃ i, buildIncident m.env c _ = .ok i ∧ _
    unfold buildIncident requireMember
    dsimp only
    rw [if_pos hsev, hservices, hdetected, mapM_textOf]
    exact ⟨_, rfl, rfl, rfl, rfl⟩
  refine ⟨i, hi, hstatus, ?_⟩
  unfold Incident.Names IncidentCall.service
  rw [hserv, htitle]
  cases call.affectedServices with
  | nil => exact .inr ⟨rfl, rfl⟩
  | cons service services => exact .inl List.mem_cons_self

theorem foldIncidentRecord_fresh {limit : ℕ} (hreads : m.reader.ReadsShallow limit)
    (hdir : tree.recDir (recordIdOf m call) = {})
    (hsev : call.severity ∈ ["sev1", "sev2", "sev3", "sev4"]) :
    ∃ i, foldIncidentRecord m (coredTree m tree call) (recordIdOf m call) = .ok (some i) ∧
      i.status = .detected ∧ i.Names call := by
  obtain ⟨i, hi, hrest⟩ := @foldIncident_fresh m call hsev
  obtain ⟨core, hcored⟩ := recDir_coredTree m tree call
  have hread : readEvents m.reader ((coredTree m tree call).recDir (recordIdOf m call)) =
      .ok [] := by
    rw [hcored, hdir]
    rfl
  refine ⟨i, ?_, hrest⟩
  rw [foldIncidentRecord_eq (loadCore_fresh hreads hdir), hread]
  exact congrArg Except.ok (toOption_eq_some.mpr hi)

/-- A machine whose digests are all the same. -/
def sampleMachine : Machine where
  env := plainEnv
  reader := plainReader
  tables := asciiTables
  hostname := "box"
  digest := fun _ => "c0ffee00"
  randomHex := "00000000"
  today := "2026-09-30"
  detectedAt := "2026-09-30T10:00:00"
  reopened := ⟨"e1", "2026-09-30T10:00:01"⟩
  created := ⟨"e2", "2026-09-30T10:00:02"⟩
  linked := ⟨"e3", "2026-09-30T10:00:03"⟩
  gtdItem := fun _ => some "g1"
  recordDirs := 9

theorem isFileName_unknown : IsFileName (callerOf "" "") := by
  show IsFileName "unknown"
  decide +kernel

/-- A health check that finds the database down. -/
def databaseCall : IncidentCall where
  title := "db is down"
  source := "service_health"
  affectedServices := ["db"]
  isFileName := isFileName_unknown

theorem readsShallow_plain (limit : ℕ) : plainReader.ReadsShallow limit :=
  ⟨fun _ _ => rfl, fun _ _ => rfl⟩

/-- The first detection of an outage, in an empty store: a new record, open and with the name of the
service. -/
theorem createIncident_open_iff_first :
    ShowsOpen databaseCall (createIncident sampleMachine (treeOf []) databaseCall) := by
  obtain ⟨i, hi, hstatus, hnames⟩ := @foldIncidentRecord_fresh sampleMachine (treeOf [])
    databaseCall 3 (readsShallow_plain 3) rfl (by decide)
  exact (@createIncident_open_iff sampleMachine (treeOf []) databaseCall 3 []
    (readsShallow_plain 3) ⟨List.nodup_nil, endsWith_logName _ _, rfl, .inl rfl⟩ le_rfl
    (fun e he => absurd he List.not_mem_nil) (by decide)).mpr
    ⟨by decide, false, i, rfl, hi, hnames, .inl (by rw [hstatus]; decide)⟩

/-- An outage of the database that was resolved and closed on the same day. -/
def closedTree : RecordTree :=
  treeOf [("inc-c0ffee00",
    { core := some
        (encodeUtf8 ((Json.obj (newIncidentCore sampleMachine databaseCall "sev3")).pretty
          zeroFloats 0 ++ ['\n']))
      logs := [("ops@box.jsonl", encodeUtf8 (
        lineOf plainReader (incidentEvent "status" "resolved" "2026-09-30T08:00:00") ++
        lineOf plainReader (incidentEvent "status" "closed" "2026-09-30T09:00:00")))] })]

/-- An event of an incident is written and read back. -/
theorem wellFormed_incidentEvent (kind target ts : String) :
    (Json.obj (incidentEvent kind target ts)).WellFormed zeroFloats := by
  simp [incidentEvent, Json.WellFormed, Json.FieldsWellFormed, Assoc.keys]

/-- The directory of the closed outage without its events. -/
def closedCoreDir : RecordDir where
  core := some (encodeUtf8
    ((Json.obj (newIncidentCore sampleMachine databaseCall "sev3")).pretty zeroFloats 0 ++ ['\n']))

/-- The log of the closed outage has one event behind the other. -/
theorem recDir_closedTree : closedTree.recDir "inc-c0ffee00" =
    (closedCoreDir.appendLine plainReader "ops@box.jsonl"
      (incidentEvent "status" "resolved" "2026-09-30T08:00:00")).appendLine plainReader
        "ops@box.jsonl" (incidentEvent "status" "closed" "2026-09-30T09:00:00") := by
  have hnone : Assoc.get? closedCoreDir.logs "ops@box.jsonl" = none := rfl
  have hempty : closedCoreDir.logs = [] := rfl
  unfold RecordDir.appendLine RecordDir.log closedTree treeOf
  rw [Assoc.set_set, Assoc.get?_set_self, hnone, encodeUtf8_append (lineOf _ _), hempty]
  dsimp only [Option.getD_none, Option.getD_some]
  rw [Assoc.get?, if_pos rfl, Option.getD_some, Assoc.set, List.nil_append]
  rfl

theorem closedTree_events : ∃ text,
    (closedTree.recDir "inc-c0ffee00").OwnLog "ops@box.jsonl" text ∧
    readEvents sampleMachine.reader (closedTree.recDir "inc-c0ffee00") =
      .ok [incidentEvent "status" "resolved" "2026-09-30T08:00:00",
        incidentEvent "status" "closed" "2026-09-30T09:00:00"] := by
  have hown : closedCoreDir.OwnLog "ops@box.jsonl" [] :=
    ⟨List.nodup_nil, by decide +kernel, rfl, .inl rfl⟩
  have hnone : closedCoreDir.objects plainReader = [] := rfl
  have hempty : readEvents plainReader closedCoreDir = .ok [] := rfl
  have hfirst := readEvents_appendLine hown
    (wellFormed_incidentEvent "status" "resolved" "2026-09-30T08:00:00") rfl
    (fun x hx => by rw [hnone] at hx; cases hx) hempty
  have hobjects := readEvents_eq hfirst
  have hsecond := readEvents_appendLine (hown.appendLine plainReader _)
    (wellFormed_incidentEvent "status" "closed" "2026-09-30T09:00:00") rfl (fun x hx => ?_) hfirst
  · rw [recDir_closedTree]
    exact ⟨_, (hown.appendLine _ _).appendLine _ _, hsecond⟩
  · have hx : x ∈ [incidentEvent "status" "resolved" "2026-09-30T08:00:00"] := by
      rw [List.nil_append] at hobjects
      rw [hobjects, List.mem_insertionSort]
      exact hx
    rw [List.mem_singleton.mp hx]
    exact lt_of_text_lt (by decide +kernel) _ _

/-- The outage comes back, and the call returns the closed incident: its record exists, so nothing
is created, and the call appends to a log that ends in the closing event. -/
theorem closed_outage_stays_closed :
    ((createIncident sampleMachine closedTree databaseCall).toOption.map fun p =>
      p.2.map fun i => (i.status, i.affectedServices)) = some (some (.closed, ["db"])) ∧
    ¬ShowsOpen databaseCall (createIncident sampleMachine closedTree databaseCall) := by
  -- The core that is read back is the one that the first call of this incident wrote.
  have hcore : loadCore sampleMachine.reader (closedTree.recDir "inc-c0ffee00") =
      some (.obj (newIncidentCore sampleMachine databaseCall "sev3")) := by
    rw [recDir_closedTree, loadCore]
    have hfile := @readFile_newIncidentCore sampleMachine databaseCall 9 (readsShallow_plain 9)
    have hcored : ((closedCoreDir.appendLine plainReader "ops@box.jsonl"
      (incidentEvent "status" "resolved" "2026-09-30T08:00:00")).appendLine plainReader
        "ops@box.jsonl" (incidentEvent "status" "closed" "2026-09-30T09:00:00")).core =
      some (encodeUtf8 ((Json.obj (newIncidentCore sampleMachine databaseCall
        databaseCall.severity)).pretty sampleMachine.reader.floats 0 ++ ['\n'])) := rfl
    rw [hcored, Option.bind_some, hfile]
    rfl
  obtain ⟨text, hown, hread⟩ := closedTree_events
  -- Two status events behind it make the fold closed.
  obtain ⟨i, hi, hclosed, hservices⟩ : ∃ i, incidentOf sampleMachine
      (.obj (newIncidentCore sampleMachine databaseCall "sev3"))
      [incidentEvent "status" "resolved" "2026-09-30T08:00:00",
        incidentEvent "status" "closed" "2026-09-30T09:00:00"] = some i ∧ i.status = .closed ∧
      i.affectedServices = ["db"] := by
    have heval : (incidentOf sampleMachine
      (.obj (newIncidentCore sampleMachine databaseCall "sev3"))
      [incidentEvent "status" "resolved" "2026-09-30T08:00:00",
        incidentEvent "status" "closed" "2026-09-30T09:00:00"]).map
        (fun i => (i.status, i.affectedServices)) = some (.closed, ["db"]) := by decide +kernel
    obtain ⟨i, hi, h⟩ := Option.map_eq_some_iff.mp heval
    exact ⟨i, hi, (Prod.mk.inj h).1, (Prod.mk.inj h).2⟩
  have hid : recordIdOf sampleMachine databaseCall = "inc-c0ffee00" := by decide +kernel
  -- The log of the agent is whole lines, and every event of it is a status event.
  have hready : Ready sampleMachine 9 databaseCall.agent sampleMachine.created.ts 2
      (closedTree.recDir (recordIdOf sampleMachine databaseCall)) := by
    rw [hid]
    refine ⟨[], ⟨hown.nodup, endsWith_logName _ _, ?_, .inl rfl⟩, by decide, fun x hx => ?_⟩
    · rw [recDir_closedTree, RecordDir.log, RecordDir.appendLine, RecordDir.appendLine,
        Assoc.get?_set_ne _ _ (by decide +kernel), Assoc.get?_set_ne _ _ (by decide +kernel)]
      rfl
    · have hmem : x ∈ [incidentEvent "status" "resolved" "2026-09-30T08:00:00",
          incidentEvent "status" "closed" "2026-09-30T09:00:00"] := by
        rw [readEvents_eq hread, List.mem_insertionSort]
        exact hx
      rcases List.mem_pair.mp hmem with rfl | rfl
      · exact .inl ⟨_, rfl, by decide +kernel⟩
      · exact .inl ⟨_, rfl, by decide +kernel⟩
  rw [← hid] at hcore hread
  have hfold : foldIncidentRecord sampleMachine closedTree (recordIdOf sampleMachine databaseCall) =
      .ok (some i) := by
    rw [foldIncidentRecord_eq hcore, hread]
    exact congrArg Except.ok hi
  obtain ⟨tree', i', hannounce, hstatus, hsame⟩ := announceIncident_some
    (readsShallow_plain 9) (by decide +kernel) hready hcore hread hi
  -- The record is there, so the call takes the branch that only announces.
  have hexists : recordExists sampleMachine closedTree (recordIdOf sampleMachine databaseCall) =
      .ok true := by
    rw [hid]
    unfold recordExists resolveFrom
    rw [if_neg List.not_mem_nil, recDir_closedTree]
    rfl
  have hrun : createIncident sampleMachine closedTree databaseCall = .ok (tree', some i') := by
    have hsame : announceAgain sampleMachine closedTree databaseCall true =
        announceIncident sampleMachine closedTree databaseCall :=
      announceAgain_stays hfold fun _ j hj => by
        cases hj
        rw [hclosed]
        decide
    have hput : coredTree sampleMachine closedTree databaseCall = closedTree := by
      unfold coredTree writeCore
      rw [if_pos]
      rw [hid, recDir_closedTree]
      rfl
    rw [createIncident_of_exists hexists (by decide +kernel), hput, hsame, hannounce]
  -- The announced incident keeps the status of the fold, so it is not an open one.
  rw [hrun]
  refine ⟨?_, ?_⟩
  · show some (some (i'.status, i'.affectedServices)) = _
    rw [hstatus, hclosed, hsame.affectedServices, hservices]
  · rintro ⟨tree₁, j, h, hopen, -⟩
    cases h
    rw [hstatus, hclosed] at hopen
    exact absurd hopen (by decide)

end SkCoord.Itil
