import SkCoord.Itil.Equiv.CreateIncident
import SkCoord.Itil.Equiv.Outward

/-!
# The place of a status event

The events of a record are read in the order of their keys, whatever log they are in, so the event of
a call may have events behind it that are dated later.  `appendStatus_spec`: the event is read behind
`earlierEvents` and in front of `laterEvents`.
-/

namespace SkCoord.Itil

open Python

variable {r : Reader} {d : RecordDir} {u : Updater} {tree : RecordTree} {x y e : RecordEvent}

/-! ### Events of the log -/

/-- An event as `_append_event` writes it. -/
structure IsLogged (x : RecordEvent) : Prop where
  ts : ∃ t, x.getD "ts" (.str "") = .str t
  node : ∃ n, x.getD "node" (.str "") = .str n
  writer : ∃ w, x.getD "writer" (.str "") = .str w
  seq : ∃ k : ℤ, x.getD "seq" (.int 0) = .int k
  resolutionSummary : x.get "resolution_summary" = .null ∨
    ∃ t, x.get "resolution_summary" = .str t

theorem IsLogged.comparable (hx : IsLogged x) (hy : IsLogged y) :
    SortKey.Comparable (recordKey x) (recordKey y) := by
  obtain ⟨⟨t, ht⟩, ⟨n, hn⟩, ⟨w, hw⟩, ⟨k, hk⟩, -⟩ := hx
  obtain ⟨⟨t', ht'⟩, ⟨n', hn'⟩, ⟨w', hw'⟩, ⟨k', hk'⟩, -⟩ := hy
  unfold recordKey
  rw [ht, hn, hw, hk, ht', hn', hw', hk']
  simp only [SortKey.Comparable, SortKey.ofValues, Json.sortKey, List.flatMap_cons,
    List.flatMap_nil, List.cons_append, List.nil_append, SortKey.comparable]
  repeat' split
  all_goals rfl

/-- The key of an event that an agent appends. -/
def Updater.eventKey (u : Updater) (d : RecordDir) (agent : String) : SortKey :=
  let text := (decodeUtf8 (d.log (logName u.machine agent))).getD []
  .ofValues [.str (u.stamps 0).ts, .str u.machine.hostname, .str agent,
    .int (fileLines text).length]

/-- The events of a record, in order. -/
def Updater.eventsOf (u : Updater) (d : RecordDir) : List RecordEvent :=
  (readEvents u.machine.reader d).toOption.getD []

/-- The events that are ordered before the one that an agent appends. -/
def Updater.earlierEvents (u : Updater) (d : RecordDir) (agent : String) : List RecordEvent :=
  (u.eventsOf d).takeWhile fun x => recordKey x < u.eventKey d agent

/-- The events that are ordered behind it. -/
def Updater.laterEvents (u : Updater) (d : RecordDir) (agent : String) : List RecordEvent :=
  (u.eventsOf d).dropWhile fun x => recordKey x < u.eventKey d agent

/-- The logs of a record are such as `_append_event` leaves them: whole lines in the log of the
agent, and events of which none has the key of the next one. -/
structure Updater.KeepsLogs (u : Updater) (limit : ℕ) (d : RecordDir) (agent : String) : Prop where
  own : ∃ text, d.OwnLog (logName u.machine agent) text ∧ (fileLines text).length < limit
  logged : ∀ x ∈ d.objects u.machine.reader, IsLogged x ∧ recordKey x ≠ u.eventKey d agent

/-! ### One more event -/

/-- An event that is in order between two parts of a list is where the keys pass its own. -/
theorem takeWhile_dropWhile_of_sorted {p q : List RecordEvent} {key : SortKey}
    (hp : ∀ x ∈ p, recordKey x < key) (hq : ∀ x ∈ q, ¬recordKey x < key) :
    (p ++ q).takeWhile (fun x => recordKey x < key) = p ∧
      (p ++ q).dropWhile (fun x => recordKey x < key) = q := by
  have hp' : ∀ x ∈ p, decide (recordKey x < key) = true := fun x hx => decide_eq_true (hp x hx)
  rw [List.takeWhile_append_of_pos hp', List.dropWhile_append_of_pos hp']
  cases q with
  | nil => simp
  | cons x q =>
    have hx : decide (recordKey x < key) = false := decide_eq_false (hq x List.mem_cons_self)
    rw [List.takeWhile_cons_of_neg (by rw [hx]; exact Bool.false_ne_true),
      List.dropWhile_cons_of_neg (by rw [hx]; exact Bool.false_ne_true), List.append_nil]
    exact ⟨rfl, rfl⟩

/-- **One more line** is read where the keys of the events pass its own. -/
theorem readEvents_insert {file : String} {text : List Char} (h : d.OwnLog file text)
    (he : (Json.obj e).WellFormed r.floats)
    (hrefusal : r.refusal ((Json.obj e).dumps r.floats .spaced) = none)
    (hlogged : ∀ x ∈ d.objects r, IsLogged x ∧ recordKey x ≠ recordKey e) (hlog : IsLogged e)
    {events : List RecordEvent} (hread : readEvents r d = .ok events) :
    readEvents r (d.appendLine r file e) =
      .ok (events.takeWhile (fun x => recordKey x < recordKey e) ++
        e :: events.dropWhile fun x => recordKey x < recordKey e) := by
  have hcomparable : ∀ x ∈ d.objects r, SortKey.Comparable (recordKey x) (recordKey e) ∧
      SortKey.Comparable (recordKey e) (recordKey x) := fun x hx =>
    ⟨(hlogged x hx).1.comparable hlog, hlog.comparable (hlogged x hx).1⟩
  have hreadable := (h.readable_appendLine he hrefusal hcomparable).mpr
    (exists_readEvents_iff.mp ⟨events, hread⟩)
  obtain ⟨events', hread'⟩ := exists_readEvents_iff.mpr hreadable
  rw [hread', readEvents_eq hread, readEvents_eq hread']
  obtain ⟨p, q, hold, hnew⟩ := h.objects_appendLine he
  rw [hold] at hlogged ⊢
  rw [hnew]
  obtain ⟨v, w, hsorted, hinserted⟩ :=
    insertionSort_insert (fun a b => recordKey a ≤ recordKey b) e q p
  have hpairs : (v ++ e :: w).Pairwise fun a b => recordKey a ≤ recordKey b :=
    hinserted ▸ List.pairwise_insertionSort _ _
  obtain ⟨-, hw, hv⟩ := List.pairwise_append.mp hpairs
  have hmem : ∀ x ∈ v ++ w, recordKey x ≠ recordKey e := by
    intro x hx
    rw [← hsorted, List.mem_insertionSort] at hx
    exact (hlogged x hx).2
  have hbefore : ∀ x ∈ v, recordKey x < recordKey e := fun x hx =>
    lt_of_le_of_ne (hv x hx e List.mem_cons_self) (hmem x (List.mem_append_left _ hx))
  have hbehind : ∀ x ∈ w, ¬recordKey x < recordKey e := fun x hx =>
    not_lt.mpr (List.rel_of_pairwise_cons hw hx)
  obtain ⟨htake, hdrop⟩ := takeWhile_dropWhile_of_sorted hbefore hbehind
  rw [hsorted, hinserted, htake, hdrop]

/-- The payload of a status event. -/
def IsStatusPayload (newStatus : String) (payload : Dict) : Prop :=
  ∃ note, payload = statusPayload newStatus note ∨
    ∃ summary, payload = statusPayload newStatus note ++ [("resolution_summary", .str summary)]

theorem IncidentUpdate.isStatusPayload (call : IncidentUpdate) :
    IsStatusPayload call.newStatus call.payload := by
  refine ⟨call.note, ?_⟩
  unfold IncidentUpdate.payload
  split
  · exact .inr ⟨_, rfl⟩
  · exact .inl rfl

/-- What a status event says. -/
structure IsStatusEvent (newStatus : String) (e : RecordEvent) : Prop where
  kind : e.get "kind" = .str "status"
  target : e.get "to" = .str newStatus
  logged : IsLogged e

/-- A status event in its dictionary: what the fold reads of it, the key it sorts by, and that it is
a dictionary that the log reads back. -/
theorem newEvent_status (m : Machine) (seq : ℕ) (agent : String) (stamp : Stamp)
    {newStatus : String} {payload : Dict} (hpayload : IsStatusPayload newStatus payload)
    {limit : ℕ} (hseq : seq < limit) {F : FloatText} :
    IsStatusEvent newStatus (newEvent m seq agent "status" payload stamp) ∧
      recordKey (newEvent m seq agent "status" payload stamp) =
        .ofValues [.str stamp.ts, .str m.hostname, .str agent, .int seq] ∧
      (Json.obj (newEvent m seq agent "status" payload stamp)).WellFormed F ∧
      Shallow limit (newEvent m seq agent "status" payload stamp) := by
  -- The header that every event has.
  have hheader : Shallow limit
      [("event_id", .str stamp.eventId), ("ts", .str stamp.ts), ("writer", .str agent),
        ("node", .str m.hostname), ("seq", .int seq), ("kind", .str "status")] := by
    intro p hp
    simp only [List.mem_cons, List.not_mem_nil, or_false] at hp
    rcases hp with rfl | rfl | rfl | rfl | rfl | rfl
    · exact .inl ⟨_, rfl⟩
    · exact .inl ⟨_, rfl⟩
    · exact .inl ⟨_, rfl⟩
    · exact .inl ⟨_, rfl⟩
    · exact .inr (.inr ⟨_, rfl, hseq⟩)
    · exact .inl ⟨_, rfl⟩
  -- The payload carries a note, or a note and a resolution summary.
  obtain ⟨note, rfl | ⟨summary, rfl⟩⟩ := hpayload
  · have hevent : newEvent m seq agent "status" (statusPayload newStatus note) stamp =
        [("event_id", .str stamp.eventId), ("ts", .str stamp.ts), ("writer", .str agent),
          ("node", .str m.hostname), ("seq", .int seq), ("kind", .str "status")] ++
        [("to", .str newStatus), ("note", .str note)] := rfl
    rw [hevent]
    refine ⟨⟨rfl, rfl, ⟨_, rfl⟩, ⟨_, rfl⟩, ⟨_, rfl⟩, ⟨_, rfl⟩, .inl rfl⟩, rfl, ?_,
      List.forall_mem_append.mpr ⟨hheader, ?_⟩⟩
    · simp [Json.WellFormed, Json.FieldsWellFormed, Assoc.keys]
    · exact List.forall_mem_cons.mpr ⟨.inl ⟨_, rfl⟩, List.forall_mem_singleton.mpr (.inl ⟨_, rfl⟩)⟩
  · have hevent : newEvent m seq agent "status" (statusPayload newStatus note ++
          [("resolution_summary", .str summary)]) stamp =
        [("event_id", .str stamp.eventId), ("ts", .str stamp.ts), ("writer", .str agent),
          ("node", .str m.hostname), ("seq", .int seq), ("kind", .str "status")] ++
        [("to", .str newStatus), ("note", .str note), ("resolution_summary", .str summary)] := rfl
    rw [hevent]
    refine ⟨⟨rfl, rfl, ⟨_, rfl⟩, ⟨_, rfl⟩, ⟨_, rfl⟩, ⟨_, rfl⟩, .inr ⟨_, rfl⟩⟩, rfl, ?_,
      List.forall_mem_append.mpr ⟨hheader, ?_⟩⟩
    · simp [Json.WellFormed, Json.FieldsWellFormed, Assoc.keys]
    · exact List.forall_mem_cons.mpr ⟨.inl ⟨_, rfl⟩, List.forall_mem_cons.mpr
        ⟨.inl ⟨_, rfl⟩, List.forall_mem_singleton.mpr (.inl ⟨_, rfl⟩)⟩⟩

/-- What the append of an event leaves of a tree. -/
structure Places (u : Updater) (recordId : String) (agent : AgentName) (tree tree' : RecordTree)
    (e : RecordEvent) : Prop where
  dir : ∃ logs, tree' = tree.put recordId { tree.recDir recordId with logs := logs }
  reads : ∀ events, readEvents u.machine.reader (tree.recDir recordId) = .ok events →
    readEvents u.machine.reader (tree'.recDir recordId) =
      .ok (u.earlierEvents (tree.recDir recordId) agent ++
        e :: u.laterEvents (tree.recDir recordId) agent)
  readable : (tree'.recDir recordId).Readable u.machine.reader ↔
    (tree.recDir recordId).Readable u.machine.reader

/-- **A status event** is read behind the earlier events and in front of the later ones. -/
theorem appendStatus_spec {limit : ℕ} {recordId newStatus : String} {agent : AgentName}
    {payload : Dict} (hreads : u.machine.reader.ReadsShallow limit)
    (hpayload : IsStatusPayload newStatus payload)
    (hkeeps : u.KeepsLogs limit (tree.recDir recordId) agent) :
    ∃ e tree', appendEvent u.machine tree recordId agent "status" payload (u.stamps 0) =
        .ok tree' ∧ IsStatusEvent newStatus e ∧ Places u recordId agent tree tree' e := by
  obtain ⟨⟨text, hown, hlimit⟩, hlogged⟩ := hkeeps
  obtain ⟨hevent, hkey, hwell, hshallow⟩ := newEvent_status u.machine (fileLines text).length agent
    (u.stamps 0) hpayload hlimit (F := u.machine.reader.floats)
  set e := newEvent u.machine (fileLines text).length agent "status" payload (u.stamps 0) with he
  have hcallKey : u.eventKey (tree.recDir recordId) agent = recordKey e := by
    rw [hkey, Updater.eventKey, hown.decoded]
    rfl
  rw [hcallKey] at hlogged
  have hrefusal := hreads.event e hshallow
  have hdir : (tree.put recordId ((tree.recDir recordId).appendLine u.machine.reader
      (logName u.machine agent) e)).recDir recordId =
      (tree.recDir recordId).appendLine u.machine.reader (logName u.machine agent) e :=
    recDir_put_self _ _ _
  refine ⟨e, tree.put recordId ((tree.recDir recordId).appendLine u.machine.reader
    (logName u.machine agent) e), ?_, hevent, ⟨_, rfl⟩, fun events hread => ?_, ?_⟩
  · unfold appendEvent
    exact bind_eq_ok.mpr ⟨text, readText_eq_ok.mpr hown.decoded, rfl⟩
  · rw [hdir, readEvents_insert hown hwell hrefusal hlogged hevent.logged hread,
      Updater.earlierEvents, Updater.laterEvents, Updater.eventsOf, hread, hcallKey]
    rfl
  · rw [hdir]
    exact hown.readable_appendLine hwell hrefusal fun x hx =>
      ⟨(hlogged x hx).1.comparable hevent.logged, hevent.logged.comparable (hlogged x hx).1⟩

end SkCoord.Itil
