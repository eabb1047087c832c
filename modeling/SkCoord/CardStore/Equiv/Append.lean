import SkCoord.CardStore.Equiv.Store

/-!
# What an append does to the events of a card

* `logEvents_appendLine`: one more line is one more event among those of the logs, and
  `mergedEvents_appendLine`: in the merged stream it leaves the other events in their order.
* `readEvents_appendLine_top`: behind logs that can be read, an event later than all others can be
  read and comes last.
* `fold_appendLine_of_ne`: no other card folds differently.
-/

namespace SkCoord

open Python

instance : IsTrans Event (fun a b => Store.eventKey a ≤ Store.eventKey b) :=
  ⟨fun _ _ _ => le_trans⟩

instance : Std.Total (fun a b : Event => Store.eventKey a ≤ Store.eventKey b) :=
  ⟨fun _ _ => le_total _ _⟩

instance : IsTrans (String × List LogLine) (fun p q => p.1 ≤ q.1) := ⟨fun _ _ _ => le_trans⟩

instance : Std.Total (fun p q : String × List LogLine => p.1 ≤ q.1) := ⟨fun _ _ => le_total _ _⟩

namespace Store

variable {env : Env} {st : Store} {cardId file : String}

theorem endsWith_writerFile (env : Env) (agent : String) :
    endsWith (writerFile env agent) ".jsonl" = true := by
  unfold endsWith writerFile
  rw [List.isSuffixOf_iff_suffix, String.toList_append]
  exact List.suffix_append _ _

/-! ### The logs -/

/-- The lines of a log are lines of the directory. -/
theorem mem_logLines {line : LogLine} (h : line ∈ st.logLines cardId file) :
    ∃ lines, (file, lines) ∈ (st.dir cardId).logs ∧ line ∈ lines := by
  unfold logLines at h
  cases hget : Assoc.get? (st.dir cardId).logs file with
  | none =>
    rw [hget] at h
    cases h
  | some lines =>
    rw [hget] at h
    exact ⟨lines, Assoc.mem_of_get? hget, h⟩

/-- A log of a directory that can be read can be read, also before its first line. -/
theorem readLog_logLines
    (h : ∀ p ∈ (st.dir cardId).logs, ∃ events, readLog env cardId p.1 "" p.2 = .ok events)
    (file : String) : ∃ events, readLog env cardId file "" (st.logLines cardId file) = .ok events := by
  unfold logLines
  cases hget : Assoc.get? (st.dir cardId).logs file with
  | none => exact ⟨[], rfl⟩
  | some lines => exact h _ (Assoc.mem_of_get? hget)

/-- **One more line** is one more event among those of the logs. -/
theorem logEvents_appendLine {d : CardDir} {e : Event} (hfile : endsWith file ".jsonl" = true) :
    InsertedAt e (logEvents d) (logEvents (d.appendLine file (.value (.obj e)))) := by
  have hline : LogLine.event? (.value (.obj e)) = some e := rfl
  exact insertedAt_readByName (c := fun name => endsWith name ".jsonl") hline d.nodup hfile

/-! ### The merged stream -/

theorem dir_appendLine_self {line : LogLine} :
    (st.appendLine cardId file line).dir cardId = (st.dir cardId).appendLine file line := by
  unfold appendLine dir
  simp

theorem dir_appendLine_of_ne {line : LogLine} {other : String} (h : other ≠ cardId) :
    (st.appendLine cardId file line).dir other = st.dir other := by
  unfold appendLine dir
  simp [h]

theorem readEvents_appendLine {e : Event} (hfile : endsWith file ".jsonl" = true)
    {events events' : List Event} (h : readEvents env st cardId = .ok events)
    (h' : readEvents env (st.appendLine cardId file (.value (.obj e))) cardId = .ok events') :
    InsertedAt e events events' := by
  rw [readEvents_eq h, readEvents_eq h', dir_appendLine_self]
  obtain ⟨p, q, h1, h2⟩ := logEvents_appendLine (d := st.dir cardId) (e := e) hfile
  rw [h1, h2]
  exact insertionSort_insert _ e q p

/-- **One more line** leaves the other events of the stream in their order. -/
theorem mergedEvents_appendLine {e : Event} (hfile : endsWith file ".jsonl" = true)
    {events events' : List Event} (h : mergedEvents env st cardId = .ok events)
    (h' : mergedEvents env (st.appendLine cardId file (.value (.obj e))) cardId = .ok events') :
    InsertedAt e events events' := by
  unfold mergedEvents at h h'
  obtain ⟨evs, hevs, h⟩ := bind_eq_ok.mp h
  obtain ⟨evs', hevs', h'⟩ := bind_eq_ok.mp h'
  have hins : InsertedAt e evs evs' := readEvents_appendLine hfile hevs hevs'
  have hleg : (st.appendLine cardId file (.value (.obj e))).legacyEvents cardId =
      st.legacyEvents cardId := rfl
  rw [hleg] at h'
  split at h
  · rename_i hempty
    rw [if_pos hempty, pure_eq_ok] at h'
    rw [pure_eq_ok] at h
    rwa [← h, ← h']
  · rename_i hne
    rw [if_neg hne] at h'
    rw [sortByKey_eq_ok h, sortByKey_eq_ok h']
    obtain ⟨p, q, rfl, rfl⟩ := hins
    rw [List.append_assoc, List.append_assoc, List.cons_append]
    exact insertionSort_insert _ e (q ++ st.legacyEvents cardId) p

/-! ### An event later than all others -/

/-- The three places of the sort key hold what `append_event` stamps. -/
structure Stamped (e : Event) (ts : String) : Prop where
  ts : Assoc.get? e "ts" = some (.str ts)
  writer : ∃ w, Assoc.get? e "writer" = some (.str w)
  seq : ∃ i, Assoc.get? e "seq" = some (.int i)

theorem Stamped.eventKey {e : Event} {ts : String} (h : Stamped e ts) :
    ∃ w i, eventKey e = .ofValues (.str ts) (.str w) (.int i) := by
  obtain ⟨w, hw⟩ := h.writer
  obtain ⟨i, hi⟩ := h.seq
  refine ⟨w, i, ?_⟩
  unfold Store.eventKey Dict.getD
  rw [h.ts, hw, hi]
  rfl

theorem Stamped.comparable {a b : Event} {s t : String} (ha : Stamped a s) (hb : Stamped b t) :
    SortKey.Comparable (Store.eventKey a) (Store.eventKey b) := by
  obtain ⟨w, i, ha⟩ := ha.eventKey
  obtain ⟨v, j, hb⟩ := hb.eventKey
  rw [ha, hb]
  show SortKey.comparable [_, _, _] [_, _, _] = true
  simp only [SortKey.comparable]
  split
  · split
    · split <;> rfl
    · rfl
  · rfl

theorem Stamped.later {a b : Event} {s t : String} (ha : Stamped a s) (hb : Stamped b t)
    (hst : s < t) : ¬Store.eventKey b ≤ Store.eventKey a := by
  obtain ⟨w, i, ha⟩ := ha.eventKey
  obtain ⟨v, j, hb⟩ := hb.eventKey
  rw [ha, hb]
  exact SortKey3.not_ofValues_le hst _ _ _ _

/-- Stamped events can be sorted. -/
theorem pairwise_comparable {events : List Event} (h : ∀ e ∈ events, ∃ ts, Stamped e ts) :
    events.Pairwise fun a b => SortKey.Comparable (Store.eventKey a) (Store.eventKey b) := by
  refine List.pairwise_iff_forall_sublist.mpr fun {a b} hab => ?_
  obtain ⟨s, ha⟩ := h a (hab.subset (by simp))
  obtain ⟨t, hb⟩ := h b (hab.subset (by simp))
  exact ha.comparable hb

/-- One more line that points at the one before it. -/
theorem readLog_append {name h : String} {e : Event} (he : e.get "prev_hash" = .str h) :
    ∀ {prev : String} {lines : List LogLine} {events : List Event},
      readLog env cardId name prev lines = .ok events →
      (∀ line ∈ lines, ∃ e, line = .value (.obj e)) →
      h = "" ∨ h = (lines.getLast?.map env.lineHash).getD prev →
      readLog env cardId name prev (lines ++ [.value (.obj e)]) = .ok (events ++ [e])
  | prev, [], events, hread, _, hh => by
    cases hread
    have hchain : checkChain env cardId name prev e = .ok () := by
      unfold checkChain
      rw [he]
      dsimp only
      rw [if_neg]
      · rfl
      · rintro ⟨h1, h2⟩
        exact hh.elim h1 h2
    rw [List.nil_append, readLog, hchain]
    rfl
  | prev, line :: lines, events, hread, hobj, hh => by
    obtain ⟨e', rfl⟩ := hobj line List.mem_cons_self
    unfold readLog at hread
    obtain ⟨_, hchain, hread⟩ := bind_eq_ok.mp hread
    obtain ⟨rest, hrest, hread⟩ := bind_eq_ok.mp hread
    rw [pure_eq_ok] at hread
    have hh' : h = "" ∨
        h = (lines.getLast?.map env.lineHash).getD (env.lineHash (.value (.obj e'))) := by
      refine hh.imp_right fun hh => hh.trans ?_
      rw [List.getLast?_cons]
      cases lines.getLast? <;> rfl
    have hrest' := readLog_append he hrest (fun l hl => hobj l (List.mem_cons_of_mem _ hl)) hh'
    rw [List.cons_append, readLog, ← hread, List.cons_append]
    exact bind_eq_ok.mpr ⟨_, hchain, bind_eq_ok.mpr ⟨_, hrest', rfl⟩⟩

theorem readLogs_ok : ∀ {logs : List (String × List LogLine)},
    (∀ p ∈ logs, ∃ events, readLog env cardId p.1 "" p.2 = .ok events) →
      ∃ events, readLogs env cardId logs = .ok events
  | [], _ => ⟨[], rfl⟩
  | (name, lines) :: logs, h => by
    obtain ⟨events, hevents⟩ := h _ List.mem_cons_self
    obtain ⟨rest, hrest⟩ := readLogs_ok fun p hp => h p (List.mem_cons_of_mem _ hp)
    exact ⟨events ++ rest, bind_eq_ok.mpr ⟨_, hevents, bind_eq_ok.mpr ⟨_, hrest, rfl⟩⟩⟩

/-- Logs of stamped events whose chains hold can be read. -/
theorem readEvents_ok (hvalid : validateCardLockIdentifier cardId = .ok cardId)
    (hlogs : ∀ p ∈ (st.dir cardId).logs, (∃ events, readLog env cardId p.1 "" p.2 = .ok events) ∧
      ∀ e, .value (.obj e) ∈ p.2 → ∃ ts, Stamped e ts) :
    ∃ events, readEvents env st cardId = .ok events := by
  have hmem : ∀ p ∈ sortedLogs (st.dir cardId), p ∈ (st.dir cardId).logs := by
    intro p hp
    rw [sortedLogs, List.mem_insertionSort] at hp
    exact List.mem_of_mem_filter hp
  obtain ⟨events, hevents⟩ := readLogs_ok fun p hp => (hlogs p (hmem p hp)).1
  have hstamped : ∀ e ∈ events, ∃ ts, Stamped e ts := by
    intro e he
    rw [readLogs_eq hevents] at he
    obtain ⟨p, hp, he⟩ := List.mem_flatMap.mp he
    obtain ⟨line, hline, he⟩ := List.mem_filterMap.mp he
    have hline' : line = .value (.obj e) := by
      unfold LogLine.event? at he
      split at he
      · cases he; rfl
      · cases he
    exact (hlogs p (hmem p hp)).2 e (hline' ▸ hline)
  have hpair := pairwise_comparable hstamped
  have hsort : sortByKey eventKey events =
      .ok (events.insertionSort fun a b => eventKey a ≤ eventKey b) := by
    unfold sortByKey
    rw [if_pos hpair]
    rfl
  exact ⟨_, bind_eq_ok.mpr ⟨_, hvalid, bind_eq_ok.mpr ⟨_, hevents, hsort⟩⟩⟩

/-- **An event later than all others** comes last. -/
theorem readEvents_appendLine_top {e : Event} (hfile : endsWith file ".jsonl" = true)
    {events events' : List Event} (h : readEvents env st cardId = .ok events)
    (h' : readEvents env (st.appendLine cardId file (.value (.obj e))) cardId = .ok events')
    (htop : ∀ x ∈ events, ¬Store.eventKey e ≤ Store.eventKey x) : events' = events ++ [e] := by
  have hevents := readEvents_eq h
  rw [hevents] at htop
  rw [hevents, readEvents_eq h', dir_appendLine_self]
  obtain ⟨p, q, h1, h2⟩ := logEvents_appendLine (d := st.dir cardId) (e := e) hfile
  rw [h1] at htop ⊢
  rw [h2]
  exact insertionSort_insert_top _ fun x hx => htop x ((List.mem_insertionSort _).mpr hx)

/-! ### Other cards -/

/-- A fold reads the directory of the card and its legacy mutations. -/
theorem fold_congr {st' : Store} (hdir : st'.dir cardId = st.dir cardId)
    (hleg : st'.legacy = st.legacy) : fold env st' cardId = fold env st cardId := by
  unfold fold loadCore mergedEvents readEvents legacyEvents
  rw [hdir, hleg]

theorem fold_appendLine_of_ne {line : LogLine} {other : String} (h : other ≠ cardId) :
    fold env (st.appendLine cardId file line) other = fold env st other :=
  fold_congr (dir_appendLine_of_ne h) rfl

/-- A line of a log leaves the cores. -/
theorem core_appendLine {line : LogLine} (other : String) :
    ((st.appendLine cardId file line).dir other).core = (st.dir other).core := by
  by_cases h : other = cardId
  · rw [h, dir_appendLine_self]; rfl
  · rw [dir_appendLine_of_ne h]

end Store

end SkCoord
