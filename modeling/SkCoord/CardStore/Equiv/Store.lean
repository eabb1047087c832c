import SkCoord.CardStore.Equiv.Writes
import SkCoord.CardStore.Store

/-!
# What a read of the store returns

* `readEvents_eq`: the events of the lines of all logs, sorted.
* `fold_eq_some`: a folded card is the fold of its core over the merged events, and
  `fold_metaData`: it has the metadata of its core, but for the fields that events write.
* `appendEvent_eq_ok`: what an append requires, and what it leaves.
-/

namespace SkCoord

open Python

/-- The event of a line. -/
def LogLine.event? : LogLine → Option Event
  | .value (.obj e) => some e
  | _ => none

/-- An identifier that is accepted is returned as it is. -/
theorem validate_eq {cardId r : String} (h : validateCardLockIdentifier cardId = .ok r) :
    r = cardId := by
  unfold validateCardLockIdentifier at h
  split at h <;> cases h
  rfl

namespace Store

variable {env : Env} {st : Store} {cardId : String}

/-- The events on the lines of the logs, log by log. -/
def logEvents (d : CardDir) : List Event :=
  (sortedLogs d).flatMap fun p => p.2.filterMap LogLine.event?

theorem readLog_eq {name : String} : ∀ {prev : String} {lines : List LogLine} {events : List Event},
    readLog env cardId name prev lines = .ok events → events = lines.filterMap LogLine.event?
  | _, [], _, h => by cases h; rfl
  | prev, .blank :: l, events, h => by
    rw [readLog] at h
    rw [List.filterMap_cons, readLog_eq h]
    rfl
  | _, .malformed _ :: _, _, h => by cases h
  | prev, .value v :: l, events, h => by
    unfold readLog at h
    split at h
    · obtain ⟨-, -, h⟩ := bind_eq_ok.mp h
      obtain ⟨rest, hrest, h⟩ := bind_eq_ok.mp h
      rw [pure_eq_ok] at h
      rw [← h, readLog_eq hrest]
      rfl
    · cases h

theorem readLogs_eq : ∀ {logs : List (String × List LogLine)} {events : List Event},
    readLogs env cardId logs = .ok events →
      events = logs.flatMap fun p => p.2.filterMap LogLine.event?
  | [], _, h => by cases h; rfl
  | (name, lines) :: logs, events, h => by
    rw [readLogs] at h
    obtain ⟨evs, hevs, h⟩ := bind_eq_ok.mp h
    obtain ⟨rest, hrest, h⟩ := bind_eq_ok.mp h
    rw [pure_eq_ok] at h
    rw [← h, readLog_eq hevs, readLogs_eq hrest]
    rfl

theorem readEvents_eq {events : List Event} (h : readEvents env st cardId = .ok events) :
    events = (logEvents (st.dir cardId)).insertionSort fun a b => eventKey a ≤ eventKey b := by
  unfold readEvents at h
  obtain ⟨-, -, h⟩ := bind_eq_ok.mp h
  obtain ⟨evs, hevs, h⟩ := bind_eq_ok.mp h
  rw [sortByKey_eq_ok h, readLogs_eq hevs]
  rfl

theorem mem_readEvents_iff {events : List Event} (h : readEvents env st cardId = .ok events)
    {e : Event} : e ∈ events ↔ e ∈ logEvents (st.dir cardId) := by
  rw [readEvents_eq h, List.mem_insertionSort]

/-- The event of a line of a log is read. -/
theorem mem_logEvents {d : CardDir} {file : String} {lines : List LogLine} {e : Event}
    (hfile : (file, lines) ∈ d.logs) (hname : endsWith file ".jsonl" = true)
    (hline : .value (.obj e) ∈ lines) : e ∈ logEvents d := by
  have hsorted : (file, lines) ∈ sortedLogs d := by
    rw [sortedLogs, List.mem_insertionSort, List.mem_filter]
    exact ⟨hfile, hname⟩
  exact List.mem_flatMap.mpr ⟨_, hsorted, List.mem_filterMap.mpr ⟨_, hline, rfl⟩⟩

theorem mergedEvents_perm {events : List Event} (h : mergedEvents env st cardId = .ok events) :
    events.Perm (logEvents (st.dir cardId) ++ st.legacyEvents cardId) := by
  unfold mergedEvents at h
  obtain ⟨evs, hevs, h⟩ := bind_eq_ok.mp h
  have hperm : evs.Perm (logEvents (st.dir cardId)) := by
    rw [readEvents_eq hevs]
    exact List.perm_insertionSort _ _
  split at h
  · rename_i hempty
    rw [pure_eq_ok] at h
    rw [← h, List.isEmpty_iff.mp hempty, List.append_nil]
    exact hperm
  · exact (perm_of_sortByKey h).trans (hperm.append_right _)

theorem loadCore_eq_some {cardId : String} {core : CardCore}
    (h : loadCore st cardId = .ok (some core)) : (st.dir cardId).core = .present core := by
  unfold loadCore at h
  obtain ⟨-, -, h⟩ := bind_eq_ok.mp h
  cases hc : (st.dir cardId).core with
  | absent => rw [hc] at h; cases h
  | malformed => rw [hc] at h; cases h
  | present core' => rw [hc] at h; cases h; rfl

theorem loadCore_eq_none {cardId : String} (h : loadCore st cardId = .ok none) :
    (st.dir cardId).core = .absent := by
  unfold loadCore at h
  obtain ⟨_, _, h⟩ := bind_eq_ok.mp h
  cases hc : (st.dir cardId).core with
  | absent => rfl
  | malformed => rw [hc] at h; cases h
  | present core => rw [hc] at h; cases h

theorem loadCore_of_present (hvalid : validateCardLockIdentifier cardId = .ok cardId)
    {core : CardCore} (h : (st.dir cardId).core = .present core) :
    st.loadCore cardId = .ok (some core) := by
  unfold loadCore
  rw [hvalid, h]
  rfl

theorem loadCore_of_absent (hvalid : validateCardLockIdentifier cardId = .ok cardId)
    (h : (st.dir cardId).core = .absent) : st.loadCore cardId = .ok none := by
  unfold loadCore
  rw [hvalid, h]
  rfl

/-- A folded card is the fold of its core over the merged events. -/
theorem fold_eq_some {c : Card} : fold env st cardId = .ok (some c) ↔
    ∃ core events s, st.loadCore cardId = .ok (some core) ∧
      mergedEvents env st cardId = .ok events ∧ foldCard cardId core events = .ok s ∧ s.card = c := by
  unfold fold foldCard
  constructor
  · intro h
    obtain ⟨core?, hcore, h⟩ := bind_eq_ok.mp h
    cases core? with
    | none => cases h
    | some core =>
      obtain ⟨s₀, h0, h⟩ := bind_eq_ok.mp h
      obtain ⟨events, hevents, h⟩ := bind_eq_ok.mp h
      obtain ⟨s, hs, h⟩ := bind_eq_ok.mp h
      cases h
      exact ⟨core, events, s, hcore, hevents, bind_eq_ok.mpr ⟨s₀, h0, hs⟩, rfl⟩
  · rintro ⟨core, events, s, hcore, hevents, h, rfl⟩
    obtain ⟨s₀, h0, hs⟩ := bind_eq_ok.mp h
    refine bind_eq_ok.mpr ⟨some core, hcore, bind_eq_ok.mpr ⟨s₀, h0, bind_eq_ok.mpr ?_⟩⟩
    exact ⟨events, hevents, bind_eq_ok.mpr ⟨s, hs, rfl⟩⟩

/-- **A folded card** has the metadata of its core, but for the fields that events write. -/
theorem fold_metaData {core : CardCore} {c : Card}
    (hcore : (st.dir cardId).core = .present core) (h : st.fold env cardId = .ok (some c)) :
    SameBirth core.metaData c.metaData := by
  obtain ⟨core', events, s, hload, -, hfold, rfl⟩ := fold_eq_some.mp h
  cases hcore.symm.trans (loadCore_eq_some hload)
  obtain ⟨s₀, h0, hevents⟩ := bind_eq_ok.mp hfold
  refine foldlM_invariant (I := fun u => SameBirth core.metaData u.card.metaData) ?_ events s₀ s
    (foldInit_births h0).birth hevents
  exact fun u e u' hu hstep => hu.trans (FoldState.step_writes hstep).birth

/-- What an append requires, and what it leaves. -/
theorem appendEvent_eq_ok {action agent : String} {payload : Dict} {stamp : Stamp} {st' : Store}
    {e : Event} (h : appendEvent env st cardId action agent payload stamp = .ok (st', e)) :
    ∃ payload', normalisePayload env action payload = .ok payload' ∧
      requireFoldableCore env st cardId = .ok () ∧ requireNotVoided env st cardId action = .ok () ∧
      let lines := st.logLines cardId (writerFile env agent)
      (replayedEvent lines payload' = .ok (some e) ∧ st' = st) ∨
        (replayedEvent lines payload' = .ok none ∧
          e = newEvent env lines action agent payload' stamp ∧
          st' = st.appendLine cardId (writerFile env agent) (.value (.obj e))) := by
  unfold appendEvent at h
  obtain ⟨-, -, h⟩ := bind_eq_ok.mp h
  obtain ⟨payload', hpay, h⟩ := bind_eq_ok.mp h
  obtain ⟨-, -, h⟩ := bind_eq_ok.mp h
  obtain ⟨⟨⟩, hfold, h⟩ := bind_eq_ok.mp h
  obtain ⟨⟨⟩, hvoid, h⟩ := bind_eq_ok.mp h
  obtain ⟨replayed, hrep, h⟩ := bind_eq_ok.mp h
  refine ⟨payload', hpay, hfold, hvoid, ?_⟩
  cases replayed with
  | some x => cases h; exact Or.inl ⟨hrep, rfl⟩
  | none => cases h; exact Or.inr ⟨hrep, rfl, rfl⟩

end Store

end SkCoord
