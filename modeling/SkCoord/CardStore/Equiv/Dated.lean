import SkCoord.CardStore.Equiv.Append
import SkCoord.CardStore.Equiv.Placed
import SkCoord.CardStore.Equiv.VoidTerminal

/-!
# Events later than everything recorded

`Store.Dated` says that the logs of a card and the legacy mutations about it are stamped with times
before a given one, and `Store.FoldsTo` that the card folds, with the variables the loop ends in.

* `Dated.append`: an event with a time behind comes last in the merged stream.
* `FoldsTo.append`: so the fold goes one step.
* `FoldsTo.appendEvent` and `FoldsTo.appendEvent_ok`: what `append_event` does to such a card, and
  when it does not raise.
-/

namespace SkCoord

open Python

namespace Store

variable {env : Env} {st : Store} {cardId file action agent : String} {payload : Dict}
  {stamp : Stamp} {lines : List LogLine}

/-! ### The new event -/

/-- A payload that leaves the stamps of the store alone. -/
structure PlainPayload (payload : Dict) : Prop where
  nodup : (Assoc.keys payload).Nodup
  stamps : ∀ k ∈ ["ts", "writer", "seq", "action", "prev_hash"], k ∉ Assoc.keys payload

namespace PlainPayload

theorem get?_newEvent (hp : PlainPayload payload) (k : String) :
    Assoc.get? (newEvent env lines action agent payload stamp) k =
      (Assoc.get? payload k).or (Assoc.get? [("event_id", .str stamp.eventId),
        ("ts", .str stamp.ts), ("writer", .str agent), ("node", .str env.hostname),
        ("seq", .int lines.length), ("action", .str action),
        ("prev_hash", .str ((lines.getLast?.map env.lineHash).getD ""))] k) :=
  Assoc.get?_update k payload _ hp.nodup

/-- A stamp of the new event. -/
theorem get?_stamp (hp : PlainPayload payload) {k : String}
    (hk : k ∈ ["ts", "writer", "seq", "action", "prev_hash"]) :
    Assoc.get? (newEvent env lines action agent payload stamp) k =
      Assoc.get? [("event_id", .str stamp.eventId),
        ("ts", .str stamp.ts), ("writer", .str agent), ("node", .str env.hostname),
        ("seq", .int lines.length), ("action", .str action),
        ("prev_hash", .str ((lines.getLast?.map env.lineHash).getD ""))] k := by
  rw [hp.get?_newEvent, (Assoc.get?_eq_none_iff payload k).mpr (hp.stamps k hk)]
  rfl

/-- A field of the payload. -/
theorem get_field (hp : PlainPayload payload) {k : String} {v : Json}
    (hk : Assoc.get? payload k = some v) :
    Dict.get (newEvent env lines action agent payload stamp) k = v := by
  rw [Dict.get, hp.get?_newEvent, hk]
  rfl

theorem get_action (hp : PlainPayload payload) :
    Dict.get (newEvent env lines action agent payload stamp) "action" = .str action := by
  rw [Dict.get, hp.get?_stamp (by decide)]
  rfl

theorem get_prevHash (hp : PlainPayload payload) :
    Dict.get (newEvent env lines action agent payload stamp) "prev_hash" =
      .str ((lines.getLast?.map env.lineHash).getD "") := by
  rw [Dict.get, hp.get?_stamp (by decide)]
  rfl

theorem stamped (hp : PlainPayload payload) :
    Stamped (newEvent env lines action agent payload stamp) stamp.ts := by
  refine ⟨?_, ⟨agent, ?_⟩, ⟨lines.length, ?_⟩⟩
  · rw [hp.get?_stamp (by decide)]
    rfl
  · rw [hp.get?_stamp (by decide)]
    rfl
  · rw [hp.get?_stamp (by decide)]
    rfl

end PlainPayload

/-! ### The merged stream -/

/-- Everything recorded about a card is dated before `ts`, in logs whose lines are events. -/
structure Dated (env : Env) (st : Store) (cardId ts : String) : Prop where
  valid : validateCardLockIdentifier cardId = .ok cardId
  readable : ∀ p ∈ (st.dir cardId).logs, ∃ events, readLog env cardId p.1 "" p.2 = .ok events
  lines : ∀ p ∈ (st.dir cardId).logs, ∀ line ∈ p.2,
    ∃ e t, line = .value (.obj e) ∧ Stamped e t ∧ t < ts
  legacy : ∀ e ∈ st.legacyEvents cardId, ∃ t, Stamped e t ∧ t < ts

/-- A card of which nothing is recorded. -/
theorem dated_of_nothing {ts : String} (hvalid : validateCardLockIdentifier cardId = .ok cardId)
    (hlogs : (st.dir cardId).logs = []) (hlegacy : st.legacyEvents cardId = []) :
    st.Dated env cardId ts := by
  refine ⟨hvalid, fun p hp => ?_, fun p hp => ?_, fun e he => ?_⟩
  · rw [hlogs] at hp
    cases hp
  · rw [hlogs] at hp
    cases hp
  · rw [hlegacy] at he
    cases he

theorem Dated.mono {ts ts' : String} (h : st.Dated env cardId ts) (hts : ts ≤ ts') :
    st.Dated env cardId ts' := by
  refine ⟨h.valid, h.readable, fun p hp line hline => ?_, fun e he => ?_⟩
  · obtain ⟨e, t, hline, hstamp, ht⟩ := h.lines p hp line hline
    exact ⟨e, t, hline, hstamp, ht.trans_le hts⟩
  · obtain ⟨t, hstamp, ht⟩ := h.legacy e he
    exact ⟨t, hstamp, ht.trans_le hts⟩

/-- What is recorded of a card is what its directory and the legacy mutations hold. -/
theorem Dated.congr {st' : Store} {ts : String} (h : st.Dated env cardId ts)
    (hlogs : (st'.dir cardId).logs = (st.dir cardId).logs) (hlegacy : st'.legacy = st.legacy) :
    st'.Dated env cardId ts := by
  refine ⟨h.valid, hlogs ▸ h.readable, hlogs ▸ h.lines, ?_⟩
  unfold legacyEvents
  rw [hlegacy]
  exact h.legacy

theorem Dated.logLines {ts : String} (h : st.Dated env cardId ts) (file : String) :
    (∃ events, readLog env cardId file "" (st.logLines cardId file) = .ok events) ∧
      ∀ line ∈ st.logLines cardId file, ∃ e t, line = .value (.obj e) ∧ Stamped e t ∧ t < ts := by
  refine ⟨readLog_logLines h.readable file, fun line hline => ?_⟩
  obtain ⟨lines, hmem, hline⟩ := mem_logLines hline
  exact h.lines _ hmem line hline

theorem Dated.readEvents {ts : String} (h : st.Dated env cardId ts) :
    ∃ events, readEvents env st cardId = .ok events ∧
      ∀ e ∈ events, ∃ t, Stamped e t ∧ t < ts := by
  obtain ⟨events, hevents⟩ := readEvents_ok h.valid fun p hp =>
    ⟨h.readable p hp, fun e he => by
      obtain ⟨e', t, heq, hstamp, -⟩ := h.lines p hp _ he
      cases heq
      exact ⟨t, hstamp⟩⟩
  refine ⟨events, hevents, fun e he => ?_⟩
  rw [mem_readEvents_iff hevents] at he
  obtain ⟨p, hp, he⟩ := List.mem_flatMap.mp he
  obtain ⟨line, hline, he⟩ := List.mem_filterMap.mp he
  rw [sortedLogs, List.mem_insertionSort] at hp
  obtain ⟨e', t, rfl, hstamp, ht⟩ := h.lines p (List.mem_of_mem_filter hp) line hline
  cases he
  exact ⟨t, hstamp, ht⟩

/-- Stamped events can be sorted. -/
theorem sortByKey_of_stamped {events : List Event} (h : ∀ e ∈ events, ∃ t, Stamped e t) :
    sortByKey eventKey events = .ok (events.insertionSort fun a b => eventKey a ≤ eventKey b) := by
  have hpair : events.Pairwise fun a b => SortKey.Comparable (eventKey a) (eventKey b) := by
    refine List.pairwise_iff_forall_sublist.mpr fun {a b} hab => ?_
    obtain ⟨s, ha⟩ := h a (hab.subset (by simp))
    obtain ⟨t, hb⟩ := h b (hab.subset (by simp))
    exact ha.comparable hb
  unfold sortByKey
  rw [if_pos hpair]
  rfl

theorem Dated.mergedEvents {ts : String} (h : st.Dated env cardId ts) :
    ∃ events, mergedEvents env st cardId = .ok events ∧
      ∀ e ∈ events, ∃ t, Stamped e t ∧ t < ts := by
  obtain ⟨events, hevents, hstamped⟩ := h.readEvents
  by_cases hempty : (st.legacyEvents cardId).isEmpty = true
  · refine ⟨events, bind_eq_ok.mpr ⟨events, hevents, ?_⟩, hstamped⟩
    rw [if_pos hempty]
    rfl
  · have hall : ∀ e ∈ events ++ st.legacyEvents cardId, ∃ t, Stamped e t ∧ t < ts := by
      intro e he
      rcases List.mem_append.mp he with he | he
      · exact hstamped e he
      · exact h.legacy e he
    refine ⟨(events ++ st.legacyEvents cardId).insertionSort fun a b => eventKey a ≤ eventKey b,
      bind_eq_ok.mpr ⟨events, hevents, ?_⟩, fun e he => ?_⟩
    · rw [if_neg hempty]
      exact sortByKey_of_stamped fun e he => (hall e he).imp fun _ ht => ht.1
    · exact hall e ((List.mem_insertionSort _).mp he)

theorem mergedEvents_sorted {events : List Event} (h : mergedEvents env st cardId = .ok events) :
    events.Pairwise fun a b => eventKey a ≤ eventKey b := by
  unfold Store.mergedEvents at h
  obtain ⟨evs, hevs, h⟩ := bind_eq_ok.mp h
  split at h
  · rw [← pure_eq_ok.mp h, readEvents_eq hevs]
    exact List.pairwise_insertionSort _ _
  · rw [sortByKey_eq_ok h]
    exact List.pairwise_insertionSort _ _

/-- One more line, chained to the log it comes behind and dated before the new time. -/
theorem Dated.appendLine {e : Event} {ts t ts' : String} (h : st.Dated env cardId ts)
    (hstamp : Stamped e t) (hts : ts ≤ ts') (ht : t < ts')
    (hprev : Dict.get e "prev_hash" =
      .str (((st.logLines cardId file).getLast?.map env.lineHash).getD "")) :
    (st.appendLine cardId file (.value (.obj e))).Dated env cardId ts' := by
  have hlogs : ∀ p ∈ ((st.appendLine cardId file (.value (.obj e))).dir cardId).logs,
      p ∈ (st.dir cardId).logs ∨
        p = (file, st.logLines cardId file ++ [.value (.obj e)]) := by
    intro p hp
    rw [dir_appendLine_self] at hp
    exact (Assoc.mem_set hp).symm
  obtain ⟨⟨read, hread⟩, hlines⟩ := h.logLines file
  refine ⟨h.valid, fun p hp => ?_, fun p hp line hline => ?_, fun x hx => ?_⟩
  · rcases hlogs p hp with hp | rfl
    · exact h.readable p hp
    · exact ⟨_, readLog_append hprev hread
        (fun line hline => (hlines line hline).imp fun _ ⟨_, hl, _⟩ => hl) (.inr rfl)⟩
  · rcases hlogs p hp with hp | rfl
    · obtain ⟨e', s, hl, hs, hst⟩ := h.lines p hp line hline
      exact ⟨e', s, hl, hs, hst.trans_le hts⟩
    · rcases List.mem_append.mp hline with hline | hline
      · obtain ⟨e', s, hl, hs, hst⟩ := hlines line hline
        exact ⟨e', s, hl, hs, hst.trans_le hts⟩
      · exact ⟨e, t, List.mem_singleton.mp hline, hstamp, ht⟩
  · obtain ⟨s, hs, hst⟩ := h.legacy x hx
    exact ⟨s, hs, hst.trans_le hts⟩

/-- **A later event comes last** in the merged stream, and is dated before any time behind it. -/
theorem Dated.append {e : Event} {ts t ts' : String} (h : st.Dated env cardId ts)
    (hfile : endsWith file ".jsonl" = true) (hstamp : Stamped e t) (hts : ts ≤ t) (ht : t < ts')
    (hprev : Dict.get e "prev_hash" =
      .str (((st.logLines cardId file).getLast?.map env.lineHash).getD ""))
    {events : List Event} (hevents : Store.mergedEvents env st cardId = .ok events) :
    (st.appendLine cardId file (.value (.obj e))).Dated env cardId ts' ∧
      Store.mergedEvents env (st.appendLine cardId file (.value (.obj e))) cardId =
        .ok (events ++ [e]) := by
  have hdated := h.appendLine hstamp (hts.trans ht.le) ht hprev
  obtain ⟨events', hevents', -⟩ := hdated.mergedEvents
  obtain ⟨events₀, hevents₀, hbefore⟩ := h.mergedEvents
  cases hevents.symm.trans hevents₀
  refine ⟨hdated, hevents'.trans (congrArg Except.ok ?_)⟩
  obtain ⟨p, q, rfl, rfl⟩ := mergedEvents_appendLine hfile hevents hevents'
  -- nothing that was there before comes behind the new event
  have hq : q = [] := by
    refine List.eq_nil_iff_forall_not_mem.mpr fun x hx => ?_
    obtain ⟨s, hs, hst⟩ := hbefore x (List.mem_append_right p hx)
    have hle := List.rel_of_pairwise_cons
      (List.pairwise_append.mp (mergedEvents_sorted hevents')).2.1 hx
    exact hs.later hstamp (hst.trans_le hts) hle
  rw [hq, List.append_nil]

/-! ### The fold -/

/-- A card, dated before `ts`, that folds to the variables `s` of the loop. -/
structure FoldsTo (env : Env) (st : Store) (cardId ts : String) (s : FoldState) : Prop where
  dated : st.Dated env cardId ts
  folds : ∃ core events, st.loadCore cardId = .ok (some core) ∧
    Store.mergedEvents env st cardId = .ok events ∧ foldCard cardId core events = .ok s

theorem FoldsTo.fold {ts : String} {s : FoldState} (h : st.FoldsTo env cardId ts s) :
    st.fold env cardId = .ok (some s.card) := by
  obtain ⟨core, events, hcore, hevents, hs⟩ := h.folds
  exact fold_eq_some.mpr ⟨core, events, s, hcore, hevents, hs, rfl⟩

theorem FoldsTo.mono {ts ts' : String} {s : FoldState} (h : st.FoldsTo env cardId ts s)
    (hts : ts ≤ ts') : st.FoldsTo env cardId ts' s := ⟨h.dated.mono hts, h.folds⟩

theorem FoldsTo.congr {st' : Store} {ts : String} {s : FoldState} (h : st.FoldsTo env cardId ts s)
    (hdir : st'.dir cardId = st.dir cardId) (hlegacy : st'.legacy = st.legacy) :
    st'.FoldsTo env cardId ts s := by
  refine ⟨h.dated.congr (congrArg _ hdir) hlegacy, ?_⟩
  have hfolds := h.folds
  unfold loadCore Store.mergedEvents Store.readEvents legacyEvents at hfolds ⊢
  rw [hdir, hlegacy]
  exact hfolds

/-- A dated card whose fold returns has variables that it folds to. -/
theorem Dated.foldsTo {ts : String} {c : Card} (h : st.Dated env cardId ts)
    (hc : st.fold env cardId = .ok (some c)) : ∃ s, st.FoldsTo env cardId ts s ∧ s.card = c := by
  obtain ⟨core, events, s, hcore, hevents, hs, rfl⟩ := fold_eq_some.mp hc
  exact ⟨s, ⟨h, core, events, hcore, hevents, hs⟩, rfl⟩

theorem loadCore_appendLine {line : LogLine} :
    (st.appendLine cardId file line).loadCore cardId = st.loadCore cardId := by
  unfold loadCore
  rw [core_appendLine]

/-- A card that folds anchors the lock. -/
theorem FoldsTo.requireLockAnchor {ts : String} {s : FoldState} (h : st.FoldsTo env cardId ts s)
    (hid : s.card.id = cardId) : st.requireLockAnchor env cardId = .ok () := by
  obtain ⟨core, events, hcore, hevents, hs⟩ := h.folds
  have hcoreId : core.id = cardId := by
    obtain ⟨s₀, h0, hs⟩ := bind_eq_ok.mp hs
    exact (foldInit_births h0).id.symm.trans ((FoldState.foldEvents_same hs).1.symm.trans hid)
  unfold Store.requireLockAnchor
  rw [loadCore_eq_some hcore]
  dsimp only
  rw [if_pos hcoreId]
  split <;> rfl

/-- **The fold goes one step** over an event that is later than everything recorded. -/
theorem FoldsTo.append {e : Event} {ts t ts' : String} {s s' : FoldState}
    (h : st.FoldsTo env cardId ts s) (hfile : endsWith file ".jsonl" = true)
    (hstamp : Stamped e t) (hts : ts ≤ t) (ht : t < ts')
    (hprev : Dict.get e "prev_hash" =
      .str (((st.logLines cardId file).getLast?.map env.lineHash).getD ""))
    (hstep : FoldState.step cardId s e = .ok s') :
    (st.appendLine cardId file (.value (.obj e))).FoldsTo env cardId ts' s' := by
  obtain ⟨core, events, hcore, hevents, hs⟩ := h.folds
  obtain ⟨hdated, hmerged⟩ := h.dated.append hfile hstamp hts ht hprev hevents
  refine ⟨hdated, core, events ++ [e], loadCore_appendLine.trans hcore, hmerged, ?_⟩
  obtain ⟨s₀, h0, hs⟩ := bind_eq_ok.mp hs
  exact bind_eq_ok.mpr ⟨s₀, h0, foldlM_append_eq_ok.mpr
    ⟨s, hs, foldlM_cons_eq_ok.mpr ⟨s', hstep, rfl⟩⟩⟩

/-- An event that the loop raises on leaves a card that cannot be folded. -/
theorem FoldsTo.append_error {e : Event} {ts t ts' : String} {s : FoldState} {err : PyError}
    (h : st.FoldsTo env cardId ts s) (hfile : endsWith file ".jsonl" = true)
    (hstamp : Stamped e t) (hts : ts ≤ t) (ht : t < ts')
    (hprev : Dict.get e "prev_hash" =
      .str (((st.logLines cardId file).getLast?.map env.lineHash).getD ""))
    (hstep : FoldState.step cardId s e = .error err) :
    (st.appendLine cardId file (.value (.obj e))).fold env cardId = .error err := by
  obtain ⟨core, events, hcore, hevents, hs⟩ := h.folds
  obtain ⟨-, hmerged⟩ := h.dated.append hfile hstamp hts ht hprev hevents
  obtain ⟨s₀, h0, hs⟩ := bind_eq_ok.mp hs
  have hrun : s₀.foldEvents cardId (events ++ [e]) = .error err := by
    unfold FoldState.foldEvents at hs ⊢
    rw [List.foldlM_append, hs]
    show (FoldState.step cardId s e >>= fun t => [].foldlM (FoldState.step cardId) t) = _
    rw [hstep]
    rfl
  unfold Store.fold
  rw [loadCore_appendLine, hcore]
  show (foldInit cardId core >>= _) = _
  rw [h0]
  show (Store.mergedEvents env _ cardId >>= _) = _
  rw [hmerged]
  show (s₀.foldEvents cardId (events ++ [e]) >>= _) = _
  rw [hrun]
  rfl

/-! ### The void flag -/

/-- A fold is voided when one of its events is a void. -/
theorem foldEvents_voided : ∀ {events : List Event} {s t : FoldState},
    FoldState.foldEvents cardId s events = .ok t →
      t.voided = (s.voided || events.any fun e => e.action == .void)
  | [], s, t, h => by
    rw [← pure_eq_ok.mp h, List.any_nil, Bool.or_false]
  | e :: events, s, t, h => by
    obtain ⟨u, hu, h⟩ := foldlM_cons_eq_ok.mp h
    have hnext : u.voided = (s.voided || e.action == .void) :=
      (congrArg ClaimView.voided (FoldState.step_view hu)).trans ClaimView.next_voided
    rw [foldEvents_voided h, hnext, List.any_cons, Bool.or_assoc]

/-- No legacy mutation is a void. -/
theorem action_legacy_ne_void {e : Event} (he : e ∈ st.legacyEvents cardId) :
    e.action ≠ .void := by
  obtain ⟨m, -, rfl⟩ := List.mem_map.mp he
  have haction : Event.action m.toEvent = Action.ofString m.action.value := rfl
  rw [haction]
  cases m.action <;> decide

/-- A card whose logs have no void does not fold voided. -/
theorem FoldsTo.not_voided {ts : String} {s : FoldState} (h : st.FoldsTo env cardId ts s)
    {events : List Event} (hevents : Store.readEvents env st cardId = .ok events)
    (hnone : ∀ e ∈ events, e.action ≠ .void) : s.voided = false := by
  obtain ⟨core, merged, -, hmerged, hs⟩ := h.folds
  obtain ⟨s₀, h0, hs⟩ := bind_eq_ok.mp hs
  rw [foldEvents_voided hs, foldInit_voided h0, Bool.false_or, List.any_eq_false]
  intro e he
  rw [(mergedEvents_perm hmerged).mem_iff, List.mem_append, ← mem_readEvents_iff hevents] at he
  have hne : e.action ≠ .void := he.elim (hnone e) action_legacy_ne_void
  simpa using hne

/-- A card that is not voided has no void in its logs. -/
theorem FoldsTo.requireNotVoided {ts : String} {s : FoldState} (h : st.FoldsTo env cardId ts s)
    (hvoided : s.voided = false) (action : String) :
    Store.requireNotVoided env st cardId action = .ok () := by
  obtain ⟨core, merged, -, hmerged, hs⟩ := h.folds
  obtain ⟨s₀, -, hs⟩ := bind_eq_ok.mp hs
  have hnone : (merged.any fun e => e.action == .void) = false := by
    have hfold := foldEvents_voided hs
    rw [hvoided] at hfold
    exact (Bool.or_eq_false_iff.mp hfold.symm).2
  obtain ⟨events, hevents, -⟩ := h.dated.readEvents
  unfold Store.requireNotVoided
  split
  · refine bind_eq_ok.mpr ⟨events, hevents, ?_⟩
    have hread : (events.any fun e => (e.get "action").pyEq (.str "void")) = false := by
      refine List.any_eq_false.mpr fun e he hact => ?_
      have hmem : e ∈ merged := (mergedEvents_perm hmerged).mem_iff.mpr
        (List.mem_append_left _ ((mem_readEvents_iff hevents).mp he))
      have haction : e.action = .void := by
        unfold Event.action
        rw [(Json.pyEq_str_right_iff _ _).mp hact]
        rfl
      exact absurd (beq_iff_eq.mpr haction) (List.any_eq_false.mp hnone e hmem)
    rw [hread]
    rfl
  · rfl

/-- What the guard against a void has checked. -/
theorem readEvents_of_requireNotVoided (h : requireNotVoided env st cardId action = .ok ())
    (hact : action ∈ voidTerminalActions) :
    ∃ events, Store.readEvents env st cardId = .ok events ∧ ∀ e ∈ events, e.action ≠ .void := by
  unfold requireNotVoided at h
  rw [if_pos hact] at h
  obtain ⟨events, hevents, h⟩ := bind_eq_ok.mp h
  refine ⟨events, hevents, fun e he hvoid => ?_⟩
  rw [if_pos (List.any_eq_true.mpr ⟨e, he, Event.pyEq_action_of_void hvoid⟩)] at h
  cases h

/-! ### `append_event` -/

theorem replayedEvent_of_none (htid : Assoc.get? payload "transition_id" = none) :
    replayedEvent lines payload = .ok none := by
  unfold replayedEvent Dict.get
  rw [htid]
  rfl

theorem normalisePayload_of_ne (h : action ≠ "release_claim") :
    normalisePayload env action payload = .ok payload := by
  unfold normalisePayload
  rw [if_neg h]
  rfl

/-- What an append of a plain payload leaves. -/
theorem appendEvent_plain {st' : Store} {e : Event} (hact : action ≠ "release_claim")
    (htid : Assoc.get? payload "transition_id" = none)
    (h : st.appendEvent env cardId action agent payload stamp = .ok (st', e)) :
    e = newEvent env (st.logLines cardId (writerFile env agent)) action agent payload stamp ∧
      st' = st.appendLine cardId (writerFile env agent) (.value (.obj e)) := by
  obtain ⟨payload', hnorm, -, -, h⟩ := appendEvent_eq_ok h
  cases (normalisePayload_of_ne hact).symm.trans hnorm
  rcases h with ⟨hrep, -⟩ | ⟨-, he, hst⟩
  · cases (replayedEvent_of_none htid).symm.trans hrep
  · exact ⟨he, hst⟩

/-- **An append to a card** that is dated before its stamp. -/
theorem FoldsTo.appendEvent {ts ts' : String} {s s' : FoldState} {st' : Store} {e : Event}
    (h : st.FoldsTo env cardId ts s) (hact : action ≠ "release_claim")
    (hp : PlainPayload payload) (htid : Assoc.get? payload "transition_id" = none)
    (hts : ts ≤ stamp.ts) (ht : stamp.ts < ts')
    (happ : st.appendEvent env cardId action agent payload stamp = .ok (st', e))
    (hstep : FoldState.step cardId s (newEvent env
      (st.logLines cardId (writerFile env agent)) action agent payload stamp) = .ok s') :
    st'.FoldsTo env cardId ts' s' := by
  obtain ⟨rfl, rfl⟩ := appendEvent_plain hact htid happ
  exact h.append (endsWith_writerFile env agent) hp.stamped hts ht hp.get_prevHash hstep

/-- The guards of an append to a card that folds. -/
theorem FoldsTo.appendEvent_passes {ts : String} {s : FoldState} {payload' : Dict}
    (h : st.FoldsTo env cardId ts s) (hid : s.card.id = cardId)
    (hnorm : normalisePayload env action payload = .ok payload')
    (hreplay : replayedEvent (st.logLines cardId (writerFile env agent)) payload' = .ok none)
    (hvoid : Store.requireNotVoided env st cardId action = .ok ()) :
    st.appendEvent env cardId action agent payload stamp =
      .ok (st.appendLine cardId (writerFile env agent) (.value (.obj (newEvent env
          (st.logLines cardId (writerFile env agent)) action agent payload' stamp))),
        newEvent env (st.logLines cardId (writerFile env agent)) action agent payload' stamp) := by
  have hanchor : st.requireLockAnchor env cardId = .ok () := h.requireLockAnchor hid
  have hfoldable : st.requireFoldableCore env cardId = .ok () := by
    refine bind_eq_ok.mpr ⟨some s.card, h.fold, ?_⟩
    dsimp only
    rw [if_pos hid]
    rfl
  unfold Store.appendEvent
  refine bind_eq_ok.mpr ⟨_, h.dated.valid, bind_eq_ok.mpr ⟨_, hnorm, bind_eq_ok.mpr ⟨_, hanchor,
    bind_eq_ok.mpr ⟨_, hfoldable, bind_eq_ok.mpr ⟨_, hvoid, ?_⟩⟩⟩⟩⟩
  exact bind_eq_ok.mpr ⟨none, hreplay, rfl⟩

/-- The append of a payload that names no transition. -/
theorem FoldsTo.appendEvent_ok {ts : String} {s : FoldState} (h : st.FoldsTo env cardId ts s)
    (hid : s.card.id = cardId) (hact : action ≠ "release_claim")
    (htid : Assoc.get? payload "transition_id" = none)
    (hvoid : Store.requireNotVoided env st cardId action = .ok ()) :
    st.appendEvent env cardId action agent payload stamp =
      .ok (st.appendLine cardId (writerFile env agent) (.value (.obj (newEvent env
          (st.logLines cardId (writerFile env agent)) action agent payload stamp))),
        newEvent env (st.logLines cardId (writerFile env agent)) action agent payload stamp) :=
  h.appendEvent_passes hid (normalisePayload_of_ne hact) (replayedEvent_of_none htid) hvoid

end Store

end SkCoord
