import SkCoord.Scheduler.Equiv.OverlayAppend

/-!
# Verified annotations are written once

`Intact` is what the log of a card keeps over all calls: no identifier is on two events and no
transition is named twice.

* `write_written`: what a call that returns has left in both stores.
* `not_returned_of_other`: a transition that names another annotation never returns.
* `annotations_exactlyOnce`: both, for every call of every sequence, whatever died before it.
-/

namespace SkCoord

open Python

variable {env : AnnotationEnv} {cardId : String} {d d' : SharedHome} {c : AnnotationCall}

/-! ### The log of the card -/

/-- An event that holds a text in a field. -/
def carries (key text : String) (e : Event) : Bool := (e.get key).pyEq (.str text)

theorem carries_iff {key text : String} {e : Event} :
    carries key text e = true ↔ e.get key = .str text :=
  Json.pyEq_str_right_iff _ _

/-- What the log of a card keeps: its events are stamped, no identifier is on two of them or will be
drawn again, and no log of a writer has two events of one transition. -/
structure Intact (env : AnnotationEnv) (cardId : String) (d : SharedHome) : Prop where
  stamped : ∀ e ∈ Store.logEvents ((d.store env).dir cardId), ∃ ts, Store.Stamped e ts
  archive : ArchiveDated d cardId
  ids : ∀ id, (Store.logEvents ((d.store env).dir cardId)).countP (carries "event_id" id) ≤ 1
  drawn : ∀ n, d.ticks ≤ n → ∀ e ∈ Store.logEvents ((d.store env).dir cardId),
    e.get "event_id" ≠ .str (env.uuid n)
  transitions : ∀ p ∈ ((d.store env).dir cardId).logs, ∀ t, t ≠ "" →
    (p.2.filterMap LogLine.event?).countP (carries "transition_id" t) ≤ 1

/-- Two elements with a property that at most one has. -/
theorem eq_of_countP_le_one {α : Type*} {p : α → Bool} {l : List α} (h : l.countP p ≤ 1) {a b : α}
    (ha : a ∈ l) (hb : b ∈ l) (hpa : p a = true) (hpb : p b = true) : a = b := by
  rw [List.countP_eq_length_filter] at h
  have ha' : a ∈ l.filter p := List.mem_filter.mpr ⟨ha, hpa⟩
  have hb' : b ∈ l.filter p := List.mem_filter.mpr ⟨hb, hpb⟩
  generalize l.filter p = m at h ha' hb'
  match m, h with
  | [], _ => cases ha'
  | [x], _ => rw [List.mem_singleton.mp ha', List.mem_singleton.mp hb']
  | _ :: _ :: _, h => simp at h

/-- The one element with a property that at most one has. -/
theorem filter_eq_singleton {α : Type*} {p : α → Bool} {l : List α} (h : l.countP p ≤ 1) {a : α}
    (ha : a ∈ l) (hpa : p a = true) : l.filter p = [a] := by
  have hmem : a ∈ l.filter p := List.mem_filter.mpr ⟨ha, hpa⟩
  rw [List.countP_eq_length_filter] at h
  obtain ⟨x, hx⟩ := List.length_eq_one_iff.mp
    (le_antisymm h (List.length_pos_of_mem hmem))
  rw [hx, List.mem_singleton] at hmem
  rw [hx, hmem]

/-- A transition that names no event of a log. -/
theorem findTransition_eq_none {t : String} : ∀ {lines : List LogLine},
    Store.findTransition t lines = .ok none →
      ∀ e ∈ lines.filterMap LogLine.event?, carries "transition_id" t e = false
  | [], _, e, he => by cases he
  | .blank :: l, h, e, he => by
    have hrest : Store.findTransition t l = .ok none := h
    exact findTransition_eq_none hrest e he
  | .malformed _ :: l, h, e, he => by
    have hrest : Store.findTransition t l = .ok none := h
    exact findTransition_eq_none hrest e he
  | .value v :: l, h, e, he => by
    rw [Store.findTransition] at h
    obtain ⟨t', ht, h⟩ := bind_eq_ok.mp h
    cases v with
    | obj x =>
      cases ht
      dsimp only at h
      split at h
      · cases h
      · rename_i hne
        rcases List.mem_cons.mp he with rfl | he
        · exact Bool.eq_false_of_not_eq_true hne
        · exact findTransition_eq_none h e he
    | _ => cases ht

/-- The event that a transition names in a log. -/
theorem findTransition_eq_some {t : String} {x : Event} {lines : List LogLine}
    (h : Store.findTransition t lines = .ok (some x)) :
    x ∈ lines.filterMap LogLine.event? ∧ carries "transition_id" t x = true := by
  induction lines with
  | nil => cases h
  | cons line l ih =>
    cases line with
    | blank => exact ih h
    | malformed _ => exact ih h
    | value v =>
      rw [Store.findTransition] at h
      obtain ⟨t', ht, h⟩ := bind_eq_ok.mp h
      cases v with
      | obj y =>
        cases ht
        dsimp only at h
        split at h
        · rename_i heq
          cases h
          exact ⟨List.mem_cons_self, heq⟩
        · obtain ⟨hmem, hx⟩ := ih h
          exact ⟨List.mem_cons_of_mem _ hmem, hx⟩
      | _ => cases ht

/-- The events of the log of a writer are among those of the card. -/
theorem mem_logEvents_of_logLines {st : Store} {writer : String} {x : Event}
    (h : x ∈ (st.logLines cardId (Store.writerFile env.env writer)).filterMap LogLine.event?) :
    x ∈ Store.logEvents (st.dir cardId) := by
  obtain ⟨line, hline, hx⟩ := List.mem_filterMap.mp h
  have hline' : line = .value (.obj x) := by
    unfold LogLine.event? at hx
    split at hx
    · cases hx; rfl
    · cases hx
  unfold Store.logLines at hline
  cases hget : Assoc.get? (st.dir cardId).logs (Store.writerFile env.env writer) with
  | none => rw [hget] at hline; cases hline
  | some lines =>
    rw [hget] at hline
    exact Store.mem_logEvents (Assoc.mem_of_get? hget) (Store.endsWith_writerFile env.env writer)
      (hline' ▸ hline)

/-- At most one event of the log of a writer has a transition. -/
theorem Intact.logLines (h : Intact env cardId d) {t : String} (ht : t ≠ "") (file : String) :
    (((d.store env).logLines cardId file).filterMap LogLine.event?).countP
      (carries "transition_id" t) ≤ 1 := by
  unfold Store.logLines
  cases hget : Assoc.get? ((d.store env).dir cardId).logs file with
  | none => exact Nat.zero_le 1
  | some lines => exact h.transitions _ (Assoc.mem_of_get? hget) t ht

/-- A home with the same cards and the same archive index, later on. -/
theorem Intact.congr (h : Intact env cardId d) (hcards : d'.home.cards = d.home.cards)
    (harchive : d'.home.archive = d.home.archive) (hticks : d.ticks ≤ d'.ticks) :
    Intact env cardId d' := by
  have hdir : (d'.store env).dir cardId = (d.store env).dir cardId := by
    show (Assoc.get? d'.home.cards cardId).getD {} = (Assoc.get? d.home.cards cardId).getD {}
    rw [hcards]
  refine ⟨?_, ?_, ?_, ?_, ?_⟩
  · rw [hdir]
    exact h.stamped
  · unfold ArchiveDated
    rw [harchive]
    exact h.archive
  · rw [hdir]
    exact h.ids
  · intro n hn
    rw [hdir]
    exact h.drawn n (hticks.trans hn)
  · rw [hdir]
    exact h.transitions

/-! ### The first append -/

/-- The fields of the event of a call. -/
def AnnotationCall.fields (c : AnnotationCall) (operationId : String) : Dict :=
  ("transition_id", .str operationId) :: c.payload

/-- The stamp of an append from a home. -/
def SharedHome.stamp (env : AnnotationEnv) (d : SharedHome) : Stamp :=
  { eventId := env.uuid d.ticks, ts := env.now d.ticks }

/-- The home behind a draw. -/
def SharedHome.tick (d : SharedHome) : SharedHome := { d with ticks := d.ticks + 1 }

theorem plainPayload_fields (c : AnnotationCall) (operationId : String) :
    Store.PlainPayload (c.fields operationId) ∧
      Assoc.get? (c.fields operationId) "event_id" = none := by
  have hkeys : Assoc.keys (c.fields operationId) = ["transition_id", "label"] ∨
      Assoc.keys (c.fields operationId) = ["transition_id", "link_key", "link_value"] := by
    unfold AnnotationCall.fields AnnotationCall.payload
    split
    · exact .inl rfl
    · exact .inr rfl
  rw [Assoc.get?_eq_none_iff]
  refine ⟨⟨?_, ?_⟩, ?_⟩
  all_goals
    rcases hkeys with hkeys | hkeys <;> rw [hkeys] <;> decide

theorem normalisePayload_fields (hc : c.IsValid) (operationId : String) :
    Store.normalisePayload env.env c.action (c.fields operationId) =
      .ok (c.fields operationId) := by
  refine Store.normalisePayload_of_ne fun hact => ?_
  cases hc with
  | addLabel tag h _ | removeLabel tag h _ | link key value h _ _ =>
    rw [hact] at h
    exact absurd h (by decide)

/-- **What the first append leaves**: the event that the transition names, or one more event. -/
theorem appendEvent_cases (hc : c.IsValid) {operationId : String} {st : Store} {event : Event}
    {stamp : Stamp}
    (h : (d.store env).appendEvent env.env cardId c.action (c.actor env) (c.fields operationId)
      stamp = .ok (st, event)) :
    let file := Store.writerFile env.env (c.actor env)
    let lines := (d.store env).logLines cardId file
    (operationId ≠ "" ∧ Store.findTransition operationId lines = .ok (some event) ∧
        st.cards = (d.store env).cards) ∨
      ((operationId = "" ∨ Store.findTransition operationId lines = .ok none) ∧
        event = Store.newEvent env.env lines c.action (c.actor env) (c.fields operationId) stamp ∧
        st = (d.store env).appendLine cardId file (.value (.obj event))) := by
  obtain ⟨payload, hnorm, -, -, h⟩ := Store.appendEvent_eq_ok h
  cases (normalisePayload_fields hc operationId).symm.trans hnorm
  have hreplay : Store.replayedEvent ((d.store env).logLines cardId
      (Store.writerFile env.env (c.actor env))) (c.fields operationId) =
      if operationId = "" then pure none else Store.findTransition operationId
        ((d.store env).logLines cardId (Store.writerFile env.env (c.actor env))) := rfl
  dsimp only at h ⊢
  rw [hreplay] at h
  by_cases hempty : operationId = ""
  · rw [if_pos hempty] at h
    rcases h with ⟨h, -⟩ | ⟨-, he, hst⟩
    · cases h
    · exact .inr ⟨.inl hempty, he, hst⟩
  · rw [if_neg hempty] at h
    rcases h with ⟨h, hst⟩ | ⟨h, he, hst⟩
    · exact .inl ⟨hempty, h, by rw [hst]⟩
    · exact .inr ⟨.inr h, he, hst⟩

/-- The event that the first append returns is in the log. -/
theorem mem_appendEvent (hc : c.IsValid) {operationId : String} {st : Store} {event : Event}
    {stamp : Stamp}
    (h : (d.store env).appendEvent env.env cardId c.action (c.actor env) (c.fields operationId)
      stamp = .ok (st, event)) :
    event ∈ (st.logLines cardId (Store.writerFile env.env (c.actor env))).filterMap
      LogLine.event? := by
  rcases appendEvent_cases hc h with ⟨-, hfind, hcards⟩ | ⟨-, -, rfl⟩
  · have hlines : st.logLines cardId (Store.writerFile env.env (c.actor env)) =
        (d.store env).logLines cardId (Store.writerFile env.env (c.actor env)) := by
      unfold Store.logLines Store.dir
      rw [hcards]
    rw [hlines]
    exact (findTransition_eq_some hfind).1
  · have hlines : ∀ line, ((d.store env).appendLine cardId (Store.writerFile env.env (c.actor env))
        line).logLines cardId (Store.writerFile env.env (c.actor env)) =
        (d.store env).logLines cardId (Store.writerFile env.env (c.actor env)) ++ [line] := by
      intro line
      unfold Store.logLines
      rw [Store.dir_appendLine_self]
      show (Assoc.get? (Assoc.set _ _ _) _).getD [] = _
      rw [Assoc.get?_set_self]
      rfl
    rw [hlines, List.filterMap_append]
    exact List.mem_append_right _ List.mem_cons_self

/-- **The first append keeps the log intact.** -/
theorem Intact.appendEvent (henv : Function.Injective env.uuid) (h : Intact env cardId d)
    (hc : c.IsValid) {operationId : String} {st : Store} {event : Event}
    (happ : (d.store env).appendEvent env.env cardId c.action (c.actor env) (c.fields operationId)
      (d.stamp env) = .ok (st, event)) : Intact env cardId (d.tick.setCards st.cards) := by
  rcases appendEvent_cases hc happ with ⟨-, -, hcards⟩ | ⟨hfind, hevent, rfl⟩
  · exact h.congr hcards rfl (Nat.le_succ _)
  obtain ⟨hplain, hid⟩ := plainPayload_fields c operationId
  have hstamped : Store.Stamped event (env.now d.ticks) := by
    rw [hevent]
    exact hplain.stamped
  have heventId : event.get "event_id" = .str (env.uuid d.ticks) := by
    rw [hevent, Dict.get, hplain.get?_newEvent, hid]
    rfl
  have htransition : event.get "transition_id" = .str operationId := by
    rw [hevent]
    exact hplain.get_field rfl
  set file := Store.writerFile env.env (c.actor env) with hfile
  have hdir : ((d.tick.setCards ((d.store env).appendLine cardId file
      (.value (.obj event))).cards).store env).dir cardId =
      ((d.store env).dir cardId).appendLine file (.value (.obj event)) :=
    Store.dir_appendLine_self
  have hins := Store.logEvents_appendLine (d := (d.store env).dir cardId) (e := event)
    (Store.endsWith_writerFile env.env (c.actor env))
  refine ⟨fun e he => ?_, h.archive, fun id => ?_, fun n hn e he => ?_, fun p hp t ht => ?_⟩
  · rw [hdir, hins.mem_iff] at he
    rcases he with rfl | he
    · exact ⟨_, hstamped⟩
    · exact h.stamped e he
  · rw [hdir, hins.perm.countP_eq, List.countP_cons]
    split
    · -- nothing before it has the identifier that was drawn
      rename_i hcarries
      have hdrawn : id = env.uuid d.ticks :=
        Json.str.inj ((carries_iff.mp hcarries).symm.trans heventId)
      have hnone :
          (Store.logEvents ((d.store env).dir cardId)).countP (carries "event_id" id) = 0 :=
        List.countP_eq_zero.mpr fun e he hcarries => h.drawn d.ticks le_rfl e he
          (hdrawn ▸ carries_iff.mp hcarries)
      omega
    · exact h.ids id
  · rw [hdir, hins.mem_iff] at he
    have hn : d.ticks + 1 ≤ n := hn
    rcases he with rfl | he
    · rw [heventId]
      intro heq
      have hsame : d.ticks = n := henv (Json.str.inj heq)
      omega
    · exact h.drawn n (by omega) e he
  · rw [hdir] at hp
    rcases Assoc.mem_set hp with rfl | hp
    · show ((((d.store env).logLines cardId file) ++ [LogLine.value (.obj event)]).filterMap
        LogLine.event?).countP _ ≤ 1
      rw [List.filterMap_append, List.countP_append]
      show _ + [event].countP _ ≤ 1
      have hbefore := h.logLines ht file
      rw [List.countP_singleton]
      split
      · -- nothing in this log was named by the transition
        rename_i hcarries
        have hop : t = operationId :=
          Json.str.inj ((carries_iff.mp hcarries).symm.trans htransition)
        rcases hfind with hempty | hfind
        · exact absurd (hop.trans hempty) ht
        · rw [← hop] at hfind
          have hnone : (((d.store env).logLines cardId file).filterMap LogLine.event?).countP
              (carries "transition_id" t) = 0 :=
            List.countP_eq_zero.mpr fun e he hcarries =>
              Bool.false_ne_true ((findTransition_eq_none hfind e he).symm.trans hcarries)
          omega
      · omega
    · exact h.transitions p hp t ht

/-! ### One call -/

theorem run_appendAuthoritative (operationId : String) :
    (c.appendAuthoritative env cardId operationId).run d =
      match (d.store env).appendEvent env.env cardId c.action (c.actor env) (c.fields operationId)
        (d.stamp env) with
      | .ok (st, event) => (.ok event, d.tick.setCards st.cards)
      | .error e => (.error e, d.tick) := by
  show ((Effect.lift ((d.store env).appendEvent env.env cardId c.action (c.actor env)
    (c.fields operationId) (d.stamp env)) >>= _ : Effect SharedHome Event)).run d.tick = _
  rw [Effect.run_lift_bind]
  cases (d.store env).appendEvent env.env cardId c.action (c.actor env) (c.fields operationId)
    (d.stamp env) <;> rfl

/-- What the identifier of the operation is. -/
theorem run_operationId (c : AnnotationCall) (env : AnnotationEnv) (d : SharedHome) :
    ∃ operationId d₁, (c.operationId env).run d = (.ok operationId, d₁) ∧ d₁.home = d.home ∧
      d.ticks ≤ d₁.ticks ∧ ∀ t, c.transitionId = .str t → operationId = t := by
  unfold AnnotationCall.operationId
  cases c.transitionId with
  | str t => exact ⟨t, d, rfl, rfl, le_rfl, fun _ h => Json.str.inj h⟩
  | _ => exact ⟨_, d.tick, rfl, rfl, Nat.le_succ _, fun _ h => by cases h⟩

/-- What the readback of the first append has found. -/
theorem readAuthoritative_eq_ok {operationId eventId : String} {event : Event}
    (h : c.readAuthoritative env cardId operationId event d = .ok eventId) :
    ∃ events card, (d.store env).readEvents env.env cardId = .ok events ∧
      (d.store env).fold env.env cardId = .ok (some card) ∧
      event.get "event_id" = .str eventId ∧
      (exactAuthoritative events (event.get "event_id") operationId c.action (c.actor env)
        c.payload).length = 1 ∧ foldReflects card c.action c.payload = true := by
  unfold AnnotationCall.readAuthoritative at h
  obtain ⟨events, hevents, h⟩ := bind_eq_ok.mp h
  obtain ⟨folded, hfold, h⟩ := bind_eq_ok.mp h
  dsimp only at h
  split at h
  · rename_i id card hid
    split at h
    · rename_i hchecks
      cases h
      rw [Bool.and_eq_true, decide_eq_true_eq] at hchecks
      exact ⟨events, card, hevents, hfold, hid, hchecks⟩
    · cases h
  · cases h

/-- What an append to the overlay has checked last. -/
theorem validate_of_requireAppendable {env : Env} {home : Home} {e : CardEvent}
    (h : CardEventLog.requireAppendable env home e = .ok ()) :
    (e.validate env true).isOk = true := by
  unfold CardEventLog.requireAppendable at h
  obtain ⟨⟨⟩, -, h⟩ := bind_eq_ok.mp h
  obtain ⟨⟨⟩, -, h⟩ := bind_eq_ok.mp h
  unfold CardEventLog.requireShard at h
  dsimp only at h
  split at h
  · cases h
  · obtain ⟨⟨⟩, hvalid, -⟩ := bind_eq_ok.mp h
    rw [hvalid]
    rfl

/-- What the second append leaves. -/
theorem run_appendMissing_eq_ok {eventId : String}
    (h : (c.appendMissing env cardId eventId).run d = (.ok (), d')) :
    d' = d ∨ ∃ ts, d' = d.tick.appendShard env (c.overlayEvent env cardId eventId ts) ∧
      ((c.overlayEvent env cardId eventId ts).validate env.env true).isOk = true := by
  unfold AnnotationCall.appendMissing at h
  rw [Effect.run_get_bind] at h
  split at h
  · -- the overlay does not have the event
    right
    have hwrite : (AnnotationCall.appendOverlay env
        (c.overlayEvent env cardId eventId (env.now d.ticks))).run d.tick = (.ok (), d') := h
    unfold AnnotationCall.appendOverlay at hwrite
    rw [Effect.run_get_bind] at hwrite
    obtain ⟨⟨⟩, hcheck, hwrite⟩ := Effect.run_lift_bind_eq_ok.mp hwrite
    rw [Effect.run_modify] at hwrite
    exact ⟨env.now d.ticks, (Prod.mk.inj hwrite).2.symm, validate_of_requireAppendable hcheck⟩
  · split at h
    · cases h
      exact .inl rfl
    · cases h
  · cases h

/-- What the readback of the second append has found. -/
theorem readOverlay_eq_ok {eventId : String} (h : c.readOverlay env cardId eventId d = .ok ()) :
    ∃ item, AnnotationCall.overlayEvents env d eventId = [item] ∧
      exactOverlayEvent item eventId cardId c.action (c.actor env) c.payload = true := by
  unfold AnnotationCall.readOverlay at h
  split at h
  · rename_i item hitem
    split at h
    · rename_i hexact
      exact ⟨item, hitem, hexact⟩
    · cases h
  · cases h

/-- What has happened in a call that did not raise. -/
theorem run_write_eq_ok {r : CallEnd} (h : (c.write env cardId).run d = (.ok r, d')) :
    ∃ operationId d₁ st event eventId, c.validate = .ok () ∧
      (c.operationId env).run d = (.ok operationId, d₁) ∧
      (d₁.store env).appendEvent env.env cardId c.action (c.actor env) (c.fields operationId)
        (d₁.stamp env) = .ok (st, event) ∧
      c.readAuthoritative env cardId operationId event (d₁.tick.setCards st.cards) = .ok eventId ∧
      ((r = .died ∧ d' = d₁.tick.setCards st.cards) ∨
        (c.mirrorToOverlay env cardId eventId).run (d₁.tick.setCards st.cards) = (.ok (), d') ∧
          (r = .died ∨ r = .returned event)) := by
  unfold AnnotationCall.write at h
  obtain ⟨⟨⟩, hvalid, h⟩ := Effect.run_lift_bind_eq_ok.mp h
  obtain ⟨operationId, d₁, hop, h⟩ := Effect.run_bind_eq_ok.mp h
  rw [Effect.run_get_bind] at h
  obtain ⟨⟨⟩, -, h⟩ := Effect.run_lift_bind_eq_ok.mp h
  obtain ⟨⟨⟩, -, h⟩ := Effect.run_lift_bind_eq_ok.mp h
  obtain ⟨event, d₂, happ, h⟩ := Effect.run_bind_eq_ok.mp h
  rw [run_appendAuthoritative] at happ
  split at happ
  · rename_i st event' hevent
    cases happ
    rw [Effect.run_get_bind] at h
    obtain ⟨eventId, hread, h⟩ := Effect.run_lift_bind_eq_ok.mp h
    refine ⟨operationId, d₁, st, event, eventId, hvalid, hop, hevent, hread, ?_⟩
    split at h
    · cases h
      exact .inl ⟨rfl, rfl⟩
    · obtain ⟨⟨⟩, d₃, hmirror, h⟩ := Effect.run_bind_eq_ok.mp h
      rw [Effect.run_pure] at h
      cases h
      refine .inr ⟨?_, ?_⟩
      · -- the handler only raises
        rw [Effect.run_tryExcept] at hmirror
        split at hmirror
        · rename_i hrun
          cases hmirror
          exact hrun
        · cases hmirror
        · cases hmirror
      · split
        · exact .inl rfl
        · exact .inr rfl
  · cases happ

/-! ### The event of the overlay -/

/-- The overlay has events that its readers admit. -/
theorem validate_of_mem_overlay {item : CardEvent} (h : item ∈ d.overlay env) :
    (item.validate env.env true).isOk = true := by
  obtain ⟨p, -, hitem⟩ := List.mem_flatMap.mp h
  obtain ⟨line, -, hline⟩ := List.mem_filterMap.mp hitem
  exact (Option.filter_eq_some_iff.mp hline).2

/-- An admitted event has the fields of its action and no others. -/
theorem mem_actionFields {e : CardEvent} (h : (e.validate env.env true).isOk = true) {name : String}
    (hname : name ∈ e.payload.map Prod.fst) : name ∈ actionFields e.action := by
  obtain ⟨⟨⟩, h⟩ := isOk_iff.mp h
  unfold CardEvent.validate at h
  -- the checks in front of that of the fields
  obtain ⟨-, h⟩ := of_guard h
  obtain ⟨-, h⟩ := of_guard h
  obtain ⟨hreserved, -⟩ := of_guard h
  rw [not_not, List.filter_eq_nil_iff] at hreserved
  simpa using hreserved name hname

/-- The payload is that of the fields that the event may have. -/
theorem payload_eq_filter {e : CardEvent} {names : List String}
    (h : ∀ name ∈ e.payload.map Prod.fst, name ∈ names) :
    e.payload = ([("column", e.column.map Json.str), ("order", e.order.map Json.int),
      ("priority", e.priority.map Json.str), ("swimlane", e.swimlane.map Json.str),
      ("label", e.label.map Json.str), ("link_key", e.linkKey.map Json.str),
      ("link_value", e.linkValue.map Json.str), ("owner", e.owner.map Json.str),
      ("title", e.title.map Json.str), ("description", e.description.map Json.str)].filter
        fun p => names.contains p.1).filterMap fun p => p.2.map fun v => (p.1, v) := by
  rw [List.filterMap_filter]
  refine List.filterMap_congr fun p hp => ?_
  split
  · rfl
  · rename_i hno
    cases hv : p.2 with
    | none => rfl
    | some v =>
      have hmem : (p.1, v) ∈ e.payload := List.mem_filterMap.mpr ⟨p, hp, by rw [hv]; rfl⟩
      exact absurd (List.contains_iff_mem.mpr (h _ (List.mem_map_of_mem hmem))) hno

/-- **What an exact event of the overlay carries.** -/
theorem of_exactOverlayEvent (hc : c.IsValid) {item : CardEvent} {eventId : String}
    (hitem : item ∈ d.overlay env)
    (h : exactOverlayEvent item eventId cardId c.action (c.actor env) c.payload = true) :
    item.cardId = cardId ∧ item.writer = c.actor env ∧ item.action = c.action ∧
      item.payload = c.payload := by
  unfold exactOverlayEvent at h
  obtain ⟨h, hmatches⟩ := Bool.and_eq_true_iff.mp h
  obtain ⟨h, hwriter⟩ := Bool.and_eq_true_iff.mp h
  obtain ⟨-, hid⟩ := Bool.and_eq_true_iff.mp h
  have hact : item.action = c.action := Json.str.inj (matchesFields_iff.mp hmatches).1
  have hnames : ∀ name ∈ item.payload.map Prod.fst, name ∈ actionFields c.action :=
    fun name hname => hact ▸ mem_actionFields (validate_of_mem_overlay hitem) hname
  refine ⟨of_decide_eq_true hid, of_decide_eq_true hwriter, hact,
    (payload_eq_filter hnames).trans ?_⟩
  have htext : ∀ {o : Option String} {v : String}, jsonOfOption o = .str v → o = some v := by
    intro o v ho
    cases o with
    | none => cases ho
    | some w => rw [Json.str.inj ho]
  rcases hc.of_matches hmatches with ⟨tag, haction, hpayload, -, hlabel⟩ |
    ⟨tag, haction, hpayload, -, hlabel⟩ | ⟨key, value, haction, hpayload, -, hkey, hvalue⟩
  · rw [haction, hpayload, htext hlabel]
    rfl
  · rw [haction, hpayload, htext hlabel]
    rfl
  · rw [haction, hpayload, htext hkey, htext hvalue]
    rfl

/-! ### Once in either store -/

/-- What a call that returned has left: one event with the identifier in the log of the card and one
in the overlay, both with the annotation of the call, and a fold that reflects it. -/
structure AnnotationCall.Written (env : AnnotationEnv) (cardId : String) (c : AnnotationCall)
    (d : SharedHome) (event : Event) (eventId : String) : Prop where
  identifier : event.get "event_id" = .str eventId
  transition : ∀ t, c.transitionId = .str t → event.get "transition_id" = .str t
  writer : event.get "writer" = .str (c.actor env)
  action : event.get "action" = .str c.action
  payload : ∀ p ∈ c.payload, event.get p.1 = p.2
  own : ∃ events, (d.store env).readEvents env.env cardId = .ok events ∧
    events.filter (carries "event_id" eventId) = [event]
  overlay : ∃ item, AnnotationCall.overlayEvents env d eventId = [item] ∧ item.cardId = cardId ∧
    item.writer = c.actor env ∧ item.action = c.action ∧ item.payload = c.payload
  fold : ∃ card, (d.store env).fold env.env cardId = .ok (some card) ∧
    foldReflects card c.action c.payload = true

/-- The fields of an event that matches a valid call. -/
theorem AnnotationCall.IsValid.field_of_matches (hc : c.IsValid) {x : Event}
    (hx : matchesFields x c.action c.payload = true) : ∀ p ∈ c.payload, x.get p.1 = p.2 := by
  intro p hp
  have hfield := (matchesFields_iff.mp hx).2 p hp
  have htext : ∃ text, p.2 = .str text := by
    rcases hc.of_matches hx with ⟨tag, -, hpayload, -⟩ | ⟨tag, -, hpayload, -⟩ |
      ⟨key, value, -, hpayload, -⟩
    all_goals
      rw [hpayload] at hp
      simp only [List.mem_cons, List.not_mem_nil, or_false] at hp
    · exact ⟨tag, by rw [hp]⟩
    · exact ⟨tag, by rw [hp]⟩
    · rcases hp with rfl | rfl
      · exact ⟨key, rfl⟩
      · exact ⟨value, rfl⟩
  obtain ⟨text, htext⟩ := htext
  rw [htext] at hfield ⊢
  exact (Json.pyEq_str_right_iff _ _).mp hfield

/-- What a readback has found is the event that the append returned. -/
theorem event_of_readback {operationId eventId : String} {event : Event} {events : List Event}
    (hids : (Store.logEvents ((d.store env).dir cardId)).countP (carries "event_id" eventId) ≤ 1)
    (hmem : event ∈ Store.logEvents ((d.store env).dir cardId))
    (hevents : (d.store env).readEvents env.env cardId = .ok events)
    (hid : event.get "event_id" = .str eventId)
    (hexact : (exactAuthoritative events (event.get "event_id") operationId c.action (c.actor env)
      c.payload).length = 1) :
    event.get "writer" = .str (c.actor env) ∧ event.get "transition_id" = .str operationId ∧
      matchesFields event c.action c.payload = true ∧
      events.filter (carries "event_id" eventId) = [event] := by
  obtain ⟨item, hitem⟩ := List.length_eq_one_iff.mp hexact
  have hitem : item ∈ exactAuthoritative events (event.get "event_id") operationId c.action
      (c.actor env) c.payload := by
    rw [hitem]
    exact List.mem_cons_self
  obtain ⟨hread, hchecks⟩ := List.mem_filter.mp hitem
  simp only [hid, Bool.and_eq_true, Json.pyEq_str_right_iff] at hchecks
  obtain ⟨⟨⟨hitemId, hwriter⟩, htransition⟩, hmatches⟩ := hchecks
  obtain rfl : item = event := eq_of_countP_le_one hids
    ((Store.mem_readEvents_iff hevents).mp hread) hmem (carries_iff.mpr hitemId)
    (carries_iff.mpr hid)
  refine ⟨hwriter, htransition, hmatches, filter_eq_singleton ?_ hread (carries_iff.mpr hid)⟩
  rw [Store.readEvents_eq hevents, (List.perm_insertionSort _ _).countP_eq]
  exact hids

/-- **What a call that returned has left**: one event in the log of the card and one in the overlay,
both with what the call asked for. The steps of the call are taken apart, and its two read-backs say
what is there. -/
theorem write_written (henv : Function.Injective env.uuid) (h : Intact env cardId d) {event : Event}
    (hrun : (c.write env cardId).run d = (.ok (.returned event), d')) :
    ∃ eventId, c.Written env cardId d' event eventId := by
  obtain ⟨operationId, d₁, st, event', eventId, hvalid, hop, happ, hread, hend⟩ :=
    run_write_eq_ok hrun
  obtain ⟨hc, -⟩ := isValid_of_validate hvalid
  obtain ⟨_, _, hop', hhome, hticks, htransition⟩ := run_operationId c env d
  cases hop.symm.trans hop'
  have h₁ : Intact env cardId d₁ := h.congr (by rw [hhome]) (by rw [hhome]) hticks
  have h₂ := h₁.appendEvent henv hc happ
  have hmem : event' ∈ Store.logEvents (st.dir cardId) :=
    mem_logEvents_of_logLines (mem_appendEvent hc happ)
  have hmem : event' ∈ Store.logEvents (((d₁.tick.setCards st.cards).store env).dir cardId) := hmem
  generalize d₁.tick.setCards st.cards = d₂ at *
  -- The first read-back: the event of this id, as the log and the fold show it.
  obtain ⟨events, card, hevents, hfold, hid, hexact, hreflects⟩ := readAuthoritative_eq_ok hread
  obtain ⟨hwriter, htid, hmatches, hown⟩ :=
    event_of_readback (h₂.ids eventId) hmem hevents hid hexact
  rcases hend with ⟨hdied, -⟩ | ⟨hmirror, hdied | hreturned⟩
  · cases hdied
  · cases hdied
  obtain rfl : event = event' := by
    cases hreturned
    rfl
  -- The mirror, and the second read-back.
  unfold AnnotationCall.mirrorToOverlay at hmirror
  obtain ⟨⟨⟩, d₃, hmissing, hmirror⟩ := Effect.run_bind_eq_ok.mp hmirror
  rw [Effect.run_get_bind, Effect.run_lift] at hmirror
  obtain ⟨hcheck, rfl⟩ := Prod.mk.inj hmirror
  obtain ⟨item, hitem, hitemExact⟩ := readOverlay_eq_ok hcheck
  have hitemMem : item ∈ d₃.overlay env := by
    have hmem : item ∈ AnnotationCall.overlayEvents env d₃ eventId := by
      rw [hitem]
      exact List.mem_cons_self
    exact (List.mem_filter.mp hmem).1
  obtain ⟨hcard, hitemWriter, hitemAction, hitemPayload⟩ :=
    of_exactOverlayEvent hc hitemMem hitemExact
  -- The mirror changes the overlay only, so the log and the fold are as they were read.
  have hleft : (d₃.store env).readEvents env.env cardId = .ok events ∧
      ∃ card, (d₃.store env).fold env.env cardId = .ok (some card) ∧
        foldReflects card c.action c.payload = true := by
    rcases run_appendMissing_eq_ok hmissing with rfl | ⟨ts, rfl, hadmitted⟩
    · exact ⟨hevents, card, hfold, hreflects⟩
    · have hticked : (d₂.tick.store env).fold env.env cardId = .ok (some card) := hfold
      have hread : ((d₂.tick.appendShard env (c.overlayEvent env cardId eventId ts)).store
          env).readEvents env.env cardId = (d₂.store env).readEvents env.env cardId := rfl
      exact ⟨hread.trans hevents, fold_appendShard hc h₂.stamped h₂.archive hadmitted hticked
        hreflects⟩
  exact ⟨eventId, hid, fun t ht => htransition t ht ▸ htid, hwriter,
    (matchesFields_iff.mp hmatches).1, hc.field_of_matches hmatches, ⟨events, hleft.1, hown⟩,
    ⟨item, hitem, hcard, hitemWriter, hitemAction, hitemPayload⟩, hleft.2⟩

/-! ### Every call of a sequence -/

section

variable {I : SharedHome → Prop}

/-- What a property of the cards and the archive index has to do with a call. -/
theorem keeps_mirrorToOverlay {eventId : String}
    (hI : ∀ {d d' : SharedHome}, I d → d'.home.cards = d.home.cards →
      d'.home.archive = d.home.archive → d.ticks ≤ d'.ticks → I d') :
    Effect.Keeps I (c.mirrorToOverlay env cardId eventId) := by
  have hdraw : Effect.Keeps I (drawStamp env) := fun d hd => hI hd rfl rfl (Nat.le_succ _)
  have happend : ∀ e, Effect.Keeps I (AnnotationCall.appendOverlay env e) := fun e =>
    Effect.keeps_get.bind fun d => (Effect.keeps_lift _).bind fun _ => fun d hd =>
      hI hd rfl rfl le_rfl
  have hmissing : Effect.Keeps I (c.appendMissing env cardId eventId) := by
    refine Effect.keeps_get.bind fun d => ?_
    split
    · exact hdraw.bind fun stamp => happend _
    · split
      · exact Effect.keeps_pure _
      · exact Effect.keeps_raise _
    · exact Effect.keeps_raise _
  exact hmissing.bind fun _ => Effect.keeps_get.bind fun d => Effect.keeps_lift _

/-- A property is kept by a call when the first append keeps it. -/
theorem keeps_write
    (hI : ∀ {d d' : SharedHome}, I d → d'.home.cards = d.home.cards →
      d'.home.archive = d.home.archive → d.ticks ≤ d'.ticks → I d')
    (happend : ∀ {d : SharedHome} {operationId : String} {st : Store} {event : Event}, I d →
      c.IsValid → (d.store env).appendEvent env.env cardId c.action (c.actor env)
        (c.fields operationId) (d.stamp env) = .ok (st, event) → I (d.tick.setCards st.cards)) :
    Effect.Keeps I (c.write env cardId) := by
  intro d hd
  unfold AnnotationCall.write
  rw [Effect.run_lift_bind]
  cases hvalid : c.validate with
  | error e => exact hd
  | ok _ =>
    obtain ⟨hc, -⟩ := isValid_of_validate hvalid
    have hoperation : Effect.Keeps I (c.operationId env) := by
      intro d hd
      obtain ⟨_, d₁, hrun, hhome, hticks, -⟩ := run_operationId c env d
      rw [hrun]
      exact hI hd (by rw [hhome]) (by rw [hhome]) hticks
    have hfirst : ∀ operationId,
        Effect.Keeps I (c.appendAuthoritative env cardId operationId) := by
      intro operationId d hd
      rw [run_appendAuthoritative]
      cases happ : (d.store env).appendEvent env.env cardId c.action (c.actor env)
          (c.fields operationId) (d.stamp env) with
      | error e => exact hI hd rfl rfl (Nat.le_succ _)
      | ok p => exact happend hd hc happ
    refine (hoperation.bind fun operationId => Effect.keeps_get.bind fun _ =>
      (Effect.keeps_lift _).bind fun _ => (Effect.keeps_lift _).bind fun _ =>
      (hfirst operationId).bind fun event => Effect.keeps_get.bind fun _ =>
      (Effect.keeps_lift _).bind fun eventId => ?_) d hd
    split
    · exact Effect.keeps_pure _
    · exact ((keeps_mirrorToOverlay hI).tryExcept fun _ => Effect.keeps_raise _).bind
        fun _ => Effect.keeps_pure _

/-- What every call keeps holds behind all of them. -/
theorem keeps_after (hI : ∀ c : AnnotationCall, Effect.Keeps I (c.write env cardId)) :
    ∀ (calls : List AnnotationCall) {d : SharedHome}, I d → I (d.after env cardId calls)
  | [], _, hd => hd
  | c :: calls, d, hd => keeps_after hI calls (hI c d hd)

end

/-- **No call damages the log of the card.** -/
theorem keeps_intact (henv : Function.Injective env.uuid) (c : AnnotationCall) :
    Effect.Keeps (Intact env cardId) (c.write env cardId) :=
  keeps_write (fun h hcards harchive hticks => h.congr hcards harchive hticks)
    fun h hc happ => h.appendEvent henv hc happ

/-- An event in the log of a writer. -/
def InLog (env : AnnotationEnv) (cardId writer : String) (x : Event) (d : SharedHome) : Prop :=
  x ∈ ((d.store env).logLines cardId (Store.writerFile env.env writer)).filterMap LogLine.event?

/-- Events stay in the log of their writer. -/
theorem keeps_inLog (writer : String) (x : Event) (c : AnnotationCall) :
    Effect.Keeps (InLog env cardId writer x) (c.write env cardId) := by
  refine keeps_write (fun {d d'} h hcards _ _ => ?_) fun {d operationId st event} h hc happ => ?_
  · unfold InLog Store.logLines at h ⊢
    have hdir : (d'.store env).dir cardId = (d.store env).dir cardId := by
      show (Assoc.get? d'.home.cards cardId).getD {} = (Assoc.get? d.home.cards cardId).getD {}
      rw [hcards]
    rwa [hdir]
  · rcases appendEvent_cases hc happ with ⟨-, -, hcards⟩ | ⟨-, -, rfl⟩
    · unfold InLog Store.logLines at h ⊢
      have hdir : ((d.tick.setCards st.cards).store env).dir cardId =
          (d.store env).dir cardId := by
        show (Assoc.get? st.cards cardId).getD {} = (Assoc.get? d.home.cards cardId).getD {}
        rw [hcards]
        rfl
      rwa [hdir]
    · show x ∈ (((d.store env).appendLine cardId (Store.writerFile env.env (c.actor env))
        (.value (.obj event))).logLines cardId (Store.writerFile env.env writer)).filterMap
          LogLine.event?
      unfold InLog at h
      unfold Store.logLines at h ⊢
      rw [Store.dir_appendLine_self]
      show x ∈ ((Assoc.get? (Assoc.set _ _ _) _).getD []).filterMap LogLine.event?
      rw [Assoc.get?_set]
      split
      · rename_i hfile
        rw [Option.getD_some, List.filterMap_append]
        rw [hfile] at h
        exact List.mem_append_left _ h
      · exact h

/-- A call that did not raise has its event in the log of its writer. -/
theorem inLog_of_write (henv : Function.Injective env.uuid) (h : Intact env cardId d) {r : CallEnd}
    (hrun : (c.write env cardId).run d = (.ok r, d')) : ∃ event,
    InLog env cardId (c.actor env) event d' ∧
      (∀ t, c.transitionId = .str t → event.get "transition_id" = .str t) ∧
      matchesFields event c.action c.payload = true := by
  obtain ⟨operationId, d₁, st, event, eventId, hvalid, hop, happ, hread, hend⟩ :=
    run_write_eq_ok hrun
  obtain ⟨hc, -⟩ := isValid_of_validate hvalid
  obtain ⟨_, _, hop', hhome, hticks, htransition⟩ := run_operationId c env d
  cases hop.symm.trans hop'
  have h₁ : Intact env cardId d₁ := h.congr (by rw [hhome]) (by rw [hhome]) hticks
  have h₂ := h₁.appendEvent henv hc happ
  have hmem : event ∈ Store.logEvents (st.dir cardId) :=
    mem_logEvents_of_logLines (mem_appendEvent hc happ)
  obtain ⟨events, card, hevents, -, hid, hexact, -⟩ := readAuthoritative_eq_ok hread
  obtain ⟨-, htid, hmatches, -⟩ := event_of_readback (h₂.ids eventId) hmem hevents hid hexact
  refine ⟨event, ?_, fun t ht => htransition t ht ▸ htid, hmatches⟩
  have hline := mem_appendEvent hc happ
  have hin : InLog env cardId (c.actor env) event (d₁.tick.setCards st.cards) := hline
  rcases hend with ⟨-, rfl⟩ | ⟨hmirror, -⟩
  · exact hin
  · refine (keeps_mirrorToOverlay fun {d d'} h hcards _ _ => ?_).of_run hin hmirror
    unfold InLog Store.logLines at h ⊢
    have hdir : (d'.store env).dir cardId = (d.store env).dir cardId := by
      show (Assoc.get? d'.home.cards cardId).getD {} = (Assoc.get? d.home.cards cardId).getD {}
      rw [hcards]
    rwa [hdir]

/-- **A transition that names another annotation** never returns. -/
theorem not_returned_of_other (henv : Function.Injective env.uuid) (h : Intact env cardId d)
    {t : String} (ht : c.transitionId = .str t) {x : Event}
    (hx : InLog env cardId (c.actor env) x d) (hxt : x.get "transition_id" = .str t)
    (hother : matchesFields x c.action c.payload = false) (r : CallEnd) :
    (c.write env cardId).run d ≠ (.ok r, d') := by
  intro hrun
  obtain ⟨event, hin, htransition, hmatches⟩ := inLog_of_write henv h hrun
  have hintact : Intact env cardId d' := (keeps_intact henv c).of_run h hrun
  have hxin : InLog env cardId (c.actor env) x d' := (keeps_inLog _ x c).of_run hx hrun
  obtain ⟨-, -, -, -, -, hvalid, -⟩ := run_write_eq_ok hrun
  have hne : t ≠ "" := by
    rcases (isValid_of_validate hvalid).2 with hnull | ⟨s, hs, hne⟩
    · rw [hnull] at ht
      cases ht
    · rw [hs] at ht
      exact Json.str.inj ht ▸ hne
  -- the log names one event by the transition
  have heq : x = event := eq_of_countP_le_one (hintact.logLines hne _) hxin hin
    (carries_iff.mpr hxt) (carries_iff.mpr (htransition t ht))
  rw [heq, hmatches] at hother
  cases hother

/-- An event that matches a call has its payload. -/
theorem AnnotationCall.IsValid.payload_of_matches (hc : c.IsValid) {x : Event}
    (hx : matchesFields x c.action c.payload = true) :
    c.payload =
      if c.action = "link" then
        [("link_key", x.get "link_key"), ("link_value", x.get "link_value")]
      else [("label", x.get "label")] := by
  rcases hc.of_matches hx with ⟨tag, hact, hpayload, -, hlabel⟩ |
    ⟨tag, hact, hpayload, -, hlabel⟩ | ⟨key, value, hact, hpayload, -, hkey, hvalue⟩
  · rw [hact, hpayload, hlabel, if_neg (by decide)]
  · rw [hact, hpayload, hlabel, if_neg (by decide)]
  · rw [hact, hpayload, hkey, hvalue, if_pos rfl]

/-- Calls whose annotations one event matches ask for the same. -/
theorem AnnotationCall.IsValid.eq_of_matches {c' : AnnotationCall} (hc : c.IsValid)
    (hc' : c'.IsValid) {x : Event} (hx : matchesFields x c.action c.payload = true)
    (hx' : matchesFields x c'.action c'.payload = true) :
    c'.action = c.action ∧ c'.payload = c.payload := by
  have hact : c'.action = c.action :=
    Json.str.inj ((matchesFields_iff.mp hx').1.symm.trans (matchesFields_iff.mp hx).1)
  refine ⟨hact, ?_⟩
  rw [hc.payload_of_matches hx, hc'.payload_of_matches hx', hact]

/-- **Verified annotations are written once**: behind any calls, of which any raised or died, a call
that returns has left one event in either store, and no call returns on a transition that an event
of its writer has with another annotation, in particular not on that of an earlier call that
returned or died. -/
theorem annotations_exactlyOnce (henv : Function.Injective env.uuid) (h : Intact env cardId d)
    (before : List AnnotationCall) (c : AnnotationCall) :
    (∀ event d', (c.write env cardId).run (d.after env cardId before) =
        (.ok (.returned event), d') → ∃ eventId, c.Written env cardId d' event eventId) ∧
      (∀ t x, c.transitionId = .str t →
        InLog env cardId (c.actor env) x (d.after env cardId before) →
        x.get "transition_id" = .str t → matchesFields x c.action c.payload = false →
        ∀ event d', (c.write env cardId).run (d.after env cardId before) ≠
          (.ok (.returned event), d')) ∧
      ∀ r d' between (c' : AnnotationCall) t, (c.write env cardId).run (d.after env cardId before) =
          (.ok r, d') →
        c.transitionId = .str t → c'.transitionId = .str t → c'.actor env = c.actor env →
        (c'.action ≠ c.action ∨ c'.payload ≠ c.payload) →
        ∀ event d'', (c'.write env cardId).run (d.after env cardId (before ++ c :: between)) ≠
          (.ok (.returned event), d'') := by
  have hbefore : Intact env cardId (d.after env cardId before) :=
    keeps_after (keeps_intact henv) before h
  refine ⟨fun event d' hrun => write_written henv hbefore hrun,
    fun t x ht hx hxt hother event d' => not_returned_of_other henv hbefore ht hx hxt hother _, ?_⟩
  intro r d' between c' t hrun ht ht' hactor hother event d'' hrun'
  -- The earlier call has left its event in the log, however it ended.
  obtain ⟨x, hin, htransition, hmatches⟩ := inLog_of_write henv hbefore hrun
  have hafter : d.after env cardId (before ++ c :: between) = d'.after env cardId between := by
    unfold SharedHome.after
    rw [List.foldl_append, List.foldl_cons]
    show List.foldl _ ((c.write env cardId).run (d.after env cardId before)).2 between = _
    rw [hrun]
  have hintact : Intact env cardId d' := (keeps_intact henv c).of_run hbefore hrun
  rw [hafter] at hrun'
  have hlater : Intact env cardId (d'.after env cardId between) :=
    keeps_after (keeps_intact henv) between hintact
  -- And there it stays, behind every call in between.
  have hxin : InLog env cardId (c'.actor env) x (d'.after env cardId between) := by
    rw [hactor]
    exact keeps_after (keeps_inLog _ x) between hin
  obtain ⟨-, -, -, -, -, hvalid, -⟩ := run_write_eq_ok hrun
  obtain ⟨-, -, -, -, -, hvalid', -⟩ := run_write_eq_ok hrun'
  -- An event that matches both annotations would make them one.
  by_cases hx : matchesFields x c'.action c'.payload = true
  · obtain ⟨h1, h2⟩ := (isValid_of_validate hvalid).1.eq_of_matches
      (isValid_of_validate hvalid').1 hmatches hx
    exact hother.elim (absurd h1) (absurd h2)
  · exact not_returned_of_other henv hlater ht' hxin (htransition t ht)
      (Bool.eq_false_of_not_eq_true hx) _ hrun'

/-! ### A call that died is made again -/

/-- Identifiers and times that count in unary. -/
def unaryAnnotationEnv : AnnotationEnv where
  env := { hostname := "host", writeEnabled := true, lineHash := fun _ => "", repr := fun _ => "" }
  now n := String.ofList (List.replicate n 'a')
  uuid n := String.ofList (List.replicate (n + 1) 'a')
  lockFile _ := .ok true

/-- A card of which nothing is recorded. -/
def bareHome : SharedHome where
  home :=
    { cards := [("t1", {
        core := .present { id := "t1", title := "one", createdAt := "" }
        logs := []
        nodup := List.nodup_nil })] }
  nodup := List.nodup_nil

theorem bareHome_intact : Intact unaryAnnotationEnv "t1" bareHome := by
  have hlogs : Store.logEvents ((bareHome.store unaryAnnotationEnv).dir "t1") = [] := rfl
  refine ⟨?_, fun x hx => (List.not_mem_nil hx).elim, ?_, ?_,
    fun p hp => (List.not_mem_nil hp).elim⟩
  · rw [hlogs]
    exact fun e he => (List.not_mem_nil he).elim
  · rw [hlogs]
    exact fun _ => Nat.zero_le 1
  · rw [hlogs]
    exact fun _ _ e he => (List.not_mem_nil he).elim

/-- A label under a transition, written by a process that dies between the appends or does not. -/
def labelCall (label : String) (death : Option Death) : AnnotationCall where
  action := "add_label"
  writer := "alice"
  label := .str label
  transitionId := .str "t"
  death

/-- Whether a call returned an event. -/
def hasReturned : Except PyError CallEnd → Bool
  | .ok (.returned _) => true
  | _ => false

/-- Whether a call ended with its process. -/
def hasDied : Except PyError CallEnd → Bool
  | .ok .died => true
  | _ => false

/-- A call that died between the two stores, retried: the retry leaves one event in either, and a
call with another label on the same transition does not return. -/
theorem annotations_exactlyOnce_retried :
    (∃ event d' eventId, ((labelCall "x" none).write unaryAnnotationEnv "t1").run
        (bareHome.after unaryAnnotationEnv "t1" [labelCall "x" (some .between)]) =
          (.ok (.returned event), d') ∧
      (labelCall "x" none).Written unaryAnnotationEnv "t1" d' event eventId) ∧
    ∀ event d', ((labelCall "y" none).write unaryAnnotationEnv "t1").run
      (bareHome.after unaryAnnotationEnv "t1" [labelCall "x" (some .between), labelCall "x" none]) ≠
        (.ok (.returned event), d') := by
  have huuid : Function.Injective unaryAnnotationEnv.uuid :=
    strictMono_unary.injective.comp Nat.succ_injective
  refine ⟨?_, ?_⟩
  · -- The retry returns, so the first part says what it has left.
    have hreturns : hasReturned (((labelCall "x" none).write unaryAnnotationEnv "t1").run
        (bareHome.after unaryAnnotationEnv "t1" [labelCall "x" (some .between)])).1 = true := by
      decide +kernel
    cases hrun : ((labelCall "x" none).write unaryAnnotationEnv "t1").run
        (bareHome.after unaryAnnotationEnv "t1" [labelCall "x" (some .between)]) with
    | mk r d' =>
      rw [hrun] at hreturns
      cases r with
      | error err => cases hreturns
      | ok callEnd =>
        cases callEnd with
        | died => cases hreturns
        | returned event =>
          obtain ⟨eventId, hwritten⟩ := (annotations_exactlyOnce huuid bareHome_intact
            [labelCall "x" (some .between)] (labelCall "x" none)).1 event d' hrun
          exact ⟨event, d', eventId, rfl, hwritten⟩
  · -- The first call died, and a later one with another payload is refused.
    have hdies : hasDied (((labelCall "x" (some .between)).write unaryAnnotationEnv "t1").run
        bareHome).1 = true := by decide +kernel
    cases hrun : ((labelCall "x" (some .between)).write unaryAnnotationEnv "t1").run bareHome with
    | mk r d' =>
      rw [hrun] at hdies
      cases r with
      | error err => cases hdies
      | ok callEnd =>
        cases callEnd with
        | returned event => cases hdies
        | died =>
          have hother : (labelCall "y" none).payload ≠
              (labelCall "x" (some .between)).payload := by
            intro h
            have hlabel : Json.str "y" = Json.str "x" := congrArg (fun d => Dict.get d "label") h
            exact absurd (Json.str.inj hlabel) (by decide)
          exact (annotations_exactlyOnce huuid bareHome_intact []
            (labelCall "x" (some .between))).2.2 .died d' [labelCall "x" none]
            (labelCall "y" none) "t" hrun rfl rfl rfl (.inr hother)

end SkCoord
