import SkCoord.CardStore.Equiv.Append
import SkCoord.Coordination.Life

/-!
# The lives that the store shows

The lifecycle calls append four kinds of events.  `step_claim`, `step_release`, `step_complete` and
`step_ready` say what each does to the life that a folded card shows.

`StoreAt env n st lives` is the store of a run up to the tick `n`: the fold of every card shows its
life, and no event carries a time or an identifier that is still to come.  `StoreAt.append` is the
one rule for an event: it is later than all others, so it comes last, and the fold goes one step.
-/

namespace SkCoord

open Python

/-! ### One event on a life -/

/-- A claim that does not conflict takes the card. -/
theorem Card.foldClaim_of_not_claimConflicts (c : Card) {e : Event}
    (h : claimConflicts c e = false) :
    c.foldClaim e = .ok { c with
      owner := e.get "owner"
      status := .doing
      metaData :=
        let md :=
          if (claimRevision e).isNonEmptyStr then
            Assoc.set c.metaData "_claim_revision" (claimRevision e)
          else Assoc.erase c.metaData "_claim_revision"
        if c.owner.isNone && c.status == .backlog && (e.get "owner").truthy then
          Assoc.erase md "claim_conflicts"
        else md } := by
  unfold foldClaim
  rw [h, if_neg Bool.false_ne_true]
  rfl

namespace FoldState

variable {cardId owner revision : String} {life : Life} {s : FoldState} {e : Event} {c : Card}

/-- The variables of the loop show a life of a card that is listed. -/
structure Shows (s : FoldState) (cardId : String) (life : Life) : Prop where
  notVoided : s.voided = false
  isTask : s.card.IsTask cardId
  life : s.card.Shows life

theorem action_of_str {act : String} (h : e.get "action" = .str act) :
    e.action = Action.ofString act := by
  unfold Event.action
  rw [h]

/-- An action that is not a void, on a card that is not voided. -/
theorem step_of_foldAction (life : Life) {act : Action} (hvoid : s.voided = false)
    (hact : e.action = act) (hne : act ≠ .void) (hc : foldAction cardId s.card e act = .ok c)
    (htask : c.IsTask cardId) (hlife : c.Shows life) :
    ∃ t, step cardId s e = .ok t ∧ t.Shows cardId life ∧ t.card.metaData = c.metaData := by
  refine ⟨{ card := touch c e, voided := false }, ?_, ⟨rfl, ⟨htask.id, htask.kind, htask.title,
    htask.description, htask.labels, htask.archived⟩, hlife⟩, rfl⟩
  unfold step lookupTerminal
  rw [hvoid, hact, Bool.false_and, if_neg Bool.false_ne_true, if_neg Bool.false_ne_true]
  refine bind_eq_ok.mpr ⟨(), rfl, bind_eq_ok.mpr ⟨c, hc, ?_⟩⟩
  rw [Bool.false_or, beq_eq_false_iff_ne.mpr hne]
  rfl

/-- Ownership and column are no part of what makes a card a task. -/
theorem isTask_update (h : c.IsTask cardId) (owner : Json) (status : Column) (metaData : Dict) :
    ({ c with owner, status, metaData } : Card).IsTask cardId :=
  ⟨h.id, h.kind, h.title, h.description, h.labels, h.archived⟩

/-- A claim by an agent that the card is open to. -/
theorem step_claim (hs : s.Shows cardId life) (hopen : life.OpenTo owner)
    (hact : e.get "action" = .str "claim") (howner : e.get "owner" = .str owner)
    (hrev : e.get "claim_revision" = .str revision) (ho : owner ≠ "") (hr : revision ≠ "") :
    ∃ t, step cardId s e = .ok t ∧ t.Shows cardId (.held owner revision) := by
  have hlive := hs.life
  have hnocon : Card.claimConflicts s.card e = false := by
    unfold Card.claimConflicts
    cases life with
    | free => rw [hlive.1]; simp [Json.truthy]
    | held o r =>
      obtain rfl : o = owner := hopen
      rw [hlive.1, howner, Json.pyEq_refl]
      simp
    | done => exact hopen.elim
  have hclaimRev : Card.claimRevision e = .str revision := by
    unfold Card.claimRevision Json.orElse
    rw [hrev, if_pos ((Json.truthy_str _).mpr hr)]
  have hstr : (Json.str revision).isNonEmptyStr = true :=
    (Json.isNonEmptyStr_iff _).mpr ⟨revision, rfl, hr⟩
  have hfold := s.card.foldClaim_of_not_claimConflicts hnocon
  rw [hclaimRev, if_pos hstr] at hfold
  obtain ⟨t, ht, hshows, -⟩ := step_of_foldAction (.held owner revision) hs.notVoided
    (action_of_str hact) (by decide) hfold (isTask_update hs.isTask _ _ _)
    ⟨howner, .inr rfl, by
      dsimp only
      split
      · rw [Assoc.get?_erase_ne _ (by decide), Assoc.get?_set_self]
      · rw [Assoc.get?_set_self], ho, hr⟩
  exact ⟨t, ht, hshows⟩

/-- The release of the claim that is live. -/
theorem step_release (hs : s.Shows cardId (.held owner revision))
    (hact : e.get "action" = .str "release_claim")
    (howner : e.get "released_owner" = .str owner)
    (hrev : e.get "expected_claim_revision" = .str revision)
    (hiter : (Dict.getD s.card.metaData "claim_conflicts" (.arr [])).iter.isOk = true) :
    ∃ t, step cardId s e = .ok t ∧ t.Shows cardId .free ∧
      Assoc.get? t.card.metaData "_claim_revision" = none := by
  obtain ⟨hso, -, hsr, ho, hr⟩ := hs.life
  have hcur : Card.releasesCurrent s.card e = true := by
    have hlive : Dict.get s.card.metaData "_claim_revision" = .str revision := by
      rw [Dict.get, hsr, Option.getD_some]
    unfold Card.releasesCurrent Card.validRelease
    rw [hso, hlive, howner, hrev]
    simp [Json.isNonEmptyStr, ho, hr]
  have hfold : foldAction cardId s.card e .releaseClaim = .ok
      { s.card with
        owner := .null
        status := .backlog
        metaData := Assoc.erase s.card.metaData "_claim_revision" } := by
    cases hl : (Dict.getD s.card.metaData "claim_conflicts" (.arr [])).iter with
    | error err => rw [hl] at hiter; cases hiter
    | ok l =>
      refine bind_eq_ok.mpr ⟨l, hl, ?_⟩
      dsimp only
      rw [if_pos hcur]
      rfl
  obtain ⟨t, ht, hshows, hmeta⟩ := step_of_foldAction .free hs.notVoided (action_of_str hact)
    (by decide) hfold (isTask_update hs.isTask .null .backlog _) ⟨rfl, rfl⟩
  exact ⟨t, ht, hshows, hmeta ▸ Assoc.get?_erase_self _ _⟩

/-- A completion. -/
theorem step_complete (hs : s.Shows cardId life) (hact : e.get "action" = .str "complete") :
    ∃ t, step cardId s e = .ok t ∧ t.Shows cardId .done := by
  obtain ⟨t, ht, hshows, -⟩ := step_of_foldAction .done hs.notVoided (action_of_str hact)
    (by decide) rfl (isTask_update hs.isTask _ _ _) ⟨rfl, rfl⟩
  exact ⟨t, ht, hshows⟩

/-- The move of a held card to `ready`. -/
theorem step_ready (hs : s.Shows cardId (.held owner revision))
    (hact : e.get "action" = .str "move") (hcol : e.get "column" = .str "ready")
    (horder : e.get "order" = .null) :
    ∃ t, step cardId s e = .ok t ∧ t.Shows cardId (.held owner revision) := by
  obtain ⟨hso, -, hsr, ho, hr⟩ := hs.life
  have hfold : foldAction cardId s.card e .move = .ok { s.card with status := .ready } := by
    unfold foldAction Card.foldMove
    rw [hcol, horder]
    rfl
  obtain ⟨t, ht, hshows, -⟩ := step_of_foldAction (.held owner revision) hs.notVoided
    (action_of_str hact) (by decide) hfold
    (isTask_update hs.isTask s.card.owner .ready s.card.metaData) ⟨hso, .inl rfl, hsr, ho, hr⟩
  exact ⟨t, ht, hshows⟩

end FoldState

/-! ### The store of a run -/

/-- An event of a run up to the tick `n`: its time and its identifier are behind. -/
structure EventAt (env : BoardEnv) (n : ℕ) (e : Event) : Prop where
  stamped : ∃ ts, Store.Stamped e ts ∧ ∀ m, n ≤ m → ts < env.now m
  notVoid : e.get "action" ≠ .str "void"
  transition : ∀ m, n ≤ m → e.get "transition_id" ≠ .str (env.uuid m)

/-- The directory of a card whose fold shows a life. -/
structure CardAt (env : BoardEnv) (n : ℕ) (st : Store) (cardId : String) (life : Life) :
    Prop where
  valid : validateCardLockIdentifier cardId = .ok cardId
  readable : ∀ p ∈ (st.dir cardId).logs,
    ∃ events, Store.readLog env.env cardId p.1 "" p.2 = .ok events
  events : ∀ p ∈ (st.dir cardId).logs, ∀ line ∈ p.2,
    ∃ e, line = .value (.obj e) ∧ EventAt env n e
  folds : ∃ core events s, (st.dir cardId).core = .present core ∧ core.id = cardId ∧
    st.readEvents env.env cardId = .ok events ∧ foldCard cardId core events = .ok s ∧
    s.Shows cardId life

/-- The store of a run up to the tick `n`. -/
structure StoreAt (env : BoardEnv) (n : ℕ) (st : Store) (lives : Lives) : Prop where
  legacy : st.legacy = []
  listed : ∀ cardId ∈ Assoc.keys st.cards, (lives cardId).isSome = true
  card : ∀ {cardId : String} {life : Life}, lives cardId = some life →
    CardAt env n st cardId life

variable {env : BoardEnv} {n m : ℕ} {st st' : Store} {lives : Lives} {cardId : String}
  {life life' : Life}

theorem EventAt.mono {e : Event} (h : EventAt env n e) (hn : n ≤ m) : EventAt env m e := by
  obtain ⟨ts, hts, hlt⟩ := h.stamped
  exact ⟨⟨ts, hts, fun k hk => hlt k (hn.trans hk)⟩, h.notVoid,
    fun k hk => h.transition k (hn.trans hk)⟩

/-- A card is what its directory holds, and a run only goes on. -/
theorem CardAt.congr (h : CardAt env n st cardId life) (hn : n ≤ m)
    (hdir : st'.dir cardId = st.dir cardId) : CardAt env m st' cardId life := by
  refine ⟨h.valid, ?_, ?_, ?_⟩
  · rw [hdir]
    exact h.readable
  · rw [hdir]
    intro p hp line hline
    obtain ⟨e, hline, he⟩ := h.events p hp line hline
    exact ⟨e, hline, he.mono hn⟩
  · have hread : st'.readEvents env.env cardId = st.readEvents env.env cardId := by
      unfold Store.readEvents
      rw [hdir]
    rw [hdir, hread]
    exact h.folds

theorem StoreAt.mono (h : StoreAt env n st lives) (hn : n ≤ m) : StoreAt env m st lives :=
  ⟨h.legacy, h.listed, fun hlife => (h.card hlife).congr hn rfl⟩

/-- A card without a life has no directory. -/
theorem StoreAt.dir_of_none (h : StoreAt env n st lives) (hnone : lives cardId = none) :
    st.dir cardId = {} := by
  have hkey : cardId ∉ Assoc.keys st.cards := by
    intro hmem
    have hsome := h.listed cardId hmem
    rw [hnone] at hsome
    cases hsome
  unfold Store.dir
  rw [(Assoc.get?_eq_none_iff _ _).mpr hkey]
  rfl

/-- The fold of a card is over its own events where there are no legacy mutations. -/
theorem fold_of_readEvents {core : CardCore} {events : List Event} {s : FoldState}
    (hlegacy : st.legacy = []) (hvalid : validateCardLockIdentifier cardId = .ok cardId)
    (hcore : (st.dir cardId).core = .present core)
    (hevents : st.readEvents env.env cardId = .ok events)
    (hs : foldCard cardId core events = .ok s) :
    st.fold env.env cardId = .ok (some s.card) := by
  refine Store.fold_eq_some.mpr ⟨core, events, s, ?_, ?_, hs, rfl⟩
  · refine bind_eq_ok.mpr ⟨_, hvalid, ?_⟩
    rw [hcore]
    rfl
  · unfold Store.mergedEvents Store.legacyEvents
    rw [hlegacy]
    exact bind_eq_ok.mpr ⟨events, hevents, rfl⟩

theorem CardAt.fold (h : CardAt env n st cardId life) (hlegacy : st.legacy = []) :
    ∃ c, st.fold env.env cardId = .ok (some c) ∧ c.IsTask cardId ∧ c.Shows life := by
  obtain ⟨core, events, s, hcore, -, hevents, hs, hshows⟩ := h.folds
  exact ⟨s.card, fold_of_readEvents hlegacy h.valid hcore hevents hs, hshows.isTask, hshows.life⟩

/-- The events of a card are those of its logs. -/
theorem CardAt.eventAt (h : CardAt env n st cardId life) {events : List Event} {e : Event}
    (hevents : st.readEvents env.env cardId = .ok events) (he : e ∈ events) :
    EventAt env n e := by
  rw [Store.mem_readEvents_iff hevents] at he
  obtain ⟨p, hp, he⟩ := List.mem_flatMap.mp he
  obtain ⟨line, hline, he⟩ := List.mem_filterMap.mp he
  have hmem : p ∈ (st.dir cardId).logs := by
    rw [Store.sortedLogs, List.mem_insertionSort] at hp
    exact List.mem_of_mem_filter hp
  obtain ⟨e', rfl, he'⟩ := h.events p hmem line hline
  cases he
  exact he'

theorem StoreAt.fold (h : StoreAt env n st lives) (hlife : lives cardId = some life) :
    ∃ c, st.fold env.env cardId = .ok (some c) ∧ c.IsTask cardId ∧ c.Shows life :=
  (h.card hlife).fold h.legacy

/-- A card without a life folds to nothing. -/
theorem StoreAt.fold_of_none (h : StoreAt env n st lives) (hnone : lives cardId = none)
    {c : Card} : st.fold env.env cardId ≠ .ok (some c) := by
  intro hfold
  obtain ⟨core, -, -, hcore, -⟩ := Store.fold_eq_some.mp hfold
  have hpresent := Store.loadCore_eq_some hcore
  rw [h.dir_of_none hnone] at hpresent
  cases hpresent

/-! ### The next event -/

/-- The payload of a transition: it leaves the stamps alone and names its transition. -/
structure TransitionPayload (payload : Dict) (transitionId : String) : Prop where
  nodup : (Assoc.keys payload).Nodup
  stamps : ∀ k ∈ ["ts", "writer", "seq", "action", "prev_hash"], k ∉ Assoc.keys payload
  transition : Assoc.get? payload "transition_id" = some (.str transitionId)

/-- A payload by its keys. -/
theorem TransitionPayload.of_keys {payload : Dict} {transitionId : String} (ks : List String)
    (hkeys : Assoc.keys payload = ks) (hnodup : ks.Nodup)
    (hstamps : ∀ k ∈ ["ts", "writer", "seq", "action", "prev_hash"], k ∉ ks)
    (htransition : Assoc.get? payload "transition_id" = some (.str transitionId)) :
    TransitionPayload payload transitionId :=
  ⟨hkeys ▸ hnodup, hkeys ▸ hstamps, htransition⟩

/-- No event of the card has this transition. -/
def FreshTransition (st : Store) (cardId transitionId : String) : Prop :=
  ∀ p ∈ (st.dir cardId).logs, ∀ e : Event, .value (.obj e) ∈ p.2 →
    e.get "transition_id" ≠ .str transitionId

/-- An identifier that is drawn from the tick `n` on is fresh. -/
theorem CardAt.freshTransition (h : CardAt env n st cardId life) (hn : n ≤ m) :
    FreshTransition st cardId (env.uuid m) := by
  intro p hp e he
  obtain ⟨e', heq, he'⟩ := h.events p hp _ he
  cases heq
  exact he'.transition m hn

section

variable {payload : Dict} {transitionId action agent : String} {lines : List LogLine}
  {stamp : Stamp}

theorem get?_newEvent (hp : TransitionPayload payload transitionId) (k : String) :
    Assoc.get? (Store.newEvent env.env lines action agent payload stamp) k =
      (Assoc.get? payload k).or (Assoc.get? [("event_id", .str stamp.eventId),
        ("ts", .str stamp.ts), ("writer", .str agent), ("node", .str env.env.hostname),
        ("seq", .int lines.length), ("action", .str action),
        ("prev_hash", .str ((lines.getLast?.map env.env.lineHash).getD ""))] k) :=
  Assoc.get?_update k payload _ hp.nodup

/-- A stamp of the new event. -/
theorem get?_newEvent_stamp (hp : TransitionPayload payload transitionId) {k : String}
    (hk : k ∈ ["ts", "writer", "seq", "action", "prev_hash"]) :
    Assoc.get? (Store.newEvent env.env lines action agent payload stamp) k =
      Assoc.get? [("event_id", .str stamp.eventId),
        ("ts", .str stamp.ts), ("writer", .str agent), ("node", .str env.env.hostname),
        ("seq", .int lines.length), ("action", .str action),
        ("prev_hash", .str ((lines.getLast?.map env.env.lineHash).getD ""))] k := by
  rw [get?_newEvent hp, (Assoc.get?_eq_none_iff payload k).mpr (hp.stamps k hk)]
  rfl

/-- A field of the payload. -/
theorem get_newEvent (hp : TransitionPayload payload transitionId) {k : String} {v : Json}
    (hk : Assoc.get? payload k = some v) :
    Dict.get (Store.newEvent env.env lines action agent payload stamp) k = v := by
  rw [Dict.get, get?_newEvent hp, hk]
  rfl

theorem action_newEvent (hp : TransitionPayload payload transitionId) :
    Dict.get (Store.newEvent env.env lines action agent payload stamp) "action" =
      .str action := by
  rw [Dict.get, get?_newEvent_stamp hp (by decide)]
  rfl

theorem stamped_newEvent (hp : TransitionPayload payload transitionId) :
    Store.Stamped (Store.newEvent env.env lines action agent payload stamp) stamp.ts := by
  refine ⟨?_, ⟨agent, ?_⟩, ⟨lines.length, ?_⟩⟩
  · rw [get?_newEvent_stamp hp (by decide)]
    rfl
  · rw [get?_newEvent_stamp hp (by decide)]
    rfl
  · rw [get?_newEvent_stamp hp (by decide)]
    rfl

/-- The new event is one of the run that has gone on. -/
theorem eventAt_newEvent (henv : env.Ticking) (hp : TransitionPayload payload transitionId)
    (haction : action ≠ "void") (htid : ∀ k, m < k → transitionId ≠ env.uuid k)
    (hts : stamp.ts = env.now m) :
    EventAt env (m + 1) (Store.newEvent env.env lines action agent payload stamp) := by
  refine ⟨⟨env.now m, hts ▸ stamped_newEvent hp, fun k hk => henv.now hk⟩, ?_, ?_⟩
  · rw [action_newEvent hp]
    intro h
    exact haction (Json.str.inj h)
  · intro k hk h
    rw [get_newEvent hp hp.transition] at h
    exact htid k hk (Json.str.inj h)

end

/-! ### Appending -/

section

variable {payload payload' : Dict} {transitionId action agent : String} {stamp : Stamp}

/-- The lines of a log are lines of the directory. -/
theorem CardAt.logLines (h : CardAt env n st cardId life) (file : String) :
    (∃ events, Store.readLog env.env cardId file "" (st.logLines cardId file) = .ok events) ∧
      ∀ line ∈ st.logLines cardId file, ∃ e, line = .value (.obj e) ∧ EventAt env n e := by
  refine ⟨Store.readLog_logLines h.readable file, fun line hline => ?_⟩
  obtain ⟨lines, hmem, hline⟩ := Store.mem_logLines hline
  exact h.events _ hmem line hline

theorem findTransition_of_fresh : ∀ {lines : List LogLine},
    (∀ line ∈ lines, ∃ e : Event, line = .value (.obj e) ∧
      e.get "transition_id" ≠ .str transitionId) →
    Store.findTransition transitionId lines = .ok none
  | [], _ => rfl
  | line :: lines, h => by
    obtain ⟨e, rfl, he⟩ := h line List.mem_cons_self
    have hne : ((Assoc.get? e "transition_id").getD .null).pyEq (.str transitionId) = false :=
      Bool.eq_false_iff.mpr fun heq => he ((Json.pyEq_str_right_iff _ _).mp heq)
    rw [Store.findTransition]
    refine bind_eq_ok.mpr ⟨_, rfl, ?_⟩
    dsimp only
    rw [hne, if_neg Bool.false_ne_true]
    exact findTransition_of_fresh fun l hl => h l (List.mem_cons_of_mem _ hl)

/-- A transition that no line of the card names is not one that was written before. -/
theorem replayedEvent_of_fresh {st : Store} {file : String}
    (hlines : ∀ line ∈ st.logLines cardId file, ∃ e : Event, line = .value (.obj e))
    (htid : Assoc.get? payload "transition_id" = some (.str transitionId))
    (hne : transitionId ≠ "") (hfresh : FreshTransition st cardId transitionId) :
    Store.replayedEvent (st.logLines cardId file) payload = .ok none := by
  unfold Store.replayedEvent
  rw [Dict.get, htid, Option.getD_some]
  dsimp only
  rw [if_neg hne]
  refine findTransition_of_fresh fun line hline => ?_
  obtain ⟨e, rfl⟩ := hlines line hline
  obtain ⟨lines, hmem, hline⟩ := Store.mem_logLines hline
  exact ⟨e, rfl, hfresh _ hmem e hline⟩

/-- The guards of `append_event` let the next event of a card through. -/
theorem CardAt.appendEvent (h : CardAt env n st cardId life) (hlegacy : st.legacy = [])
    (hnorm : Store.normalisePayload env.env action payload = .ok payload')
    (hp : TransitionPayload payload' transitionId) (hne : transitionId ≠ "")
    (hfresh : FreshTransition st cardId transitionId) :
    st.appendEvent env.env cardId action agent payload stamp =
      .ok (st.appendLine cardId (Store.writerFile env.env agent)
          (.value (.obj (Store.newEvent env.env
            (st.logLines cardId (Store.writerFile env.env agent)) action agent payload' stamp))),
        Store.newEvent env.env (st.logLines cardId (Store.writerFile env.env agent)) action agent
          payload' stamp) := by
  obtain ⟨c, hc, htask, -⟩ := h.fold hlegacy
  obtain ⟨core, events, -, hcore, hid, hevents, -⟩ := h.folds
  -- each guard passes: the core is the one of the card, the card folds and was never voided
  have hanchor : st.requireLockAnchor env.env cardId = .ok () := by
    unfold Store.requireLockAnchor
    rw [hcore]
    dsimp only
    rw [if_pos hid]
    split <;> rfl
  have hfoldable : st.requireFoldableCore env.env cardId = .ok () := by
    refine bind_eq_ok.mpr ⟨some c, hc, ?_⟩
    dsimp only
    rw [if_pos htask.id]
    rfl
  have hvoid : st.requireNotVoided env.env cardId action = .ok () := by
    have hnone : (events.any fun e => (e.get "action").pyEq (.str "void")) = false := by
      refine List.any_eq_false.mpr fun e he hact => ?_
      exact (h.eventAt hevents he).notVoid ((Json.pyEq_str_right_iff _ _).mp hact)
    unfold Store.requireNotVoided
    split
    · refine bind_eq_ok.mpr ⟨events, hevents, ?_⟩
      rw [hnone]
      rfl
    · rfl
  have hreplay : Store.replayedEvent (st.logLines cardId (Store.writerFile env.env agent))
      payload' = .ok none :=
    replayedEvent_of_fresh (fun line hline => ((h.logLines _).2 line hline).imp fun _ he => he.1)
      hp.transition hne hfresh
  unfold Store.appendEvent
  refine bind_eq_ok.mpr ⟨_, h.valid, bind_eq_ok.mpr ⟨_, hnorm, bind_eq_ok.mpr ⟨_, hanchor,
    bind_eq_ok.mpr ⟨_, hfoldable, bind_eq_ok.mpr ⟨_, hvoid, ?_⟩⟩⟩⟩⟩
  exact bind_eq_ok.mpr ⟨none, hreplay, rfl⟩

/-- The card behind the next event. -/
theorem CardAt.appendLine (henv : env.Ticking) (h : CardAt env n st cardId life) (hn : n ≤ m)
    (hp : TransitionPayload payload' transitionId) (haction : action ≠ "void")
    (htid : ∀ k, m < k → transitionId ≠ env.uuid k) (hts : stamp.ts = env.now m)
    {lines : List LogLine} (hlines : lines = st.logLines cardId (Store.writerFile env.env agent))
    {Q : Card → Prop}
    (hstep : ∀ s : FoldState, s.Shows cardId life → st.fold env.env cardId = .ok (some s.card) →
      ∃ t, FoldState.step cardId s
        (Store.newEvent env.env lines action agent payload' stamp) = .ok t ∧
        t.Shows cardId life' ∧ Q t.card)
    (hlegacy : st.legacy = []) :
    let st' := st.appendLine cardId (Store.writerFile env.env agent)
      (.value (.obj (Store.newEvent env.env lines action agent payload' stamp)))
    CardAt env (m + 1) st' cardId life' ∧
      st'.hasTransition env.env cardId transitionId = .ok true ∧
      ∃ c, st'.fold env.env cardId = .ok (some c) ∧ Q c := by
  have hlater := @eventAt_newEvent env m payload' transitionId action agent lines stamp henv hp
    haction htid hts
  set e := Store.newEvent env.env lines action agent payload' stamp with he
  set file := Store.writerFile env.env agent with hfile
  obtain ⟨hread, hobj⟩ := h.logLines file
  -- each log is an old one or the one that the event is appended to
  have hlogs : ∀ p ∈ ((st.appendLine cardId file (.value (.obj e))).dir cardId).logs,
      p = (file, lines ++ [.value (.obj e)]) ∨ p ∈ (st.dir cardId).logs := by
    intro p hpm
    rw [Store.dir_appendLine_self] at hpm
    rw [hlines]
    exact Assoc.mem_set hpm
  have hreadable : ∀ p ∈ ((st.appendLine cardId file (.value (.obj e))).dir cardId).logs,
      ∃ events, Store.readLog env.env cardId p.1 "" p.2 = .ok events := by
    intro p hpm
    rcases hlogs p hpm with rfl | hold
    · obtain ⟨events, hevents⟩ := hread
      have hprev : e.get "prev_hash" =
          .str ((lines.getLast?.map env.env.lineHash).getD "") := by
        rw [Dict.get, he, get?_newEvent_stamp hp (by decide)]
        rfl
      rw [← hlines] at hevents hobj
      exact ⟨_, Store.readLog_append hprev hevents
        (fun line hline => (hobj line hline).imp fun _ h => h.1) (.inr rfl)⟩
    · exact h.readable p hold
  have hevents' : ∀ p ∈ ((st.appendLine cardId file (.value (.obj e))).dir cardId).logs,
      ∀ line ∈ p.2, ∃ e, line = .value (.obj e) ∧ EventAt env (m + 1) e := by
    intro p hpm line hline
    rcases hlogs p hpm with rfl | hold
    · rcases List.mem_append.mp hline with hline | hline
      · rw [hlines] at hline
        obtain ⟨x, hx, hxe⟩ := hobj line hline
        exact ⟨x, hx, hxe.mono (hn.trans m.le_succ)⟩
      · exact ⟨e, List.mem_singleton.mp hline, hlater⟩
    · obtain ⟨x, hx, hxe⟩ := h.events p hold line hline
      exact ⟨x, hx, hxe.mono (hn.trans m.le_succ)⟩
  obtain ⟨core, events, s, hcore, hid, hev, hs, hshows⟩ := h.folds
  obtain ⟨events', hev'⟩ := Store.readEvents_ok h.valid fun p hpm => ⟨hreadable p hpm, by
    intro x hx
    obtain ⟨y, hy, hye⟩ := hevents' p hpm _ hx
    cases hy
    obtain ⟨ts, hts, -⟩ := hye.stamped
    exact ⟨ts, hts⟩⟩
  -- the event is later than all others, so the fold goes one step
  have htop : events' = events ++ [e] := by
    refine Store.readEvents_appendLine_top (Store.endsWith_writerFile _ _) hev hev'
      fun x hx => ?_
    obtain ⟨ts, hstamped, hlt⟩ := (h.eventAt hev hx).stamped
    exact hstamped.later (he ▸ hts ▸ stamped_newEvent hp) (hlt m hn)
  have hfold := fold_of_readEvents hlegacy h.valid hcore hev hs
  obtain ⟨t, ht, htshows, hQ⟩ := hstep s hshows hfold
  have hcore' : ((st.appendLine cardId file (.value (.obj e))).dir cardId).core =
      .present core := by
    rw [Store.dir_appendLine_self]
    exact hcore
  have ht' : foldCard cardId core events' = .ok t := by
    obtain ⟨s₀, h0, hs⟩ := bind_eq_ok.mp hs
    rw [htop]
    refine bind_eq_ok.mpr ⟨s₀, h0, foldlM_append_eq_ok.mpr ⟨s, hs, ?_⟩⟩
    exact foldlM_cons_eq_ok.mpr ⟨t, ht, rfl⟩
  refine ⟨⟨h.valid, hreadable, hevents', core, events', t, hcore', hid, hev', ht', htshows⟩, ?_,
    t.card, fold_of_readEvents hlegacy h.valid hcore' hev' ht', hQ⟩
  refine bind_eq_ok.mpr ⟨events', hev', ?_⟩
  rw [htop, List.any_append, List.any_cons, he, get_newEvent hp hp.transition, Json.pyEq_refl,
    Bool.true_or, Bool.or_true]
  rfl

/-- **The next event** of a card goes one step on the life that its fold shows. -/
theorem StoreAt.append (henv : env.Ticking) (h : StoreAt env n st lives) (hn : n ≤ m)
    (hlife : lives cardId = some life)
    (hnorm : Store.normalisePayload env.env action payload = .ok payload')
    (hp : TransitionPayload payload' transitionId) (haction : action ≠ "void")
    (hne : transitionId ≠ "") (hfresh : FreshTransition st cardId transitionId)
    (htid : ∀ k, m < k → transitionId ≠ env.uuid k) (hts : stamp.ts = env.now m)
    {Q : Card → Prop}
    (hstep : ∀ (lines : List LogLine) (s : FoldState), s.Shows cardId life →
      st.fold env.env cardId = .ok (some s.card) → ∃ t, FoldState.step cardId s
        (Store.newEvent env.env lines action agent payload' stamp) = .ok t ∧
        t.Shows cardId life' ∧ Q t.card) :
    ∃ st' e, st.appendEvent env.env cardId action agent payload stamp = .ok (st', e) ∧
      StoreAt env (m + 1) st' (Function.update lives cardId (some life')) ∧
      (∀ other, other ≠ cardId → st'.dir other = st.dir other) ∧
      st'.hasTransition env.env cardId transitionId = .ok true ∧
      ∃ c, st'.fold env.env cardId = .ok (some c) ∧ Q c := by
  have hcard := h.card hlife
  obtain ⟨hcard', hdurable, hfolded⟩ :=
    hcard.appendLine henv hn hp haction htid hts rfl (hstep _) h.legacy
  refine ⟨_, _, hcard.appendEvent h.legacy hnorm hp hne hfresh, ⟨h.legacy, ?_, ?_⟩,
    fun other hother => Store.dir_appendLine_of_ne hother, hdurable, hfolded⟩
  · intro other hmem
    by_cases hother : other = cardId
    · rw [hother, Function.update_self]
      rfl
    · rw [Function.update_of_ne hother]
      exact h.listed other ((Assoc.mem_keys_set.mp hmem).resolve_left hother)
  · intro other life'' hother
    by_cases heq : other = cardId
    · subst heq
      rw [Function.update_self] at hother
      cases hother
      exact hcard'
    · rw [Function.update_of_ne heq] at hother
      exact (h.card hother).congr (hn.trans m.le_succ) (Store.dir_appendLine_of_ne heq)

end

/-! ### A new card -/

/-- The lives without any card. -/
theorem storeAt_empty : StoreAt env n {} fun _ => none :=
  ⟨rfl, fun _ h => (List.not_mem_nil h).elim, fun h => nomatch h⟩

section

variable {core : CardCore} (h : StoreAt env n st lives) (hnone : lives core.id = none)
  (hvalid : validateCardLockIdentifier core.id = .ok core.id)

include h hnone

/-- The directory of a new card holds its core alone. -/
theorem StoreAt.dir_setCore :
    (st.setCore core).dir core.id = ({ core := .present core } : CardDir) := by
  rw [Store.dir_setCore_self, h.dir_of_none hnone]

include hvalid

theorem StoreAt.readEvents_setCore :
    (st.setCore core).readEvents env.env core.id = .ok [] := by
  refine bind_eq_ok.mpr ⟨_, hvalid, ?_⟩
  rw [h.dir_setCore hnone]
  rfl

/-- A new card folds as it was born. -/
theorem StoreAt.fold_setCore {s : FoldState} (hinit : foldInit core.id core = .ok s) :
    (st.setCore core).fold env.env core.id = .ok (some s.card) :=
  fold_of_readEvents h.legacy hvalid (by rw [h.dir_setCore hnone])
    (h.readEvents_setCore hnone hvalid) (bind_eq_ok.mpr ⟨s, hinit, rfl⟩)

/-- A core that is published for a card without a directory. -/
theorem StoreAt.setCore {s : FoldState} (hinit : foldInit core.id core = .ok s)
    (hs : s.Shows core.id life) :
    StoreAt env n (st.setCore core) (Function.update lives core.id (some life)) := by
  refine ⟨h.legacy, ?_, ?_⟩
  · intro other hmem
    by_cases hother : other = core.id
    · rw [hother, Function.update_self]
      rfl
    · rw [Function.update_of_ne hother]
      exact h.listed other ((Assoc.mem_keys_set.mp hmem).resolve_left hother)
  · intro other life' hother
    by_cases heq : other = core.id
    · subst heq
      rw [Function.update_self] at hother
      cases hother
      have hdir := h.dir_setCore hnone
      refine ⟨hvalid, ?_, ?_, core, [], s, by rw [hdir], rfl, h.readEvents_setCore hnone hvalid,
        bind_eq_ok.mpr ⟨s, hinit, rfl⟩, hs⟩
      · rw [hdir]
        exact fun p hp => (List.not_mem_nil hp).elim
      · rw [hdir]
        exact fun p hp => (List.not_mem_nil hp).elim
    · rw [Function.update_of_ne heq] at hother
      exact (h.card hother).congr le_rfl (Store.dir_setCore_of_ne _ heq)

end

end SkCoord
