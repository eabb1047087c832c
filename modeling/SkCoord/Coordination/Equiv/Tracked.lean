import SkCoord.Coordination.Equiv.Settled

/-!
# The next event of a card on any reachable board

`Board.Tracks` says to which variables of the loop a card folds before the clock of the board.
`run_append_written`: an event with a transition that was drawn before leaves the card one step on
(`Board.Writes`), and every other card and the agent files as they were (`Board.Beside`).
-/

namespace SkCoord

open Python Effect

/-- The card folds to the variables `s` of the loop, before the clock of the board. -/
structure Board.Tracks (env : BoardEnv) (b : Board) (cardId : String) (s : FoldState) : Prop where
  folds : b.store.FoldsTo env.env cardId (env.now b.ticks) s
  id : s.card.id = cardId
  voided : s.voided = false

/-- Apart from one card, the store and the agent files are as they were. -/
structure Board.Beside (b b' : Board) (cardId : String) : Prop where
  dir : ∀ other, other ≠ cardId → b'.store.dir other = b.store.dir other
  legacy : b'.store.legacy = b.store.legacy
  agents : b'.agents = b.agents
  ticks : b.ticks ≤ b'.ticks

variable {env : BoardEnv} {b b' b'' : Board} {T : List String}
  {cardId other action agent tid : String} {payload payload' : Dict} {s t : FoldState}

/-- A transition that no line of a card names is not on record. -/
theorem hasTransition_of_fresh {ts : String} (hdated : b.store.Dated env.env cardId ts)
    (hfresh : FreshTransition b.store cardId tid) :
    b.store.hasTransition env.env cardId tid = .ok false := by
  obtain ⟨events, hevents, -⟩ := hdated.readEvents
  refine bind_eq_ok.mpr ⟨events, hevents, ?_⟩
  rw [pure_eq_ok]
  refine List.any_eq_false.mpr fun e he hnamed => ?_
  obtain ⟨p, hp, hline⟩ := List.mem_flatMap.mp ((Store.mem_readEvents_iff hevents).mp he)
  obtain ⟨line, hline, hobj⟩ := List.mem_filterMap.mp hline
  have hmem : p ∈ (b.store.dir cardId).logs := by
    rw [Store.sortedLogs, List.mem_insertionSort] at hp
    exact List.mem_of_mem_filter hp
  obtain ⟨x, -, rfl, -⟩ := hdated.lines p hmem line hline
  cases hobj
  exact hfresh p hmem e hline ((Json.pyEq_str_right_iff _ _).mp hnamed)

namespace Board.Tracks

/-- Later, with the same store. -/
theorem congr (henv : env.Ticking) (h : b.Tracks env cardId s) (hstore : b'.store = b.store)
    (hticks : b.ticks ≤ b'.ticks) : b'.Tracks env cardId s := by
  refine ⟨?_, h.id, h.voided⟩
  rw [hstore]
  exact h.folds.mono (henv.now.monotone hticks)

theorem hasTransition_of_fresh (h : b.Tracks env cardId s)
    (hfresh : FreshTransition b.store cardId tid) :
    b.store.hasTransition env.env cardId tid = .ok false :=
  SkCoord.hasTransition_of_fresh h.folds.dated hfresh

end Board.Tracks

/-- What a card of a settled board folds to. -/
theorem Board.Settled.foldsTo (hb : b.Settled env T) {c : Card}
    (hfold : b.store.fold env.env cardId = .ok (some c)) :
    ∃ s, b.store.FoldsTo env.env cardId (env.now b.ticks) s ∧ s.card = c := by
  obtain ⟨core, _, _, hcore, -⟩ := Store.fold_eq_some.mp hfold
  obtain ⟨x, hvalid, -⟩ := bind_eq_ok.mp hcore
  obtain rfl := validate_eq hvalid
  exact (hb.dated _ hvalid).foldsTo hfold

/-! ### The next event -/

/-- One turn of the loop on a card that is not voided. -/
theorem FoldState.step_eq {e : Event} {act : String} {c : Card} (hvoided : s.voided = false)
    (hact : e.get "action" = .str act) (hne : Action.ofString act ≠ .void)
    (hc : FoldState.foldAction cardId s.card e (Action.ofString act) = .ok c) :
    FoldState.step cardId s e = .ok { card := touch c e, voided := false } := by
  have haction : e.action = Action.ofString act := action_of_str hact
  unfold FoldState.step FoldState.lookupTerminal
  rw [hvoided, haction, Bool.false_and, if_neg Bool.false_ne_true, if_neg Bool.false_ne_true]
  refine bind_eq_ok.mpr ⟨(), rfl, bind_eq_ok.mpr ⟨c, hc, ?_⟩⟩
  rw [Bool.false_or, beq_eq_false_iff_ne.mpr hne]
  rfl

/-- The event as the fold sees it: its action and the fields of its payload. -/
structure Event.Carries (e : Event) (action : String) (payload : Dict) : Prop where
  action : e.get "action" = .str action
  field : ∀ {k v}, Assoc.get? payload k = some v → e.get k = v

/-- What the append of an event leaves, whatever the fold makes of it. -/
structure Board.Writes (env : BoardEnv) (b b' : Board) (cardId tid : String) (s : FoldState)
    (e : Event) : Prop where
  beside : b.Beside b' cardId
  durable : b'.store.hasTransition env.env cardId tid = .ok true
  faults : b'.faults = b.faults
  folds : ∀ t, FoldState.step cardId s e = .ok t →
    b'.store.FoldsTo env.env cardId (env.now b'.ticks) t
  raises : ∀ err, FoldState.step cardId s e = .error err →
    b'.store.fold env.env cardId = .error err
  /-- A transition that no line named is named by the new line alone. -/
  fresh : ∀ other, other ≠ tid → FreshTransition b.store cardId other →
    FreshTransition b'.store cardId other

/-- **The next event** of a card, with a transition that no line of the card names, is written. -/
theorem run_append_written (agent : String) (henv : env.Ticking)
    (h : b.store.FoldsTo env.env cardId (env.now b.ticks) s) (hid : s.card.id = cardId)
    (hvoid : Store.requireNotVoided env.env b.store cardId action = .ok ())
    (hnorm : Store.normalisePayload env.env action payload = .ok payload')
    (hp : TransitionPayload payload' tid) (hne : tid ≠ "")
    (hfresh : FreshTransition b.store cardId tid) :
    ∃ b' e, (appendCardEvent env cardId action agent payload).run b = (.ok (), b') ∧
      e.Carries action payload' ∧ b.Writes env b' cardId tid s e := by
  have hplain : Store.PlainPayload payload' := ⟨hp.nodup, hp.stamps⟩
  set file := Store.writerFile env.env agent with hfile
  set lines := b.store.logLines cardId file with hlines
  set e := Store.newEvent env.env lines action agent payload'
    ⟨env.uuid b.ticks, env.now (b.ticks + 1)⟩ with he
  have hreplay : Store.replayedEvent lines payload' = .ok none :=
    replayedEvent_of_fresh (fun line hline => ((h.dated.logLines _).2 line hline).imp
      fun _ he => he.choose_spec.1) hp.transition hne hfresh
  -- no line names the transition, so nothing is replayed
  have happ := @Store.FoldsTo.appendEvent_passes env.env b.store cardId action agent payload
    ⟨env.uuid b.ticks, env.now (b.ticks + 1)⟩ _ s _ h hid hnorm hreplay hvoid
  have hlater := (henv.now.monotone b.ticks.le_succ : env.now b.ticks ≤ env.now (b.ticks + 1))
  have hnext : env.now (b.ticks + 1) < env.now (b.ticks + 2) := henv.now (Nat.lt_succ_self _)
  refine ⟨_, e, run_appendCardEvent_of_ok happ, ⟨hplain.get_action, hplain.get_field⟩, ?_, ?_, rfl,
    fun t hstep => h.append (Store.endsWith_writerFile env.env agent) hplain.stamped hlater hnext
      hplain.get_prevHash hstep, fun err hstep => ?_, fun other hother hold => ?_⟩
  · exact ⟨fun other hother => Store.dir_appendLine_of_ne hother, rfl, rfl, Nat.le_add_right _ 2⟩
  · -- the new line can be read back
    have hdated : (b.store.appendLine cardId file (.value (.obj e))).Dated env.env cardId
        (env.now (b.ticks + 2)) :=
      h.dated.appendLine hplain.stamped (hlater.trans hnext.le) hnext hplain.get_prevHash
    obtain ⟨events, hevents, -⟩ := hdated.readEvents
    have hlogs : (file, lines ++ [.value (.obj e)]) ∈
        ((b.store.appendLine cardId file (.value (.obj e))).dir cardId).logs := by
      rw [Store.dir_appendLine_self]
      exact Assoc.mem_of_get? (Assoc.get?_set_self _ _ _)
    have hmem : e ∈ events := (Store.mem_readEvents_iff hevents).mpr
      (Store.mem_logEvents hlogs (Store.endsWith_writerFile env.env agent) (by simp))
    refine bind_eq_ok.mpr ⟨events, hevents, ?_⟩
    rw [pure_eq_ok]
    refine List.any_eq_true.mpr ⟨e, hmem, ?_⟩
    rw [hplain.get_field hp.transition]
    exact Json.pyEq_refl _
  · exact h.append_error (Store.endsWith_writerFile env.env agent) hplain.stamped hlater hnext
      hplain.get_prevHash hstep
  · exact hold.appendLine fun hnamed =>
      hother (Json.str.inj (hnamed.symm.trans (hplain.get_field hp.transition)))

/-! ### Mirror calls that fail -/

section

variable {x : Effect Board Unit} {f : WriteFault} {faults : List (Option WriteFault)}
  (hwrite : env.env.writeEnabled = true)

include hwrite

/-- A mirror call that nothing befalls. -/
theorem run_mirror_passed (hfaults : b.faults = none :: faults) :
    (mirrorCardStore env x).run b = x.run { b with faults } := by
  unfold mirrorCardStore
  rw [if_pos hwrite, run_writing_eq, hfaults]

/-- A mirror call that raises instead of its write. -/
theorem run_mirror_lost (hfaults : b.faults = some f :: faults) (hf : f.took = false) :
    (mirrorCardStore env x).run b = (.error f.error, { b with faults }) := by
  unfold mirrorCardStore
  rw [if_pos hwrite, run_writing_eq, hfaults]
  dsimp only
  rw [hf]
  rfl

/-- A mirror call that raises behind its write. -/
theorem run_mirror_took (hfaults : b.faults = some f :: faults) (hf : f.took = true)
    (hx : x.run { b with faults } = (.ok (), b')) :
    (mirrorCardStore env x).run b = (.error f.error, b') := by
  unfold mirrorCardStore
  rw [if_pos hwrite, run_writing_eq, hfaults]
  dsimp only
  rw [hf, if_pos rfl, run_bind_of_ok hx]
  rfl

/-- A mirror call whose write is refused. -/
theorem run_mirror_refused {e : PyError} (hfaults : b.faults = some f :: faults)
    (hf : f.took = true) (hx : x.run { b with faults } = (.error e, b')) :
    (mirrorCardStore env x).run b = (.error e, b') := by
  unfold mirrorCardStore
  rw [if_pos hwrite, run_writing_eq, hfaults]
  dsimp only
  rw [hf, if_pos rfl, run_bind_of_error hx]

end

end SkCoord
