import SkCoord.Coordination.Equiv.InStep
import SkCoord.Coordination.Equiv.Settled

/-!
# What a completion leaves

`complete_task` returns early where some agent file lists the task as completed, without a look at
the card.  `completeTask_reaches_iff`: on a reachable board a completion that returns leaves the
card in `done` without an owner exactly if no agent file lists the task, or the card was there
before.  `reopenedBoard_not_completed` is a task that was completed, moved back and completed again.
-/

namespace SkCoord

open Python Effect

variable {env : BoardEnv} {b b' : Board} {T : List String} {cardId agent taskId tid : String}
  {payload : Dict}

/-- The card of the task folds in `done` without an owner. -/
def IsCompleted (env : BoardEnv) (b : Board) (taskId : String) : Prop :=
  ∃ c, b.store.fold env.env taskId = .ok (some c) ∧ c.owner = .null ∧ c.status = .done

/-! ### The event -/

/-- A completion of a card that is not voided. -/
theorem FoldState.step_done {s : FoldState} {e : Event} (hvoided : s.voided = false)
    (hact : e.get "action" = .str "complete") :
    ∃ s', FoldState.step cardId s e = .ok s' ∧ s'.card.owner = .null ∧ s'.card.status = .done := by
  have haction : e.action = .complete := FoldState.action_of_str hact
  refine ⟨{ card := touch s.card.foldComplete e, voided := false }, ?_, rfl, rfl⟩
  unfold FoldState.step FoldState.lookupTerminal
  rw [hvoided, haction]
  rfl

/-- An append with a transition that no line of the card names writes its event. -/
theorem appendEvent_fresh {st st' : Store} {ts action : String} {stamp : Stamp} {e : Event}
    (hdated : st.Dated env.env cardId ts) (hact : action ≠ "release_claim")
    (htid : Assoc.get? payload "transition_id" = some (.str tid)) (hne : tid ≠ "")
    (hfresh : FreshTransition st cardId tid)
    (h : st.appendEvent env.env cardId action agent payload stamp = .ok (st', e)) :
    e = Store.newEvent env.env (st.logLines cardId (Store.writerFile env.env agent)) action agent
        payload stamp ∧
      st' = st.appendLine cardId (Store.writerFile env.env agent) (.value (.obj e)) := by
  obtain ⟨payload', hnorm, -, -, h⟩ := Store.appendEvent_eq_ok h
  cases (Store.normalisePayload_of_ne hact).symm.trans hnorm
  refine h.elim (fun ⟨hreplay, _⟩ => ?_) fun ⟨_, he, hst⟩ => ⟨he, hst⟩
  have hnone : Store.replayedEvent (st.logLines cardId (Store.writerFile env.env agent)) payload =
      .ok none :=
    replayedEvent_of_fresh (fun line hline => ((hdated.logLines _).2 line hline).imp
      fun _ he => he.choose_spec.1) htid hne hfresh
  cases hnone.symm.trans hreplay

/-- A mirrored completion that returned has completed the card. -/
theorem isCompleted_of_mirror (henv : env.Ticking) (hwrite : env.env.writeEnabled = true)
    (hb : b.Settled env T) (htid : tid ≠ "") (hfresh : FreshTransition b.store taskId tid)
    (hrun : (mirrorCardStore env (mirrorCoordComplete env taskId agent tid)).run b =
      (.ok (), b')) : IsCompleted env b' taskId := by
  unfold mirrorCardStore at hrun
  rw [if_pos hwrite] at hrun
  obtain ⟨faults, hrun⟩ := run_writing_eq_ok hrun
  unfold mirrorCoordComplete at hrun
  rw [orUuid_of_ne htid] at hrun
  cases happ : b.store.appendEvent env.env taskId "complete" agent
      [("transition_id", .str tid)] ⟨env.uuid b.ticks, env.now (b.ticks + 1)⟩ with
  | error err =>
    have hraise := run_appendCardEvent_of_error (b := { b with faults }) happ
    cases hrun.symm.trans hraise
  | ok r =>
    obtain ⟨st, e⟩ := r
    have hret := run_appendCardEvent_of_ok (b := { b with faults }) happ
    cases hrun.symm.trans hret
    -- the append returned, so the card folds and is not voided
    obtain ⟨-, -, hfoldable, hvoid, -⟩ := Store.appendEvent_eq_ok happ
    obtain ⟨found, hfold, hfoldable⟩ := bind_eq_ok.mp hfoldable
    cases found with
    | none => cases hfoldable
    | some c =>
      obtain ⟨_, _, _, hcore, -⟩ := Store.fold_eq_some.mp hfold
      obtain ⟨x, hvalid, -⟩ := bind_eq_ok.mp hcore
      obtain rfl := validate_eq hvalid
      have hdated := hb.dated _ hvalid
      obtain ⟨he, hst⟩ := appendEvent_fresh hdated (by decide) rfl htid hfresh happ
      have hp : Store.PlainPayload [("transition_id", Json.str tid)] :=
        (SpentPayload.of_keys (T := [tid]) ["transition_id"] rfl (by decide) (by decide) rfl
          (List.mem_singleton_self tid)).plain
      obtain ⟨s, hs, -⟩ := hdated.foldsTo hfold
      obtain ⟨events, hevents, hnone⟩ := Store.readEvents_of_requireNotVoided hvoid (by decide)
      -- the event is new and later than all others, so the fold goes this step last
      obtain ⟨s', hstep, howner, hstatus⟩ := FoldState.step_done (e := e)
        (hs.not_voided hevents hnone) (he ▸ hp.get_action)
      have hs' := hs.append (Store.endsWith_writerFile _ _) (he ▸ hp.stamped)
        (henv.now.monotone (Nat.le_succ _)) (henv.now (Nat.lt_succ_self _)) (he ▸ hp.get_prevHash)
        hstep
      refine ⟨s'.card, ?_, howner, hstatus⟩
      exact hst ▸ hs'.fold

/-- What the handler of a completion takes for applied is a completed card. -/
theorem isCompleted_of_applied {transitions : List (String × String)}
    (h : b.store.transitionsAreApplied env.env transitions [(taskId, none, .done)] = .ok true) :
    IsCompleted env b taskId := by
  obtain ⟨durable, -, h⟩ := bind_eq_ok.mp h
  split at h
  · obtain ⟨card, hfold, h⟩ := bind_eq_ok.mp h
    cases card with
    | none => cases h
    | some c =>
      dsimp only at h
      split at h
      · rename_i hc
        obtain ⟨howner, hstatus⟩ := Bool.and_eq_true_iff.mp hc
        exact ⟨c, hfold, (Json.pyEq_null_right_iff _).mp howner, beq_iff_eq.mp hstatus⟩
      · cases h
  · cases h

/-! ### The call -/

/-- The mirror of a completion, with its handler. -/
theorem isCompleted_of_return (henv : env.Ticking) (hwrite : env.env.writeEnabled = true)
    (hb : b.Settled env T) (htid : tid ≠ "") (hfresh : FreshTransition b.store taskId tid)
    {original : Option AgentFile}
    (hrun : (Effect.tryExcept (mirrorCardStore env (mirrorCoordComplete env taskId agent tid))
      fun e => do
        let b ← Effect.get
        let applied ← Effect.lift (b.store.transitionsAreApplied env.env [(taskId, tid)]
          [(taskId, none, .done)])
        if applied then pure ()
        else do
          recoverStoreFailure env "complete" taskId agent agent original e [(taskId, tid)]
          Effect.raise e).run b = (.ok (), b')) : IsCompleted env b' taskId := by
  cases hmirror : (mirrorCardStore env (mirrorCoordComplete env taskId agent tid)).run b with
  | mk r b₁ =>
    cases r with
    | ok u =>
      rw [run_tryExcept_of_ok hmirror] at hrun
      cases hrun
      exact isCompleted_of_mirror henv hwrite hb htid hfresh hmirror
    | error e =>
      by_cases he : e = .killed
      · subst he
        rw [run_tryExcept_of_killed hmirror] at hrun
        cases hrun
      · rw [run_tryExcept_of_error hmirror he, run_get_bind] at hrun
        obtain ⟨applied, happlied, hrun⟩ := run_lift_bind_eq_ok.mp hrun
        cases applied with
        | true =>
          cases hrun
          exact isCompleted_of_applied happlied
        | false =>
          obtain ⟨_, _, -, hrun⟩ := run_bind_eq_ok.mp hrun
          cases hrun

/-- **A completion that returns** leaves its task completed exactly if no agent file lists it as
completed, or the card was in `done` without an owner before the call. -/
theorem completeTask_reaches_iff (henv : env.Ticking) (hwrite : env.env.writeEnabled = true)
    (hb : b.Reachable env) {precondition : Except PyError Unit} {a : AgentFile}
    (hrun : (completeTask env agent taskId precondition).run b = (.ok a, b')) :
    IsCompleted env b' taskId ↔
      (∀ a ∈ b.loadAgents env, taskId ∉ a.completedTasks) ∨ IsCompleted env b taskId := by
  unfold completeTask at hrun
  obtain ⟨canonical, -, hrun⟩ := run_lift_bind_eq_ok.mp hrun
  obtain ⟨_, -, hrun⟩ := run_lift_bind_eq_ok.mp hrun
  rw [run_get_bind] at hrun
  obtain ⟨_, -, hrun⟩ := run_lift_bind_eq_ok.mp hrun
  obtain ⟨_, -, hrun⟩ := run_lift_bind_eq_ok.mp hrun
  cases hfind : (b.loadAgents env).find? fun a => a.completedTasks.contains taskId with
  | some existing =>
    -- the early return: nothing is written
    have hmem : taskId ∈ existing.completedTasks := by
      simpa using List.find?_some (p := fun a : AgentFile => a.completedTasks.contains taskId) hfind
    have hlists : ¬ ∀ a ∈ b.loadAgents env, taskId ∉ a.completedTasks := fun h =>
      h existing (List.mem_of_find?_eq_some hfind) hmem
    rw [hfind] at hrun
    cases hrun
    exact ⟨.inr, fun h => h.resolve_left hlists⟩
  | none =>
    rw [hfind] at hrun
    have hunlisted : ∀ a ∈ b.loadAgents env, taskId ∉ a.completedTasks := fun a ha hmem =>
      List.find?_eq_none.mp hfind a ha (List.contains_iff_mem.mpr hmem)
    refine ⟨fun _ => .inl hunlisted, fun _ => ?_⟩
    obtain ⟨incomplete, -, hrun⟩ := run_lift_bind_eq_ok.mp hrun
    split at hrun
    · cases hrun
    · obtain ⟨_, -, hrun⟩ := run_lift_bind_eq_ok.mp hrun
      obtain ⟨saved, b₁, hsave, hrun⟩ := run_bind_eq_ok.mp hrun
      rw [run_bind_of_ok run_drawUuid] at hrun
      obtain ⟨⟨⟩, b₂, hmirror, hrun⟩ := run_bind_eq_ok.mp hrun
      cases hrun
      have hsettled : b₁.Settled env [] :=
        (keeps_completeInProjection henv).of_run (hb.settled henv) hsave
      -- the identifier is drawn now, so no line names it
      have hfresh : FreshTransition b₁.store taskId (env.uuid b₁.ticks) :=
        hsettled.fresh taskId _ le_rfl
      exact isCompleted_of_return henv hwrite (hsettled.drawn henv) (henv.uuid_ne _) hfresh hmirror

/-- A task that was created and claimed. -/
def claimedBoard : Board :=
  BoardCall.run unaryEnv (BoardCall.run unaryEnv {} (.createTask { id := "t1", title := "one" }))
    (.claimTask "alice" "t1")

theorem claimedBoard_reachable : claimedBoard.Reachable unaryEnv :=
  .call _ _ (.call _ _ (.start {} (fun _ => rfl) rfl))

/-- The first completion. -/
theorem completeTask_reaches_claimed : ∃ a b',
    (completeTask unaryEnv "alice" "t1" (.ok ())).run claimedBoard = (.ok a, b') ∧
      IsCompleted unaryEnv b' "t1" := by
  have hreturns : ((completeTask unaryEnv "alice" "t1" (.ok ())).run claimedBoard).1.isOk =
    true := rfl
  obtain ⟨a, ha⟩ := isOk_iff.mp hreturns
  have hrun : (completeTask unaryEnv "alice" "t1" (.ok ())).run claimedBoard =
      (.ok a, ((completeTask unaryEnv "alice" "t1" (.ok ())).run claimedBoard).2) :=
    Prod.ext ha rfl
  exact ⟨a, _, hrun, (completeTask_reaches_iff unaryEnv_ticking rfl claimedBoard_reachable hrun).mpr
    (.inl (by decide))⟩

/-- The task was completed and then moved back. -/
def reopenedBoard : Board :=
  ((appendCardEvent unaryEnv "t1" "move" "alice" [("column", .str "ready"), ("order", .null)]).run
    (BoardCall.run unaryEnv claimedBoard (.completeTask "alice" "t1" (.ok ())))).2

theorem reopenedBoard_reachable : reopenedBoard.Reachable unaryEnv :=
  .append _ "t1" "move" "alice" _ ⟨by decide, by decide⟩ (fun _ _ => nofun)
    (.call _ _ claimedBoard_reachable)

/-- The second completion finds the first in the agent file and returns. -/
theorem reopenedBoard_not_completed : unaryEnv.Ticking ∧ unaryEnv.env.writeEnabled = true ∧
    reopenedBoard.Reachable unaryEnv ∧ ∃ a b',
      (completeTask unaryEnv "alice" "t1" (.ok ())).run reopenedBoard = (.ok a, b') ∧
        ¬ IsCompleted unaryEnv b' "t1" := by
  have hreturns : ((completeTask unaryEnv "alice" "t1" (.ok ())).run reopenedBoard).1.isOk =
    true := rfl
  obtain ⟨a, ha⟩ := isOk_iff.mp hreturns
  refine ⟨unaryEnv_ticking, rfl, reopenedBoard_reachable, a, _, Prod.ext ha rfl, ?_⟩
  rintro ⟨c, hfold, -, hstatus⟩
  have hready : ((((completeTask unaryEnv "alice" "t1" (.ok ())).run reopenedBoard).2.store.fold
      unaryEnv.env "t1").toOption.bind (Option.map Card.status)) = some .ready := rfl
  rw [hfold] at hready
  exact nomatch hstatus.symm.trans (Option.some.inj hready)

end SkCoord
