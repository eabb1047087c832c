import SkCoord.Coordination.Equiv.Mirror
import SkCoord.Coordination.Equiv.Views

/-!
# Claims and completions keep the boards in step

`Board.ShowsAt env lives`: the store, the agent files and the task files of a board all show the same
lives.  A claim or a completion that runs on such a board leaves one, whether it returns or raises
(`ends_claimTask`, `ends_completeTask`).
-/

namespace SkCoord

open Python Effect

/-- Both boards show these lives. -/
structure Board.ShowsAt (env : BoardEnv) (b : Board) (lives : Lives) : Prop where
  faults : b.faults = []
  store : StoreAt env b.ticks b.store lives
  agents : AgentsAt env b.agents lives
  tasks : TasksAt env b.tasks lives

/-- Both boards show the same lives. -/
def Board.Coupled (env : BoardEnv) (b : Board) : Prop := ∃ lives, b.ShowsAt env lives

variable {env : BoardEnv} {b : Board} {lives : Lives} {name t : String} {life : Life}

/-! ### Steps of a call -/

/-- The clock may run on. -/
theorem Board.ShowsAt.ticks (h : b.ShowsAt env lives) {n : ℕ} (hn : b.ticks ≤ n) :
    ({ b with ticks := n } : Board).ShowsAt env lives :=
  ⟨h.faults, h.store.mono hn, h.agents, h.tasks⟩

theorem Board.ShowsAt.views (h : b.ShowsAt env lives) (includeArchived : Bool) :
    ∃ views, getTaskViews env b includeArchived = .ok views ∧ ViewsAt env b.store lives views := by
  obtain ⟨views, hviews, hat⟩ := getTaskViews_at h.store h.agents h.tasks (fun _ => id)
    includeArchived
  exact ⟨views, hviews, hat.elim id id⟩

theorem run_saveAgent {a : AgentFile} (hvalid : validateAgentName a.agent = .ok name) :
    (saveAgent env a).run b =
      (.ok { a with lastSeen := env.now b.ticks },
        { b with
          ticks := b.ticks + 1
          agents := Assoc.set b.agents name { a with lastSeen := env.now b.ticks } }) := by
  unfold saveAgent
  rw [run_bind_of_ok run_drawNow, run_lift_bind, hvalid]
  rfl

/-- The file of an agent, as a call finds it. -/
def fileOf (b : Board) (name : String) : AgentFile := (Assoc.get? b.agents name).getD (.new name)

/-- The board behind the claim in the agent file. -/
def Board.claimed (env : BoardEnv) (b : Board) (name t : String) (drop : Bool) : Board :=
  { b with
    ticks := b.ticks + 1
    agents := Assoc.set b.agents name
      { (fileOf b name).claim t drop with lastSeen := env.now b.ticks } }

/-- A claim of a task that passes the gates. -/
theorem run_claimInProjection (hagents : AgentsAt env b.agents lives)
    (hvalid : validateAgentName name = .ok name) (hlisted : ListsAgent env name) {drop : Bool}
    (hgates : requireClaimable env b name t = .ok ()) :
    (claimInProjection env name t drop).run b =
      (.ok ({ (fileOf b name).claim t drop with lastSeen := env.now b.ticks },
        (fileOf b name).bumped t), b.claimed env name t drop) := by
  have hagent : ((fileOf b name).claim t drop).agent = name :=
    (hagents.agentAt hvalid hlisted).agent
  unfold claimInProjection
  rw [run_get_bind, run_lift_bind, hgates]
  dsimp only
  rw [run_lift_bind, hagents.loadAgent hvalid]
  dsimp only
  exact run_bind_of_ok (run_saveAgent (hagent.symm ▸ hvalid))

/-- A claim that does not pass the gates writes nothing. -/
theorem run_claimInProjection_of_error {drop : Bool} {e : PyError}
    (hgates : requireClaimable env b name t = .error e) :
    (claimInProjection env name t drop).run b = (.error e, b) := by
  unfold claimInProjection
  rw [run_get_bind, run_lift_bind, hgates]

/-- The current task of an agent is one that it holds. -/
theorem Board.ShowsAt.current (h : b.ShowsAt env lives) {x : String}
    (hcur : (fileOf b name).currentTask = some x) :
    ∃ revision c, lives x = some (.held name revision) ∧
      b.store.fold env.env x = .ok (some c) ∧ c.Shows (.held name revision) := by
  unfold fileOf at hcur
  cases hget : Assoc.get? b.agents name with
  | none => rw [hget] at hcur; cases hcur
  | some a =>
    rw [hget] at hcur
    have hfile := h.agents.file hget
    obtain ⟨revision, hheld⟩ := hfile.claimed x (hfile.current x hcur)
    obtain ⟨c, hc, -, hshows⟩ := h.store.fold hheld
    exact ⟨revision, c, hheld, hc, hshows⟩

/-- A card that folds shows its life. -/
theorem Board.ShowsAt.shows_of_fold (h : b.ShowsAt env lives) {c : Card}
    (hfold : b.store.fold env.env t = .ok (some c)) : ∃ life, lives t = some life ∧ c.Shows life := by
  cases hlife : lives t with
  | none => exact (h.store.fold_of_none hlife hfold).elim
  | some life =>
    obtain ⟨c', hfold', -, hshows⟩ := h.store.fold hlife
    cases hfold'.symm.trans hfold
    exact ⟨life, rfl, hshows⟩

theorem isOwnedIn_of_shows {c : Card} {revision : String} {columns : List Column}
    (h : c.Shows (.held name revision)) :
    isOwnedIn (some c) name columns = columns.contains c.status := by
  unfold isOwnedIn
  rw [Option.any_some, h.1, Json.pyEq_refl, Bool.true_and]

/-- A card that this agent holds is owned by it in `ready`, `doing` or `review`. -/
theorem isOwnedIn_active {c : Card} {revision : String} (h : c.Shows (.held name revision)) :
    isOwnedIn (some c) name [.ready, .doing, .review] = true := by
  rw [isOwnedIn_of_shows h]
  rcases h.2.1 with hs | hs <;> rw [hs] <;> rfl

theorem hasLiveClaim_of_shows {c : Card} {revision : String} (h : c.Shows (.held name revision))
    (hc : isOwnedIn (some c) name [.doing, .review] = true) : hasLiveClaim (some c) name = true := by
  unfold hasLiveClaim
  rw [hc, Option.any_some, Dict.get, h.2.2.1, Option.getD_some, Bool.true_and]
  exact (Json.isNonEmptyStr_iff _).mpr ⟨revision, rfl, h.2.2.2.2⟩

/-- A live claim shows in the lives. -/
theorem held_of_shows {c : Card} (h : c.Shows life) (howner : c.owner.pyEq (.str name) = true) :
    ∃ revision, life = .held name revision := by
  have howner := (Json.pyEq_str_right_iff _ _).mp howner
  cases life with
  | free => exact nomatch h.1.symm.trans howner
  | held owner revision =>
    obtain rfl : owner = name := Json.str.inj (h.1.symm.trans howner)
    exact ⟨revision, rfl⟩
  | done => exact nomatch h.1.symm.trans howner

theorem FreshTransition.congr {st st' : Store} {cardId tid : String}
    (h : FreshTransition st cardId tid) (hdir : st'.dir cardId = st.dir cardId) :
    FreshTransition st' cardId tid := by
  unfold FreshTransition
  rw [hdir]
  exact h

/-- The files behind a claim, with the claim that the store is to show. -/
theorem agentsAt_claimed (h : AgentsAt env b.agents lives)
    (hvalid : validateAgentName name = .ok name) (hlisted : ListsAgent env name)
    (hopen : OpenAt lives t name) {drop : Bool}
    (hdrop : (fileOf b name).currentTask.isSome = true → drop = false) (revision : String) :
    AgentsAt env (b.claimed env name t drop).agents
      (Function.update lives t (some (.held name revision))) := by
  refine agentsAt_claim h hvalid hlisted hopen drop (fun hb => hdrop ?_) revision _
  obtain ⟨x, hx⟩ := Option.isSome_iff_exists.mp hb
  exact Option.isSome_iff_exists.mpr ⟨x, (Option.filter_eq_some_iff.mp hx).1⟩

/-- Updating the life of a task that there is keeps the tasks. -/
theorem TasksAt.update {tasks : Assoc String Task} (h : TasksAt env tasks lives)
    (hsome : (lives t).isSome = true) (life : Life) :
    TasksAt env tasks (Function.update lives t (some life)) := by
  refine h.congr fun x => ?_
  by_cases hx : x = t
  · rw [hx, Function.update_self, hsome]
    rfl
  · rw [Function.update_of_ne hx]

/-- The board behind a claim of a task that the agent holds already. -/
theorem Board.ShowsAt.claimed (h : b.ShowsAt env lives)
    (hvalid : validateAgentName name = .ok name) (hlisted : ListsAgent env name)
    {revision : String} (hheld : lives t = some (.held name revision))
    {drop : Bool} (hdrop : (fileOf b name).currentTask.isSome = true → drop = false) :
    (b.claimed env name t drop).ShowsAt env lives := by
  have hopen : OpenAt lives t name := by
    intro life hlife
    rw [hheld] at hlife
    cases hlife
    rfl
  have hagents := agentsAt_claimed h.agents hvalid hlisted hopen hdrop revision
  rw [Function.update_eq_self_iff.mpr hheld.symm] at hagents
  exact ⟨h.faults, h.store.mono b.ticks.le_succ, hagents, h.tasks⟩

/-- The demotion of a task that the agent holds. -/
theorem run_mirrorDemote_held (henv : env.Ticking) (hwrite : env.env.writeEnabled = true)
    (h : b.ShowsAt env lives) {x revision : String}
    (hheld : lives x = some (.held name revision)) {n k : ℕ}
    (hstore : StoreAt env n b.store lives) (hn : n ≤ k) (hk : k < b.ticks) :
    ∃ b', (mirrorDemote env x name (env.uuid k)).run b = (.ok (), b') ∧ b'.ShowsAt env lives := by
  obtain ⟨st, hrun, hgoes⟩ := @run_mirrorDemote env n k b lives x name revision name henv hwrite
    h.faults hstore (hn.trans hk.le) hk ((hstore.card hheld).freshTransition hn) hheld
  have hst := hgoes.store
  rw [Function.update_eq_self_iff.mpr hheld.symm] at hst
  exact ⟨_, hrun, h.faults, hst, h.agents, h.tasks⟩

/-! ### Claiming -/

section

variable (henv : env.Ticking) (hwrite : env.env.writeEnabled = true) (h : b.ShowsAt env lives)
  (hvalid : validateAgentName name = .ok name) (hlisted : ListsAgent env name)

include henv hwrite h hvalid hlisted

/-- The mirror of a claim and, where the claim bumps a task, of its demotion. -/
theorem run_mirrorClaimed (hopen : OpenAt lives t name) (hsome : (lives t).isSome = true)
    {drop : Bool} (hdrop : (fileOf b name).currentTask.isSome = true → drop = false)
    {demoted : Option (String × String)} {n k : ℕ} (hn : b.ticks < n) (hk : b.ticks ≤ k)
    (hkn : k < n)
    (hdemoted : ∀ x tid, demoted = some (x, tid) → x ≠ t ∧ (∃ r, lives x = some (.held name r)) ∧
      ∃ j, b.ticks ≤ j ∧ j < n ∧ tid = env.uuid j) {revision : String} (hr : revision ≠ "")
    {α : Type} (a : α) :
    ∃ b', (do
        mirrorCardStore env (mirrorCoordClaim env t name (env.uuid k) revision)
        mirrorDemoted env name demoted
        pure a : Effect Board α).run { b.claimed env name t drop with ticks := n } =
          (.ok a, b') ∧ b'.ShowsAt env (Function.update lives t (some (.held name revision))) := by
  obtain ⟨life, hlife⟩ := Option.isSome_iff_exists.mp hsome
  set b₁ : Board := { b.claimed env name t drop with ticks := n } with hb₁
  obtain ⟨st, hrun, hgoes⟩ := @run_mirrorClaim env b.ticks k b₁ lives t name revision life henv
    hwrite h.faults h.store hn.le hkn ((h.store.card hlife).freshTransition hk) hlife
    (hopen life hlife) (ne_empty_of_validateAgentName hvalid) hr
  have hagents := agentsAt_claimed h.agents hvalid hlisted hopen hdrop revision
  have htasks := h.tasks.update hsome (.held name revision)
  rw [run_bind_of_ok hrun]
  cases demoted with
  | none => exact ⟨_, rfl, h.faults, hgoes.store, hagents, htasks⟩
  | some p =>
    obtain ⟨x, tid⟩ := p
    obtain ⟨hx, ⟨r, hheld⟩, j, hj, hjn, rfl⟩ := hdemoted x tid rfl
    have hfresh : FreshTransition (b₁.appended st).store x (env.uuid j) :=
      ((h.store.card hheld).freshTransition hj).congr (hgoes.dir x hx)
    have hheld' : Function.update lives t (some (.held name revision)) x = some (.held name r) := by
      rw [Function.update_of_ne hx, hheld]
    obtain ⟨st', hrun', hgoes'⟩ := @run_mirrorDemote env (n + 2) j (b₁.appended st) _ x name r name
      henv hwrite h.faults hgoes.store le_rfl (Nat.lt_add_right 2 hjn) hfresh hheld'
    have hlives : Function.update (Function.update lives t (some (.held name revision))) x
        (some (.held name r)) = Function.update lives t (some (.held name revision)) :=
      Function.update_eq_self_iff.mpr hheld'.symm
    have hstore := hgoes'.store
    rw [hlives] at hstore
    rw [mirrorDemoted, run_bind_of_ok hrun']
    exact ⟨_, rfl, h.faults, hstore, hagents, htasks⟩

theorem ends_claimFresh {snapshot : Option Card}
    (hsnapshot : b.store.fold env.env t = .ok snapshot)
    (hlive : hasLiveClaim snapshot name = false) (original : Option AgentFile) :
    Ends (Board.Coupled env)
      (claimFresh env name t (Assoc.get? b.agents name) original snapshot) b := by
  have hcur : (Assoc.get? b.agents name).bind (·.currentTask) = (fileOf b name).currentTask := by
    unfold fileOf
    cases Assoc.get? b.agents name <;> rfl
  unfold claimFresh
  refine .get_bind (.lift_bind ⟨lives, h⟩ fun card hcard => ?_)
  rw [if_pos hwrite, hcur] at hcard
  dsimp only
  rw [hcur, hwrite, Bool.true_and, Bool.not_true, Bool.false_or]
  -- what the agent works on is a card that it holds
  have howned : (fileOf b name).currentTask.isSome = true →
      isOwnedIn card name [.ready, .doing, .review] = true := by
    intro hsome
    obtain ⟨x, hx⟩ := Option.isSome_iff_exists.mp hsome
    obtain ⟨r, c, -, hfold, hshows⟩ := h.current hx
    rw [hx, foldBumped, hfold] at hcard
    cases hcard
    exact isOwnedIn_active hshows
  have hdrop : (fileOf b name).currentTask.isSome = true →
      ((fileOf b name).currentTask.isSome && !isOwnedIn card name [.ready, .doing, .review]) =
        false := by
    intro hsome
    rw [howned hsome, Bool.not_true, Bool.and_false]
  generalize ((fileOf b name).currentTask.isSome &&
    !isOwnedIn card name [.ready, .doing, .review]) = drop at hdrop ⊢
  obtain ⟨views, hviews, hat⟩ := h.views false
  cases hgates : requireClaimable env b name t with
  | error e => exact .bind_of_error (run_claimInProjection_of_error hgates) ⟨lives, h⟩
  | ok _ =>
    obtain ⟨hsome, hopen⟩ := openAt_of_requireClaimable hviews hat hgates
    refine .bind_of_ok (run_claimInProjection h.agents hvalid hlisted hgates) ?_
    refine .bind_of_ok run_drawUuid (.bind_of_ok run_drawUuid ?_)
    have hrevision : env.uuid (b.ticks + 1 + 1) ≠ "" := henv.uuid_ne _
    cases hdemote : ((fileOf b name).currentTask.isSome &&
        isOwnedIn card name [.doing, .review]) with
    | false =>
      refine .bind_of_ok rfl ?_
      obtain ⟨b', hrun, hb'⟩ := @run_mirrorClaimed env b lives name t henv hwrite h hvalid hlisted
        hopen hsome drop hdrop none (b.ticks + 3) (b.ticks + 1) (by omega) (by omega) (by omega)
        nofun _ hrevision _ { (fileOf b name).claim t drop with lastSeen := env.now b.ticks }
      exact .of_run (run_tryExcept_of_ok hrun) ⟨_, hb'⟩
    | true =>
      rw [Bool.and_eq_true] at hdemote
      obtain ⟨hcurrent, hactive⟩ := hdemote
      obtain ⟨x, hx⟩ := Option.isSome_iff_exists.mp hcurrent
      obtain ⟨r, c, hheld, hfold, hshows⟩ := h.current hx
      rw [hx, foldBumped, hfold] at hcard
      cases hcard
      -- the card that is demoted is another one: the target is not in `doing`
      have hne : x ≠ t := by
        rintro rfl
        rw [hfold] at hsnapshot
        cases hsnapshot
        rw [hasLiveClaim_of_shows hshows hactive] at hlive
        cases hlive
      have hbumped : (fileOf b name).bumped t = some x := by
        unfold AgentFile.bumped
        rw [hx, Option.filter_some, if_pos (decide_eq_true hne)]
      refine .bind_of_ok rfl ?_
      obtain ⟨b', hrun, hb'⟩ := @run_mirrorClaimed env b lives name t henv hwrite h hvalid hlisted
        hopen hsome drop hdrop (some (x, env.uuid (b.ticks + 3))) (b.ticks + 4) (b.ticks + 1)
        (by omega) (by omega) (by omega) (fun y tid hy => by
          cases hy
          exact ⟨hne, ⟨r, hheld⟩, b.ticks + 3, by omega, by omega, rfl⟩)
        _ hrevision _ { (fileOf b name).claim t drop with lastSeen := env.now b.ticks }
      rw [hbumped]
      exact .of_run (run_tryExcept_of_ok hrun) ⟨_, hb'⟩

theorem ends_reclaimTask {revision : String} (hheld : lives t = some (.held name revision))
    (original : Option AgentFile) :
    Ends (Board.Coupled env)
      (reclaimTask env name t (Assoc.get? b.agents name) original) b := by
  have hcur : (Assoc.get? b.agents name).bind (·.currentTask) = (fileOf b name).currentTask := by
    unfold fileOf
    cases Assoc.get? b.agents name <;> rfl
  unfold reclaimTask
  refine .get_bind (.lift_bind ⟨lives, h⟩ fun card hcard => ?_)
  rw [hcur] at hcard
  have hdrop : (fileOf b name).currentTask.isSome = true →
      (!isOwnedIn card name [.ready, .doing, .review]) = false := by
    intro hsome
    obtain ⟨x, hx⟩ := Option.isSome_iff_exists.mp hsome
    obtain ⟨r, c, -, hfold, hshows⟩ := h.current hx
    rw [hx, foldBumped, hfold] at hcard
    cases hcard
    rw [isOwnedIn_active hshows]
    rfl
  generalize (!isOwnedIn card name [.ready, .doing, .review]) = drop at hdrop ⊢
  cases hgates : requireClaimable env b name t with
  | error e => exact .bind_of_error (run_claimInProjection_of_error hgates) ⟨lives, h⟩
  | ok _ =>
    have hclaimed := h.claimed hvalid hlisted hheld hdrop
    refine .bind_of_ok (run_claimInProjection h.agents hvalid hlisted hgates) ?_
    dsimp only
    cases hbumped : (fileOf b name).bumped t with
    | none => exact .pure ⟨lives, hclaimed⟩
    | some x =>
      dsimp only
      split
      · obtain ⟨r, -, hx, -⟩ := h.current (Option.filter_eq_some_iff.mp hbumped).1
        obtain ⟨b', hrun, hb'⟩ := run_mirrorDemote_held henv hwrite
          (hclaimed.ticks (Nat.le_succ (b.ticks + 1))) hx h.store (Nat.le_succ _)
          (Nat.lt_succ_self _)
        exact .bind_of_ok run_drawUuid
          (.of_run (run_tryExcept_of_ok (run_bind_pure hrun _)) ⟨lives, hb'⟩)
      · exact .pure ⟨lives, hclaimed⟩

end

/-- `claim_task`. -/
theorem ends_claimTask (henv : env.Ticking) (hwrite : env.env.writeEnabled = true)
    (h : b.ShowsAt env lives) (hlisted : ListsAgent env name) :
    Ends (Board.Coupled env) (claimTask env name t) b := by
  have hb : b.Coupled env := ⟨lives, h⟩
  unfold claimTask
  refine .lift_bind hb fun canonical hvalid => .lift_bind hb fun _ _ => .get_bind ?_
  obtain rfl := validateAgentName_eq hvalid
  refine .lift_bind hb fun _ _ => .lift_bind hb fun current hcurrent => ?_
  rw [h.agents.loadAgent hvalid] at hcurrent
  cases hcurrent
  refine .lift_bind hb fun _ _ => .lift_bind hb fun snapshot hsnapshot => ?_
  rw [if_pos hwrite] at hsnapshot
  split
  · rename_i hlive
    split
    · exact .pure hb
    · -- the live claim shows in the fold, so the agent holds the task
      cases snapshot with
      | none => cases hlive
      | some c =>
        unfold hasLiveClaim isOwnedIn at hlive
        rw [Option.any_some, Bool.and_eq_true, Bool.and_eq_true] at hlive
        obtain ⟨life, hlife, hshows⟩ := h.shows_of_fold hsnapshot
        obtain ⟨revision, rfl⟩ := held_of_shows hshows hlive.1.1
        exact ends_reclaimTask henv hwrite h hvalid hlisted hlife _
  · rename_i hlive
    exact ends_claimFresh henv hwrite h hvalid hlisted hsnapshot (Bool.eq_false_iff.mpr hlive) _

/-! ### Completing -/

/-- The board behind the completion in the agent file. -/
def Board.completed (env : BoardEnv) (b : Board) (name t : String) : Board :=
  { b with
    ticks := b.ticks + 1
    agents := Assoc.set b.agents name
      { (fileOf b name).complete t with lastSeen := env.now b.ticks } }

theorem run_completeInProjection (hagents : AgentsAt env b.agents lives)
    (hvalid : validateAgentName name = .ok name) (hlisted : ListsAgent env name) :
    (completeInProjection env name t).run b =
      (.ok { (fileOf b name).complete t with lastSeen := env.now b.ticks },
        b.completed env name t) := by
  have hagent : ((fileOf b name).complete t).agent = name := (hagents.agentAt hvalid hlisted).agent
  unfold completeInProjection
  rw [run_get_bind, run_lift_bind, hagents.loadAgent hvalid]
  exact run_saveAgent (hagent.symm ▸ hvalid)

/-- A task that passes the checks of a completion is open to the agent. -/
theorem openAt_of_completable (h : b.ShowsAt env lives)
    (hconflict : assertNoClaimConflict env b t name = .ok ())
    (hfinished : (b.loadAgents env).find? (fun a => a.completedTasks.contains t) = none)
    {incomplete : List String}
    (hdeps : incompleteCompletionDependencies env b t = .ok incomplete) :
    (lives t).isSome = true ∧ OpenAt lives t name := by
  obtain ⟨views, hviews, hat⟩ := h.views true
  -- the dependencies are looked up in the views, and the task is one of them
  have hsome : (lives t).isSome = true := by
    unfold incompleteCompletionDependencies at hdeps
    obtain ⟨views', hviews', hdeps⟩ := bind_eq_ok.mp hdeps
    rw [hviews] at hviews'
    cases hviews'
    split at hdeps
    · cases hdeps
    · rename_i target hfind
      have hid : target.taskId = t := by simpa using List.find?_some hfind
      have hmem := List.mem_reverse.mp (List.mem_of_find?_eq_some hfind)
      obtain ⟨life, hlife, -⟩ := hat.shows target hmem
      rw [← hid, hlife]
      rfl
  refine ⟨hsome, fun life hlife => ?_⟩
  obtain ⟨c, hfold, -, hshows⟩ := h.store.fold hlife
  cases life with
  | free => trivial
  -- a held task is the own one of the agent, or the check for conflicts raises
  | held owner revision =>
    obtain ⟨c', hfold', hconflict⟩ := bind_eq_ok.mp hconflict
    rw [hfold] at hfold'
    cases hfold'
    dsimp only at hconflict
    split at hconflict
    · cases hconflict
    · obtain ⟨-, -, hconflict⟩ := bind_eq_ok.mp hconflict
      rw [hshows.1] at hconflict
      split at hconflict
      · rename_i howner
        rw [Bool.or_eq_true] at howner
        have howner : Json.pyEq (.str owner) (.str name) = true := howner.resolve_left nofun
        exact Json.str.inj ((Json.pyEq_str_right_iff _ _).mp howner)
      · cases hconflict
  -- a finished task stands in a file of some agent, which the check finds
  | done =>
    obtain ⟨other, a, hget, hmem⟩ := h.agents.finisher hlife
    have hloaded := (mem_loadAgents h.agents).mpr ⟨other, hget⟩
    exact List.find?_eq_none.mp hfinished a hloaded (List.contains_iff_mem.mpr hmem)

/-- `complete_task`. -/
theorem ends_completeTask (henv : env.Ticking) (hwrite : env.env.writeEnabled = true)
    (h : b.ShowsAt env lives) (hlisted : ListsAgent env name) (precondition : Except PyError Unit) :
    Ends (Board.Coupled env) (completeTask env name t precondition) b := by
  have hb : b.Coupled env := ⟨lives, h⟩
  unfold completeTask
  refine .lift_bind hb fun canonical hvalid => .lift_bind hb fun _ _ => .get_bind ?_
  obtain rfl := validateAgentName_eq hvalid
  refine .lift_bind hb fun _ _ => .lift_bind hb fun _ hconflict => ?_
  cases hfinished : (b.loadAgents env).find? fun a => a.completedTasks.contains t with
  | some a => exact .pure hb
  | none =>
    refine .lift_bind hb fun incomplete hdeps => ?_
    dsimp only
    split
    · exact .raise hb
    · refine .lift_bind hb fun _ _ => ?_
      obtain ⟨hsome, hopen⟩ := openAt_of_completable h hconflict hfinished hdeps
      obtain ⟨life, hlife⟩ := Option.isSome_iff_exists.mp hsome
      refine .bind_of_ok (run_completeInProjection h.agents hvalid hlisted)
        (.bind_of_ok run_drawUuid ?_)
      set b₁ : Board := { b.completed env canonical t with ticks := b.ticks + 2 } with hb₁
      obtain ⟨st, hrun, hgoes⟩ := @run_mirrorComplete env b.ticks (b.ticks + 1) b₁ lives t canonical
        life henv hwrite h.faults h.store (Nat.le_add_right _ 2) (Nat.lt_succ_self _)
        ((h.store.card hlife).freshTransition b.ticks.le_succ) hlife
      refine .bind_of_ok (run_tryExcept_of_ok hrun) (.pure ⟨_, h.faults, hgoes.store,
        agentsAt_complete h.agents hvalid hlisted hopen _, h.tasks.update hsome _⟩)

end SkCoord
