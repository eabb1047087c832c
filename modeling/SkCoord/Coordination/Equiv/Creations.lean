import SkCoord.Coordination.Equiv.Calls

/-!
# A creation keeps the boards in step

A new card is free, or held by the agent that it is created for, and its task file is the one that
the projection reads (`ends_createTask`, `ends_createClaimedTask`).  Between the card and the agent
file of a task that is born claimed the two projections differ in this task alone; the gates of the
claim let it through on either.
-/

namespace SkCoord

open Python Effect

variable {env : BoardEnv} {b : Board} {st : Store} {lives : Lives} {name t : String} {task : Task}

/-! ### The new card -/

/-- A stored core belongs to a task that there is. -/
theorem Board.ShowsAt.isSome_of_loadCore (h : b.ShowsAt env lives) {core : CardCore}
    (hload : b.store.loadCore t = .ok (some core)) : (lives t).isSome = true := by
  by_contra hnone
  have hpresent := Store.loadCore_eq_some hload
  rw [h.store.dir_of_none (Option.not_isSome_iff_eq_none.mp hnone)] at hpresent
  cases hpresent

/-- A task without a core is new. -/
theorem Board.ShowsAt.eq_none_of_absent (h : b.ShowsAt env lives)
    (habsent : (b.store.dir t).core = .absent) : lives t = none := by
  cases hlife : lives t with
  | none => rfl
  | some life =>
    obtain ⟨core, -, -, hpresent, -⟩ := (h.store.card hlife).folds
    cases habsent.symm.trans hpresent

/-- A task that there is may be written again. -/
theorem Board.ShowsAt.write (h : b.ShowsAt env lives) (hlists : ListsTask env b task)
    (hsome : (lives task.id).isSome = true) :
    ({ b with tasks := Assoc.set b.tasks (task.fileName env.tables) task } : Board).ShowsAt env
      lives := by
  refine ⟨h.faults, h.store, h.agents, h.tasks.write hlists fun t => ?_⟩
  refine ⟨.inr, fun ht => ht.elim (fun ht => ?_) id⟩
  rw [ht, hsome]

/-- The task file of a new task. -/
theorem TasksAt.write_new (h : TasksAt env b.tasks lives) (hlists : ListsTask env b task)
    (life : Life) :
    TasksAt env (Assoc.set b.tasks (task.fileName env.tables) task)
      (Function.update lives task.id (some life)) := by
  refine h.write hlists fun t => ?_
  by_cases ht : t = task.id
  · rw [ht, Function.update_self]
    exact ⟨fun _ => .inl rfl, fun _ => rfl⟩
  · rw [Function.update_of_ne ht]
    exact ⟨.inr, fun hor => hor.resolve_left ht⟩

/-- A board with a new core. -/
def Board.withCore (b : Board) (core : CardCore) : Board :=
  { b with creation := { b.creation with store := b.store.setCore core } }

/-- `create_task`. -/
theorem ends_createTask (hwrite : env.env.writeEnabled = true) (h : b.ShowsAt env lives)
    (hlists : ListsTask env b task) : Ends (Board.Coupled env) (createTask env task) b := by
  have hrun := run_create env.creation b.creation (task.core env.tables)
  have hmirror : (mirrorCardStore env (mirrorCoordCreate env task)).run b =
      (((create env.creation .ok .ok (task.core env.tables)).run b.creation).1.map fun _ => (),
        { b with
          creation := ((create env.creation .ok .ok (task.core env.tables)).run b.creation).2 }) := by
    rw [run_mirrorCardStore hwrite h.faults]
    unfold mirrorCoordCreate
    rw [run_bind, run_inCreation]
    cases (create env.creation .ok .ok (task.core env.tables)).run b.creation with
    | mk r s => cases r <;> rfl
  generalize (create env.creation .ok .ok (task.core env.tables)).run b.creation = r at *
  unfold createTask
  cases hrun with
  | refused e => exact .bind_of_error hmirror ⟨lives, h⟩
  | existing old hload =>
    refine .bind_of_ok hmirror (.bind_of_ok (run_modify _ _) (.pure ⟨lives, ?_⟩))
    exact h.write hlists (h.isSome_of_loadCore hload)
  | created hvalid habsent =>
    have hnone := h.eq_none_of_absent habsent
    obtain ⟨s, hinit, hs⟩ := @shows_core task env.tables
    refine .bind_of_ok hmirror (.bind_of_ok (run_modify _ _) (.pure ⟨_, h.faults, ?_,
      h.agents.create hnone, h.tasks.write_new hlists .free⟩))
    exact h.store.setCore hnone hvalid hinit hs

/-! ### A card that is born claimed -/

@[simp] theorem dumpEq_refl (core : CardCore) : dumpEq core core = true := by
  simp [dumpEq]

/-- Dependencies that pass the check are done. -/
theorem Board.ShowsAt.done_of_requireDependencies (h : b.ShowsAt env lives)
    (hok : requireDependencies env b task = .ok ()) :
    ∀ d ∈ task.dependencies, lives d = some .done := by
  obtain ⟨views, hviews, hat⟩ := h.views true
  unfold requireDependencies at hok
  split at hok
  · rename_i hempty
    rw [List.isEmpty_iff.mp hempty]
    exact nofun
  · obtain ⟨views', hviews', hok⟩ := bind_eq_ok.mp hok
    rw [hviews] at hviews'
    cases hviews'
    dsimp only at hok
    split at hok
    · rename_i hcomplete
      exact (incompleteIn_eq_nil_iff hat _).mp (List.isEmpty_iff.mp hcomplete)
    · cases hok

/-- What the mirror of a claimed creation does: it writes nothing, and then a value that it returns
is the revision of the live claim, or it sets the core of a new task with the claim. -/
inductive CreateClaimedRun (env : BoardEnv) (b : Board) (task : Task) (owner : String) :
    Except PyError String × Board → Prop where
  | refused (e : PyError) (n : ℕ) (hn : b.ticks ≤ n) :
      CreateClaimedRun env b task owner (.error e, { b with ticks := n })
  | existing (c : Card) (revision : String)
      (hfold : b.store.fold env.env task.id = .ok (some c))
      (howner : c.owner.pyEq (.str owner) = true) :
      CreateClaimedRun env b task owner (.ok revision, b)
  | created (hvalid : validateCardLockIdentifier task.id = .ok task.id)
      (habsent : (b.store.dir task.id).core = .absent) :
      CreateClaimedRun env b task owner (.ok (env.uuid b.ticks),
        { b.withCore (task.claimedCore env.tables owner (env.uuid b.ticks)) with
          ticks := b.ticks + 1 })

/-- **A mirrored creation with a claim**: it is refused, finds the card that an earlier call
created, or creates the core. -/
theorem run_mirrorCoordCreateClaimed (owner : String) :
    CreateClaimedRun env b task owner ((mirrorCoordCreateClaimed env task owner).run b) := by
  unfold mirrorCoordCreateClaimed
  rw [run_get_bind, run_lift_bind]
  cases hload : b.store.loadCore task.id with
  | error e => exact .refused e b.ticks le_rfl
  | ok existing =>
    cases existing with
    | some stored =>
      dsimp only
      split
      · exact .refused _ b.ticks le_rfl
      · rw [run_lift_bind]
        cases hfold : b.store.fold env.env task.id with
        | error e => exact .refused e b.ticks le_rfl
        | ok card =>
          dsimp only
          split
          · rename_i hclaim
            cases card with
            | none => cases hclaim
            | some c =>
              -- a core that is there has to be the one of this claim
              unfold isCreatedClaim at hclaim
              rw [Option.any_some, Bool.and_eq_true, Bool.and_eq_true] at hclaim
              exact .existing c _ hfold hclaim.1.1
          · exact .refused _ b.ticks le_rfl
    | none =>
      dsimp only
      rw [run_bind_of_ok run_drawUuid]
      -- no core is there: the one of the claim is created, and read back
      set core := task.claimedCore env.tables owner (env.uuid b.ticks) with hcore
      set b₁ : Board := { b with ticks := b.ticks + 1 } with hb₁
      have hrun := run_create env.creation b.creation core
      have hcreate := @run_inCreation b₁ String (create env.creation .ok .ok core)
      generalize hr : (create env.creation .ok .ok core).run b₁.creation = r at hcreate
      rw [show b.creation = b₁.creation from rfl, hr] at hrun
      cases hrun with
      | refused e =>
        rw [run_bind_of_error hcreate]
        exact .refused e (b.ticks + 1) b.ticks.le_succ
      | existing old hold => cases hload.symm.trans hold
      | created hvalid habsent =>
        have hstored : ({ b₁.withCore core with ticks := b.ticks + 1 } : Board).store.loadCore
            task.id = .ok (some core) :=
          Store.loadCore_of_present hvalid (by
            change ((b.store.setCore core).dir core.id).core = .present core
            rw [Store.dir_setCore_self])
        have hcreate' : (inCreation (create env.creation .ok .ok core)).run b₁ =
            (.ok core.id, { b₁.withCore core with ticks := b.ticks + 1 }) := hcreate
        rw [run_bind_of_ok hcreate', run_get_bind, run_lift_bind, hstored]
        dsimp only
        rw [Option.any_some, dumpEq_refl, if_pos rfl]
        exact .created hvalid habsent

/-- The claim of a task that was created claimed: the files show the task as it was before. -/
theorem ends_claimCreated (henv : env.Ticking) (hwrite : env.env.writeEnabled = true)
    {files : Lives} {revision : String} {n : ℕ} (hfaults : b.faults = [])
    (hstore : StoreAt env n b.store lives) (hn : n ≤ b.ticks)
    (hagents : AgentsAt env b.agents files) (htasks : TasksAt env b.tasks lives)
    (hvalid : validateAgentName name = .ok name) (hlisted : ListsAgent env name)
    (hopen : OpenAt files t name)
    (hlives : Function.update files t (some (.held name revision)) = lives)
    (hgates : requireClaimable env b name t = .ok ()) {α : Type}
    (readback : AgentFile × Option String → Effect Board α)
    (hreadback : ∀ r b', b'.Coupled env → Ends (Board.Coupled env) (readback r) b') :
    Ends (Board.Coupled env)
      (do
        let r ← claimInProjection env name t false
        (match r.2 with
          | none => pure ()
          | some bumped => do
            let transition ← drawUuid env
            mirrorDemote env bumped name transition)
        readback r) b := by
  -- the file that the projection writes shows the claim
  have hclaimed : (b.claimed env name t false).ShowsAt env lives := by
    have hfiles := agentsAt_claimed hagents hvalid hlisted hopen (fun _ => rfl) revision
    rw [hlives] at hfiles
    exact ⟨hfaults, hstore.mono (hn.trans b.ticks.le_succ), hfiles, htasks⟩
  refine .bind_of_ok (run_claimInProjection hagents hvalid hlisted hgates) ?_
  dsimp only
  cases hbumped : (fileOf b name).bumped t with
  | none => exact .bind_of_ok (run_pure () _) (hreadback _ _ ⟨lives, hclaimed⟩)
  | some x =>
    obtain ⟨hcur, hne⟩ := Option.filter_eq_some_iff.mp hbumped
    have hfile := hagents.agentAt hvalid hlisted
    -- the task that was current is demoted in the store as well
    obtain ⟨r, hx⟩ := hfile.claimed x (hfile.current x hcur)
    have hheld : lives x = some (.held name r) := by
      rw [← hlives, Function.update_of_ne (of_decide_eq_true hne), hx]
    obtain ⟨b', hrun, hb'⟩ := run_mirrorDemote_held henv hwrite
      (hclaimed.ticks (Nat.le_succ (b.ticks + 1))) hheld hstore
      (hn.trans b.ticks.le_succ) (Nat.lt_succ_self _)
    have hdemote : (do
        let transition ← drawUuid env
        mirrorDemote env x name transition).run (b.claimed env name t false) = (.ok (), b') := by
      rw [run_bind_of_ok run_drawUuid]
      exact hrun
    exact .bind_of_ok hdemote (hreadback _ _ ⟨lives, hb'⟩)

/-- `create_claimed_task`. -/
theorem ends_createClaimedTask (henv : env.Ticking) (hwrite : env.env.writeEnabled = true)
    (h : b.ShowsAt env lives) (hlists : ListsTask env b task) (hlisted : ListsAgent env name) :
    Ends (Board.Coupled env) (createClaimedTask env task name) b := by
  have hb : b.Coupled env := ⟨lives, h⟩
  unfold createClaimedTask
  refine .lift_bind hb fun canonical hvalid => ?_
  obtain rfl := validateAgentName_eq hvalid
  rw [if_pos hwrite]
  refine .get_bind (.lift_bind hb fun _ _ => .lift_bind hb fun _ hdeps => ?_)
  have hreadback : ∀ (revision : String) (r : AgentFile × Option String) (b' : Board),
      b'.Coupled env → Ends (Board.Coupled env) (do
        let b ← get
        let card ← lift (b.store.fold env.env task.id)
        if isCreatedClaim card r.1.agent revision then
          pure (task.fileName env.tables, revision)
        else raise (.runtime "atomic create-and-claim readback failed")) b' := by
    intro revision r b' hb'
    refine .get_bind (.lift_bind hb' fun card _ => ?_)
    split
    · exact .pure hb'
    · exact .raise hb'
  have hrun := @run_mirrorCoordCreateClaimed env b task canonical
  generalize hmirror : (mirrorCoordCreateClaimed env task canonical).run b = r at hrun
  cases hrun with
  | refused e n hn => exact .bind_of_error hmirror ⟨lives, h.ticks hn⟩
  | existing c revision hfold howner =>
    -- the claim is live, so the agent holds the task already
    obtain ⟨life, hlife, hshows⟩ := h.shows_of_fold hfold
    obtain ⟨r, rfl⟩ := held_of_shows hshows howner
    have hwritten := h.write hlists (by rw [hlife]; rfl)
    refine .bind_of_ok hmirror (.bind_of_ok (run_modify _ _) ?_)
    cases hgates : requireClaimable env
        { b with tasks := Assoc.set b.tasks (task.fileName env.tables) task } canonical task.id with
    | error e =>
      exact .bind_of_error (run_claimInProjection_of_error hgates) ⟨lives, hwritten⟩
    | ok _ =>
      refine ends_claimCreated henv hwrite hwritten.faults hwritten.store le_rfl hwritten.agents
        hwritten.tasks hvalid hlisted (fun life hlife' => ?_)
        (Function.update_eq_self_iff.mpr hlife.symm) hgates _ (hreadback revision)
      cases hlife.symm.trans hlife'
      rfl
  | created hid habsent =>
    have hnone := h.eq_none_of_absent habsent
    obtain ⟨s, hinit, hs, hsdeps⟩ := @shows_claimedCore canonical (env.uuid b.ticks) task env.tables
      (ne_empty_of_validateAgentName hvalid) (henv.uuid_ne _)
    set core := task.claimedCore env.tables canonical (env.uuid b.ticks) with hcore
    set b₂ : Board := { b.withCore core with
      ticks := b.ticks + 1
      tasks := Assoc.set b.tasks (task.fileName env.tables) task } with hb₂
    have hstore : StoreAt env b.ticks b₂.store (Function.update lives task.id
        (some (.held canonical (env.uuid b.ticks)))) := h.store.setCore hnone hid hinit hs
    have hfolded : b₂.store.fold env.env task.id = .ok (some s.card) :=
      h.store.fold_setCore hnone hid hinit
    have hagents : AgentsAt env b₂.agents _ := h.agents.create hnone
    have htasks : ∀ life, TasksAt env b₂.tasks (Function.update lives task.id (some life)) :=
      h.tasks.write_new hlists
    have hdone := h.done_of_requireDependencies hdeps
    -- the target is open on either projection, and its dependencies are other tasks
    have hopen : ∀ life : Life, life.OpenTo canonical →
        (Function.update lives task.id (some life) task.id).isSome = true ∧
          OpenAt (Function.update lives task.id (some life)) task.id canonical ∧
          ∀ d ∈ s.card.dependencies,
            Function.update lives task.id (some life) d = some .done := by
      intro life hlife
      refine ⟨by rw [Function.update_self]; rfl, fun life' hlife' => ?_, fun d hd => ?_⟩
      · rw [Function.update_self] at hlife'
        cases hlife'
        exact hlife
      · have hd := hdone d (hsdeps ▸ hd)
        have hne : d ≠ task.id := by
          rintro rfl
          cases hnone.symm.trans hd
        rw [Function.update_of_ne hne, hd]
    have hgates : requireClaimable env b₂ canonical task.id = .ok () := by
      refine requireClaimable_ok (getTaskViews_at hstore hagents (htasks .free) fun t => ?_)
        (fun l hl => ?_) hfolded
      · by_cases ht : t = task.id
        · rw [ht, Function.update_self, Function.update_self]
          exact id
        · rw [Function.update_of_ne ht, Function.update_of_ne ht]
          exact id
      · rcases hl with rfl | rfl
        · exact hopen _ rfl
        · exact hopen _ trivial
    refine .bind_of_ok hmirror (.bind_of_ok (run_modify _ _) ?_)
    have hfaults : b₂.faults = [] := h.faults
    exact ends_claimCreated henv hwrite hfaults hstore b.ticks.le_succ hagents (htasks _) hvalid
      hlisted (hopen .free trivial).2.1 (Function.update_idem _ _ _) hgates _
      (hreadback (env.uuid b.ticks))

end SkCoord
