import SkCoord.Coordination.Equiv.Lives

/-!
# The mirror calls

Where no write has a fault, `mirrorCoordClaim`, `mirrorCoordRelease`, `mirrorCoordComplete` and
`mirrorDemote` return and leave the store of a run with the next life of their card
(`run_mirrorClaim` and so on); a release with a reason outside the vocabulary raises and writes
nothing (`run_mirrorRelease_of_error`).  A creation either leaves the store or publishes a core
(`run_create`), which folds to a free card (`shows_core`) or to one that is held
(`shows_claimedCore`).
-/

namespace SkCoord

open Python Effect

variable {env : BoardEnv} {n k : ℕ} {b : Board} {lives : Lives}
  {cardId owner revision transitionId action agent : String} {life life' : Life}
  {payload payload' : Dict}

/-- A board behind the append of one event. -/
def Board.appended (b : Board) (st : Store) : Board :=
  { b with creation := { b.creation with store := st }, ticks := b.ticks + 2 }

/-! ### Writes without faults -/

theorem run_writing {x : Effect Board Unit} (hfaults : b.faults = []) :
    (writing x).run b = x.run b := by
  obtain ⟨creation, tasks, agents, recovery, ticks, faults⟩ := b
  dsimp only at hfaults
  subst hfaults
  rfl

theorem run_mirrorCardStore {x : Effect Board Unit} (hwrite : env.env.writeEnabled = true)
    (hfaults : b.faults = []) : (mirrorCardStore env x).run b = x.run b := by
  unfold mirrorCardStore
  rw [if_pos hwrite, run_writing hfaults]

theorem orUuid_of_ne (h : transitionId ≠ "") : orUuid env transitionId = pure transitionId := by
  unfold orUuid
  rw [if_neg h]

theorem run_drawUuid :
    (drawUuid env).run b = (.ok (env.uuid b.ticks), { b with ticks := b.ticks + 1 }) := rfl

theorem run_drawNow :
    (drawNow env).run b = (.ok (env.now b.ticks), { b with ticks := b.ticks + 1 }) := rfl

theorem run_appendCardEvent_of_ok {st : Store} {e : Event}
    (h : b.store.appendEvent env.env cardId action agent payload
      ⟨env.uuid b.ticks, env.now (b.ticks + 1)⟩ = .ok (st, e)) :
    (appendCardEvent env cardId action agent payload).run b = (.ok (), b.appended st) := by
  unfold appendCardEvent
  rw [run_bind_of_ok run_drawUuid, run_bind_of_ok run_drawNow, run_get_bind, run_lift_bind]
  have h' : ({ b with ticks := b.ticks + 2 } : Board).store.appendEvent env.env cardId action agent
      payload ⟨env.uuid b.ticks, env.now (b.ticks + 1)⟩ = .ok (st, e) := h
  rw [h']
  rfl

theorem run_appendCardEvent_of_error {e : PyError}
    (h : b.store.appendEvent env.env cardId action agent payload
      ⟨env.uuid b.ticks, env.now (b.ticks + 1)⟩ = .error e) :
    (appendCardEvent env cardId action agent payload).run b =
      (.error e, { b with ticks := b.ticks + 2 }) := by
  unfold appendCardEvent
  rw [run_bind_of_ok run_drawUuid, run_bind_of_ok run_drawNow, run_get_bind, run_lift_bind]
  have h' : ({ b with ticks := b.ticks + 2 } : Board).store.appendEvent env.env cardId action agent
      payload ⟨env.uuid b.ticks, env.now (b.ticks + 1)⟩ = .error e := h
  rw [h']

/-! ### The next event of a card -/

/-- What a mirror call leaves: the store with the next life of the card and with its transition,
and the directories of the other cards as they were. -/
structure Board.Goes (env : BoardEnv) (b : Board) (lives : Lives) (cardId : String) (life : Life)
    (transitionId : String) (st : Store) : Prop where
  store : StoreAt env (b.ticks + 2) st (Function.update lives cardId (some life))
  dir : ∀ other, other ≠ cardId → st.dir other = b.store.dir other
  durable : st.hasTransition env.env cardId transitionId = .ok true

/-- **The next event** of a card, with an identifier that was drawn before. -/
theorem run_appendCardEvent (henv : env.Ticking) (h : StoreAt env n b.store lives)
    (hn : n ≤ b.ticks) (hlife : lives cardId = some life) (hk : k < b.ticks)
    (hfresh : FreshTransition b.store cardId (env.uuid k))
    (hnorm : Store.normalisePayload env.env action payload = .ok payload')
    (hp : TransitionPayload payload' (env.uuid k)) (haction : action ≠ "void")
    (Q : Card → Prop) (hstep : ∀ (lines : List LogLine) (s : FoldState), s.Shows cardId life →
      b.store.fold env.env cardId = .ok (some s.card) → ∃ t, FoldState.step cardId s
        (Store.newEvent env.env lines action agent payload'
          ⟨env.uuid b.ticks, env.now (b.ticks + 1)⟩) = .ok t ∧ t.Shows cardId life' ∧
          Q t.card) :
    ∃ st, (appendCardEvent env cardId action agent payload).run b = (.ok (), b.appended st) ∧
      b.Goes env lives cardId life' (env.uuid k) st ∧
      ∃ c, st.fold env.env cardId = .ok (some c) ∧ Q c := by
  have htid : ∀ j, b.ticks + 1 < j → env.uuid k ≠ env.uuid j := by
    intro j hj heq
    have := henv.uuid heq
    omega
  obtain ⟨st, e, happ, hst, hdir, hdurable, hfolded⟩ := h.append henv (hn.trans b.ticks.le_succ) hlife hnorm hp
    haction (henv.uuid_ne k) hfresh htid rfl hstep
  exact ⟨st, run_appendCardEvent_of_ok happ, ⟨hst, hdir, hdurable⟩, hfolded⟩

section

variable (henv : env.Ticking) (hwrite : env.env.writeEnabled = true) (hfaults : b.faults = [])
  (h : StoreAt env n b.store lives) (hn : n ≤ b.ticks) (hk : k < b.ticks)
  (hfresh : FreshTransition b.store cardId (env.uuid k))

include henv hwrite hfaults h hn hk hfresh

/-- The claim of a card that is open to the agent. -/
theorem run_mirrorClaim (hlife : lives cardId = some life) (hopen : life.OpenTo owner)
    (ho : owner ≠ "") (hr : revision ≠ "") :
    ∃ st, (mirrorCardStore env
        (mirrorCoordClaim env cardId owner (env.uuid k) revision)).run b =
        (.ok (), b.appended st) ∧
      b.Goes env lives cardId (.held owner revision) (env.uuid k) st := by
  rw [run_mirrorCardStore hwrite hfaults]
  unfold mirrorCoordClaim
  rw [orUuid_of_ne hr, orUuid_of_ne (henv.uuid_ne k)]
  have hp : TransitionPayload [("owner", .str owner), ("claim_revision", .str revision),
      ("transition_id", .str (env.uuid k))] (env.uuid k) :=
    .of_keys ["owner", "claim_revision", "transition_id"] rfl (by decide) (by decide) rfl
  obtain ⟨st, hrun, hgoes, -⟩ := run_appendCardEvent henv h hn hlife hk hfresh rfl hp (by decide)
    (fun _ => True) fun lines s hs _ =>
      (FoldState.step_claim hs hopen (action_newEvent hp) (get_newEvent hp rfl)
        (get_newEvent hp rfl) ho hr).imp fun _ ht => ⟨ht.1, ht.2, trivial⟩
  exact ⟨st, hrun, hgoes⟩

/-- The completion of a card. -/
theorem run_mirrorComplete (hlife : lives cardId = some life) :
    ∃ st, (mirrorCardStore env (mirrorCoordComplete env cardId agent (env.uuid k))).run b =
        (.ok (), b.appended st) ∧ b.Goes env lives cardId .done (env.uuid k) st := by
  rw [run_mirrorCardStore hwrite hfaults]
  unfold mirrorCoordComplete
  rw [orUuid_of_ne (henv.uuid_ne k)]
  have hp : TransitionPayload [("transition_id", .str (env.uuid k))] (env.uuid k) :=
    .of_keys ["transition_id"] rfl (by decide) (by decide) rfl
  obtain ⟨st, hrun, hgoes, -⟩ := run_appendCardEvent henv h hn hlife hk hfresh rfl hp (by decide)
    (fun _ => True) fun lines s hs _ =>
      (FoldState.step_complete hs (action_newEvent hp)).imp fun _ ht => ⟨ht.1, ht.2, trivial⟩
  exact ⟨st, hrun, hgoes⟩

/-- The demotion of a held card. -/
theorem run_mirrorDemote (hlife : lives cardId = some (.held owner revision)) :
    ∃ st, (mirrorDemote env cardId agent (env.uuid k)).run b = (.ok (), b.appended st) ∧
      b.Goes env lives cardId (.held owner revision) (env.uuid k) st := by
  unfold mirrorDemote
  rw [run_mirrorCardStore hwrite hfaults]
  unfold mirrorCoordMove
  rw [orUuid_of_ne (henv.uuid_ne k)]
  have hp : TransitionPayload [("column", .str "ready"), ("order", .null),
      ("transition_id", .str (env.uuid k))] (env.uuid k) :=
    .of_keys ["column", "order", "transition_id"] rfl (by decide) (by decide) rfl
  obtain ⟨st, hrun, hgoes, -⟩ := run_appendCardEvent henv h hn hlife hk hfresh rfl hp (by decide)
    (fun _ => True) fun lines s hs _ =>
      (FoldState.step_ready hs (action_newEvent hp) (get_newEvent hp rfl)
        (get_newEvent hp rfl)).imp fun _ ht => ⟨ht.1, ht.2, trivial⟩
  exact ⟨st, hrun, hgoes⟩

/-- The release of a held card, with a reason of the vocabulary. -/
theorem run_mirrorRelease (hlife : lives cardId = some (.held owner revision))
    (hfolds : FoldsRelease env b owner cardId) {actor reason : String} {abandonReason : Json}
    (hreason : validateAbandonReason env.env abandonReason = .ok reason) :
    ∃ st, (mirrorCardStore env
        (mirrorCoordRelease env cardId owner actor (some revision) (env.uuid k)
          abandonReason)).run b = (.ok (), b.appended st) ∧
      b.Goes env lives cardId .free (env.uuid k) st ∧
      ∃ c, st.fold env.env cardId = .ok (some c) ∧
        Assoc.get? c.metaData "_claim_revision" = none := by
  rw [run_mirrorCardStore hwrite hfaults]
  unfold mirrorCoordRelease
  dsimp only
  rw [orUuid_of_ne (henv.uuid_ne k)]
  have hp : TransitionPayload [("released_owner", .str owner),
      ("expected_claim_revision", .str revision), ("transition_id", .str (env.uuid k)),
      ("abandon_reason", .str reason)] (env.uuid k) :=
    .of_keys ["released_owner", "expected_claim_revision", "transition_id", "abandon_reason"] rfl
      (by decide) (by decide) rfl
  have hnorm : Store.normalisePayload env.env "release_claim"
      [("released_owner", .str owner), ("expected_claim_revision", .str revision),
        ("transition_id", .str (env.uuid k)), ("abandon_reason", abandonReason)] =
      .ok [("released_owner", .str owner), ("expected_claim_revision", .str revision),
        ("transition_id", .str (env.uuid k)), ("abandon_reason", .str reason)] := by
    unfold Store.normalisePayload
    rw [if_pos rfl]
    exact bind_eq_ok.mpr ⟨reason, hreason, rfl⟩
  exact run_appendCardEvent henv h hn hlife hk hfresh hnorm hp (by decide) _
    fun lines s hs hfold => FoldState.step_release hs (action_newEvent hp)
      (get_newEvent hp rfl) (get_newEvent hp rfl) (hfolds s.card hfold hs.life.1)

end

/-- A release with a reason outside the vocabulary. -/
theorem run_mirrorRelease_of_error (henv : env.Ticking) (hwrite : env.env.writeEnabled = true)
    (hfaults : b.faults = []) {actor : String} {abandonReason : Json} {e : PyError}
    (hvalid : validateCardLockIdentifier cardId = .ok cardId)
    (hreason : validateAbandonReason env.env abandonReason = .error e) :
    (mirrorCardStore env (mirrorCoordRelease env cardId owner actor (some revision) (env.uuid k)
      abandonReason)).run b = (.error e, { b with ticks := b.ticks + 2 }) := by
  rw [run_mirrorCardStore hwrite hfaults]
  unfold mirrorCoordRelease
  dsimp only
  rw [orUuid_of_ne (henv.uuid_ne k)]
  refine run_appendCardEvent_of_error ?_
  unfold Store.appendEvent Store.normalisePayload
  rw [hvalid, if_pos rfl]
  have hget : Dict.get [("released_owner", .str owner), ("expected_claim_revision", .str revision),
      ("transition_id", .str (env.uuid k)), ("abandon_reason", abandonReason)] "abandon_reason" =
      abandonReason := rfl
  rw [hget, hreason]
  rfl

/-! ### Creation -/

/-- What a creation without faults does: it writes nothing, or it sets a core that was absent. -/
inductive CreateRun (s : CreationState) (core : CardCore) :
    Except PyError String × CreationState → Prop where
  | refused (e : PyError) : CreateRun s core (.error e, s)
  | existing (old : CardCore) (h : s.store.loadCore core.id = .ok (some old)) :
      CreateRun s core (.ok core.id, s)
  | created (hvalid : validateCardLockIdentifier core.id = .ok core.id)
      (h : (s.store.dir core.id).core = .absent) :
      CreateRun s core (.ok core.id, { s with store := s.store.setCore core })

/-- **A creation without faults** is refused, finds a core, or publishes the new one. -/
theorem run_create (cenv : CreationEnv) (s : CreationState) (core : CardCore) :
    CreateRun s core ((create cenv .ok .ok core).run s) := by
  unfold create
  rw [run_get_bind, run_lift_bind]
  cases cenv.creationGuard s.store core with
  | error e => exact .refused e
  | ok _ =>
    dsimp only
    rw [run_lift_bind]
    cases hvalid : validateCardLockIdentifier core.id with
    | error e => exact .refused e
    | ok r =>
      obtain rfl := validate_eq hvalid
      dsimp only
      rw [run_lift_bind]
      cases hload : s.store.loadCore core.id with
      | error e => exact .refused e
      | ok existing =>
        cases existing with
        | some old => exact .existing old hload
        | none =>
          dsimp only
          rw [if_neg (by simp), run_lift_bind]
          cases governCreate cenv s.store core with
          | error e => exact .refused e
          | ok _ =>
            -- no core is there, so the write publishes it, and the anchor that is ensured behind it
            -- finds it
            have habsent := Store.loadCore_eq_none hload
            have hpublish : s.store.publishCore core = s.store.setCore core := by
              unfold Store.publishCore
              rw [habsent, if_neg (by simp [CoreFile.exists])]
            have hwrite : (io .ok (fun s : CreationState =>
                { s with store := s.store.publishCore core }) fun full s =>
                { s with store := s.store.tearCore core full }).run s =
                (.ok (), { s with store := s.store.setCore core }) := by
              rw [← hpublish]
              rfl
            have hanchor : (ensureCardLockAnchor .ok core.id).run
                { s with store := s.store.setCore core } =
                (.ok (), { s with store := s.store.setCore core }) := by
              have hcore : (s.store.setCore core).loadCore core.id = .ok (some core) := by
                refine bind_eq_ok.mpr ⟨_, hvalid, ?_⟩
                rw [Store.dir_setCore_self]
                rfl
              unfold ensureCardLockAnchor
              rw [run_get_bind, run_lift_bind, hcore]
              dsimp only
              rw [if_pos rfl]
              rfl
            dsimp only
            rw [run_bind_of_ok hwrite, run_bind_of_ok hanchor]
            exact .created hvalid habsent

theorem run_inCreation {α : Type} (x : Effect CreationState α) :
    (inCreation x).run b = ((x.run b.creation).1, { b with creation := (x.run b.creation).2 }) :=
  rfl

variable {task : Task}

/-- The card of a task at birth. -/
theorem shows_core (u : CharTables) : ∃ s, foldInit task.id (task.core u) = .ok s ∧
    s.Shows task.id .free := by
  refine ⟨_, rfl, rfl, ⟨rfl, ?_, ⟨_, rfl⟩, ⟨_, rfl⟩, ?_, rfl⟩, rfl, rfl⟩
  · unfold Task.core
    dsimp only
    split
    · exact .inr rfl
    · exact .inl rfl
  · intro l hl
    obtain ⟨t, -, rfl⟩ := List.mem_map.mp hl
    exact ⟨t, rfl⟩

/-- The card of a task that is born claimed. -/
theorem shows_claimedCore (u : CharTables) (ho : owner ≠ "") (hr : revision ≠ "") :
    ∃ s, foldInit task.id (task.claimedCore u owner revision) = .ok s ∧
      s.Shows task.id (.held owner revision) ∧ s.card.dependencies = task.dependencies := by
  unfold foldInit Task.claimedCore
  dsimp only
  rw [if_neg hr]
  refine ⟨_, rfl, ⟨rfl, ⟨rfl, ?_, ⟨_, rfl⟩, ⟨_, rfl⟩, ?_, rfl⟩, rfl, .inr rfl,
    Assoc.get?_set_self _ _ _, ho, hr⟩, rfl⟩
  · unfold Task.core
    dsimp only
    split
    · exact .inr rfl
    · exact .inl rfl
  · intro l hl
    obtain ⟨t, -, rfl⟩ := List.mem_map.mp hl
    exact ⟨t, rfl⟩

end SkCoord
