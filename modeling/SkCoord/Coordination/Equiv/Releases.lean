import SkCoord.Coordination.Equiv.Calls

/-!
# A release keeps the boards in step

A release that is checked on a board in step names the live claim (`releaseTarget_of_held`).  It
either reaches its postcondition, or its reason is refused before anything is appended and the agent
file is restored (`ends_releaseClaimLocked`).  So `releaseClaim` and every turn of
`releaseStaleClaims` leave a board in step (`ends_releaseClaim`, `ends_releaseStaleClaims`).
-/

namespace SkCoord

open Python Effect

variable {env : BoardEnv} {n m : ℕ} {b : Board} {st : Store} {lives : Lives}
  {name t cardId revision : String} {life : Life}

/-! ### The checks of a release -/

/-- The live claim is the one that a release of its owner is about. -/
theorem currentClaimPrecondition_of_held {c : Card}
    (hfold : st.fold env.env t = .ok (some c)) (hc : c.Shows (.held name revision)) :
    currentClaimPrecondition env.env st t name = .ok (some revision) := by
  unfold currentClaimPrecondition
  refine bind_eq_ok.mpr ⟨_, hfold, ?_⟩
  dsimp only
  rw [hc.1, Json.pyEq_refl, if_pos rfl, Dict.get, hc.2.2.1, Option.getD_some]
  exact if_neg hc.2.2.2.2

/-- A release by the owner is refused only where another revision is expected. -/
theorem checkRelease_of_held {c : Card} (hfold : st.fold env.env t = .ok (some c))
    (hc : c.Shows (.held name revision)) (expected : Option String) :
    checkRelease env.env st name t expected = .ok ⟨some c, some revision⟩ ∨
      ∃ msg, checkRelease env.env st name t expected = .error (.value msg) := by
  have hpre := currentClaimPrecondition_of_held hfold hc
  unfold checkRelease
  rw [hfold]
  change (currentClaimPrecondition env.env st t name >>= _) = _ ∨
    ∃ msg, (currentClaimPrecondition env.env st t name >>= _) = _
  rw [hpre]
  have howner : ((some c).any fun c => !c.owner.pyEq (.str name)) = false := by
    rw [Option.any_some, hc.1, Json.pyEq_refl]
    rfl
  dsimp only [bind, Except.bind]
  rw [howner, Bool.false_and, if_neg Bool.false_ne_true]
  cases expected with
  | none => exact .inl rfl
  | some e =>
    dsimp only
    split
    · exact .inl rfl
    · exact .inr ⟨_, rfl⟩

/-- What a release of a held task mirrors. -/
theorem releaseTarget_of_held (hwrite : env.env.writeEnabled = true)
    (h : StoreAt env n b.store lives) (hheld : lives t = some (.held name revision))
    {expected : Option String} {allowMissing : Bool} {target : Option ReleaseTarget}
    (hok : releaseTarget env b name t expected allowMissing = .ok target) :
    ∃ c, b.store.fold env.env t = .ok (some c) ∧ c.Shows (.held name revision) ∧
      target = some ⟨some c, some revision⟩ := by
  obtain ⟨c, hfold, -, hc⟩ := h.fold hheld
  refine ⟨c, hfold, hc, ?_⟩
  unfold releaseTarget at hok
  rw [if_pos hwrite] at hok
  rcases checkRelease_of_held hfold hc expected with hcheck | ⟨msg, hcheck⟩ <;> rw [hcheck] at hok
  · cases hok
    rfl
  · dsimp only at hok
    split at hok
    · -- a card that is held has a core
      obtain ⟨core, hcore, hok⟩ := bind_eq_ok.mp hok
      cases core with
      | some core => cases hok
      | none =>
        obtain ⟨core, -, -, hpresent, -⟩ := (h.card hheld).folds
        rw [Store.loadCore_eq_none hcore] at hpresent
        cases hpresent
    · cases hok

/-- An identifier that was not written yet is in no event. -/
theorem CardAt.hasTransition (h : CardAt env n st cardId life) (hn : n ≤ m) :
    st.hasTransition env.env cardId (env.uuid m) = .ok false := by
  obtain ⟨-, events, -, -, -, hevents, -⟩ := h.folds
  refine bind_eq_ok.mpr ⟨events, hevents, ?_⟩
  rw [pure_eq_ok]
  refine List.any_eq_false.mpr fun e he htransition => ?_
  exact (h.eventAt hevents he).transition m hn ((Json.pyEq_str_right_iff _ _).mp htransition)

/-- A reason outside the vocabulary is a `ValueError`. -/
theorem validateAbandonReason_ne_killed {v : Json} {e : PyError}
    (h : validateAbandonReason env.env v = .error e) : e ≠ .killed := by
  rintro rfl
  unfold validateAbandonReason at h
  split at h
  · cases h
  · split at h
    · cases h
    · split at h <;> cases h
  · cases h

/-- A release that is durable and folded has reached its postcondition. -/
theorem releaseIsApplied_of_goes {c before : Card} {transitionId : String}
    (hbefore : before.Shows (.held name revision))
    (hdurable : b.store.hasTransition env.env t transitionId = .ok true)
    (hfold : b.store.fold env.env t = .ok (some c)) (hc : c.Shows .free)
    (hrevision : Assoc.get? c.metaData "_claim_revision" = none) :
    releaseIsApplied env b name t transitionId ⟨some before, some revision⟩ = .ok true := by
  unfold releaseIsApplied Store.releaseTransitionIsApplied
  refine bind_eq_ok.mpr ⟨true, hdurable, ?_⟩
  rw [if_pos rfl]
  refine bind_eq_ok.mpr ⟨_, hfold, ?_⟩
  dsimp only
  rw [hbefore.1, Dict.get, hbefore.2.2.1, Option.getD_some, Json.pyEq_refl, Json.pyEq_refl,
    hc.1, hc.2, hrevision]
  rfl

/-- A release without a durable event has not. -/
theorem releaseIsApplied_of_not_durable {before : Card} {transitionId : String}
    (hdurable : b.store.hasTransition env.env t transitionId = .ok false) :
    releaseIsApplied env b name t transitionId ⟨some before, some revision⟩ = .ok false := by
  unfold releaseIsApplied Store.releaseTransitionIsApplied
  exact bind_eq_ok.mpr ⟨false, hdurable, rfl⟩

/-! ### Recovery -/

theorem run_appendReleaseRecovery (hfaults : b.faults = []) (r : RecoveryRecord) :
    (appendReleaseRecovery r).run b = (.ok (), { b with recovery := b.recovery ++ [r] }) := by
  unfold appendReleaseRecovery
  rw [run_writing hfaults]
  rfl

theorem run_restoreAgentProjection (hfaults : b.faults = [])
    (hvalid : validateAgentName name = .ok name) (original : Option AgentFile) :
    (restoreAgentProjection name original).run b = (.ok (), { b with
      agents := match original with
        | some a => Assoc.set b.agents name a
        | none => Assoc.erase b.agents name }) := by
  unfold restoreAgentProjection
  rw [run_lift_bind, hvalid]
  dsimp only
  rw [run_writing hfaults]
  rfl

/-- **The recovery** records the failure and restores the agent file. -/
theorem run_recoverStoreFailure (hfaults : b.faults = [])
    (hvalid : validateAgentName name = .ok name) (operation taskId actor : String)
    (original : Option AgentFile) (error : PyError) (transitions : List (String × String)) :
    ∃ recovery, (recoverStoreFailure env operation taskId name actor original error
        transitions).run b = (.ok (), { b with
      ticks := b.ticks + 2
      recovery
      agents := match original with
        | some a => Assoc.set b.agents name a
        | none => Assoc.erase b.agents name }) := by
  unfold recoverStoreFailure
  rw [run_bind_of_ok run_drawUuid, run_bind_of_ok run_drawNow]
  rw [run_bind_of_ok (run_tryExcept_of_ok (run_appendReleaseRecovery (by exact hfaults) _)),
    run_bind_of_ok (run_tryExcept_of_ok (run_restoreAgentProjection (by exact hfaults) hvalid _)),
    run_appendReleaseRecovery (by exact hfaults)]
  exact ⟨_, rfl⟩

/-- An agent file that was written is restored. -/
theorem get?_restored (agents : Assoc String AgentFile) (name : String) (a : AgentFile)
    (other : String) :
    Assoc.get? (match Assoc.get? agents name with
      | some x => Assoc.set (Assoc.set agents name a) name x
      | none => Assoc.erase (Assoc.set agents name a) name) other = Assoc.get? agents other := by
  by_cases hother : other = name
  · subst hother
    cases hget : Assoc.get? agents other with
    | some x => exact Assoc.get?_set_self _ _ _
    | none => exact Assoc.get?_erase_self _ _
  · cases Assoc.get? agents name with
    | some x =>
      dsimp only
      rw [Assoc.get?_set_ne _ _ hother, Assoc.get?_set_ne _ _ hother]
    | none =>
      dsimp only
      rw [Assoc.get?_erase_ne _ hother, Assoc.get?_set_ne _ _ hother]

/-! ### Releasing -/

/-- What a release leaves: boards in step, and the releases that could be folded still can. -/
structure Board.Released (env : BoardEnv) (b : Board) (name : String) (b' : Board) : Prop where
  coupled : b'.Coupled env
  folds : ∀ t, FoldsRelease env b name t → FoldsRelease env b' name t

section

variable (henv : env.Ticking) (hwrite : env.env.writeEnabled = true) (h : b.ShowsAt env lives)
  (hvalid : validateAgentName name = .ok name)

include henv hwrite h hvalid

/-- The mirror of a release, behind the write of the agent file. -/
theorem ends_mirrorRelease {a : AgentFile} (hget : Assoc.get? b.agents name = some a)
    (hheld : lives t = some (.held name revision)) {c : Card}
    (hfold : b.store.fold env.env t = .ok (some c)) (hc : c.Shows (.held name revision))
    (hfolds : FoldsRelease env b name t) (actor : String) (reason : Json) :
    Ends (Board.Released env b name)
      (tryExcept
        (mirrorRelease env name t actor (env.uuid (b.ticks + 1)) reason
          ⟨some c, some revision⟩)
        (releaseFailed env name t actor (env.uuid (b.ticks + 1)) ⟨some c, some revision⟩
          (some a)))
      { b with
        agents := Assoc.set b.agents name { a.release t with lastSeen := env.now b.ticks }
        ticks := b.ticks + 2 } := by
  set b₁ : Board := { b with
    agents := Assoc.set b.agents name { a.release t with lastSeen := env.now b.ticks }
    ticks := b.ticks + 2 } with hb₁
  have hcard := h.store.card hheld
  cases hreason : validateAbandonReason env.env reason with
  | ok r =>
    -- a reason of the vocabulary: the event is written, and the readback finds it
    obtain ⟨st, hrun, hgoes, c', hfold', hrevision⟩ := @run_mirrorRelease env b.ticks
      (b.ticks + 1) b₁ lives t name revision henv hwrite h.faults h.store (Nat.le_add_right _ 2)
      (Nat.lt_succ_self _) (hcard.freshTransition b.ticks.le_succ) hheld hfolds actor r reason
      hreason
    obtain ⟨c'', hfold'', -, hfree⟩ := hgoes.store.fold (Function.update_self t _ lives)
    obtain rfl : c'' = c' := by
      rw [hfold'] at hfold''
      exact (Option.some.inj (Except.ok.inj hfold'')).symm
    have happlied : releaseIsApplied env (b₁.appended st) name t (env.uuid (b.ticks + 1))
        ⟨some c, some revision⟩ = .ok true :=
      releaseIsApplied_of_goes hc hgoes.durable hfold' hfree hrevision
    have hmirror : (mirrorRelease env name t actor (env.uuid (b.ticks + 1)) reason
        ⟨some c, some revision⟩).run b₁ = (.ok true, b₁.appended st) := by
      unfold mirrorRelease
      rw [run_bind_of_ok hrun, run_get_bind, run_lift_bind, happlied]
      rfl
    refine .of_run (run_tryExcept_of_ok hmirror) ⟨⟨_, h.faults, hgoes.store,
      agentsAt_release h.agents hheld hget _, h.tasks.update (by rw [hheld]; rfl) _⟩,
      fun t' hfolds' x hx howner => ?_⟩
    by_cases ht : t' = t
    · subst ht
      cases hfold''.symm.trans hx
      exact nomatch hfree.1.symm.trans howner
    · have hsame := @Store.fold_congr env.env b₁.store t' st (hgoes.dir t' ht)
        (hgoes.store.legacy.trans h.store.legacy.symm)
      exact hfolds' x (hsame.symm.trans hx) howner
  | error e =>
    -- any other reason raises before the write, so the handler restores the agent file
    have hrun := @run_mirrorRelease_of_error env (b.ticks + 1) b₁ t name revision henv hwrite
      h.faults actor reason e hcard.valid hreason
    have he := validateAbandonReason_ne_killed hreason
    have hnot : releaseIsApplied env { b₁ with ticks := b₁.ticks + 2 } name t
        (env.uuid (b.ticks + 1)) ⟨some c, some revision⟩ = .ok false :=
      releaseIsApplied_of_not_durable (hcard.hasTransition b.ticks.le_succ)
    have hmirror : (mirrorRelease env name t actor (env.uuid (b.ticks + 1)) reason
        ⟨some c, some revision⟩).run b₁ = (.error e, { b₁ with ticks := b₁.ticks + 2 }) := by
      unfold mirrorRelease
      exact run_bind_of_error hrun
    obtain ⟨recovery, hrecover⟩ := @run_recoverStoreFailure env
      { b₁ with ticks := b₁.ticks + 2 } name h.faults hvalid "release_claim" t actor (some a) e
      [(t, env.uuid (b.ticks + 1))]
    have hfailed : (tryExcept (mirrorRelease env name t actor (env.uuid (b.ticks + 1)) reason
          ⟨some c, some revision⟩)
        (releaseFailed env name t actor (env.uuid (b.ticks + 1)) ⟨some c, some revision⟩
          (some a))).run b₁ = (.error e, { b₁ with
        ticks := b₁.ticks + 4
        recovery
        agents := Assoc.set b₁.agents name a }) := by
      rw [run_tryExcept_of_error hmirror he]
      unfold releaseFailed
      rw [run_get_bind, run_lift_bind, hnot]
      dsimp only
      rw [if_neg Bool.false_ne_true, run_bind_of_ok hrecover]
      rfl
    have hrestored := get?_restored b.agents name { a.release t with lastSeen := env.now b.ticks }
    rw [hget] at hrestored
    exact .of_run hfailed ⟨⟨lives, h.faults, h.store.mono (Nat.le_add_right b.ticks 6),
      h.agents.congr hrestored, h.tasks⟩, fun _ hfolds' => hfolds'⟩

/-- `_release_claim_locked`. -/
theorem ends_releaseClaimLocked (hfolds : FoldsRelease env b name t) (actor : String)
    (expected : Option String) (allowMissing : Bool) (reason : Json) :
    Ends (Board.Released env b name)
      (releaseClaimLocked env name t actor expected allowMissing reason) b := by
  have hb : Board.Released env b name b := ⟨⟨lives, h⟩, fun _ hfolds' => hfolds'⟩
  unfold releaseClaimLocked
  refine .get_bind (.lift_bind hb fun found hfound => ?_)
  rw [h.agents.loadAgent hvalid] at hfound
  cases hfound
  cases hget : Assoc.get? b.agents name with
  | none => exact .raise hb
  | some a =>
    dsimp only
    split
    · exact .pure hb
    · rename_i hlists
      have hfile := h.agents.file hget
      have hclaimed : t ∈ a.claimedTasks := by
        by_contra hno
        refine hlists ⟨hno, fun hcur => hno (hfile.current t hcur)⟩
      obtain ⟨revision, hheld⟩ := hfile.claimed t hclaimed
      refine .lift_bind hb fun target htarget => ?_
      obtain ⟨c, hfold, hc, rfl⟩ := releaseTarget_of_held hwrite h.store hheld htarget
      have hsaved : validateAgentName (a.release t).agent = .ok name :=
        (congrArg validateAgentName hfile.agent).trans hvalid
      refine .bind_of_ok (run_saveAgent hsaved) ?_
      exact .bind_of_ok run_drawUuid
        (ends_mirrorRelease henv hwrite h hvalid hget hheld hfold hc hfolds actor reason)

end

/-- `release_claim`. -/
theorem ends_releaseClaim (henv : env.Ticking) (hwrite : env.env.writeEnabled = true)
    (h : b.ShowsAt env lives) (hfolds : FoldsRelease env b name t) (actor : String)
    (expected : Option String) (reason : Json) :
    Ends (Board.Coupled env) (releaseClaim env name t actor expected reason) b := by
  have hb : b.Coupled env := ⟨lives, h⟩
  unfold releaseClaim
  refine .lift_bind hb fun canonical hcanonical => .lift_bind hb fun _ _ => .lift_bind hb
    fun auditActor _ => .get_bind (.lift_bind hb fun _ _ => ?_)
  obtain rfl := validateAgentName_eq hcanonical
  exact (ends_releaseClaimLocked henv hwrite h hcanonical hfolds _ _ _ _).coupled

/-- The releases of `release_stale_claims`, one turn after another. -/
theorem ends_releaseEach (henv : env.Ticking) (hwrite : env.env.writeEnabled = true)
    (hvalid : validateAgentName name = .ok name) : ∀ (released : List String) {b : Board},
    b.Coupled env → (∀ t, FoldsRelease env b name t) →
      Ends (Board.Coupled env) (releaseEach env name released) b
  | [], _, hb, _ => .pure hb
  | t :: released, b, hb, hfolds => by
    obtain ⟨lives, h⟩ := hb
    unfold releaseEach
    refine .get_bind (.lift_bind ⟨lives, h⟩ fun _ _ => ?_)
    have hone := ends_releaseClaimLocked henv hwrite h hvalid (hfolds t) "stale-release" none true
      .null
    refine .bind hone (fun hb' => hb'.coupled) fun changed b' hb' => ?_
    refine .bind (ends_releaseEach henv hwrite hvalid released hb'.coupled
      fun t' => hb'.folds t' (hfolds t')) id fun rest b'' hb'' => .pure hb''

/-- `release_stale_claims`. -/
theorem ends_releaseStaleClaims (henv : env.Ticking) (hwrite : env.env.writeEnabled = true)
    (h : b.ShowsAt env lives) (hfolds : ∀ t, FoldsRelease env b name t) (olderThan : Int) :
    Ends (Board.Coupled env) (releaseStaleClaims env name olderThan) b := by
  have hb : b.Coupled env := ⟨lives, h⟩
  unfold releaseStaleClaims
  refine .lift_bind hb fun canonical hcanonical => .get_bind (.lift_bind hb fun found hfound => ?_)
  obtain rfl := validateAgentName_eq hcanonical
  cases found with
  | none => exact .pure hb
  | some a =>
    have hticked : ({ b with ticks := b.ticks + 1 } : Board).Coupled env :=
      ⟨lives, h.ticks b.ticks.le_succ⟩
    refine .bind_of_ok run_drawNow ?_
    split
    · exact .pure hticked
    · split
      · exact .pure hticked
      · exact .lift_bind hticked fun _ _ =>
          ends_releaseEach henv hwrite hcanonical _ hticked hfolds

end SkCoord
