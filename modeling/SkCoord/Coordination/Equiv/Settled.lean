import SkCoord.CardStore.Equiv.Dated
import SkCoord.Coordination.Equiv.Mirror

/-!
# Boards whose records lie behind the clock

`Board.Settled` says that the events of every card are dated before the clock of the board, and
name no identifier that is still to be drawn.  Every call of the board keeps it, whatever befalls
its writes (`settled_run`), and so do the appends of other callers and the lines of other hosts:
`Board.Reachable` are the boards that such steps lead to, and `Board.Reachable.settled` holds of all
of them.
-/

namespace SkCoord

open Python Effect

/-- Everything recorded lies before the clock, no identifier that is still to be drawn is recorded,
and none of `spent` is one. -/
structure Board.Settled (env : BoardEnv) (spent : List String) (b : Board) : Prop where
  dated : ∀ cardId, validateCardLockIdentifier cardId = .ok cardId →
    b.store.Dated env.env cardId (env.now b.ticks)
  fresh : ∀ cardId k, b.ticks ≤ k → FreshTransition b.store cardId (env.uuid k)
  spent : ∀ t ∈ spent, ∀ k, b.ticks ≤ k → t ≠ env.uuid k

variable {env : BoardEnv} {b b' : Board} {T U : List String} {cardId action agent tid : String}
  {payload : Dict}

namespace Board.Settled

/-- Later, with the same store. -/
theorem congr (henv : env.Ticking) (h : b.Settled env T) (hstore : b'.store = b.store)
    (hticks : b.ticks ≤ b'.ticks) : b'.Settled env T := by
  refine ⟨fun cardId hvalid => ?_, fun cardId k hk => ?_, fun t ht k hk =>
    h.spent t ht k (hticks.trans hk)⟩
  · rw [hstore]
    exact (h.dated cardId hvalid).mono (henv.now.monotone hticks)
  · rw [hstore]
    exact h.fresh cardId k (hticks.trans hk)

theorem mono (h : b.Settled env T) (hsub : ∀ t ∈ U, t ∈ T) : b.Settled env U :=
  ⟨h.dated, h.fresh, fun t ht => h.spent t (hsub t ht)⟩

/-- An identifier that is not to be drawn. -/
theorem spend (h : b.Settled env T) (htid : ∀ k, b.ticks ≤ k → tid ≠ env.uuid k) :
    b.Settled env (tid :: T) := by
  refine ⟨h.dated, h.fresh, fun t ht => ?_⟩
  rcases List.mem_cons.mp ht with rfl | ht
  · exact htid
  · exact h.spent t ht

/-- The identifier that was drawn. -/
theorem drawn (henv : env.Ticking) (h : b.Settled env T) :
    ({ b with ticks := b.ticks + 1 } : Board).Settled env (env.uuid b.ticks :: T) := by
  have hlater : ({ b with ticks := b.ticks + 1 } : Board).Settled env T :=
    h.congr henv rfl (Nat.le_succ _)
  refine hlater.spend fun k hk heq => ?_
  have hticks := henv.uuid heq
  have hle : b.ticks + 1 ≤ k := hk
  omega

end Board.Settled

/-! ### An append -/

/-- A normalised payload has the same stamps and the same transition. -/
theorem normalisePayload_plain {payload' : Dict} (hp : Store.PlainPayload payload)
    (h : Store.normalisePayload env.env action payload = .ok payload') :
    Store.PlainPayload payload' ∧
      Assoc.get? payload' "transition_id" = Assoc.get? payload "transition_id" := by
  unfold Store.normalisePayload at h
  split at h
  · obtain ⟨reason, -, h⟩ := bind_eq_ok.mp h
    rw [← pure_eq_ok.mp h]
    refine ⟨⟨Assoc.nodup_keys_set hp.nodup _ _, fun k hk hmem => ?_⟩,
      Assoc.get?_set_ne _ _ (by decide)⟩
    rcases Assoc.mem_keys_set.mp hmem with rfl | hmem
    · exact absurd hk (by decide)
    · exact hp.stamps k hk hmem
  · rw [← pure_eq_ok.mp h]
    exact ⟨hp, rfl⟩

/-- A line that names another transition. -/
theorem FreshTransition.appendLine {st : Store} {file : String} {e : Event}
    (h : FreshTransition st cardId tid) (he : e.get "transition_id" ≠ .str tid) :
    FreshTransition (st.appendLine cardId file (.value (.obj e))) cardId tid := by
  intro p hp x hx
  rw [Store.dir_appendLine_self] at hp
  rcases Assoc.mem_set hp with rfl | hp
  · rcases List.mem_append.mp hx with hx | hx
    · -- an old line of the file
      cases hget : Assoc.get? (st.dir cardId).logs file with
      | none => rw [hget] at hx; cases hx
      | some lines =>
        rw [hget] at hx
        exact h _ (Assoc.mem_of_get? hget) x hx
    · cases List.mem_singleton.mp hx
      exact he
  · exact h p hp x hx

/-- One more line on a board whose clock has passed it. -/
theorem Board.Settled.appendLine (henv : env.Ticking) (h : b.Settled env T) {file : String}
    {e : Event} {t : String} (hstamp : Store.Stamped e t) (hticks : b.ticks ≤ b'.ticks)
    (ht : t < env.now b'.ticks)
    (hprev : Dict.get e "prev_hash" =
      .str (((b.store.logLines cardId file).getLast?.map env.env.lineHash).getD ""))
    (htid : ∀ k, b'.ticks ≤ k → e.get "transition_id" ≠ .str (env.uuid k))
    (hstore : b'.store = b.store.appendLine cardId file (.value (.obj e))) :
    b'.Settled env T := by
  refine ⟨fun other hvalid => ?_, fun other k hk => ?_, fun t ht k hk =>
    h.spent t ht k (hticks.trans hk)⟩
  · rw [hstore]
    have hle := henv.now.monotone hticks
    by_cases heq : other = cardId
    · rw [heq] at hvalid ⊢
      exact (h.dated cardId hvalid).appendLine hstamp hle ht hprev
    · exact ((h.dated other hvalid).mono hle).congr
        (congrArg _ (Store.dir_appendLine_of_ne heq)) rfl
  · have hold := h.fresh other k (hticks.trans hk)
    rw [hstore]
    by_cases heq : other = cardId
    · rw [heq] at hold ⊢
      exact hold.appendLine (htid k hk)
    · exact fun p hp => hold p (Store.dir_appendLine_of_ne heq ▸ hp)

/-- A payload that leaves the stamps alone and names no transition but one of `T`. -/
structure SpentPayload (T : List String) (payload : Dict) : Prop where
  plain : Store.PlainPayload payload
  transition : ∀ tid, Assoc.get? payload "transition_id" = some (.str tid) → tid ∈ T

/-- A payload by its keys. -/
theorem SpentPayload.of_keys (ks : List String) (hkeys : Assoc.keys payload = ks)
    (hnodup : ks.Nodup)
    (hstamps : ∀ k ∈ ["ts", "writer", "seq", "action", "prev_hash"], k ∉ ks)
    (htransition : Assoc.get? payload "transition_id" = some (.str tid)) (hspent : tid ∈ T) :
    SpentPayload T payload := by
  refine ⟨⟨hkeys ▸ hnodup, hkeys ▸ hstamps⟩, fun x hx => ?_⟩
  cases htransition.symm.trans hx
  exact hspent

/-- An append keeps the board settled, whether it raises, replays or writes. -/
theorem keeps_appendCardEvent (henv : env.Ticking) (hp : SpentPayload T payload) :
    Keeps (Board.Settled env T) (appendCardEvent env cardId action agent payload) := by
  intro b hb
  cases h : b.store.appendEvent env.env cardId action agent payload
      ⟨env.uuid b.ticks, env.now (b.ticks + 1)⟩ with
  | error e =>
    rw [run_appendCardEvent_of_error h]
    exact hb.congr henv rfl (Nat.le_add_right _ 2)
  | ok r =>
    obtain ⟨st, e⟩ := r
    rw [run_appendCardEvent_of_ok h]
    obtain ⟨payload', hnorm, -, -, h⟩ := Store.appendEvent_eq_ok h
    obtain ⟨hp', htid⟩ := normalisePayload_plain hp.plain hnorm
    rcases h with ⟨-, hst⟩ | ⟨-, he, hst⟩
    · exact hb.congr henv hst (Nat.le_add_right _ 2)
    · have hlt : env.now (b.ticks + 1) < env.now (b.ticks + 2) := henv.now (Nat.lt_succ_self _)
      refine hb.appendLine henv (he ▸ hp'.stamped) (Nat.le_add_right _ 2) hlt
        (he ▸ hp'.get_prevHash) (fun k hk heq => ?_) hst
      have hget : Assoc.get? payload "transition_id" = some (.str (env.uuid k)) := by
        rw [he, Dict.get, hp'.get?_newEvent, htid] at heq
        cases hget : Assoc.get? payload "transition_id" with
        | none => rw [hget] at heq; cases heq
        | some v => rw [hget] at heq; exact congrArg some heq
      exact hb.spent _ (hp.transition _ hget) k ((Nat.le_add_right _ 2).trans hk) rfl

/-! ### Draws and writes -/

theorem run_writing_eq (x : Effect Board Unit) (b : Board) :
    (writing x).run b = match b.faults with
      | [] => x.run b
      | none :: faults => x.run { b with faults }
      | some f :: faults =>
        (if f.took then x >>= fun _ => .raise f.error else .raise f.error).run { b with faults } :=
  rfl

/-- A write that returned consumed no fault that raises. -/
theorem run_writing_eq_ok {x : Effect Board Unit} (h : (writing x).run b = (.ok (), b')) :
    ∃ faults, x.run { b with faults } = (.ok (), b') := by
  rw [run_writing_eq] at h
  split at h
  · exact ⟨b.faults, h⟩
  · exact ⟨_, h⟩
  · rename_i f faults _
    cases hf : f.took with
    | true =>
      rw [hf, if_pos rfl] at h
      obtain ⟨_, _, -, h⟩ := run_bind_eq_ok.mp h
      cases h
    | false =>
      rw [hf] at h
      cases h

section

variable {α : Type} (henv : env.Ticking)

include henv

/-- A board with the same store and clock is as settled. -/
theorem keeps_modify {f : Board → Board} (hf : ∀ b, (f b).store = b.store ∧ (f b).ticks = b.ticks) :
    Keeps (Board.Settled env T) (Effect.modify f) :=
  fun b hb => hb.congr henv (hf b).1 (hf b).2.ge

theorem keeps_drawNow : Keeps (Board.Settled env T) (drawNow env) :=
  fun _ hb => hb.congr henv rfl (Nat.le_succ _)

/-- Behind a draw one more identifier is spent. -/
theorem keeps_drawUuid_bind {f : String → Effect Board α}
    (hf : ∀ tid, Keeps (Board.Settled env (tid :: T)) (f tid)) :
    Keeps (Board.Settled env T) (drawUuid env >>= f) := by
  intro b hb
  rw [run_bind_of_ok run_drawUuid]
  exact (hf _ _ (hb.drawn henv)).mono fun _ ht => List.mem_cons_of_mem _ ht

/-- A spent identifier stays the one it is, and a drawn one is spent. -/
theorem keeps_orUuid_bind {f : String → Effect Board α}
    (hf : ∀ t U, (∀ x ∈ T, x ∈ U) → (tid ∈ T → t ∈ U) → Keeps (Board.Settled env U) (f t)) :
    Keeps (Board.Settled env T) (orUuid env tid >>= f) := by
  by_cases hempty : tid = ""
  · have hdraw : orUuid env tid = drawUuid env := by
      unfold orUuid
      rw [if_pos hempty]
    rw [hdraw]
    exact keeps_drawUuid_bind henv fun t =>
      hf t _ (fun _ hx => List.mem_cons_of_mem _ hx) fun _ => List.mem_cons_self
  · rw [orUuid_of_ne hempty]
    exact hf tid T (fun _ hx => hx) id

/-- A write that consumes a fault keeps what it would keep without one. -/
theorem keeps_writing {x : Effect Board Unit} (hx : Keeps (Board.Settled env T) x) :
    Keeps (Board.Settled env T) (writing x) := by
  intro b hb
  have hnext : ∀ faults, ({ b with faults } : Board).Settled env T :=
    fun faults => hb.congr henv rfl le_rfl
  rw [run_writing_eq]
  split
  · exact hx b hb
  · exact hx _ (hnext _)
  · rename_i f faults _
    cases f.took
    · exact hnext faults
    · exact (hx.bind fun _ => keeps_raise f.error) _ (hnext faults)

theorem keeps_mirrorCardStore {x : Effect Board Unit} (hx : Keeps (Board.Settled env T) x) :
    Keeps (Board.Settled env T) (mirrorCardStore env x) := by
  unfold mirrorCardStore
  split
  · exact keeps_writing henv hx
  · exact keeps_pure ()

/-! ### The mirror calls -/

theorem keeps_mirrorCoordClaim {revision : String} (htid : tid ∈ T) :
    Keeps (Board.Settled env T) (mirrorCoordClaim env cardId agent tid revision) :=
  keeps_orUuid_bind henv fun _ U hsub _ => keeps_orUuid_bind henv fun t V _ hspent =>
    keeps_appendCardEvent henv (.of_keys ["owner", "claim_revision", "transition_id"] rfl
      (by decide) (by decide) rfl (hspent (hsub _ htid)))

theorem keeps_mirrorCoordComplete (htid : tid ∈ T) :
    Keeps (Board.Settled env T) (mirrorCoordComplete env cardId agent tid) :=
  keeps_orUuid_bind henv fun t U _ hspent =>
    keeps_appendCardEvent henv (.of_keys ["transition_id"] rfl (by decide) (by decide) rfl
      (hspent htid))

theorem keeps_mirrorCoordMove {column : String} {order : Json} (htid : tid ∈ T) :
    Keeps (Board.Settled env T) (mirrorCoordMove env cardId column agent order tid) :=
  keeps_orUuid_bind henv fun t U _ hspent =>
    keeps_appendCardEvent henv (.of_keys ["column", "order", "transition_id"] rfl (by decide)
      (by decide) rfl (hspent htid))

theorem keeps_mirrorCoordRelease {owner : String} {expected : Option String} {reason : Json}
    (htid : tid ∈ T) :
    Keeps (Board.Settled env T)
      (mirrorCoordRelease env cardId owner agent expected tid reason) := by
  unfold mirrorCoordRelease
  split
  · exact keeps_pure ()
  · exact keeps_orUuid_bind henv fun t U _ hspent =>
      keeps_appendCardEvent henv (.of_keys
        ["released_owner", "expected_claim_revision", "transition_id", "abandon_reason"] rfl
        (by decide) (by decide) rfl (hspent htid))

theorem keeps_mirrorDemote (htid : tid ∈ T) :
    Keeps (Board.Settled env T) (mirrorDemote env cardId agent tid) :=
  keeps_mirrorCardStore henv (keeps_mirrorCoordMove henv htid)

/-- A card that is new has no events. -/
theorem keeps_inCreation (core : CardCore) :
    Keeps (Board.Settled env T) (inCreation (create env.creation .ok .ok core)) := by
  intro b hb
  rw [run_inCreation]
  have hrun := run_create env.creation b.creation core
  revert hrun
  generalize (create env.creation .ok .ok core).run b.creation = r
  rintro (⟨e⟩ | ⟨old, -⟩ | ⟨hvalid, habsent⟩)
  · exact hb.congr henv rfl le_rfl
  · exact hb.congr henv rfl le_rfl
  · have hlogs : ∀ cardId, ((b.store.setCore core).dir cardId).logs =
        (b.store.dir cardId).logs := by
      intro cardId
      by_cases heq : cardId = core.id
      · rw [heq, Store.dir_setCore_self]
      · rw [Store.dir_setCore_of_ne _ heq]
    refine ⟨fun cardId hvalid => (hb.dated cardId hvalid).congr (hlogs cardId) rfl,
      fun cardId k hk p hp => ?_, hb.spent⟩
    rw [show ({ b with creation := { b.creation with store := b.creation.store.setCore core } } :
      Board).store = b.store.setCore core from rfl, hlogs] at hp
    exact hb.fresh cardId k hk p hp

/-! ### Files and recovery -/

theorem keeps_saveAgent (a : AgentFile) : Keeps (Board.Settled env T) (saveAgent env a) := by
  refine (keeps_drawNow henv).bind fun lastSeen => (keeps_lift _).bind fun name => ?_
  refine Keeps.bind (keeps_modify henv fun b => ?_) fun _ => keeps_pure _
  exact ⟨rfl, rfl⟩

theorem keeps_writeTask (task : Task) : Keeps (Board.Settled env T) (writeTask env task) :=
  keeps_modify henv fun _ => ⟨rfl, rfl⟩

theorem keeps_restoreAgentProjection (name : String) (original : Option AgentFile) :
    Keeps (Board.Settled env T) (restoreAgentProjection name original) :=
  (keeps_lift _).bind fun _ => keeps_writing henv (keeps_modify henv fun _ => ⟨rfl, rfl⟩)

theorem keeps_appendReleaseRecovery (r : RecoveryRecord) :
    Keeps (Board.Settled env T) (appendReleaseRecovery r) :=
  keeps_writing henv (keeps_modify henv fun _ => ⟨rfl, rfl⟩)

theorem keeps_recoverStoreFailure {operation owner actor : String} {original : Option AgentFile}
    {e : PyError} {transitions : List (String × String)} :
    Keeps (Board.Settled env T)
      (recoverStoreFailure env operation cardId owner actor original e transitions) := by
  intro b hb
  refine (keeps_drawUuid_bind henv fun recordId => ?_) b hb
  refine (keeps_drawNow henv).bind fun recordedAt => ?_
  have hrestore := keeps_restoreAgentProjection (T := recordId :: T) henv owner original
  refine ((keeps_appendReleaseRecovery henv _).tryExcept fun _ =>
    (hrestore.tryExcept fun _ => keeps_raise _).bind fun _ => keeps_raise _).bind fun _ => ?_
  exact (hrestore.tryExcept fun _ =>
    (keeps_appendReleaseRecovery henv _).bind fun _ => keeps_raise _).bind fun _ =>
      keeps_appendReleaseRecovery henv _

theorem keeps_compensateRelease {owner revision : String} (htid : tid ∈ T) :
    Keeps (Board.Settled env T) (compensateRelease env cardId owner revision tid) := by
  refine (keeps_mirrorCardStore henv (keeps_mirrorCoordRelease henv htid)).tryExcept fun e => ?_
  refine keeps_get.bind fun b => (keeps_lift _).bind fun applied => ?_
  split
  · exact keeps_pure ()
  · exact keeps_raise e

theorem keeps_compensateClaim (snapshot : Card) :
    Keeps (Board.Settled env T) (compensateClaim env cardId snapshot) := by
  unfold compensateClaim
  split
  · exact keeps_drawUuid_bind henv fun transition => keeps_drawUuid_bind henv fun revision =>
      (keeps_mirrorCardStore henv (keeps_mirrorCoordClaim henv
        (List.mem_cons_of_mem _ List.mem_cons_self))).bind fun _ => keeps_pure _
  · exact keeps_pure _
  · exact keeps_raise _

theorem keeps_compensateMove (owner : String) (snapshot : Card) :
    Keeps (Board.Settled env T) (compensateMove env cardId owner snapshot) := by
  refine keeps_get.bind fun b => (keeps_lift _).bind fun restored => ?_
  split
  · exact keeps_raise _
  · split
    · exact keeps_drawUuid_bind henv fun transition => (keeps_mirrorCardStore henv
        (keeps_mirrorCoordMove henv List.mem_cons_self)).bind fun _ => keeps_pure _
    · exact keeps_pure _

theorem keeps_compensatePartialClaim {owner revision : String} {snapshot : Option Card} :
    Keeps (Board.Settled env T)
      (compensatePartialClaim env cardId owner revision tid snapshot) := by
  unfold compensatePartialClaim
  split
  · exact keeps_pure _
  · refine keeps_get.bind fun b => (keeps_lift _).bind fun durable => ?_
    split
    · refine (keeps_lift _).bind fun current => ?_
      split
      · refine keeps_drawUuid_bind henv fun transition => ?_
        refine (keeps_compensateRelease henv List.mem_cons_self).bind fun _ => ?_
        refine (keeps_compensateClaim henv _).bind fun _ => ?_
        refine (keeps_compensateMove henv _ _).bind fun _ => ?_
        refine keeps_get.bind fun b => (keeps_lift _).bind fun restored => ?_
        split
        · exact keeps_pure _
        · exact keeps_raise _
      · exact keeps_pure _
    · exact keeps_pure _

/-! ### The calls -/

theorem keeps_claimInProjection {drop : Bool} :
    Keeps (Board.Settled env T) (claimInProjection env agent cardId drop) :=
  keeps_get.bind fun _ => (keeps_lift _).bind fun _ => (keeps_lift _).bind fun _ =>
    (keeps_saveAgent henv _).bind fun _ => keeps_pure _

theorem keeps_completeInProjection :
    Keeps (Board.Settled env T) (completeInProjection env agent cardId) :=
  keeps_get.bind fun _ => (keeps_lift _).bind fun _ => keeps_saveAgent henv _

theorem keeps_reclaimTask {current original : Option AgentFile} :
    Keeps (Board.Settled env T) (reclaimTask env agent cardId current original) := by
  refine keeps_get.bind fun b => (keeps_lift _).bind fun bumpedCard => ?_
  refine (keeps_claimInProjection henv).bind fun r => ?_
  split
  · exact keeps_pure _
  · split
    · refine keeps_drawUuid_bind henv fun transition => ?_
      refine ((keeps_mirrorDemote henv List.mem_cons_self).bind fun _ =>
        keeps_pure _).tryExcept fun e => ?_
      refine keeps_get.bind fun b => (keeps_lift _).bind fun applied => ?_
      split
      · exact keeps_pure _
      · exact (keeps_recoverStoreFailure henv).bind fun _ => keeps_raise e
    · exact keeps_pure _

theorem keeps_claimFailed {revision : String} {demoted : Option (String × String)}
    {snapshot : Option Card} {original : Option AgentFile} {a : AgentFile} {e : PyError} :
    Keeps (Board.Settled env T)
      (claimFailed env agent cardId revision tid demoted snapshot original a e) := by
  refine keeps_get.bind fun b => (keeps_lift _).bind fun applied => ?_
  split
  · exact keeps_pure _
  · refine Keeps.bind ?_ fun compensation =>
      (keeps_recoverStoreFailure henv).bind fun _ => keeps_raise e
    split
    · exact (keeps_compensatePartialClaim henv).tryExcept fun _ =>
        (keeps_recoverStoreFailure henv).bind fun _ => keeps_raise _
    · exact keeps_pure _

theorem keeps_claimFresh {current original : Option AgentFile} {snapshot : Option Card} :
    Keeps (Board.Settled env T) (claimFresh env agent cardId current original snapshot) := by
  refine keeps_get.bind fun b => (keeps_lift _).bind fun bumpedCard => ?_
  refine (keeps_claimInProjection henv).bind fun r => ?_
  refine keeps_drawUuid_bind henv fun claimTransition => ?_
  refine keeps_drawUuid_bind henv fun claimRevision => ?_
  have hmirror (demoted : Option (String × String)) (U : List String) (hU : claimTransition ∈ U)
      (hdemoted : ∀ p ∈ demoted, p.2 ∈ U) : Keeps (Board.Settled env U)
      (Effect.tryExcept
        (do
          mirrorCardStore env (mirrorCoordClaim env cardId agent claimTransition claimRevision)
          mirrorDemoted env agent demoted
          pure r.1)
        (claimFailed env agent cardId claimRevision claimTransition demoted snapshot original
          r.1)) := by
    refine Keeps.tryExcept ?_ fun e => keeps_claimFailed henv
    refine (keeps_mirrorCardStore henv (keeps_mirrorCoordClaim henv hU)).bind fun _ => ?_
    refine Keeps.bind ?_ fun _ => keeps_pure _
    unfold mirrorDemoted
    split
    · exact keeps_mirrorDemote henv (hdemoted _ rfl)
    · exact keeps_pure _
  split
  · intro b hb
    have hdraw : (drawUuid env >>= fun transition => pure (some (r.2.getD "", transition))).run b =
        (.ok (some (r.2.getD "", env.uuid b.ticks)), { b with ticks := b.ticks + 1 }) := rfl
    rw [run_bind_of_ok hdraw]
    refine (hmirror _ _ (by simp) (fun p hp => ?_) _ (hb.drawn henv)).mono fun t ht =>
      List.mem_cons_of_mem _ ht
    cases hp
    exact List.mem_cons_self
  · exact hmirror none _ (by simp) fun p hp => nomatch hp

theorem keeps_claimTask : Keeps (Board.Settled env T) (claimTask env agent cardId) := by
  refine (keeps_lift _).bind fun canonical => (keeps_lift _).bind fun _ => ?_
  refine keeps_get.bind fun b => (keeps_lift _).bind fun _ => (keeps_lift _).bind fun current => ?_
  refine (keeps_lift _).bind fun _ => (keeps_lift _).bind fun snapshot => ?_
  split
  · split
    · exact keeps_pure _
    · exact keeps_reclaimTask henv
  · exact keeps_claimFresh henv

theorem keeps_releaseClaimLocked {owner actor : String} {expected : Option String} {allow : Bool}
    {reason : Json} :
    Keeps (Board.Settled env T)
      (releaseClaimLocked env owner cardId actor expected allow reason) := by
  refine keeps_get.bind fun b => (keeps_lift _).bind fun found => ?_
  split
  · exact keeps_raise _
  · split
    · exact keeps_pure _
    · refine (keeps_lift _).bind fun target => (keeps_saveAgent henv _).bind fun _ => ?_
      split
      · exact keeps_pure _
      · refine keeps_drawUuid_bind henv fun transition => Keeps.tryExcept ?_ fun e => ?_
        · refine (keeps_mirrorCardStore henv
            (keeps_mirrorCoordRelease henv List.mem_cons_self)).bind fun _ => ?_
          refine keeps_get.bind fun b => (keeps_lift _).bind fun applied => ?_
          split
          · exact keeps_pure _
          · exact keeps_raise _
        · refine keeps_get.bind fun b => (keeps_lift _).bind fun applied => ?_
          split
          · exact keeps_pure _
          · exact (keeps_recoverStoreFailure henv).bind fun _ => keeps_raise e

theorem keeps_releaseClaim {owner actor : String} {expected : Option String} {reason : Json} :
    Keeps (Board.Settled env T) (releaseClaim env owner cardId actor expected reason) :=
  (keeps_lift _).bind fun _ => (keeps_lift _).bind fun _ => (keeps_lift _).bind fun _ =>
    keeps_get.bind fun _ => (keeps_lift _).bind fun _ => keeps_releaseClaimLocked henv

theorem keeps_releaseEach (owner : String) :
    ∀ released, Keeps (Board.Settled env T) (releaseEach env owner released)
  | [] => keeps_pure _
  | _ :: released => keeps_get.bind fun _ => (keeps_lift _).bind fun _ =>
      (keeps_releaseClaimLocked henv).bind fun _ =>
        (keeps_releaseEach owner released).bind fun _ => keeps_pure _

theorem keeps_releaseStaleClaims {olderThan : Int} :
    Keeps (Board.Settled env T) (releaseStaleClaims env agent olderThan) := by
  refine (keeps_lift _).bind fun canonical => keeps_get.bind fun b => ?_
  refine (keeps_lift _).bind fun found => ?_
  split
  · exact keeps_pure _
  · refine (keeps_drawNow henv).bind fun now => ?_
    split
    · exact keeps_pure _
    · split
      · exact keeps_pure _
      · exact (keeps_lift _).bind fun _ => keeps_releaseEach henv _ _

theorem keeps_completeTask {precondition : Except PyError Unit} :
    Keeps (Board.Settled env T) (completeTask env agent cardId precondition) := by
  refine (keeps_lift _).bind fun canonical => (keeps_lift _).bind fun _ => ?_
  refine keeps_get.bind fun b => (keeps_lift _).bind fun _ => (keeps_lift _).bind fun _ => ?_
  split
  · exact keeps_pure _
  · refine (keeps_lift _).bind fun incomplete => ?_
    split
    · exact keeps_raise _
    · refine (keeps_lift _).bind fun _ => (keeps_completeInProjection henv).bind fun a => ?_
      refine keeps_drawUuid_bind henv fun transition => Keeps.bind ?_ fun _ => keeps_pure _
      refine (keeps_mirrorCardStore henv
        (keeps_mirrorCoordComplete henv List.mem_cons_self)).tryExcept fun e => ?_
      refine keeps_get.bind fun b => (keeps_lift _).bind fun applied => ?_
      split
      · exact keeps_pure _
      · exact (keeps_recoverStoreFailure henv).bind fun _ => keeps_raise e

theorem keeps_createTask (task : Task) : Keeps (Board.Settled env T) (createTask env task) :=
  (keeps_mirrorCardStore henv ((keeps_inCreation henv _).bind fun _ => keeps_pure _)).bind fun _ =>
    (keeps_writeTask henv task).bind fun _ => keeps_pure _

theorem keeps_createClaimedTask (task : Task) :
    Keeps (Board.Settled env T) (createClaimedTask env task agent) := by
  have hcreate (owner : String) :
      Keeps (Board.Settled env T) (mirrorCoordCreateClaimed env task owner) := by
    refine keeps_get.bind fun b => (keeps_lift _).bind fun existing => ?_
    split
    · dsimp only
      split
      · exact keeps_raise _
      · refine (keeps_lift _).bind fun card => ?_
        split
        · exact keeps_pure _
        · exact keeps_raise _
    · refine keeps_drawUuid_bind henv fun revision => (keeps_inCreation henv _).bind fun _ => ?_
      refine keeps_get.bind fun b => (keeps_lift _).bind fun created => ?_
      split
      · exact keeps_pure _
      · exact keeps_raise _
  refine (keeps_lift _).bind fun canonical => ?_
  split
  · refine keeps_get.bind fun b => (keeps_lift _).bind fun _ => (keeps_lift _).bind fun _ => ?_
    refine (hcreate canonical).bind fun revision => (keeps_writeTask henv task).bind fun _ => ?_
    refine (keeps_claimInProjection henv).bind fun r => Keeps.bind ?_ fun _ => ?_
    · split
      · exact keeps_pure _
      · exact keeps_drawUuid_bind henv fun _ => keeps_mirrorDemote henv List.mem_cons_self
    · refine keeps_get.bind fun b => (keeps_lift _).bind fun card => ?_
      split
      · exact keeps_pure _
      · exact keeps_raise _
  · exact keeps_raise _

/-- A call keeps the board settled, whether it returns or raises. -/
theorem settled_run (h : b.Settled env T) (call : BoardCall) : (call.run env b).Settled env T := by
  cases call with
  | createTask task => exact keeps_createTask henv task b h
  | createClaimedTask task agentName => exact keeps_createClaimedTask henv task b h
  | claimTask agentName taskId => exact keeps_claimTask henv b h
  | releaseClaim owner taskId actor expected reason => exact keeps_releaseClaim henv b h
  | releaseStaleClaims agent olderThan => exact keeps_releaseStaleClaims henv b h
  | completeTask agentName taskId precondition => exact keeps_completeTask henv b h

end

/-! ### Reachable boards -/

/-- A store with one more legacy mutation of a card. -/
def Store.addLegacy (st : Store) (cardId : String) (m : LegacyMutation) : Store :=
  { st with
    legacy := Assoc.set st.legacy cardId ((Assoc.get? st.legacy cardId).getD [] ++ [m]) }

/-- The boards that calls, events of other callers, lines of other hosts, mutations of the overlay
and changes of the files lead to, from boards on which no event is recorded. -/
inductive Board.Reachable (env : BoardEnv) : Board → Prop where
  | start (b : Board) (hlogs : ∀ cardId, (b.store.dir cardId).logs = [])
    (hlegacy : b.store.legacy = []) : Board.Reachable env b
  | call (b : Board) (call : BoardCall) (h : Board.Reachable env b) :
    Board.Reachable env (call.run env b)
  | append (b : Board) (cardId action agent : String) (payload : Dict)
    (hp : Store.PlainPayload payload)
    (htid : ∀ k, b.ticks ≤ k → Assoc.get? payload "transition_id" ≠ some (.str (env.uuid k)))
    (h : Board.Reachable env b) :
    Board.Reachable env ((appendCardEvent env cardId action agent payload).run b).2
  | line (b : Board) (cardId file t : String) (e : Event) (hstamp : Store.Stamped e t)
    (ht : t < env.now b.ticks)
    (hprev : Dict.get e "prev_hash" =
      .str (((b.store.logLines cardId file).getLast?.map env.env.lineHash).getD ""))
    (htid : ∀ k, b.ticks ≤ k → e.get "transition_id" ≠ .str (env.uuid k))
    (h : Board.Reachable env b) :
    Board.Reachable env (b.setStore (b.store.appendLine cardId file (.value (.obj e))))
  | legacy (b : Board) (cardId t : String) (m : LegacyMutation)
    (hstamp : Store.Stamped m.toEvent t) (ht : t < env.now b.ticks) (h : Board.Reachable env b) :
    Board.Reachable env (b.setStore (b.store.addLegacy cardId m))
  | files (b b' : Board) (hstore : b'.store = b.store) (hticks : b.ticks ≤ b'.ticks)
    (h : Board.Reachable env b) : Board.Reachable env b'

/-- A board on which nothing is recorded. -/
theorem settled_of_nothing (hlogs : ∀ cardId, (b.store.dir cardId).logs = [])
    (hlegacy : b.store.legacy = []) : b.Settled env [] := by
  refine ⟨fun cardId hvalid => Store.dated_of_nothing hvalid (hlogs cardId) ?_,
    fun cardId k _ p hp => ?_, fun t ht => nomatch ht⟩
  · unfold Store.legacyEvents
    rw [hlegacy]
    rfl
  · rw [hlogs] at hp
    cases hp

/-- An overlay mutation that the clock has passed. -/
theorem Board.Settled.addLegacy (h : b.Settled env T) {t : String} {m : LegacyMutation}
    (hstamp : Store.Stamped m.toEvent t) (ht : t < env.now b.ticks) :
    (b.setStore (b.store.addLegacy cardId m)).Settled env T := by
  refine ⟨fun other hvalid => ?_, h.fresh, h.spent⟩
  have hdated := h.dated other hvalid
  refine ⟨hdated.valid, hdated.readable, hdated.lines, fun e he => ?_⟩
  obtain ⟨x, hx, rfl⟩ := List.mem_map.mp he
  have hold : ∀ x ∈ (Assoc.get? b.store.legacy other).getD [],
      ∃ t, Store.Stamped x.toEvent t ∧ t < env.now b.ticks :=
    fun x hx => hdated.legacy _ (List.mem_map_of_mem hx)
  have hlegacy : (b.setStore (b.store.addLegacy cardId m)).store.legacy =
      Assoc.set b.store.legacy cardId ((Assoc.get? b.store.legacy cardId).getD [] ++ [m]) := rfl
  rw [hlegacy] at hx
  by_cases heq : other = cardId
  · subst heq
    rw [Assoc.get?_set_self, Option.getD_some] at hx
    rcases List.mem_append.mp hx with hx | hx
    · exact hold x hx
    · exact ⟨t, List.mem_singleton.mp hx ▸ hstamp, ht⟩
  · rw [Assoc.get?_set_ne _ _ heq] at hx
    exact hold x hx

/-- **The records of a reachable board** lie behind its clock. -/
theorem Board.Reachable.settled (henv : env.Ticking) (h : b.Reachable env) :
    b.Settled env [] := by
  induction h with
  | start b hlogs hlegacy => exact settled_of_nothing hlogs hlegacy
  | call b call _ ih => exact settled_run henv ih call
  | append b cardId action agent payload hp htid _ ih =>
    -- the transition of the payload, if it names one, counts as spent
    by_cases hnamed : ∃ tid, Assoc.get? payload "transition_id" = some (.str tid)
    · obtain ⟨tid, hget⟩ := hnamed
      have hspent : b.Settled env [tid] := by
        refine ih.spend fun k hk heq => htid k hk ?_
        rw [hget, heq]
      refine (keeps_appendCardEvent henv ⟨hp, fun t ht => ?_⟩ b hspent).mono fun t ht => nomatch ht
      cases hget.symm.trans ht
      exact List.mem_singleton_self tid
    · exact keeps_appendCardEvent henv ⟨hp, fun t ht => (hnamed ⟨t, ht⟩).elim⟩ b ih
  | line b cardId file t e hstamp ht hprev htid _ ih =>
    exact ih.appendLine henv hstamp le_rfl ht hprev htid rfl
  | legacy b cardId t m hstamp ht _ ih => exact ih.addLegacy hstamp ht
  | files b b' hstore hticks _ ih => exact ih.congr henv hstore hticks

end SkCoord
