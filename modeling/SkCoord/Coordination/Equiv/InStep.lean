import SkCoord.CardStore.Equiv.CreateOnce
import SkCoord.Coordination.Equiv.Creations
import SkCoord.Coordination.Equiv.Releases

/-!
# The two boards stay in step

`coupled_run`: a call that keeps step leaves boards that show the same lives, whether it returns or
raises.  `boards_in_step` is the run of such calls from an empty board; `conflict_copy_claims` is a
claim that does not keep step.
-/

namespace SkCoord

open Python

variable {env : BoardEnv} {b : Board} {lives : Lives} {life : Life}

/-! ### Boards that show the same lives -/

/-- What shows one life agrees. -/
theorem agreesWith_of_shows {v : TaskView} {c : Card} (hv : v.Shows life) (hc : c.Shows life) :
    v.AgreesWith c := by
  cases life with
  | free => exact ⟨by rw [hv.1, hc.2]; rfl, by rw [hv.2, hc.1]; rfl⟩
  | held owner revision =>
    refine ⟨?_, by rw [hv.2, hc.1]; rfl⟩
    rcases hv.1 with hs | hs <;> rcases hc.2.1 with hc | hc <;> rw [hs, hc] <;> rfl
  | done => exact ⟨by rw [hv.1, hc.2]; rfl, by rw [hv.2, hc.1]; rfl⟩

/-- A card with a core is a task that there is. -/
theorem StoreAt.isSome_of_exists {n : ℕ} {st : Store} (h : StoreAt env n st lives)
    {cardId : String} (hcore : (st.dir cardId).core.exists = true) :
    (lives cardId).isSome = true := by
  by_contra hnone
  rw [h.dir_of_none (Option.not_isSome_iff_eq_none.mp hnone)] at hcore
  cases hcore

/-- Coupled boards are in step. -/
theorem Board.Coupled.inStep (hb : b.Coupled env) (includeArchived : Bool) :
    ∃ views, b.InStep env includeArchived views := by
  obtain ⟨lives, h⟩ := hb
  obtain ⟨views, hread, hat⟩ := legacyTaskViews_at h.store h.agents h.tasks (fun _ => id)
    includeArchived
  refine ⟨views, hread, fun v hv => ?_, fun cardId hcore =>
    hat.covers cardId (h.store.isSome_of_exists hcore)⟩
  obtain ⟨life, hlife, hshows⟩ := hat.shows v hv
  obtain ⟨c, hfold, -, hc⟩ := h.store.fold hlife
  exact ⟨c, hfold, agreesWith_of_shows hshows hc⟩

/-! ### Runs of calls -/

/-- An empty board is coupled. -/
theorem coupled_empty : Board.Coupled env {} :=
  ⟨fun _ => none, rfl, storeAt_empty, agentsAt_empty, tasksAt_empty⟩

section

variable (henv : env.Ticking) (hwrite : env.env.writeEnabled = true)

include henv hwrite

/-- **One call** that keeps step leaves coupled boards. -/
theorem coupled_run (hb : b.Coupled env) {call : BoardCall} (hkeeps : call.KeepsStep env b) :
    (call.run env b).Coupled env := by
  obtain ⟨lives, h⟩ := hb
  cases call with
  | createTask task => exact ends_createTask hwrite h hkeeps
  | createClaimedTask task agentName =>
    exact ends_createClaimedTask henv hwrite h hkeeps.1 hkeeps.2
  | claimTask agentName taskId => exact ends_claimTask henv hwrite h hkeeps
  | releaseClaim owner taskId actor expected reason =>
    exact ends_releaseClaim henv hwrite h hkeeps actor expected reason
  | releaseStaleClaims agent olderThan =>
    exact ends_releaseStaleClaims henv hwrite h hkeeps olderThan
  | completeTask agentName taskId precondition =>
    exact ends_completeTask henv hwrite h hkeeps precondition

/-- Calls that keep step, one after another. -/
theorem coupled_runBoard : ∀ (calls : List BoardCall) {b : Board}, b.Coupled env →
    AllKeepStep env b calls → (runBoard env b calls).Coupled env
  | [], _, hb, _ => hb
  | call :: calls, b, hb, hkeep => by
    unfold runBoard
    rw [List.foldl_cons]
    exact coupled_runBoard calls (coupled_run henv hwrite hb hkeep.1) hkeep.2

/-- **The two boards stay in step**: after any calls that keep step, those that raise included, the
projection of the task and agent files has a view of every card, and every view agrees with the fold
of its card on the bucket of the status and on the owner. -/
theorem boards_in_step (calls : List BoardCall) (hkeep : AllKeepStep env {} calls)
    (includeArchived : Bool) :
    ∃ views, (runBoard env {} calls).InStep env includeArchived views :=
  (coupled_runBoard henv hwrite calls coupled_empty hkeep).inStep includeArchived

end

/-! ### Two runs -/

/-- A clock and identifiers that count in unary. -/
def unaryEnv : BoardEnv where
  creation := titledEnv
  tables := asciiTables
  readEnabled := true
  now := fun n => String.ofList (List.replicate n 'a')
  uuid := fun n => String.ofList (List.replicate (n + 1) 'u')
  age := fun _ _ => none

theorem unaryEnv_ticking : unaryEnv.Ticking := by
  refine ⟨strictMono_unary, fun m n h => ?_, fun n h => ?_⟩
  · have hlength := congrArg (fun s : String => s.toList.length) h
    dsimp only [unaryEnv] at hlength
    rw [String.toList_ofList, String.toList_ofList, List.length_replicate,
      List.length_replicate] at hlength
    exact Nat.succ.inj hlength
  · have hlength := congrArg (fun s : String => s.toList.length) h
    dsimp only [unaryEnv] at hlength
    rw [String.toList_ofList, List.length_replicate] at hlength
    cases hlength

/-- A task that is created and then claimed. -/
theorem boards_in_step_claimed :
    AllKeepStep unaryEnv {} [.createTask { id := "t1", title := "one" }, .claimTask "alice" "t1"] ∧
      ∃ views, (runBoard unaryEnv {} [.createTask { id := "t1", title := "one" },
        .claimTask "alice" "t1"]).InStep unaryEnv false views :=
  have hkeep : AllKeepStep unaryEnv {}
      [.createTask { id := "t1", title := "one" }, .claimTask "alice" "t1"] :=
    ⟨⟨by decide, nofun⟩, by unfold BoardCall.KeepsStep ListsAgent; decide, trivial⟩
  ⟨hkeep, boards_in_step unaryEnv_ticking rfl _ hkeep false⟩

/-- A name that an agent may have, and that the readers take for a conflict copy. -/
def conflictName : String := "a.sync-conflict-20260101-000000-X"

/-- The claim of an agent whose file reads as a conflict copy: the card has an owner, and the
projection of the files does not show it. -/
theorem conflict_copy_claims : unaryEnv.Ticking ∧ unaryEnv.env.writeEnabled = true ∧
    ¬∃ views, (runBoard unaryEnv {} [.createTask { id := "t1", title := "one" },
      .claimTask conflictName "t1"]).InStep unaryEnv false views := by
  refine ⟨unaryEnv_ticking, rfl, ?_⟩
  rintro ⟨views, hread, hagrees, -⟩
  set b := runBoard unaryEnv {} [.createTask { id := "t1", title := "one" },
    .claimTask conflictName "t1"] with hb
  have hviews : legacyTaskViews unaryEnv b false = .ok [⟨"t1", [], .opened, none⟩] := rfl
  have howner : (b.store.fold unaryEnv.env "t1").toOption.bind (Option.map Card.owner) =
      some (.str conflictName) := rfl
  cases hviews.symm.trans hread
  obtain ⟨c, hfold, hagree⟩ := hagrees _ List.mem_cons_self
  dsimp only at hfold
  rw [hfold] at howner
  exact nomatch hagree.owner.trans (Option.some.inj howner)

end SkCoord
