import SkCoord.Itil.Update

/-!
# What the updates do outside of the records

`FollowsFold` says that what a call does outside goes with the status that it asks for and that the
record is folded to behind the call's status event.  `ChangeUpdate.follows`: an update of a change
always does.  `statusEvent_followsFold_iff`: an update of an incident or a problem does when the
record that it asks to resolve is folded to `resolved` or `closed`, or has no GTD items.
-/

namespace SkCoord.Itil

open Python

variable {α β : Type} {u : Updater} {tree : RecordTree} {w : World}

/-- The statuses that a record must have for what is done; an escalation goes with none. -/
def Outward.statuses : Outward → Option (List String)
  | .complete _ => some ["resolved", "closed"]
  | .publish "itil.change.approved" _ => some ["approved"]
  | .publish "itil.change.deployed" _ => some ["deployed"]
  | .publish _ _ => none
  | .emit _ _ _ _ => some ["approved"]

/-- What is done goes with the status that was asked for, and the record is folded to it. -/
def Outward.GoesWith (requested : String) (folded : Except PyError (Option String))
    (o : Outward) : Prop :=
  ∀ l, o.statuses = some l → requested ∈ l ∧ ∃ s ∈ l, folded = .ok (some s)

/-- All that is done outside does. -/
def FollowsFold (sent : List Outward) (requested : String)
    (folded : Except PyError (Option String)) : Prop :=
  ∀ o ∈ sent, o.GoesWith requested folded

/-- The status that a record is folded to behind a status event. -/
def Updater.statusAfter (u : Updater) (fold : Updater.Fold α) (status : α → String)
    (tree : RecordTree) (recordId : String) (agent : AgentName) (payload : Dict) :
    Except PyError (Option String) := do
  let tree ← appendEvent u.machine tree recordId agent "status" payload (u.stamps 0)
  let folded ← fold tree recordId
  pure (folded.map status)

namespace IncidentUpdate

/-- The status of the incident behind the status event of the call. -/
def statusAfter (u : Updater) (tree : RecordTree) (call : IncidentUpdate) :
    Except PyError (Option String) := do
  let recordId ← u.findRecord "Incident" call.incidentId tree
  u.statusAfter u.foldIncident (fun i => i.status.value) tree recordId call.agent call.payload

/-- What the call does outside follows the fold. -/
def Follows (u : Updater) (tree : RecordTree) (call : IncidentUpdate) : Prop :=
  FollowsFold (sentBy (u.updateIncident call) tree) call.newStatus (call.statusAfter u tree)

end IncidentUpdate

namespace ProblemUpdate

/-- The status of the problem behind the status event of the call. -/
def statusAfter (u : Updater) (tree : RecordTree) (call : ProblemUpdate) :
    Except PyError (Option String) := do
  let recordId ← u.findRecord "Problem" call.problemId tree
  u.statusAfter u.foldProblem (fun p => p.status.value) tree recordId call.agent
    (statusPayload call.newStatus call.note)

/-- What the call does outside follows the fold. -/
def Follows (u : Updater) (tree : RecordTree) (call : ProblemUpdate) : Prop :=
  FollowsFold (sentBy (u.updateProblem call) tree) call.newStatus (call.statusAfter u tree)

end ProblemUpdate

namespace ChangeUpdate

/-- The status of the change behind the status event of the call. -/
def statusAfter (u : Updater) (tree : RecordTree) (call : ChangeUpdate) :
    Except PyError (Option String) := do
  let recordId ← u.resolveId tree call.changeId
  u.statusAfter u.foldChange (fun c => c.status.value) tree recordId call.agent
    (statusPayload call.newStatus call.note)

/-- What the call does outside follows the fold. -/
def Follows (u : Updater) (tree : RecordTree) (call : ChangeUpdate) : Prop :=
  FollowsFold (sentBy (u.updateChange call) tree) call.newStatus (call.statusAfter u tree)

end ChangeUpdate

/-! ### What a statement does -/

/-- All that the statement does outside has a property. -/
def Does (Q : Outward → Prop) (x : Update α) : Prop :=
  ∀ w, ∃ more, (x.run w).2.sent = w.sent ++ more ∧ ∀ o ∈ more, Q o

/-- The statement does nothing outside that goes with a status. -/
abbrev Quiet (x : Update α) : Prop := Does (fun o => o.statuses = none) x

section

variable {Q : Outward → Prop}

theorem does_of_sent {x : Update α} (h : ∀ w, (x.run w).2.sent = w.sent) : Does Q x := fun w =>
  ⟨[], by rw [h, List.append_nil], fun o ho => (List.not_mem_nil ho).elim⟩

theorem does_pure (a : α) : Does Q (pure a) := does_of_sent fun _ => rfl

theorem does_raise (e : PyError) : Does Q (Effect.raise e : Update α) := does_of_sent fun _ => rfl

theorem does_lift (x : Except PyError α) : Does Q (Effect.lift x) := does_of_sent fun _ => rfl

theorem does_get : Does Q (Effect.get : Update World) := does_of_sent fun _ => rfl

theorem does_send {outward : List Outward} (h : ∀ o ∈ outward, Q o) : Does Q (send outward) :=
  fun _ => ⟨outward, rfl, h⟩

theorem Does.bind {x : Update α} {f : α → Update β} (hx : Does Q x) (hf : ∀ a, Does Q (f a)) :
    Does Q (x >>= f) := by
  intro w
  obtain ⟨more, hsent, hmore⟩ := hx w
  rw [Effect.run_bind]
  cases hrun : x.run w with
  | mk r w' =>
    rw [hrun] at hsent
    cases r with
    | error e => exact ⟨more, hsent, hmore⟩
    | ok a =>
      obtain ⟨more', hsent', hmore'⟩ := hf a w'
      refine ⟨more ++ more', ?_, List.forall_mem_append.mpr ⟨hmore, hmore'⟩⟩
      rw [hsent', hsent, List.append_assoc]

theorem Does.onlyIf {test : Prop} [Decidable test] {x : Update Unit} (hx : test → Does Q x) :
    Does Q (onlyIf test x) := by
  unfold SkCoord.Itil.onlyIf
  split
  · rename_i htest
    exact hx htest
  · exact does_pure ()

theorem does_requireRecord (field : String) (o : Option α) : Does Q (requireRecord field o) := by
  cases o with
  | none => exact does_raise _
  | some a => exact does_pure a

theorem does_append (u : Updater) (recordId : String) (agent : AgentName) (kind : String)
    (payload : Dict) :
    Does Q (u.append recordId agent kind payload) := by
  refine does_get.bind fun w => (does_lift _).bind fun tree => ?_
  exact does_of_sent fun _ => rfl

theorem does_foldNow (fold : Updater.Fold α) (recordId : String) :
    Does Q (Updater.foldNow fold recordId) := does_get.bind fun _ => does_lift _

end

theorem quiet_detailIncident (u : Updater) (recordId : String) (call : IncidentUpdate) :
    Quiet (u.detailIncident recordId call) := by
  unfold Updater.detailIncident
  refine Does.bind (Does.onlyIf fun _ => ?_) fun _ => Does.bind (Does.onlyIf fun _ => ?_) fun _ =>
    Does.bind (Does.onlyIf fun _ => ?_) fun _ => Does.bind (Does.onlyIf fun _ => ?_) fun _ =>
      does_foldNow _ _
  · -- an escalation goes with a severity
    exact (does_append _ _ _ _ _).bind fun _ => does_send (List.forall_mem_singleton.mpr rfl)
  all_goals exact does_append _ _ _ _ _

theorem quiet_detailProblem (u : Updater) (recordId : String) (call : ProblemUpdate) :
    Quiet (u.detailProblem recordId call) := by
  unfold Updater.detailProblem
  refine Does.bind (Does.onlyIf fun _ => ?_) fun _ => Does.bind (Does.onlyIf fun _ => ?_) fun _ =>
    Does.bind (Does.onlyIf fun _ => ?_) fun _ => Does.bind (Does.onlyIf fun _ => ?_) fun _ =>
      does_foldNow _ _
  · exact does_append _ _ _ _ _
  · exact does_append _ _ _ _ _
  · exact does_append _ _ _ _ _
  · unfold Updater.enterKedb
    refine (does_foldNow _ _).bind fun _ => (does_requireRecord _ _).bind fun _ => ?_
    exact Does.onlyIf fun _ => (does_of_sent fun _ => rfl).bind fun _ => does_append _ _ _ _ _

/-- What is done behind a statement changes nothing when it is quiet. -/
theorem followsFold_bind_quiet {x : Update α} {f : α → Update β} (hf : ∀ a, Quiet (f a))
    {requested : String} {folded : Except PyError (Option String)} :
    FollowsFold ((x >>= f).run w).2.sent requested folded ↔
      FollowsFold (x.run w).2.sent requested folded := by
  rw [Effect.run_bind]
  cases hrun : x.run w with
  | mk r w' =>
    cases r with
    | error e => rfl
    | ok a =>
      obtain ⟨more, hsent, hmore⟩ := hf a w'
      show FollowsFold ((f a).run w').2.sent requested folded ↔ _
      unfold FollowsFold
      rw [hsent, List.forall_mem_append]
      refine ⟨fun h => h.1, fun h => ⟨h, fun o ho l hl => ?_⟩⟩
      rw [hmore o ho] at hl
      cases hl

/-! ### Incidents and problems -/

/-- The status event of a call that asks to resolve a record, and the record behind it. -/
def Updater.resolvedRecord (u : Updater) (fold : Updater.Fold α) (tree : RecordTree)
    (recordId : String) (agent : AgentName) (payload : Dict) : Except PyError (Option α) := do
  let tree ← appendEvent u.machine tree recordId agent "status" payload (u.stamps 0)
  fold tree recordId

theorem statusAfter_eq_ok {fold : Updater.Fold α} {status : α → String} {recordId s : String}
    {agent : AgentName}
    {payload : Dict} :
    u.statusAfter fold status tree recordId agent payload = .ok (some s) ↔
      ∃ record, u.resolvedRecord fold tree recordId agent payload = .ok (some record) ∧
        status record = s := by
  unfold Updater.statusAfter Updater.resolvedRecord
  simp only [bind_eq_ok, pure_eq_ok, Option.map_eq_some_iff]
  constructor
  · rintro ⟨tree', happend, folded, hfold, record, rfl, hs⟩
    exact ⟨record, ⟨tree', happend, hfold⟩, hs⟩
  · rintro ⟨record, ⟨tree', happend, hfold⟩, hs⟩
    exact ⟨tree', happend, some record, hfold, record, rfl, hs⟩

theorem run_append (u : Updater) (recordId : String) (agent : AgentName) (kind : String)
    (payload : Dict) (w : World) :
    (u.append recordId agent kind payload).run w =
      match appendEvent u.machine w.tree recordId agent kind payload (u.stamps w.appended) with
      | .ok tree => (.ok (), { w with tree := tree, appended := w.appended + 1 })
      | .error e => (.error e, w) := by
  rw [Updater.append, Effect.run_get_bind, Effect.run_lift_bind]
  cases appendEvent u.machine w.tree recordId agent kind payload (u.stamps w.appended) <;> rfl

theorem run_foldNow_bind (fold : Updater.Fold α) (recordId : String) (f : Option α → Update β)
    (w : World) : (Updater.foldNow fold recordId >>= f).run w =
      match fold w.tree recordId with
      | .ok folded => (f folded).run w
      | .error e => (.error e, w) := by
  have hrun : (Updater.foldNow fold recordId).run w = (fold w.tree recordId, w) := rfl
  rw [Effect.run_bind, hrun]
  cases fold w.tree recordId <;> rfl

/-- What the status event of an incident or a problem does outside. -/
theorem sentBy_statusEvent (u : Updater) (fold : Updater.Fold α) (gtdItemIds : α → List String)
    (tree : RecordTree) (recordId : String) (agent : AgentName) (newStatus : String)
    (payload : Dict) :
    sentBy (u.statusEvent fold gtdItemIds recordId agent newStatus payload) tree =
      if newStatus = "resolved" then
        match u.resolvedRecord fold tree recordId agent payload with
        | .ok (some record) => (gtdItemIds record).map .complete
        | _ => []
      else [] := by
  unfold sentBy Updater.statusEvent Updater.resolvedRecord
  by_cases hnone : newStatus = ""
  · subst hnone
    rfl
  rw [onlyIf, if_pos hnone, Effect.run_bind, run_append]
  cases happend : appendEvent u.machine tree recordId agent "status" payload (u.stamps 0) with
  | error e =>
    show [] = _
    split <;> rfl
  | ok tree' =>
    dsimp only
    by_cases hresolved : newStatus = "resolved"
    · rw [onlyIf, if_pos hresolved, if_pos hresolved, run_foldNow_bind, ok_bind]
      cases fold tree' recordId with
      | error e => rfl
      | ok folded => cases folded <;> rfl
    · rw [onlyIf, if_neg hresolved, if_neg hresolved]
      rfl

/-- **What a status event does outside follows the fold** when the record that it asks to resolve is
resolved or closed behind it, or has no GTD items. -/
theorem statusEvent_followsFold_iff {fold : Updater.Fold α} {gtdItemIds : α → List String}
    {status : α → String} {recordId newStatus : String} {agent : AgentName} {payload : Dict} :
    FollowsFold (sentBy (u.statusEvent fold gtdItemIds recordId agent newStatus payload) tree)
        newStatus (u.statusAfter fold status tree recordId agent payload) ↔
      (newStatus = "resolved" → ∀ record,
        u.resolvedRecord fold tree recordId agent payload = .ok (some record) →
          gtdItemIds record ≠ [] → status record ∈ ["resolved", "closed"]) := by
  rw [sentBy_statusEvent]
  unfold FollowsFold
  split
  · rename_i hresolved
    constructor
    · intro h _ record hrecord hne
      rw [hrecord] at h
      obtain ⟨g, hg⟩ := List.exists_mem_of_ne_nil _ hne
      obtain ⟨-, s, hs, hfolded⟩ := h (.complete g) (List.mem_map_of_mem hg) _ rfl
      obtain ⟨record', hrecord', rfl⟩ := statusAfter_eq_ok.mp hfolded
      cases hrecord.symm.trans hrecord'
      exact hs
    · intro h o ho l hl
      split at ho
      · rename_i record hrecord
        obtain ⟨g, hg, rfl⟩ := List.mem_map.mp ho
        cases hl
        refine ⟨hresolved ▸ List.mem_cons_self, status record, ?_,
          statusAfter_eq_ok.mpr ⟨record, hrecord, rfl⟩⟩
        exact h hresolved record hrecord (List.ne_nil_of_mem hg)
      · exact (List.not_mem_nil ho).elim
  · rename_i hother
    exact ⟨fun _ hresolved => absurd hresolved hother, fun _ o ho => (List.not_mem_nil ho).elim⟩

/-- What a call does that looks for its record, appends a status event and is quiet then. -/
theorem followsFold_call_iff {find : Except PyError String} {step : String → Update Unit}
    {rest : String → Update β} (hrest : ∀ recordId, Quiet (rest recordId)) {requested : String}
    {folded : String → Except PyError (Option String)} :
    FollowsFold (sentBy (do
        let _ ← Effect.get
        let recordId ← Effect.lift find
        step recordId
        rest recordId) tree) requested (find >>= folded) ↔
      ∀ recordId, find = .ok recordId →
        FollowsFold (sentBy (step recordId) tree) requested (folded recordId) := by
  unfold sentBy
  rw [Effect.run_get_bind, Effect.run_lift_bind]
  cases find with
  | error e => exact ⟨fun _ _ h => (nomatch h), fun _ o ho => (List.not_mem_nil ho).elim⟩
  | ok recordId =>
    rw [followsFold_bind_quiet fun _ => hrest recordId, ok_bind]
    refine ⟨fun h recordId' heq => ?_, fun h => h recordId rfl⟩
    cases heq
    exact h

/-- **What an update of an incident does outside follows the fold** when the incident that it asks
to resolve is resolved or closed behind the status event, or has no GTD items. -/
theorem IncidentUpdate.follows_iff {call : IncidentUpdate} : call.Follows u tree ↔
    ∀ recordId, u.findRecord "Incident" call.incidentId tree = .ok recordId →
      call.newStatus = "resolved" → ∀ i,
        u.resolvedRecord u.foldIncident tree recordId call.agent call.payload = .ok (some i) →
          i.gtdItemIds ≠ [] → i.status.value ∈ ["resolved", "closed"] := by
  refine (followsFold_call_iff fun recordId => quiet_detailIncident u recordId call).trans ?_
  exact forall_congr' fun recordId => imp_congr_right fun _ => statusEvent_followsFold_iff

/-- The same of a problem. -/
theorem ProblemUpdate.follows_iff {call : ProblemUpdate} : call.Follows u tree ↔
    ∀ recordId, u.findRecord "Problem" call.problemId tree = .ok recordId →
      call.newStatus = "resolved" → ∀ p,
        u.resolvedRecord u.foldProblem tree recordId call.agent
            (statusPayload call.newStatus call.note) = .ok (some p) →
          p.gtdItemIds ≠ [] → p.status.value ∈ ["resolved", "closed"] := by
  refine (followsFold_call_iff fun recordId => quiet_detailProblem u recordId call).trans ?_
  exact forall_congr' fun recordId => imp_congr_right fun _ => statusEvent_followsFold_iff

/-! ### Changes -/

/-- An announcement goes with the status that was asked for and that the change is folded to. -/
theorem does_announceChange (u : Updater) (recordId : String) (core : Json) (call : ChangeUpdate)
    (folded : Change) :
    Does (Outward.GoesWith call.newStatus (.ok (some folded.status.value)))
      (u.announceChange recordId core call folded) := by
  have hgoes : ∀ {s : String}, call.newStatus = s ∧ folded.status.value = s → ∀ o : Outward,
      o.statuses = some [s] → o.GoesWith call.newStatus (.ok (some folded.status.value)) := by
    rintro s ⟨hrequested, hfolded⟩ o ho l hl
    cases ho.symm.trans hl
    exact ⟨hrequested ▸ List.mem_cons_self, s, List.mem_cons_self, by rw [hfolded]⟩
  unfold Updater.announceChange
  split
  · rename_i happroved
    refine (does_lift _).bind fun core => ?_
    refine (does_send (List.forall_mem_singleton.mpr (hgoes happroved _ rfl))).bind fun _ => ?_
    -- the task of the implementer goes with the approval
    refine Does.onlyIf fun _ => ?_
    refine (does_send (List.forall_mem_singleton.mpr (hgoes happroved _ rfl))).bind fun _ => ?_
    exact Does.onlyIf fun _ => does_append _ _ _ _ _
  · split
    · rename_i hdeployed
      refine (does_lift _).bind fun core => ?_
      exact does_send (List.forall_mem_singleton.mpr (hgoes hdeployed _ rfl))
    · exact does_pure ()

/-- **What an update of a change does outside follows the fold.** The steps of the call are run one
after another; a call that stops has sent nothing, and behind the last fold only
`does_announceChange` sends. -/
theorem ChangeUpdate.follows (u : Updater) (tree : RecordTree) (call : ChangeUpdate) :
    call.Follows u tree := by
  unfold ChangeUpdate.Follows ChangeUpdate.statusAfter sentBy Updater.updateChange
  rw [Effect.run_get_bind, Effect.run_lift_bind]
  dsimp only
  cases hid : u.resolveId tree call.changeId with
  | error e => exact fun o ho => (List.not_mem_nil ho).elim
  | ok recordId =>
    dsimp only
    cases loadCore u.machine.reader (tree.recDir recordId) with
    | none => exact fun o ho => (List.not_mem_nil ho).elim
    | some core =>
      dsimp only
      rw [ok_bind]
      -- What stands before the status event appends and folds, and sends nothing.
      refine (followsFold_bind_quiet fun _ => ?_).mpr ?_
      · exact (Does.onlyIf fun _ => does_append _ _ _ _ _).bind fun _ => does_foldNow _ _
      by_cases hnone : call.newStatus = ""
      · rw [onlyIf, if_neg (not_not.mpr hnone)]
        exact fun o ho => (List.not_mem_nil ho).elim
      -- From here on there is a status to append: the fold behind it is the one that decides.
      rw [onlyIf, if_pos hnone, Effect.run_bind, run_append]
      unfold Updater.statusAfter
      dsimp only
      cases appendEvent u.machine tree recordId call.agent "status"
          (statusPayload call.newStatus call.note) (u.stamps 0) with
      | error e => exact fun o ho => (List.not_mem_nil ho).elim
      | ok tree' =>
        dsimp only
        rw [run_foldNow_bind, ok_bind]
        dsimp only
        cases u.foldChange tree' recordId with
        | error e => exact fun o ho => (List.not_mem_nil ho).elim
        | ok folded =>
          cases folded with
          | none => exact fun o ho => (List.not_mem_nil ho).elim
          | some folded =>
            obtain ⟨more, hsent, hmore⟩ := does_announceChange u recordId core call folded
              { tree := tree', appended := 1 }
            rw [List.nil_append] at hsent
            intro o ho
            exact hmore o (hsent ▸ ho)

end SkCoord.Itil
