import SkCoord.CardStore.Equiv.FoldedGraph
import SkCoord.Coordination.Equiv.Parity

/-!
# When a reconciliation converges

The events that a reconciliation appends leave everything that the legacy projection reads of the
store (`KeepsRecords`), so a second parity check sees the same legacy cards.  A card that is not
voided and whose criteria agree is brought to its legacy column, owner and archived state
(`converges_of_repairable`); a voided card refuses the events, and no event repairs criteria.  So a
reconciliation converges exactly when no mismatch that it does not skip is of these two kinds
(`reconcile_converges_iff`).
-/

namespace SkCoord

open Python Effect

variable {env : BoardEnv} {k k' : KanbanHome} {cardId action agent : String} {payload : Dict}

/-! ### What a placing event leaves of the store -/

namespace Store

variable {env : Env} {st : Store} {file : String} {line : LogLine}

theorem isSome_get?_of_core (h : (st.dir cardId).core ≠ .absent) :
    (Assoc.get? st.cards cardId).isSome = true := by
  unfold dir at h
  cases hget : Assoc.get? st.cards cardId with
  | none =>
    rw [hget] at h
    exact absurd rfl h
  | some d => rfl

/-- A line of a log of a card with a core leaves the directories. -/
theorem isSome_get?_appendLine (h : (st.dir cardId).core ≠ .absent) (other : String) :
    (Assoc.get? (st.appendLine cardId file line).cards other).isSome =
      (Assoc.get? st.cards other).isSome := by
  unfold appendLine
  dsimp only
  by_cases hid : other = cardId
  · rw [hid, Assoc.get?_set_self, isSome_get?_of_core h]
    rfl
  · rw [Assoc.get?_set_ne _ _ hid]

theorem namesWithCore_congr {st' : Store}
    (h : ∀ other, (st'.dir other).core = (st.dir other).core) (names : List String) :
    st'.namesWithCore names = st.namesWithCore names := by
  induction names with
  | nil => rfl
  | cons name names ih =>
    unfold namesWithCore
    rw [ih, h name]

/-- A line of a log of a card with a core leaves the list of cards. -/
theorem listCardIds_appendLine (h : (st.dir cardId).core ≠ .absent) :
    (st.appendLine cardId file line).listCardIds = st.listCardIds := by
  have hkeys : Assoc.keys (st.appendLine cardId file line).cards = Assoc.keys st.cards := by
    unfold appendLine
    dsimp only
    rw [Assoc.keys_set, if_pos ((Assoc.get?_isSome_iff _ _).mp (isSome_get?_of_core h))]
  unfold listCardIds
  rw [hkeys]
  exact namesWithCore_congr core_appendLine _

end Store

/-- The fields of a card that no placing event changes. -/
structure Card.Rest (c c' : Card) : Prop where
  id : c'.id = c.id
  kind : c'.kind = c.kind
  acceptanceCriteria : c'.acceptanceCriteria = c.acceptanceCriteria
  dependencies : c'.dependencies = c.dependencies

theorem FoldState.step_rest {s s' : FoldState} {e : Event} (hact : e.get "action" = .str action)
    (hplacing : action ∈ placingActions) (h : FoldState.step cardId s e = .ok s') :
    s.card.Rest s'.card := by
  have haction : e.action = Action.ofString action := FoldState.action_of_str hact
  have hfold : ∀ c, FoldState.foldAction cardId s.card e e.action = .ok c → s.card.Rest c := by
    intro c hc
    rw [haction] at hc
    simp only [placingActions, List.mem_cons, List.not_mem_nil, or_false] at hplacing
    rcases hplacing with rfl | rfl | rfl | rfl | rfl
    · obtain ⟨col, -, hc⟩ := bind_eq_ok.mp hc
      rw [← pure_eq_ok.mp hc]
      split <;> exact ⟨rfl, rfl, rfl, rfl⟩
    · rw [← pure_eq_ok.mp hc]
      exact ⟨rfl, rfl, rfl, rfl⟩
    · rw [← pure_eq_ok.mp hc]
      exact ⟨rfl, rfl, rfl, rfl⟩
    · rw [← pure_eq_ok.mp hc]
      exact ⟨rfl, rfl, rfl, rfl⟩
    · obtain ⟨col, -, hc⟩ := bind_eq_ok.mp hc
      rw [← pure_eq_ok.mp hc]
      exact ⟨rfl, rfl, rfl, rfl⟩
  unfold FoldState.step at h
  obtain ⟨-, -, h⟩ := bind_eq_ok.mp h
  split at h
  · rw [← pure_eq_ok.mp h]
    exact ⟨rfl, rfl, rfl, rfl⟩
  · obtain ⟨c, hc, h⟩ := bind_eq_ok.mp h
    rw [← pure_eq_ok.mp h]
    have hrest := hfold c hc
    exact ⟨hrest.id, hrest.kind, hrest.acceptanceCriteria, hrest.dependencies⟩

/-- What the legacy projection and the list of cards read of the store. -/
structure KeepsRecords (env : BoardEnv) (k k' : KanbanHome) : Prop where
  files : k.SameFiles k'
  criteria : ∀ t, currentCriteria env (k'.openBoard env) t = currentCriteria env (k.openBoard env) t
  dependencies : ∀ t, currentDependenciesOf env (k'.openBoard env) t =
    currentDependenciesOf env (k.openBoard env) t
  voided : ∀ cardId, isVoidedCard env.env (k'.store env) cardId =
    isVoidedCard env.env (k.store env) cardId
  ids : (k'.store env).listCardIds = (k.store env).listCardIds
  core : ∀ cardId, ((k'.store env).dir cardId).core = ((k.store env).dir cardId).core

theorem KeepsRecords.refl (env : BoardEnv) (k : KanbanHome) : KeepsRecords env k k :=
  ⟨.refl k, fun _ => rfl, fun _ => rfl, fun _ => rfl, rfl, fun _ => rfl⟩

theorem KeepsRecords.trans {k'' : KanbanHome} (h : KeepsRecords env k k')
    (h' : KeepsRecords env k' k'') : KeepsRecords env k k'' :=
  ⟨h.files.trans h'.files, fun t => (h'.criteria t).trans (h.criteria t),
    fun t => (h'.dependencies t).trans (h.dependencies t),
    fun cardId => (h'.voided cardId).trans (h.voided cardId), h'.ids.trans h.ids,
    fun cardId => (h'.core cardId).trans (h.core cardId)⟩

/-- The legacy projection of a home whose records are kept. -/
theorem KeepsRecords.legacyCards (h : KeepsRecords env k k') (includeArchived : Bool) :
    legacyCards env k' includeArchived = legacyCards env k includeArchived := by
  have hlegacy : legacyTasks env (k'.openBoard env) includeArchived =
      legacyTasks env (k.openBoard env) includeArchived := by
    unfold legacyTasks
    rw [h.files.loadTasks, funext h.criteria, funext h.dependencies]
  have hprojected : projectedCards env (k'.openBoard env) k'.itil includeArchived =
      projectedCards env (k.openBoard env) k.itil includeArchived := by
    unfold projectedCards
    rw [hlegacy, h.files.loadAgents, h.files.archivedIds, h.files.itil]
  have hvoided : (fun c : Card => isVoidedCard env.env (k'.openBoard env).store c.id) =
      fun c : Card => isVoidedCard env.env (k.openBoard env).store c.id :=
    funext fun c => h.voided c.id
  unfold SkCoord.legacyCards
  dsimp only
  rw [hprojected, hvoided, h.files.overlay]

/-- A void stands against a card exactly when its fold is voided. -/
theorem isVoidedCard_eq {ts : String} {s : FoldState}
    (hs : (k.store env).FoldsTo env.env cardId ts s) :
    isVoidedCard env.env (k.store env) cardId = .ok s.voided := by
  obtain ⟨events, hevents, -⟩ := hs.dated.readEvents
  obtain ⟨core, merged, -, hmerged, hfold⟩ := hs.folds
  obtain ⟨s₀, h0, hfold⟩ := bind_eq_ok.mp hfold
  refine bind_eq_ok.mpr ⟨events, hevents, pure_eq_ok.mpr ?_⟩
  rw [Store.foldEvents_voided hfold, foldInit_voided h0, Bool.false_or, Bool.eq_iff_iff,
    List.any_eq_true, List.any_eq_true]
  have hmem : ∀ e, e ∈ merged ↔ e ∈ events ∨ e ∈ (k.store env).legacyEvents cardId := by
    intro e
    rw [(Store.mergedEvents_perm hmerged).mem_iff, List.mem_append, Store.mem_readEvents_iff hevents]
  constructor
  · rintro ⟨e, he, hvoid⟩
    refine ⟨e, (hmem e).mpr (.inl he), ?_⟩
    rw [beq_iff_eq]
    exact FoldState.action_of_str ((Json.pyEq_str_right_iff _ _).mp hvoid)
  · rintro ⟨e, he, hvoid⟩
    rw [beq_iff_eq] at hvoid
    -- a void is never a legacy mutation
    rcases (hmem e).mp he with he | he
    · exact ⟨e, he, Event.pyEq_action_of_void hvoid⟩
    · exact absurd hvoid (Store.action_legacy_ne_void he)

/-- A placing event leaves the void flag. -/
theorem FoldState.step_voided_placing {s s' : FoldState} {e : Event}
    (hact : e.get "action" = .str action) (hplacing : action ∈ placingActions)
    (h : FoldState.step cardId s e = .ok s') : s'.voided = s.voided := by
  have hnext : s'.voided = (s.voided || e.action == .void) :=
    (congrArg ClaimView.voided (FoldState.step_view h)).trans ClaimView.next_voided
  have hne : e.action ≠ .void := by
    rw [FoldState.action_of_str hact]
    simp only [placingActions, List.mem_cons, List.not_mem_nil, or_false] at hplacing
    rcases hplacing with rfl | rfl | rfl | rfl | rfl <;> decide
  rw [hnext, beq_eq_false_iff_ne.mpr hne, Bool.or_false]

theorem currentCriteria_of_fold {t : Task} {c : Card}
    (h : (k.store env).fold env.env t.id = .ok (some c)) :
    currentCriteria env (k.openBoard env) t = .ok c.acceptanceCriteria :=
  bind_eq_ok.mpr ⟨some c, h, rfl⟩

theorem currentCriteria_congr {t : Task}
    (h : (k'.store env).fold env.env t.id = (k.store env).fold env.env t.id)
    (hdir : (Assoc.get? (k'.store env).cards t.id).isSome =
      (Assoc.get? (k.store env).cards t.id).isSome) :
    currentCriteria env (k'.openBoard env) t = currentCriteria env (k.openBoard env) t := by
  have hfold : (k'.openBoard env).store.fold env.env t.id =
      (k.openBoard env).store.fold env.env t.id := h
  have hsome : (Assoc.get? (k'.openBoard env).store.cards t.id).isSome =
      (Assoc.get? (k.openBoard env).store.cards t.id).isSome := hdir
  unfold currentCriteria
  rw [hfold, hsome]

theorem currentDependenciesOf_of_fold {t : Task} {c : Card}
    (h : (k.store env).fold env.env t.id = .ok (some c)) :
    currentDependenciesOf env (k.openBoard env) t = .ok c.dependencies :=
  bind_eq_ok.mpr ⟨some c, h, rfl⟩

theorem currentDependenciesOf_congr {t : Task}
    (h : (k'.store env).fold env.env t.id = (k.store env).fold env.env t.id) :
    currentDependenciesOf env (k'.openBoard env) t =
      currentDependenciesOf env (k.openBoard env) t := by
  have hfold : (k'.openBoard env).store.fold env.env t.id =
      (k.openBoard env).store.fold env.env t.id := h
  unfold currentDependenciesOf
  rw [hfold]

/-- **An append keeps the records** of the legacy projection. -/
theorem Appended.keepsRecords (h : Appended env k cardId action agent payload k')
    (haction : action ∈ placingActions) (hp : PlacingPayload payload) : KeepsRecords env k k' := by
  obtain ⟨s, s', lines, stamp, hs, hs', hstep, -⟩ := h.step
  obtain ⟨e, hstore, -⟩ := h.store
  have hget : (Store.newEvent env.env lines action agent payload stamp).get "action" =
      .str action := hp.plain.get_action
  have hrest := FoldState.step_rest hget haction hstep
  have hpresent : ((k.store env).dir cardId).core ≠ .absent := by
    obtain ⟨core, -, -, hload, -⟩ := Store.fold_eq_some.mp hs.fold
    rw [Store.loadCore_eq_some hload]
    nofun
  have hfold : ∀ other, other ≠ cardId →
      (k'.store env).fold env.env other = (k.store env).fold env.env other := fun other hne =>
    Store.fold_congr (h.elsewhere.dir other hne) h.elsewhere.files.legacy
  refine ⟨h.elsewhere.files, fun t => ?_, fun t => ?_, fun other => ?_, ?_, fun other => ?_⟩
  · by_cases hid : t.id = cardId
    · rw [← hid] at hs hs'
      rw [currentCriteria_of_fold hs'.fold, currentCriteria_of_fold hs.fold,
        hrest.acceptanceCriteria]
    · refine currentCriteria_congr (hfold t.id hid) ?_
      rw [hstore]
      exact Store.isSome_get?_appendLine hpresent t.id
  · by_cases hid : t.id = cardId
    · rw [← hid] at hs hs'
      rw [currentDependenciesOf_of_fold hs'.fold, currentDependenciesOf_of_fold hs.fold,
        hrest.dependencies]
    · exact currentDependenciesOf_congr (hfold t.id hid)
  · by_cases hid : other = cardId
    · rw [hid, isVoidedCard_eq hs, isVoidedCard_eq hs',
        FoldState.step_voided_placing hget haction hstep]
    · unfold isVoidedCard Store.readEvents
      rw [h.elsewhere.dir other hid]
  · rw [hstore]
    exact Store.listCardIds_appendLine hpresent
  · rw [hstore]
    exact Store.core_appendLine other

/-! ### One card -/

/-- A card that takes the events of a reconciliation, with its place and its criteria. -/
structure Ready (env : BoardEnv) (k : KanbanHome) (cardId : String) (p : Placement)
    (criteria : List String) : Prop where
  folds : ∃ s, (k.store env).FoldsTo env.env cardId (env.now k.board.ticks) s ∧
    s.card.id = cardId ∧ s.card.placement = p ∧ s.card.acceptanceCriteria = criteria ∧
    s.voided = false

theorem requireNotVoided_of_alive {ts : String} {s : FoldState}
    (hs : (k.store env).FoldsTo env.env cardId ts s) (hvoided : s.voided = false)
    (action : String) : (k.store env).requireNotVoided env.env cardId action = .ok () := by
  have halive := isVoidedCard_eq hs
  rw [hvoided] at halive
  obtain ⟨events, hevents, hany⟩ := bind_eq_ok.mp halive
  unfold Store.requireNotVoided
  split
  · refine bind_eq_ok.mpr ⟨events, hevents, ?_⟩
    rw [pure_eq_ok.mp hany]
    rfl
  · rfl

/-- A placing event on such a card is written. -/
theorem Ready.append (henv : env.Ticking) {p q : Placement} {criteria : List String}
    (h : Ready env k cardId p criteria) (haction : action ∈ placingActions)
    (hp : PlacingPayload payload)
    (hnext : ∀ k', Appended env k cardId action "reconcile" payload k' →
      Stands env k cardId p → Stands env k' cardId q) :
    ∃ k', (appendReconcile env cardId action payload).run k = (.ok (), k') ∧
      Elsewhere env cardId k k' ∧ KeepsRecords env k k' ∧ Ready env k' cardId q criteria := by
  obtain ⟨s, hs, hid, hplaced, hcriteria, hvoided⟩ := h.folds
  obtain ⟨k', hrun, happ⟩ := append_ok henv haction hp hs hid
    (requireNotVoided_of_alive hs hvoided action)
  refine ⟨k', hrun, happ.elsewhere, happ.keepsRecords haction hp, ?_⟩
  obtain ⟨s₁, s', lines, stamp, hs₁, hs', hstep, -⟩ := happ.step
  have hget : (Store.newEvent env.env lines action "reconcile" payload stamp).get "action" =
      .str action := hp.plain.get_action
  have hrest := FoldState.step_rest hget haction hstep
  have hcard : s₁.card = s.card :=
    Option.some.inj (Except.ok.inj (hs₁.fold.symm.trans hs.fold))
  have hvoid : s₁.voided = s.voided :=
    Except.ok.inj ((isVoidedCard_eq hs₁).symm.trans (isVoidedCard_eq hs))
  obtain ⟨c, hc, hq⟩ := hnext k' happ ⟨s.card, hs.fold, hplaced⟩
  cases hs'.fold.symm.trans hc
  refine ⟨s', hs', ?_, hq, ?_, ?_⟩
  · rw [hrest.id, hcard, hid]
  · rw [hrest.acceptanceCriteria, hcard, hcriteria]
  · rw [FoldState.step_voided_placing hget haction hstep, hvoid, hvoided]

/-- What a run over a card leaves: it takes further events, and the rest of the home is kept. -/
structure Brings (env : BoardEnv) (cardId : String) (criteria : List String) (k : KanbanHome)
    (q : Placement) (r : Except PyError Unit × KanbanHome) : Prop where
  returns : r.1 = .ok ()
  elsewhere : Elsewhere env cardId k r.2
  records : KeepsRecords env k r.2
  ready : Ready env r.2 cardId q criteria

theorem Ready.nothing {p : Placement} {criteria : List String}
    (h : Ready env k cardId p criteria) :
    Brings env cardId criteria k p ((appendActions env cardId []).run k) :=
  ⟨rfl, .refl env cardId k, .refl env k, h⟩

/-- One event, and the others behind it. -/
theorem Ready.actions (henv : env.Ticking) {p q r : Placement} {criteria : List String}
    {actions : List (String × Dict)} (h : Ready env k cardId p criteria)
    (haction : action ∈ placingActions) (hp : PlacingPayload payload)
    (hnext : ∀ k', Appended env k cardId action "reconcile" payload k' →
      Stands env k cardId p → Stands env k' cardId q)
    (hrest : ∀ k', Ready env k' cardId q criteria →
      Brings env cardId criteria k' r ((appendActions env cardId actions).run k')) :
    Brings env cardId criteria k r
      ((appendActions env cardId ((action, payload) :: actions)).run k) := by
  obtain ⟨k', hrun, hother, hrecords, hready⟩ := h.append henv haction hp hnext
  unfold appendActions
  rw [run_bind_of_ok hrun]
  have hbrings := hrest k' hready
  exact ⟨hbrings.returns, hother.trans hbrings.elsewhere, hrecords.trans hbrings.records,
    hbrings.ready⟩

namespace FieldDiff

/-- The place that the events of a difference bring a card to. -/
def brings (d : FieldDiff) (p : Placement) : Placement where
  column := (d.status.map Prod.fst).getD p.column
  order := p.order
  owner := (d.owner.map fun o => if o.1.truthy then o.1 else .null).getD p.owner
  archived := (d.archived.map Prod.fst).getD p.archived

/-- The event for the owner. -/
def ownerActions (d : FieldDiff) : List (String × Dict) :=
  match d.owner with
  | none => []
  | some (legacy, _) =>
    if legacy.truthy then [("assign", [("owner", legacy)])] else [("unassign", [])]

/-- The event for the status, and the one for the owner behind it. -/
def statusActions (d : FieldDiff) : List (String × Dict) :=
  match d.status with
  | none => d.ownerActions
  | some (legacy, _) => ("move", [("column", .str legacy.value)]) :: d.ownerActions

theorem reconcileActions_eq (d : FieldDiff) : reconcileActions d =
    match d.archived with
    | none => d.statusActions
    | some (true, _) => ("archive", []) :: d.statusActions
    | some (false, _) => ("reopen",
        [("column", (d.status.map fun s => Json.str s.1.value).getD .null)]) :: d.statusActions := by
  obtain ⟨status, owner, archived, criteria⟩ := d
  unfold reconcileActions statusActions ownerActions
  cases archived with
  | none => cases status <;> rfl
  | some a =>
    obtain ⟨legacy, stored⟩ := a
    cases legacy <;> cases status <;> rfl

end FieldDiff

theorem Ready.ownerActions (henv : env.Ticking) {p : Placement} {criteria : List String}
    (h : Ready env k cardId p criteria) (d : FieldDiff) :
    Brings env cardId criteria k
      { p with owner := (d.owner.map fun o => if o.1.truthy then o.1 else .null).getD p.owner }
      ((appendActions env cardId d.ownerActions).run k) := by
  unfold FieldDiff.ownerActions
  split
  · rename_i hnone
    rw [hnone]
    exact h.nothing
  · rename_i legacy stored hsome
    rw [hsome, Option.map_some, Option.getD_some]
    split
    · exact h.actions henv (by decide) (placing_owner legacy)
        (fun k' happ hstands => happ.assign (placing_owner legacy) hstands) fun k' h => h.nothing
    · exact h.actions henv (by decide) placing_nil
        (fun k' happ hstands => happ.unassign placing_nil hstands) fun k' h => h.nothing

theorem Ready.statusActions (henv : env.Ticking) {p : Placement} {criteria : List String}
    (h : Ready env k cardId p criteria) (d : FieldDiff) :
    Brings env cardId criteria k
      { p with
        column := (d.status.map Prod.fst).getD p.column
        owner := (d.owner.map fun o => if o.1.truthy then o.1 else .null).getD p.owner }
      ((appendActions env cardId d.statusActions).run k) := by
  unfold FieldDiff.statusActions
  split
  · rename_i hnone
    rw [hnone]
    exact h.ownerActions henv d
  · rename_i legacy stored hsome
    rw [hsome]
    have hpayload : PlacingPayload [("column", .str legacy.value)] := placing_column rfl
    exact h.actions henv (by decide) hpayload
      (fun k' happ hstands => happ.move hpayload rfl hstands)
      fun k' h => h.ownerActions henv d

/-- **The events of a difference** are written, and they bring the card to its place. -/
theorem Ready.reconcile (henv : env.Ticking) {p : Placement} {criteria : List String}
    (h : Ready env k cardId p criteria) (d : FieldDiff) :
    Brings env cardId criteria k (d.brings p)
      ((appendActions env cardId (reconcileActions d)).run k) := by
  rw [d.reconcileActions_eq]
  unfold FieldDiff.brings
  split
  · rename_i hnone
    rw [hnone]
    exact h.statusActions henv d
  · rename_i stored hsome
    rw [hsome]
    exact h.actions henv (by decide) placing_nil
      (fun k' happ hstands => happ.archive placing_nil hstands)
      fun k' h => h.statusActions henv d
  · rename_i stored hsome
    rw [hsome]
    cases hstatus : d.status with
    | none =>
      have hpayload : PlacingPayload [("column", Json.null)] := placing_column rfl
      have hrest := fun (k' : KanbanHome) (h : Ready env k' cardId
        { p with archived := false } criteria) => h.statusActions henv d
      rw [hstatus] at hrest
      exact h.actions henv (by decide) hpayload
        (fun k' happ hstands => happ.reopen hpayload hstands) hrest
    | some c =>
      obtain ⟨legacy, stored⟩ := c
      have hpayload : PlacingPayload [("column", .str legacy.value)] := placing_column rfl
      -- a reopened card goes straight to the column of the legacy side
      have hreopen : ∀ k', Appended env k cardId "reopen" "reconcile"
          [("column", .str legacy.value)] k' → Stands env k cardId p →
          Stands env k' cardId { p with archived := false, column := legacy } := by
        intro k' happ hstands
        have hplace := happ.reopen hpayload hstands
        have hcol : (Column.ofValue? legacy.value).getD p.column = legacy := by
          rw [Column.ofValue?_value]
          rfl
        rw [show Dict.get [("column", Json.str legacy.value)] "column" =
          .str legacy.value from rfl] at hplace
        dsimp only at hplace
        rw [hcol] at hplace
        exact hplace
      have hrest := fun (k' : KanbanHome) (h : Ready env k' cardId
        { p with archived := false, column := legacy } criteria) => h.statusActions henv d
      rw [hstatus] at hrest
      exact h.actions henv (by decide) hpayload hreopen hrest

/-! ### The loop -/

/-- What happens to other cards leaves a card that takes events. -/
theorem Ready.kept (henv : env.Ticking) {p : Placement} {criteria : List String}
    (h : Ready env k cardId p criteria) (hkept : KeepsCard env cardId k k') :
    Ready env k' cardId p criteria := by
  obtain ⟨s, hs, hrest⟩ := h.folds
  exact ⟨s, (hs.congr hkept.dir hkept.files.legacy).mono (henv.now.monotone hkept.files.ticks),
    hrest⟩

/-- What a loop leaves that can repair every card it does not skip. -/
structure LoopConverges (env : BoardEnv) (k : KanbanHome) (mismatches : List Mismatch)
    (r : Except PyError (ℕ × List String) × KanbanHome) : Prop where
  returns : r.1.isOk = true
  records : KeepsRecords env k r.2
  brings : ∀ m ∈ mismatches, wouldUncomplete m.diff = false → ∀ p criteria,
    Ready env k m.id p criteria → Ready env r.2 m.id (m.diff.brings p) criteria

/-- The loop behind the first mismatch. -/
theorem LoopConverges.cons (henv : env.Ticking) {m : Mismatch} {mismatches : List Mismatch}
    {k₁ : KanbanHome} (hids : ((m :: mismatches).map Mismatch.id).Nodup)
    (hrecords : KeepsRecords env k k₁) (hother : Elsewhere env m.id k k₁)
    (hm : wouldUncomplete m.diff = false → ∀ p criteria,
      Ready env k m.id p criteria → Ready env k₁ m.id (m.diff.brings p) criteria)
    {r : Except PyError (ℕ × List String) × KanbanHome}
    (hkept : KeepsCard env m.id k₁ r.2) (hrest : LoopConverges env k₁ mismatches r)
    (f : ℕ × List String → ℕ × List String) :
    LoopConverges env k (m :: mismatches) (r.1.map f, r.2) := by
  rw [List.map_cons, List.nodup_cons] at hids
  refine ⟨?_, hrecords.trans hrest.records, fun m' hm' hskip p criteria hready => ?_⟩
  · obtain ⟨a, ha⟩ := isOk_iff.mp hrest.returns
    rw [ha]
    rfl
  · rcases List.mem_cons.mp hm' with rfl | hm'
    · exact (hm hskip p criteria hready).kept henv hkept
    · have hne : m'.id ≠ m.id := fun heq => hids.1 (heq ▸ List.mem_map.mpr ⟨m', hm', rfl⟩)
      exact hrest.brings m' hm' hskip p criteria
        (hready.kept henv ⟨hother.files, hother.dir m'.id hne⟩)

/-- **The loop returns** and brings every card it does not skip to its place, when all of them take
events. -/
theorem reconcileLoop_converges (henv : env.Ticking) : ∀ (mismatches : List Mismatch)
    (k : KanbanHome), (mismatches.map Mismatch.id).Nodup →
      (∀ m ∈ mismatches, wouldUncomplete m.diff = false →
        ∃ p criteria, Ready env k m.id p criteria) →
      LoopConverges env k mismatches ((reconcileLoop env false false mismatches).run k)
  | [], k, _, _ => ⟨rfl, .refl env k, nofun⟩
  | m :: mismatches, k, hids, hready => by
    have hnotin : ∀ m' ∈ mismatches, m'.id = m.id → wouldUncomplete m'.diff = true := by
      intro m' hm' heq
      rw [List.map_cons, List.nodup_cons] at hids
      exact absurd (List.mem_map.mpr ⟨m', hm', heq⟩) hids.1
    have hids' : (mismatches.map Mismatch.id).Nodup := by
      rw [List.map_cons, List.nodup_cons] at hids
      exact hids.2
    -- the cards behind it still take events
    have hrest : ∀ k₁, Elsewhere env m.id k k₁ →
        LoopConverges env k₁ mismatches ((reconcileLoop env false false mismatches).run k₁) := by
      intro k₁ hother
      refine reconcileLoop_converges henv mismatches k₁ hids' fun m' hm' hskip => ?_
      obtain ⟨p, criteria, h⟩ := hready m' (List.mem_cons_of_mem m hm') hskip
      have hne : m'.id ≠ m.id := fun heq => by
        rw [hnotin m' hm' heq] at hskip
        cases hskip
      exact ⟨p, criteria, h.kept henv ⟨hother.files, hother.dir m'.id hne⟩⟩
    have hkept := fun k₁ => reconcileLoop_keeps env false mismatches k₁ hnotin
    have hmap : ∀ (f : ℕ × List String → ℕ × List String) (k₁ : KanbanHome),
        (reconcileLoop env false false mismatches >>= fun p => pure (f p)).run k₁ =
          (((reconcileLoop env false false mismatches).run k₁).1.map f,
            ((reconcileLoop env false false mismatches).run k₁).2) := by
      intro f k₁
      rw [run_bind]
      cases (reconcileLoop env false false mismatches).run k₁ with
      | mk r k₂ => cases r <;> rfl
    unfold reconcileLoop
    split
    · rename_i hskip
      rw [Bool.not_false, Bool.true_and] at hskip
      rw [hmap fun p => (p.1, m.id :: p.2)]
      refine .cons henv hids (.refl env k) (.refl env m.id k) (fun hno => ?_) (hkept k)
        (hrest k (.refl env m.id k)) _
      rw [hskip] at hno
      cases hno
    · rename_i hskip
      rw [Bool.not_false, Bool.true_and, Bool.not_eq_true] at hskip
      obtain ⟨p₀, criteria₀, h₀⟩ := hready m List.mem_cons_self hskip
      split
      · rename_i hempty
        have hconv := LoopConverges.cons henv hids (.refl env k) (.refl env m.id k)
          (fun _ p criteria h => ?_) (hkept k) (hrest k (.refl env m.id k)) id
        · rw [Except.map_id] at hconv
          exact hconv
        · have hbrings := h.reconcile henv m.diff
          rw [List.isEmpty_iff.mp hempty] at hbrings
          exact hbrings.ready
      · have hbrings := fun p criteria (h : Ready env k m.id p criteria) => h.reconcile henv m.diff
        have hrun : (repair env false m).run k = (.ok (), ((repair env false m).run k).2) :=
          eq_mk_of_fst_eq (hbrings p₀ criteria₀ h₀).returns
        rw [run_bind_of_ok hrun, hmap fun p => (p.1 + 1, p.2)]
        have hother : Elsewhere env m.id k ((repair env false m).run k).2 :=
          (hbrings p₀ criteria₀ h₀).elsewhere
        exact .cons henv hids (hbrings p₀ criteria₀ h₀).records hother
          (fun _ p criteria h => (hbrings p criteria h).ready) (hkept _) (hrest _ hother) _

/-! ### The list of cards -/

/-- Each core lies in the directory of its card, where a creation writes it. -/
def Store.CoresNamed (st : Store) : Prop :=
  ∀ {cardId : String} {core : CardCore},
    (st.dir cardId).core = .present core → core.id = cardId

theorem Store.CoresNamed.fold_id {env : Env} {st : Store} (hcores : st.CoresNamed) {c : Card}
    (h : st.fold env cardId = .ok (some c)) : c.id = cardId := by
  obtain ⟨core, hcore, hid⟩ := Store.fold_core h
  rw [hid, hcores hcore]

/-- The cards that are listed are those that fold. -/
theorem get?_cardsById_listCards {env : Env} {st : Store} (hcores : st.CoresNamed)
    {stored : List Card} (h : st.listCards env true = .ok stored) {c : Card} :
    Assoc.get? (cardsById stored) cardId = some c ↔ st.fold env cardId = .ok (some c) := by
  obtain ⟨ids, hids, h⟩ := bind_eq_ok.mp h
  obtain ⟨cards, hcards, h⟩ := bind_eq_ok.mp h
  have hmem : ∀ c, c ∈ stored ↔ ∃ id ∈ ids, st.fold env id = .ok (some c) := by
    intro c
    rw [← pure_eq_ok.mp h, List.mem_filter, List.reduceOption, List.mem_filterMap]
    constructor
    · rintro ⟨⟨_, hmem, rfl⟩, -⟩
      exact (mem_mapM_iff hcards _).mp hmem
    · intro hfold
      exact ⟨⟨some c, (mem_mapM_iff hcards _).mpr hfold, rfl⟩, rfl⟩
  have hlast := Assoc.get?_foldl_set Card.id (fun c => c) cardId stored []
  constructor
  · intro hget
    rcases hlast with ⟨-, hnone⟩ | ⟨x, hx, hid, hsome⟩
    · cases hget.symm.trans hnone
    · cases hget.symm.trans hsome
      obtain ⟨id, -, hfold⟩ := (hmem c).mp hx
      rw [← hid, hcores.fold_id hfold]
      exact hfold
  · intro hfold
    have hc : c ∈ stored := (hmem c).mpr ⟨cardId, Store.mem_listCardIds hids hfold, hfold⟩
    rcases hlast with ⟨hnone, -⟩ | ⟨x, hx, hid, hsome⟩
    · exact absurd (hcores.fold_id hfold) (hnone c hc)
    · obtain ⟨id, -, hfold'⟩ := (hmem x).mp hx
      have heq : id = cardId := (hcores.fold_id hfold').symm.trans hid
      rw [heq] at hfold'
      cases hfold.symm.trans hfold'
      exact hsome

/-- The cards can be listed when each of them folds. -/
theorem exists_listCards {env : Env} {st : Store} {ids : List String}
    (hids : st.listCardIds = .ok ids) (h : ∀ id ∈ ids, ∃ c, st.fold env id = .ok c) :
    ∃ stored, st.listCards env true = .ok stored := by
  obtain ⟨cards, hcards⟩ := exists_mapM_ok h
  exact ⟨_, bind_eq_ok.mpr ⟨ids, hids, bind_eq_ok.mpr ⟨cards, hcards, rfl⟩⟩⟩

/-- A card that stands where its difference brings it has none left. -/
theorem isEmpty_fieldDiff {statusIds : List String} {lc sc sc' : Card}
    (hplaced : sc'.placement = (fieldDiff statusIds cardId lc sc).brings sc.placement)
    (hcriteria : sc'.acceptanceCriteria = lc.acceptanceCriteria) :
    (fieldDiff statusIds cardId lc sc').isEmpty = true := by
  -- each field is compared once more with what the difference has brought it to
  obtain ⟨hcolumn, -, howner, harchived⟩ := Placement.mk.inj hplaced
  have hstatus : (fieldDiff statusIds cardId lc sc').status = none := by
    unfold fieldDiff at hcolumn ⊢
    dsimp only at hcolumn ⊢
    rw [hcolumn]
    by_cases h : cardId ∈ statusIds ∧ lc.status.bucket ≠ sc.status.bucket
    · rw [if_pos h]
      exact if_neg fun hne => hne.2 rfl
    · rw [if_neg h]
      exact if_neg h
  have hownerDiff : (fieldDiff statusIds cardId lc sc').owner = none := by
    unfold fieldDiff at howner ⊢
    dsimp only at howner ⊢
    rw [howner]
    by_cases h : (lc.owner.orElse .null).pyEq (sc.owner.orElse .null) = true
    · rw [if_pos h]
      exact if_pos h
    · rw [if_neg h]
      refine if_pos ?_
      dsimp only [Option.map_some, Option.getD_some]
      unfold Json.orElse
      -- no owner is written as null, and compares equal to one that is empty
      by_cases htruthy : lc.owner.truthy = true
      · rw [if_pos htruthy, if_pos htruthy]
        exact Json.pyEq_refl _
      · rw [if_neg htruthy, ite_self]
        exact Json.pyEq_refl _
  have harchivedDiff : (fieldDiff statusIds cardId lc sc').archived = none := by
    unfold fieldDiff at harchived ⊢
    dsimp only at harchived ⊢
    rw [harchived]
    by_cases h : lc.archived = sc.archived
    · rw [if_pos h]
      exact if_pos h
    · rw [if_neg h]
      exact if_pos rfl
  have hcriteriaDiff : (fieldDiff statusIds cardId lc sc').acceptanceCriteria = none :=
    if_pos hcriteria.symm
  unfold FieldDiff.isEmpty
  rw [hstatus, hownerDiff, harchivedDiff, hcriteriaDiff]
  rfl

/-! ### Two checks -/

/-- A reconciliation returns, a second parity check reports only the cards it skipped, and a second
reconciliation finds nothing to fix. -/
def ReconcileConverges (env : BoardEnv) (k : KanbanHome) : Prop :=
  ∃ report k', (reconcileFromLegacy env false false).run k = (.ok report, k') ∧
    (∃ r', parityCheck env k' = .report r' ∧
      ∀ m ∈ r'.mismatches, m.id ∈ report.skippedUncomplete) ∧
    ∃ report' k'', (reconcileFromLegacy env false false).run k' = (.ok report', k'') ∧
      report'.fixed = some 0

/-- A mismatch that the events of a reconciliation repair: its criteria agree, and no void stands
against the card. -/
def Mismatch.Repairable (env : BoardEnv) (k : KanbanHome) (m : Mismatch) : Prop :=
  m.diff.acceptanceCriteria = none ∧ isVoidedCard env.env (k.store env) m.id = .ok false

/-- A loop over cards that are all skipped fixes none. -/
theorem reconcileLoop_all_skipped (env : BoardEnv) (dryRun : Bool) (k : KanbanHome) :
    ∀ (mismatches : List Mismatch), (∀ m ∈ mismatches, wouldUncomplete m.diff = true) →
      (reconcileLoop env dryRun false mismatches).run k =
        (.ok (0, mismatches.map Mismatch.id), k)
  | [], _ => rfl
  | m :: mismatches, h => by
    have hrest := reconcileLoop_all_skipped env dryRun k mismatches fun m' hm' =>
      h m' (List.mem_cons_of_mem m hm')
    unfold reconcileLoop
    rw [Bool.not_false, Bool.true_and, if_pos (h m List.mem_cons_self), run_bind_of_ok hrest]
    rfl

/-- A repairable mismatch takes the events. -/
theorem Mismatch.Repairable.ready {m : Mismatch} (h : m.Repairable env k) {sc : Card}
    (hcores : (k.store env).CoresNamed)
    (hdated : (k.store env).Dated env.env m.id (env.now k.board.ticks))
    (hfold : (k.store env).fold env.env m.id = .ok (some sc)) :
    Ready env k m.id sc.placement sc.acceptanceCriteria := by
  obtain ⟨s, hs, rfl⟩ := hdated.foldsTo hfold
  refine ⟨s, hs, hcores.fold_id hfold, rfl, rfl, ?_⟩
  exact Except.ok.inj ((isVoidedCard_eq hs).symm.trans h.2)

theorem Store.CoresNamed.congr {st st' : Store} (h : st.CoresNamed)
    (hcore : ∀ cardId, (st'.dir cardId).core = (st.dir cardId).core) : st'.CoresNamed :=
  fun hpresent => h ((hcore _).symm.trans hpresent)

/-- **Repairable mismatches converge.** -/
theorem converges_of_repairable (henv : env.Ticking) {r : ParityReport}
    (hparity : parityCheck env k = .report r) (hcores : (k.store env).CoresNamed)
    (hdated : ∀ cardId, ((k.store env).dir cardId).core ≠ .absent →
      (k.store env).Dated env.env cardId (env.now k.board.ticks))
    (hrepairable : ∀ m ∈ r.mismatches, wouldUncomplete m.diff = false → m.Repairable env k) :
    ReconcileConverges env k := by
  obtain ⟨legacy, stored, hlegacy, hstored, hr⟩ := parityCheck_eq_report.mp hparity
  have hkeys := keys_cardsById_nodup legacy
  have hids : (r.mismatches.map Mismatch.id).Nodup := hr ▸ nodup_mismatches hkeys
  have hsides : ∀ m ∈ r.mismatches, ∃ lc sc, Assoc.get? (cardsById legacy) m.id = some lc ∧
      (k.store env).fold env.env m.id = .ok (some sc) ∧
      m.diff = fieldDiff k.statusIds m.id lc sc := by
    intro m hm
    rw [← hr] at hm
    obtain ⟨lc, sc, hlc, hsc, hdiff, -⟩ := (mem_mismatches hkeys).mp hm
    exact ⟨lc, sc, hlc, (get?_cardsById_listCards hcores hstored).mp hsc, hdiff⟩
  have hready : ∀ m ∈ r.mismatches, wouldUncomplete m.diff = false → ∀ sc,
      (k.store env).fold env.env m.id = .ok (some sc) →
        Ready env k m.id sc.placement sc.acceptanceCriteria := by
    intro m hm hskip sc hfold
    refine (hrepairable m hm hskip).ready hcores (hdated m.id ?_) hfold
    obtain ⟨core, hcore, -⟩ := Store.fold_core hfold
    rw [hcore]
    nofun
  have hloop := reconcileLoop_converges henv r.mismatches k hids fun m hm hskip => by
    obtain ⟨lc, sc, -, hfold, -⟩ := hsides m hm
    exact ⟨_, _, hready m hm hskip sc hfold⟩
  have hkeeps := fun cardId => @reconcileLoop_keeps cardId env false r.mismatches k
  have hrun := run_reconcile_of_report false hparity
  cases hres : (reconcileLoop env false false r.mismatches).run k with
  | mk x k' =>
    rw [hres] at hloop hrun hkeeps
    obtain ⟨hreturns, hrecords, hbrings⟩ := hloop
    obtain ⟨⟨count, skipped⟩, rfl⟩ := isOk_iff.mp hreturns
    have hskipped := reconcileLoop_skipped env false r.mismatches k k' count skipped hres
    dsimp only at hrecords hbrings hkeeps
    have hcores' : (k'.store env).CoresNamed := hcores.congr hrecords.core
    -- a card is as it was, or it is at its place
    have hcard : ∀ cardId, (k'.store env).fold env.env cardId = (k.store env).fold env.env cardId ∨
        ∃ m ∈ r.mismatches, m.id = cardId ∧ wouldUncomplete m.diff = false := by
      intro cardId
      by_cases h : ∀ m ∈ r.mismatches, m.id = cardId → wouldUncomplete m.diff = true
      · exact .inl (hkeeps cardId h).untouched.fold
      · push Not at h
        obtain ⟨m, hm, hid, hskip⟩ := h
        exact .inr ⟨m, hm, hid, Bool.eq_false_of_not_eq_true hskip⟩
    have hplace : ∀ m ∈ r.mismatches, wouldUncomplete m.diff = false → ∀ sc,
        (k.store env).fold env.env m.id = .ok (some sc) →
          ∃ sc', (k'.store env).fold env.env m.id = .ok (some sc') ∧
            sc'.placement = m.diff.brings sc.placement ∧
            sc'.acceptanceCriteria = sc.acceptanceCriteria := by
      intro m hm hskip sc hfold
      obtain ⟨s, hs, -, hplaced, hcriteria, -⟩ :=
        (hbrings m hm hskip _ _ (hready m hm hskip sc hfold)).folds
      exact ⟨s.card, hs.fold, hplaced, hcriteria⟩
    obtain ⟨ids, hidsList, hstored₁⟩ := bind_eq_ok.mp hstored
    obtain ⟨cards, hcards, -⟩ := bind_eq_ok.mp hstored₁
    have hfolds : ∀ id ∈ ids, ∃ c, (k'.store env).fold env.env id = .ok c := by
      intro id hid
      rcases hcard id with heq | ⟨m, hm, rfl, hskip⟩
      · rw [heq]
        obtain ⟨c, -, hc⟩ := mapM_ok_of_mem hcards id hid
        exact ⟨c, hc⟩
      · obtain ⟨lc, sc, -, hfold, -⟩ := hsides m hm
        obtain ⟨sc', hfold', -⟩ := hplace m hm hskip sc hfold
        exact ⟨_, hfold'⟩
    obtain ⟨stored', hstored'⟩ := exists_listCards (hrecords.ids.trans hidsList) hfolds
    have hlegacy' : legacyCards env k' true = .ok legacy := (hrecords.legacyCards true).trans hlegacy
    have hparity' := parityCheck_eq_report.mpr ⟨legacy, stored', hlegacy', hstored', rfl⟩
    have hleft : ∀ m ∈ (compareSides k'.statusIds openDriftThreshold (cardsById legacy)
        (cardsById stored')).mismatches, wouldUncomplete m.diff = true ∧ m.id ∈ skipped := by
      intro m hm
      obtain ⟨lc, sc', hlc, hsc', hdiff, hne⟩ := (mem_mismatches hkeys).mp hm
      have hfold' := (get?_cardsById_listCards hcores' hstored').mp hsc'
      rw [hrecords.files.statusIds] at hdiff
      -- a card that was repaired has no difference left
      have hnot : ¬∃ m₀ ∈ r.mismatches, m₀.id = m.id ∧ wouldUncomplete m₀.diff = false := by
        rintro ⟨m₀, hm₀, hid, hskip⟩
        obtain ⟨lc₀, sc, hlc₀, hfold, hdiff₀⟩ := hsides m₀ hm₀
        obtain ⟨sc'', hfold'', hplaced, hcriteria⟩ := hplace m₀ hm₀ hskip sc hfold
        have hagree := (hrepairable m₀ hm₀ hskip).1
        rw [hid] at hlc₀ hfold'' hdiff₀
        cases hlc.symm.trans hlc₀
        cases hfold'.symm.trans hfold''
        rw [hdiff₀] at hplaced hagree
        have hcrit : lc.acceptanceCriteria = sc.acceptanceCriteria := by
          by_contra hcrit
          rw [show (fieldDiff k.statusIds m.id lc sc).acceptanceCriteria =
            some (lc.acceptanceCriteria, sc.acceptanceCriteria) from if_neg hcrit] at hagree
          cases hagree
        have hempty := isEmpty_fieldDiff hplaced (hcriteria.trans hcrit.symm)
        rw [← hdiff, hne] at hempty
        cases hempty
      rcases hcard m.id with heq | hex
      · rw [heq] at hfold'
        have hmem : m ∈ r.mismatches := by
          rw [← hr]
          exact (mem_mismatches hkeys).mpr
            ⟨lc, sc', hlc, (get?_cardsById_listCards hcores hstored).mpr hfold', hdiff, hne⟩
        have hskip : wouldUncomplete m.diff = true := by
          by_contra hskip
          exact hnot ⟨m, hmem, rfl, Bool.eq_false_of_not_eq_true hskip⟩
        refine ⟨hskip, ?_⟩
        rw [hskipped]
        exact List.mem_map.mpr ⟨m, List.mem_filter.mpr ⟨hmem, hskip⟩, rfl⟩
      · exact absurd hex hnot
    refine ⟨_, k', hrun, ⟨_, hparity', fun m hm => (hleft m hm).2⟩, ?_⟩
    have hrun' := run_reconcile_of_report false hparity'
    rw [reconcileLoop_all_skipped env false k' _ fun m hm => (hleft m hm).1] at hrun'
    exact ⟨_, _, hrun', rfl⟩

/-! ### What a run that returns has done -/

/-- Everything that the fold of a card merges is dated before the clock. -/
def CardsDated (env : BoardEnv) (k : KanbanHome) : Prop :=
  ∀ cardId, ((k.store env).dir cardId).core ≠ .absent →
    (k.store env).Dated env.env cardId (env.now k.board.ticks)

/-- What appends leave of a home whose records are dated. -/
structure Reconciled (env : BoardEnv) (k k' : KanbanHome) : Prop where
  records : KeepsRecords env k k'
  dated : CardsDated env k'
  criteria : ∀ {cardId : String} {c : Card}, (k.store env).fold env.env cardId = .ok (some c) →
    ∃ c', (k'.store env).fold env.env cardId = .ok (some c') ∧
      c'.acceptanceCriteria = c.acceptanceCriteria

theorem Reconciled.refl (h : CardsDated env k) : Reconciled env k k :=
  ⟨.refl env k, h, fun hfold => ⟨_, hfold, rfl⟩⟩

theorem Reconciled.trans {k'' : KanbanHome} (h : Reconciled env k k')
    (h' : Reconciled env k' k'') : Reconciled env k k'' := by
  refine ⟨h.records.trans h'.records, h'.dated, fun hfold => ?_⟩
  obtain ⟨c', hfold', hcriteria⟩ := h.criteria hfold
  obtain ⟨c'', hfold'', hcriteria'⟩ := h'.criteria hfold'
  exact ⟨c'', hfold'', hcriteria'.trans hcriteria⟩

/-- One append to such a home. -/
theorem Appended.reconciled (henv : env.Ticking) (hdated : CardsDated env k)
    (h : Appended env k cardId action agent payload k') (haction : action ∈ placingActions)
    (hp : PlacingPayload payload) : Reconciled env k k' := by
  have hrecords := h.keepsRecords haction hp
  refine ⟨hrecords, fun other hpresent => ?_, fun {other c} hfold => ?_⟩
  · by_cases hid : other = cardId
    · rw [hid]
      exact h.dated
    · rw [hrecords.core] at hpresent
      have hlogs : ((k'.store env).dir other).logs = ((k.store env).dir other).logs := by
        rw [h.elsewhere.dir other hid]
      exact ((hdated other hpresent).congr hlogs h.elsewhere.files.legacy).mono (henv.now.monotone h.elsewhere.files.ticks)
  · by_cases hid : other = cardId
    · rw [hid] at hfold ⊢
      obtain ⟨s, s', lines, stamp, hs, hs', hstep, -⟩ := h.step
      have hrest := FoldState.step_rest (hp.plain.get_action) haction hstep
      cases hs.fold.symm.trans hfold
      exact ⟨s'.card, hs'.fold, hrest.acceptanceCriteria⟩
    · refine ⟨c, ?_, rfl⟩
      rw [Store.fold_congr (h.elsewhere.dir other hid) h.elsewhere.files.legacy]
      exact hfold

/-- An append that returned. -/
theorem appended_of_run (henv : env.Ticking) (hdated : CardsDated env k)
    (hcore : ((k.store env).dir cardId).core ≠ .absent) (haction : action ∈ placingActions)
    (hp : PlacingPayload payload)
    (h : (appendReconcile env cardId action payload).run k = (.ok (), k')) :
    Appended env k cardId action "reconcile" payload k' := by
  rcases onBoard_append env k cardId action "reconcile" payload with
    ⟨e, hrun⟩ | ⟨st, e, happ, hrun⟩
  · cases hrun.symm.trans h
  · cases hrun.symm.trans h
    exact appended_of_ok henv haction hp (hdated cardId hcore) happ

/-- The events of a reconciliation place the card. -/
theorem placing_reconcileActions {d : FieldDiff} {a : String × Dict}
    (h : a ∈ reconcileActions d) : a.1 ∈ placingActions ∧ PlacingPayload a.2 := by
  have hcolumn : ((d.status.map fun s => Json.str s.1.value).getD .null).hashable = true := by
    cases d.status <;> rfl
  have harchive : "archive" ∈ placingActions := by decide
  have hreopen : "reopen" ∈ placingActions := by decide
  have hmove : "move" ∈ placingActions := by decide
  have hassign : "assign" ∈ placingActions := by decide
  have hunassign : "unassign" ∈ placingActions := by decide
  unfold reconcileActions at h
  dsimp only at h
  rw [List.mem_append, List.mem_append] at h
  rcases h with (h | h) | h
  · split at h
    · cases h
    · cases List.mem_singleton.mp h
      exact ⟨harchive, placing_nil⟩
    · cases List.mem_singleton.mp h
      exact ⟨hreopen, placing_column hcolumn⟩
  · split at h
    · cases h
    · cases List.mem_singleton.mp h
      exact ⟨hmove, placing_column hcolumn⟩
  · split at h
    · cases h
    · split at h
      · cases List.mem_singleton.mp h
        exact ⟨hassign, placing_owner _⟩
      · cases List.mem_singleton.mp h
        exact ⟨hunassign, placing_nil⟩

/-- No event of these is refused by a void. -/
def TakesEvents (env : BoardEnv) (k : KanbanHome) (cardId : String)
    (actions : List (String × Dict)) : Prop :=
  ∀ a ∈ actions, a.1 ∈ Store.voidTerminalActions →
    isVoidedCard env.env (k.store env) cardId = .ok false

/-- The events of a card that were all written. -/
theorem appendActions_ok (henv : env.Ticking) : ∀ (actions : List (String × Dict))
    (k k' : KanbanHome), (∀ a ∈ actions, a.1 ∈ placingActions ∧ PlacingPayload a.2) →
      CardsDated env k → ((k.store env).dir cardId).core ≠ .absent →
      (appendActions env cardId actions).run k = (.ok (), k') →
        Reconciled env k k' ∧ TakesEvents env k cardId actions
  | [], k, k', _, hdated, _, h => by
    cases h
    exact ⟨.refl hdated, nofun⟩
  | (action, payload) :: actions, k, k', hplacing, hdated, hcore, h => by
    unfold appendActions at h
    obtain ⟨⟨⟩, k₁, hfirst, hrest⟩ := run_bind_eq_ok.mp h
    obtain ⟨haction, hp⟩ := hplacing _ List.mem_cons_self
    have happ := appended_of_run henv hdated hcore haction hp hfirst
    have hstep := happ.reconciled henv hdated haction hp
    obtain ⟨hothers, htakes⟩ := appendActions_ok henv actions k₁ k'
      (fun a ha => hplacing a (List.mem_cons_of_mem _ ha)) hstep.dated
      (by rw [hstep.records.core]; exact hcore) hrest
    refine ⟨hstep.trans hothers, fun a ha hterminal => ?_⟩
    rcases List.mem_cons.mp ha with rfl | ha
    · obtain ⟨s, -, -, -, hs, -, -, halive⟩ := happ.step
      rw [isVoidedCard_eq hs, halive hterminal]
    · rw [← hstep.records.voided]
      exact htakes a ha hterminal

/-- A loop that returned wrote every event of the cards it does not skip. -/
theorem reconcileLoop_ok (henv : env.Ticking) : ∀ (mismatches : List Mismatch)
    (k k' : KanbanHome) (result : ℕ × List String), CardsDated env k →
      (∀ m ∈ mismatches, ((k.store env).dir m.id).core ≠ .absent) →
      (reconcileLoop env false false mismatches).run k = (.ok result, k') →
        Reconciled env k k' ∧ ∀ m ∈ mismatches, wouldUncomplete m.diff = false →
          TakesEvents env k m.id (reconcileActions m.diff) := by
  intro mismatches
  induction mismatches with
  | nil =>
    intro k k' result hdated _ h
    cases h
    exact ⟨.refl hdated, fun m hm => absurd hm List.not_mem_nil⟩
  | cons m mismatches ih =>
    intro k k' result hdated hcores h
    have htail : ∀ m' ∈ mismatches, ((k.store env).dir m'.id).core ≠ .absent := fun m' hm' =>
      hcores m' (List.mem_cons_of_mem m hm')
    unfold reconcileLoop at h
    split at h
    · rename_i hskip
      rw [Bool.not_false, Bool.true_and] at hskip
      -- a card that would lose `done` is skipped
      obtain ⟨result₁, k₁, hrest, h⟩ := run_bind_eq_ok.mp h
      cases h
      obtain ⟨hreconciled, htakes⟩ := ih k _ _ hdated htail hrest
      refine ⟨hreconciled, fun m' hm' hno => ?_⟩
      rcases List.mem_cons.mp hm' with rfl | hm'
      · rw [hskip] at hno
        cases hno
      · exact htakes m' hm' hno
    · split at h
      · rename_i hempty
        obtain ⟨hreconciled, htakes⟩ := ih k _ _ hdated htail h
        refine ⟨hreconciled, fun m' hm' hno => ?_⟩
        rcases List.mem_cons.mp hm' with rfl | hm'
        · rw [List.isEmpty_iff.mp hempty]
          exact fun a ha => absurd ha List.not_mem_nil
        · exact htakes m' hm' hno
      · -- the events of the first card leave the voids of the others as they were
        obtain ⟨⟨⟩, k₁, hfirst, h⟩ := run_bind_eq_ok.mp h
        obtain ⟨result₂, k₂, hrest, h⟩ := run_bind_eq_ok.mp h
        cases h
        obtain ⟨hstep, hfirstTakes⟩ := appendActions_ok henv (reconcileActions m.diff) k k₁
          (fun a ha => placing_reconcileActions ha) hdated (hcores m List.mem_cons_self) hfirst
        obtain ⟨hreconciled, htakes⟩ := ih k₁ _ _ hstep.dated
          (fun m' hm' => by rw [hstep.records.core]; exact htail m' hm') hrest
        refine ⟨hstep.trans hreconciled, fun m' hm' hno => ?_⟩
        rcases List.mem_cons.mp hm' with rfl | hm'
        · exact hfirstTakes
        · intro a ha hterminal
          rw [← hstep.records.voided]
          exact htakes m' hm' hno a ha hterminal

/-! ### Cards that do not converge -/

/-- A legacy card under its void. -/
theorem overlaid_of_mem {overlay : Assoc String Patch} {st : Store} {lc : Card} :
    ∀ {out : List Card} {voided : List Bool},
      (out.mapM fun c => isVoidedCard env.env st c.id) = .ok voided →
      lc ∈ List.zipWith (overlaid overlay) out voided →
        ∃ c v, lc = overlaid overlay c v ∧ isVoidedCard env.env st lc.id = .ok v
  | [], voided, h, hmem => by
    rw [List.zipWith_nil_left] at hmem
    cases hmem
  | c :: out, voided, h, hmem => by
    rw [List.mapM_cons] at h
    obtain ⟨v, hv, h⟩ := bind_eq_ok.mp h
    obtain ⟨vs, hvs, h⟩ := bind_eq_ok.mp h
    rw [← pure_eq_ok.mp h, List.zipWith_cons_cons] at hmem
    rcases List.mem_cons.mp hmem with rfl | hmem
    · refine ⟨c, v, rfl, ?_⟩
      have hid : (overlaid overlay c v).id = c.id := by
        unfold overlaid
        split
        · rfl
        · split <;> rfl
      rw [hid]
      exact hv
    · exact overlaid_of_mem hvs hmem

/-- A voided card differs in its status or its criteria alone. -/
theorem fieldDiff_of_voided {legacy : List Card} (hlegacy : legacyCards env k true = .ok legacy)
    {lc : Card} (hlc : Assoc.get? (cardsById legacy) cardId = some lc) {ts : String} {s : FoldState}
    (hs : (k.store env).FoldsTo env.env cardId ts s) (hvoided : s.voided = true)
    (statusIds : List String) :
    (fieldDiff statusIds cardId lc s.card).owner = none ∧
      (fieldDiff statusIds cardId lc s.card).archived = none := by
  have hlast := Assoc.get?_foldl_set Card.id (fun c => c) cardId legacy []
  obtain ⟨out, voided, -, hout, hcards⟩ := KanbanHome.legacyCards_eq_ok hlegacy
  obtain ⟨core, merged, -, -, hfold⟩ := hs.folds
  have hcancelled := foldCard_flagCancels hfold hvoided
  have hlegacyCard : lc.archived = true ∧ lc.owner = .null := by
    rcases hlast with ⟨-, hnone⟩ | ⟨x, hx, hid, hsome⟩
    · cases hlc.symm.trans hnone
    · cases hlc.symm.trans hsome
      rw [← hcards] at hx
      obtain ⟨c, v, hover, hv⟩ := overlaid_of_mem hout hx
      rw [show (lc.id : String) = cardId from hid, isVoidedCard_eq hs, hvoided] at hv
      cases hv
      rw [hover]
      exact ⟨rfl, rfl⟩
  have howner : s.card.owner = .null := hcancelled.owner
  have harchived : s.card.archived = true := hcancelled.archived
  unfold fieldDiff
  dsimp only
  rw [hlegacyCard.1, hlegacyCard.2, howner, harchived]
  exact ⟨rfl, rfl⟩

/-- **A reconciliation converges exactly where it can.**  For a home whose records are dated before
the run and whose cores lie in the directories of their cards, the reconciliation returns and leaves
only skipped cards for a second run exactly when no mismatch that it does not skip belongs to a
voided card or is one of acceptance criteria. -/
theorem reconcile_converges_iff (henv : env.Ticking) {r : ParityReport}
    (hparity : parityCheck env k = .report r) (hcores : (k.store env).CoresNamed)
    (hdated : CardsDated env k) :
    ReconcileConverges env k ↔
      ∀ m ∈ r.mismatches, wouldUncomplete m.diff = false → m.Repairable env k := by
  refine ⟨?_, converges_of_repairable henv hparity hcores hdated⟩
  rintro ⟨report, k', hrun, ⟨r', hparity', hleft⟩, -⟩ m hm hskip
  obtain ⟨legacy, stored, hlegacy, hstored, hr⟩ := parityCheck_eq_report.mp hparity
  obtain ⟨legacy', stored', hlegacy', hstored', hr'⟩ := parityCheck_eq_report.mp hparity'
  have hkeys := keys_cardsById_nodup legacy
  have hside : ∀ m ∈ r.mismatches, ∃ lc sc, Assoc.get? (cardsById legacy) m.id = some lc ∧
      (k.store env).fold env.env m.id = .ok (some sc) ∧
      m.diff = fieldDiff k.statusIds m.id lc sc ∧ m.diff.isEmpty = false := by
    intro m hm
    rw [← hr] at hm
    obtain ⟨lc, sc, hlc, hsc, hrest⟩ := (mem_mismatches hkeys).mp hm
    exact ⟨lc, sc, hlc, (get?_cardsById_listCards hcores hstored).mp hsc, hrest⟩
  have hpresent : ∀ m ∈ r.mismatches, ((k.store env).dir m.id).core ≠ .absent := by
    intro m hm
    obtain ⟨lc, sc, -, hfold, -⟩ := hside m hm
    obtain ⟨core, hcore, -⟩ := Store.fold_core hfold
    rw [hcore]
    nofun
  -- the run returned, so its loop did
  rw [run_reconcile_of_report false hparity] at hrun
  cases hloop : (reconcileLoop env false false r.mismatches).run k with
  | mk x k₁ =>
    rw [hloop] at hrun
    cases x with
    | error e => cases hrun
    | ok result =>
      obtain ⟨count, skipped⟩ := result
      obtain ⟨hreport, rfl⟩ := Prod.mk.inj hrun
      cases hreport
      have hskipped := reconcileLoop_skipped env false r.mismatches k k₁ count skipped hloop
      obtain ⟨hreconciled, htakes⟩ := reconcileLoop_ok henv r.mismatches k k₁ _ hdated hpresent hloop
      obtain ⟨lc, sc, hlc, hfold, hdiff, hne⟩ := hside m hm
      have hcriteria : m.diff.acceptanceCriteria = none := by
        by_contra hsome
        -- the criteria are those of the first check, so the card is reported again
        obtain ⟨sc', hfold', hsame⟩ := hreconciled.criteria hfold
        have hcards : legacyCards env k₁ true = .ok legacy :=
          (hreconciled.records.legacyCards true).trans hlegacy
        cases hcards.symm.trans hlegacy'
        have hcores' : (k₁.store env).CoresNamed := hcores.congr hreconciled.records.core
        have hsc' := (get?_cardsById_listCards hcores' hstored').mpr hfold'
        have hagain : (fieldDiff k₁.statusIds m.id lc sc').isEmpty = false := by
          rw [hdiff] at hsome
          have hdiffers : (fieldDiff k₁.statusIds m.id lc sc').acceptanceCriteria ≠ none := by
            unfold fieldDiff at hsome ⊢
            dsimp only at hsome ⊢
            rw [hsame]
            exact hsome
          unfold FieldDiff.isEmpty
          rw [Option.isNone_eq_false_iff.mpr (Option.isSome_iff_ne_none.mpr hdiffers),
            Bool.and_false]
        have hmem : (⟨m.id, fieldDiff k₁.statusIds m.id lc sc'⟩ : Mismatch) ∈ r'.mismatches := by
          rw [← hr']
          exact (mem_mismatches hkeys).mpr ⟨lc, sc', hlc, hsc', rfl, hagain⟩
        have hleft' := hleft _ hmem
        dsimp only at hleft'
        rw [hskipped] at hleft'
        have hskips := wouldUncomplete_of_mem hparity hleft' m hm rfl
        rw [hskip] at hskips
        cases hskips
      refine ⟨hcriteria, ?_⟩
      obtain ⟨s, hs, rfl⟩ := (hdated m.id (hpresent m hm)).foldsTo hfold
      cases hvoided : s.voided with
      | false =>
        rw [isVoidedCard_eq hs, hvoided]
      | true =>
        -- what is left of the difference is a move, which the void refuses
        obtain ⟨howner, harchived⟩ := fieldDiff_of_voided hlegacy hlc hs hvoided k.statusIds
        rw [← hdiff] at howner harchived
        cases hstatus : m.diff.status with
        | none =>
          unfold FieldDiff.isEmpty at hne
          rw [hstatus, howner, harchived, hcriteria] at hne
          cases hne
        | some columns =>
          have hmove : ("move", [("column", Json.str columns.1.value)]) ∈
              reconcileActions m.diff := by
            unfold reconcileActions
            rw [hstatus, howner, harchived]
            exact List.mem_singleton.mpr rfl
          have hterminal : "move" ∈ Store.voidTerminalActions := by decide
          exact htakes m hm hskip _ hmove hterminal

/-- A card with the log of `bob`. -/
def bobsCard (lines : List LogLine) : CardDir where
  core := .present { id := "t1", title := "one", createdAt := "2026" }
  logs := [("bob@host.jsonl", lines)]
  nodup := List.nodup_singleton _

/-- `alice` claims the card of `bob`, whose task file carries a status. -/
def claimedHome (lines : List LogLine) : KanbanHome where
  board :=
    { ticks := 1
      creation := { store := { cards := [("t1", bobsCard lines)] } }
      tasks := [("t1-one.json", { id := "t1", title := "one", createdAt := "2026" })]
      agents := [("alice", { agent := "alice", lastSeen := "", claimedTasks := ["t1"] })] }
  statusIds := ["t1"]

theorem dir_claimedHome (lines : List LogLine) (cardId : String) :
    cardId = "t1" ∧ ((claimedHome lines).store unaryEnv).dir cardId = bobsCard lines ∨
      ((claimedHome lines).store unaryEnv).dir cardId = {} := by
  by_cases hid : cardId = "t1"
  · rw [hid]
    exact .inl ⟨rfl, rfl⟩
  · refine .inr ?_
    have hnone : Assoc.get? ((claimedHome lines).store unaryEnv).cards cardId = none := by
      refine (Assoc.get?_eq_none_iff _ _).mpr fun hmem => hid ?_
      exact List.mem_singleton.mp hmem
    unfold Store.dir
    rw [hnone]
    rfl

theorem coresNamed_claimedHome (lines : List LogLine) :
    ((claimedHome lines).store unaryEnv).CoresNamed := by
  intro cardId core hcore
  rcases dir_claimedHome lines cardId with ⟨hid, hdir⟩ | hdir
  · rw [hdir] at hcore
    cases hcore
    exact hid.symm
  · rw [hdir] at hcore
    cases hcore

theorem cardsDated_claimedHome {lines : List LogLine}
    (hread : (Store.readLog unaryEnv.env "t1" "bob@host.jsonl" "" lines).isOk = true)
    (hlines : ∀ line ∈ lines, ∃ e, line = .value (.obj e) ∧ Store.Stamped e "") :
    CardsDated unaryEnv (claimedHome lines) := by
  intro cardId hpresent
  rcases dir_claimedHome lines cardId with ⟨rfl, hdir⟩ | hdir
  · refine ⟨rfl, fun p hp => ?_, fun p hp line hline => ?_, nofun⟩
    · rw [hdir] at hp
      cases List.mem_singleton.mp hp
      exact isOk_iff.mp hread
    · rw [hdir] at hp
      cases List.mem_singleton.mp hp
      obtain ⟨e, rfl, hstamp⟩ := hlines line hline
      exact ⟨e, "", rfl, hstamp, unaryEnv_ticking.now Nat.zero_lt_one⟩
  · rw [hdir] at hpresent
    exact absurd rfl hpresent

/-- The check of a home, if it returns a report. -/
def Parity.toOption : Parity → Option ParityReport
  | .failure _ _ => none
  | .report r => some r

theorem parityCheck_of_toOption (h : (parityCheck env k).toOption.isSome = true) :
    ∃ r, parityCheck env k = .report r := by
  cases hparity : parityCheck env k with
  | failure outcome reason =>
    rw [hparity] at h
    cases h
  | report r => exact ⟨r, rfl⟩

/-- The event that voids the card. -/
def voidLine : Event :=
  [("ts", .str ""), ("writer", .str "bob"), ("seq", .int 0), ("action", .str "void")]

/-- A void that stands against a card in another column ends the reconciliation. -/
theorem reconcile_refused_voided :
    (∃ r, parityCheck unaryEnv (claimedHome [.value (.obj voidLine)]) = .report r) ∧
      CardsDated unaryEnv (claimedHome [.value (.obj voidLine)]) ∧
      ¬ReconcileConverges unaryEnv (claimedHome [.value (.obj voidLine)]) := by
  refine ⟨parityCheck_of_toOption (by decide +kernel),
    cardsDated_claimedHome (by decide +kernel) fun line hline => ?_, ?_⟩
  · cases List.mem_singleton.mp hline
    exact ⟨voidLine, rfl, rfl, ⟨"bob", rfl⟩, 0, rfl⟩
  · rintro ⟨report, k', hrun, -⟩
    have hraises : ((reconcileFromLegacy unaryEnv false false).run
        (claimedHome [.value (.obj voidLine)])).1.isOk = false := by decide +kernel
    rw [hrun] at hraises
    cases hraises

/-- Without the void the card goes to `alice`. -/
theorem reconcile_converges_claimed : ∃ r, parityCheck unaryEnv (claimedHome []) = .report r ∧
    (ReconcileConverges unaryEnv (claimedHome []) ↔
      ∀ m ∈ r.mismatches, wouldUncomplete m.diff = false →
        m.Repairable unaryEnv (claimedHome [])) := by
  obtain ⟨r, hparity⟩ := @parityCheck_of_toOption unaryEnv (claimedHome []) (by decide +kernel)
  exact ⟨r, hparity, reconcile_converges_iff unaryEnv_ticking hparity (coresNamed_claimedHome [])
    (cardsDated_claimedHome rfl nofun)⟩

end SkCoord
