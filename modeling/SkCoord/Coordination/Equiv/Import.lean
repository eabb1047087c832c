import SkCoord.Coordination.Equiv.InStep
import SkCoord.Coordination.Equiv.Placing
import SkCoord.Coordination.Import

/-!
# Importing again after an interruption

Each event of an import brings its card one step towards its place on the legacy board.
`Card.placedBy` is where a card stands when all of them are written, and the invariant of a card
under import is that this does not change (`Started`); a card with all its events has arrived
(`Finished`).  A second import skips what has a core, so it makes good an interruption exactly when
the cards that were started have arrived (`import_survives_iff`).
-/

namespace SkCoord

open Python Effect

/-! ### Where a card is brought -/

/-- Where the events of an import bring a card. -/
def Card.placedBy (c : Card) (p : Placement) : Placement where
  column := c.status
  order := if c.order.isNone then p.order else c.order
  owner := if c.owner.truthy then c.owner else p.owner
  archived := p.archived || c.archived

theorem Card.placedBy_placedBy (c : Card) (p : Placement) :
    c.placedBy (c.placedBy p) = c.placedBy p := by
  unfold placedBy
  dsimp only
  congr 1
  · split <;> rfl
  · split <;> rfl
  · rw [Bool.or_assoc, Bool.or_self]

/-- The place of a card at birth. -/
def birthView (metaData : Dict) : PlacedView where
  claim :=
    { owner := .null
      status := .backlog
      revision := Assoc.get? metaData "_claim_revision"
      conflicts := Assoc.get? metaData "claim_conflicts"
      archived := false
      voided := false }
  order := .int 0

variable {env : BoardEnv} {k k₀ k' : KanbanHome} {c : Card} {cardId action agent : String}
  {payload : Dict}

namespace KanbanHome

/-- Where the import of a card ends, given what is recorded of it. -/
def destination (env : BoardEnv) (k : KanbanHome) (c : Card) : Placement :=
  let events :=
    match (k.store env).mergedEvents env.env c.id with
    | .ok events => events
    | .error _ => []
  c.placedBy (events.foldl PlacedView.next (birthView c.metaData)).placement

theorem destination_congr (h : k.SameFiles k')
    (hlogs : ((k'.store env).dir c.id).logs = ((k.store env).dir c.id).logs) :
    k'.destination env c = k.destination env c := by
  have hmerged : (k'.store env).mergedEvents env.env c.id =
      (k.store env).mergedEvents env.env c.id := by
    unfold Store.mergedEvents Store.readEvents Store.readLogs Store.sortedLogs Store.legacyEvents
    rw [hlogs, h.legacy]
  unfold destination
  rw [hmerged]

end KanbanHome

/-! ### Durable writes -/

/-- What holds where the process dies before a write, where the write raises, and behind it. -/
theorem durably_bind {α : Type} {x : Effect Board Unit} {f : Unit → Effect ImportState α}
    {left : Option ℕ} (Q : Except PyError α × ImportState → Prop)
    (hkill : ∀ left, Q (.error .killed, ⟨k, left⟩))
    (herr : ∀ e k' left, k.onBoard env x = (.error e, k') → Q (.error e, ⟨k', left⟩))
    (hok : ∀ k' left, k.onBoard env x = (.ok (), k') → Q ((f ()).run ⟨k', left⟩)) :
    Q ((durably env x >>= f).run ⟨k, left⟩) := by
  have hrun : ∀ left', left' ≠ some 0 → (durably env x).run ⟨k, left'⟩ =
      ((k.onBoard env x).1, ⟨(k.onBoard env x).2, left'.map (· - 1)⟩) := by
    intro left' hne
    match left', hne with
    | none, _ => rfl
    | some 0, hne => exact absurd rfl hne
    | some (n + 1), _ => rfl
  by_cases hleft : left = some 0
  · rw [hleft]
    exact hkill _
  · cases h : k.onBoard env x with
    | mk r k' =>
      have hrun := hrun left hleft
      rw [h] at hrun
      cases r with
      | error e =>
        rw [run_bind_of_error hrun]
        exact herr e k' _ h
      | ok u =>
        rw [run_bind_of_ok hrun]
        exact hok k' _ h

/-- A core of a legacy card. -/
structure CardCore.IsImport (core : CardCore) (c : Card) : Prop where
  id : core.id = c.id
  metaData : core.metaData = c.metaData
  initialOwner : core.initialOwner = none

/-- Building the core writes nothing; it may read the clock. -/
structure BuildsCore (b : Board) (c : Card) (p : Except PyError CardCore × Board) : Prop where
  board : p.2 = { b with ticks := p.2.ticks }
  ticks : b.ticks ≤ p.2.ticks
  core : ∀ core, p.1 = .ok core → core.IsImport c

theorem run_importCore (env : BoardEnv) (c : Card) (b : Board) : BuildsCore b c ((importCore env c).run b) := by
  have herr : ∀ (b' : Board) (e : PyError), b' = { b with ticks := b'.ticks } →
      b.ticks ≤ b'.ticks → BuildsCore b c (.error e, b') := fun b' e hb ht => ⟨hb, ht, nofun⟩
  unfold importCore
  refine run_lift_bind_rule (BuildsCore b c) (herr b · rfl le_rfl) fun title _ => ?_
  refine run_lift_bind_rule (BuildsCore b c) (herr b · rfl le_rfl) fun description _ => ?_
  -- behind the clock nothing else is drawn
  have hrest : ∀ (createdAt : String) (b' : Board), b' = { b with ticks := b'.ticks } →
      b.ticks ≤ b'.ticks → BuildsCore b c ((do
        let initialPriority ← Effect.lift (textField c.priority)
        let initialSwimlane ← Effect.lift (textField c.swimlane)
        let initialLabels ← Effect.lift (c.labels.mapM textField)
        pure
          { id := c.id
            kind := c.kind.value
            title
            description
            createdBy := c.originator
            createdAt
            acceptanceCriteria := c.acceptanceCriteria
            dependencies := c.dependencies
            initialPriority
            initialSwimlane
            initialLabels
            metaData := c.metaData } : Effect Board CardCore).run b') := by
    intro createdAt b' hb ht
    refine run_lift_bind_rule (BuildsCore b c) (herr b' · hb ht) fun _ _ => ?_
    refine run_lift_bind_rule (BuildsCore b c) (herr b' · hb ht) fun _ _ => ?_
    refine run_lift_bind_rule (BuildsCore b c) (herr b' · hb ht) fun _ _ => ?_
    exact ⟨hb, ht, fun core h => by cases h; exact ⟨rfl, rfl, rfl⟩⟩
  dsimp only
  split
  · rw [run_bind_of_ok run_drawNow]
    exact hrest _ { b with ticks := b.ticks + 1 } rfl (Nat.le_succ _)
  · rw [run_bind_of_ok (run_pure c.createdAt b)]
    exact hrest _ b rfl le_rfl

/-- The creation of a card without a core raises and writes nothing, or it sets the core. -/
theorem onBoard_importCreate (habsent : (k.store env).loadCore c.id = .ok none) :
    ∃ b, b.tasks = k.board.tasks ∧ b.agents = k.board.agents ∧ k.board.ticks ≤ b.ticks ∧
      ((∃ e, k.onBoard env (importCreate env c) = (.error e, { k with board := b }) ∧
        b.store = k.store env) ∨
      ∃ core, k.onBoard env (importCreate env c) = (.ok (), { k with board := b }) ∧
        core.IsImport c ∧ b.store = (k.store env).setCore core) := by
  have hbuild := run_importCore env c (k.openBoard env)
  cases hcore : (importCore env c).run (k.openBoard env) with
  | mk r b =>
    rw [hcore] at hbuild
    obtain ⟨hb, hticks, himport⟩ := hbuild
    dsimp only at hb hticks himport
    have hstore : b.store = k.store env := by rw [hb]; rfl
    have htasks : b.tasks = k.board.tasks := by rw [hb]; rfl
    have hagents : b.agents = k.board.agents := by rw [hb]; rfl
    cases r with
    | error e =>
      refine ⟨b, htasks, hagents, hticks, .inl ⟨e, ?_, hstore⟩⟩
      unfold KanbanHome.onBoard importCreate
      rw [run_bind_of_error hcore]
    | ok core =>
      have himport := himport core rfl
      -- the imported core has the identifier of the card, for which no core is stored
      have hload : b.creation.store.loadCore core.id = .ok none := by
        rw [himport.id]
        exact (congrArg (fun st : Store => st.loadCore c.id) hstore).trans habsent
      have hrun := run_create env.creation b.creation core
      have honBoard : ∀ p, (create env.creation .ok .ok core).run b.creation = p →
          k.onBoard env (importCreate env c) =
            (p.1.map fun _ => (), { k with board := { b with creation := p.2 } }) := by
        intro p hp
        unfold KanbanHome.onBoard importCreate
        rw [run_bind_of_ok hcore, run_bind, run_inCreation, hp]
        cases p.1 <;> rfl
      cases hp : (create env.creation .ok .ok core).run b.creation with
      | mk r s =>
        rw [hp] at hrun
        have hboard := honBoard _ hp
        cases hrun with
        | refused e => exact ⟨b, htasks, hagents, hticks, .inl ⟨e, hboard, hstore⟩⟩
        | existing old hold => cases hload.symm.trans hold
        | created hvalid habs =>
          refine ⟨{ b with creation := { b.creation with store := b.creation.store.setCore core } },
            htasks, hagents, hticks, .inr ⟨core, hboard, himport, ?_⟩⟩
          exact congrArg (fun st : Store => st.setCore core) hstore

/-! ### A card under import -/

/-- A card whose import has begun: the events that are still to be written bring it to its
destination. -/
structure Started (env : BoardEnv) (k₀ : KanbanHome) (c : Card) (k : KanbanHome) : Prop where
  core : ((k.store env).dir c.id).core ≠ .absent
  dated : (k.store env).Dated env.env c.id (env.now k.board.ticks)
  placed : ∀ folded, (k.store env).fold env.env c.id = .ok (some folded) →
    c.placedBy folded.placement = k₀.destination env c

/-- A card that stands where the import ends. -/
def Finished (env : BoardEnv) (k₀ : KanbanHome) (c : Card) (k : KanbanHome) : Prop :=
  ∃ folded, (k.store env).fold env.env c.id = .ok (some folded) ∧
    folded.placement = k₀.destination env c

theorem foldInit_placed {core : CardCore} {s : FoldState} (hcore : core.IsImport c)
    (h : foldInit cardId core = .ok s) : s.placed = birthView c.metaData := by
  unfold foldInit at h
  dsimp only at h
  rw [hcore.initialOwner] at h
  rw [← pure_eq_ok.mp h]
  unfold FoldState.placed FoldState.view Card.view birthView
  dsimp only
  rw [hcore.metaData]
  rfl

/-- A card is started when its core is set. -/
theorem started_of_setCore (henv : env.Ticking) {b : Board} {core : CardCore}
    (hcore : core.IsImport c)
    (hdated : (k.store env).Dated env.env c.id (env.now k.board.ticks))
    (hstore : b.store = (k.store env).setCore core) (hticks : k.board.ticks ≤ b.ticks) :
    Started env k c { k with board := b } := by
  have hst : ({ k with board := b } : KanbanHome).store env = (k.store env).setCore core :=
    (KanbanHome.store_withBoard (by rw [hstore]; rfl)).trans hstore
  have hdir : (({ k with board := b } : KanbanHome).store env).dir c.id =
      { (k.store env).dir c.id with core := .present core } := by
    rw [hst, ← hcore.id]
    exact Store.dir_setCore_self _ _
  have hlogs : ((({ k with board := b } : KanbanHome).store env).dir c.id).logs =
      ((k.store env).dir c.id).logs := by rw [hdir]
  have hlegacy : (({ k with board := b } : KanbanHome).store env).legacy =
      (k.store env).legacy := by rw [hst]; rfl
  refine ⟨by rw [hdir]; nofun, ?_, fun folded hfold => ?_⟩
  · exact (hdated.congr hlogs hlegacy).mono (henv.now.monotone hticks)
  · obtain ⟨core', events, s, hload, hevents, hs, rfl⟩ := Store.fold_eq_some.mp hfold
    have hpresent := Store.loadCore_eq_some hload
    rw [hdir] at hpresent
    cases hpresent
    have hmerged : (k.store env).mergedEvents env.env c.id = .ok events := by
      rw [← hevents]
      unfold Store.mergedEvents Store.readEvents Store.readLogs Store.sortedLogs
        Store.legacyEvents
      rw [hlogs, hlegacy]
    obtain ⟨s₀, h0, hs⟩ := bind_eq_ok.mp hs
    have hview := FoldState.foldEvents_placed hs
    rw [foldInit_placed hcore h0] at hview
    unfold KanbanHome.destination
    rw [hmerged]
    dsimp only
    rw [← hview]
    rfl

/-- The payload of a move to the place of a card. -/
def movePayload (c : Card) : Dict := [("column", .str c.status.value), ("order", c.order)]

theorem placing_move : PlacingPayload (movePayload c) := by
  refine ⟨⟨?_, ?_⟩, rfl, rfl⟩
  · show ["column", "order"].Nodup
    decide
  · show ∀ k ∈ ["ts", "writer", "seq", "action", "prev_hash"], k ∉ ["column", "order"]
    decide

/-- An event that leaves where the import ends. -/
theorem Started.appended {action agent : String} {payload : Dict} {p q : Placement}
    (h : Started env k₀ c k) (happ : Appended env k c.id action agent payload k')
    (hp : Stands env k c.id p) (hq : Stands env k' c.id q) (hpq : c.placedBy q = c.placedBy p) :
    Started env k₀ c k' := by
  refine ⟨by rw [happ.core]; exact h.core, happ.dated, fun folded hfold => ?_⟩
  obtain ⟨before, hbefore, rfl⟩ := hp
  have hfq : folded.placement = q := (Stands.unique ⟨folded, hfold, rfl⟩ hq)
  rw [hfq, hpq]
  exact h.placed before hbefore

/-- What happens elsewhere leaves a card under import. -/
theorem Started.waited (henv : env.Ticking) (h : Started env k₀ c k) (hfiles : k.SameFiles k')
    (hdir : (k'.store env).dir c.id = (k.store env).dir c.id) : Started env k₀ c k' := by
  refine ⟨by rw [hdir]; exact h.core, ?_, fun folded hfold => h.placed folded ?_⟩
  · exact (h.dated.congr (by rw [hdir]) hfiles.legacy).mono (henv.now.monotone hfiles.ticks)
  · rw [← Store.fold_congr hdir hfiles.legacy]
    exact hfold

theorem Finished.waited (h : Finished env k₀ c k) (hfiles : k.SameFiles k')
    (hdir : (k'.store env).dir c.id = (k.store env).dir c.id) : Finished env k₀ c k' := by
  obtain ⟨folded, hfold, hplaced⟩ := h
  refine ⟨folded, ?_, hplaced⟩
  rw [Store.fold_congr hdir hfiles.legacy]
  exact hfold

/-- What holds behind a durable append to a card that was started. -/
theorem durably_append {α : Type} (henv : env.Ticking) (h : Started env k₀ c k)
    (haction : action ∈ placingActions) (hp : PlacingPayload payload) {f : Unit → Effect ImportState α}
    {left : Option ℕ} (Q : Except PyError α × ImportState → Prop)
    (hstop : ∀ e k' left, Elsewhere env c.id k k' → Started env k₀ c k' → Q (.error e, ⟨k', left⟩))
    (hok : ∀ k' left, Appended env k c.id action agent payload k' → Q ((f ()).run ⟨k', left⟩)) :
    Q ((durably env (appendCardEvent env c.id action agent payload) >>= f).run ⟨k, left⟩) := by
  refine durably_bind Q (fun left => hstop _ _ _ (.refl env c.id k) h) (fun e k' left herr => ?_)
    fun k' left hrun => ?_
  · rcases onBoard_append env k c.id action agent payload with
      ⟨e', hrun⟩ | ⟨st, e', -, hrun⟩
    · have hother := elsewhere_append env k c.id action agent payload
      rw [herr] at hother
      obtain ⟨-, rfl⟩ := Prod.mk.inj (herr.symm.trans hrun)
      have hstore : ({ k with board := { k.openBoard env with ticks := k.board.ticks + 2 } } :
          KanbanHome).store env = k.store env := KanbanHome.store_withBoard rfl
      exact hstop _ _ _ hother (h.waited henv hother.files (by rw [hstore]))
    · cases (Prod.mk.inj (herr.symm.trans hrun)).1
  · rcases onBoard_append env k c.id action agent payload with
      ⟨e', herr⟩ | ⟨st, e', happ, hrun'⟩
    · cases (Prod.mk.inj (herr.symm.trans hrun)).1
    · obtain ⟨-, rfl⟩ := Prod.mk.inj (hrun.symm.trans hrun')
      exact hok _ _ (appended_of_ok henv haction hp h.dated happ)

/-! ### One legacy card -/

/-- What the turn of the loop for a legacy card leaves. -/
structure ImportOutcome (env : BoardEnv) (k : KanbanHome) (c : Card)
    (p : Except PyError Bool × ImportState) : Prop where
  elsewhere : Elsewhere env c.id k p.2.kanban
  own : (p.2.kanban.store env).dir c.id = (k.store env).dir c.id ∨
    ((k.store env).dir c.id).core = .absent ∧ Started env k c p.2.kanban
  finished : p.1 = .ok true → Finished env k c p.2.kanban
  skipped : p.1 = .ok false → ((k.store env).dir c.id).core ≠ .absent

/-- The card is as it was, and the turn has raised. -/
theorem ImportOutcome.unchanged (hother : Elsewhere env c.id k k')
    (hdir : (k'.store env).dir c.id = (k.store env).dir c.id) (e : PyError) (left : Option ℕ) :
    ImportOutcome env k c (.error e, ⟨k', left⟩) := ⟨hother, .inl hdir, nofun, nofun⟩

/-- The card is started, and the turn has raised. -/
theorem ImportOutcome.started (habsent : ((k.store env).dir c.id).core = .absent)
    (hother : Elsewhere env c.id k k') (h : Started env k c k') (e : PyError) (left : Option ℕ) :
    ImportOutcome env k c (.error e, ⟨k', left⟩) := ⟨hother, .inr ⟨habsent, h⟩, nofun, nofun⟩

/-- A started card that stands where its own events bring it has arrived. -/
theorem Started.finished {p q : Placement} (h : Started env k₀ c k) (hq : Stands env k c.id q)
    (hpq : q = c.placedBy p) : Finished env k₀ c k := by
  obtain ⟨folded, hfold, hplaced⟩ := hq
  refine ⟨folded, hfold, ?_⟩
  have hfixed : c.placedBy folded.placement = folded.placement := by
    rw [hplaced, hpq, Card.placedBy_placedBy]
  rw [← hfixed]
  exact h.placed folded hfold

/-- The archive event of a card and the end of its turn. -/
theorem importArchive_spec (henv : env.Ticking)
    (habsent : ((k₀.store env).dir c.id).core = .absent) (hother : Elsewhere env c.id k₀ k)
    (h : Started env k₀ c k) {p q : Placement} (hq : Stands env k c.id q)
    (hpq : { q with archived := q.archived || c.archived } = c.placedBy p) (left : Option ℕ) :
    ImportOutcome env k₀ c ((if c.archived then do
        durably env (appendCardEvent env c.id "archive" (importWriter c) [])
        pure true
      else pure true : Effect ImportState Bool).run ⟨k, left⟩) := by
  cases harchived : c.archived with
  | false =>
    have hpq : q = c.placedBy p := by
      rw [harchived, Bool.or_false] at hpq
      exact hpq
    exact ⟨hother, .inr ⟨habsent, h⟩, fun _ => h.finished hq hpq, fun h => by cases h⟩
  | true =>
    refine durably_append henv h (by decide) placing_nil _
      (fun e k' left hother' h' => .started habsent (hother.trans hother') h' e left)
      fun k' left happ => ?_
    have hstands := happ.archive placing_nil hq
    have hend : ({ q with archived := true } : Placement) = c.placedBy p := by
      rw [harchived, Bool.or_true] at hpq
      exact hpq
    -- the event that is written is one of those still to come
    have hkeep : c.placedBy { q with archived := true } = c.placedBy q := by
      unfold Card.placedBy
      rw [harchived, Bool.or_true, Bool.or_true]
    have h' := h.appended happ hq hstands hkeep
    exact ⟨hother.trans happ.elsewhere, .inr ⟨habsent, h'⟩, fun _ => h'.finished hstands hend,
      fun h => by cases h⟩

/-- The events of a card that is created, and the end of its turn. -/
theorem importEvents_spec (henv : env.Ticking)
    (habsent : ((k₀.store env).dir c.id).core = .absent) (hother : Elsewhere env c.id k₀ k)
    (h : Started env k₀ c k) (left : Option ℕ) :
    ImportOutcome env k₀ c ((do
      durably env (appendCardEvent env c.id "move" (importWriter c) (movePayload c))
      if c.owner.truthy then
        durably env (appendCardEvent env c.id "assign" (importWriter c) [("owner", c.owner)])
      if c.archived then durably env (appendCardEvent env c.id "archive" (importWriter c) [])
      pure true : Effect ImportState Bool).run ⟨k, left⟩) := by
  -- the first event puts the card into its column
  refine durably_append henv h (by decide) placing_move _
    (fun e k' left hother' h' => .started habsent (hother.trans hother') h' e left)
    fun k₁ left happ => ?_
  obtain ⟨p, hp⟩ := happ.stood
  have hq := happ.move placing_move rfl hp
  rw [show Dict.get (movePayload c) "order" = c.order from rfl] at hq
  have hkeep : c.placedBy { p with
      column := c.status, order := if c.order.isNone then p.order else c.order } =
      c.placedBy p := by
    unfold Card.placedBy
    dsimp only
    congr 1
    split <;> rfl
  have h₁ := h.appended happ hp hq hkeep
  have hother₁ := hother.trans happ.elsewhere
  cases howner : c.owner.truthy with
  | false =>
    refine importArchive_spec henv habsent hother₁ h₁ hq (p := p) ?_ left
    unfold Card.placedBy
    rw [howner]
    rfl
  | true =>
    rw [if_pos rfl]
    -- an owner is assigned by a second event, behind which the archive is the same
    refine durably_append henv h₁ (by decide) (placing_owner c.owner) _
      (fun e k' left hother' h' => .started habsent (hother₁.trans hother') h' e left)
      fun k₂ left happ₂ => ?_
    have hstands := happ₂.assign (placing_owner c.owner) hq
    rw [show Dict.get [("owner", c.owner)] "owner" = c.owner from rfl] at hstands
    refine importArchive_spec henv habsent (hother₁.trans happ₂.elsewhere)
      (h₁.appended happ₂ hq hstands ?_) hstands (p := p) ?_ left
    · unfold Card.placedBy
      rw [howner]
      rfl
    · unfold Card.placedBy
      rw [howner]
      rfl

/-- **A turn of the loop**: a card with a core is skipped; another one is created and goes one step
with each event, unless the process dies or a write raises. -/
theorem importCard_spec (henv : env.Ticking)
    (hdated : ((k.store env).dir c.id).core = .absent →
      (k.store env).Dated env.env c.id (env.now k.board.ticks)) (left : Option ℕ) :
    ImportOutcome env k c ((importCard env false c).run ⟨k, left⟩) := by
  unfold importCard
  rw [run_get_bind]
  refine run_lift_bind_rule (ImportOutcome env k c)
    (fun e => .unchanged (.refl env c.id k) rfl e left) fun existing hload => ?_
  cases existing with
  | some core =>
    refine ⟨.refl env c.id k, .inl rfl, nofun, fun _ habsent => ?_⟩
    rw [Store.loadCore_eq_some hload] at habsent
    cases habsent
  | none =>
    have habsent := Store.loadCore_eq_none hload
    have hdated := hdated habsent
    dsimp only
    rw [Option.isSome_none, if_neg Bool.false_ne_true, if_neg Bool.false_ne_true]
    obtain ⟨b, htasks, hagents, hticks, hcreate⟩ := onBoard_importCreate hload
    -- the creation writes the directory of the card and no other file
    have hfiles : b.store.legacy = (k.store env).legacy →
        (∀ other, other ≠ c.id → b.store.dir other = (k.store env).dir other) →
        Elsewhere env c.id k { k with board := b } := fun hlegacy hdir =>
      ⟨⟨htasks, hagents, rfl, rfl, rfl, rfl, hticks⟩, fun other hne => by
        rw [KanbanHome.store_withBoard hlegacy]
        exact hdir other hne⟩
    refine durably_bind (ImportOutcome env k c)
      (fun left => .unchanged (.refl env c.id k) rfl _ left) (fun e k' left herr => ?_)
      fun k₁ left hcreated => ?_
    · rcases hcreate with ⟨e', hrun, hstore⟩ | ⟨core, hrun, -, -⟩
      · obtain ⟨-, rfl⟩ := Prod.mk.inj (herr.symm.trans hrun)
        have hst : ({ k with board := b } : KanbanHome).store env = k.store env :=
          (KanbanHome.store_withBoard (by rw [hstore])).trans hstore
        exact .unchanged (hfiles (by rw [hstore]) fun _ _ => by rw [hstore]) (by rw [hst]) e left
      · cases (Prod.mk.inj (herr.symm.trans hrun)).1
    · rcases hcreate with ⟨e', hrun, -⟩ | ⟨core, hrun, hcore, hstore⟩
      · cases (Prod.mk.inj (hcreated.symm.trans hrun)).1
      · obtain ⟨-, rfl⟩ := Prod.mk.inj (hcreated.symm.trans hrun)
        -- the core is there, so the events of the card come next
        have hstarted := started_of_setCore henv hcore hdated hstore hticks
        have hother : Elsewhere env c.id k { k with board := b } :=
          hfiles (by rw [hstore]; rfl) fun other hne => by
            rw [hstore]
            exact Store.dir_setCore_of_ne _ fun heq => hne (heq.trans hcore.id)
        exact importEvents_spec henv habsent hother hstarted left

/-! ### The loop -/

/-- Every card without a core is dated before the clock. -/
def AllDated (env : BoardEnv) (k : KanbanHome) (legacy : List Card) : Prop :=
  ∀ c ∈ legacy, ((k.store env).dir c.id).core = .absent →
    (k.store env).Dated env.env c.id (env.now k.board.ticks)

/-- What the loop leaves of each card. -/
structure LoopOutcome (env : BoardEnv) (k : KanbanHome) (legacy : List Card)
    (p : Except PyError ℕ × ImportState) : Prop where
  files : k.SameFiles p.2.kanban
  kept : ∀ cardId, ((k.store env).dir cardId).core ≠ .absent ∨ firstCard legacy cardId = none →
    (p.2.kanban.store env).dir cardId = (k.store env).dir cardId
  begun : ∀ c cardId, firstCard legacy cardId = some c →
    (p.2.kanban.store env).dir cardId = (k.store env).dir cardId ∨
      Started env k c p.2.kanban
  finished : ∀ n, p.1 = .ok n → ∀ c cardId, firstCard legacy cardId = some c →
    ((k.store env).dir cardId).core = .absent → Finished env k c p.2.kanban

/-- What is begun in a home that differs elsewhere. -/
theorem Started.of_congr (hfiles : k₀.SameFiles k)
    (hdir : (k.store env).dir c.id = (k₀.store env).dir c.id) (h : Started env k c k') :
    Started env k₀ c k' := by
  refine ⟨h.core, h.dated, fun folded hfold => ?_⟩
  rw [h.placed folded hfold]
  exact KanbanHome.destination_congr hfiles (by rw [hdir])

theorem Finished.of_congr (hfiles : k₀.SameFiles k)
    (hdir : (k.store env).dir c.id = (k₀.store env).dir c.id) (h : Finished env k c k') :
    Finished env k₀ c k' := by
  obtain ⟨folded, hfold, hplaced⟩ := h
  exact ⟨folded, hfold, hplaced.trans (KanbanHome.destination_congr hfiles (by rw [hdir]))⟩

theorem Finished.core (h : Finished env k₀ c k) : ((k.store env).dir c.id).core ≠ .absent := by
  obtain ⟨folded, hfold, -⟩ := h
  obtain ⟨core, -, -, hload, -⟩ := Store.fold_eq_some.mp hfold
  rw [Store.loadCore_eq_some hload]
  nofun

/-- **The loop** leaves every card as it was, or begun; where it returns, each card without a core
has arrived. -/
theorem importCards_spec (henv : env.Ticking) : ∀ (legacy : List Card) (k : KanbanHome)
    (left : Option ℕ), AllDated env k legacy →
      LoopOutcome env k legacy ((importCards env false legacy).run ⟨k, left⟩)
  | [], k, left, _ =>
    ⟨.refl k, fun _ _ => rfl, fun _ _ _ => .inl rfl, nofun⟩
  | c :: legacy, k, left, hdated => by
    have hturn := importCard_spec henv (hdated c List.mem_cons_self) left
    unfold importCards
    cases hrun : (importCard env false c).run ⟨k, left⟩ with
    | mk r s₁ =>
      rw [hrun] at hturn
      obtain ⟨hother, hown, hfinished, hskipped⟩ := hturn
      dsimp only at hother hown hfinished hskipped
      -- the cards behind it, for which nothing has changed
      have hother' := fun cardId (hne : cardId ≠ c.id) => hother.dir cardId hne
      have hkept₁ : ∀ cardId, ((k.store env).dir cardId).core ≠ .absent ∨
          firstCard (c :: legacy) cardId = none →
          (s₁.kanban.store env).dir cardId = (k.store env).dir cardId := by
        intro cardId h
        by_cases hid : cardId = c.id
        · subst hid
          rcases hown with hdir | ⟨habsent, -⟩
          · exact hdir
          · rcases h with h | h
            · exact absurd habsent h
            · rw [firstCard_cons_self] at h
              cases h
        · exact hother' cardId hid
      cases r with
      | error e =>
        rw [run_bind_of_error hrun]
        refine ⟨hother.files, hkept₁, fun c' cardId hfirst => ?_, nofun⟩
        by_cases hid : cardId = c.id
        · subst hid
          rw [firstCard_cons_self] at hfirst
          cases hfirst
          exact hown.imp_right And.right
        · exact .inl (hother' cardId hid)
      | ok isImported =>
        rw [run_bind_of_ok hrun]
        have hcore₁ : ((s₁.kanban.store env).dir c.id).core ≠ .absent := by
          cases isImported with
          | true => exact (hfinished rfl).core
          | false =>
            have hpresent := hskipped rfl
            rw [hkept₁ c.id (.inl hpresent)]
            exact hpresent
        have hdated₁ : AllDated env s₁.kanban legacy := by
          intro c' hc' habsent
          have hne : c'.id ≠ c.id := fun hid => hcore₁ (hid ▸ habsent)
          rw [hother' _ hne] at habsent
          exact ((hdated c' (List.mem_cons_of_mem c hc') habsent).congr
            (congrArg _ (hother' _ hne)) hother.files.legacy).mono
            (henv.now.monotone hother.files.ticks)
        have hrest := importCards_spec henv legacy s₁.kanban s₁.left hdated₁
        rw [run_bind]
        cases hloop : (importCards env false legacy).run s₁ with
        | mk r s₂ =>
          rw [show (⟨s₁.kanban, s₁.left⟩ : ImportState) = s₁ from rfl, hloop] at hrest
          have hkept₂ : (s₂.kanban.store env).dir c.id = (s₁.kanban.store env).dir c.id :=
            hrest.kept c.id (.inl hcore₁)
          have hall : ∀ r' : Except PyError ℕ, (∀ n, r' = .ok n → ∃ m, r = .ok m) →
              LoopOutcome env k (c :: legacy) (r', s₂) := by
            intro r' hr
            refine ⟨hother.files.trans hrest.files, fun cardId h => ?_, fun c' cardId hfirst => ?_,
              fun n hn c' cardId hfirst habsent => ?_⟩
            · by_cases hid : cardId = c.id
              · rw [hid] at h ⊢
                exact hkept₂.trans (hkept₁ c.id h)
              · rw [firstCard_cons_ne legacy hid] at h
                refine (hrest.kept cardId ?_).trans (hother' cardId hid)
                rw [hother' cardId hid]
                exact h
            · by_cases hid : cardId = c.id
              · rw [hid, firstCard_cons_self] at hfirst
                cases hfirst
                rw [hid]
                rcases hown with hdir | ⟨-, hstarted⟩
                · exact .inl (hkept₂.trans hdir)
                · exact .inr (hstarted.waited henv hrest.files hkept₂)
              · rw [firstCard_cons_ne legacy hid] at hfirst
                have hc' := id_of_firstCard hfirst
                rcases hrest.begun c' cardId hfirst with hdir | hstarted
                · exact .inl (hdir.trans (hother' cardId hid))
                · exact .inr (hstarted.of_congr hother.files (by rw [hc']; exact hother' cardId hid))
            · by_cases hid : cardId = c.id
              · rw [hid, firstCard_cons_self] at hfirst
                cases hfirst
                rw [hid] at habsent
                cases isImported with
                | true => exact (hfinished rfl).waited hrest.files hkept₂
                | false => exact absurd habsent (hskipped rfl)
              · rw [firstCard_cons_ne legacy hid] at hfirst
                have hc' := id_of_firstCard hfirst
                obtain ⟨m, hm⟩ := hr n hn
                rw [← hother' cardId hid] at habsent
                exact (hrest.finished m hm c' cardId hfirst habsent).of_congr hother.files
                  (by rw [hc']; exact hother' cardId hid)
          cases r with
          | error e => exact hall _ nofun
          | ok imported => exact hall _ fun _ _ => ⟨imported, rfl⟩

/-! ### Two runs -/

/-- Where a card folds to, if it has a core. -/
def KanbanHome.placement (env : BoardEnv) (k : KanbanHome) (cardId : String) :
    Except PyError (Option Placement) := do
  let c ← (k.store env).fold env.env cardId
  pure (c.map Card.placement)

theorem placement_of_fold {folded : Card}
    (h : (k.store env).fold env.env cardId = .ok (some folded)) :
    k.placement env cardId = .ok (some folded.placement) := bind_eq_ok.mpr ⟨_, h, rfl⟩

theorem placement_congr (hfiles : k.SameFiles k')
    (hdir : (k'.store env).dir cardId = (k.store env).dir cardId) :
    k'.placement env cardId = k.placement env cardId := by
  unfold KanbanHome.placement
  rw [Store.fold_congr hdir hfiles.legacy]

/-- A card has arrived when its fold is at the end of its import. -/
theorem finished_iff_placement :
    k.placement env c.id = .ok (some (k₀.destination env c)) ↔ Finished env k₀ c k := by
  constructor
  · intro h
    obtain ⟨found, hfold, h⟩ := bind_eq_ok.mp h
    obtain ⟨folded, rfl, hplaced⟩ := Option.map_eq_some_iff.mp (pure_eq_ok.mp h)
    exact ⟨folded, hfold, hplaced⟩
  · rintro ⟨folded, hfold, hplaced⟩
    rw [placement_of_fold hfold, hplaced]

/-- The end of an import is read off the origin of its card. -/
theorem destination_of_origin {c' : Card} (h : c'.origin = c.origin) :
    k.destination env c' = k.destination env c := by
  obtain ⟨hid, h⟩ := Prod.mk.inj h
  obtain ⟨hmeta, h⟩ := Prod.mk.inj h
  obtain ⟨hstatus, horder, howner, harchived⟩ := Placement.mk.inj h
  unfold KanbanHome.destination Card.placedBy
  rw [hid, hmeta, hstatus, horder, howner, harchived]

/-- The legacy cards and the loop of an import that returns. -/
theorem importFromLegacy_eq_ok {left : Option ℕ} {report : ImportReport} {s : ImportState}
    (h : (importFromLegacy env false).run ⟨k, left⟩ = (.ok report, s)) :
    ∃ legacy n, legacyCards env k true = .ok legacy ∧
      (importCards env false legacy).run ⟨k, left⟩ = (.ok n, s) := by
  unfold importFromLegacy at h
  rw [run_get_bind] at h
  obtain ⟨legacy, hlegacy, h⟩ := run_lift_bind_eq_ok.mp h
  obtain ⟨n, s', hrun, h⟩ := run_bind_eq_ok.mp h
  obtain ⟨-, rfl⟩ := Prod.mk.inj h
  exact ⟨legacy, n, hlegacy, hrun⟩

/-- The home that an import leaves, however it ends. -/
theorem importFromLegacy_state {legacy : List Card} (hlegacy : legacyCards env k true = .ok legacy)
    (left : Option ℕ) :
    ((importFromLegacy env false).run ⟨k, left⟩).2 =
      ((importCards env false legacy).run ⟨k, left⟩).2 := by
  unfold importFromLegacy
  rw [run_get_bind, hlegacy, run_lift_bind]
  dsimp only
  rw [run_bind]
  cases hrun : (importCards env false legacy).run ⟨k, left⟩ with
  | mk r s => cases r <;> rfl

/-- A card that an import had begun when it stopped has arrived. -/
def BegunHasArrived (env : BoardEnv) (k stopped : KanbanHome) (c : Card) : Prop :=
  ((k.store env).dir c.id).core = .absent → ((stopped.store env).dir c.id).core ≠ .absent →
    ∃ folded, (stopped.store env).fold env.env c.id = .ok (some folded) ∧
      c.placedBy folded.placement = folded.placement

/-- What is left to a second run is dated before it as well. -/
theorem AllDated.again (henv : env.Ticking) {legacy legacy' : List Card} {r : Except PyError ℕ}
    {stopped : ImportState} (hdated : AllDated env k legacy)
    (hlegacy : legacyCards env k true = .ok legacy)
    (hlegacy' : legacyCards env stopped.kanban true = .ok legacy')
    (hstop : LoopOutcome env k legacy (r, stopped)) : AllDated env stopped.kanban legacy' := by
  intro c' hc' habsent
  rcases hstop.files.firstCard_legacyCards hlegacy hlegacy' c'.id with
    ⟨-, hnone⟩ | ⟨c, -, hfirst, -, -⟩
  · exact absurd hnone (firstCard_ne_none hc')
  · have hid := id_of_firstCard hfirst
    rcases hstop.begun c c'.id hfirst with hdir | hstarted
    · have hc := hdated c (mem_of_firstCard hfirst)
      rw [hid] at hc
      refine ((hc ?_).congr (congrArg _ hdir) hstop.files.legacy).mono
        (henv.now.monotone hstop.files.ticks)
      rw [← hdir]
      exact habsent
    · have hcore := hstarted.core
      rw [hid] at hcore
      exact absurd habsent hcore

/-- What the two ways of importing give one card. -/
theorem placement_again_iff {legacy legacy' : List Card} {r : Except PyError ℕ} {n n' : ℕ}
    {full stopped again : ImportState} (hlegacy : legacyCards env k true = .ok legacy)
    (hlegacy' : legacyCards env stopped.kanban true = .ok legacy')
    (hfull : LoopOutcome env k legacy (.ok n, full))
    (hstop : LoopOutcome env k legacy (r, stopped))
    (hagain : LoopOutcome env stopped.kanban legacy' (.ok n', again)) (cardId : String) :
    again.kanban.placement env cardId = full.kanban.placement env cardId ↔
      ∀ c, firstCard legacy cardId = some c → BegunHasArrived env k stopped.kanban c := by
  have hfiles := hstop.files
  rcases hfiles.firstCard_legacyCards hlegacy hlegacy' cardId with
    ⟨hnone, hnone'⟩ | ⟨c, c', hfirst, hfirst', horigin⟩
  · -- no run touches the card
    have hdir := hstop.kept cardId (.inr hnone)
    rw [placement_congr hagain.files (hagain.kept cardId (.inr hnone')),
      placement_congr hfiles hdir,
      placement_congr hfull.files (hfull.kept cardId (.inr hnone)), hnone]
    exact ⟨fun _ => nofun, fun _ => rfl⟩
  · obtain rfl := id_of_firstCard hfirst
    have hiff : (∀ c', firstCard legacy c.id = some c' → BegunHasArrived env k stopped.kanban c') ↔
        BegunHasArrived env k stopped.kanban c := by
      rw [hfirst]
      exact ⟨fun h => h c rfl, fun h c' hc' => Option.some.inj hc' ▸ h⟩
    rw [hiff]
    by_cases hcore : ((k.store env).dir c.id).core = .absent
    · have harrived := finished_iff_placement.mpr (hfull.finished n rfl c c.id hfirst hcore)
      rw [harrived]
      by_cases hcore' : ((stopped.kanban.store env).dir c.id).core = .absent
      · -- the second run imports it, from where the first would have
        have hdir : (stopped.kanban.store env).dir c.id = (k.store env).dir c.id := by
          rcases hstop.begun c c.id hfirst with hdir | hstarted
          · exact hdir
          · exact absurd hcore' hstarted.core
        have hdest : stopped.kanban.destination env c' = k.destination env c :=
          (destination_of_origin (horigin hdir)).trans
            (KanbanHome.destination_congr hfiles (by rw [hdir]))
        have hfinished := hagain.finished n' rfl c' c.id hfirst' hcore'
        have hplaced := finished_iff_placement.mpr hfinished
        rw [id_of_firstCard hfirst', hdest] at hplaced
        exact ⟨fun _ _ hpresent => absurd hcore' hpresent, fun _ => hplaced⟩
      · -- the second run skips it
        have hstarted : Started env k c stopped.kanban := by
          rcases hstop.begun c c.id hfirst with hdir | hstarted
          · exact absurd (by rw [hdir]; exact hcore) hcore'
          · exact hstarted
        rw [placement_congr hagain.files (hagain.kept c.id (.inl hcore')), finished_iff_placement]
        constructor
        · rintro ⟨folded, hfold, hplaced⟩ - -
          exact ⟨folded, hfold, (hstarted.placed folded hfold).trans hplaced.symm⟩
        · intro h
          obtain ⟨folded, hfold, hplaced⟩ := h hcore hcore'
          exact ⟨folded, hfold, hplaced.symm.trans (hstarted.placed folded hfold)⟩
    · -- a card with a core is skipped by every run
      have hdir := hstop.kept c.id (.inl hcore)
      have hcore' : ((stopped.kanban.store env).dir c.id).core ≠ .absent := by
        rw [hdir]
        exact hcore
      rw [placement_congr hagain.files (hagain.kept c.id (.inl hcore')),
        placement_congr hfiles hdir,
        placement_congr hfull.files (hfull.kept c.id (.inl hcore))]
      exact ⟨fun _ habsent => absurd habsent hcore, fun _ => rfl⟩

/-- **Importing again after an interruption** gives every card the place that one import gives it,
exactly when the cards begun before the interruption had arrived. -/
theorem import_survives_iff (henv : env.Ticking) {legacy : List Card}
    (hlegacy : legacyCards env k true = .ok legacy) (hdated : AllDated env k legacy) {n : ℕ}
    {report report' : ImportReport} {full again : ImportState}
    (hfull : (importFromLegacy env false).run ⟨k, none⟩ = (.ok report, full))
    (hagain : (importFromLegacy env false).run
      ⟨((importFromLegacy env false).run ⟨k, some n⟩).2.kanban, none⟩ = (.ok report', again)) :
    (∀ cardId, again.kanban.placement env cardId = full.kanban.placement env cardId) ↔
      ∀ c, firstCard legacy c.id = some c →
        BegunHasArrived env k ((importFromLegacy env false).run ⟨k, some n⟩).2.kanban c := by
  have hone := importCards_spec henv legacy k none hdated
  obtain ⟨legacy₁, n₁, hlegacy₁, hrun₁⟩ := importFromLegacy_eq_ok hfull
  cases hlegacy.symm.trans hlegacy₁
  rw [hrun₁] at hone
  have hstop := importCards_spec henv legacy k (some n) hdated
  rw [importFromLegacy_state hlegacy] at hagain ⊢
  obtain ⟨legacy', n', hlegacy', hrun'⟩ := importFromLegacy_eq_ok hagain
  have htwo := importCards_spec henv legacy' _ none (hdated.again henv hlegacy hlegacy' hstop)
  rw [hrun'] at htwo
  have hcard := placement_again_iff hlegacy hlegacy' hone hstop htwo
  refine ⟨fun h c => (hcard c.id).mp (h c.id) c, fun h cardId => (hcard cardId).mpr fun c hc => ?_⟩
  exact h c ((id_of_firstCard hc).symm ▸ hc)

/-- A home with one task, which `alice` works on, and no cards. -/
def workedHome : KanbanHome where
  board :=
    { tasks := [("t1-one.json", { id := "t1", title := "one", createdAt := "2026" })]
      agents := [("alice", { agent := "alice", lastSeen := "", currentTask := some "t1" })] }

/-- One import of `workedHome`. -/
def workedImport : Except PyError ImportReport × ImportState :=
  (importFromLegacy unaryEnv false).run ⟨workedHome, none⟩

/-- The import of `workedHome` that goes on behind one that stopped with `n` durable writes. -/
def resumedImport (n : ℕ) : Except PyError ImportReport × ImportState :=
  (importFromLegacy unaryEnv false).run
    ⟨((importFromLegacy unaryEnv false).run ⟨workedHome, some n⟩).2.kanban, none⟩

/-- The second import finds the core of the first and leaves the card in the backlog; one import
brings it to `doing`. -/
theorem import_stopped_at_core : workedImport.1.isOk = true ∧ (resumedImport 1).1.isOk = true ∧
    ¬∀ cardId, (resumedImport 1).2.kanban.placement unaryEnv cardId =
      workedImport.2.kanban.placement unaryEnv cardId := by
  refine ⟨by decide +kernel, by decide +kernel, fun h => ?_⟩
  have hcolumn : ((resumedImport 1).2.kanban.placement unaryEnv "t1").toOption.map
      (Option.map Placement.column) = some (some .backlog) := by decide +kernel
  have hcolumn' : (workedImport.2.kanban.placement unaryEnv "t1").toOption.map
      (Option.map Placement.column) = some (some .doing) := by decide +kernel
  rw [h "t1", hcolumn'] at hcolumn
  cases hcolumn

/-- An import that stops behind the last event of its only card does no harm. -/
theorem import_survives_worked : ∃ legacy, legacyCards unaryEnv workedHome true = .ok legacy ∧
    ((∀ cardId, (resumedImport 3).2.kanban.placement unaryEnv cardId =
        workedImport.2.kanban.placement unaryEnv cardId) ↔
      ∀ c, firstCard legacy c.id = some c → BegunHasArrived unaryEnv workedHome
        ((importFromLegacy unaryEnv false).run ⟨workedHome, some 3⟩).2.kanban c) := by
  have hids : (legacyCards unaryEnv workedHome true).toOption.map (List.map Card.id) =
      some ["t1"] := by decide +kernel
  have hfull : workedImport.1.isOk = true := by decide +kernel
  have hagain : (resumedImport 3).1.isOk = true := by decide +kernel
  obtain ⟨legacy, hlegacy⟩ := isOk_iff.mp (show (legacyCards unaryEnv workedHome true).isOk = true from rfl)
  obtain ⟨report, hreport⟩ := isOk_iff.mp hfull
  obtain ⟨report', hreport'⟩ := isOk_iff.mp hagain
  rw [hlegacy] at hids
  have hone : workedImport = (.ok report, workedImport.2) := eq_mk_of_fst_eq hreport
  have hanother : resumedImport 3 = (.ok report', (resumedImport 3).2) := eq_mk_of_fst_eq hreport'
  refine ⟨legacy, hlegacy, import_survives_iff unaryEnv_ticking hlegacy (fun c hc _ => ?_)
    hone hanother⟩
  have hid : c.id = "t1" := by
    have hmem : c.id ∈ legacy.map Card.id := List.mem_map.mpr ⟨c, hc, rfl⟩
    have hids : legacy.map Card.id = ["t1"] := Option.some.inj hids
    rw [hids] at hmem
    exact List.mem_singleton.mp hmem
  rw [hid]
  have hvalid : validateCardLockIdentifier "t1" = .ok "t1" := rfl
  have hlogs : ((workedHome.store unaryEnv).dir "t1").logs = [] := rfl
  have hlegacy : (workedHome.store unaryEnv).legacyEvents "t1" = [] := rfl
  exact Store.dated_of_nothing hvalid hlogs hlegacy

end SkCoord
