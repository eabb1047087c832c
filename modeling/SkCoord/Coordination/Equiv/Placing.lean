import SkCoord.CardStore.Equiv.Dated
import SkCoord.Coordination.Equiv.Mirror
import SkCoord.Coordination.Equiv.LegacyCards

/-!
# An event that places a card of the home

An append either raises and writes nothing, or it changes the directory of its card alone
(`onBoard_append`).  For a card whose records are dated before the clock, and an event that moves,
assigns, archives or reopens it, `Appended` says what the append leaves: the card has folded one
step.  `appended_of_ok` holds of any append that returns, and `append_ok` says when one does.
-/

namespace SkCoord

open Python Effect

variable {env : BoardEnv} {k k' : KanbanHome} {cardId action agent : String} {payload : Dict}

/-- The store of a home whose board has other cards. -/
theorem KanbanHome.store_withBoard {b : Board} (h : b.store.legacy = (k.store env).legacy) :
    ({ k with board := b } : KanbanHome).store env = b.store := by
  show (⟨b.store.cards, (k.store env).legacy⟩ : Store) = b.store
  rw [← h]

/-- An append raises and writes nothing, or it leaves the store that `append_event` leaves. -/
theorem onBoard_append (env : BoardEnv) (k : KanbanHome) (cardId action agent : String)
    (payload : Dict) :
    (∃ e, k.onBoard env (appendCardEvent env cardId action agent payload) =
      (.error e, { k with board := { k.openBoard env with ticks := k.board.ticks + 2 } })) ∨
    ∃ st e, (k.store env).appendEvent env.env cardId action agent payload
        ⟨env.uuid k.board.ticks, env.now (k.board.ticks + 1)⟩ = .ok (st, e) ∧
      k.onBoard env (appendCardEvent env cardId action agent payload) =
        (.ok (), { k with board := (k.openBoard env).appended st }) := by
  cases h : (k.store env).appendEvent env.env cardId action agent payload
      ⟨env.uuid k.board.ticks, env.now (k.board.ticks + 1)⟩ with
  | error e =>
    refine .inl ⟨e, ?_⟩
    unfold KanbanHome.onBoard
    rw [run_appendCardEvent_of_error (b := k.openBoard env) h]
    rfl
  | ok r =>
    refine .inr ⟨r.1, r.2, rfl, ?_⟩
    unfold KanbanHome.onBoard
    rw [run_appendCardEvent_of_ok (b := k.openBoard env) h]

/-- What is true of every card but one. -/
structure Elsewhere (env : BoardEnv) (cardId : String) (k k' : KanbanHome) : Prop where
  files : k.SameFiles k'
  dir : ∀ other, other ≠ cardId → (k'.store env).dir other = (k.store env).dir other

theorem Elsewhere.refl (env : BoardEnv) (cardId : String) (k : KanbanHome) :
    Elsewhere env cardId k k := ⟨.refl k, fun _ _ => rfl⟩

theorem Elsewhere.trans {k'' : KanbanHome} (h : Elsewhere env cardId k k')
    (h' : Elsewhere env cardId k' k'') : Elsewhere env cardId k k'' :=
  ⟨h.files.trans h'.files, fun other hne => (h'.dir other hne).trans (h.dir other hne)⟩

/-- The actions that place a card. -/
def placingActions : List String := ["move", "assign", "unassign", "archive", "reopen"]

/-- A payload of such an action. -/
structure PlacingPayload (payload : Dict) : Prop where
  plain : Store.PlainPayload payload
  transitionId : Assoc.get? payload "transition_id" = none
  column : (Dict.get payload "column").hashable = true

/-- What an append leaves: the card has gone one step. -/
structure Appended (env : BoardEnv) (k : KanbanHome) (cardId action agent : String)
    (payload : Dict) (k' : KanbanHome) : Prop where
  elsewhere : Elsewhere env cardId k k'
  store : ∃ e, k'.store env = (k.store env).appendLine cardId (Store.writerFile env.env agent)
    (.value (.obj e)) ∧ Dict.get e "action" = .str action
  step : ∃ (s s' : FoldState) (lines : List LogLine) (stamp : Stamp),
    (k.store env).FoldsTo env.env cardId (env.now k.board.ticks) s ∧
    (k'.store env).FoldsTo env.env cardId (env.now k'.board.ticks) s' ∧
    FoldState.step cardId s (Store.newEvent env.env lines action agent payload stamp) = .ok s' ∧
    (action ∈ Store.voidTerminalActions → s.voided = false)

namespace Appended

theorem core (h : Appended env k cardId action agent payload k') :
    ((k'.store env).dir cardId).core = ((k.store env).dir cardId).core := by
  obtain ⟨e, hstore, -⟩ := h.store
  rw [hstore]
  exact Store.core_appendLine cardId

theorem dated (h : Appended env k cardId action agent payload k') :
    (k'.store env).Dated env.env cardId (env.now k'.board.ticks) := by
  obtain ⟨s, s', lines, stamp, -, hs', -⟩ := h.step
  exact hs'.dated

end Appended

/-- An append that returns has gone one step. -/
theorem appended_of_ok (henv : env.Ticking) (haction : action ∈ placingActions)
    (hp : PlacingPayload payload)
    (hdated : (k.store env).Dated env.env cardId (env.now k.board.ticks)) {st : Store} {e : Event}
    (happ : (k.store env).appendEvent env.env cardId action agent payload
      ⟨env.uuid k.board.ticks, env.now (k.board.ticks + 1)⟩ = .ok (st, e)) :
    Appended env k cardId action agent payload
      { k with board := (k.openBoard env).appended st } := by
  have hne : action ≠ "release_claim" := by
    rintro rfl
    exact absurd haction (by decide)
  obtain ⟨he, hst⟩ := Store.appendEvent_plain hne hp.transitionId happ
  have hstore : ({ k with board := (k.openBoard env).appended st } : KanbanHome).store env = st :=
    KanbanHome.store_withBoard (by rw [hst]; rfl)
  have hget : e.get "action" = .str action := by rw [he]; exact hp.plain.get_action
  -- the guards of the append have folded the card
  obtain ⟨-, -, hfoldable, hvoid, -⟩ := Store.appendEvent_eq_ok happ
  obtain ⟨found, hfold, hfoldable⟩ := bind_eq_ok.mp hfoldable
  cases found with
  | none => cases hfoldable
  | some folded =>
    obtain ⟨s, hs, rfl⟩ := hdated.foldsTo hfold
    have hcolumn : (Dict.get e "column").hashable = true := by
      have heq : Dict.get e "column" = Dict.get payload "column" := by
        rw [he, Dict.get, Dict.get, hp.plain.get?_newEvent]
        cases Assoc.get? payload "column" <;> rfl
      rw [heq]
      exact hp.column
    obtain ⟨s', hstep⟩ := FoldState.step_placing cardId s hget haction hcolumn
    have hlt : env.now (k.board.ticks + 1) < env.now (k.board.ticks + 2) :=
      henv.now (Nat.lt_succ_self _)
    have hle : env.now k.board.ticks ≤ env.now (k.board.ticks + 1) :=
      henv.now.monotone (Nat.le_succ _)
    have hs' := hs.appendEvent hne hp.plain hp.transitionId hle hlt happ (he ▸ hstep)
    refine ⟨⟨⟨rfl, rfl, rfl, rfl, rfl, rfl, Nat.le_add_right _ 2⟩, fun other hother => ?_⟩,
      ⟨e, ?_, hget⟩, s, s',
      (k.store env).logLines cardId (Store.writerFile env.env agent), _, hs, ?_, he ▸ hstep,
      fun hterm => ?_⟩
    · rw [hstore, hst]
      exact Store.dir_appendLine_of_ne hother
    · rw [hstore, hst]
    · rw [hstore]
      exact hs'
    · obtain ⟨events, hevents, hnone⟩ := Store.readEvents_of_requireNotVoided hvoid hterm
      exact hs.not_voided hevents hnone

/-- An append to a card that folds returns, unless a void stands against it. -/
theorem append_ok (henv : env.Ticking) (haction : action ∈ placingActions)
    (hp : PlacingPayload payload) {s : FoldState}
    (hs : (k.store env).FoldsTo env.env cardId (env.now k.board.ticks) s)
    (hid : s.card.id = cardId)
    (hvoid : (k.store env).requireNotVoided env.env cardId action = .ok ()) :
    ∃ k', k.onBoard env (appendCardEvent env cardId action agent payload) = (.ok (), k') ∧
      Appended env k cardId action agent payload k' := by
  have hne : action ≠ "release_claim" := by
    rintro rfl
    exact absurd haction (by decide)
  rcases onBoard_append env k cardId action agent payload with ⟨e, hrun⟩ | ⟨st, e, happ, hrun⟩
  · exfalso
    have happ : (k.store env).appendEvent env.env cardId action agent payload
        ⟨env.uuid k.board.ticks, env.now (k.board.ticks + 1)⟩ = .ok (_, _) :=
      hs.appendEvent_ok hid hne hp.transitionId hvoid
    unfold KanbanHome.onBoard at hrun
    rw [run_appendCardEvent_of_ok (b := k.openBoard env) happ] at hrun
    cases (Prod.mk.inj hrun).1
  · exact ⟨_, hrun, appended_of_ok henv haction hp hs.dated happ⟩

/-- An append leaves every other card, whether it returns or raises. -/
theorem elsewhere_append (env : BoardEnv) (k : KanbanHome) (cardId action agent : String)
    (payload : Dict) : Elsewhere env cardId k
      (k.onBoard env (appendCardEvent env cardId action agent payload)).2 := by
  rcases onBoard_append env k cardId action agent payload with ⟨e, hrun⟩ | ⟨st, e, happ, hrun⟩
  · rw [hrun]
    have hstore : ({ k with board := { k.openBoard env with ticks := k.board.ticks + 2 } } :
        KanbanHome).store env = k.store env := KanbanHome.store_withBoard rfl
    exact ⟨⟨rfl, rfl, rfl, rfl, rfl, rfl, Nat.le_add_right _ 2⟩, fun other _ => by rw [hstore]⟩
  · rw [hrun]
    obtain ⟨payload', -, -, -, h⟩ := Store.appendEvent_eq_ok happ
    have hdir : st.legacy = (k.store env).legacy ∧
        ∀ other, other ≠ cardId → st.dir other = (k.store env).dir other := by
      rcases h with ⟨-, rfl⟩ | ⟨-, -, rfl⟩
      · exact ⟨rfl, fun _ _ => rfl⟩
      · exact ⟨rfl, fun other hne => Store.dir_appendLine_of_ne hne⟩
    have hstore : ({ k with board := (k.openBoard env).appended st } : KanbanHome).store env = st :=
      KanbanHome.store_withBoard hdir.1
    refine ⟨⟨rfl, rfl, rfl, rfl, rfl, rfl, Nat.le_add_right _ 2⟩, fun other hne => ?_⟩
    rw [hstore]
    exact hdir.2 other hne

/-! ### Places -/

/-- A card folds to this place. -/
def Stands (env : BoardEnv) (k : KanbanHome) (cardId : String) (p : Placement) : Prop :=
  ∃ folded, (k.store env).fold env.env cardId = .ok (some folded) ∧ folded.placement = p

theorem Stands.unique {p q : Placement} (h : Stands env k cardId p) (h' : Stands env k cardId q) :
    p = q := by
  obtain ⟨c, hc, rfl⟩ := h
  obtain ⟨c', hc', rfl⟩ := h'
  cases hc.symm.trans hc'
  rfl

theorem placing_nil : PlacingPayload [] :=
  ⟨⟨List.nodup_nil, fun _ _ => List.not_mem_nil⟩, rfl, rfl⟩

theorem placing_owner (owner : Json) : PlacingPayload [("owner", owner)] := by
  refine ⟨⟨?_, ?_⟩, rfl, rfl⟩
  · show ["owner"].Nodup
    decide
  · show ∀ k ∈ ["ts", "writer", "seq", "action", "prev_hash"], k ∉ ["owner"]
    decide

theorem placing_column {column : Json} (hcol : column.hashable = true) :
    PlacingPayload [("column", column)] := by
  refine ⟨⟨?_, ?_⟩, rfl, hcol⟩
  · show ["column"].Nodup
    decide
  · show ∀ k ∈ ["ts", "writer", "seq", "action", "prev_hash"], k ∉ ["column"]
    decide

/-- A field that is no stamp is the one of the payload. -/
theorem Store.PlainPayload.get_newEvent {env : Env} {lines : List LogLine} {stamp : Stamp}
    (hp : Store.PlainPayload payload) {field : String} (hfield : field ∉ ["event_id", "ts",
      "writer", "node", "seq", "action", "prev_hash"]) :
    Dict.get (Store.newEvent env lines action agent payload stamp) field =
      Dict.get payload field := by
  have hnone : Assoc.get? [("event_id", Json.str stamp.eventId), ("ts", .str stamp.ts),
      ("writer", .str agent), ("node", .str env.hostname), ("seq", .int lines.length),
      ("action", .str action),
      ("prev_hash", .str ((lines.getLast?.map env.lineHash).getD ""))] field = none :=
    (Assoc.get?_eq_none_iff _ _).mpr hfield
  unfold Dict.get
  rw [hp.get?_newEvent, hnone, Option.or_none]

namespace Appended

variable {p : Placement}

/-- The card of an append that returned had a place. -/
theorem stood (h : Appended env k cardId action agent payload k') : ∃ p, Stands env k cardId p := by
  obtain ⟨s, -, -, -, hs, -⟩ := h.step
  exact ⟨_, s.card, hs.fold, rfl⟩

/-- The place behind an append, by what the event does to the view of the loop. -/
theorem stands (f : Placement → Placement) (h : Appended env k cardId action agent payload k')
    (hp : PlacingPayload payload) (hnext : ∀ (v : PlacedView) (e : Event),
      (action ∈ Store.voidTerminalActions → v.claim.voided = false) →
      e.action = Action.ofString action →
      (∀ field, field ∉ ["event_id", "ts", "writer", "node", "seq", "action", "prev_hash"] →
        Dict.get e field = Dict.get payload field) → (v.next e).placement = f v.placement)
    (hstands : Stands env k cardId p) : Stands env k' cardId (f p) := by
  obtain ⟨s, s', lines, stamp, hs, hs', hstep, hvoid⟩ := h.step
  cases hstands.unique ⟨s.card, hs.fold, rfl⟩
  refine ⟨s'.card, hs'.fold, ?_⟩
  show s'.placed.placement = f s.placed.placement
  rw [FoldState.step_placed hstep]
  exact hnext s.placed _ hvoid (FoldState.action_of_str hp.plain.get_action) fun _ =>
    hp.plain.get_newEvent

theorem move (h : Appended env k cardId "move" agent payload k') (hp : PlacingPayload payload)
    {col : Column} (hcol : Dict.get payload "column" = .str col.value)
    (hstands : Stands env k cardId p) : Stands env k' cardId
      { p with
        column := col
        order := if (Dict.get payload "order").isNone then p.order
          else Dict.get payload "order" } := by
  refine h.stands (fun p => { p with
    column := col
    order := if (Dict.get payload "order").isNone then p.order else Dict.get payload "order" })
    hp (fun v e hvoid hact hfield => ?_) hstands
  have hcolumn : Dict.get e "column" = .str col.value := (hfield _ (by decide)).trans hcol
  have horder := hfield "order" (by decide)
  have hnext := PlacedView.next_move (hvoid (by decide)) hact hcolumn
  rw [horder] at hnext
  exact hnext.2

theorem assign (h : Appended env k cardId "assign" agent payload k')
    (hp : PlacingPayload payload) (hstands : Stands env k cardId p) :
    Stands env k' cardId { p with owner := Dict.get payload "owner" } := by
  refine h.stands (fun p => { p with owner := Dict.get payload "owner" }) hp
    (fun v e hvoid hact hfield => ?_) hstands
  have hnext := PlacedView.next_assign (hvoid (by decide)) hact
  rw [hfield "owner" (by decide)] at hnext
  exact hnext.2

theorem unassign (h : Appended env k cardId "unassign" agent payload k')
    (hp : PlacingPayload payload) (hstands : Stands env k cardId p) :
    Stands env k' cardId { p with owner := .null } :=
  h.stands (fun p => { p with owner := .null }) hp
    (fun _ _ hvoid hact _ => (PlacedView.next_unassign (hvoid (by decide)) hact).2)
    hstands

theorem archive (h : Appended env k cardId "archive" agent payload k')
    (hp : PlacingPayload payload) (hstands : Stands env k cardId p) :
    Stands env k' cardId { p with archived := true } :=
  h.stands (fun p => { p with archived := true }) hp
    (fun _ _ _ hact _ => (PlacedView.next_archive hact).2) hstands

/-- A reopened card keeps its column, unless the event names another. -/
theorem reopen (h : Appended env k cardId "reopen" agent payload k')
    (hp : PlacingPayload payload) (hstands : Stands env k cardId p) :
    Stands env k' cardId
      { p with
        archived := false
        column := match Dict.get payload "column" with
          | .str s => (Column.ofValue? s).getD p.column
          | _ => p.column } := by
  refine h.stands (fun p => { p with
    archived := false
    column := match Dict.get payload "column" with
      | .str s => (Column.ofValue? s).getD p.column
      | _ => p.column }) hp (fun v e hvoid hact hfield => ?_) hstands
  have hnext := PlacedView.next_reopen (hvoid (by decide)) hact
  rw [hfield "column" (by decide)] at hnext
  exact hnext.2

end Appended

end SkCoord
