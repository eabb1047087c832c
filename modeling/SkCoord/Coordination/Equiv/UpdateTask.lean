import SkCoord.Coordination.Equiv.Completing
import SkCoord.Coordination.Equiv.Labels
import SkCoord.Coordination.Equiv.Tracked

/-!
# Label updates that fail

`update_task` mirrors the opposites of the events that it completed before it writes the bytes of
the task file back.  The opposites are those of changes of the file, while the card may have other
labels than the file has tags: `updateTask_undone_iff` says of which cards and of which failing
call the labels are as before.
-/

namespace SkCoord

open Python Effect LabelAction

variable {env : DeskEnv} {d d' : Desk} {b b' : Board} {taskId actor tag tid : String}
  {s : FoldState} {edits : List LabelEdit} {pending : List String} {u : TaskUpdate} {c : Card}

/-! ### What the update calls for -/

/-- The actions of the events. -/
def actionsOf (edits : List LabelEdit) : List (LabelAction × Json) :=
  edits.map fun edit => (edit.action, edit.tag)

/-- The actions on labels that the update of the task file calls for. -/
def labelChanges (env : DeskEnv) (d : Desk) (taskId : String) (u : TaskUpdate) :
    Except PyError (List (LabelAction × Json)) := do
  let path ← taskRawPath d.files taskId
  let content ← readTaskBytes d.files path
  let text ← decodeTask content
  let data ← loadTaskJson env text
  let slot ← EditSlot.find data
  let r ← mutateTask u (env.board.now d.board.ticks) slot
  pure r.2

/-- The calls before the first that does not get to its write. -/
def reached {α : Type} : List (Option WriteFault) → List α → List α
  | [], l => l
  | _ :: _, [] => []
  | w :: faults, x :: l => if w.all fun f => f.took then x :: reached faults l else []

theorem reached_subset {α : Type} (faults : List (Option WriteFault)) (l : List α) :
    reached faults l ⊆ l := by
  fun_induction reached faults l with
  | case1 l => exact List.Subset.refl l
  | case2 => exact List.Subset.refl []
  | case3 w faults x l hw ih => exact List.cons_subset_cons x ih
  | case4 w faults x l hw => exact List.nil_subset _

theorem reached_cons {α : Type} (faults : List (Option WriteFault)) (x : α) (l : List α) :
    reached faults (x :: l) =
      if faults.head?.join.all (fun f => f.took) then x :: reached faults.tail l else [] := by
  cases faults <;> rfl

theorem reached_map {α β : Type} (g : α → β) (faults : List (Option WriteFault)) (l : List α) :
    reached faults (l.map g) = (reached faults l).map g := by
  fun_induction reached faults l with
  | case1 l => rfl
  | case2 => rfl
  | case3 w faults x l hw ih =>
    show (if _ then _ else _) = _
    rw [if_pos hw, ih, List.map_cons]
  | case4 w faults x l hw => exact if_neg hw

/-! ### The event of an action -/

/-- A turn of the loop on an action on a label, whether the card is voided or not. -/
theorem FoldState.step_label (taskId : String) (s : FoldState) {e : Event} {action : LabelAction}
    (he : e.Carries action.value [("label", .str tag), ("transition_id", .str tid)]) :
    ∃ s', FoldState.step taskId s e = .ok s' ∧
      s'.card.labels = apply s.card.labels (action, .str tag) := by
  have hlabel : e.get "label" = .str tag := he.field rfl
  have haction : e.action = Action.ofString action.value := action_of_str he.action
  have hlookup : FoldState.lookupTerminal s e = .ok () := by
    unfold FoldState.lookupTerminal
    rw [he.action]
    cases s.voided <;> rfl
  unfold FoldState.step
  rw [haction, hlookup]
  cases action with
  | addLabel =>
    refine ⟨⟨FoldState.touch (s.card.foldAddLabel e) e, s.voided⟩, ?_, ?_⟩
    · cases s.voided <;> rfl
    · show (s.card.foldAddLabel e).labels = _
      unfold Card.foldAddLabel LabelAction.apply
      rw [hlabel]
      dsimp only
      split <;> rfl
  | removeLabel =>
    refine ⟨⟨FoldState.touch (s.card.foldRemoveLabel e) e, s.voided⟩, ?_, ?_⟩
    · cases s.voided <;> rfl
    · show (e.get "label").remove s.card.labels = _
      rw [hlabel]
      rfl

/-- A card that folds, and the transitions of events that are still to come. -/
structure Board.Follows (env : BoardEnv) (b : Board) (cardId : String) (s : FoldState)
    (pending : List String) : Prop where
  folds : b.store.FoldsTo env.env cardId (env.now b.ticks) s
  id : s.card.id = cardId
  unwritten : ∀ t ∈ pending, FreshTransition b.store cardId t
  drawn : ∀ t ∈ pending, ∃ k < b.ticks, t = env.uuid k
  fresh : ∀ k, b.ticks ≤ k → FreshTransition b.store cardId (env.uuid k)

theorem Board.Follows.congr (henv : env.board.Ticking) (h : b.Follows env.board taskId s pending)
    (hstore : b'.store = b.store) (hticks : b.ticks ≤ b'.ticks) :
    b'.Follows env.board taskId s pending := by
  refine ⟨?_, h.id, fun t ht => ?_, fun t ht => ?_, fun k hk => ?_⟩
  · rw [hstore]
    exact h.folds.mono (henv.now.monotone hticks)
  · rw [hstore]
    exact h.unwritten t ht
  · obtain ⟨k, hk, rfl⟩ := h.drawn t ht
    exact ⟨k, hk.trans_le hticks, rfl⟩
  · rw [hstore]
    exact h.fresh k (hticks.trans hk)

/-- With fewer transitions still to come. -/
theorem Board.Follows.mono {rest : List String} (h : b.Follows env.board taskId s pending)
    (hsub : rest ⊆ pending) : b.Follows env.board taskId s rest :=
  ⟨h.folds, h.id, fun t ht => h.unwritten t (hsub ht), fun t ht => h.drawn t (hsub ht), h.fresh⟩

/-- The event of an action on a label. -/
theorem run_label (henv : env.board.Ticking)
    (h : b.Follows env.board taskId s (tid :: pending)) (hnew : tid ∉ pending)
    (action : LabelAction) (actor tag : String) :
    ∃ b' s', (appendCardEvent env.board taskId action.value actor
        [("label", .str tag), ("transition_id", .str tid)]).run b = (.ok (), b') ∧
      b'.Follows env.board taskId s' pending ∧ b'.faults = b.faults ∧
      b'.store.hasTransition env.board.env taskId tid = .ok true ∧
      s'.card.labels = apply s.card.labels (action, .str tag) := by
  obtain ⟨j, hj, rfl⟩ := h.drawn tid List.mem_cons_self
  have hp : TransitionPayload [("label", .str tag), ("transition_id", .str (env.board.uuid j))]
      (env.board.uuid j) :=
    .of_keys ["label", "transition_id"] rfl (by decide) (by decide) rfl
  have hvoid : b.store.requireNotVoided env.board.env taskId action.value = .ok () := by
    cases action <;> rfl
  have hnorm : Store.normalisePayload env.board.env action.value
      [("label", .str tag), ("transition_id", .str (env.board.uuid j))] =
        .ok [("label", .str tag), ("transition_id", .str (env.board.uuid j))] := by
    cases action <;> rfl
  obtain ⟨b', e, hrun, he, hwrites⟩ := run_append_written actor henv h.folds h.id hvoid hnorm hp
    (henv.uuid_ne j) (h.unwritten _ List.mem_cons_self)
  obtain ⟨s', hstep, hlabels⟩ := FoldState.step_label taskId s he
  refine ⟨b', s', hrun, ⟨hwrites.folds _ hstep, (FoldState.step_same hstep).1.trans h.id,
    fun t ht => ?_, fun t ht => ?_, fun k hk => ?_⟩, hwrites.faults, hwrites.durable, hlabels⟩
  · exact hwrites.fresh t (fun heq => hnew (heq ▸ ht)) (h.unwritten t (List.mem_cons_of_mem _ ht))
  · obtain ⟨k, hk, rfl⟩ := h.drawn t (List.mem_cons_of_mem _ ht)
    exact ⟨k, hk.trans_le hwrites.beside.ticks, rfl⟩
  · have hle := hwrites.beside.ticks.trans hk
    refine hwrites.fresh _ (fun heq => ?_) (h.fresh k hle)
    have hkj := henv.uuid heq
    omega

/-! ### A mirror call -/

@[simp] theorem run_onBoard {α : Type} (x : Effect Board α) :
    (Desk.onBoard x).run d = ((x.run d.board).1, { d with board := (x.run d.board).2 }) := rfl

theorem run_onBoard_eq {α : Type} {x : Effect Board α} {r : Except PyError α}
    (h : x.run d.board = (r, b')) : (Desk.onBoard x).run d = (r, { d with board := b' }) := by
  rw [run_onBoard, h]

theorem run_onBoard_eq_ok {α : Type} {x : Effect Board α} {a : α}
    (h : (Desk.onBoard x).run d = (.ok a, d')) :
    ∃ b', x.run d.board = (.ok a, b') ∧ d' = { d with board := b' } := by
  rw [run_onBoard] at h
  obtain ⟨hr, rfl⟩ := Prod.mk.inj h
  exact ⟨_, Prod.ext hr rfl, rfl⟩

/-- The files and the records of a desk are not those of its board. -/
structure Desk.SameFiles (d d' : Desk) : Prop where
  files : d'.files = d.files
  records : d'.records = d.records

theorem Desk.SameFiles.refl (d : Desk) : d.SameFiles d := ⟨rfl, rfl⟩

theorem Desk.SameFiles.trans {d'' : Desk} (h : d.SameFiles d') (h' : d'.SameFiles d'') :
    d.SameFiles d'' :=
  ⟨h'.files.trans h.files, h'.records.trans h.records⟩

/-- What one turn of the loop over the events leaves. -/
inductive LabelTurn (env : DeskEnv) (d : Desk) (taskId : String) (s : FoldState)
    (pending : List String) (p : LabelAction × Json) (w : Option WriteFault) :
    Except PyError (Option PyError) × Desk → Prop where
  | written (d' : Desk) (s' : FoldState) (hw : w.all (fun f => f.took) = true)
      (follows : d'.board.Follows env.board taskId s' pending) (same : d.SameFiles d')
      (faults : d'.board.faults = d.board.faults.tail)
      (labels : s'.card.labels = apply s.card.labels p) :
      LabelTurn env d taskId s pending p w (.ok none, d')
  | lost (d' : Desk) (e : PyError) (hw : w.all (fun f => f.took) = false)
      (follows : d'.board.Follows env.board taskId s pending) (same : d.SameFiles d') :
      LabelTurn env d taskId s pending p w (.ok (some e), d')
  | killed (d' : Desk) (same : d.SameFiles d') :
      LabelTurn env d taskId s pending p w (.error .killed, d')

/-- Where the mirror call raises, durability decides. -/
theorem run_mirrorTurn_of_error (edit : LabelEdit) {e : PyError}
    (h : (mirrorCardStore env.board (appendCardEvent env.board taskId edit.action.value actor
      [("label", edit.tag), ("transition_id", .str edit.transitionId)])).run d.board =
        (.error e, b')) (he : e ≠ .killed) :
    (mirrorTurn env taskId actor edit).run d =
      (.ok (labelFailure env taskId edit e { d with board := b' }), { d with board := b' }) := by
  have hbody : (do
      mirrorLabel env taskId actor edit
      pure none : Effect Desk (Option PyError)).run d = (.error e, { d with board := b' }) :=
    run_bind_of_error (run_onBoard_eq h)
  unfold mirrorTurn
  rw [run_tryExcept_of_error hbody he]
  rfl

theorem run_mirrorTurn_of_killed (edit : LabelEdit)
    (h : (mirrorCardStore env.board (appendCardEvent env.board taskId edit.action.value actor
      [("label", edit.tag), ("transition_id", .str edit.transitionId)])).run d.board =
        (.error .killed, b')) :
    (mirrorTurn env taskId actor edit).run d = (.error .killed, { d with board := b' }) :=
  run_tryExcept_of_killed (run_bind_of_error (run_onBoard_eq h))

theorem run_mirrorTurn_of_ok (edit : LabelEdit)
    (h : (mirrorCardStore env.board (appendCardEvent env.board taskId edit.action.value actor
      [("label", edit.tag), ("transition_id", .str edit.transitionId)])).run d.board =
        (.ok (), b')) :
    (mirrorTurn env taskId actor edit).run d = (.ok none, { d with board := b' }) :=
  run_tryExcept_of_ok (run_bind_of_ok (run_onBoard_eq h))

/-- No failure where the store has the transition. -/
theorem labelFailure_of_durable {edit : LabelEdit} {e : PyError}
    (htrue : d.board.store.hasTransition env.board.env taskId edit.transitionId = .ok true) :
    labelFailure env taskId edit e d = none := by
  rw [labelFailure, Store.transitionsAreDurable, htrue]
  rfl

/-- The error itself where the store does not have the transition. -/
theorem labelFailure_of_fresh {edit : LabelEdit} {e : PyError}
    (hfalse : d.board.store.hasTransition env.board.env taskId edit.transitionId = .ok false) :
    labelFailure env taskId edit e d = some e := by
  rw [labelFailure, Store.transitionsAreDurable, hfalse]
  rfl

section

variable (henv : env.board.Ticking) (hwrite : env.board.env.writeEnabled = true)

include henv hwrite

/-- **A turn of the loop** over the label events: the event is written, or it is lost and the turn
says so, or the process dies. -/
theorem labelTurn (actor : String) {edit : LabelEdit}
    (h : d.board.Follows env.board taskId s (edit.transitionId :: pending))
    (hnew : edit.transitionId ∉ pending) (htag : edit.tag = .str tag) :
    LabelTurn env d taskId s pending (edit.action, edit.tag) d.board.faults.head?.join
      ((mirrorTurn env taskId actor edit).run d) := by
  obtain ⟨action, _, tid⟩ := edit
  obtain rfl := htag
  have hwritten (faults : List (Option WriteFault)) := run_label
    (b := { d.board with faults }) henv (h.congr henv rfl le_rfl) hnew action actor tag
  cases hfaults : d.board.faults with
  | nil =>
    obtain ⟨b', s', hrun, hfollows, hrest, -, hlabels⟩ := hwritten []
    have hsame : ({ d.board with faults := [] } : Board) = d.board := by rw [← hfaults]
    rw [hsame] at hrun
    rw [run_mirrorTurn_of_ok ⟨action, .str tag, tid⟩
      ((run_mirrorCardStore hwrite hfaults).trans hrun)]
    exact .written _ s' rfl hfollows ⟨rfl, rfl⟩ (hrest.trans (by rw [hfaults]; rfl)) hlabels
  | cons w faults =>
    obtain ⟨b', s', hrun, hfollows, hrest, hdurable, hlabels⟩ := hwritten faults
    -- the next fault decides: none, one behind the write or one before it
    cases w with
    | none =>
      rw [run_mirrorTurn_of_ok ⟨action, .str tag, tid⟩
        ((run_mirror_passed hwrite hfaults).trans hrun)]
      exact .written _ s' rfl hfollows ⟨rfl, rfl⟩ (hrest.trans (by rw [hfaults]; rfl)) hlabels
    | some f =>
      cases htook : f.took with
      | true =>
        have hmirror := run_mirror_took hwrite hfaults htook hrun
        by_cases halive : f.error = .killed
        · rw [halive] at hmirror
          rw [run_mirrorTurn_of_killed ⟨action, .str tag, tid⟩ hmirror]
          exact .killed _ ⟨rfl, rfl⟩
        · rw [run_mirrorTurn_of_error ⟨action, .str tag, tid⟩ hmirror halive]
          have hnone : labelFailure env taskId ⟨action, .str tag, tid⟩ f.error
              { d with board := b' } = none := labelFailure_of_durable hdurable
          rw [hnone]
          exact .written _ s' htook hfollows ⟨rfl, rfl⟩ (hrest.trans (by rw [hfaults]; rfl)) hlabels
      | false =>
        have hmirror := run_mirror_lost (x := appendCardEvent env.board taskId action.value actor
          [("label", .str tag), ("transition_id", .str tid)]) hwrite hfaults htook
        by_cases halive : f.error = .killed
        · rw [halive] at hmirror
          rw [run_mirrorTurn_of_killed ⟨action, .str tag, tid⟩ hmirror]
          exact .killed _ ⟨rfl, rfl⟩
        · rw [run_mirrorTurn_of_error ⟨action, .str tag, tid⟩ hmirror halive]
          have hsome : labelFailure env taskId ⟨action, .str tag, tid⟩ f.error
              { d with board := { d.board with faults } } = some f.error := by
            have hfalse : d.board.store.hasTransition env.board.env taskId tid = .ok false :=
              hasTransition_of_fresh h.folds.dated (h.unwritten tid List.mem_cons_self)
            exact labelFailure_of_fresh hfalse
          rw [hsome]
          exact .lost _ _ htook ((h.mono (List.subset_cons_self _ _)).congr henv rfl le_rfl)
            ⟨rfl, rfl⟩

/-- What the loop over the events leaves. -/
inductive LabelLoop (env : DeskEnv) (d : Desk) (taskId : String) (s : FoldState)
    (edits : List LabelEdit) :
    Except PyError (List LabelEdit × Option PyError) × Desk → Prop where
  | ended (d' : Desk) (s' : FoldState) (failure : Option PyError)
      (follows : d'.board.Follows env.board taskId s' []) (same : d.SameFiles d')
      (labels : s'.card.labels =
        (actionsOf (reached d.board.faults edits)).foldl apply s.card.labels) :
      LabelLoop env d taskId s edits (.ok (reached d.board.faults edits, failure), d')
  | killed (d' : Desk) (same : d.SameFiles d') :
      LabelLoop env d taskId s edits (.error .killed, d')

/-- The loop over the events of texts, whose transitions are drawn and not yet written. -/
theorem labelLoop (actor : String) : ∀ {edits : List LabelEdit} {d : Desk} {s : FoldState},
    d.board.Follows env.board taskId s (edits.map (·.transitionId)) →
    (edits.map (·.transitionId)).Nodup → OnTexts (actionsOf edits) →
    LabelLoop env d taskId s edits ((mirrorLabels env taskId actor edits).run d)
  | [], d, s, h, _, _ => by
    have hnone : reached d.board.faults ([] : List LabelEdit) = [] := by
      cases d.board.faults <;> rfl
    have hended : LabelLoop env d taskId s [] (.ok (reached d.board.faults [], none), d) :=
      .ended d s none h (.refl d) (by rw [hnone]; rfl)
    rwa [hnone] at hended
  | edit :: edits, d, s, h, hnodup, htexts => by
    obtain ⟨hnew, hrest⟩ := List.nodup_cons.mp hnodup
    obtain ⟨tag, htag⟩ := htexts _ List.mem_cons_self
    have hturn := labelTurn henv hwrite actor h hnew htag
    unfold mirrorLabels
    generalize hp : (mirrorTurn env taskId actor edit).run d = p at hturn
    cases hturn with
    | written d₁ s₁ hw follows same faults labels =>
      rw [run_bind_of_ok hp]
      -- the turn was written: the rest of the loop goes on behind it
      have hloop := labelLoop actor follows hrest fun q hq => htexts q (List.mem_cons_of_mem _ hq)
      dsimp only
      generalize hq : (mirrorLabels env taskId actor edits).run d₁ = q at hloop
      cases hloop with
      | ended d₂ s₂ failure follows₂ same₂ labels₂ =>
        rw [run_bind_of_ok hq]
        have hreached : edit :: reached d₁.board.faults edits =
            reached d.board.faults (edit :: edits) := by
          rw [reached_cons, if_pos hw, faults]
        show LabelLoop env d taskId s (edit :: edits)
          (.ok (edit :: reached d₁.board.faults edits, failure), d₂)
        rw [hreached]
        refine .ended d₂ s₂ failure follows₂ (same.trans same₂) ?_
        rw [← hreached, labels₂, labels]
        rfl
      | killed d₂ same₂ =>
        rw [run_bind_of_error hq]
        exact .killed d₂ (same.trans same₂)
    | lost d₁ e hw follows same =>
      rw [run_bind_of_ok hp]
      have hreached : reached d.board.faults (edit :: edits) = [] := by
        rw [reached_cons, hw, if_neg Bool.false_ne_true]
      have hended : LabelLoop env d taskId s (edit :: edits)
          (.ok (reached d.board.faults (edit :: edits), some e), d₁) := .ended d₁ s (some e)
        (follows.mono (List.nil_subset _)) same (by rw [hreached]; rfl)
      rwa [hreached] at hended
    | killed d₁ same =>
      rw [run_bind_of_error hp]
      exact .killed d₁ same

/-- The opposites of the events, where none of their calls fails. -/
theorem run_undoLabels : ∀ {edits : List LabelEdit} {d d' : Desk} {s : FoldState},
    d.board.Follows env.board taskId s [] → OnTexts (actionsOf edits) →
    (undoLabels env taskId actor edits).run d = (.ok (), d') →
    ∃ s', d'.board.Follows env.board taskId s' [] ∧ d.SameFiles d' ∧
      s'.card.labels = ((actionsOf edits).map fun p => (p.1.inverse, p.2)).foldl apply s.card.labels
  | [], d, d', s, h, _, hrun => by
    cases hrun
    exact ⟨s, h, .refl d, rfl⟩
  | edit :: edits, d, d', s, h, htexts, hrun => by
    obtain ⟨tag, htag⟩ := htexts _ List.mem_cons_self
    obtain ⟨action, _, tid⟩ := edit
    obtain rfl := htag
    unfold undoLabels at hrun
    rw [run_bind_of_ok (run_onBoard_eq run_drawUuid)] at hrun
    obtain ⟨⟨⟩, d₁, hmirror, hrun⟩ := run_bind_eq_ok.mp hrun
    -- the identifier is drawn now
    have hdrawn : ({ d.board with ticks := d.board.ticks + 1 } : Board).Follows env.board taskId s
        [env.board.uuid d.board.ticks] := by
      have hlater : ({ d.board with ticks := d.board.ticks + 1 } : Board).Follows env.board taskId
          s [] := h.congr henv rfl (Nat.le_succ _)
      refine ⟨hlater.folds, h.id, fun t ht => ?_, fun t ht => ?_, hlater.fresh⟩
      · cases List.mem_singleton.mp ht
        exact h.fresh _ le_rfl
      · cases List.mem_singleton.mp ht
        exact ⟨_, Nat.lt_succ_self _, rfl⟩
    obtain ⟨b₁, hboard, rfl⟩ := run_onBoard_eq_ok hmirror
    unfold mirrorCardStore at hboard
    rw [if_pos hwrite] at hboard
    obtain ⟨faults, hboard⟩ := run_writing_eq_ok hboard
    obtain ⟨b', s₁, hlabel, hfollows, -, -, hlabels⟩ := run_label
      (b := { d.board with ticks := d.board.ticks + 1, faults }) henv
      (hdrawn.congr henv rfl le_rfl) (by simp) action.inverse actor tag
    cases hboard.symm.trans hlabel
    obtain ⟨s', hfollows', hsame, hlabels'⟩ := run_undoLabels hfollows
      (fun q hq => htexts q (List.mem_cons_of_mem _ hq)) hrun
    refine ⟨s', hfollows', ⟨hsame.files, hsame.records⟩, ?_⟩
    rw [hlabels', hlabels]
    rfl

end

/-! ### The rewrite of the file -/

/-- The identifiers from a reading of the clock on. -/
def drawnFrom (env : DeskEnv) (n : ℕ) (count : ℕ) : List String :=
  (List.range' n count).map env.board.uuid

theorem run_drawEdits (env : DeskEnv) : ∀ (actions : List (LabelAction × Json)) (d : Desk), ∃ edits,
    (drawEdits env actions).run d = (.ok edits,
      { d with board := { d.board with ticks := d.board.ticks + actions.length } }) ∧
    actionsOf edits = actions ∧
    edits.map (·.transitionId) = drawnFrom env d.board.ticks actions.length
  | [], d => ⟨[], rfl, rfl, rfl⟩
  | (action, tag) :: actions, d => by
    obtain ⟨edits, hrun, hactions, hids⟩ := run_drawEdits env actions
      { d with board := { d.board with ticks := d.board.ticks + 1 } }
    refine ⟨⟨action, tag, env.board.uuid d.board.ticks⟩ :: edits, ?_, ?_, ?_⟩
    · unfold drawEdits
      rw [run_bind_of_ok (run_onBoard_eq run_drawUuid), run_bind_of_ok hrun, List.length_cons,
        Nat.add_comm actions.length, ← Nat.add_assoc]
      rfl
    · rw [← hactions]
      rfl
    · rw [List.map_cons, hids]
      rfl

theorem nodup_drawnFrom (henv : env.board.Ticking) (n count : ℕ) :
    (drawnFrom env n count).Nodup :=
  List.Nodup.map henv.uuid List.nodup_range'

theorem mem_drawnFrom_iff {n count : ℕ} {t : String} :
    t ∈ drawnFrom env n count ↔ ∃ k, n ≤ k ∧ k < n + count ∧ t = env.board.uuid k := by
  unfold drawnFrom
  simp only [List.mem_map, List.mem_range'_1]
  constructor
  · rintro ⟨k, ⟨hle, hlt⟩, rfl⟩
    exact ⟨k, hle, hlt, rfl⟩
  · rintro ⟨k, hle, hlt, rfl⟩
    exact ⟨k, ⟨hle, hlt⟩, rfl⟩

/-- What the rewrite of the task file leaves, with the events that it calls for. -/
structure Rewritten (env : DeskEnv) (d d' : Desk) (taskId : String) (u : TaskUpdate)
    (path : String) (edits : List LabelEdit) : Prop where
  changes : labelChanges env d taskId u = .ok (actionsOf edits)
  files : ∃ content, d'.files = Assoc.set d.files path content
  records : d'.records = d.records
  store : d'.board.store = d.board.store
  faults : d'.board.faults = d.board.faults
  ticks : ∃ n, d.board.ticks ≤ n ∧ d'.board.ticks = n + edits.length ∧
    edits.map (·.transitionId) = drawnFrom env n edits.length
  texts : OnTexts (actionsOf edits)
  oneWay : OneWay (actionsOf edits)

/-- The rewrite raises and has changed no file and no record, or it leaves what it should. -/
theorem run_writeTaskRaw (env : DeskEnv) (d : Desk) (taskId : String) (u : TaskUpdate) :
    (∃ e d', (writeTaskRaw env taskId u).run d = (.error e, d') ∧ d.SameFiles d') ∨
      ∃ path edits d', (writeTaskRaw env taskId u).run d = (.ok (path, edits), d') ∧
        taskRawPath d.files taskId = .ok path ∧ Rewritten env d d' taskId u path edits := by
  let Q (p : Except PyError (String × List LabelEdit) × Desk) : Prop :=
    (∃ e d', p = (.error e, d') ∧ d.SameFiles d') ∨
      ∃ path edits d', p = (.ok (path, edits), d') ∧
        taskRawPath d.files taskId = .ok path ∧ Rewritten env d d' taskId u path edits
  show Q _
  unfold writeTaskRaw
  rw [run_get_bind]
  refine run_lift_bind_rule Q (fun e => .inl ⟨e, d, rfl, .refl d⟩) fun path hpath => ?_
  refine run_lift_bind_rule Q (fun e => .inl ⟨e, d, rfl, .refl d⟩) fun content hcontent => ?_
  refine run_lift_bind_rule Q (fun e => .inl ⟨e, d, rfl, .refl d⟩) fun text htext => ?_
  refine run_lift_bind_rule Q (fun e => .inl ⟨e, d, rfl, .refl d⟩) fun data hdata => ?_
  refine run_lift_bind_rule Q (fun e => .inl ⟨e, d, rfl, .refl d⟩) fun slot hslot => ?_
  rw [run_bind_of_ok (run_onBoard_eq run_drawNow)]
  refine run_lift_bind_rule Q (fun e => .inl ⟨e, _, rfl, ⟨rfl, rfl⟩⟩) fun r hr => ?_
  obtain ⟨task, actions⟩ := r
  obtain ⟨edits, hrun, hactions, hids⟩ := run_drawEdits env actions
    { d with board := { d.board with ticks := d.board.ticks + 1 } }
  dsimp only
  rw [run_bind_of_ok hrun]
  have hlength : actions.length = edits.length := by
    rw [← hactions]
    exact List.length_map _
  have hspec := mutateTask_actions hr
  refine .inr ⟨path, edits, _, rfl, hpath, ⟨?_, ⟨_, rfl⟩, rfl, rfl, rfl, ?_, ?_, ?_⟩⟩
  · unfold labelChanges
    rw [hpath, ok_bind, hcontent, ok_bind, htext, ok_bind, hdata, ok_bind, hslot, ok_bind, hr,
      hactions]
    rfl
  · exact ⟨d.board.ticks + 1, Nat.le_succ _, by rw [← hlength], by rw [hids, hlength]⟩
  · rw [hactions]
    exact hspec.1
  · rw [hactions]
    exact hspec.2

/-! ### The handler -/

/-- What the append of a record leaves. -/
structure Recorded (d d' : Desk) (phase : String) (e : PyError) : Prop where
  records : d'.records = d.records ∨
    ∃ r, d'.records = d.records ++ [r] ∧ r.phase = phase ∧ r.error = e.str
  files : d'.files = d.files
  store : d'.board.store = d.board.store

theorem recorded (env : DeskEnv) (d : Desk) (taskId actor phase : String) (e : PyError)
    (compensation : Option String) :
    Recorded d ((recordLabels env taskId actor phase e compensation).run d).2 phase e := by
  unfold recordLabels
  rw [run_bind_of_ok (run_onBoard_eq run_drawUuid), run_bind_of_ok (run_onBoard_eq run_drawNow)]
  unfold Desk.appendRecord
  show Recorded d (Desk.writing _ _).2 phase e
  unfold Desk.writing
  dsimp only
  split
  · exact ⟨.inr ⟨_, rfl, rfl, rfl⟩, rfl, rfl⟩
  · exact ⟨.inr ⟨_, rfl, rfl, rfl⟩, rfl, rfl⟩
  · split
    · exact ⟨.inr ⟨_, rfl, rfl, rfl⟩, rfl, rfl⟩
    · exact ⟨.inl rfl, rfl, rfl⟩

/-- The write of a file leaves the board and the records. -/
theorem run_writing_putFile (path : String) (text : List Char) (d : Desk) :
    ∃ r d', (Desk.writing (Desk.putFile path text)).run d = (r, d') ∧ d'.records = d.records ∧
      d'.board.store = d.board.store ∧
      (r = .ok () → d'.files = Assoc.set d.files path (encodeUtf8 text)) := by
  show ∃ r d', Desk.writing (Desk.putFile path text) d = (r, d') ∧ _
  unfold Desk.writing
  split
  · exact ⟨_, _, rfl, rfl, rfl, fun _ => rfl⟩
  · exact ⟨_, _, rfl, rfl, rfl, fun _ => rfl⟩
  · split
    · exact ⟨_, _, rfl, rfl, rfl, nofun⟩
    · exact ⟨_, _, rfl, rfl, rfl, nofun⟩

theorem keeps_undoLabels (records : List LabelRecord) : ∀ edits : List LabelEdit,
    Keeps (fun d => d.records = records) (undoLabels env taskId actor edits)
  | [] => keeps_pure ()
  | _ :: edits => by
    unfold undoLabels
    refine .bind (fun d h => h) fun _ => .bind (fun d h => ?_) fun _ =>
      keeps_undoLabels records edits
    exact h

/-- Behind the body of the handler at most the record of a failure is written. -/
theorem labelsFailed_after {path : String} {original : Bytes} {completed : List LabelEdit}
    {e : PyError} {r r' : Except PyError Unit} {d₁ : Desk}
    (hrun : (labelsFailed env taskId actor path original completed e).run d = (r, d'))
    (hbody : (restoreLabels env taskId actor path original completed e).run d = (r', d₁)) :
    d' = d₁ ∨ Recorded d₁ d' "label_compensation_failed" e := by
  unfold labelsFailed at hrun
  cases r' with
  | ok a =>
    rw [run_tryExcept_of_ok hbody] at hrun
    cases hrun
    exact .inl rfl
  | error e' =>
    by_cases he : e' = .killed
    · subst he
      rw [run_tryExcept_of_killed hbody] at hrun
      cases hrun
      exact .inl rfl
    · rw [run_tryExcept_of_error hbody he] at hrun
      have hrecorded := recorded env d₁ taskId actor "label_compensation_failed" e (some e'.str)
      cases hrecord : (recordLabels env taskId actor "label_compensation_failed" e
          (some e'.str)).run d₁ with
      | mk r₂ d₂ =>
        rw [hrecord] at hrecorded
        cases r₂ with
        | ok a =>
          rw [run_bind_of_ok hrecord] at hrun
          cases hrun
          exact .inr hrecorded
        | error e₂ =>
          rw [run_bind_of_error hrecord] at hrun
          cases hrun
          exact .inr hrecorded

/-- The record of a restoration is written behind the opposites and the bytes of the file. -/
theorem restored_of_record {path : String} {original : Bytes} {completed : List LabelEdit}
    {e : PyError} {r : Except PyError Unit} {record : LabelRecord}
    (hrun : (labelsFailed env taskId actor path original completed e).run d = (r, d'))
    (hrecord : d'.records = d.records ++ [record])
    (hphase : record.phase = "legacy_task_restored") :
    ∃ d₁, (undoLabels env taskId actor completed.reverse).run d = (.ok (), d₁) ∧
      d'.files = Assoc.set d₁.files path original ∧ d'.board.store = d₁.board.store := by
  have hafter := @labelsFailed_after env d d' taskId actor path original completed e r
  -- a body that stops before its record ends otherwise
  have hstuck {d₁ : Desk} (hrecords : d₁.records = d.records)
      (hend : d' = d₁ ∨ Recorded d₁ d' "label_compensation_failed" e) : False := by
    rcases hend with rfl | hfailed
    · rw [hrecords] at hrecord
      simpa using congrArg List.length hrecord
    · rcases hfailed.records with hnone | ⟨r', hr', hphase', -⟩
      · rw [hnone, hrecords] at hrecord
        simpa using congrArg List.length hrecord
      · rw [hr', hrecords] at hrecord
        obtain rfl : r' = record := by simpa using hrecord
        rw [hphase'] at hphase
        exact absurd hphase (by decide)
  cases hundo : (undoLabels env taskId actor completed.reverse).run d with
  | mk r₁ d₁ =>
    have hrecords : d₁.records = d.records :=
      (keeps_undoLabels d.records completed.reverse).of_run rfl hundo
    cases r₁ with
    | error e' =>
      have hbody : (restoreLabels env taskId actor path original completed e).run d =
          (.error e', d₁) := run_bind_of_error hundo
      exact (hstuck hrecords (hafter hrun hbody)).elim
    | ok a =>
      refine ⟨d₁, rfl, ?_⟩
      cases hdecode : decodeTask original with
      | error e' =>
        have hbody : (restoreLabels env taskId actor path original completed e).run d =
            (.error e', d₁) := by
          unfold restoreLabels
          rw [run_bind_of_ok hundo, run_lift_bind, hdecode]
        exact (hstuck hrecords (hafter hrun hbody)).elim
      | ok text =>
        obtain ⟨r₂, d₂, hwrite, hrecords₂, hstore₂, hfiles₂⟩ := run_writing_putFile path text d₁
        cases r₂ with
        | error e' =>
          have hbody : (restoreLabels env taskId actor path original completed e).run d =
              (.error e', d₂) := by
            unfold restoreLabels
            rw [run_bind_of_ok hundo, run_lift_bind, hdecode]
            exact run_bind_of_error hwrite
          exact (hstuck (hrecords₂.trans hrecords) (hafter hrun hbody)).elim
        | ok a =>
          have hrestored := recorded env d₂ taskId actor "legacy_task_restored" e none
          have hbytes : encodeUtf8 text = original := by
            unfold decodeTask at hdecode
            split at hdecode
            · rename_i text' htext
              cases pure_eq_ok.mp hdecode
              exact encodeUtf8_of_decodeUtf8 htext
            · cases hdecode
          have hbody : (restoreLabels env taskId actor path original completed e).run d =
              (recordLabels env taskId actor "legacy_task_restored" e none).run d₂ := by
            unfold restoreLabels
            rw [run_bind_of_ok hundo, run_lift_bind, hdecode]
            exact run_bind_of_ok hwrite
          have hend := hafter hrun hbody
          have hfiles : d'.files = d₂.files := by
            rcases hend with rfl | hfailed
            · exact hrestored.files
            · exact hfailed.files.trans hrestored.files
          have hstore : d'.board.store = d₂.board.store := by
            rcases hend with rfl | hfailed
            · exact hrestored.store
            · exact hfailed.store.trans hrestored.store
          exact ⟨by rw [hfiles, hfiles₂ rfl, hbytes], hstore.trans hstore₂⟩

/-! ### Loops that mirror nothing -/

/-- Without a store there is nothing to mirror. -/
theorem run_mirrorLabels_disabled (hwrite : env.board.env.writeEnabled = false) (d : Desk) :
    ∀ edits : List LabelEdit, (mirrorLabels env taskId actor edits).run d = (.ok (edits, none), d)
  | [] => rfl
  | edit :: edits => by
    have hturn : (mirrorTurn env taskId actor edit).run d = (.ok none, d) := by
      refine run_mirrorTurn_of_ok edit ?_
      unfold mirrorCardStore
      rw [hwrite]
      rfl
    unfold mirrorLabels
    rw [run_bind_of_ok hturn]
    dsimp only
    rw [run_bind_of_ok (run_mirrorLabels_disabled hwrite d edits)]
    rfl

/-- The store takes no event of a card whose core names another. -/
theorem run_mirrorLabels_refused (actor : String) (edits : List LabelEdit)
    (hwrite : env.board.env.writeEnabled = true)
    (hs : d.board.store.FoldsTo env.board.env taskId (env.board.now d.board.ticks) s)
    (hid : s.card.id ≠ taskId) {edit : LabelEdit}
    (hfresh : FreshTransition d.board.store taskId edit.transitionId) :
    ∃ r d', (mirrorLabels env taskId actor (edit :: edits)).run d = (r, d') ∧ d.SameFiles d' ∧
      d'.board.store = d.board.store ∧ ∀ completed failure, r = .ok (completed, failure) →
        completed = [] := by
  -- the guard of the append compares the core with the card that was asked for
  have hrefused (b : Board) (hstore : b.store = d.board.store) (payload : Dict) : ∃ err,
      (appendCardEvent env.board taskId edit.action.value actor payload).run b =
        (.error err, { b with ticks := b.ticks + 2 }) := by
    cases happ : b.store.appendEvent env.board.env taskId edit.action.value actor payload
        ⟨env.board.uuid b.ticks, env.board.now (b.ticks + 1)⟩ with
    | error err => exact ⟨err, run_appendCardEvent_of_error happ⟩
    | ok r =>
      obtain ⟨-, -, hfoldable, -⟩ := Store.appendEvent_eq_ok happ
      obtain ⟨card, hcard, hfoldable⟩ := bind_eq_ok.mp hfoldable
      rw [hstore, hs.fold] at hcard
      cases hcard
      dsimp only at hfoldable
      rw [if_neg hid] at hfoldable
      cases hfoldable
  have hmirror : ∃ err b', (mirrorCardStore env.board (appendCardEvent env.board taskId
      edit.action.value actor [("label", edit.tag), ("transition_id", .str edit.transitionId)])).run
        d.board = (.error err, b') ∧ b'.store = d.board.store := by
    cases hfaults : d.board.faults with
    | nil =>
      obtain ⟨err, hrun⟩ := hrefused d.board rfl _
      exact ⟨err, _, (run_mirrorCardStore hwrite hfaults).trans hrun, rfl⟩
    | cons w faults =>
      obtain ⟨err, hrun⟩ := hrefused { d.board with faults } rfl
        [("label", edit.tag), ("transition_id", .str edit.transitionId)]
      cases w with
      | none => exact ⟨err, _, (run_mirror_passed hwrite hfaults).trans hrun, rfl⟩
      | some f =>
        cases htook : f.took with
        | true => exact ⟨err, _, run_mirror_refused hwrite hfaults htook hrun, rfl⟩
        | false => exact ⟨f.error, _, run_mirror_lost hwrite hfaults htook, rfl⟩
  obtain ⟨err, b', hmirror, hstore⟩ := hmirror
  unfold mirrorLabels
  by_cases hkilled : err = .killed
  · rw [hkilled] at hmirror
    exact ⟨_, _, run_bind_of_error (run_mirrorTurn_of_killed edit hmirror), ⟨rfl, rfl⟩, hstore,
      fun _ _ h => by cases h⟩
  · -- the transition stands on no line, so the turn reports the error
    have hfailure : labelFailure env taskId edit err { d with board := b' } = some err := by
      have hfalse : b'.store.hasTransition env.board.env taskId edit.transitionId = .ok false := by
        rw [hstore]
        exact hasTransition_of_fresh hs.dated hfresh
      exact labelFailure_of_fresh hfalse
    have hturn := run_mirrorTurn_of_error edit hmirror hkilled
    rw [hfailure] at hturn
    refine ⟨.ok ([], some err), _, (run_bind_of_ok hturn).trans rfl, ⟨rfl, rfl⟩, hstore, ?_⟩
    intro completed failure h
    cases h
    rfl

/-! ### The update -/

/-- The mirror error is raised again, behind the record of the restoration. -/
structure RaisesMirrorError (env : DeskEnv) (d d' : Desk) (taskId : String) (u : TaskUpdate)
    (e : PyError) : Prop where
  raised : (updateTask env taskId u).run d = (.error e, d')
  restored : ∃ r, d'.records = d.records ++ [r] ∧ r.phase = "legacy_task_restored" ∧
    r.error = e.str

/-- The task files are the same, and the card has the same labels, perhaps in another order. -/
def IsUndone (env : DeskEnv) (d d' : Desk) (taskId : String) (c : Card) : Prop :=
  d'.files = d.files ∧ ∃ c', d'.board.store.fold env.board.env taskId = .ok (some c') ∧
    ∀ x, x ∈ c'.labels ↔ x ∈ c.labels

/-- The actions before the failing call keep every tag, unless the store takes no event. -/
def UndoesLabels (env : DeskEnv) (d : Desk) (taskId : String) (u : TaskUpdate) (c : Card) : Prop :=
  c.id = taskId → ∀ changes, labelChanges env d taskId u = .ok changes →
    ∀ tag, KeepsLabel c.labels (reached d.board.faults changes) tag

theorem actionsOf_reverse_inverse (edits : List LabelEdit) :
    ((actionsOf edits.reverse).map fun p => (p.1.inverse, p.2)) = undo (actionsOf edits) := by
  simp [undo, actionsOf]

/-- The handler raises or the mirror error is raised behind it. -/
theorem run_labelsFailed_bind {path : String} {original : Bytes} {completed : List LabelEdit}
    {e e' : PyError} (h : (do
      labelsFailed env taskId actor path original completed e
      Effect.raise e : Effect Desk String).run d = (.error e', d')) :
    ∃ r, (labelsFailed env taskId actor path original completed e).run d = (r, d') := by
  cases hrun : (labelsFailed env taskId actor path original completed e).run d with
  | mk r d₁ =>
    cases r with
    | ok a =>
      rw [run_bind_of_ok hrun] at h
      cases h
      exact ⟨_, rfl⟩
    | error e₁ =>
      rw [run_bind_of_error hrun] at h
      cases h
      exact ⟨_, rfl⟩

/-- What the file holds behind the rewrite and the restoration. -/
theorem files_restored {d₁ : Desk} {path : String} {original : Bytes}
    (h : Rewritten env d d₁ taskId u path edits)
    (horiginal : readTaskBytes d.files path = .ok original) :
    Assoc.set d₁.files path original = d.files := by
  have hget : Assoc.get? d.files path = some original := by
    unfold readTaskBytes at horiginal
    split at horiginal
    · rename_i content hcontent
      cases pure_eq_ok.mp horiginal
      exact hcontent
    · cases horiginal
  obtain ⟨content, hfiles⟩ := h.files
  rw [hfiles, Assoc.set_set, Assoc.set_of_get? hget]

section

variable (henv : env.board.Ticking) (hb : d.board.Reachable env.board)
  (hfold : d.board.store.fold env.board.env taskId = .ok (some c))

include henv hb hfold

/-- Behind the rewrite of the file the card folds as before, and the events are still to come. -/
theorem follows_of_rewritten {d₁ : Desk} {path : String}
    (h : Rewritten env d d₁ taskId u path edits) (hid : c.id = taskId) : ∃ s, s.card = c ∧
      d₁.board.Follows env.board taskId s (edits.map (·.transitionId)) := by
  have hsettled := hb.settled henv
  obtain ⟨s, hs, rfl⟩ := hsettled.foldsTo hfold
  obtain ⟨n, hn, hticks, hids⟩ := h.ticks
  have hle : d.board.ticks ≤ d₁.board.ticks := by omega
  refine ⟨s, rfl, ?_, hid, fun t ht => ?_, fun t ht => ?_, fun k hk => ?_⟩
  · rw [h.store]
    exact hs.mono (henv.now.monotone hle)
  · rw [hids] at ht
    obtain ⟨k, hk, -, rfl⟩ := mem_drawnFrom_iff.mp ht
    rw [h.store]
    exact hsettled.fresh taskId k (hn.trans hk)
  · rw [hids] at ht
    obtain ⟨k, -, hk, rfl⟩ := mem_drawnFrom_iff.mp ht
    exact ⟨k, by omega, rfl⟩
  · rw [h.store]
    exact hsettled.fresh taskId k (hle.trans hk)

/-- The loop over the events and its handler, behind the rewrite of the file. -/
theorem mirrored_undone_iff {d₁ : Desk} {path : String} {original : Bytes} {e : PyError}
    {record : LabelRecord} (hrewritten : Rewritten env d d₁ taskId u path edits)
    (horiginal : readTaskBytes d.files path = .ok original)
    (hrun : (do
      let r ← mirrorLabels env taskId u.actor edits
      match r.2 with
      | none => pure path
      | some err => do
        labelsFailed env taskId u.actor path original r.1 err
        Effect.raise err : Effect Desk String).run d₁ = (.error e, d'))
    (hrecord : d'.records = d.records ++ [record])
    (hphase : record.phase = "legacy_task_restored") :
    IsUndone env d d' taskId c ↔ UndoesLabels env d taskId u c := by
  have hunmet {d₂ : Desk} (hsame : d₁.SameFiles d₂) (heq : d' = d₂) : False := by
    rw [heq, hsame.records, hrewritten.records] at hrecord
    simpa using congrArg List.length hrecord
  -- the handler has run, with the events that were completed
  have hhandled {d₂ : Desk} {completed : List LabelEdit} {failure : Option PyError}
      (hmirror : (mirrorLabels env taskId u.actor edits).run d₁ = (.ok (completed, failure), d₂))
      (hsame : d₁.SameFiles d₂) :
      ∃ d₃, (undoLabels env taskId u.actor completed.reverse).run d₂ = (.ok (), d₃) ∧
        (d₂.SameFiles d₃ → d'.files = d.files) ∧ d'.board.store = d₃.board.store := by
    rw [run_bind_of_ok hmirror] at hrun
    cases failure with
    | none => cases hrun
    | some err =>
      obtain ⟨r, hfailed⟩ := run_labelsFailed_bind hrun
      obtain ⟨d₃, hundo, hfiles, hstore⟩ := restored_of_record hfailed
        (by rw [hsame.records, hrewritten.records]; exact hrecord) hphase
      refine ⟨d₃, hundo, fun hsame' => ?_, hstore⟩
      rw [hfiles, hsame'.files, hsame.files]
      exact files_restored hrewritten horiginal
  have hsettled := hb.settled henv
  cases hwrite : env.board.env.writeEnabled with
  | false =>
    rw [run_bind_of_ok (run_mirrorLabels_disabled hwrite d₁ edits)] at hrun
    cases hrun
  | true =>
    by_cases hid : c.id = taskId
    · obtain ⟨s, rfl, hfollows⟩ := follows_of_rewritten henv hb hfold hrewritten hid
      have hnodup : (edits.map (·.transitionId)).Nodup := by
        obtain ⟨n, -, -, hids⟩ := hrewritten.ticks
        rw [hids]
        exact nodup_drawnFrom henv n _
      have hloop := labelLoop henv hwrite u.actor hfollows hnodup hrewritten.texts
      generalize hp : (mirrorLabels env taskId u.actor edits).run d₁ = p at hloop
      cases hloop with
      | killed d₂ same =>
        rw [run_bind_of_error hp] at hrun
        cases hrun
        exact (hunmet same rfl).elim
      | ended d₂ s₂ failure follows same labels =>
        obtain ⟨d₃, hundo, hfiles, hstore⟩ := hhandled hp same
        set completed := reached d₁.board.faults edits with hcompleted
        have hsub : actionsOf completed ⊆ actionsOf edits :=
          List.map_subset _ (reached_subset _ _)
        have htexts := hrewritten.texts.mono hsub
        have hreverse : OnTexts (actionsOf completed.reverse) := by
          intro q hq
          unfold actionsOf at hq
          rw [List.map_reverse] at hq
          exact htexts q (List.mem_reverse.mp hq)
        obtain ⟨s₃, follows₃, same₃, labels₃⟩ := run_undoLabels henv hwrite follows hreverse hundo
        have hkept := labels_kept_iff s.card.labels htexts
          (hrewritten.oneWay.mono hsub)
        rw [← labels, ← actionsOf_reverse_inverse, ← labels₃] at hkept
        have hfold' : d'.board.store.fold env.board.env taskId = .ok (some s₃.card) := by
          rw [hstore]
          exact follows₃.folds.fold
        have hundone : IsUndone env d d' taskId s.card ↔
            ∀ x, x ∈ s₃.card.labels ↔ x ∈ s.card.labels := by
          refine ⟨fun ⟨_, c', hc', hlabels⟩ => ?_,
            fun hlabels => ⟨hfiles same₃, _, hfold', hlabels⟩⟩
          cases hc'.symm.trans hfold'
          exact hlabels
        have hdone : actionsOf completed = reached d.board.faults (actionsOf edits) := by
          rw [hcompleted, hrewritten.faults]
          exact (reached_map _ _ _).symm
        rw [hundone, hkept, hdone]
        constructor
        · intro hkeeps _ changes hchanges
          cases hchanges.symm.trans hrewritten.changes
          exact hkeeps
        · exact fun hall => hall hid _ hrewritten.changes
    · -- nothing is mirrored, so that nothing has to be undone
      refine iff_of_true ?_ fun h => absurd h hid
      obtain ⟨s, hs, rfl⟩ := hsettled.foldsTo hfold
      obtain ⟨n, hn, hticks, hids⟩ := hrewritten.ticks
      cases edits with
      | nil => cases hrun
      | cons edit edits =>
        have hs₁ : d₁.board.store.FoldsTo env.board.env taskId
            (env.board.now d₁.board.ticks) s := by
          rw [hrewritten.store]
          exact hs.mono (henv.now.monotone (by omega))
        have hfresh : FreshTransition d₁.board.store taskId edit.transitionId := by
          have hmem : edit.transitionId ∈ drawnFrom env n (edit :: edits).length :=
            hids ▸ List.mem_cons_self
          obtain ⟨k, hk, -, heq⟩ := mem_drawnFrom_iff.mp hmem
          rw [heq, hrewritten.store]
          exact hsettled.fresh taskId k (hn.trans hk)
        obtain ⟨r, d₂, hmirror, hsame, hstore, hnone⟩ := run_mirrorLabels_refused
          u.actor edits hwrite hs₁ hid hfresh
        cases r with
        | error err =>
          rw [run_bind_of_error hmirror] at hrun
          cases hrun
          exact (hunmet hsame rfl).elim
        | ok r =>
          obtain ⟨completed, failure⟩ := r
          obtain rfl := hnone completed failure rfl
          obtain ⟨d₃, hundo, hfiles, hstore'⟩ := hhandled hmirror hsame
          cases hundo
          refine ⟨hfiles (.refl _), s.card, ?_, fun _ => Iff.rfl⟩
          rw [hstore', hstore, hrewritten.store]
          exact hs.fold

/-- **A label update whose mirror error is raised** has left the task file and the labels of the
card as they were exactly if the actions before the failing call keep every tag. -/
theorem updateTask_undone_iff {e : PyError} (h : RaisesMirrorError env d d' taskId u e) :
    IsUndone env d d' taskId c ↔ UndoesLabels env d taskId u c := by
  obtain ⟨hrun, record, hrecord, hphase, -⟩ := h
  -- whoever stops before the handler has written no record
  have hunmet {d₁ : Desk} (hrecords : d₁.records = d.records) (heq : d' = d₁) : False := by
    rw [heq, hrecords] at hrecord
    simpa using congrArg List.length hrecord
  unfold updateTask at hrun
  rw [run_get_bind, run_lift_bind] at hrun
  cases hpath : taskRawPath d.files taskId with
  | error err =>
    rw [hpath] at hrun
    cases hrun
    exact (hunmet rfl rfl).elim
  | ok path =>
    rw [hpath] at hrun
    dsimp only at hrun
    rw [run_lift_bind] at hrun
    cases horiginal : readTaskBytes d.files path with
    | error err =>
      rw [horiginal] at hrun
      cases hrun
      exact (hunmet rfl rfl).elim
    | ok original =>
      rw [horiginal] at hrun
      dsimp only at hrun
      rcases run_writeTaskRaw env d taskId u with
        ⟨err, d₁, hwritten, hsame⟩ | ⟨path', edits, d₁, hwritten, hpath', hrewritten⟩
      · rw [run_bind_of_error hwritten] at hrun
        cases hrun
        exact (hunmet hsame.records rfl).elim
      · obtain rfl : path = path' := Except.ok.inj (hpath.symm.trans hpath')
        rw [run_bind_of_ok hwritten] at hrun
        exact mirrored_undone_iff henv hb hfold hrewritten horiginal hrun hrecord hphase

end

/-! ### A card with a label that its file does not have -/

/-- The desk of a board on which time and identifiers are told apart by their length. -/
def unaryDeskEnv : DeskEnv where
  board := unaryEnv
  floats := zeroFloats
  refusal _ := none

theorem unaryDeskEnv_ticking : unaryDeskEnv.board.Ticking := unaryEnv_ticking

/-- A task whose card was labelled on its own. -/
def labelledBoard : Board :=
  ((appendCardEvent unaryEnv "t1" "add_label" "alice" [("label", .str "x")]).run
    (BoardCall.run unaryEnv {} (.createTask { id := "t1", title := "one" }))).2

theorem labelledBoard_reachable : labelledBoard.Reachable unaryEnv :=
  .append _ "t1" "add_label" "alice" _ ⟨by decide, by decide⟩ (fun _ _ => nofun)
    (.call _ _ (.start {} (fun _ => rfl) rfl))

/-- Its file has no tags, and the second mirror call raises. -/
def labelledDesk : Desk where
  board := { labelledBoard with faults := [none, some ⟨false, .os "disk full"⟩] }
  files := [("t1-one.json",
    encodeUtf8 ['{', '"', 't', 'a', 'g', 's', '"', ':', '[', ']', '}'])]

theorem labelledDesk_reachable : labelledDesk.board.Reachable unaryDeskEnv.board :=
  .files labelledBoard _ rfl le_rfl labelledBoard_reachable

/-- An update with new tags. -/
def addingTags (tags : List String) : TaskUpdate := { addTags := some tags }

/-- What an update with new tags leaves on the labelled desk. -/
def behindAdding (tags : List String) : Except PyError String × Desk :=
  (updateTask unaryDeskEnv "t1" (addingTags tags)).run labelledDesk

theorem raises_of_behindAdding {tags : List String}
    (hraises : (behindAdding tags).1 = .error (.os "disk full"))
    (hrecords : (behindAdding tags).2.records.map (fun r => (r.phase, r.error)) =
      [("legacy_task_restored", "disk full")]) :
    RaisesMirrorError unaryDeskEnv labelledDesk (behindAdding tags).2 "t1" (addingTags tags)
      (.os "disk full") := by
  have hrun : behindAdding tags = (.error (.os "disk full"), (behindAdding tags).2) := by
    rw [← hraises]
  refine ⟨hrun, ?_⟩
  obtain ⟨r, hr, hrecord⟩ := List.map_eq_singleton_iff.mp hrecords
  obtain ⟨hphase, herror⟩ := Prod.mk.inj hrecord
  exact ⟨r, hr, hphase, herror⟩

theorem labelledDesk_folds : ∃ c,
    labelledDesk.board.store.fold unaryDeskEnv.board.env "t1" = .ok (some c) ∧
      Json.str "x" ∈ c.labels ∧ Json.str "y" ∉ c.labels := by
  have hfolds : ((labelledDesk.board.store.fold unaryDeskEnv.board.env "t1").toOption.join.any
      fun c => (Json.str "x").mem c.labels && !(Json.str "y").mem c.labels) = true := by
    decide +kernel
  cases hfold : labelledDesk.board.store.fold unaryDeskEnv.board.env "t1" with
  | error e =>
    rw [hfold] at hfolds
    cases hfolds
  | ok found =>
    cases found with
    | none =>
      rw [hfold] at hfolds
      cases hfolds
    | some c =>
      rw [hfold] at hfolds
      obtain ⟨hx, hy⟩ := Bool.and_eq_true_iff.mp hfolds
      refine ⟨c, rfl, (Json.mem_str_iff _ _).mp hx, fun hmem => ?_⟩
      rw [mem_of_mem hmem] at hy
      cases hy

/-- A tag that the card does not have is added and removed again. -/
theorem updateTask_undone_new : ∃ c,
    labelledDesk.board.store.fold unaryDeskEnv.board.env "t1" = .ok (some c) ∧
      IsUndone unaryDeskEnv labelledDesk (behindAdding ["y", "z"]).2 "t1" c := by
  obtain ⟨c, hfold, -, hy⟩ := labelledDesk_folds
  have hraises : RaisesMirrorError unaryDeskEnv labelledDesk (behindAdding ["y", "z"]).2 "t1"
      (addingTags ["y", "z"]) (.os "disk full") :=
    raises_of_behindAdding (by decide +kernel) (by decide +kernel)
  refine ⟨c, hfold, ?_⟩
  apply Iff.mpr (updateTask_undone_iff unaryDeskEnv_ticking labelledDesk_reachable hfold hraises)
  intro _ changes hchanges tag
  -- only the first tag has been mirrored
  have hreached : (match labelChanges unaryDeskEnv labelledDesk "t1" (addingTags ["y", "z"]) with
    | .ok changes => (reached labelledDesk.board.faults changes).all fun p =>
        p.1 == .addLabel && p.2.pyEq (.str "y")
    | .error _ => true) = true := by decide +kernel
  rw [hchanges] at hreached
  have hall := List.all_eq_true.mp hreached
  refine ⟨fun hadd => .inl ?_, fun hremove => ?_⟩
  · have htag : (Json.str tag).pyEq (.str "y") = true :=
      (Bool.and_eq_true_iff.mp (hall _ hadd)).2
    rw [(Json.pyEq_str_right_iff _ _).mp htag]
    exact hy
  · cases (Bool.and_eq_true_iff.mp (hall _ hremove)).1

/-- A tag that the card had besides its file is removed for good. -/
theorem updateTask_not_undone : unaryDeskEnv.board.Ticking ∧
    labelledDesk.board.Reachable unaryDeskEnv.board ∧
    ∃ c, labelledDesk.board.store.fold unaryDeskEnv.board.env "t1" = .ok (some c) ∧
      RaisesMirrorError unaryDeskEnv labelledDesk (behindAdding ["x", "y"]).2 "t1"
        (addingTags ["x", "y"]) (.os "disk full") ∧
      ¬ IsUndone unaryDeskEnv labelledDesk (behindAdding ["x", "y"]).2 "t1" c := by
  obtain ⟨c, hfold, hx, -⟩ := labelledDesk_folds
  refine ⟨unaryDeskEnv_ticking, labelledDesk_reachable, c, hfold,
    raises_of_behindAdding (by decide +kernel) (by decide +kernel), ?_⟩
  rintro ⟨-, c', hfold', hlabels⟩
  have hgone : (((behindAdding ["x", "y"]).2.board.store.fold unaryDeskEnv.board.env
      "t1").toOption.join.any fun c => (Json.str "x").mem c.labels) = false := by
    decide +kernel
  rw [hfold'] at hgone
  have hoff : (Json.str "x").mem c'.labels = false := hgone
  rw [mem_of_mem ((hlabels _).mpr hx)] at hoff
  cases hoff

end SkCoord
