import SkCoord.CardStore.Equiv.Store
import SkCoord.CardStore.Equiv.Void

/-!
# Void is terminal

`void_terminal` puts the two guards together: the fold (`next_of_cancelled`) and `append_event`,
which refuses the same seven actions on a card whose logs hold a `void` (`requireNotVoided`).
-/

namespace SkCoord

open Python

/-- The two lists of terminal actions are one. -/
theorem mem_voidTerminalActions {action : String} (h : (Action.ofString action).isVoidTerminal) :
    action ∈ Store.voidTerminalActions := by
  unfold Action.ofString at h
  split at h <;> first | decide | cases h

theorem Event.pyEq_action_of_void {e : Event} (h : e.action = .void) :
    (e.get "action").pyEq (.str "void") = true := by
  rw [Json.pyEq_str_right_iff]
  unfold Event.action at h
  cases hget : Dict.get e "action" with
  | str s =>
    rw [hget] at h
    dsimp only at h
    unfold Action.ofString at h
    split at h <;> first | rfl | cases h
  | _ => rw [hget] at h; cases h

namespace Store

variable {env : Env} {st : Store} {cardId action : String}

/-- A log with a `void` refuses the terminal actions. -/
theorem requireNotVoided_of_void {d : CardDir} (hd : st.dir cardId = d) {file : String}
    {lines : List LogLine} {e : Event} (hfile : (file, lines) ∈ d.logs)
    (hname : endsWith file ".jsonl" = true) (hline : .value (.obj e) ∈ lines)
    (hvoid : e.action = .void) (hact : (Action.ofString action).isVoidTerminal = true) :
    requireNotVoided env st cardId action ≠ .ok () := by
  intro h
  unfold requireNotVoided at h
  rw [if_pos (mem_voidTerminalActions hact)] at h
  obtain ⟨events, hevents, h⟩ := bind_eq_ok.mp h
  have hmem : e ∈ events := by
    rw [mem_readEvents_iff hevents, hd]
    exact mem_logEvents hfile hname hline
  rw [if_pos (List.any_eq_true.mpr ⟨e, hmem, Event.pyEq_action_of_void hvoid⟩)] at h
  cases h

end Store

/-- **Void is terminal.**  Whatever events fold behind a `void`, the card is archived, without
owner and claim revision, and in the column it was in; and `append_event` raises for every
ownership or column action on a card one of whose logs has a `void`. -/
theorem void_terminal (cardId : String) :
    (∀ (core : CardCore) (pre post : List Event) (e : Event) (t : FoldState),
      e.action = .void → foldCard cardId core (pre ++ e :: post) = .ok t →
      t.card.archived = true ∧ t.card.owner = .null ∧
        Assoc.get? t.card.metaData "_claim_revision" = none ∧
        ∃ s, foldCard cardId core pre = .ok s ∧ t.card.status = s.card.status) ∧
    (∀ (env : Env) (st : Store) (file : String) (lines : List LogLine) (e : Event)
      (action agent : String) (payload : Dict) (stamp : Stamp),
      (file, lines) ∈ (st.dir cardId).logs → endsWith file ".jsonl" = true →
      .value (.obj e) ∈ lines → e.action = .void →
      (Action.ofString action).isVoidTerminal = true →
      ∃ err, st.appendEvent env cardId action agent payload stamp = .error err) := by
  constructor
  · intro core pre post e t hvoid h
    unfold foldCard at h
    obtain ⟨s₀, h0, h⟩ := bind_eq_ok.mp h
    obtain ⟨s, hpre, h⟩ := foldlM_append_eq_ok.mp h
    obtain ⟨u, hu, hpost⟩ := foldlM_cons_eq_ok.mp h
    obtain ⟨hcan, hst⟩ := ClaimView.next_void (v := s.view) hvoid
    rw [← FoldState.step_view hu] at hcan hst
    obtain ⟨hcan', hst'⟩ := FoldState.foldEvents_cancelled hpost hcan
    exact ⟨hcan'.archived, hcan'.owner, hcan'.revision, s, bind_eq_ok.mpr ⟨s₀, h0, hpre⟩,
      hst'.trans hst⟩
  · intro env st file lines e action agent payload stamp hfile hname hline hvoid hact
    cases h : st.appendEvent env cardId action agent payload stamp with
    | error err => exact ⟨err, rfl⟩
    | ok r =>
      obtain ⟨-, -, -, hguard, -⟩ := Store.appendEvent_eq_ok h
      exact absurd hguard (Store.requireNotVoided_of_void rfl hfile hname hline hvoid hact)

/-- Reopening and claiming a cancelled card: the fold ignores both, and the store refuses them. -/
theorem void_terminal_reopen :
    (∃ t : FoldState, foldCard "c1" { id := "c1", title := "t", createdAt := "" }
      ([Event.claimBy "alice" "r1"] ++ Event.ofFields "void" [] ::
        [Event.ofFields "reopen" [("column", .str "ready")], Event.claimBy "bob" "r2"]) = .ok t ∧
      t.card.archived = true ∧ t.card.owner = .null) ∧
    ∃ err, Store.appendEvent
      { hostname := "host", writeEnabled := true, lineHash := fun _ => "", repr := fun _ => "" }
      { cards := [("c1",
        { core := .present { id := "c1", title := "t", createdAt := "" }
          logs := [("alice@host.jsonl", [.value (.obj (Event.ofFields "void" []))])] })] }
      "c1" "reopen" "bob" [("column", .str "ready")] { eventId := "e2", ts := "2026" }
      = .error err := by
  obtain ⟨hfold, happend⟩ := void_terminal "c1"
  refine ⟨⟨_, rfl, ?_⟩, ?_⟩
  · obtain ⟨harch, howner, -⟩ := hfold { id := "c1", title := "t", createdAt := "" }
      [Event.claimBy "alice" "r1"]
      [Event.ofFields "reopen" [("column", .str "ready")], Event.claimBy "bob" "r2"]
      (Event.ofFields "void" []) _ rfl rfl
    exact ⟨harch, howner⟩
  · exact happend _ _ _ _ _ _ _ _ _ List.mem_cons_self rfl List.mem_cons_self rfl rfl

end SkCoord
