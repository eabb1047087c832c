import SkCoord.CardStore.Equiv.ClaimConflicts
import SkCoord.CardStore.Equiv.Dated
import SkCoord.Coordination.Equiv.InStep

/-!
# Releasing a claim that lost

`releaseClaim` drops a claim that lost against a live one when the entry of the conflict still names
that claim and its owner has no other entry.  A run whose claims keep the fence
(`ClaimView.KeepsFence`) reaches only states where that is so for every entry, one after the other,
until the card can be completed (`losers_releasable`); `renewed_claim_strands` is a run that does not.
-/

namespace SkCoord

open Python Effect

variable {env : BoardEnv} {b : Board} {cardId : String} {s : FoldState} {x : Json} {o r : String}

/-- A board whose card folds to the variables `s` of the loop. -/
structure Board.Holds (env : BoardEnv) (b : Board) (cardId : String) (s : FoldState) : Prop where
  faults : b.faults = []
  folds : b.store.FoldsTo env.env cardId (env.now b.ticks) s
  id : s.card.id = cardId
  voided : s.voided = false
  fresh : ∀ k, b.ticks ≤ k → FreshTransition b.store cardId (env.uuid k)

/-- The file of an agent lists a card. -/
structure Board.Lists (b : Board) (cardId name : String) : Prop where
  valid : validateAgentName name = .ok name
  file : ∃ a, Assoc.get? b.agents name = some a ∧ a.agent = name ∧
    (cardId ∈ a.claimedTasks ∨ a.currentTask = some cardId)

/-! ### The entry of an owner -/

/-- Where an entry stands among entries of different owners. -/
theorem exists_split_of_owner {l : List Json} (hl : l.Pairwise fun x y => x.field "owner" ≠ y.field "owner")
    (hx : x ∈ l) : ∃ pre post, l = pre ++ x :: post ∧
      ∀ y ∈ pre ++ post, y.field "owner" ≠ x.field "owner" := by
  obtain ⟨pre, post, rfl⟩ := List.append_of_mem hx
  refine ⟨pre, post, rfl, fun y hy => ?_⟩
  obtain ⟨-, hpost, hpre⟩ := List.pairwise_append.mp hl
  rcases List.mem_append.mp hy with hy | hy
  · exact hpre y hy x List.mem_cons_self
  · exact (List.rel_of_pairwise_cons hpost hy).symm

/-- A test that only the entry of an owner can pass. -/
theorem filter_split {pre post : List Json} {p : Json → Bool} (hx : p x = true)
    (hother : ∀ y ∈ pre ++ post, p y = false) :
    (pre ++ x :: post).filter p = [x] ∧ (pre ++ x :: post).filter (fun y => !p y) = pre ++ post := by
  have hnone : ∀ l : List Json, (∀ y ∈ l, p y = false) → l.filter p = [] ∧
      l.filter (fun y => !p y) = l := by
    intro l hl
    refine ⟨List.filter_eq_nil_iff.mpr fun y hy => ?_, List.filter_eq_self.mpr fun y hy => ?_⟩
    · rw [hl y hy]
      exact Bool.false_ne_true
    · rw [hl y hy]
      rfl
  obtain ⟨h1, h2⟩ := hnone pre fun y hy => hother y (List.mem_append_left _ hy)
  obtain ⟨h3, h4⟩ := hnone post fun y hy => hother y (List.mem_append_right _ hy)
  refine ⟨?_, ?_⟩
  · rw [List.filter_append, List.filter_cons_of_pos hx, h1, h3, List.nil_append]
  · rw [List.filter_append, List.filter_cons_of_neg (by rw [hx]; exact Bool.false_ne_true), h2, h4]

theorem conflictMatches_iff (hx : ConflictOf x o r) :
    Card.conflictMatches (.str o) (.str r) x = true := by
  unfold Card.conflictMatches
  rw [hx.isDict, hx.owner, hx.revision, Json.pyEq_refl, Json.pyEq_refl]
  rfl

/-- What a state with a fence says of one of its entries. -/
structure Loses (v : ClaimView) (x : Json) (o r : String) (pre post : List Json) : Prop where
  conflict : ConflictOf x o r
  split : v.conflictList = pre ++ x :: post
  other : ∀ y ∈ pre ++ post, y.field "owner" ≠ .str o
  existing : x.field "existing_owner" = v.owner
  fence : x.field "existing_claim_revision" = v.actualRevision
  revision : v.actualRevision.isNonEmptyStr = true
  owner : v.owner ≠ .str o

theorem loses_of_fenced {v : ClaimView} (h : v.Fenced) (howner : v.owner.truthy = true)
    (hx : x ∈ v.conflictList) (hconf : ConflictOf x o r) : ∃ pre post, Loses v x o r pre post := by
  obtain ⟨pre, post, hsplit, hother⟩ := exists_split_of_owner h.owners hx
  obtain ⟨h1, h2, h3⟩ := h.live howner x hx
  refine ⟨pre, post, hconf, hsplit, fun y hy => ?_, h1, h2, h.revision howner, ?_⟩
  · rw [← hconf.owner]
    exact hother y hy
  · rw [← hconf.owner]
    exact h3.symm

namespace Loses

variable {v : ClaimView} {pre post : List Json}

theorem filter_owner (h : Loses v x o r pre post) :
    v.conflictList.filter (fun y => y.isDict && (y.field "owner").pyEq (.str o)) = [x] := by
  rw [h.split]
  refine (filter_split ?_ fun y hy => ?_).1
  · rw [h.conflict.isDict, h.conflict.owner, Json.pyEq_refl]
    rfl
  · have hne : ¬ (y.field "owner").pyEq (.str o) = true := by
      rw [Json.pyEq_str_right_iff]
      exact h.other y hy
    rw [Bool.eq_false_iff.mpr hne, Bool.and_false]

theorem filter_matches (h : Loses v x o r pre post) :
    v.conflictList.filter (Card.conflictMatches (.str o) (.str r)) = [x] ∧
      v.conflictList.filter (fun y => !Card.conflictMatches (.str o) (.str r) y) = pre ++ post := by
  rw [h.split]
  refine filter_split (conflictMatches_iff h.conflict) fun y hy => ?_
  have hne : ¬ (y.field "owner").pyEq (.str o) = true := by
    rw [Json.pyEq_str_right_iff]
    exact h.other y hy
  unfold Card.conflictMatches
  rw [Bool.eq_false_iff.mpr hne, Bool.and_false, Bool.false_and]

end Loses

/-- Reading `claim_conflicts` of a card whose entries are a list. -/
theorem iter_conflictList {c : Card} {voided : Bool} (h : (c.view voided).conflicts = none ∨
    ∃ l, (c.view voided).conflicts = some (.arr l)) :
    (Dict.getD c.metaData "claim_conflicts" (.arr [])).iter = .ok (c.view voided).conflictList := by
  unfold Dict.getD ClaimView.conflictList Card.view at *
  dsimp only at h ⊢
  rcases h with h | ⟨l, h⟩
  · rw [h]
    rfl
  · rw [h]
    rfl

/-! ### The checks of the release -/

variable {pre post : List Json}

theorem currentClaimPrecondition_of_loses {st : Store} (hfold : st.fold env.env cardId = .ok (some s.card))
    (hlist : s.view.conflicts = none ∨ ∃ l, s.view.conflicts = some (.arr l))
    (h : Loses s.view x o r pre post) :
    currentClaimPrecondition env.env st cardId o = .ok (some r) := by
  have howner : s.card.owner.pyEq (.str o) = false := by
    refine Bool.eq_false_iff.mpr fun heq => h.owner ?_
    exact (Json.pyEq_str_right_iff _ _).mp heq
  have hlive : s.view.actualRevision = Dict.get s.card.metaData "_claim_revision" := rfl
  unfold currentClaimPrecondition
  refine bind_eq_ok.mpr ⟨_, hfold, ?_⟩
  dsimp only
  rw [howner, if_neg Bool.false_ne_true]
  refine bind_eq_ok.mpr ⟨_, iter_conflictList hlist, ?_⟩
  have hfilter : (s.card.view s.voided).conflictList.filter
      (fun y => y.isDict && (y.field "owner").pyEq (.str o)) = [x] := h.filter_owner
  rw [hfilter]
  dsimp only
  rw [h.conflict.revision]
  dsimp only
  have hexisting : (x.field "existing_owner").pyEq s.card.owner = true := by
    rw [h.existing]
    exact Json.pyEq_refl _
  have hrevision : (x.field "existing_claim_revision").pyEq
      (Dict.get s.card.metaData "_claim_revision") = true := by
    rw [h.fence, hlive]
    exact Json.pyEq_refl _
  have hnonempty : (x.field "existing_claim_revision").isNonEmptyStr = true := by
    rw [h.fence]
    exact h.revision
  rw [if_pos ⟨h.conflict.revision_ne, hnonempty, hexisting, hrevision⟩]
  rfl

theorem releaseTarget_of_loses (hwrite : env.env.writeEnabled = true)
    (hfold : b.store.fold env.env cardId = .ok (some s.card))
    (hlist : s.view.conflicts = none ∨ ∃ l, s.view.conflicts = some (.arr l))
    (h : Loses s.view x o r pre post) :
    releaseTarget env b o cardId (some r) false = .ok (some ⟨some s.card, some r⟩) := by
  have hpre := currentClaimPrecondition_of_loses hfold hlist h
  have hcheck : checkRelease env.env b.store o cardId (some r) = .ok ⟨some s.card, some r⟩ := by
    unfold checkRelease
    refine bind_eq_ok.mpr ⟨_, hfold, bind_eq_ok.mpr ⟨_, hpre, ?_⟩⟩
    have hgiven : ((some r).filter (· ≠ "")).isNone = false := by
      simp [h.conflict.revision_ne]
    dsimp only
    rw [hgiven, Bool.and_false, if_neg Bool.false_ne_true, if_pos rfl]
    rfl
  unfold releaseTarget
  rw [if_pos hwrite, hcheck]
  rfl

/-- An entry that lost against another claim than the live one names no exact revision. -/
theorem releaseTarget_of_stale (hwrite : env.env.writeEnabled = true)
    (hfold : b.store.fold env.env cardId = .ok (some s.card))
    (hlist : s.view.conflicts = none ∨ ∃ l, s.view.conflicts = some (.arr l))
    (howner : s.view.owner ≠ .str o)
    (hentry : s.view.conflictList.filter (fun y => y.isDict && (y.field "owner").pyEq (.str o)) = [x])
    (hx : ConflictOf x o r)
    (hstale : (x.field "existing_claim_revision").pyEq s.view.actualRevision = false)
    (expected : Option String) :
    releaseTarget env b o cardId expected false =
      .error (currentClaimPrecondition.noExactRevision cardId) := by
  have hother : s.card.owner.pyEq (.str o) = false :=
    Bool.eq_false_iff.mpr fun heq => howner ((Json.pyEq_str_right_iff _ _).mp heq)
  have hpre : currentClaimPrecondition env.env b.store cardId o =
      .error (currentClaimPrecondition.noExactRevision cardId) := by
    unfold currentClaimPrecondition
    rw [hfold]
    dsimp only [bind, Except.bind]
    rw [hother, if_neg Bool.false_ne_true, iter_conflictList hlist]
    dsimp only
    have hfilter : (s.card.view s.voided).conflictList.filter
        (fun y => y.isDict && (y.field "owner").pyEq (.str o)) = [x] := hentry
    rw [hfilter]
    dsimp only
    rw [hx.revision]
    dsimp only
    have hlive : (x.field "existing_claim_revision").pyEq
        (Dict.get s.card.metaData "_claim_revision") = false := hstale
    rw [if_neg fun h => Bool.false_ne_true (hlive.symm.trans h.2.2.2)]
    rfl
  have hcheck : checkRelease env.env b.store o cardId expected =
      .error (currentClaimPrecondition.noExactRevision cardId) := by
    unfold checkRelease
    rw [hfold]
    dsimp only [bind, Except.bind]
    rw [hpre]
  unfold releaseTarget
  rw [if_pos hwrite, hcheck]
  rfl

/-! ### The event of the release -/

/-- The release event of a loser folds to the card without its entry. -/
theorem step_releaseConflict {e : Event} (hvoided : s.voided = false)
    (hlist : s.view.conflicts = none ∨ ∃ l, s.view.conflicts = some (.arr l))
    (h : Loses s.view x o r pre post) (hact : e.get "action" = .str "release_claim")
    (howner : e.get "released_owner" = .str o)
    (hrevision : e.get "expected_claim_revision" = .str r) :
    ∃ t, FoldState.step cardId s e = .ok t ∧ t.card.id = s.card.id ∧ t.voided = false ∧
      t.view = { s.view with
        conflicts := if (pre ++ post).isEmpty then none else some (.arr (pre ++ post)) } := by
  have haction : e.action = .releaseClaim := by
    unfold Event.action
    rw [hact]
    rfl
  have hvalid : Card.validRelease e = true := by
    unfold Card.validRelease
    rw [howner, hrevision]
    simpa [Json.isNonEmptyStr] using ⟨h.conflict.owner_ne, h.conflict.revision_ne⟩
  have hcurrent : s.view.releasesCurrent e = false := by
    unfold ClaimView.releasesCurrent
    rw [howner, Bool.eq_false_iff.mpr fun heq => h.owner ((Json.pyEq_str_right_iff _ _).mp heq),
      Bool.and_false, Bool.false_and]
  have hconflict : s.view.releasesConflict e = true := by
    unfold ClaimView.releasesConflict ClaimView.matching
    rw [howner, hrevision, h.filter_matches.1]
    dsimp only
    rw [hvalid, h.revision, h.existing, h.fence, Json.pyEq_refl, Json.pyEq_refl]
    rfl
  have hview : s.view.next e = { s.view with
      conflicts := if (pre ++ post).isEmpty then none else some (.arr (pre ++ post)) } := by
    have hguard : (s.view.voided && e.action.isVoidTerminal) = false := by
      show (s.voided && _) = false
      rw [hvoided, Bool.false_and]
    unfold ClaimView.next
    rw [hguard, if_neg Bool.false_ne_true, haction]
    dsimp only
    unfold ClaimView.releaseClaim
    rw [hcurrent, if_neg Bool.false_ne_true, hconflict, if_pos rfl, howner, hrevision,
      h.filter_matches.2]
  -- the branch of the release that drops a conflict raises nothing
  have hfold : ∃ c, s.card.foldReleaseClaim e = .ok c := by
    have hcur : Card.releasesCurrent s.card e = false := hcurrent
    have hcon : Card.releasesConflict s.card e (s.view.matching e) = true := hconflict
    have hmatching : (s.card.view s.voided).conflictList.filter
        (Card.conflictMatches (e.get "released_owner") (e.get "expected_claim_revision")) =
        s.view.matching e := rfl
    unfold Card.foldReleaseClaim
    rw [iter_conflictList hlist]
    dsimp only [bind, Except.bind]
    rw [hcur, if_neg Bool.false_ne_true, hmatching, hcon, if_pos rfl]
    exact ⟨_, rfl⟩
  obtain ⟨c, hc⟩ := hfold
  have hstep : FoldState.step cardId s e =
      .ok { card := FoldState.touch c e, voided := s.voided || e.action == .void } := by
    unfold FoldState.step FoldState.lookupTerminal
    rw [hvoided, if_neg Bool.false_ne_true, Bool.false_and]
    refine bind_eq_ok.mpr ⟨(), rfl, ?_⟩
    rw [if_neg Bool.false_ne_true]
    refine bind_eq_ok.mpr ⟨c, ?_, rfl⟩
    rw [haction]
    exact hc
  refine ⟨_, hstep, ?_, ?_, (FoldState.step_view hstep).trans hview⟩
  · exact (FoldState.step_same hstep).1
  · rw [hvoided, haction]
    rfl

/-- What the release of a loser leaves of its card. -/
structure LeftOut (env : BoardEnv) (st : Store) (cardId transition : String) (n : ℕ) (s t : FoldState)
    (rest : List Json) : Prop where
  folds : st.FoldsTo env.env cardId (env.now n) t
  id : t.card.id = s.card.id
  voided : t.voided = false
  view : t.view = { s.view with conflicts := if rest.isEmpty then none else some (.arr rest) }
  durable : st.hasTransition env.env cardId transition = .ok true
  fresh : ∀ j, n ≤ j → FreshTransition st cardId (env.uuid j)

section

variable {n k : ℕ} {actor reason : String} {abandonReason : Json}

/-- The mirror of the release, behind the write of the agent file. -/
theorem run_mirrorRelease_loses (henv : env.Ticking) (hwrite : env.env.writeEnabled = true)
    (hfaults : b.faults = []) (hfolds : b.store.FoldsTo env.env cardId (env.now n) s)
    (hn : n ≤ b.ticks) (hk : n ≤ k) (hkt : k < b.ticks)
    (hfresh : ∀ j, n ≤ j → FreshTransition b.store cardId (env.uuid j)) (hid : s.card.id = cardId)
    (hvoided : s.voided = false)
    (hlist : s.view.conflicts = none ∨ ∃ l, s.view.conflicts = some (.arr l))
    (h : Loses s.view x o r pre post)
    (hreason : validateAbandonReason env.env abandonReason = .ok reason) :
    ∃ st t, (mirrorCardStore env (mirrorCoordRelease env cardId o actor (some r) (env.uuid k)
        abandonReason)).run b = (.ok (), b.appended st) ∧
      LeftOut env st cardId (env.uuid k) (b.ticks + 2) s t (pre ++ post) := by
  have hp : TransitionPayload [("released_owner", .str o), ("expected_claim_revision", .str r),
      ("transition_id", .str (env.uuid k)), ("abandon_reason", .str reason)] (env.uuid k) :=
    .of_keys ["released_owner", "expected_claim_revision", "transition_id", "abandon_reason"] rfl
      (by decide) (by decide) rfl
  have hplain : Store.PlainPayload [("released_owner", .str o), ("expected_claim_revision", .str r),
      ("transition_id", .str (env.uuid k)), ("abandon_reason", .str reason)] :=
    ⟨hp.nodup, hp.stamps⟩
  have hnorm : Store.normalisePayload env.env "release_claim"
      [("released_owner", .str o), ("expected_claim_revision", .str r),
        ("transition_id", .str (env.uuid k)), ("abandon_reason", abandonReason)] =
      .ok [("released_owner", .str o), ("expected_claim_revision", .str r),
        ("transition_id", .str (env.uuid k)), ("abandon_reason", .str reason)] := by
    unfold Store.normalisePayload
    rw [if_pos rfl]
    exact bind_eq_ok.mpr ⟨reason, hreason, rfl⟩
  set file := Store.writerFile env.env actor with hfile
  set lines := b.store.logLines cardId file with hlines
  have hreplay : Store.replayedEvent lines [("released_owner", .str o),
      ("expected_claim_revision", .str r), ("transition_id", .str (env.uuid k)),
      ("abandon_reason", .str reason)] = .ok none :=
    replayedEvent_of_fresh (fun line hline => ((hfolds.dated.logLines _).2 line hline).imp
      fun _ he => he.choose_spec.1) hp.transition (henv.uuid_ne k) (hfresh k hk)
  set e := Store.newEvent env.env lines "release_claim" actor [("released_owner", .str o),
    ("expected_claim_revision", .str r), ("transition_id", .str (env.uuid k)),
    ("abandon_reason", .str reason)] ⟨env.uuid b.ticks, env.now (b.ticks + 1)⟩ with he
  -- every guard of the append passes, so the event is written
  have happ := @Store.FoldsTo.appendEvent_passes env.env b.store cardId "release_claim" actor _
    ⟨env.uuid b.ticks, env.now (b.ticks + 1)⟩ _ s _ hfolds hid hnorm hreplay
    (hfolds.requireNotVoided hvoided "release_claim")
  -- the fold takes the losing entry out of the conflicts
  obtain ⟨t, hstep, htid, htvoided, htview⟩ := @step_releaseConflict cardId s x o r pre post e hvoided
    hlist h hplain.get_action (hplain.get_field rfl) (hplain.get_field rfl)
  have hlater : (b.store.appendLine cardId file (.value (.obj e))).FoldsTo env.env cardId
      (env.now (b.ticks + 2)) t :=
    hfolds.append (Store.endsWith_writerFile env.env actor) hplain.stamped
      (henv.now.monotone (by omega)) (henv.now (Nat.lt_succ_self _)) hplain.get_prevHash hstep
  have hlogs : (file, lines ++ [.value (.obj e)]) ∈
      ((b.store.appendLine cardId file (.value (.obj e))).dir cardId).logs := by
    rw [Store.dir_appendLine_self]
    exact Assoc.mem_of_get? (Assoc.get?_set_self _ _ _)
  refine ⟨b.store.appendLine cardId file (.value (.obj e)), t, ?_, hlater, htid, htvoided, htview,
    ?_, ?_⟩
  · rw [run_mirrorCardStore hwrite hfaults]
    unfold mirrorCoordRelease
    dsimp only
    rw [orUuid_of_ne (henv.uuid_ne k)]
    exact run_appendCardEvent_of_ok happ
  · obtain ⟨events, hevents, -⟩ := hlater.dated.readEvents
    refine bind_eq_ok.mpr ⟨events, hevents, ?_⟩
    have hmem : e ∈ events := (Store.mem_readEvents_iff hevents).mpr
      (Store.mem_logEvents hlogs (Store.endsWith_writerFile env.env actor) (by simp))
    rw [pure_eq_ok]
    refine List.any_eq_true.mpr ⟨e, hmem, ?_⟩
    rw [hplain.get_field (v := .str (env.uuid k)) rfl]
    exact Json.pyEq_refl _
  · intro j hj p hpm e' he'
    rw [Store.dir_appendLine_self] at hpm
    rcases Assoc.mem_set hpm with rfl | hold
    · rcases List.mem_append.mp he' with hline | hline
      · obtain ⟨l, hmem, hl⟩ := Store.mem_logLines hline
        exact hfresh j (by omega) _ hmem e' hl
      · cases List.mem_singleton.mp hline
        rw [hplain.get_field (v := .str (env.uuid k)) rfl]
        intro heq
        have := henv.uuid (Json.str.inj heq)
        omega
    · exact hfresh j (by omega) p hold e' he'

end

/-! ### The call -/

/-- The entries that a release leaves are the ones around the one it drops. -/
theorem LeftOut.conflictList {st : Store} {transition : String} {n : ℕ} {t : FoldState}
    {rest : List Json} (h : LeftOut env st cardId transition n s t rest) :
    t.view.conflictList = rest := by
  rw [h.view]
  unfold ClaimView.conflictList
  cases rest with
  | nil => rfl
  | cons y rest => rfl

/-- The release has reached its postcondition. -/
theorem LeftOut.isApplied {transition : String} {n : ℕ} {t : FoldState}
    (ht : LeftOut env b.store cardId transition n s t (pre ++ post))
    (hlist : s.view.conflicts = none ∨ ∃ l, s.view.conflicts = some (.arr l))
    (h : Loses s.view x o r pre post) :
    releaseIsApplied env b o cardId transition ⟨some s.card, some r⟩ = .ok true := by
  have howner : s.card.owner.pyEq (.str o) = false :=
    Bool.eq_false_iff.mpr fun heq => h.owner ((Json.pyEq_str_right_iff _ _).mp heq)
  have hsame : t.card.owner = s.card.owner := congrArg ClaimView.owner ht.view
  have hstatus : t.card.status = s.card.status := congrArg ClaimView.status ht.view
  have hrevision : Dict.get t.card.metaData "_claim_revision" =
      Dict.get s.card.metaData "_claim_revision" := by
    have := congrArg ClaimView.actualRevision ht.view
    exact this
  have hbefore : (Dict.getD s.card.metaData "claim_conflicts" (.arr [])).iter =
      .ok s.view.conflictList := iter_conflictList hlist
  have hafter : (Dict.getD t.card.metaData "claim_conflicts" (.arr [])).iter =
      .ok (pre ++ post) := by
    rw [← ht.conflictList]
    refine iter_conflictList ?_
    change t.view.conflicts = none ∨ ∃ l, t.view.conflicts = some (.arr l)
    rw [ht.view]
    dsimp only
    split
    · exact .inl rfl
    · exact .inr ⟨_, rfl⟩
  unfold releaseIsApplied Store.releaseTransitionIsApplied
  refine bind_eq_ok.mpr ⟨true, ht.durable, ?_⟩
  rw [if_pos rfl]
  refine bind_eq_ok.mpr ⟨_, ht.folds.fold, ?_⟩
  dsimp only
  rw [howner, Bool.false_and, if_neg Bool.false_ne_true]
  refine bind_eq_ok.mpr ⟨_, hbefore, ?_⟩
  rw [h.filter_matches.1, h.filter_matches.2, hsame, hstatus, hrevision, Json.pyEq_refl,
    Json.pyEq_refl, beq_self_eq_true]
  dsimp only [List.length_singleton]
  rw [if_neg (by simp), if_pos (show (true && true && true) = true from rfl)]
  refine bind_eq_ok.mpr ⟨_, hafter, ?_⟩
  rw [Json.pyEqList_refl]
  rfl

/-- What the release of a loser leaves of the board. -/
structure Board.Drops (env : BoardEnv) (b b' : Board) (cardId o : String) (s t : FoldState)
    (rest : List Json) : Prop where
  holds : b'.Holds env cardId t
  view : t.view = { s.view with conflicts := if rest.isEmpty then none else some (.arr rest) }
  conflictList : t.view.conflictList = rest
  agents : ∀ other, other ≠ o → Assoc.get? b'.agents other = Assoc.get? b.agents other

/-- A release by an agent whose file lists the card goes on to the checks of its target. -/
theorem run_releaseClaim_listed (hb : b.Holds env cardId s) (hlists : b.Lists cardId o)
    {actor auditActor : String} {expected : Option String} {abandonReason : Json}
    (hactor : validateAgentName (if actor = "" then o else actor) = .ok auditActor) :
    ∃ a : AgentFile, validateAgentName (a.release cardId).agent = .ok o ∧
      (releaseClaim env o cardId actor expected abandonReason).run b =
        (do
          let target ← Effect.lift (releaseTarget env b o cardId expected false)
          let _ ← saveAgent env (a.release cardId)
          match target with
          | none => pure true
          | some target => do
            let transition ← drawUuid env
            Effect.tryExcept (mirrorRelease env o cardId auditActor transition abandonReason target)
              (releaseFailed env o cardId auditActor transition target
                (Assoc.get? b.agents o))).run b := by
  obtain ⟨a, hget, hagent, hlisted⟩ := hlists.file
  -- the agent file is the one of the name and lists the card
  have hload : b.loadAgent o = .ok (some a) := by
    unfold Board.loadAgent
    refine bind_eq_ok.mpr ⟨o, hlists.valid, ?_⟩
    rw [hget]
    dsimp only
    rw [if_pos hagent]
    rfl
  have hnot : ¬ (cardId ∉ a.claimedTasks ∧ a.currentTask ≠ some cardId) := by
    rintro ⟨h1, h2⟩
    exact hlisted.elim h1 h2
  refine ⟨a, ?_, ?_⟩
  · rw [show (a.release cardId).agent = o from hagent]
    exact hlists.valid
  · unfold releaseClaim
    rw [run_lift_bind, hlists.valid]
    dsimp only
    rw [run_lift_bind, hb.folds.dated.valid]
    dsimp only
    rw [run_lift_bind, hactor]
    dsimp only
    rw [run_get_bind, run_lift_bind, hb.folds.requireLockAnchor hb.id]
    dsimp only
    unfold releaseClaimLocked
    rw [run_get_bind, run_lift_bind, hload]
    dsimp only
    split
    · exact absurd (by assumption) hnot
    · rfl

/-- A release whose checks raise writes nothing. -/
theorem run_releaseClaim_of_refused (hb : b.Holds env cardId s) (hlists : b.Lists cardId o)
    {actor auditActor : String} {expected : Option String} {abandonReason : Json} {e : PyError}
    (hactor : validateAgentName (if actor = "" then o else actor) = .ok auditActor)
    (htarget : releaseTarget env b o cardId expected false = .error e) :
    (releaseClaim env o cardId actor expected abandonReason).run b = (.error e, b) := by
  obtain ⟨a, -, hrun⟩ := @run_releaseClaim_listed env b cardId s o hb hlists actor auditActor expected
    abandonReason hactor
  rw [hrun, run_lift_bind, htarget]

/-- **A loser is released** by its own exact revision. -/
theorem run_releaseClaim_loses (henv : env.Ticking) (hwrite : env.env.writeEnabled = true)
    (hb : b.Holds env cardId s) (hlists : b.Lists cardId o)
    (hlist : s.view.conflicts = none ∨ ∃ l, s.view.conflicts = some (.arr l))
    (h : Loses s.view x o r pre post) {actor auditActor reason : String} {abandonReason : Json}
    (hactor : validateAgentName (if actor = "" then o else actor) = .ok auditActor)
    (hreason : validateAbandonReason env.env abandonReason = .ok reason) :
    ∃ b' t, (releaseClaim env o cardId actor (some r) abandonReason).run b = (.ok true, b') ∧
      b.Drops env b' cardId o s t (pre ++ post) := by
  obtain ⟨a, hsaved, hcall⟩ := @run_releaseClaim_listed env b cardId s o hb hlists actor auditActor
    (some r) abandonReason hactor
  -- the board at the mirror, with the file written and the transition drawn
  set b₁ : Board := { b with
    agents := Assoc.set b.agents o { a.release cardId with lastSeen := env.now b.ticks }
    ticks := b.ticks + 2 } with hb₁
  obtain ⟨st, t, hmirror, ht⟩ := @run_mirrorRelease_loses env b₁ cardId s x o r pre post b.ticks
    (b.ticks + 1) auditActor reason abandonReason henv hwrite hb.faults hb.folds
    (Nat.le_add_right _ 2) (Nat.le_succ _) (Nat.lt_succ_self _) hb.fresh hb.id hb.voided hlist h
    hreason
  have happlied : releaseIsApplied env (b₁.appended st) o cardId (env.uuid (b.ticks + 1))
      ⟨some s.card, some r⟩ = .ok true := LeftOut.isApplied (b := b₁.appended st) ht hlist h
  refine ⟨b₁.appended st, t, ?_, ⟨⟨hb.faults, ht.folds, ht.id.trans hb.id, ht.voided, ht.fresh⟩,
    ht.view, ht.conflictList, fun other hother => Assoc.get?_set_ne _ _ hother⟩⟩
  have hrun : (mirrorRelease env o cardId auditActor (env.uuid (b.ticks + 1)) abandonReason
      ⟨some s.card, some r⟩).run b₁ = (.ok true, b₁.appended st) := by
    unfold mirrorRelease
    rw [run_bind_of_ok hmirror, run_get_bind, run_lift_bind, happlied]
    rfl
  rw [hcall, run_lift_bind, releaseTarget_of_loses hwrite hb.folds.fold hlist h]
  dsimp only
  rw [run_bind_of_ok (run_saveAgent hsaved), run_bind_of_ok run_drawUuid]
  exact run_tryExcept_of_ok hrun

/-! ### One loser after another -/

/-- The owners of the entries release their claims, one after another. -/
def releaseLosers (env : BoardEnv) (cardId : String) : List (String × String) → Effect Board Unit
  | [] => pure ()
  | (o, r) :: rest => do
    let _ ← releaseClaim env o cardId "" (some r) .null
    releaseLosers env cardId rest

/-- The entries name these owners and revisions. -/
def NamedBy (l : List Json) (names : List (String × String)) : Prop :=
  List.Forall₂ (fun x p => ConflictOf x p.1 p.2) l names

theorem exists_namedBy : ∀ {l : List Json}, (∀ x ∈ l, ∃ o r, ConflictOf x o r) →
    ∃ names, NamedBy l names
  | [], _ => ⟨[], .nil⟩
  | x :: l, h => by
    obtain ⟨o, r, hx⟩ := h x List.mem_cons_self
    obtain ⟨names, hl⟩ := exists_namedBy fun y hy => h y (List.mem_cons_of_mem _ hy)
    exact ⟨(o, r) :: names, .cons hx hl⟩

theorem Board.Drops.fenced {b' : Board} {t : FoldState} (h : b.Drops env b' cardId o s t (pre ++ post))
    (hs : s.view.Fenced) (hsplit : s.view.conflictList = pre ++ x :: post) : t.view.Fenced := by
  refine hs.mono ?_ ?_ fun _ => ?_
  · rw [h.view]
    dsimp only
    split
    · exact .inl rfl
    · exact .inr ⟨_, rfl⟩
  · rw [h.conflictList, hsplit]
    exact (List.Sublist.refl pre).append (List.sublist_cons_self x post)
  · rw [h.view]
    exact ⟨rfl, rfl⟩

/-- A card whose losers have all released can be completed by its owner. -/
theorem assertNoClaimConflict_of_nil {owner : String} (hb : b.Holds env cardId s)
    (hlist : s.view.conflicts = none ∨ ∃ l, s.view.conflicts = some (.arr l))
    (hnil : s.view.conflictList = []) (howner : s.card.owner = .str owner) :
    assertNoClaimConflict env b cardId owner = .ok () := by
  have hconflicts : (Dict.get s.card.metaData "claim_conflicts").truthy = false := by
    change ((s.view.conflicts).getD .null).truthy = false
    unfold ClaimView.conflictList at hnil
    rcases hlist with h | ⟨l, h⟩ <;> rw [h] at hnil ⊢
    · rfl
    · rw [show l = [] from hnil]
      rfl
  unfold assertNoClaimConflict
  refine bind_eq_ok.mpr ⟨_, hb.folds.fold, ?_⟩
  dsimp only
  rw [hconflicts, howner, if_neg Bool.false_ne_true]
  refine bind_eq_ok.mpr ⟨(), rfl, ?_⟩
  rw [Json.pyEq_refl, Bool.or_true, if_pos rfl]
  rfl

/-- The releases of all losers, by induction on the entries: each drops the first entry that is
left. -/
theorem run_releaseLosers (henv : env.Ticking) (hwrite : env.env.writeEnabled = true) :
    ∀ {names : List (String × String)} {b : Board} {s : FoldState}, b.Holds env cardId s →
      s.view.Fenced → s.card.owner.truthy = true → NamedBy s.view.conflictList names →
      (∀ p ∈ names, b.Lists cardId p.1) →
      ∃ b' t, (releaseLosers env cardId names).run b = (.ok (), b') ∧ b'.Holds env cardId t ∧
        t.view = { s.view with conflicts := t.view.conflicts } ∧ t.view.conflictList = [] ∧
        t.view.Fenced
  | [], b, s, hb, hs, _, hnames, _ => by
    have hnil : s.view.conflictList = [] := List.forall₂_nil_right_iff.mp hnames
    exact ⟨b, s, rfl, hb, rfl, hnil, hs⟩
  | (o, r) :: names, b, s, hb, hs, howner, hnames, hlists => by
    obtain ⟨x, post, hx, hpost, hsplit⟩ := List.forall₂_cons_right_iff.mp hnames
    have hmem : x ∈ s.view.conflictList := hsplit ▸ List.mem_cons_self
    -- the entry of the owner is the first one, since no owner has two
    have hloses : Loses s.view x o r [] post := by
      obtain ⟨h1, h2, h3⟩ := hs.live howner x hmem
      have hpair := hs.owners
      rw [hsplit] at hpair
      refine ⟨hx, hsplit, fun y hy => ?_, h1, h2, hs.revision howner, ?_⟩
      · rw [← hx.owner]
        exact (List.rel_of_pairwise_cons hpair hy).symm
      · rw [← hx.owner]
        exact h3.symm
    obtain ⟨hvalid, hfile⟩ := hlists (o, r) List.mem_cons_self
    have hactor : validateAgentName (if "" = "" then o else "") = .ok o := by
      rw [if_pos rfl]
      exact hvalid
    have hreason : validateAbandonReason env.env .null = .ok "unspecified" := rfl
    obtain ⟨b₁, s₁, hrun, hdrops⟩ := run_releaseClaim_loses henv hwrite hb ⟨hvalid, hfile⟩ hs.isList
      hloses hactor hreason
    have howner₁ : s₁.card.owner = s.card.owner := congrArg ClaimView.owner hdrops.view
    have hpair := hs.owners
    rw [hsplit] at hpair
    -- the files of the others are untouched
    have hlists₁ : ∀ p ∈ names, b₁.Lists cardId p.1 := by
      intro p hp
      obtain ⟨hvalid', a, hget, hrest⟩ := hlists p (List.mem_cons_of_mem _ hp)
      refine ⟨hvalid', a, ?_, hrest⟩
      rw [hdrops.agents p.1 ?_]
      · exact hget
      · obtain ⟨i, hi, rfl⟩ := List.mem_iff_getElem.mp hp
        have hlen : i < post.length := (List.Forall₂.length_eq hpost).symm ▸ hi
        have hy : ConflictOf post[i] names[i].1 names[i].2 :=
          (List.forall₂_iff_get.mp hpost).2 i hlen hi
        intro heq
        refine List.rel_of_pairwise_cons hpair (List.getElem_mem hlen) ?_
        rw [hx.owner, hy.owner, heq]
    obtain ⟨b', t, hrest, hholds, hview, hnil, ht⟩ := run_releaseLosers henv hwrite hdrops.holds
      (hdrops.fenced hs hsplit) (howner₁ ▸ howner) (by rw [hdrops.conflictList]; exact hpost) hlists₁
    refine ⟨b', t, ?_, hholds, ?_, hnil, ht⟩
    · unfold releaseLosers
      rw [run_bind_of_ok hrun]
      exact hrest
    · rw [hview, hdrops.view]

/-! ### The runs -/

/-- **The losers of a run can be released**, each by itself and all of them one after another, when
every claim of the run keeps the fence. -/
theorem losers_releasable (henv : env.Ticking) (hwrite : env.env.writeEnabled = true) {core : CardCore}
    {events : List Event} (hs : foldCard cardId core events = .ok s)
    (hcore : Assoc.get? core.metaData "claim_conflicts" = none)
    (hsteps : ∀ e ∈ events, ClaimStep e)
    (hkeeps : ∀ pre e post u, events = pre ++ e :: post → foldCard cardId core pre = .ok u →
      u.view.KeepsFence e)
    (hb : b.Holds env cardId s) (howner : s.card.owner.truthy = true) :
    (∀ x ∈ s.view.conflictList, ∀ o r, ConflictOf x o r → b.Lists cardId o →
      ∀ actor auditActor abandonReason reason,
        validateAgentName (if actor = "" then o else actor) = .ok auditActor →
        validateAbandonReason env.env abandonReason = .ok reason →
        ∃ b' t pre post, (releaseClaim env o cardId actor (some r) abandonReason).run b = (.ok true, b') ∧
          b'.Holds env cardId t ∧ s.view.conflictList = pre ++ x :: post ∧
          t.view.conflictList = pre ++ post ∧ t.view = { s.view with conflicts := t.view.conflicts }) ∧
    ((∀ x ∈ s.view.conflictList, ∀ o, x.field "owner" = .str o → b.Lists cardId o) →
      ∃ names b', NamedBy s.view.conflictList names ∧
        (releaseLosers env cardId names).run b = (.ok (), b') ∧
        ∀ owner, s.card.owner = .str owner → assertNoClaimConflict env b' cardId owner = .ok ()) := by
  -- the fence holds in every prefix, so it holds where the run has come to
  have hfenced : s.view.Fenced := fenced_of_run hs hcore hsteps hkeeps
  refine ⟨fun x hx o r hconf hlists actor auditActor abandonReason reason hactor hreason => ?_,
    fun hlists => ?_⟩
  · obtain ⟨pre, post, hloses⟩ := loses_of_fenced hfenced howner hx hconf
    obtain ⟨b', t, hrun, hdrops⟩ := run_releaseClaim_loses henv hwrite hb hlists hfenced.isList hloses
      hactor hreason
    refine ⟨b', t, pre, post, hrun, hdrops.holds, hloses.split, hdrops.conflictList, ?_⟩
    rw [hdrops.view]
  · obtain ⟨names, hnames⟩ := exists_namedBy hfenced.entries
    -- every name of the list is the owner of an entry
    have hnamed : ∀ p ∈ names, b.Lists cardId p.1 := by
      intro p hp
      obtain ⟨i, hi, rfl⟩ := List.mem_iff_getElem.mp hp
      have hlen : i < s.view.conflictList.length := (List.Forall₂.length_eq hnames).symm ▸ hi
      have hy : ConflictOf s.view.conflictList[i] names[i].1 names[i].2 :=
        (List.forall₂_iff_get.mp hnames).2 i hlen hi
      exact hlists _ (List.getElem_mem hlen) _ hy.owner
    obtain ⟨b', t, hrun, hholds, hview, hnil, ht⟩ :=
      run_releaseLosers henv hwrite hb hfenced howner hnames hnamed
    refine ⟨names, b', hnames, hrun, fun owner heq => ?_⟩
    have howner' : t.card.owner = .str owner := by
      have := congrArg ClaimView.owner hview
      exact Eq.trans this heq
    exact assertNoClaimConflict_of_nil hholds ht.isList hnil howner'

/-! ### Two runs -/

/-- A claim on `t1`, the first event of the log of its agent. -/
def claimEvent (agent revision ts : String) : Event :=
  [("ts", .str ts), ("writer", .str agent), ("seq", .int 0), ("action", .str "claim"),
    ("prev_hash", .str ""), ("owner", .str agent), ("claim_revision", .str revision)]

def contestedCore : CardCore := { id := "t1", title := "one", createdAt := "a" }

/-- A board on which `bob` claimed the card of `alice`, and both files list it. -/
def contestedBoard (events : List Event) : Board where
  creation := { store := { cards := [("t1", {
    core := .present contestedCore
    logs := [("alice@host.jsonl", .value (.obj (claimEvent "alice" "r1" "a")) ::
        events.map fun e => .value (.obj e)),
      ("bob@host.jsonl", [.value (.obj (claimEvent "bob" "r2" "aa"))])]
    nodup := by
      show ["alice@host.jsonl", "bob@host.jsonl"].Nodup
      decide })] } }
  agents := [("alice", { agent := "alice", lastSeen := "a", claimedTasks := ["t1"] }),
    ("bob", { agent := "bob", lastSeen := "aa", claimedTasks := ["t1"] })]
  ticks := 5

/-- The entry of `bob`, who lost against the first claim of `alice`. -/
def bobsConflict : Json :=
  .obj [("event_id", .null), ("owner", .str "bob"), ("claim_revision", .str "r2"),
    ("existing_owner", .str "alice"), ("existing_claim_revision", .str "r1"),
    ("reason", .str "concurrent claim requires explicit release or completion")]

theorem conflictOf_bobsConflict : ConflictOf bobsConflict "bob" "r2" :=
  ⟨rfl, rfl, rfl, by decide, by decide⟩

theorem claimStep_claimEvent {agent revision : String} (ts : String) (ha : agent ≠ "")
    (hr : revision ≠ "") : ClaimStep (claimEvent agent revision ts) :=
  .claim agent revision rfl rfl rfl ha hr

theorem dated_contested {events : List Event}
    (hchain : ∃ l, Store.readLog unaryEnv.env "t1" "alice@host.jsonl" ""
      (.value (.obj (claimEvent "alice" "r1" "a")) :: events.map fun e => .value (.obj e)) = .ok l)
    (hevents : ∀ e ∈ events, ∃ t, Store.Stamped e t ∧ t < unaryEnv.now 5) :
    (contestedBoard events).store.Dated unaryEnv.env "t1" (unaryEnv.now 5) := by
  have hclaim : ∀ agent revision, ∀ ts < unaryEnv.now 5, ∃ e t,
      LogLine.value (.obj (claimEvent agent revision ts)) = .value (.obj e) ∧ Store.Stamped e t ∧
        t < unaryEnv.now 5 := fun agent revision ts hts =>
    ⟨_, ts, rfl, ⟨rfl, ⟨agent, rfl⟩, ⟨0, rfl⟩⟩, hts⟩
  have halice := hclaim "alice" "r1" "a" (by decide)
  have hbob := hclaim "bob" "r2" "aa" (by decide)
  have hlogs : ((contestedBoard events).store.dir "t1").logs =
      [("alice@host.jsonl", .value (.obj (claimEvent "alice" "r1" "a")) ::
          events.map fun e => .value (.obj e)),
        ("bob@host.jsonl", [.value (.obj (claimEvent "bob" "r2" "aa"))])] := rfl
  refine ⟨rfl, fun p hp => ?_, fun p hp line hline => ?_, fun e he => ?_⟩
  · rw [hlogs] at hp
    rcases List.mem_pair.mp hp with rfl | rfl
    · exact hchain
    · exact ⟨_, rfl⟩
  · rw [hlogs] at hp
    rcases List.mem_pair.mp hp with rfl | rfl
    · rcases List.mem_cons.mp hline with rfl | hline
      · exact halice
      · obtain ⟨e, he, rfl⟩ := List.mem_map.mp hline
        obtain ⟨t, hstamp, ht⟩ := hevents e he
        exact ⟨e, t, rfl, hstamp, ht⟩
    · rw [List.mem_singleton.mp hline]
      exact hbob
  · exact (List.not_mem_nil he).elim

theorem lists_contested (events : List Event) : (contestedBoard events).Lists "t1" "bob" :=
  ⟨rfl, { agent := "bob", lastSeen := "aa", claimedTasks := ["t1"] }, rfl, rfl,
    .inl List.mem_cons_self⟩

theorem fresh_contested {events : List Event}
    (hevents : ∀ e ∈ events, e.get "transition_id" = .null) (k : ℕ) :
    FreshTransition (contestedBoard events).store "t1" (unaryEnv.uuid k) := by
  intro p hp e he
  have hnull : e.get "transition_id" = .null := by
    have hp' : p ∈ [("alice@host.jsonl", .value (.obj (claimEvent "alice" "r1" "a")) ::
        events.map fun e => LogLine.value (.obj e)),
      ("bob@host.jsonl", [.value (.obj (claimEvent "bob" "r2" "aa"))])] := hp
    rcases List.mem_pair.mp hp' with rfl | rfl
    · rcases List.mem_cons.mp he with heq | he
      · cases heq
        rfl
      · obtain ⟨e', he', heq⟩ := List.mem_map.mp he
        cases heq
        exact hevents e he'
    · cases List.mem_singleton.mp he
      rfl
  rw [hnull]
  simp

/-- `bob` releases the claim that lost, and `alice` can complete the card. -/
theorem losers_releasable_bob : ∃ s, foldCard "t1" contestedCore
    [claimEvent "alice" "r1" "a", claimEvent "bob" "r2" "aa"] = .ok s ∧
      s.view.conflictList = [bobsConflict] ∧
      (∃ b', (releaseClaim unaryEnv "bob" "t1" "" (some "r2") .null).run (contestedBoard []) =
        (.ok true, b')) ∧
      ∃ names b', (releaseLosers unaryEnv "t1" names).run (contestedBoard []) = (.ok (), b') ∧
        assertNoClaimConflict unaryEnv b' "t1" "alice" = .ok () := by
  obtain ⟨s, hs, hlist, howner, hvoided, hid⟩ : ∃ s, foldCard "t1" contestedCore
      [claimEvent "alice" "r1" "a", claimEvent "bob" "r2" "aa"] = .ok s ∧
        s.view.conflictList = [bobsConflict] ∧ s.card.owner = .str "alice" ∧ s.voided = false ∧
        s.card.id = "t1" := ⟨_, rfl, rfl, rfl, rfl, rfl⟩
  have hb : (contestedBoard []).Holds unaryEnv "t1" s :=
    ⟨rfl, ⟨dated_contested ⟨_, rfl⟩ (by simp), contestedCore, _, rfl, rfl, hs⟩, hid, hvoided,
      fun k _ => fresh_contested (by simp) k⟩
  have hsteps : ∀ e ∈ [claimEvent "alice" "r1" "a", claimEvent "bob" "r2" "aa"], ClaimStep e := by
    intro e he
    rcases List.mem_pair.mp he with rfl | rfl
    · exact claimStep_claimEvent "a" (by decide) (by decide)
    · exact claimStep_claimEvent "aa" (by decide) (by decide)
  -- the first claim finds no entries, the second is the first one of `bob`
  have hkeeps : ∀ pre e post u, [claimEvent "alice" "r1" "a", claimEvent "bob" "r2" "aa"] =
      pre ++ e :: post → foldCard "t1" contestedCore pre = .ok u → u.view.KeepsFence e := by
    intro pre e post u heq hu _
    match pre, heq with
    | [], heq =>
      cases heq
      cases hu
      exact .inl rfl
    | [_], heq =>
      cases heq
      cases hu
      exact fun x hx => (List.not_mem_nil hx).elim
    | _ :: _ :: _, heq => simp at heq
  obtain ⟨hone, hall⟩ := losers_releasable unaryEnv_ticking rfl hs rfl hsteps hkeeps hb
    (by rw [howner]; rfl)
  obtain ⟨b', -, -, -, hrun, -⟩ := hone bobsConflict (by rw [hlist]; exact List.mem_cons_self)
    "bob" "r2" conflictOf_bobsConflict (lists_contested []) "" "bob" .null "unspecified" rfl rfl
  obtain ⟨names, b'', -, hrun', hcomplete⟩ := hall fun x hx o ho => by
    rw [hlist] at hx
    rw [List.mem_singleton.mp hx] at ho
    cases ho
    exact lists_contested []
  exact ⟨s, hs, hlist, ⟨b', hrun⟩, names, b'', hrun', hcomplete "alice" howner⟩

/-- `alice` moves the card back to READY. -/
def demotedEvent : Event :=
  [("ts", .str "aaa"), ("writer", .str "alice"), ("seq", .int 1), ("action", .str "move"),
    ("prev_hash", .str ""), ("column", .str "ready")]

/-- `alice` claims the card again. -/
def renewedEvent : Event :=
  [("ts", .str "aaaa"), ("writer", .str "alice"), ("seq", .int 2), ("action", .str "claim"),
    ("prev_hash", .str ""), ("owner", .str "alice"), ("claim_revision", .str "r3")]

/-- A demotion and a new claim of the same owner: the entry of `bob` names a claim that is over, so
that neither `bob` can release it nor `alice` complete the card. -/
theorem renewed_claim_strands : ∃ s, foldCard "t1" contestedCore [claimEvent "alice" "r1" "a",
    claimEvent "bob" "r2" "aa", demotedEvent, renewedEvent] = .ok s ∧
      (∀ e ∈ [claimEvent "alice" "r1" "a", claimEvent "bob" "r2" "aa", demotedEvent, renewedEvent],
        ClaimStep e) ∧
      (contestedBoard [demotedEvent, renewedEvent]).Holds unaryEnv "t1" s ∧
      s.card.owner = .str "alice" ∧ s.card.status = .doing ∧ s.view.conflictList = [bobsConflict] ∧
      (contestedBoard [demotedEvent, renewedEvent]).Lists "t1" "bob" ∧
      ((releaseClaim unaryEnv "bob" "t1" "" (some "r2") .null).run
        (contestedBoard [demotedEvent, renewedEvent])).1 =
          .error (currentClaimPrecondition.noExactRevision "t1") ∧
      (assertNoClaimConflict unaryEnv (contestedBoard [demotedEvent, renewedEvent]) "t1"
        "alice").toOption = none := by
  obtain ⟨s, hs, hlist, howner, hstatus, hvoided, hid, hconflicts, hrevision⟩ : ∃ s, foldCard "t1" contestedCore
      [claimEvent "alice" "r1" "a", claimEvent "bob" "r2" "aa", demotedEvent, renewedEvent] = .ok s ∧
        s.view.conflictList = [bobsConflict] ∧ s.card.owner = .str "alice" ∧
        s.card.status = .doing ∧ s.voided = false ∧ s.card.id = "t1" ∧
        s.view.conflicts = some (.arr [bobsConflict]) ∧ s.view.actualRevision = .str "r3" :=
    ⟨_, rfl, rfl, rfl, rfl, rfl, rfl, rfl, rfl⟩
  have hsteps : ∀ e ∈ [claimEvent "alice" "r1" "a", claimEvent "bob" "r2" "aa", demotedEvent,
      renewedEvent], ClaimStep e := by
    intro e he
    simp only [List.mem_cons, List.not_mem_nil, or_false] at he
    rcases he with rfl | rfl | rfl | rfl
    · exact claimStep_claimEvent "a" (by decide) (by decide)
    · exact claimStep_claimEvent "aa" (by decide) (by decide)
    · exact .demotion rfl
    · exact .claim "alice" "r3" rfl rfl rfl (by decide) (by decide)
  have hdated : (contestedBoard [demotedEvent, renewedEvent]).store.Dated unaryEnv.env "t1"
      (unaryEnv.now 5) := by
    refine dated_contested ⟨_, rfl⟩ fun e he => ?_
    rcases List.mem_pair.mp he with rfl | rfl
    · exact ⟨"aaa", ⟨rfl, ⟨"alice", rfl⟩, ⟨1, rfl⟩⟩, by decide⟩
    · exact ⟨"aaaa", ⟨rfl, ⟨"alice", rfl⟩, ⟨2, rfl⟩⟩, by decide⟩
  have hfresh : ∀ e ∈ [demotedEvent, renewedEvent], e.get "transition_id" = .null := by
    intro e he
    rcases List.mem_pair.mp he with rfl | rfl <;> rfl
  have hb : (contestedBoard [demotedEvent, renewedEvent]).Holds unaryEnv "t1" s :=
    ⟨rfl, ⟨hdated, contestedCore, _, rfl, rfl, hs⟩, hid, hvoided, fun k _ => fresh_contested hfresh k⟩
  -- the entry of `bob` still names `r1`, and the claim of `alice` is `r3` by now
  have hview : s.view.owner ≠ .str "bob" := by
    show s.card.owner ≠ _
    rw [howner]
    exact fun h => absurd (Json.str.inj h) (by decide)
  have hfilter : s.view.conflictList.filter
      (fun y => y.isDict && (y.field "owner").pyEq (.str "bob")) = [bobsConflict] := by
    rw [hlist]
    rfl
  have htarget := releaseTarget_of_stale (b := contestedBoard [demotedEvent, renewedEvent]) rfl
    hb.folds.fold (.inr ⟨_, hconflicts⟩) hview hfilter conflictOf_bobsConflict (by rw [hrevision]; rfl) (some "r2")
  have hrun := @run_releaseClaim_of_refused unaryEnv _ "t1" s "bob" hb
    (lists_contested [demotedEvent, renewedEvent]) "" "bob" (some "r2") .null _ rfl htarget
  exact ⟨s, hs, hsteps, hb, howner, hstatus, hlist, lists_contested _, congrArg Prod.fst hrun, rfl⟩

end SkCoord
