import SkCoord.CardStore.Equiv.Void

/-!
# Conflicts that a release can name

An entry of `claim_conflicts` remembers the claim it lost against, and a release of it is good only
while that claim is live.  `ClaimView.Fenced` says that every entry still does and that no owner has
two; `fenced_next` is what one event of a card preserves, `fenced_of_run` what a run does, when every
claim on it meets `ClaimView.KeepsFence`.
-/

namespace SkCoord

open Python

/-- The events of a card that is claimed, demoted and released: a claim as the board writes it, a
move, or a release. -/
inductive ClaimStep (e : Event) : Prop
  | claim (owner revision : String) (hact : e.action = .claim) (howner : e.get "owner" = .str owner)
      (hrevision : e.get "claim_revision" = .str revision) (ho : owner ≠ "") (hr : revision ≠ "")
  | demotion (hact : e.action = .move)
  | release (hact : e.action = .releaseClaim)

/-- An entry of `claim_conflicts` with the owner and the revision that lost. -/
structure ConflictOf (x : Json) (o r : String) : Prop where
  isDict : x.isDict = true
  owner : x.field "owner" = .str o
  revision : x.field "claim_revision" = .str r
  owner_ne : o ≠ ""
  revision_ne : r ≠ ""

namespace ClaimView

/-- Every recorded conflict was lost against the live claim, and no owner has two. -/
structure Fenced (v : ClaimView) : Prop where
  isList : v.conflicts = none ∨ ∃ l, v.conflicts = some (.arr l)
  entries : ∀ x ∈ v.conflictList, ∃ o r, ConflictOf x o r
  owners : v.conflictList.Pairwise fun x y => x.field "owner" ≠ y.field "owner"
  revision : v.owner.truthy = true → v.actualRevision.isNonEmptyStr = true
  live : v.owner.truthy = true → ∀ x ∈ v.conflictList, x.field "existing_owner" = v.owner ∧
    x.field "existing_claim_revision" = v.actualRevision ∧ x.field "owner" ≠ v.owner

/-- A claim that loses is the first recorded one of its owner, and one that takes or renews the
claim finds no conflicts, clears them, or leaves the live claim as it is. -/
def KeepsFence (v : ClaimView) (e : Event) : Prop :=
  e.action = .claim →
    if v.claimConflicts e then ∀ x ∈ v.conflictList, x.field "owner" ≠ e.get "owner"
    else v.conflictList = [] ∨ (v.owner = .null ∧ v.status = .backlog) ∨
      (v.owner = e.get "owner" ∧ v.actualRevision = e.get "claim_revision")

variable {v : ClaimView} {e : Event}

theorem Fenced.mono {w : ClaimView} (h : v.Fenced) (hlist : w.conflicts = none ∨
    ∃ l, w.conflicts = some (.arr l)) (hsub : w.conflictList.Sublist v.conflictList)
    (hlive : w.owner.truthy = true → w.owner = v.owner ∧ w.actualRevision = v.actualRevision) :
    w.Fenced := by
  refine ⟨hlist, fun x hx => h.entries x (hsub.subset hx), h.owners.sublist hsub, fun ho => ?_,
    fun ho x hx => ?_⟩
  · obtain ⟨howner, hrevision⟩ := hlive ho
    rw [hrevision]
    exact h.revision (howner ▸ ho)
  · obtain ⟨howner, hrevision⟩ := hlive ho
    rw [howner, hrevision]
    exact h.live (howner ▸ ho) x (hsub.subset hx)

theorem fenced_releaseClaim (h : v.Fenced) : (v.releaseClaim e).Fenced := by
  unfold releaseClaim
  split
  · exact h.mono h.isList (List.Sublist.refl _) (fun ho => absurd ho Bool.false_ne_true)
  · split
    · dsimp only
      generalize hrem : v.conflictList.filter _ = remaining
      have hsub : remaining.Sublist v.conflictList := hrem ▸ List.filter_sublist
      cases remaining with
      | nil => exact h.mono (.inl rfl) (List.nil_sublist _) fun _ => ⟨rfl, rfl⟩
      | cons x l => exact h.mono (.inr ⟨x :: l, rfl⟩) hsub fun _ => ⟨rfl, rfl⟩
    · exact h

theorem fenced_claim {owner revision : String} (h : v.Fenced) (howner : e.get "owner" = .str owner)
    (hrevision : e.get "claim_revision" = .str revision) (ho : owner ≠ "") (hr : revision ≠ "")
    (hkeeps : if v.claimConflicts e then ∀ x ∈ v.conflictList, x.field "owner" ≠ e.get "owner"
      else v.conflictList = [] ∨ (v.owner = .null ∧ v.status = .backlog) ∨
        (v.owner = e.get "owner" ∧ v.actualRevision = e.get "claim_revision")) :
    (v.claim e).Fenced := by
  have htruthy : (Json.str owner).truthy = true := by simpa [Json.truthy] using ho
  have hclaimed : Card.claimRevision e = .str revision := by
    rw [Card.claimRevision, hrevision, Json.orElse, if_pos (by simpa [Json.truthy] using hr)]
  have hnonempty : (Json.str revision).isNonEmptyStr = true := by
    simpa [Json.isNonEmptyStr] using hr
  unfold claim
  split
  · -- the claim loses, and its entry remembers the live claim
    rename_i hcon
    rw [if_pos hcon] at hkeeps
    have hne : v.owner ≠ e.get "owner" := by
      intro heq
      simp only [claimConflicts, heq, Json.pyEq_refl, Bool.not_true, Bool.and_false,
        Bool.false_and] at hcon
      exact Bool.false_ne_true hcon
    refine ⟨.inr ⟨_, rfl⟩, ?_, ?_, h.revision, ?_⟩
    · intro x hx
      rcases List.mem_append.mp hx with hx | hx
      · exact h.entries x hx
      · rw [List.mem_singleton.mp hx]
        exact ⟨owner, revision, rfl, howner, hrevision, ho, hr⟩
    · refine List.pairwise_append.mpr ⟨h.owners, List.pairwise_singleton _ _, fun x hx y hy => ?_⟩
      rw [List.mem_singleton.mp hy]
      exact hkeeps x hx
    · intro hlive x hx
      rcases List.mem_append.mp hx with hx | hx
      · exact h.live hlive x hx
      · rw [List.mem_singleton.mp hx]
        exact ⟨rfl, rfl, hne.symm⟩
  · -- the claim takes the card or renews the claim on it
    rename_i hcon
    rw [if_neg hcon] at hkeeps
    rw [hclaimed, if_pos hnonempty, howner, htruthy, Bool.and_true]
    have hempty : ∀ conflicts : Option Json, (conflicts = none ∨ conflicts = v.conflicts) →
        (conflicts = v.conflicts → v.conflictList = []) →
        ({ v with owner := .str owner, status := .doing, revision := some (.str revision),
                  conflicts := conflicts } : ClaimView).Fenced := by
      intro conflicts hor hnil
      have hlist : ({ v with owner := .str owner, status := .doing, revision := some (.str revision),
                             conflicts := conflicts } : ClaimView).conflictList = [] := by
        rcases hor with rfl | rfl
        · rfl
        · exact hnil rfl
      refine ⟨?_, ?_, ?_, fun _ => hnonempty, ?_⟩
      · rcases hor with rfl | rfl
        · exact .inl rfl
        · exact h.isList
      · rw [hlist]
        exact fun x hx => (List.not_mem_nil hx).elim
      · rw [hlist]
        exact List.Pairwise.nil
      · rw [hlist]
        exact fun _ x hx => (List.not_mem_nil hx).elim
    rcases hkeeps with hnil | ⟨hnull, hbacklog⟩ | ⟨hsame, hrev⟩
    · refine hempty _ ?_ fun _ => hnil
      split
      · exact .inl rfl
      · exact .inr rfl
    · have hclears : (v.owner.isNone && v.status == .backlog) = true := by
        rw [hnull, hbacklog]
        rfl
      rw [if_pos hclears]
      refine hempty none (.inl rfl) fun hnone => ?_
      rw [conflictList, ← hnone]
    · have hkept : ¬ (v.owner.isNone && v.status == .backlog) = true := by
        rw [hsame, howner]
        exact Bool.false_ne_true
      rw [if_neg hkept]
      exact h.mono h.isList (List.Sublist.refl _) fun _ =>
        ⟨(hsame.trans howner).symm, (hrev.trans hrevision).symm⟩

/-- What one event of the run preserves. -/
theorem fenced_next (h : v.Fenced) (hstep : ClaimStep e) (hkeeps : v.KeepsFence e) :
    (v.next e).Fenced := by
  unfold next
  split
  · exact h
  · cases hstep with
    | claim owner revision hact howner hrevision ho hr =>
      rw [hact]
      exact fenced_claim h howner hrevision ho hr (hkeeps hact)
    | demotion hact =>
      rw [hact]
      exact h.mono h.isList (List.Sublist.refl _) fun _ => ⟨rfl, rfl⟩
    | release hact =>
      rw [hact]
      exact fenced_releaseClaim h

end ClaimView

theorem foldInit_fenced {cardId : String} {core : CardCore} {s : FoldState}
    (h : foldInit cardId core = .ok s)
    (hcore : Assoc.get? core.metaData "claim_conflicts" = none) : s.view.Fenced := by
  have hempty : ∀ v : ClaimView, v.conflicts = none →
      (v.owner.truthy = true → v.actualRevision.isNonEmptyStr = true) → v.Fenced := by
    intro v hnone hrevision
    have hlist : v.conflictList = [] := by rw [ClaimView.conflictList, hnone]
    refine ⟨.inl hnone, ?_, ?_, hrevision, ?_⟩
    · rw [hlist]
      exact fun x hx => (List.not_mem_nil hx).elim
    · rw [hlist]
      exact List.Pairwise.nil
    · rw [hlist]
      exact fun _ x hx => (List.not_mem_nil hx).elim
  unfold foldInit at h
  dsimp only at h
  split at h
  · rename_i hnone
    rw [← pure_eq_ok.mp h]
    refine hempty _ hcore fun ho => ?_
    have hnull : jsonOfOption core.initialOwner = .null := by rw [hnone]; rfl
    change (jsonOfOption core.initialOwner).truthy = true at ho
    rw [hnull] at ho
    exact absurd ho Bool.false_ne_true
  · split at h
    · rename_i r _
      split at h
      · cases h
      · rename_i hr
        rw [← pure_eq_ok.mp h]
        refine hempty _ ?_ fun _ => ?_
        · show Assoc.get? (Assoc.set core.metaData "_claim_revision" (.str r)) "claim_conflicts" = none
          rw [Assoc.get?_set_ne _ _ (by decide), hcore]
        · show ((Assoc.get? (Assoc.set core.metaData "_claim_revision" (.str r))
            "_claim_revision").getD .null).isNonEmptyStr = true
          rw [Assoc.get?_set_self]
          simpa [Json.isNonEmptyStr] using hr
    · cases h

/-- **The fence holds along a run** whose claims all meet the condition. -/
theorem fenced_of_run {cardId : String} {core : CardCore} {events : List Event} {s : FoldState}
    (hs : foldCard cardId core events = .ok s)
    (hcore : Assoc.get? core.metaData "claim_conflicts" = none)
    (hsteps : ∀ e ∈ events, ClaimStep e)
    (hkeeps : ∀ pre e post u, events = pre ++ e :: post → foldCard cardId core pre = .ok u →
      u.view.KeepsFence e) : s.view.Fenced := by
  unfold foldCard at hs hkeeps
  obtain ⟨s₀, h0, hs⟩ := bind_eq_ok.mp hs
  refine foldlM_invariant_of_turns (I := fun u : FoldState => u.view.Fenced)
    (G := fun u e => ClaimStep e ∧ u.view.KeepsFence e) ?_ events s₀ s (foldInit_fenced h0 hcore) ?_ hs
  · rintro u e u' hu ⟨hstep, hkeep⟩ hnext
    rw [FoldState.step_view hnext]
    exact ClaimView.fenced_next hu hstep hkeep
  · intro pre e post u heq hu
    refine ⟨hsteps e (by rw [heq]; simp), hkeeps pre e post u heq ?_⟩
    exact bind_eq_ok.mpr ⟨s₀, h0, hu⟩

end SkCoord
