import SkCoord.Python.FirstCheck
import SkCoord.Scheduler.Equiv.Truth

/-!
# The primary reason is the first that applies

`PrimaryReason.Holds` is the condition that a reason names.  `primaryReason` checks the conditions
in the order of `PRIMARY_REASONS`, but for the two about dependencies, which have changed places
(`primaryReason_eq`).  `primaryReason_first_iff` is when that does not matter.
-/

namespace SkCoord

open Python

variable {S : SchedulerEnv} {facts : SchedulerCardFacts} {asOf : Option S.Instant}

/-! ### The conditions -/

/-- The state of a dependency. -/
def SchedulerCardFacts.stateOf (facts : SchedulerCardFacts) (dep : String) : Option String :=
  Assoc.get? facts.dependencyStates dep

/-- `facts.live_facts.get("verdict_links")`. -/
def SchedulerCardFacts.verdictLinks (facts : SchedulerCardFacts) : Json :=
  Dict.get facts.liveFacts "verdict_links"

namespace PrimaryReason

variable (S : SchedulerEnv) (facts : SchedulerCardFacts) (asOf : Option S.Instant)

/-- The condition that a reason names. -/
def Holds : PrimaryReason → Prop
  | notTask => facts.kind ≠ "task" ∧ facts.kind ≠ "epic"
  | stateNotEligible => facts.state ≠ "backlog" ∧ facts.state ≠ "ready"
  | voided => facts.voided = true
  | archived => facts.archived = true
  | excludedLabel => ∃ label ∈ facts.labels, isExcluding label = true
  | dependencyIncomplete => ∃ dep ∈ facts.dependencies,
      facts.stateOf dep ≠ some "unknown" ∧ facts.stateOf dep ≠ some "done"
  | dependencyUnknown => ∃ dep ∈ facts.dependencies, facts.stateOf dep = some "unknown"
  | verdictBlocked => facts.verdict = some "BLOCKED" ∨
      latestVerdict facts.verdictLinks = .ok (some "BLOCKED")
  | alreadyOwned => ∃ owner ∈ facts.owner, owner ≠ ""
  | humanGateOpen => ∃ gate ∈ facts.humanGate, isOpenGate gate = true
  | superseded => ∃ successor ∈ facts.supersededBy, successor ≠ ""
  | notReadyTime => isBeforeReady S facts.readyAt asOf = .ok true

/-- The reasons in front of a reason in `PRIMARY_REASONS`. -/
def before (r : PrimaryReason) : List PrimaryReason := all.takeWhile fun r' => r' ≠ r

/-- No reason in front of a reason applies. -/
def Reached (r : PrimaryReason) : Prop := ∀ r' ∈ r.before, ¬r'.Holds S facts asOf

/-- The check of a reason. -/
def check : PrimaryReason → Except PyError Bool
  | notTask => pure (facts.kind ≠ "task" ∧ facts.kind ≠ "epic")
  | stateNotEligible => pure (facts.state ≠ "backlog" ∧ facts.state ≠ "ready")
  | voided => pure facts.voided
  | archived => pure facts.archived
  | excludedLabel => pure (facts.labels.any isExcluding)
  | dependencyIncomplete => pure (facts.dependencies.any fun dep =>
      facts.stateOf dep != some "unknown" && facts.stateOf dep != some "done")
  | dependencyUnknown => pure (facts.dependencies.any fun dep => facts.stateOf dep == some "unknown")
  | verdictBlocked =>
    if facts.verdict = some "BLOCKED" then pure true
    else do
      let v ← latestVerdict facts.verdictLinks
      pure (v = some "BLOCKED")
  | alreadyOwned => pure (facts.owner.any (· ≠ ""))
  | humanGateOpen => pure (facts.humanGate.any isOpenGate)
  | superseded => pure (facts.supersededBy.any (· ≠ ""))
  | notReadyTime => isBeforeReady S facts.readyAt asOf

/-- The order in which the conditions are checked. -/
def checked : List PrimaryReason :=
  [notTask, stateNotEligible, voided, archived, excludedLabel, dependencyUnknown,
    dependencyIncomplete, verdictBlocked, alreadyOwned, humanGateOpen, superseded, notReadyTime]

variable {S facts asOf}

theorem holds_iff_check (r : PrimaryReason) :
    r.Holds S facts asOf ↔ r.check S facts asOf = .ok true := by
  cases r with
  | verdictBlocked =>
    simp only [Holds, check]
    split
    · rename_i h
      exact ⟨fun _ => rfl, fun _ => .inl h⟩
    · rename_i h
      simp only [h, false_or, bind_eq_ok, pure_eq_ok, decide_eq_true_eq]
      constructor
      · intro hv
        exact ⟨_, hv, rfl⟩
      · rintro ⟨v, hv, heq⟩
        exact heq ▸ hv
  | alreadyOwned => cases h : facts.owner <;> simp [Holds, check, h]
  | humanGateOpen => cases h : facts.humanGate <;> simp [Holds, check, h]
  | superseded => cases h : facts.supersededBy <;> simp [Holds, check, h]
  | _ => simp [Holds, check]

/-- All checks but two return. -/
theorem check_isOk {r : PrimaryReason} (hverdict : r ≠ verdictBlocked) (htime : r ≠ notReadyTime) :
    (r.check S facts asOf).isOk := by
  cases r with
  | verdictBlocked => exact absurd rfl hverdict
  | notReadyTime => exact absurd rfl htime
  | _ => rfl

theorem before_eq {r : PrimaryReason} {front after : List PrimaryReason}
    (h : all = front ++ r :: after) : r.before = front := by
  have hnodup : (front ++ r :: after).Nodup := h ▸ (by decide : all.Nodup)
  have hfront : ∀ r' ∈ front, (decide (r' ≠ r)) = true := by
    intro r' hr'
    refine decide_eq_true ?_
    rintro rfl
    exact (List.nodup_append.mp hnodup).2.2 r' hr' r' List.mem_cons_self rfl
  rw [before, h, List.takeWhile_append_of_pos hfront, List.takeWhile_cons_of_neg (by simp),
    List.append_nil]

end PrimaryReason

open PrimaryReason

/-- **The checks in the order of the source**: dependencies that are unknown come first. -/
theorem primaryReason_eq (S : SchedulerEnv) (facts : SchedulerCardFacts)
    (asOf : Option S.Instant) :
    primaryReason S facts asOf = firstCheck (check S facts asOf) checked := by
  unfold primaryReason
  refine firstCheck_cons_ite rfl fun _ => ?_
  refine firstCheck_cons_ite rfl fun _ => ?_
  refine firstCheck_cons_bool rfl fun _ => ?_
  refine firstCheck_cons_bool rfl fun _ => ?_
  refine firstCheck_cons_bool rfl fun _ => ?_
  refine firstCheck_cons_bool rfl fun hunknown => ?_
  refine firstCheck_cons_bool ?_ fun _ => ?_
  · -- none of the dependencies is unknown any more
    refine congrArg Except.ok ?_
    rw [Bool.eq_iff_iff, List.any_eq_true, List.any_eq_true]
    refine exists_congr fun dep => and_congr_right fun hdep => ?_
    have hstate := List.any_eq_false.mp hunknown dep hdep
    simp only [beq_iff_eq] at hstate
    simp [SchedulerCardFacts.stateOf, hstate]
  by_cases hverdict : facts.verdict = some "BLOCKED"
  · rw [if_pos hverdict, firstCheck_cons_of_true (by rw [check, if_pos hverdict]; rfl)]
    rfl
  rw [if_neg hverdict]
  cases hlinks : latestVerdict facts.verdictLinks with
  | error e =>
    rw [firstCheck_cons_of_error (by rw [check, if_neg hverdict, hlinks]; rfl)]
    unfold SchedulerCardFacts.verdictLinks at hlinks
    rw [hlinks]
    rfl
  | ok v =>
    have hcheck : check S facts asOf verdictBlocked = .ok (decide (v = some "BLOCKED")) := by
      rw [check, if_neg hverdict, hlinks]
      rfl
    unfold SchedulerCardFacts.verdictLinks at hlinks
    rw [hlinks, ok_bind]
    refine firstCheck_cons_ite hcheck fun _ => ?_
    refine firstCheck_cons_bool rfl fun _ => ?_
    refine firstCheck_cons_bool rfl fun _ => ?_
    refine firstCheck_cons_bool rfl fun _ => ?_
    rfl

/-! ### The order -/

/-- **What makes the checks follow the order of `PRIMARY_REASONS`.** -/
structure InOrder (S : SchedulerEnv) (facts : SchedulerCardFacts) (asOf : Option S.Instant) :
    Prop where
  /-- A card that comes to the checks of its dependencies with a known one that is not done has no
  unknown one. -/
  dependencies : Reached S facts asOf dependencyIncomplete →
    dependencyIncomplete.Holds S facts asOf → ¬dependencyUnknown.Holds S facts asOf
  /-- Verdict links that are looked into are a mapping. -/
  verdictLinks : Reached S facts asOf verdictBlocked → facts.verdict ≠ some "BLOCKED" →
    ∃ links, facts.verdictLinks.orElse (.obj []) = .obj links
  /-- A `ready_at` that is looked at can be compared with the reference time. -/
  readyAt : Reached S facts asOf notReadyTime → (isBeforeReady S facts.readyAt asOf).isOk

namespace PrimaryReason

/-- The reasons in front of those about dependencies. -/
def front : List PrimaryReason := [notTask, stateNotEligible, voided, archived, excludedLabel]

/-- The reasons behind those about dependencies. -/
def back : List PrimaryReason :=
  [verdictBlocked, alreadyOwned, humanGateOpen, superseded, notReadyTime]

theorem all_eq : all = front ++ dependencyIncomplete :: dependencyUnknown :: back := rfl

theorem checked_eq : checked = front ++ dependencyUnknown :: dependencyIncomplete :: back := rfl

theorem check_eq_false {r : PrimaryReason} (hok : (r.check S facts asOf).isOk)
    (h : ¬r.Holds S facts asOf) : r.check S facts asOf = .ok false := by
  cases hcheck : r.check S facts asOf with
  | error e =>
    rw [hcheck] at hok
    cases hok
  | ok b =>
    cases b with
    | true => exact absurd ((holds_iff_check r).mpr hcheck) h
    | false => rfl

theorem front_isOk : ∀ r ∈ front, (r.check S facts asOf).isOk := by
  intro r hr
  refine check_isOk ?_ ?_
  · rintro rfl
    exact absurd hr (by decide)
  · rintro rfl
    exact absurd hr (by decide)

theorem latestVerdict_isOk_iff {links : Json} :
    (latestVerdict links).isOk ↔ ∃ d, links.orElse (.obj []) = .obj d := by
  unfold latestVerdict
  cases links.orElse (.obj []) with
  | obj d => exact ⟨fun _ => ⟨d, rfl⟩, fun _ => rfl⟩
  | _ => exact ⟨fun h => (by cases h), fun ⟨_, h⟩ => (by cases h)⟩

theorem check_verdictBlocked_isOk_iff :
    (verdictBlocked.check S facts asOf).isOk ↔ (facts.verdict ≠ some "BLOCKED" →
      ∃ links, facts.verdictLinks.orElse (.obj []) = .obj links) := by
  rw [← latestVerdict_isOk_iff, check]
  by_cases hverdict : facts.verdict = some "BLOCKED"
  · rw [if_pos hverdict]
    exact ⟨fun _ h => absurd hverdict h, fun _ => rfl⟩
  · rw [if_neg hverdict]
    cases latestVerdict facts.verdictLinks with
    | ok v => exact ⟨fun _ _ => rfl, fun _ => rfl⟩
    | error e => exact ⟨fun h => (by cases h), fun h => (by cases h hverdict)⟩

/-- The checks that the loop comes to return. -/
theorem checks_return_iff :
    (∀ before name after, all = before ++ name :: after →
        (∀ r ∈ before, ¬r.Holds S facts asOf) → (name.check S facts asOf).isOk) ↔
      (Reached S facts asOf verdictBlocked → (verdictBlocked.check S facts asOf).isOk) ∧
      (Reached S facts asOf notReadyTime → (notReadyTime.check S facts asOf).isOk) := by
  constructor
  · intro h
    exact ⟨h _ verdictBlocked (back.tail) rfl, h _ notReadyTime [] rfl⟩
  · rintro ⟨hverdict, htime⟩ before name after hsplit hbefore
    rw [← before_eq hsplit] at hbefore
    by_cases hv : name = verdictBlocked
    · subst hv
      exact hverdict hbefore
    by_cases ht : name = notReadyTime
    · subst ht
      exact htime hbefore
    exact check_isOk hv ht

end PrimaryReason

/-- **The primary reason is the first that applies**, and there is none when none applies, exactly
when the card does not come to the checks of its dependencies with both a known one that is not
done and an unknown one, and what is looked at can be read. -/
theorem primaryReason_first_iff :
    (∃ r, primaryReason S facts asOf = .ok r ∧
        IsFirst (fun r => r.Holds S facts asOf) PrimaryReason.all r) ↔
      InOrder S facts asOf := by
  have hunknown : (dependencyUnknown.check S facts asOf).isOk := check_isOk (by decide) (by decide)
  have hincomplete : (dependencyIncomplete.check S facts asOf).isOk :=
    check_isOk (by decide) (by decide)
  rw [primaryReason_eq, checked_eq]
  by_cases hboth : Reached S facts asOf dependencyIncomplete ∧
      dependencyIncomplete.Holds S facts asOf ∧ dependencyUnknown.Holds S facts asOf
  · obtain ⟨hreached, hinc, hunk⟩ := hboth
    refine iff_of_false ?_ fun h => h.dependencies hreached hinc hunk
    rintro ⟨r, hr, hfirst⟩
    rw [firstCheck_append_of_false fun r hr => check_eq_false (front_isOk r hr) (hreached r hr),
      firstCheck_cons_of_true ((holds_iff_check _).mp hunk)] at hr
    cases hr
    -- the known dependency comes earlier in `PRIMARY_REASONS`
    obtain ⟨before, after, hsplit, -, hbefore⟩ := hfirst
    refine hbefore dependencyIncomplete ?_ hinc
    rw [← before_eq hsplit]
    decide
  · have hsame : firstCheck (check S facts asOf) (front ++ dependencyUnknown ::
        dependencyIncomplete :: back) = firstCheck (check S facts asOf) PrimaryReason.all := by
      rw [all_eq]
      refine firstCheck_append_congr fun hfront => ?_
      have hreached : Reached S facts asOf dependencyIncomplete := by
        intro r hr hholds
        cases (hfront r hr).symm.trans ((holds_iff_check r).mp hholds)
      obtain ⟨bu, hbu⟩ := isOk_iff.mp hunknown
      obtain ⟨bi, hbi⟩ := isOk_iff.mp hincomplete
      refine firstCheck_swap hbu hbi ?_ back
      by_contra hne
      rw [not_or, Bool.not_eq_false, Bool.not_eq_false] at hne
      refine hboth ⟨hreached, ?_, ?_⟩
      · rw [holds_iff_check, hbi, hne.2]
      · rw [holds_iff_check, hbu, hne.1]
    rw [hsame, firstCheck_isFirst_iff holds_iff_check, checks_return_iff,
      check_verdictBlocked_isOk_iff]
    constructor
    · rintro ⟨hverdict, htime⟩
      exact ⟨fun h hinc hunk => hboth ⟨h, hinc, hunk⟩, hverdict, htime⟩
    · intro h
      exact ⟨h.verdictLinks, h.readyAt⟩

/-! ### A card with both kinds of dependencies -/

/-- A card in the backlog that waits for a card at work and for one that nobody knows. -/
def waitingFacts : SchedulerCardFacts where
  cardId := "deadbeef"
  kind := "task"
  state := "backlog"
  owner := none
  archived := false
  voided := false
  labels := []
  dependencies := ["00000001", "00000002"]
  dependencyStates := [("00000001", "doing"), ("00000002", "unknown")]
  verdict := none
  verdicts := []
  humanGate := none
  supersededBy := none
  readyAt := none
  liveFacts := []

/-- The card is given the later of the two reasons that apply. -/
theorem waiting_dependencyUnknown :
    primaryReason blockedEnv waitingFacts none = .ok (some dependencyUnknown) ∧
    dependencyIncomplete.Holds blockedEnv waitingFacts none ∧
    ¬∃ r, primaryReason blockedEnv waitingFacts none = .ok r ∧
      IsFirst (fun r => r.Holds blockedEnv waitingFacts none) PrimaryReason.all r := by
  have hreason : primaryReason blockedEnv waitingFacts none = .ok (some dependencyUnknown) := rfl
  have hholds : dependencyIncomplete.Holds blockedEnv waitingFacts none :=
    ⟨"00000001", by decide, by decide, by decide⟩
  refine ⟨hreason, hholds, ?_⟩
  rintro ⟨r, hr, hfirst⟩
  cases hreason.symm.trans hr
  obtain ⟨before, after, hsplit, -, hbefore⟩ := hfirst
  refine hbefore dependencyIncomplete ?_ hholds
  rw [← before_eq hsplit]
  decide

end SkCoord
