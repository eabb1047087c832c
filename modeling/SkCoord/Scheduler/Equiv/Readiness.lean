import SkCoord.Scheduler.Equiv.PrimaryReason

/-!
# Time and policy labels

A report should count no card as ready whose `ready_at` lies after its reference time, and none
with a policy label.  `honoursTimeAndLabels_iff`: it does exactly when there is nothing to honour.
The policy labels are read nowhere, and the time that is handed on to `_primary_reason` is `as_of`
itself and not the reference time that stands in for it.
-/

namespace SkCoord

open Python

variable {S : SchedulerEnv} {home : Home} {q : SchedulerQuery S} {cardId : String}

/-! ### What a report promises -/

/-- The reference time: `as_of or datetime.now(timezone.utc)`. -/
def SchedulerQuery.ref (q : SchedulerQuery S) : S.Instant := q.asOf.getD S.now

/-- The `ready_at` of a card lies after a time. -/
def SchedulerCardFacts.ReadyAfter (S : SchedulerEnv) (facts : SchedulerCardFacts)
    (t : S.Instant) : Prop :=
  ∃ text ∈ facts.readyAt, text ≠ "" ∧
    ∃ ready, S.fromIsoformat text = .ok ready ∧ S.later ready t = .ok true

/-- A card carries a policy label. -/
def SchedulerCardFacts.HasPolicyLabel (facts : SchedulerCardFacts) (q : SchedulerQuery S) : Prop :=
  ∃ label ∈ facts.labels, label ∈ q.policyLabels

/-- No card that counts as ready is before its time, or carries a policy label. -/
def HonoursTimeAndLabels (S : SchedulerEnv) (home : Home) (q : SchedulerQuery S) : Prop :=
  ∀ ids, populationIds S home q = .ok ids → ∀ cardId ∈ ids, ∀ facts,
    evaluateCard S home q cardId = .ok (some (facts, none)) →
      ¬facts.ReadyAfter S q.ref ∧ ¬facts.HasPolicyLabel q

/-! ### The cards that are ready -/

/-- The facts of a card, from the store and the live facts. -/
def HasFacts (S : SchedulerEnv) (home : Home) (q : SchedulerQuery S) (cardId : String)
    (facts : SchedulerCardFacts) : Prop :=
  ∃ card, (home.store S.env).fold S.env cardId = .ok (some card) ∧
    structuralFacts S.env (home.store S.env) cardId card
      ((Assoc.get? q.liveFacts cardId).getD []) = .ok facts

/-- No condition of `PRIMARY_REASONS` holds a card back. -/
def SchedulerCardFacts.IsFree (S : SchedulerEnv) (facts : SchedulerCardFacts)
    (asOf : Option S.Instant) : Prop :=
  ∀ r : PrimaryReason, ¬r.Holds S facts asOf

theorem HasFacts.unique {facts facts' : SchedulerCardFacts} (h : HasFacts S home q cardId facts)
    (h' : HasFacts S home q cardId facts') : facts = facts' := by
  obtain ⟨card, hfold, hfacts⟩ := h
  obtain ⟨card', hfold', hfacts'⟩ := h'
  cases hfold.symm.trans hfold'
  cases hfacts.symm.trans hfacts'
  rfl

/-- An evaluated card is not in the store, or has its facts and the reason that they give. -/
theorem evaluateCard_spec {r : Option (SchedulerCardFacts × Option PrimaryReason)}
    (h : evaluateCard S home q cardId = .ok r) :
    (r = none ∧ (home.store S.env).fold S.env cardId = .ok none) ∨
    ∃ facts reason, r = some (facts, reason) ∧ HasFacts S home q cardId facts ∧
      primaryReason S facts q.asOf = .ok reason := by
  unfold evaluateCard at h
  obtain ⟨found, hfold, h⟩ := bind_eq_ok.mp h
  cases found with
  | none => exact .inl ⟨(pure_eq_ok.mp h).symm, hfold⟩
  | some card =>
    dsimp only at h
    obtain ⟨facts, hfacts, h⟩ := bind_eq_ok.mp h
    rw [overlay_leaves_facts] at h
    obtain ⟨_, _, h⟩ := bind_eq_ok.mp h
    obtain ⟨reason, hreason, h⟩ := bind_eq_ok.mp h
    exact .inr ⟨facts, reason, (pure_eq_ok.mp h).symm, ⟨card, hfold, hfacts⟩, hreason⟩

/-- The facts have no reason when they are free. -/
theorem primaryReason_eq_none_iff {facts : SchedulerCardFacts} {asOf : Option S.Instant}
    {reason : Option PrimaryReason} (h : primaryReason S facts asOf = .ok reason) :
    reason = none ↔ facts.IsFree S asOf := by
  rw [primaryReason_eq] at h
  rw [firstCheck_eq_none_iff PrimaryReason.holds_iff_check h]
  refine ⟨fun hnone r => hnone r ?_, fun hfree r _ => hfree r⟩
  cases r <;> decide

/-- The cards that count as ready are those with free facts. -/
theorem evaluateCard_ready_iff {r : Option (SchedulerCardFacts × Option PrimaryReason)}
    (h : evaluateCard S home q cardId = .ok r) {facts : SchedulerCardFacts} :
    r = some (facts, none) ↔ HasFacts S home q cardId facts ∧ facts.IsFree S q.asOf := by
  rcases evaluateCard_spec h with ⟨rfl, hfold⟩ | ⟨facts', reason, rfl, hfacts', hreason⟩
  · refine iff_of_false (Option.some_ne_none _).symm ?_
    rintro ⟨⟨card, hcard, -⟩, -⟩
    cases hfold.symm.trans hcard
  · constructor
    · intro heq
      cases heq
      exact ⟨hfacts', (primaryReason_eq_none_iff hreason).mp rfl⟩
    · rintro ⟨hfacts, hfree⟩
      cases hfacts.unique hfacts'
      rw [(primaryReason_eq_none_iff hreason).mpr hfree]

/-- Free facts are not before their time where there is one to compare with. -/
theorem SchedulerCardFacts.IsFree.not_readyAfter {facts : SchedulerCardFacts} {t : S.Instant}
    (h : facts.IsFree S (some t)) : ¬facts.ReadyAfter S t := by
  rintro ⟨text, htext, hne, ready, hready, hlater⟩
  refine h .notReadyTime ?_
  have hfilter : facts.readyAt.filter (· ≠ "") = some text := by
    rw [Option.mem_def.mp htext, Option.filter_some, if_pos (decide_eq_true hne)]
  show isBeforeReady S facts.readyAt (some t) = .ok true
  unfold isBeforeReady
  simp only [hfilter, hready, ok_bind, hlater]
  rfl

/-! ### The promise -/

/-- **There is nothing to honour**: no card that the conditions leave free has a policy label, and
none has a `ready_at` after the present time where the query gives no time. -/
def NothingToHonour (S : SchedulerEnv) (home : Home) (q : SchedulerQuery S) : Prop :=
  ∀ ids, populationIds S home q = .ok ids → ∀ cardId ∈ ids, ∀ facts,
    HasFacts S home q cardId facts → facts.IsFree S q.asOf →
      ¬facts.HasPolicyLabel q ∧ (q.asOf = none → ¬facts.ReadyAfter S S.now)

/-- The time of a free card is honoured where the query gives one. -/
theorem not_readyAfter_ref_iff {facts : SchedulerCardFacts} (hfree : facts.IsFree S q.asOf) :
    ¬facts.ReadyAfter S q.ref ↔ (q.asOf = none → ¬facts.ReadyAfter S S.now) := by
  unfold SchedulerQuery.ref
  cases h : q.asOf with
  | none => exact ⟨fun hready _ => hready, fun hready => hready rfl⟩
  | some t =>
    rw [h] at hfree
    exact iff_of_true hfree.not_readyAfter fun hnone => absurd hnone (Option.some_ne_none t)

/-- **The report keeps its promise exactly where there is nothing to honour**, neither a policy
label on a free card nor, where no time is asked about, a `ready_at` in the future; its counts add
up in any case. -/
theorem honoursTimeAndLabels_iff {result : SchedulerTruthV1}
    (h : evaluateSchedulerTruth S home q = .ok result) :
    (HonoursTimeAndLabels S home q ∧
        result.population = result.readyCount + (result.reasonCounts.map Prod.snd).sum) ↔
      NothingToHonour S home q := by
  rw [and_iff_left result.population_eq]
  unfold evaluateSchedulerTruth at h
  obtain ⟨ids, hids, h⟩ := bind_eq_ok.mp h
  obtain ⟨evaluated, hevaluated, -⟩ := bind_eq_ok.mp h
  refine forall_congr' fun ids' => forall_congr' fun hids' => ?_
  cases hids.symm.trans hids'
  refine forall_congr' fun cardId => forall_congr' fun hmem => forall_congr' fun facts => ?_
  obtain ⟨r, -, hr⟩ := mapM_ok_of_mem hevaluated cardId hmem
  rw [hr, Except.ok.injEq, evaluateCard_ready_iff hr, and_imp]
  refine forall_congr' fun _ => forall_congr' fun hfree => ?_
  rw [not_readyAfter_ref_iff hfree]
  exact and_comm

/-! ### A card before its time and a card with a policy label -/

/-- An environment in which the instants are numbers and one text names one. -/
def datedEnv : SchedulerEnv where
  env := { hostname := "h", writeEnabled := true, lineHash := fun _ => "", repr := fun _ => "" }
  Instant := ℕ
  now := 20261010
  isoformat := fun n => n.repr
  fromIsoformat := fun text =>
    if text = "2026-12-01" then .ok 20261201 else .error (.value "Invalid isoformat string")
  later := fun x y => .ok (decide (y < x))

/-- A card in the backlog that is ready in December and carries the label `freeze`. -/
def datedHome : Home where
  cards := [("deadbeef",
    { core := .present
        { id := "deadbeef", title := "t", createdAt := "2026-10-09",
          initialLabels := ["freeze"], metaData := [("ready_at", .str "2026-12-01")] }
      logs := []
      nodup := List.nodup_nil })]

/-- The query for that card, at the present time. -/
def datedQuery : SchedulerQuery datedEnv := { cards := some ["deadbeef"] }

/-- The card counts as ready in October, and with the label that the policy excludes. -/
theorem dated_is_ready :
    ¬HonoursTimeAndLabels datedEnv datedHome datedQuery ∧
    ¬HonoursTimeAndLabels datedEnv datedHome
      { datedQuery with asOf := some (20261224 : ℕ), policyLabels := ["freeze"] } := by
  constructor
  · intro h
    refine (h ["deadbeef"] rfl "deadbeef" List.mem_cons_self _ rfl).1 ?_
    exact ⟨"2026-12-01", rfl, by decide, _, rfl, rfl⟩
  · intro h
    refine (h ["deadbeef"] rfl "deadbeef" List.mem_cons_self _ rfl).2 ?_
    exact ⟨"freeze", List.mem_cons_self, List.mem_cons_self⟩

/-- The promise at the card, asked about December. -/
theorem honoursTimeAndLabels_iff_dated :
    ∃ result, evaluateSchedulerTruth datedEnv datedHome
        { datedQuery with asOf := some (20261224 : ℕ) } = .ok result ∧
      ((HonoursTimeAndLabels datedEnv datedHome
            { datedQuery with asOf := some (20261224 : ℕ) } ∧
          result.population = result.readyCount + (result.reasonCounts.map Prod.snd).sum) ↔
        NothingToHonour datedEnv datedHome { datedQuery with asOf := some (20261224 : ℕ) }) :=
  ⟨_, rfl, honoursTimeAndLabels_iff rfl⟩

end SkCoord
