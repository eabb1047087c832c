import SkCoord.Portfolio.Review
import SkCoord.Portfolio.Equiv.Plan

/-!
# When a review completes its artifact

`reviewCompletion_iff`: the evaluation returns, and allows exactly what `Completes` says, unless the
times of the decision know their offsets while the creation of the assignment does not; then it
raises.
-/

namespace SkCoord.Portfolio

open Python

variable {assignment : ReviewAssignment} {decision : ReviewDecision} {asOf s t : DateTime}
  {revision hash : String}

/-! ### What completes a review -/

/-- Created, decided and evaluated one after the other, and before the assignment and the decision
expire. -/
structure InOrder (created decided asOf : DateTime) (expiries : List DateTime) : Prop where
  chain : [created, decided, asOf].Pairwise fun s t => s.gap t ≤ 0
  current : ∀ expiry ∈ expiries, asOf.gap expiry < 0

/-- A decision that completes the review of an artifact. -/
structure Completes (assignment : ReviewAssignment) (decision : ReviewDecision)
    (revision hash : String) (asOf : DateTime) : Prop where
  assigned : assignment.artifactRevision = revision ∧ assignment.artifactHash.text = hash
  decided : decision.assignmentId = assignment.assignmentId ∧ decision.artifactHash.text = hash
  aware : ∀ t ∈ [assignment.createdAt, assignment.expiresAt, decision.decidedAt,
    decision.expiresAt], t.isAware = true
  ordered : InOrder assignment.createdAt decision.decidedAt asOf
    [assignment.expiresAt, decision.expiresAt]
  passed : decision.verdict = .pass
  capability : decision.reviewerCapability = assignment.requiredReviewerCapability
  evidence : decision.evidenceRefs ≠ [] ∧ decision.findingsHash.text ≠ ""
  independent : ∀ p ∈ [decision.reviewerPrincipalId, assignment.assignedByPrincipalId],
    p ∉ assignment.authorPrincipalIds ∧ p ∉ assignment.disallowedReviewerPrincipalIds

/-- The decision has times that know their offsets, and the assignment was created at one that does
not. -/
def MixesTimes (assignment : ReviewAssignment) (decision : Option ReviewDecision) : Prop :=
  ∃ d, decision = some d ∧ d.decidedAt.isAware = true ∧ d.expiresAt.isAware = true ∧
    assignment.createdAt.isAware = false

/-! ### Comparisons -/

theorem gap_swap (s t : DateTime) : s.gap t = -t.gap s := by
  unfold DateTime.gap
  by_cases hzone : s.zone = t.zone
  · rw [if_pos hzone, if_pos hzone.symm]
    omega
  · rw [if_neg hzone, if_neg fun h => hzone h.symm]
    omega

theorem before_eq (h : s.isAware = t.isAware) : before s t = .ok (decide (s.gap t < 0)) := by
  rw [before, DateTime.lt?, if_pos h]
  rfl

theorem notAfter_eq (h : s.isAware = t.isAware) : notAfter s t = .ok (decide (s.gap t ≤ 0)) := by
  rw [notAfter, DateTime.le?, if_pos h]
  rfl

theorem before_ne_ok (h : s.isAware ≠ t.isAware) {b : Bool} : before s t ≠ .ok b := by
  rw [before, DateTime.lt?, if_neg h]
  exact throw_ne_ok

theorem orElse_eq {x y : Except ReviewError Bool} {b c : Bool} (hx : x = .ok b) (hy : y = .ok c) :
    orElse x y = .ok (b || c) := by
  rw [orElse, hx, hy]
  cases b with
  | true => rfl
  | false => rfl

theorem given_eq_nil {reason : ReviewReason} {c : Prop} [Decidable c] :
    reason.given c = [] ↔ ¬ c := by
  rw [ReviewReason.given]
  split <;> simp [*]

/-- Times of which no two share a zone at different offsets are ordered by their instants. -/
theorem gap_eq_instants (h : s.zone = t.zone → s.offset = t.offset) :
    s.gap t = s.instant - t.instant := by
  unfold DateTime.gap
  by_cases hzone : s.zone = t.zone
  · rw [if_pos hzone, DateTime.instant, DateTime.instant, h hzone]
    omega
  · rw [if_neg hzone]

/-- **The order is that of the instants** where no two of the times share a zone at different
offsets. -/
theorem inOrder_iff_instants {created decided asOf : DateTime} {expiries : List DateTime}
    (h : ∀ s ∈ created :: decided :: asOf :: expiries,
      ∀ t ∈ created :: decided :: asOf :: expiries, s.zone = t.zone → s.offset = t.offset) :
    InOrder created decided asOf expiries ↔
      created.instant ≤ decided.instant ∧ decided.instant ≤ asOf.instant ∧
        ∀ expiry ∈ expiries, asOf.instant < expiry.instant := by
  have hcreated : created.gap decided = created.instant - decided.instant :=
    gap_eq_instants (h _ (by simp) _ (by simp))
  have hdecided : decided.gap asOf = decided.instant - asOf.instant :=
    gap_eq_instants (h _ (by simp) _ (by simp))
  have hevaluated : created.gap asOf = created.instant - asOf.instant :=
    gap_eq_instants (h _ (by simp) _ (by simp))
  have hexpiry : ∀ expiry ∈ expiries, asOf.gap expiry = asOf.instant - expiry.instant :=
    fun expiry hmem => gap_eq_instants (h _ (by simp) _ (by simp [hmem]))
  constructor
  · rintro ⟨hchain, hcurrent⟩
    simp only [List.pairwise_cons, List.mem_cons, List.not_mem_nil, or_false, forall_eq_or_imp,
      forall_eq] at hchain
    refine ⟨by omega, by omega, fun expiry hmem => ?_⟩
    have hlt := hcurrent expiry hmem
    rw [hexpiry expiry hmem] at hlt
    omega
  · rintro ⟨hfirst, hsecond, hcurrent⟩
    refine ⟨?_, fun expiry hmem => ?_⟩
    · simp only [List.pairwise_cons, List.mem_cons, List.not_mem_nil, or_false, forall_eq_or_imp,
        forall_eq, false_imp_iff, implies_true, List.Pairwise.nil, and_true]
      omega
    · have hlt := hcurrent expiry hmem
      rw [hexpiry expiry hmem]
      omega

/-! ### The reasons of each part -/

/-- The times of an assignment never raise, and give no reason exactly when they are in order. -/
theorem exists_assignmentTimes (h : asOf.isAware = true) :
    ∃ reasons, assignmentTimes assignment asOf = .ok reasons ∧ (reasons = [] ↔
      assignment.createdAt.isAware = true ∧ assignment.expiresAt.isAware = true ∧
        assignment.createdAt.gap asOf ≤ 0 ∧ asOf.gap assignment.expiresAt < 0) := by
  unfold assignmentTimes
  by_cases haware : assignment.createdAt.isAware = true ∧ assignment.expiresAt.isAware = true
  · obtain ⟨hcreated, hexpires⟩ := haware
    rw [if_neg (by simp [hcreated, hexpires])]
    have hbefore := before_eq (h.trans hcreated.symm)
    have hnotAfter := notAfter_eq (hexpires.trans h.symm)
    rw [orElse_eq hbefore hnotAfter]
    refine ⟨_, rfl, ?_⟩
    rw [given_eq_nil, Bool.or_eq_true, decide_eq_true_iff, decide_eq_true_iff,
      gap_swap asOf assignment.createdAt, gap_swap assignment.expiresAt asOf]
    constructor
    · intro hlapsed
      exact ⟨hcreated, hexpires, by omega, by omega⟩
    · rintro ⟨-, -, hle, hlt⟩
      omega
  · rw [if_pos (by simpa [not_and, Bool.or_eq_true, imp_iff_not_or] using haware)]
    refine ⟨_, rfl, ?_⟩
    constructor
    · intro hnil
      cases hnil
    · rintro ⟨hcreated, hexpires, -⟩
      exact absurd ⟨hcreated, hexpires⟩ haware

/-- The times of a decision raise exactly when they are compared with a creation that does not know
its offset. -/
theorem exists_decisionTimes (h : asOf.isAware = true)
    (hmix : ¬ MixesTimes assignment (some decision)) :
    ∃ reasons, decisionTimes assignment decision asOf = .ok reasons ∧ (reasons = [] ↔
      decision.decidedAt.isAware = true ∧ decision.expiresAt.isAware = true ∧
        assignment.createdAt.gap decision.decidedAt ≤ 0 ∧ decision.decidedAt.gap asOf ≤ 0 ∧
        asOf.gap decision.expiresAt < 0) := by
  unfold decisionTimes
  by_cases haware : decision.decidedAt.isAware = true ∧ decision.expiresAt.isAware = true
  · obtain ⟨hdecided, hexpires⟩ := haware
    have hcreated : assignment.createdAt.isAware = true := by
      by_contra hnaive
      exact hmix ⟨decision, rfl, hdecided, hexpires, by simpa using hnaive⟩
    rw [if_neg (by simp [hdecided, hexpires])]
    have hfirst := before_eq (hdecided.trans hcreated.symm)
    have hsecond := before_eq (h.trans hdecided.symm)
    have hthird := notAfter_eq (hexpires.trans h.symm)
    rw [orElse_eq hfirst (orElse_eq hsecond hthird)]
    refine ⟨_, rfl, ?_⟩
    rw [given_eq_nil, Bool.or_eq_true, Bool.or_eq_true, decide_eq_true_iff, decide_eq_true_iff,
      decide_eq_true_iff, gap_swap decision.decidedAt assignment.createdAt,
      gap_swap asOf decision.decidedAt, gap_swap decision.expiresAt asOf]
    constructor
    · intro hlapsed
      exact ⟨hdecided, hexpires, by omega, by omega, by omega⟩
    · rintro ⟨-, -, hle, hle', hlt⟩
      omega
  · rw [if_pos (by simpa [not_and, Bool.or_eq_true, imp_iff_not_or] using haware)]
    refine ⟨_, rfl, ?_⟩
    constructor
    · intro hnil
      cases hnil
    · rintro ⟨hdecided, hexpires, -⟩
      exact absurd ⟨hdecided, hexpires⟩ haware

/-- No reason of the decision, but those of its times. -/
structure Binds (assignment : ReviewAssignment) (decision : ReviewDecision) (hash : String) :
    Prop where
  assignmentId : decision.assignmentId = assignment.assignmentId
  artifact : decision.artifactHash.text = hash
  capability : decision.reviewerCapability = assignment.requiredReviewerCapability
  passed : decision.verdict = .pass
  independent : decision.reviewerPrincipalId ∉ assignment.denied
  evidence : decision.evidenceRefs ≠ [] ∧ decision.findingsHash.text ≠ ""

theorem exists_decisionReasons (h : asOf.isAware = true)
    (hmix : ¬ MixesTimes assignment (some decision)) :
    ∃ reasons, decisionReasons assignment decision hash asOf = .ok reasons ∧ (reasons = [] ↔
      Binds assignment decision hash ∧
        decision.decidedAt.isAware = true ∧ decision.expiresAt.isAware = true ∧
        assignment.createdAt.gap decision.decidedAt ≤ 0 ∧ decision.decidedAt.gap asOf ≤ 0 ∧
        asOf.gap decision.expiresAt < 0) := by
  obtain ⟨times, htimes, hnil⟩ := exists_decisionTimes h hmix
  refine ⟨_, bind_eq_ok.mpr ⟨times, htimes, rfl⟩, ?_⟩
  simp only [List.append_eq_nil_iff, given_eq_nil, not_not, not_or, hnil]
  constructor
  · rintro ⟨⟨⟨⟨⟨⟨hid, hartifact⟩, hcapability⟩, hpassed⟩, hordered⟩, hfree⟩, hevidence⟩
    exact ⟨⟨hid, hartifact, hcapability, hpassed, hfree, hevidence⟩, hordered⟩
  · rintro ⟨hbinds, hordered⟩
    exact ⟨⟨⟨⟨⟨⟨hbinds.assignmentId, hbinds.artifact⟩, hbinds.capability⟩, hbinds.passed⟩,
      hordered⟩, hbinds.independent⟩, hbinds.evidence⟩

theorem evaluate_raises (hmix : MixesTimes assignment (some decision)) (h : asOf.isAware = true)
    {c : CompletionDecision} :
    evaluateReviewCompletion assignment (some decision) revision hash asOf ≠ .ok c := by
  obtain ⟨d, hd, hdecided, hexpires, hcreated⟩ := hmix
  cases hd
  intro hreturns
  rw [evaluateReviewCompletion, if_neg (by simp [h])] at hreturns
  obtain ⟨times, -, hreturns⟩ := bind_eq_ok.mp hreturns
  obtain ⟨review, hreview, -⟩ := bind_eq_ok.mp hreturns
  obtain ⟨decisionTimes', htimes, -⟩ := bind_eq_ok.mp hreview
  -- the first comparison of the decision mixes the times
  rw [decisionTimes, if_neg (by simp [hdecided, hexpires])] at htimes
  obtain ⟨lapsed, hlapsed, -⟩ := bind_eq_ok.mp htimes
  obtain ⟨b, hb, -⟩ := bind_eq_ok.mp hlapsed
  exact before_ne_ok (by rw [hdecided, hcreated]; decide) hb

/-! ### The decision -/

theorem notMem_denied {p : String} : p ∉ assignment.denied ↔
    p ∉ assignment.authorPrincipalIds ∧ p ∉ assignment.disallowedReviewerPrincipalIds := by
  rw [ReviewAssignment.denied, List.mem_append, not_or]

theorem completes_iff : Completes assignment decision revision hash asOf ↔
    (assignment.artifactRevision = revision ∧ assignment.artifactHash.text = hash) ∧
      (assignment.createdAt.isAware = true ∧ assignment.expiresAt.isAware = true ∧
        assignment.createdAt.gap asOf ≤ 0 ∧ asOf.gap assignment.expiresAt < 0) ∧
      assignment.assignedByPrincipalId ∉ assignment.denied ∧
      Binds assignment decision hash ∧
        decision.decidedAt.isAware = true ∧ decision.expiresAt.isAware = true ∧
        assignment.createdAt.gap decision.decidedAt ≤ 0 ∧ decision.decidedAt.gap asOf ≤ 0 ∧
        asOf.gap decision.expiresAt < 0 := by
  constructor
  · intro h
    have haware := h.aware
    have hchain := h.ordered.chain
    have hcurrent := h.ordered.current
    have hfree := h.independent
    simp only [List.pairwise_cons, List.mem_cons, List.not_mem_nil, or_false, forall_eq_or_imp,
      forall_eq] at haware hchain hcurrent hfree
    refine ⟨h.assigned, ⟨haware.1, haware.2.1, hchain.1.2, hcurrent.1⟩, notMem_denied.mpr hfree.2,
      ⟨h.decided.1, h.decided.2, h.capability, h.passed, notMem_denied.mpr hfree.1, h.evidence⟩,
      haware.2.2.1, haware.2.2.2, hchain.1.1, hchain.2.1, hcurrent.2⟩
  · rintro ⟨hassigned, ⟨hcreated, hexpires, hpast, hcurrent⟩, hassigner, hbinds, hdecided, hexpires',
      hafter, hpast', hcurrent'⟩
    refine ⟨hassigned, ⟨hbinds.assignmentId, hbinds.artifact⟩, ?_, ⟨?_, ?_⟩, hbinds.passed,
      hbinds.capability, hbinds.evidence, ?_⟩
    · simp [hcreated, hexpires, hdecided, hexpires']
    · simp [hafter, hpast, hpast']
    · simp [hcurrent, hcurrent']
    · simp only [List.mem_cons, List.not_mem_nil, or_false, forall_eq_or_imp, forall_eq]
      exact ⟨notMem_denied.mp hbinds.independent, notMem_denied.mp hassigner⟩

/-- Without mixed times the evaluation returns and allows what completes the review. -/
theorem evaluate_spec (decision : Option ReviewDecision) (h : asOf.isAware = true)
    (hmix : ¬ MixesTimes assignment decision) :
    ∃ c, evaluateReviewCompletion assignment decision revision hash asOf = .ok c ∧
      (c.allowed = true ↔ ∃ d, decision = some d ∧ Completes assignment d revision hash asOf) := by
  obtain ⟨times, htimes, hnil⟩ := @exists_assignmentTimes assignment _ h
  rw [evaluateReviewCompletion, if_neg (by simp [h])]
  cases decision with
  | none =>
    refine ⟨_, bind_eq_ok.mpr ⟨times, htimes, bind_eq_ok.mpr ⟨_, rfl, rfl⟩⟩, ?_⟩
    simp
  | some d =>
    obtain ⟨review, hreview, hnil'⟩ := @exists_decisionReasons assignment _ _ hash h hmix
    refine ⟨_, bind_eq_ok.mpr ⟨times, htimes, bind_eq_ok.mpr ⟨review, hreview, rfl⟩⟩, ?_⟩
    simp only [decide_eq_true_iff, List.append_eq_nil_iff, given_eq_nil, not_or, not_not, hnil,
      hnil', Option.some.injEq, exists_eq_left']
    rw [completes_iff]
    simp only [and_assoc]

/-- **Review completion decides**: for a time of evaluation that knows its offset the evaluation
returns, and allows exactly the completion of the review, if and only if a decision whose times know
their offsets does not meet an assignment whose creation does not. -/
theorem reviewCompletion_iff (assignment : ReviewAssignment) (decision : Option ReviewDecision)
    (revision hash : String) (asOf : DateTime) (h : asOf.isAware = true) :
    (∃ c, evaluateReviewCompletion assignment decision revision hash asOf = .ok c ∧
      (c.allowed = true ↔ ∃ d, decision = some d ∧ Completes assignment d revision hash asOf)) ↔
      ¬ MixesTimes assignment decision := by
  constructor
  · rintro ⟨c, hreturns, -⟩ hmix
    obtain ⟨d, hd, -⟩ := id hmix
    subst hd
    exact evaluate_raises hmix h hreturns
  · exact evaluate_spec decision h

/-! ### A creation without an offset -/

def sampleAssignment (createdAt : DateTime) : ReviewAssignment where
  assignmentId := "review-1"
  artifactType := "plan"
  artifactId := "plan-1"
  artifactRevision := "r1"
  artifactHash := sampleHash
  authorPrincipalIds := ["author"]
  disallowedReviewerPrincipalIds := []
  requiredReviewerCapability := "portfolio-review"
  reviewPolicyId := "review-policy"
  reviewPolicyVersion := "1"
  assignedByPrincipalId := "operator"
  createdAt := createdAt
  expiresAt := sampleQuality.expiresAt

def sampleDecision : ReviewDecision where
  assignmentId := "review-1"
  artifactHash := sampleHash
  reviewerPrincipalId := "reviewer"
  reviewerCapability := "portfolio-review"
  verdict := .pass
  findingsHash := sampleHash
  evidenceRefs := ["evidence-1"]
  decidedAt := sampleTime
  expiresAt := sampleQuality.expiresAt

theorem mixesTimes_sample :
    MixesTimes (sampleAssignment { sampleTime with offset := none }) (some sampleDecision) :=
  ⟨sampleDecision, rfl, rfl, rfl, rfl⟩

/-- An assignment and a decision whose times all know their offsets: the evaluation returns, and
says what the review has come to. -/
theorem reviewCompletion_iff_aware :
    (∃ c, evaluateReviewCompletion (sampleAssignment sampleTime) (some sampleDecision) "r1"
        sampleHash.text sampleTime = .ok c ∧
      (c.allowed = true ↔ ∃ d, some sampleDecision = some d ∧
        Completes (sampleAssignment sampleTime) d "r1" sampleHash.text sampleTime)) ↔
      ¬ MixesTimes (sampleAssignment sampleTime) (some sampleDecision) :=
  reviewCompletion_iff (sampleAssignment sampleTime) (some sampleDecision) "r1" sampleHash.text
    sampleTime rfl

/-- The creation of the assignment has no offset: the decision is not refused, it raises. -/
theorem naive_assignment_raises :
    ¬ ∃ c, evaluateReviewCompletion (sampleAssignment { sampleTime with offset := none })
        (some sampleDecision) "r1" sampleHash.text sampleTime = .ok c ∧
      (c.allowed = true ↔ ∃ d, some sampleDecision = some d ∧
        Completes (sampleAssignment { sampleTime with offset := none }) d "r1" sampleHash.text
          sampleTime) := by
  rintro ⟨c, hreturns, -⟩
  exact evaluate_raises mixesTimes_sample rfl hreturns

end SkCoord.Portfolio
