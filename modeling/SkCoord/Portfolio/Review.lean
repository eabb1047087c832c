import SkCoord.Portfolio.Plan

/-!
# The completion of a review

`evaluateReviewCompletion` decides from an assignment and the decision of a reviewer whether an
artifact is reviewed.  Times may be without an offset, and a comparison of one that is with one that
is not raises.
-/

namespace SkCoord.Portfolio

open Python

/-! ### Contracts -/

inductive Verdict where
  | pass | fail
  deriving DecidableEq

/-- `ReviewAssignmentV1`. -/
structure ReviewAssignment where
  assignmentId : String
  artifactType : String
  artifactId : String
  artifactRevision : String
  artifactHash : Sha256
  authorPrincipalIds : List String
  disallowedReviewerPrincipalIds : List String
  requiredReviewerCapability : String
  reviewPolicyId : String
  reviewPolicyVersion : String
  assignedByPrincipalId : String
  createdAt : DateTime
  expiresAt : DateTime

/-- `ReviewDecisionV1`. -/
structure ReviewDecision where
  assignmentId : String
  artifactHash : Sha256
  reviewerPrincipalId : String
  reviewerCapability : String
  verdict : Verdict
  findingsHash : Sha256
  evidenceRefs : List String
  decidedAt : DateTime
  expiresAt : DateTime

/-- `CompletionDecision`. -/
structure CompletionDecision where
  allowed : Bool
  reasonCodes : List String
  deriving DecidableEq

/-- What the evaluation may raise. -/
inductive ReviewError where
  /-- `ValueError`. -/
  | value (msg : String)
  /-- `TypeError`. -/
  | type (msg : String)
  deriving DecidableEq

/-! ### Reasons -/

/-- Why a review does not complete its artifact. -/
inductive ReviewReason where
  | assignmentArtifactMismatch | assignmentTimestampInvalid | assignmentExpired
  | assignmentPrincipalConflict
  | reviewMissing | reviewAssignmentMismatch | reviewArtifactMismatch
  | reviewerCapabilityMismatch | reviewFailed | reviewTimestampInvalid | reviewExpired
  | reviewerPrincipalConflict | reviewEvidenceMissing
  deriving DecidableEq

def ReviewReason.text : ReviewReason → String
  | assignmentArtifactMismatch => "assignment_artifact_mismatch"
  | assignmentTimestampInvalid => "assignment_timestamp_invalid"
  | assignmentExpired => "assignment_expired"
  | assignmentPrincipalConflict => "assignment_principal_conflict"
  | reviewMissing => "review_missing"
  | reviewAssignmentMismatch => "review_assignment_mismatch"
  | reviewArtifactMismatch => "review_artifact_mismatch"
  | reviewerCapabilityMismatch => "reviewer_capability_mismatch"
  | reviewFailed => "review_failed"
  | reviewTimestampInvalid => "review_timestamp_invalid"
  | reviewExpired => "review_expired"
  | reviewerPrincipalConflict => "reviewer_principal_conflict"
  | reviewEvidenceMissing => "review_evidence_missing"

/-- A reason that stands under a condition. -/
def ReviewReason.given (reason : ReviewReason) (c : Prop) [Decidable c] : List ReviewReason :=
  if c then [reason] else []

/-- `s < t`. -/
def before (s t : DateTime) : Except ReviewError Bool :=
  match s.lt? t with
  | some b => pure b
  | none => throw (.type "can't compare offset-naive and offset-aware datetimes")

/-- `s <= t`. -/
def notAfter (s t : DateTime) : Except ReviewError Bool :=
  match s.le? t with
  | some b => pure b
  | none => throw (.type "can't compare offset-naive and offset-aware datetimes")

/-- `x or y`, where `y` is evaluated only if `x` is false. -/
def orElse (x y : Except ReviewError Bool) : Except ReviewError Bool := do
  let b ← x
  if b then pure true else y

/-- The reasons that the times of an assignment give. -/
def assignmentTimes (assignment : ReviewAssignment) (asOf : DateTime) :
    Except ReviewError (List ReviewReason) :=
  if !assignment.createdAt.isAware || !assignment.expiresAt.isAware then
    pure [.assignmentTimestampInvalid]
  else do
    let lapsed ← orElse (before asOf assignment.createdAt) (notAfter assignment.expiresAt asOf)
    pure (ReviewReason.assignmentExpired.given lapsed)

/-- The reasons that the times of a decision give.  Whether the assignment knows its offset is not
asked before its time is compared. -/
def decisionTimes (assignment : ReviewAssignment) (decision : ReviewDecision) (asOf : DateTime) :
    Except ReviewError (List ReviewReason) :=
  if !decision.decidedAt.isAware || !decision.expiresAt.isAware then
    pure [.reviewTimestampInvalid]
  else do
    let lapsed ← orElse (before decision.decidedAt assignment.createdAt)
      (orElse (before asOf decision.decidedAt) (notAfter decision.expiresAt asOf))
    pure (ReviewReason.reviewExpired.given lapsed)

/-- `denied`: who may not review. -/
def ReviewAssignment.denied (assignment : ReviewAssignment) : List String :=
  assignment.authorPrincipalIds ++ assignment.disallowedReviewerPrincipalIds

/-- The reasons that a decision gives. -/
def decisionReasons (assignment : ReviewAssignment) (decision : ReviewDecision)
    (artifactHash : String) (asOf : DateTime) : Except ReviewError (List ReviewReason) := do
  let times ← decisionTimes assignment decision asOf
  pure (ReviewReason.reviewAssignmentMismatch.given
      (decision.assignmentId ≠ assignment.assignmentId) ++
    ReviewReason.reviewArtifactMismatch.given (decision.artifactHash.text ≠ artifactHash) ++
    ReviewReason.reviewerCapabilityMismatch.given
      (decision.reviewerCapability ≠ assignment.requiredReviewerCapability) ++
    ReviewReason.reviewFailed.given (decision.verdict ≠ .pass) ++ times ++
    ReviewReason.reviewerPrincipalConflict.given
      (decision.reviewerPrincipalId ∈ assignment.denied) ++
    ReviewReason.reviewEvidenceMissing.given
      (decision.evidenceRefs = [] ∨ decision.findingsHash.text = ""))

/-- The reasons that a decision, or its absence, gives. -/
def reviewReasons (assignment : ReviewAssignment) (decision : Option ReviewDecision)
    (artifactHash : String) (asOf : DateTime) : Except ReviewError (List ReviewReason) :=
  match decision with
  | none => pure [.reviewMissing]
  | some decision => decisionReasons assignment decision artifactHash asOf

/-- `evaluate_review_completion`. -/
def evaluateReviewCompletion (assignment : ReviewAssignment) (decision : Option ReviewDecision)
    (artifactRevision artifactHash : String) (asOf : DateTime) :
    Except ReviewError CompletionDecision :=
  if !asOf.isAware then throw (.value "as_of must be timezone-aware")
  else do
    let times ← assignmentTimes assignment asOf
    let review ← reviewReasons assignment decision artifactHash asOf
    let reasons := ReviewReason.assignmentArtifactMismatch.given
        (assignment.artifactRevision ≠ artifactRevision ∨
          assignment.artifactHash.text ≠ artifactHash) ++ times ++
      ReviewReason.assignmentPrincipalConflict.given
        (assignment.assignedByPrincipalId ∈ assignment.denied) ++ review
    pure ⟨reasons = [], (reasons.map ReviewReason.text).dedup.insertionSort (· ≤ ·)⟩

end SkCoord.Portfolio
