import Apdl.Lib.Table
import Apdl.Lib.Utf16
import Mathlib.Data.List.MinMax
import Mathlib.Data.List.Lex
import Mathlib.Data.Prod.Lex

set_option autoImplicit false

/-!
# Changesets and what is observed of them

A changeset is one unit of code work: it is cloned, edited, pushed and opened as a pull request. From
then on GitHub decides: the pull request and its checks are only observed. Observations are rows of
journals to which rows are added and from which none is removed, and the newest ones are projected to
columns of the changeset.

## Design

Columns that only take the time of a write, and the columns of runtime evidence, are left out. A
rendered text that is only stored (the explanation of a requirement's result) is kept as the data that it
is rendered from.
-/

namespace Apdl.Codegen

inductive ChangesetStatus
  | queued
  | cloning
  | editing
  | pushing
  | prOpen
  /-- The change landed on the base branch. -/
  | merged
  /-- GitHub closed the pull request; it can be reopened. -/
  | abandoned
  /-- Unexpected failure. -/
  | error
  deriving DecidableEq

def allowedTransitions : ChangesetStatus → List ChangesetStatus
  | .queued => [.cloning, .abandoned, .error]
  | .cloning => [.editing, .error]
  | .editing => [.pushing, .error]
  | .pushing => [.prOpen, .error]
  | .prOpen => [.merged, .abandoned, .error]
  | .abandoned => [.prOpen]
  | .merged => []
  | .error => []

def canTransition (current target : ChangesetStatus) : Bool :=
  decide (target ∈ allowedTransitions current)

/-! ## Enumerations of observations -/

inductive GitHubPRStatus
  | draft
  /-- `open`. -/
  | opened
  | merged
  | closed
  deriving DecidableEq

/-- The pull request is not finished: `github_pr_status in {"open", "draft"}`. -/
def GitHubPRStatus.live : GitHubPRStatus → Bool
  | .draft | .opened => true
  | .merged | .closed => false

inductive ExternalCIStatus
  | pending
  | passed
  | failed
  | unverifiedExternalCi
  deriving DecidableEq

inductive CIRemediationStatus
  | idle
  | diagnosing
  | repairing
  | awaitingCi
  | resolved
  | exhausted
  deriving DecidableEq

inductive CISignalKind
  | checkRun
  | commitStatus
  deriving DecidableEq

inductive CISignalConclusion
  | pending
  | passed
  | failed
  | neutral
  | skipped
  deriving DecidableEq

inductive RequirementVerificationStatus
  | pending
  | passed
  | failed
  | unverified
  deriving DecidableEq

inductive RemediationDisposition
  | diagnosing
  | awaitingCi
  | repaired
  | rerunRequested
  | exhausted
  | superseded
  | notActionable
  deriving DecidableEq

/-- The action that a pull request observation reports. -/
inductive PRAction
  | opened
  | readyForReview
  | convertedToDraft
  | synchronize
  | closed
  | reopened
  | polled
  deriving DecidableEq

/-- `allowed_by_action`. -/
def PRAction.allowed : PRAction → List GitHubPRStatus
  | .opened => [.draft, .opened]
  | .readyForReview => [.opened]
  | .convertedToDraft => [.draft]
  | .synchronize => [.draft, .opened]
  | .closed => [.closed, .merged]
  | .reopened => [.draft, .opened]
  | .polled => [.draft, .opened, .merged, .closed]

/-- A row of `codegen_changesets`. -/
structure Changeset where
  changesetId : Text
  projectId : Text
  repositoryFullName : Text
  status : ChangesetStatus
  prNumber : Option ℕ := none
  headSha : Option Text := none
  githubPrStatus : Option GitHubPRStatus := none
  mergeSha : Option Text := none
  externalCiStatus : Option ExternalCIStatus := none
  ciRemediationStatus : CIRemediationStatus := .idle
  ciRetryCount : ℕ := 0
  ciFailureKey : Option Text := none
  ciFailureSummary : Option Text := none
  error : Option Text := none
  deriving DecidableEq

/-- `github_pr_status in {"open", "draft"}`; the column may be null. -/
def Changeset.prLive (row : Changeset) : Bool := row.githubPrStatus.any GitHubPRStatus.live

/-! ## Pull request observations -/

/-- `PullRequestObservation`, with its model validator as fields. -/
structure PullRequestObservation where
  observationId : Text
  deliveryId : Option Text
  changesetId : Text
  repository : Text
  prNumber : ℕ
  headSha : Text
  status : GitHubPRStatus
  action : PRAction
  mergeSha : Option Text
  githubUpdatedAt : ℤ
  observedAt : ℤ
  merge_sha_only_for_merge : mergeSha.isSome = decide (status = .merged)
  status_allowed : status ∈ action.allowed
  deriving DecidableEq

/-- The order of `ORDER BY` on a text column: by code units. -/
def sortKey (t : Text) : List ℕ := t.map UInt16.toNat

/-- Keys of `ORDER BY` whose first column is a time. -/
instance orderKey {α : Type} [Preorder α] : Preorder (ℤ ×ₗ α) :=
  @Prod.Lex.instPreorder ℤ α Int.instLinearOrder.toPreorder inferInstance

/-- `ORDER BY github_updated_at, observed_at, observation_id`. -/
def PullRequestObservation.order (obs : PullRequestObservation) : ℤ ×ₗ ℤ ×ₗ List ℕ :=
  toLex (obs.githubUpdatedAt, toLex (obs.observedAt, sortKey obs.observationId))

/-! ## CI observations -/

structure CheckAnnotation where
  path : Text
  startLine : Option ℕ
  endLine : Option ℕ
  level : Text
  message : Text
  deriving DecidableEq

structure CISignal where
  signalId : Text
  kind : CISignalKind
  name : Text
  conclusion : CISignalConclusion
  githubUrl : Option Text
  checkSuiteId : Option ℕ
  checkRunId : Option ℕ
  summary : Option Text
  annotations : List CheckAnnotation
  deriving DecidableEq

/-- What the explanation of a requirement's result says. -/
inductive Explanation
  | observed (checkName : Text) (status : RequirementVerificationStatus)
  | notObserved (checkName : Text)
  | noCheckName (kind : Text)
  deriving DecidableEq

structure RequirementCIResult where
  requirementId : Text
  evidenceId : Text
  status : RequirementVerificationStatus
  matchedSignalIds : List Text
  explanation : Explanation
  deriving DecidableEq

/-- The payload of a CI observation without `observation_id` and `observed_at`: what the evidence hash
is taken of. -/
structure CIEvidence where
  changesetId : Text
  repository : Text
  prNumber : ℕ
  headSha : Text
  status : ExternalCIStatus
  signals : List CISignal
  requirementResults : List RequirementCIResult
  failureKey : Option Text
  failureSummary : Option Text
  deriving DecidableEq

structure CIVerificationObservation extends CIEvidence where
  observationId : Text
  observedAt : ℤ
  deriving DecidableEq

/-- `ORDER BY observed_at, observation_id`. -/
def CIVerificationObservation.order (obs : CIVerificationObservation) : ℤ ×ₗ List ℕ :=
  toLex (obs.observedAt, sortKey obs.observationId)

/-! ## Remediation attempts -/

/-- `CIRemediationAttempt`: one event of an attempt. -/
structure CIRemediationAttempt where
  attemptId : Text
  eventSequence : ℕ
  changesetId : Text
  resultingCommitSha : Option Text
  disposition : RemediationDisposition
  startedAt : ℤ
  recordedAt : ℤ
  finishedAt : Option ℤ
  error : Option Text
  deriving DecidableEq

/-- The columns of `UNIQUE (attempt_id, event_sequence)`; `event_id` is derived from them. -/
def CIRemediationAttempt.eventId (a : CIRemediationAttempt) : Text × ℕ := (a.attemptId, a.eventSequence)

/-- The newest event that waits for the checks of a head. -/
def awaitingAttempt (attempts : List CIRemediationAttempt) (changesetId headSha : Text) :
    Option CIRemediationAttempt :=
  (attempts.filter fun a =>
    a.changesetId == changesetId && a.resultingCommitSha == some headSha &&
      a.disposition == .awaitingCi).argmax fun a => toLex (a.recordedAt, a.eventSequence)

/-- The next event of an attempt, final at a time; `none` where the model validator raises, because
that time precedes the start of the attempt. -/
def CIRemediationAttempt.finish (a : CIRemediationAttempt) (disposition : RemediationDisposition)
    (at_ : ℤ) (error : Option Text) : Option CIRemediationAttempt :=
  if at_ < a.startedAt then none
  else some { a with
    eventSequence := a.eventSequence + 1
    disposition := disposition
    recordedAt := at_
    finishedAt := some at_
    error := error }

/-- `INSERT … ON CONFLICT DO NOTHING` of an event. -/
def insertAttempt (attempts : List CIRemediationAttempt) (a : CIRemediationAttempt) :
    List CIRemediationAttempt :=
  if a.eventId ∈ attempts.map CIRemediationAttempt.eventId then attempts else attempts ++ [a]

/-- Finish the attempt that waits for the checks of a head, if there is one; `none` where that raises. -/
def finishAwaiting (attempts : List CIRemediationAttempt) (changesetId headSha : Text)
    (disposition : RemediationDisposition) (at_ : ℤ) (error : Option Text) :
    Option (List CIRemediationAttempt) :=
  match awaitingAttempt attempts changesetId headSha with
  | none => some attempts
  | some prior => (prior.finish disposition at_ error).map (insertAttempt attempts)

end Apdl.Codegen
