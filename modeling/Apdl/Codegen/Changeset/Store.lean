import Apdl.Codegen.Changeset.Evidence

set_option autoImplicit false

/-!
# Applying observations

One transaction adds an observation to its journal and, if it is the newest of its kind, locks the row
of the changeset and projects it. An insert that violates a unique constraint of the journal is a
duplicate and ends the transaction.
-/

namespace Apdl.Codegen

/-- The tables. -/
structure Store where
  changesets : Table Changeset.changesetId
  /-- `codegen_pull_request_observations`. -/
  pullRequests : Table PullRequestObservation.observationId
  /-- `codegen_ci_verification_observations`. -/
  checks : Table CIVerificationObservation.observationId
  /-- `codegen_ci_remediation_attempts`. -/
  attempts : List CIRemediationAttempt

/-- The reason of an `ApplyObservationResult`. -/
inductive ApplyReason
  /-- The observation was not inserted. -/
  | duplicate
  /-- It was inserted, and a newer one is there. -/
  | supersededObservation
  | changesetMissing
  | identityMismatch
  | lifecycleIneligible
  | staleOrIneligibleHead
  | projected
  deriving DecidableEq

/-! ## Pull request observations -/

/-- The insert violates the primary key or the unique index on `delivery_id`. -/
def PullRequestObservation.conflicts (obs old : PullRequestObservation) : Bool :=
  old.observationId == obs.observationId ||
    (obs.deliveryId.isSome && old.deliveryId == obs.deliveryId)

/-- `INSERT … ON CONFLICT DO NOTHING`; `none` if the observation is a duplicate. -/
def recordPullRequest (t : Table PullRequestObservation.observationId)
    (obs : PullRequestObservation) : Option (Table PullRequestObservation.observationId) :=
  if t.rows.any obs.conflicts then none else t.insert obs

/-- `ORDER BY github_updated_at DESC, observed_at DESC, observation_id DESC LIMIT 1`. -/
def newestPullRequest (rows : List PullRequestObservation) (changesetId : Text) :
    Option PullRequestObservation :=
  (rows.filter fun o => o.changesetId == changesetId).argmax PullRequestObservation.order

/-- The lifecycle status that an observation asks for; `none` if the observation is ineligible. -/
def lifecycle (current : ChangesetStatus) (obs : PullRequestObservation) : Option ChangesetStatus :=
  match obs.status with
  | .merged => some .merged
  | .closed => some .abandoned
  | .draft | .opened =>
    if current = .abandoned ∧ (obs.action = .reopened ∨ obs.action = .polled) then some .prOpen
    else if current = .prOpen then some .prOpen
    else none

/-- The columns that a projected observation writes. -/
def Changeset.observe (row : Changeset) (obs : PullRequestObservation) (next : ChangesetStatus) :
    Changeset :=
  let headChanged := decide (row.headSha ≠ some obs.headSha)
  { row with
    status := next
    headSha := some obs.headSha
    githubPrStatus := some obs.status
    mergeSha := if obs.status = .merged then obs.mergeSha else row.mergeSha
    externalCiStatus := if headChanged then some .pending else row.externalCiStatus
    ciRemediationStatus := if headChanged then .idle else row.ciRemediationStatus
    ciFailureKey := if headChanged then none else row.ciFailureKey
    ciFailureSummary := if headChanged then none else row.ciFailureSummary }

/-- `"A newer GitHub PR head superseded this repair."`. -/
def supersededError : Text := Text.ofString "A newer GitHub PR head superseded this repair."

/-- The attempts after an observation moved the head; `none` where the model validator raises. -/
def supersede (attempts : List CIRemediationAttempt) (row : Changeset) (obs : PullRequestObservation) :
    Option (List CIRemediationAttempt) :=
  match row.headSha with
  | none | some [] => some attempts
  | some head =>
    if head = obs.headSha then some attempts
    else finishAwaiting attempts obs.changesetId head .superseded obs.observedAt (some supersededError)

/-- From the row lock to the end of the transaction; `none` where it raises. -/
def projectPullRequest (changesets : Table Changeset.changesetId) (attempts : List CIRemediationAttempt)
    (obs : PullRequestObservation) :
    Option (Table Changeset.changesetId × List CIRemediationAttempt × ApplyReason) :=
  match changesets.get obs.changesetId with
  | none => some (changesets, attempts, .changesetMissing)
  | some row =>
    if row.repositoryFullName ≠ obs.repository ∨ row.prNumber ≠ some obs.prNumber then
      some (changesets, attempts, .identityMismatch)
    else
      match lifecycle row.status obs with
      | none => some (changesets, attempts, .lifecycleIneligible)
      | some next =>
        (supersede attempts row obs).map fun attempts' =>
          (changesets.replace (row.observe obs next), attempts', .projected)

/-- `apply_pull_request_observation` without interleaving; `none` where it raises and the transaction is
rolled back. -/
def applyPullRequestObservation (s : Store) (obs : PullRequestObservation) :
    Option (Store × ApplyReason) :=
  match recordPullRequest s.pullRequests obs with
  | none => some (s, .duplicate)
  | some pullRequests =>
    if (newestPullRequest pullRequests.rows obs.changesetId).map
        PullRequestObservation.observationId ≠ some obs.observationId then
      some ({ s with pullRequests := pullRequests }, .supersededObservation)
    else
      (projectPullRequest s.changesets s.attempts obs).map fun (changesets, attempts, reason) =>
        ({ s with changesets := changesets, pullRequests := pullRequests, attempts := attempts }, reason)

@[simp] lemma Changeset.observe_changesetId (row : Changeset) (obs : PullRequestObservation)
    (next : ChangesetStatus) : (row.observe obs next).changesetId = row.changesetId := rfl

/-! ## CI observations -/

section Checks

variable (sha256 : Hashed → Text)

/-- The insert violates the primary key or `UNIQUE (changeset_id, head_sha, evidence_hash)`. -/
def CIVerificationObservation.conflicts (obs old : CIVerificationObservation) : Bool :=
  old.observationId == obs.observationId ||
    (old.changesetId == obs.changesetId && old.headSha == obs.headSha &&
      sha256 (.evidence old.toCIEvidence) == sha256 (.evidence obs.toCIEvidence))

/-- `INSERT … ON CONFLICT DO NOTHING`; `none` if the observation is a duplicate. -/
def recordCheck (t : Table CIVerificationObservation.observationId) (obs : CIVerificationObservation) :
    Option (Table CIVerificationObservation.observationId) :=
  if t.rows.any (obs.conflicts sha256) then none else t.insert obs

/-- `ORDER BY observed_at DESC, observation_id DESC LIMIT 1` for one head. -/
def newestCheck (rows : List CIVerificationObservation) (changesetId headSha : Text) :
    Option CIVerificationObservation :=
  (rows.filter fun o => o.changesetId == changesetId && o.headSha == headSha).argmax
    CIVerificationObservation.order

/-- The head that the observation is of is the recorded head of an open pull request. -/
def Changeset.eligible (row : Changeset) (obs : CIVerificationObservation) : Bool :=
  row.repositoryFullName == obs.repository && row.prNumber == some obs.prNumber &&
    row.headSha == some obs.headSha && row.status == .prOpen && row.prLive

/-- The remediation status that a CI observation leaves. -/
def remediationAfter (current : CIRemediationStatus) (status : ExternalCIStatus) :
    CIRemediationStatus :=
  if status = .passed ∧ (current = .awaitingCi ∨ current = .repairing ∨ current = .diagnosing) then
    .resolved
  else if status = .unverifiedExternalCi then .idle
  else current

/-- The columns that a projected CI observation writes. -/
def Changeset.check (row : Changeset) (obs : CIVerificationObservation) : Changeset :=
  { row with
    externalCiStatus := some obs.status
    ciRemediationStatus := remediationAfter row.ciRemediationStatus obs.status
    ciFailureKey := obs.failureKey
    ciFailureSummary := obs.failureSummary }

/-- The attempts after a CI observation; `none` where the model validator raises. -/
def repairedBy (attempts : List CIRemediationAttempt) (obs : CIVerificationObservation) :
    Option (List CIRemediationAttempt) :=
  if obs.status = .passed then
    finishAwaiting attempts obs.changesetId obs.headSha .repaired obs.observedAt none
  else some attempts

/-- `apply_ci_verification_observation`; `none` where it raises and the transaction is rolled back. -/
def applyCiVerificationObservation (s : Store) (obs : CIVerificationObservation) :
    Option (Store × ApplyReason) :=
  match recordCheck sha256 s.checks obs with
  | none => some (s, .duplicate)
  | some checks =>
    if (newestCheck checks.rows obs.changesetId obs.headSha).map
        CIVerificationObservation.observationId ≠ some obs.observationId then
      some ({ s with checks := checks }, .supersededObservation)
    else
      match s.changesets.get obs.changesetId with
      | none => some ({ s with checks := checks }, .changesetMissing)
      | some row =>
        if row.eligible obs = false then
          some ({ s with checks := checks }, .staleOrIneligibleHead)
        else
          (repairedBy s.attempts obs).map fun attempts =>
            ({ s with
              changesets := s.changesets.replace (row.check obs)
              checks := checks
              attempts := attempts }, .projected)

end Checks

/-- A changeset with an open pull request: head `4f2a9c` of pull request 7 of `acme/shop`. -/
def exampleRow : Changeset where
  changesetId := Text.ofString "cs-1"
  projectId := Text.ofString "p-1"
  repositoryFullName := Text.ofString "acme/shop"
  status := .prOpen
  prNumber := some 7
  headSha := some (Text.ofString "4f2a9c")
  githubPrStatus := some .opened
  externalCiStatus := some .pending

/-- That changeset, and nothing observed. -/
def exampleStore : Store where
  changesets := ⟨[exampleRow], by decide⟩
  pullRequests := .empty
  checks := .empty
  attempts := []

def examplePush (observationId headSha : String) (time : ℤ) : PullRequestObservation where
  observationId := Text.ofString observationId
  deliveryId := none
  changesetId := Text.ofString "cs-1"
  repository := Text.ofString "acme/shop"
  prNumber := 7
  headSha := Text.ofString headSha
  status := .opened
  action := .synchronize
  mergeSha := none
  githubUpdatedAt := time
  observedAt := time
  merge_sha_only_for_merge := rfl
  status_allowed := by decide

end Apdl.Codegen
