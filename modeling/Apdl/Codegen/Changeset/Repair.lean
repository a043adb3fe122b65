import Apdl.Codegen.Changeset.Statements

set_option autoImplicit false

/-!
# Repairs of failed checks

A worker that read a failed observation claims a repair of its head, has the code edited, pushes a commit
to the branch of the pull request, and projects the result: if the recorded head is still the one that
failed, the pushed commit becomes the recorded head. Other workers read the pull request from GitHub and
apply what they read.

## Main definitions

* `Bounded` — claims are bounded, results are projected onto the head they are for, and a head that was
  repaired is not recorded again unless the pull request returned to it.

## Design

The heads that a pull request had on GitHub are kept in a list, and a reading of it remembers the length of
that list. Readings, and the results that were projected, are never forgotten. The transactions of
claims, results and checks are single steps that wait for the row lock of an observation. The clock of a
budget is left to the step, and so are the classification and the edit. Scopes have the form of the signal
ids that are built.
-/

namespace Apdl.Codegen

/-! ## Claims -/

/-- A row of `codegen_ci_remediation_claims`. -/
structure RemediationClaim where
  changesetId : Text
  failedHeadSha : Text
  claimScope : Text
  failureObservationId : Text
  deriving DecidableEq

/-- `PRIMARY KEY (changeset_id, failed_head_sha, claim_scope)`. -/
def RemediationClaim.key (c : RemediationClaim) : Text × Text × Text :=
  (c.changesetId, c.failedHeadSha, c.claimScope)

/-- `check_suite:` and an id. -/
def checkSuiteScope (id : ℕ) : Text := Text.ofString "check_suite:" ++ Decimal.text id

/-- The scope of a failed signal: its check suite if it has one. -/
def CISignal.scope (signal : CISignal) : Text :=
  match signal.checkSuiteId with
  | some id => checkSuiteScope id
  | none => signal.signalId

def CIEvidence.remediationClaimScopes (e : CIEvidence) : List Text :=
  if e.status ≠ .failed then []
  else (((e.signals.filter fun s => s.conclusion == .failed).map CISignal.scope).dedup).insertionSort
    strLE

/-- The condition on a signal in the insert of a claim. -/
def scopeMatches (scope : Text) (signal : CISignal) : Bool :=
  if Text.ofString "check_suite:" <+: scope then
    signal.checkSuiteId.any fun id => checkSuiteScope id == scope
  else signal.signalId == scope

/-- The `WHERE` of the insert: the observation is journaled as failed in the scope, and it is the newest one
of its head. -/
def claimable (checks : List CIVerificationObservation) (obs : CIVerificationObservation)
    (scope : Text) : Bool :=
  (checks.any fun ci => ci.observationId == obs.observationId && ci.changesetId == obs.changesetId &&
    ci.headSha == obs.headSha && ci.status == .failed &&
      ci.signals.any fun s => s.conclusion == .failed && scopeMatches scope s) &&
    decide ((newestCheck checks obs.changesetId obs.headSha).map
      CIVerificationObservation.observationId = some obs.observationId)

/-- The reason of a `RepairClaimResult`. -/
inductive ClaimReason
  | changesetMissing
  | staleOrIneligibleHead
  | budgetExhausted
  | duplicateClaim
  | claimed (attemptNumber : ℕ)
  deriving DecidableEq

/-- The row and the claims after `claim_failed_ci_observation`, for a row that exists. -/
def Changeset.claim (row : Changeset) (checks : List CIVerificationObservation)
    (claims : Table RemediationClaim.key) (obs : CIVerificationObservation) (scope : Text)
    (maxAttempts : ℕ) (budgetExpired : Bool) :
    Changeset × Table RemediationClaim.key × ClaimReason :=
  if row.eligible obs = false ∨ row.externalCiStatus ≠ some .failed then
    (row, claims, .staleOrIneligibleHead)
  else if maxAttempts ≤ row.ciRetryCount ∨ budgetExpired = true then
    ({ row with ciRemediationStatus := .exhausted }, claims, .budgetExhausted)
  else if claimable checks obs scope = false then (row, claims, .duplicateClaim)
  else
    match claims.insert ⟨obs.changesetId, obs.headSha, scope, obs.observationId⟩ with
    | none => (row, claims, .duplicateClaim)
    | some claims' =>
      ({ row with
        ciRetryCount := row.ciRetryCount + 1
        ciRemediationStatus := .diagnosing
        ciFailureKey := obs.failureKey
        ciFailureSummary := obs.failureSummary }, claims', .claimed (row.ciRetryCount + 1))

/-- The head is still the recorded one of an open pull request. -/
def Changeset.atHead (row : Changeset) (headSha : Text) : Bool :=
  row.status == .prOpen && row.prLive && row.headSha == some headSha

/-- The update of `project_repair_result` at a row that is still at the failed head. -/
def Changeset.projectResult (row : Changeset) (resulting : Option Text) (exhausted : Bool)
    (error : Option Text) : Changeset :=
  match resulting with
  | some head => { row with
      headSha := some head
      externalCiStatus := some .pending
      ciRemediationStatus := .awaitingCi
      ciFailureKey := none
      ciFailureSummary := none
      error := none }
  | none => { row with
      ciRemediationStatus := if exhausted then .exhausted else .idle
      error := error.or row.error }

def Changeset.setRemediationInProgress (row : Changeset) (failedHead : Text)
    (status : CIRemediationStatus) : Changeset :=
  if row.atHead failedHead then { row with ciRemediationStatus := status } else row

/-! ## Workers -/

/-- A repair that was claimed: what it is for, and the commit it pushed, with its place among the heads of
the pull request. -/
structure Repair where
  obs : CIVerificationObservation
  pushed : Option (Text × ℕ)

/-- A reading of a pull request, and how many heads it had had by then. -/
structure Sighting where
  obs : PullRequestObservation
  at_ : ℕ
  deriving DecidableEq

/-- A result that was projected: the head of its claim, the head that was recorded, and what became the
recorded head. -/
structure ProjectedResult where
  changesetId : Text
  failedHead : Text
  recorded : Option Text
  resulting : Option (Text × ℕ)
  deriving DecidableEq

/-- The tables, the pull requests, and the workers. -/
structure Repairs where
  db : Db
  claims : Table RemediationClaim.key
  /-- The heads that the pull request of a changeset had on GitHub. -/
  heads : Text → List Text
  sightings : List Sighting
  repairs : List Repair
  results : List ProjectedResult

/-- What is done. -/
inductive RepairAction
  /-- `sync_github_state` reads the pull request. -/
  | sight (obs : PullRequestObservation)
  /-- A statement of `apply_pull_request_observation`. -/
  | observe (a : Statement)
  | applyChecks (obs : CIVerificationObservation)
  | claim (obs : CIVerificationObservation) (scope : Text) (budgetExpired : Bool)
  /-- `insert_ci_remediation_attempt`. -/
  | recordAttempt (a : CIRemediationAttempt)
  | progress (changesetId failedHead : Text) (status : CIRemediationStatus)
  | push (k : ℕ) (headSha : Text)
  | move (changesetId headSha : Text)
  /-- A repair ends: with the pushed commit, or without a result. -/
  | project (k : ℕ) (success exhausted : Bool) (error : Option Text)

def Repairs.changesets (s : Repairs) : Table Changeset.changesetId := s.db.store.changesets

/-- The row of a changeset. -/
def Repairs.get (s : Repairs) (changesetId : Text) : Option Changeset := s.changesets.get changesetId

/-- The tables with a row in the place of the one with its key. -/
def Repairs.put (s : Repairs) (row : Changeset) : Repairs :=
  { s with db := { s.db with store := { s.db.store with changesets := s.changesets.replace row } } }

/-- A reading of the live pull request: the head is the last one. -/
def Repairs.sight (s : Repairs) (obs : PullRequestObservation) : Option Repairs :=
  if (s.heads obs.changesetId).getLast? = some obs.headSha then
    some { s with sightings := s.sightings ++ [⟨obs, (s.heads obs.changesetId).length⟩] }
  else none

/-- What is inserted was read. -/
def Repairs.seen (s : Repairs) : Statement → Bool
  | .insert obs => s.sightings.any fun r => r.obs == obs
  | _ => true

/-- A statement of a worker. -/
def Repairs.observe (s : Repairs) (a : Statement) : Option Repairs :=
  if s.seen a then (s.db.perform a).map fun db => { s with db := db } else none

/-- `claim_failed_ci_observation`; `none` where it raises or waits. -/
def Repairs.claim (maxAttempts : ℕ) (s : Repairs) (obs : CIVerificationObservation) (scope : Text)
    (budgetExpired : Bool) : Option Repairs :=
  if obs.status ≠ .failed ∨ scope ∉ obs.remediationClaimScopes ∨ s.db.locked obs.changesetId = true then
    none
  else
    match s.get obs.changesetId with
    | none => some s
    | some row =>
      let r := row.claim s.db.store.checks.rows s.claims obs scope maxAttempts budgetExpired
      let granted := match r.2.2 with
        | .claimed _ => [⟨obs, none⟩]
        | _ => []
      some { s.put r.1 with
        claims := r.2.1
        repairs := s.repairs ++ granted }

/-- The push of a repair; the branch has to be at the failed head. -/
def Repairs.push (s : Repairs) (k : ℕ) (headSha : Text) : Option Repairs :=
  s.repairs[k]?.bind fun r =>
    let heads := s.heads r.obs.changesetId
    if heads.getLast? ≠ some r.obs.headSha then none
    else some { s with
      heads := Function.update s.heads r.obs.changesetId (heads ++ [headSha])
      repairs := s.repairs.set k { r with pushed := some (headSha, heads.length) } }

/-- `project_repair_result`, and the end of the repair. -/
def Repairs.project (s : Repairs) (k : ℕ) (success exhausted : Bool) (error : Option Text) :
    Option Repairs :=
  s.repairs[k]?.bind fun r =>
    -- without a push there is no success
    if s.db.locked r.obs.changesetId = true ∨ (success = true ∧ r.pushed = none) then none
    else
      let resulting := if success then r.pushed else none
      let ended := { s with repairs := s.repairs.eraseIdx k }
      match s.get r.obs.changesetId with
      | none => some ended
      | some row =>
        if row.atHead r.obs.headSha = false then some ended
        else some { ended.put (row.projectResult (resulting.map Prod.fst) exhausted error) with
          results := s.results ++ [⟨r.obs.changesetId, r.obs.headSha, row.headSha, resulting⟩] }

section Machine

variable (sha256 : Hashed → Text) (maxAttempts : ℕ)

/-- `apply_ci_verification_observation`. -/
def Repairs.applyChecks (s : Repairs) (obs : CIVerificationObservation) : Option Repairs :=
  if s.db.locked obs.changesetId then none
  else (applyCiVerificationObservation sha256 s.db.store obs).map fun p =>
    { s with db := { s.db with store := p.1 } }

/-- One action. -/
def Repairs.step (s : Repairs) : RepairAction → Option Repairs
  | .sight obs => s.sight obs
  | .observe a => s.observe a
  | .applyChecks obs => s.applyChecks sha256 obs
  | .claim obs scope budgetExpired => s.claim maxAttempts obs scope budgetExpired
  | .recordAttempt a => some { s with db := { s.db with store :=
      { s.db.store with attempts := insertAttempt s.db.store.attempts a } } }
  | .progress changesetId failedHead status =>
    if s.db.locked changesetId then none
    else match s.get changesetId with
      | none => some s
      | some row => some (s.put (row.setRemediationInProgress failedHead status))
  | .push k headSha => s.push k headSha
  | .move changesetId headSha =>
    some { s with heads := Function.update s.heads changesetId (s.heads changesetId ++ [headSha]) }
  | .project k success exhausted error => s.project k success exhausted error

/-- Any number of workers over some tables and pull requests. -/
def repairing (initial : Store) (heads : Text → List Text) : StepMachine Repairs RepairAction where
  init := ⟨⟨initial, [], []⟩, .empty, heads, [], [], []⟩
  step := Repairs.step sha256 maxAttempts

end Machine

/-! ## What is to hold -/

/-- The pull request returned to a head after a place in its history. -/
def Repairs.Returned (s : Repairs) (changesetId headSha : Text) (place : ℕ) : Prop :=
  ∃ j, place < j ∧ (s.heads changesetId)[j]? = some headSha

/-- Claims are bounded and one for each head and scope, results are projected onto the head of their
claim, and after a result moved the recorded head, the head it moved from is recorded only if the pull
request returned to it after the push. -/
structure Bounded (maxAttempts : ℕ) (s : Repairs) : Prop where
  claims_le : ∀ changesetId,
    s.claims.rows.countP (fun c => c.changesetId == changesetId) ≤ maxAttempts
  claims_unique : (s.claims.rows.map RemediationClaim.key).Nodup
  results_head : ∀ r ∈ s.results, r.recorded = some r.failedHead ∧
    ∃ c ∈ s.claims.rows, c.changesetId = r.changesetId ∧ c.failedHeadSha = r.failedHead
  not_recorded_again : ∀ r ∈ s.results, ∀ p ∈ r.resulting, r.failedHead ≠ p.1 →
    ∀ row ∈ s.get r.changesetId, row.headSha = some r.failedHead →
      s.Returned r.changesetId r.failedHead p.2

/-- Of every projected result that moved away from a head, the place of the push has a property. -/
def AfterRepairs (s : Repairs) (changesetId headSha : Text) (seen : ℕ → Prop) : Prop :=
  ∀ r ∈ s.results, r.changesetId = changesetId → r.failedHead = headSha →
    ∀ p ∈ r.resulting, r.failedHead ≠ p.1 → seen p.2

/-- The step does not record a repaired head from before the repair: an observation of it that is projected
was read after the push of the repair, and a commit that becomes the recorded head was pushed after it. -/
def Fresh (s : Repairs) : RepairAction → Prop
  | .observe (.commit i) => ∀ t ∈ s.db.transactions[i]?, t.phase = .locked →
      ∀ row ∈ s.get t.obs.changesetId, row.Matches t.obs → lifecycle row.status t.obs ≠ none →
        AfterRepairs s t.obs.changesetId t.obs.headSha fun place =>
          ∃ sighting ∈ s.sightings, sighting.obs = t.obs ∧ place < sighting.at_
  | .project k true _ _ => ∀ rep ∈ s.repairs[k]?, ∀ row ∈ s.get rep.obs.changesetId,
      row.atHead rep.obs.headSha = true → ∀ pushed ∈ rep.pushed,
        AfterRepairs s rep.obs.changesetId pushed.1 fun place => place < pushed.2
  | _ => True

instance (s : Repairs) (changesetId headSha : Text) (seen : ℕ → Prop) [DecidablePred seen] :
    Decidable (AfterRepairs s changesetId headSha seen) :=
  inferInstanceAs (Decidable (∀ r ∈ s.results, _ → _ → ∀ p ∈ r.resulting, _ → _))

instance (s : Repairs) : (a : RepairAction) → Decidable (Fresh s a)
  | .observe (.commit i) => inferInstanceAs (Decidable (∀ t ∈ s.db.transactions[i]?, _ →
      ∀ row ∈ s.get t.obs.changesetId, _ → _ → AfterRepairs _ _ _ fun _ => ∃ _ ∈ s.sightings, _))
  | .project k true _ _ => inferInstanceAs (Decidable (∀ rep ∈ s.repairs[k]?,
      ∀ row ∈ s.get rep.obs.changesetId, _ → ∀ pushed ∈ rep.pushed, AfterRepairs _ _ _ _))
  | .observe (.insert _) | .observe (.check _) | .observe (.lock _) | .observe (.rollback _)
  | .sight _ | .applyChecks _ | .claim _ _ _ | .recordAttempt _ | .progress _ _ _ | .push _ _
  | .move _ _ | .project _ false _ _ => .isTrue trivial

end Apdl.Codegen
