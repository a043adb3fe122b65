import Apdl.Agents.Approval.Model

set_option autoImplicit false

/-!
# Workers, cancellation and recovery

The effects of a command are leased and carried out by the workers of all replicas, while runs are
cancelled, supervisors write results and expired work is recovered. This file models the statements
of `approval_effects.py`, `run_leases.py` and `proposals.py` on the tables, the steps of a worker
between them, and the downstream services as far as they keep one object per idempotency key.

## Main definitions

* `State`, `Act`, `machine` — workers, tables and downstream services.

## Design

A transaction runs at one moment, since every one of them locks the run first; between two
transactions of a worker anything may happen, and a worker may stop at any point. A call is sent some
time after the capability for it was issued, and is delivered some time after it was sent, or never;
its reply may be lost. Which of several claimable effects a worker takes, and which proposals an
agent finds unlocked, is left open.

Supervisors appear by their statements on a run: what they write is not restricted, except that the
items of the code implementation gate are proposals that `claim_proposals` has returned to an agent
of that run. The triggers of migration 034, which refuse to release a lane with live effects, are
not part of the model: they never fire.
-/

namespace Apdl.Agents.Approval

/-- `EFFECT_LEASE_SECONDS`. -/
def effectLease : ℕ := 5 * 60 * Lease.second

/-- `LEGACY_PROPOSAL_STALE_SECONDS`. -/
def legacyProposalStale : ℕ := 24 * 60 * 60 * Lease.second

namespace EffectRow

variable (e : EffectRow)

/-- `next_attempt_at <= now()`. -/
def isDue (now : ℕ) : Bool := decide (e.nextAttemptAt ≤ now)

/-- `status = 'processing' AND lease_expires_at <= now()`. -/
def isExpired (now : ℕ) : Bool :=
  decide (e.status = .processing) && e.lease.any fun lease => decide (lease.2 ≤ now)

/-- The effect may be claimed in a run of the given status. -/
def isClaimable (status : RunStatus) (now : ℕ) : Bool :=
  match status with
  | .approvalQueued =>
    (decide (e.status = .queued ∨ e.status = .retryableFailed) && e.isDue now) || e.isExpired now
  | .cancelling => (decide (e.status = .retryableFailed) && e.isDue now) || e.isExpired now
  | _ => false

/-- `lease_owner_id = owner AND status = 'processing'`. -/
def isHeldBy (owner : ℕ) : Bool :=
  decide (e.status = .processing) && e.lease.any fun lease => decide (lease.1 = owner)

/-- The effect is given up before it was claimed. -/
def abandonQueued : EffectRow :=
  if e.status = .queued then { e with status := .manualIntervention } else e

end EffectRow

/-- An open command ends without success. -/
def CommandRow.intervene (c : CommandRow) : CommandRow :=
  if c.isOpen then { c with status := .manualIntervention } else c

/-- `status = 'approved', claim_run_id = NULL`. -/
def ProposalRow.reopen (p : ProposalRow) (now : ℕ) : ProposalRow :=
  { p with status := .approved, claimRun := none, updatedAt := now }

def ProposalRow.isClaimedBy (p : ProposalRow) (project : String) (run : ℕ) : Bool :=
  decide (p.project = project ∧ p.claimRun = some run ∧ p.status = .implementing)

namespace Tables

variable (t : Tables)

/-! ## Effects -/

/-- `depends_on_effect_id IS NULL`, or the dependency has succeeded. -/
def dependencyDone (plan : PlannedEffect) : Bool :=
  match plan.dependsOn with
  | none => true
  | some d => t.effects[d]?.any fun e => decide (e.status = .succeeded)

/-- `_claim_effect`, for an effect that it may choose. -/
def claimEffect (owner i now : ℕ) : Option Tables :=
  match t.effects[i]? with
  | none => none
  | some e =>
    match t.commands[e.plan.command]?, t.statusOf e.plan.run with
    | some c, some status =>
      if e.isClaimable status now && t.dependencyDone e.plan && c.isOpen && status.holdsLane then
        let claimed : EffectRow :=
          { e with
            status := .processing, lease := some (owner, now + effectLease)
            attemptCount := e.attemptCount + 1 }
        some { t with
          effects := t.effects.set i claimed
          commands := t.commands.set e.plan.command { c with status := .processing } }
      else none
    | _, _ => none

def effectsOf (run : ℕ) : List EffectRow := t.effects.filter fun e => decide (e.plan.run = run)

def effectsOfCommand (k : ℕ) : List EffectRow :=
  t.effects.filter fun e => decide (e.plan.command = k)

def reopenClaims (run now : ℕ) : Tables :=
  match t.runs[run]? with
  | none => t
  | some r =>
    { t with proposals := t.proposals.map fun p =>
      if p.isClaimedBy r.project run then p.reopen now else p }

/-- The queued effects of a run are given up. -/
def abandonQueuedOf (run : ℕ) : Tables :=
  { t with effects := t.effects.map fun e => if e.plan.run = run then e.abandonQueued else e }

/-- The phase of a run whose effects are being settled. -/
def cancellationPhase (run : ℕ) : String :=
  if (t.effectsOf run).any fun e => decide (e.status = .processing) then "cancellation_draining"
  else "cancellation_reconciliation"

/-- `_finalize_cancellation_if_reconciled`. -/
def finalizeCancellation (run now : ℕ) : Tables :=
  if t.statusOf run ≠ some .cancelling then t else
  let t := t.abandonQueuedOf run
  if (t.effectsOf run).any EffectRow.isPending then
    t.setRun run fun r => { r with row := { r.row with phase := t.cancellationPhase run, updatedAt := now } }
  else
    let t : Tables :=
      { t with commands := t.commands.map fun c => if c.run = run then c.intervene else c }
    (t.reopenClaims run now).setRun run fun r =>
      { r with row := (r.row.approval .cancelling .cancelled "cancelled" now).getD r.row }

def resolveGate (c : CommandRow) : Tables :=
  { t with results := t.results.map fun r =>
    if r.run = c.run ∧ r.agentName = c.gate.name then
      { r with gate := r.gate.map fun g => { g with state := "resolved" } }
    else r }

/-- `_finalize_command_if_terminal`. -/
def finalizeCommand (k now : ℕ) : Tables :=
  match t.commands[k]? with
  | none => t
  | some c =>
    let effects := t.effectsOfCommand k
    if effects ≠ [] ∧ effects.all fun e => decide (e.status = .succeeded) then
      if c.isOpen then
        let resumed (r : Run) : Run :=
          { r with row := (r.row.approval .approvalQueued c.resumeStatus "resuming" now).getD r.row }
        ({ t with commands := t.commands.set k { c with status := .succeeded } }.setRun c.run
          resumed).resolveGate c
      else t
    else if effects.any fun e => decide (e.status = .manualIntervention) then
      let t' : Tables := { t with effects := t.effects.map fun e =>
        if e.plan.command = k then e.abandonQueued else e }
      if effects.any EffectRow.isPending then t'
      else if c.isOpen then
        let stopped (r : Run) : Run :=
          { r with row := { r.row with
              status := .manualIntervention, phase := c.gate.phase, updatedAt := now
              leaseOwner := none, leaseExpiresAt := none } }
        { t' with commands := t'.commands.set k { c with status := .manualIntervention } }.setRun c.run
          stopped
      else t'
    else t

/-- The transaction of `_complete_effect` and `_fail_effect`: the effect that the worker holds gets
its new row, and its run or its command is finalized. `none` if the lease was lost. -/
def settle (owner i now : ℕ) (f : EffectRow → EffectRow) : Option Tables :=
  match t.effects[i]? with
  | none => none
  | some e =>
    if e.isHeldBy owner then
      let t' : Tables := { t with effects := t.effects.set i (f e) }
      if t.statusOf e.plan.run = some .cancelling then
        some (t'.finalizeCancellation e.plan.run now)
      else some (t'.finalizeCommand e.plan.command now)
    else none

/-- The row of an effect that has succeeded. -/
def completed (e : EffectRow) : EffectRow := { e with status := .succeeded, lease := none }

/-- The delay of a retry without one of its own, in seconds. -/
def retryDelay (attempt : ℕ) : ℕ := min (5 * 60) (2 ^ min attempt 8)

/-- The row of an effect whose attempt has failed. -/
def failed (permanent : Bool) (delay : Option ℕ) (attempt now : ℕ) (e : EffectRow) : EffectRow :=
  { e with
    status := if permanent || decide (maxAttempts ≤ attempt) then .manualIntervention
      else .retryableFailed
    nextAttemptAt := now + delay.getD (retryDelay attempt) * Lease.second
    lease := none }

/-- `cancel_run`; `none` if the run is not found or terminal with another status. -/
def cancelRun (run : ℕ) (project : String) (now : ℕ) : Option Tables :=
  match t.runs[run]? with
  | none => none
  | some r =>
    if r.project ≠ project then none
    else if r.row.status = .cancelled then some t
    else if r.row.status.holdsLane then
      let pending := (t.effectsOf run).any EffectRow.isPending
      let phase := if pending then t.cancellationPhase run else "cancelled"
      let hasPending (k : ℕ) := (t.effectsOfCommand k).any EffectRow.isPending
      let t' := t.abandonQueuedOf run
      let t' : Tables := { t' with commands := t'.commands.mapIdx fun k c =>
        if c.run = run ∧ hasPending k = false then c.intervene else c }
      let t' := if pending then t' else t'.reopenClaims run now
      some (t'.setRun run fun r => { r with row := (r.row.cancel pending phase now).getD r.row })
    else none

/-- `_execution_is_active` of an effect that the worker holds. -/
def executionIsActive (owner i now : ℕ) : Bool :=
  match t.effects[i]? with
  | none => false
  | some e =>
    e.isHeldBy owner && !e.isExpired now &&
    (decide (t.statusOf e.plan.run = some .approvalQueued) ||
      decide (t.statusOf e.plan.run = some .cancelling))

/-! ## Proposals -/

/-- `enqueue_proposals`, for one proposal. -/
def enqueueProposal (project proposalId : String) (now : ℕ) : Tables :=
  if t.proposals.any fun p => decide (p.project = project ∧ p.proposalId = proposalId) then t
  else { t with proposals := t.proposals ++ [⟨project, proposalId, .approved, none, now⟩] }

/-- The run may claim the proposal: it is approved, or already claimed by it. -/
def mayClaim (run : ℕ) (project : String) (p : ProposalRow) : Bool :=
  decide (p.project = project) &&
    (decide (p.status = .approved) || decide (p.status = .implementing ∧ p.claimRun = some run))

/-- `claim_proposals`, among the rows with the given ids. -/
def claimProposals (run : ℕ) (project : String) (ids : List String) (now : ℕ) : Tables :=
  { t with proposals := t.proposals.map fun p =>
    if mayClaim run project p && ids.contains p.proposalId then
      { p with status := .implementing, claimRun := some run, updatedAt := now }
    else p }

/-- The ids that `claim_proposals` returns. -/
def claimable (run : ℕ) (project : String) (ids : List String) : List String :=
  (t.proposals.filter fun p => mayClaim run project p && ids.contains p.proposalId).map
    ProposalRow.proposalId

/-- `mark_implemented` and `mark_failed`: the claim of the run on the proposal ends. -/
def markProposal (status : ProposalStatus) (run : ℕ) (project proposalId : String) (now : ℕ) :
    Tables :=
  { t with proposals := t.proposals.map fun p =>
    if p.isClaimedBy project run && decide (p.proposalId = proposalId) then
      { p with status := status, claimRun := none, updatedAt := now }
    else p }

def markImplemented : ℕ → String → String → ℕ → Tables := t.markProposal .implemented

def markFailed : ℕ → String → String → ℕ → Tables := t.markProposal .failed

/-- `claim_run.status IN ('completed', 'completed_with_errors', 'failed', 'cancelled')`. -/
def isClosed : RunStatus → Bool
  | .completed | .completedWithErrors | .failed | .cancelled => true
  | _ => false

/-- The claim of a proposal belongs to a closed run of its project. -/
def claimIsOrphaned (p : ProposalRow) : Bool :=
  decide (p.status = .implementing) &&
    match p.claimRun with
    | none => false
    | some run => t.runs[run]?.any fun r => decide (r.project = p.project) && isClosed r.row.status

/-- The proposal was claimed before claims had a run, and its project is idle. -/
def claimIsLegacy (now : ℕ) (p : ProposalRow) : Bool :=
  decide (p.status = .implementing) && p.claimRun.isNone &&
    decide (p.updatedAt + legacyProposalStale ≤ now) &&
    !t.runs.any fun r => r.row.status.holdsLane && decide (r.project = p.project)

def requeueExpiredRuns (now : ℕ) : Tables :=
  { t with
    runs := t.runs.map fun r => { r with row := (r.row.requeue now).getD r.row }
    proposals := t.proposals.map fun p =>
      if t.claimIsOrphaned p || t.claimIsLegacy now p then p.reopen now else p }

/-- A trigger inserts a run if the lane of its project is free. -/
def trigger (project : String) (now : ℕ) : Option Tables :=
  if t.runs.any fun r => r.row.status.holdsLane && decide (r.project = project) then none
  else some { t with
    runs := t.runs ++ [⟨project, ⟨.started, "initializing", none, none, now, []⟩⟩] }

/-- A statement on the row of one run. -/
def onRun (run : ℕ) (f : Lease.RunRow → Option Lease.RunRow) : Option Tables :=
  match t.runs[run]? with
  | none => none
  | some r => (f r.row).map fun row => { t with runs := t.runs.set run { r with row := row } }

/-- `_persist_results`. -/
def persistResult (run : ℕ) (agentName produces : String) (output : List (Option Item))
    (needsApproval : Bool) (owner now : ℕ) : Option Tables :=
  let gate := if needsApproval then some (pendingGate run agentName produces) else none
  let stored := t.results.filter fun r => decide (¬ (r.run = run ∧ r.agentName = agentName))
  (t.onRun run fun row => row.persist agentName owner now).map fun t =>
    { t with results := stored ++ [⟨run, agentName, produces, output, gate⟩] }

end Tables

/-! ## Workers -/

/-- How far a call of `process_one_approval_effect` has come. -/
inductive WorkStage
  | claimed
  | reserved
  /-- The capability for the call is issued. -/
  | authorized
  | called
  /-- The downstream service has answered. -/
  | replied
  /-- The outcome is recorded; only the effect is left to complete. -/
  | recorded
  | raised (permanent : Bool) (delay : Option ℕ)
  /-- The call has returned, or its process has stopped. -/
  | ended
  deriving DecidableEq, Repr

/-- `_ClaimedEffect`, and the progress of the worker. -/
structure Work where
  owner : ℕ
  effect : ℕ
  attempt : ℕ
  stage : WorkStage
  deriving DecidableEq, Repr

/-- `ACTION_LIMITS_PER_HOUR`. -/
def QuotaAction.limit : QuotaAction → ℕ
  | .createExperiment => 5
  | .openPullRequest => 10

/-- A row of `agent_mutation_quota_reservations`, whose key is that of the effect. -/
structure Reservation where
  project : String
  action : QuotaAction
  effect : ℕ
  occurredAt : ℕ
  deriving DecidableEq, Repr

/-- `WINDOW_SECONDS`. -/
def quotaWindow : ℕ := 60 * 60 * Lease.second

/-- `reserve_mutation`; `none` if the quota is exceeded. -/
def reserveMutation (reservations : List Reservation) (project : String) (action : QuotaAction)
    (effect now : ℕ) : Option (List Reservation) :=
  let same := reservations.filter fun r => decide (r.project = project ∧ r.action = action)
  if same.any fun r => decide (r.effect = effect) then some reservations
  else if action.limit ≤ (same.filter fun r => decide (now ≤ r.occurredAt + quotaWindow)).length then
    none
  else some (reservations ++ [⟨project, action, effect, now⟩])

/-! ## The machine -/

/-- The tables, the workers and the downstream services. `claimed` holds what `claim_proposals` has
returned to the agents of each run; `calls` the calls on their way; `issued` the effects whose call
was ever sent; `created` the effects for which a downstream service has created its object. -/
structure State where
  clock : ℕ
  tables : Tables
  claimed : List (ℕ × String)
  works : List Work
  reservations : List Reservation
  calls : List ℕ
  issued : List ℕ
  created : List ℕ
  deriving DecidableEq, Repr

/-- The actions. -/
inductive Act
  /-- Time passes. -/
  | tick (duration : ℕ)
  | trigger (project : String)
  /-- `acquire_run_lease`. -/
  | acquire (run owner : ℕ)
  /-- `renew_run_lease`. -/
  | renew (run owner : ℕ)
  /-- `_update_run`, by the owner of the lease. -/
  | update (run owner : ℕ) (status : RunStatus) (phase : String)
  /-- `_persist_results`. -/
  | persist (run owner : ℕ) (agentName produces : String) (output : List (Option Item))
      (needsApproval : Bool)
  /-- `_quarantine_invalid_run`. -/
  | quarantine (run : ℕ)
  /-- `requeue_expired_runs`. -/
  | requeue
  /-- `enqueue_approval_command`. -/
  | enqueue (q : ApprovalRequest)
  /-- `cancel_run`. -/
  | cancel (run : ℕ) (project : String)
  /-- `enqueue_proposals`. -/
  | propose (project proposalId : String)
  /-- `claim_proposals`, by an agent of the run. -/
  | claimProposals (run : ℕ) (ids : List String)
  /-- `mark_failed`, after the result of a run. -/
  | halt (run : ℕ) (proposalId : String)
  /-- `_claim_effect`. -/
  | claim (owner effect : ℕ)
  /-- `reserve_mutation`. -/
  | reserve (w : ℕ)
  /-- `service_headers`. -/
  | authorize (w : ℕ)
  /-- The call is sent. -/
  | send (w : ℕ)
  | reply (w : ℕ)
  | record (w : ℕ)
  /-- An exception of `_execute_effect`. -/
  | raise (w : ℕ) (permanent : Bool) (delay : Option ℕ)
  /-- `_complete_effect`. -/
  | complete (w : ℕ)
  /-- `_fail_effect`. -/
  | fail (w : ℕ)
  /-- The worker stops, or its last transaction raises. -/
  | abandon (w : ℕ)
  /-- A call arrives at the downstream service, which refuses it or creates its object. -/
  | deliver (i : ℕ) (accepted : Bool)
  deriving DecidableEq, Repr

namespace State

variable (s : State)

/-- The stage of a work changes. -/
def setStage (w : ℕ) (stage : WorkStage) : State :=
  { s with works := s.works.modify w fun work => { work with stage := stage } }

def projectOf (run : ℕ) : String := (s.tables.runs[run]?.map Run.project).getD ""

/-- The statuses that a supervisor writes. -/
def isSupervised : RunStatus → Bool
  | .running | .waitingApproval | .completed | .completedWithErrors | .failed => true
  | _ => false

/-- The items of the code implementation gate are proposals that the run has claimed. -/
def mayPersist (run : ℕ) (agentName : String) (output : List (Option Item)) : Bool :=
  decide (agentName ≠ GateAgent.codeImplementation.name) ||
    output.all fun item => item.all fun item =>
      item.proposalId.all fun id => s.claimed.contains (run, id)

def recordOutcome (plan : PlannedEffect) : Tables :=
  match plan.effectType with
  | .openCodeChangeset =>
    s.tables.markImplemented plan.run (s.projectOf plan.run) plan.itemId s.clock
  | .recordProposalRejection | .quarantineFeatureProposal =>
    s.tables.markFailed plan.run (s.projectOf plan.run) plan.itemId s.clock
  | _ => s.tables

/-- The steps of a worker before its last transaction. -/
def stepWork (work : Work) (plan : PlannedEffect) : Act → Option State
  | .reserve w =>
    if work.stage = .claimed then
      match plan.quotaAction with
      | none => some (s.setStage w .reserved)
      | some action =>
        match reserveMutation s.reservations (s.projectOf plan.run) action work.effect s.clock with
        | none => some (s.setStage w (.raised false (some (15 * 60))))
        | some reservations => some { s.setStage w .reserved with reservations := reservations }
    else none
  | .authorize w =>
    if work.stage = .reserved ∧ plan.effectType.isExternal then
      if s.tables.executionIsActive work.owner work.effect s.clock then some (s.setStage w .authorized)
      else some (s.setStage w (.raised false none))
    else none
  | .send w =>
    if work.stage = .authorized then
      some { s.setStage w .called with
        calls := s.calls ++ [work.effect], issued := s.issued ++ [work.effect] }
    else none
  | .reply w =>
    if work.stage = .called ∧ s.created.contains work.effect then some (s.setStage w .replied) else none
  | .record w =>
    if work.stage = (if plan.effectType.isExternal then .replied else .reserved) then
      some { s.setStage w .recorded with tables := s.recordOutcome plan }
    else none
  | .raise w permanent delay =>
    match work.stage with
    | .claimed | .reserved | .authorized | .called | .replied | .recorded =>
      some (s.setStage w (.raised permanent delay))
    | _ => none
  | .complete w =>
    if work.stage = .recorded then
      match s.tables.settle work.owner work.effect s.clock Tables.completed with
      | some tables => some { s.setStage w .ended with tables := tables }
      | none => some (s.setStage w .ended)
    else none
  | .fail w =>
    match work.stage with
    | .raised permanent delay =>
      match s.tables.settle work.owner work.effect s.clock
          (Tables.failed permanent delay work.attempt s.clock) with
      | some tables => some { s.setStage w .ended with tables := tables }
      | none => some (s.setStage w .ended)
    | _ => none
  | .abandon w => some (s.setStage w .ended)
  | _ => none

def stepWorker (w : ℕ) (act : Act) : Option State :=
  match s.works[w]? with
  | none => none
  | some work =>
    match s.tables.effects[work.effect]? with
    | none => none
    | some e => s.stepWork work e.plan act

/-- The steps of the database that involve no worker. -/
def stepTables : Act → Option Tables
  | .trigger project => s.tables.trigger project s.clock
  | .acquire run owner => s.tables.onRun run fun row => row.acquire owner s.clock
  | .renew run owner => s.tables.onRun run fun row => row.renew owner s.clock
  | .update run owner status phase =>
    if isSupervised status then s.tables.onRun run fun row => row.update status phase owner s.clock
    else none
  | .persist run owner agentName produces output needsApproval =>
    if s.mayPersist run agentName output then
      s.tables.persistResult run agentName produces output needsApproval owner s.clock
    else none
  | .quarantine run => s.tables.onRun run fun row => row.quarantine s.clock
  | .requeue => some (s.tables.requeueExpiredRuns s.clock)
  | .enqueue q => (s.tables.enqueueApprovalCommand q s.clock).toOption.map Prod.fst
  | .cancel run project => s.tables.cancelRun run project s.clock
  | .propose project proposalId => some (s.tables.enqueueProposal project proposalId s.clock)
  | .halt run proposalId =>
    some (s.tables.markFailed run (s.projectOf run) proposalId s.clock)
  | _ => none

def step (act : Act) : Option State :=
  match act with
  | .tick duration => some { s with clock := s.clock + duration }
  | .claimProposals run ids =>
    if run < s.tables.runs.length then
      some { s with
        tables := s.tables.claimProposals run (s.projectOf run) ids s.clock
        claimed := s.claimed ++
          (s.tables.claimable run (s.projectOf run) ids).map fun id => (run, id) }
    else none
  | .claim owner i =>
    if s.works.all fun work => decide (work.owner = owner → work.stage = .ended) then
      match s.tables.claimEffect owner i s.clock, s.tables.effects[i]? with
      | some tables, some e =>
        some { s with
          tables := tables, works := s.works ++ [⟨owner, i, e.attemptCount + 1, .claimed⟩] }
      | _, _ => none
    else none
  | .deliver i accepted =>
    match s.calls[i]? with
    | none => none
    | some effect =>
      some { s with
        calls := s.calls.eraseIdx i
        created := if accepted && !s.created.contains effect then s.created ++ [effect]
          else s.created }
  | .reserve w | .authorize w | .send w | .reply w | .record w | .raise w _ _ | .complete w | .fail w
  | .abandon w => s.stepWorker w act
  | _ => (s.stepTables act).map fun tables => { s with tables := tables }

/-- Empty tables. -/
def initial : State := ⟨0, ⟨[], [], [], [], []⟩, [], [], [], [], [], []⟩

end State

/-- The approval service. -/
def machine : StepMachine State Act := ⟨State.initial, State.step⟩

end Apdl.Agents.Approval
