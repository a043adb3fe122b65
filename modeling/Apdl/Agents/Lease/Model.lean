import Apdl.Lib.StepMachine
import Mathlib.Logic.Function.Basic
import Mathlib.Order.Basic

set_option autoImplicit false

/-!
# Leases of agent runs

Supervisors on any number of replicas compete for the row of a run in `agent_runs`. This file models
the statements of `run_leases.py` and `supervisor.py` on one row, and the supervisors that send them:
the heartbeat task that renews the lease, and the task that runs agents and writes their results.

## Main definitions

* `State`, `Act`, `machine` — replicas, statements on their way, and the row.

## Design

Times are in microseconds of one clock: a supervisor measures differences of its own clock only.
Every statement is a transaction of its own, which the database runs at one moment. A claim or a
renewal may run at any time after it was sent, also when its sender has given up; its reply may come
at any later time, or not at all. A write of a supervisor runs while the supervisor waits for it, and
the reply may be lost. A process may stop at any point.

The agents themselves are not modelled: an agent or a hook is work that lasts until it ends, raises
or is cancelled. The counters of `agent_runs` are left out, since no statement reads them.
-/

namespace Apdl.Agents

/-- `agent_runs_status_check`. -/
inductive RunStatus
  | started
  | running
  | waitingApproval
  | approvalQueued
  | cancelling
  | approved
  | rejected
  | completed
  | completedWithErrors
  | failed
  | cancelled
  | manualIntervention
  deriving DecidableEq, Repr

/-- `execution_lane_project_id` is the project, and not null. -/
def RunStatus.holdsLane : RunStatus → Bool
  | .completed | .completedWithErrors | .failed | .cancelled | .manualIntervention => false
  | _ => true

/-- The run is queued or executed: the test on status and phase in the statements of
`run_leases.py`. -/
def RunStatus.isActive (status : RunStatus) (phase : String) : Bool :=
  decide (status = .started ∨ status = .running) ||
    (decide (phase = "resuming") && decide (status = .approved ∨ status = .rejected))

namespace Lease

/-! ## Constants -/

def second : ℕ := 1000000

/-- `RUN_LEASE_SECONDS`. -/
def runLease : ℕ := 5 * 60 * second

/-- `RUN_HEARTBEAT_SECONDS`. -/
def runHeartbeat : ℕ := 30 * second

/-- `RUN_LEASE_EXPIRY_SAFETY_SECONDS`. -/
def runLeaseExpirySafety : ℕ := 5 * second

/-- `RUN_RECOVERY_GRACE_SECONDS`. -/
def runRecoveryGrace : ℕ := runHeartbeat + runLeaseExpirySafety

/-- `LEGACY_RUN_STALE_SECONDS`. -/
def legacyRunStale : ℕ := 24 * 60 * 60 * second

def confirmedFor : ℕ := runLease - runLeaseExpirySafety

lemma confirmedFor_le : confirmedFor ≤ runLease + runRecoveryGrace := by decide

/-! ## The row -/

/-- The columns of `agent_runs`, and the agents whose results are in `agent_run_results`. -/
structure RunRow where
  status : RunStatus
  phase : String
  leaseOwner : Option ℕ
  leaseExpiresAt : Option ℕ
  updatedAt : ℕ
  results : List String
  deriving DecidableEq, Repr

namespace RunRow

variable (row : RunRow)

/-- The run is queued or executed. -/
def isActive : Bool := row.status.isActive row.phase

/-- `lease_expires_at <= now() - grace`, where an expiry is set. -/
def isAbandoned (now : ℕ) : Bool :=
  match row.leaseExpiresAt with
  | some expiresAt => decide (expiresAt + runRecoveryGrace ≤ now)
  | none => false

/-- `lease_owner_id = owner AND lease_expires_at > now()` on a run that holds its lane. -/
def isOwnedBy (owner now : ℕ) : Bool :=
  row.status.holdsLane && decide (row.leaseOwner = some owner) &&
    match row.leaseExpiresAt with
    | some expiresAt => decide (now < expiresAt)
    | none => false

/-- `acquire_run_lease`; `none` if no row matches. -/
def acquire (owner now : ℕ) : Option RunRow :=
  if row.status.holdsLane && row.isActive && (row.leaseOwner.isNone || row.isAbandoned now) then
    some { row with
      leaseOwner := some owner, leaseExpiresAt := some (now + runLease), updatedAt := now }
  else none

/-- `renew_run_lease`. -/
def renew (owner now : ℕ) : Option RunRow :=
  if row.isOwnedBy owner now && row.isActive then
    some { row with leaseExpiresAt := some (now + runLease), updatedAt := now }
  else none

/-- `_update_run`: every status but `running` gives the lease up. -/
def update (status : RunStatus) (phase : String) (owner now : ℕ) : Option RunRow :=
  if row.isOwnedBy owner now then
    some { row with
      status := status, phase := phase, updatedAt := now
      leaseOwner := if status = .running then row.leaseOwner else none
      leaseExpiresAt := if status = .running then row.leaseExpiresAt else none }
  else none

/-- `_persist_results`. -/
def persist (agent : String) (owner now : ℕ) : Option RunRow :=
  if row.isOwnedBy owner now then
    some { row with results := if agent ∈ row.results then row.results else row.results ++ [agent] }
  else none

/-- `requeue_expired_runs`, on the row of a run. -/
def requeue (now : ℕ) : Option RunRow :=
  let legacy := row.leaseExpiresAt.isNone && decide (row.updatedAt + legacyRunStale ≤ now)
  if row.isActive && row.status.holdsLane && row.leaseOwner.isSome &&
      (row.isAbandoned now || legacy) then
    some { row with leaseOwner := none, leaseExpiresAt := none, updatedAt := now }
  else none

/-- `cancel_run`; `pending` says that effects of the run are processed or to be retried. -/
def cancel (pending : Bool) (phase : String) (now : ℕ) : Option RunRow :=
  if row.status.holdsLane then
    some { row with
      status := if pending then .cancelling else .cancelled
      phase := phase, leaseOwner := none, leaseExpiresAt := none, updatedAt := now }
  else none

/-- `_quarantine_invalid_run`. -/
def quarantine (now : ℕ) : Option RunRow :=
  if row.status.holdsLane && row.leaseOwner.isNone && row.isActive then
    some { row with
      status := .failed, phase := "invalid_config", leaseOwner := none, leaseExpiresAt := none
      updatedAt := now }
  else none

/-- The approval of a gate moves the run to its next status, without an owner. -/
def approval (expected next : RunStatus) (phase : String) (now : ℕ) : Option RunRow :=
  if row.status = expected then
    some { row with
      status := next, phase := phase, leaseOwner := none, leaseExpiresAt := none, updatedAt := now }
  else none

end RunRow

/-! ## Supervisors -/

/-- A renewal that was sent, with its result once the database has run it. -/
structure Renewal where
  owner : ℕ
  startedAt : ℕ
  result : Option Bool
  deriving DecidableEq, Repr

/-- What the task of `_run_owned_supervisor` is doing. -/
inductive Activity
  /-- Between two agents, or before the first one. -/
  | between
  /-- In `_update_run`; `guarded` inside the handler of an agent. -/
  | updating (status : RunStatus) (phase : String) (guarded : Bool) (committed : Option Bool)
  /-- In `agent.run`. -/
  | running
  /-- The agent has returned. -/
  | ran
  /-- In `_persist_results`. -/
  | persisting (agent : String) (committed : Option Bool)
  /-- The result is stored. -/
  | persisted
  /-- In `after_result_persisted`. -/
  | hooking
  /-- The hook has returned, or there is none. -/
  | settled
  /-- In the last handler, which marks the run failed. -/
  | failing
  deriving DecidableEq, Repr

/-- The life of a call of `run_supervisor`. -/
inductive Stage
  | unused
  | claiming
  | owned
  | ended
  deriving DecidableEq, Repr

/-- One call of `run_supervisor`, with the result of its claim once the database has run it. -/
structure Supervisor where
  stage : Stage
  claimStartedAt : ℕ
  claim : Option Bool
  confirmedUntil : ℕ
  wakeAt : ℕ
  renewal : Option ℕ
  lost : Bool
  activity : Activity
  deriving DecidableEq, Repr

/-- A call that has not begun. -/
def Supervisor.unused : Supervisor :=
  ⟨.unused, 0, none, 0, 0, none, false, .between⟩

/-- The row, the supervisors by their owner ids, and the renewals that were sent. Two fields record
history: who acquired the run, the last one first, and who gave it up. -/
structure State where
  clock : ℕ
  row : RunRow
  supervisors : ℕ → Supervisor
  renewals : List Renewal
  acquirers : List ℕ
  released : List ℕ

/-- The actions. -/
inductive Act
  /-- Time passes. -/
  | tick (duration : ℕ)
  /-- `run_supervisor` begins and sends its claim. -/
  | dispatch (a : ℕ)
  /-- The database runs the claim. -/
  | acquire (a : ℕ)
  | claimed (a : ℕ)
  /-- `maintain_run_lease` finds its deadline passed. -/
  | deadline (a : ℕ)
  /-- `maintain_run_lease` sends a renewal. -/
  | renew (a : ℕ)
  | renewRow (i : ℕ)
  | renewed (a : ℕ)
  | renewFails (a : ℕ)
  | renewTimeout (a : ℕ)
  /-- `_update_run` is called. -/
  | update (a : ℕ) (status : RunStatus) (phase : String)
  /-- `_persist_results` is called. -/
  | persist (a : ℕ) (agent : String)
  /-- The database runs the write that a supervisor waits for. -/
  | commit (a : ℕ)
  /-- The reply to the write. -/
  | answer (a : ℕ)
  | writeFails (a : ℕ)
  /-- The work goes on: an agent or a hook ends, a hook begins, the next agent is considered. -/
  | advance (a : ℕ) (next : Activity)
  /-- The supervisor ends: its process stops, its work was cancelled, or it finds the lease lost. -/
  | stop (a : ℕ)
  /-- `cancel_run`. -/
  | cancel (pending : Bool) (phase : String)
  /-- `requeue_expired_runs`. -/
  | requeue
  /-- `_quarantine_invalid_run`. -/
  | quarantine
  /-- `enqueue_approval_command`. -/
  | enqueue
  /-- The effects of the command have succeeded. -/
  | resume (approved : Bool)
  | intervene
  /-- The effects of a cancelled run are settled. -/
  | reconcile
  deriving DecidableEq, Repr

namespace State

variable (s : State)

/-- One supervisor changes. -/
def set (a : ℕ) (v : Supervisor) : State := { s with supervisors := Function.update s.supervisors a v }

/-- The next waiting time of the heartbeat. -/
def nextWake (confirmedUntil : ℕ) : ℕ := s.clock + min runHeartbeat (confirmedUntil - s.clock)

end State

/-- Which status the supervisor may write next: `running` between agents while the lease is not
lost, the gate of an agent, the outcome of the run, or failure. -/
def Supervisor.mayUpdate (v : Supervisor) (status : RunStatus) : Bool :=
  match v.activity, status with
  | .between, .running => !v.lost
  | .between, .waitingApproval | .between, .completed | .between, .completedWithErrors => true
  | .between, .failed | .failing, .failed => true
  | .settled, .waitingApproval => !v.lost
  | _, _ => false

/-- What the supervisor may go on to without the database: an agent or a hook ends or raises, a hook
is called, the next agent is considered. -/
def Supervisor.mayAdvance (v : Supervisor) (next : Activity) : Bool :=
  match v.activity, next with
  | .running, .ran | .running, .between => true
  | .persisted, .hooking | .persisted, .settled => !v.lost
  | .hooking, .settled | .hooking, .between => true
  | .settled, .between => !v.lost
  | _, _ => false

/-- What follows an exception of a write. -/
def Activity.afterFailure : Activity → Option Activity
  | .updating _ _ true _ => some .between
  | .updating .failed _ false _ => none
  | .updating _ _ false _ => some .failing
  | _ => none

namespace State

variable (s : State)

/-- The steps of the database on claims and renewals. -/
def stepLease : Act → Option State
  | .acquire a =>
    let v := s.supervisors a
    if v.stage ≠ .unused ∧ v.claim = none then
      match s.row.acquire a s.clock with
      | some row =>
        some { s.set a { v with claim := some true } with row := row, acquirers := a :: s.acquirers }
      | none => some (s.set a { v with claim := some false })
    else none
  | .renewRow i =>
    match s.renewals[i]? with
    | some r =>
      if r.result = none then
        match s.row.renew r.owner s.clock with
        | some row =>
          some { s with row := row, renewals := s.renewals.set i { r with result := some true } }
        | none => some { s with renewals := s.renewals.set i { r with result := some false } }
      else none
    | none => none
  | _ => none

/-- The step of the database on the write of a supervisor. -/
def stepCommit (a : ℕ) : Option State :=
  let v := s.supervisors a
  if v.stage = .owned then
    match v.activity with
    | .updating status phase guarded none =>
      match s.row.update status phase a s.clock with
      | some row =>
        some { s.set a { v with activity := .updating status phase guarded (some true) } with
          row := row
          released := if status = .running then s.released else a :: s.released }
      | none => some (s.set a { v with activity := .updating status phase guarded (some false) })
    | .persisting agent none =>
      match s.row.persist agent a s.clock with
      | some row => some { s.set a { v with activity := .persisting agent (some true) } with row := row }
      | none => some (s.set a { v with activity := .persisting agent (some false) })
    | _ => none
  else none

/-- `maintain_run_lease`, and the reply to the claim. -/
def heartbeat (v : Supervisor) : Act → Option Supervisor
  | .claimed _ =>
    if v.stage = .claiming then
      match v.claim with
      | some true =>
        let confirmedUntil := v.claimStartedAt + confirmedFor
        some { v with
          stage := .owned, confirmedUntil := confirmedUntil, wakeAt := s.nextWake confirmedUntil
          activity := .between }
      | some false => some { v with stage := .ended }
      | none => none
    else none
  | .deadline _ =>
    if v.stage = .owned ∧ v.renewal = none ∧ v.confirmedUntil ≤ s.clock then
      some { v with lost := true }
    else none
  | .renewed a =>
    match v.renewal.bind fun i => s.renewals[i]? with
    | some r =>
      if v.stage = .owned ∧ v.lost = false ∧ r.owner = a then
        match r.result with
        | some true =>
          let confirmedUntil := r.startedAt + confirmedFor
          some { v with
            renewal := none, confirmedUntil := confirmedUntil, wakeAt := s.nextWake confirmedUntil }
        | some false => some { v with renewal := none, lost := true }
        | none => none
      else none
    | none => none
  | .renewFails _ =>
    if v.stage = .owned ∧ v.lost = false ∧ v.renewal.isSome then
      if v.confirmedUntil ≤ s.clock then some { v with renewal := none, lost := true }
      else some { v with renewal := none, wakeAt := s.nextWake v.confirmedUntil }
    else none
  | .renewTimeout _ =>
    if v.stage = .owned ∧ v.renewal.isSome ∧ v.confirmedUntil ≤ s.clock then
      some { v with renewal := none, lost := true }
    else none
  | _ => none

/-- `_run_owned_supervisor`. -/
def supervise (v : Supervisor) : Act → Option Supervisor
  | .update _ status phase =>
    if v.stage = .owned ∧ v.mayUpdate status then
      some { v with
        activity := .updating status phase (decide (v.activity = .settled)) none }
    else none
  | .persist _ agent =>
    if v.stage = .owned ∧ v.activity = .ran ∧ v.lost = false then
      some { v with activity := .persisting agent none }
    else none
  | .answer _ =>
    if v.stage = .owned then
      match v.activity with
      | .updating status _ _ (some true) =>
        if status = .running then some { v with activity := .running } else some { v with stage := .ended }
      | .persisting _ (some true) => some { v with activity := .persisted }
      | .updating _ _ _ (some false) | .persisting _ (some false) => some { v with stage := .ended }
      | _ => none
    else none
  | .writeFails _ =>
    if v.stage = .owned then
      match v.activity with
      | .updating _ _ _ _ | .persisting _ _ =>
        match v.activity.afterFailure with
        | some next => some { v with activity := next }
        | none => some { v with stage := .ended }
      | _ => none
    else none
  | .advance _ next =>
    if v.stage = .owned ∧ v.mayAdvance next then some { v with activity := next } else none
  | .stop _ =>
    if v.stage = .claiming ∨ v.stage = .owned then some { v with stage := .ended } else none
  | _ => none

/-- The statements of the other parts of the service on the row. -/
def stepRow : Act → Option RunRow
  | .cancel pending phase => s.row.cancel pending phase s.clock
  | .requeue => s.row.requeue s.clock
  | .quarantine => s.row.quarantine s.clock
  | .enqueue => s.row.approval .waitingApproval .approvalQueued s.row.phase s.clock
  | .resume approved =>
    s.row.approval .approvalQueued (if approved then .approved else .rejected) "resuming" s.clock
  | .intervene => s.row.approval .approvalQueued .manualIntervention s.row.phase s.clock
  | .reconcile => s.row.approval .cancelling .cancelled "cancelled" s.clock
  | _ => none

def step (act : Act) : Option State :=
  match act with
  | .tick duration => some { s with clock := s.clock + duration }
  | .dispatch a =>
    if (s.supervisors a).stage = .unused then
      some (s.set a { Supervisor.unused with stage := .claiming, claimStartedAt := s.clock })
    else none
  | .acquire _ | .renewRow _ => s.stepLease act
  | .commit a => s.stepCommit a
  | .renew a =>
    let v := s.supervisors a
    if v.stage = .owned ∧ v.lost = false ∧ v.renewal = none ∧ v.wakeAt ≤ s.clock ∧
        s.clock < v.confirmedUntil then
      some { s.set a { v with renewal := some s.renewals.length } with
        renewals := s.renewals ++ [⟨a, s.clock, none⟩] }
    else none
  | .claimed a | .deadline a | .renewed a | .renewFails a | .renewTimeout a =>
    (s.heartbeat (s.supervisors a) act).map (s.set a)
  | .update a _ _ | .persist a _ | .answer a | .writeFails a | .advance a _ | .stop a =>
    (supervise (s.supervisors a) act).map (s.set a)
  | .cancel _ _ | .requeue | .quarantine | .enqueue | .resume _ | .intervene | .reconcile =>
    (s.stepRow act).map fun row => { s with row := row }

/-- A run as the trigger inserts it, before any supervisor. -/
def initial : State :=
  ⟨0, ⟨.started, "initializing", none, none, 0, []⟩, fun _ => .unused, [], [], []⟩

end State

/-- The run and its supervisors. -/
def machine : StepMachine State Act := ⟨State.initial, State.step⟩

/-- The result of the write that the supervisor waits for, once the database has run it: whether it
matched the row. -/
def Activity.committed : Activity → Option Bool
  | .updating _ _ _ committed | .persisting _ committed => committed
  | _ => none

/-- The supervisor has an agent or a hook running. -/
def Supervisor.isWorking (v : Supervisor) : Bool :=
  decide (v.stage = .owned) && decide (v.activity = .running ∨ v.activity = .hooking)

/-- The supervisor regards the run as leased: before its confirmed deadline, and before it has
observed the loss. -/
def State.regardsLeased (s : State) (a : ℕ) : Bool :=
  decide (s.clock < (s.supervisors a).confirmedUntil) && !(s.supervisors a).lost

end Lease

end Apdl.Agents
