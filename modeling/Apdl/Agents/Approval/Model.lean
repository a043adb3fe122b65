import Apdl.Agents.Lease.Model
import Apdl.Config.Schemas
import Mathlib.Algebra.Group.Nat.Defs
import Mathlib.Data.List.Sort

set_option autoImplicit false

/-!
# Approval commands and their effects

An agent result that needs approval leaves a gate in `agent_run_results`, and the run waits. A human
decides on every item of the gate; `enqueue_approval_command` checks the request against the persisted
gate and stores a command, its decisions and the effects that carry them out. This file models the
tables and that transaction.

## Main definitions

* `Tables`, `Tables.enqueueApprovalCommand` — the database, and the transaction of a request.

## Design

Rows are numbered in the order they are inserted; the number of a row stands for its UUID. The
request digest is collision-free, so a command stores the request it was computed from. The JSON of
an item is read as far as `approval_effects.py` reads it: a field that is absent or has another type
is `none`. Audit records are left out, since no statement reads them.
-/

namespace Apdl.Agents.Approval

/-! ## Gates -/

/-- The agents whose gates can be decided: the keys of `_GATE_RESULT_KEY`. -/
inductive GateAgent
  | experimentDesign
  | featureProposal
  | codeImplementation
  deriving DecidableEq, Repr

def GateAgent.name : GateAgent → String
  | .experimentDesign => "experiment_design"
  | .featureProposal => "feature_proposal"
  | .codeImplementation => "code_implementation"

/-- `_GATE_RESULT_KEY`. -/
def GateAgent.produces : GateAgent → String
  | .experimentDesign => "experiment_designs"
  | .featureProposal => "feature_proposals"
  | .codeImplementation => "changesets"

def GateAgent.phase (gate : GateAgent) : String := gate.name ++ "_approval"

/-- The agent of a phase that ends in `_approval`, if it has a gate. -/
def gateOfPhase (phase : String) : Option GateAgent :=
  [GateAgent.experimentDesign, .featureProposal, .codeImplementation].find?
    fun gate => decide (gate.phase = phase)

/-- `safety_result` of an item. -/
structure SafetyResult where
  passed : Option Bool
  checks : Bool
  riskLevel : Option String
  evidenceComplete : Option Bool
  requiresApproval : Option Bool
  deriving DecidableEq, Repr

/-- An item of a gate. `flagKey` and `treatmentSpec` are the stripped texts that
`treatment_changeset_task` reads. -/
structure Item where
  experimentId : Option String
  proposalId : Option String
  decision : Option String
  safetyResult : Option SafetyResult
  flagKey : String
  treatmentSpec : String
  deriving DecidableEq, Repr

/-- `metadata.approval_gate`, where the gate id is the run and the agent. -/
structure GateRef where
  gateId : ℕ × String
  agentName : String
  produces : String
  phase : String
  state : String
  commandId : Option ℕ
  deriving DecidableEq, Repr

/-- The gate that `_persist_results` writes. -/
def pendingGate (run : ℕ) (agentName produces : String) : GateRef :=
  ⟨(run, agentName), agentName, produces, agentName ++ "_approval", "pending", none⟩

/-- A row of `agent_run_results`; an entry of `output` that is not an object is `none`. -/
structure ResultRow where
  run : ℕ
  agentName : String
  produces : String
  output : List (Option Item)
  gate : Option GateRef
  deriving DecidableEq, Repr

/-! ## Commands, effects and proposals -/

/-- `ApprovalDecision`. -/
structure Decision where
  itemId : String
  approved : Bool
  deriving DecidableEq, Repr

/-- `agent_approval_commands.status`. -/
inductive CommandStatus
  | queued
  | processing
  | succeeded
  | manualIntervention
  deriving DecidableEq, Repr

/-- A row of `agent_approval_commands`, with its rows of `agent_approval_decisions`. -/
structure CommandRow where
  run : ℕ
  gate : GateAgent
  decisions : List Decision
  comment : Option String
  status : CommandStatus
  resumeStatus : RunStatus
  deriving DecidableEq, Repr

/-- `status IN ('queued', 'processing')`. -/
def CommandRow.isOpen (c : CommandRow) : Bool :=
  decide (c.status = .queued ∨ c.status = .processing)

inductive EffectType
  | stageExperimentDraft
  | openTreatmentChangeset
  | openCodeChangeset
  | recordExperimentRejection
  | recordProposalRejection
  | quarantineFeatureProposal
  deriving DecidableEq, Repr

/-- The effects that call Config or Codegen. -/
def EffectType.isExternal : EffectType → Bool
  | .stageExperimentDraft | .openTreatmentChangeset | .openCodeChangeset => true
  | _ => false

/-- `_CODEGEN_EFFECT_TYPES`. -/
def EffectType.isCodegen : EffectType → Bool
  | .openTreatmentChangeset | .openCodeChangeset => true
  | _ => false

/-- `MutationActionType`, as far as effects use it. -/
inductive QuotaAction
  | createExperiment
  | openPullRequest
  deriving DecidableEq, Repr

/-- `_PlannedEffect`, with the command and the run it is inserted for. -/
structure PlannedEffect where
  command : ℕ
  run : ℕ
  itemId : String
  effectType : EffectType
  effectOrder : ℕ
  dependsOn : Option ℕ
  payload : Item
  quotaAction : Option QuotaAction
  deriving DecidableEq, Repr

/-- `agent_approval_effects.status`; no statement writes `failed`. -/
inductive EffectStatus
  | queued
  | processing
  | retryableFailed
  | succeeded
  | manualIntervention
  deriving DecidableEq, Repr

/-- `max_attempts`, which keeps its default. -/
def maxAttempts : ℕ := 8

/-- A row of `agent_approval_effects`; the lease is its owner and its expiry. -/
structure EffectRow where
  plan : PlannedEffect
  status : EffectStatus
  attemptCount : ℕ
  nextAttemptAt : ℕ
  lease : Option (ℕ × ℕ)
  deriving DecidableEq, Repr

/-- `status IN ('processing', 'retryable_failed')`. -/
def EffectRow.isPending (e : EffectRow) : Bool :=
  decide (e.status = .processing ∨ e.status = .retryableFailed)

/-- `status IN ('queued', 'processing', 'retryable_failed')`. -/
def EffectRow.isLive (e : EffectRow) : Bool := decide (e.status = .queued) || e.isPending

/-- `feature_proposals.status`. -/
inductive ProposalStatus
  | approved
  | implementing
  | implemented
  | failed
  deriving DecidableEq, Repr

/-- A row of `feature_proposals`. -/
structure ProposalRow where
  project : String
  proposalId : String
  status : ProposalStatus
  claimRun : Option ℕ
  updatedAt : ℕ
  deriving DecidableEq, Repr

/-- A row of `agent_runs`. -/
structure Run where
  project : String
  row : Lease.RunRow
  deriving DecidableEq, Repr

/-! ## Planning -/

/-- `value == value.strip()`, on a text that is not empty. -/
def isStripped (value : String) : Bool :=
  (value.toList.head?.any fun c => !Config.isSpacePoint c.toNat) &&
    (value.toList.getLast?.any fun c => !Config.isSpacePoint c.toNat)

def canonicalItemId (gate : GateAgent) (item : Item) : Option String :=
  let value := if gate = .experimentDesign then item.experimentId else item.proposalId
  value.filter fun v => isStripped v && decide (v.length ≤ 128)

/-- `safety.get("passed") is True`. -/
def Item.safetyPassed (item : Item) : Bool :=
  match item.safetyResult with
  | some safety => decide (safety.passed = some true)
  | none => false

/-- `_experiment_stageable` and `_changeset_openable`, which are the same test. -/
def Item.isActionable (item : Item) : Bool :=
  decide (item.decision = some "approve") && item.safetyPassed

/-- `treatment_changeset_task(item) is not None`. -/
def Item.hasTreatmentTask (item : Item) : Bool :=
  decide (item.flagKey ≠ "") && decide (item.treatmentSpec ≠ "")

def validateGateItemContract (gate : GateAgent) (item : Item) : Bool :=
  match gate, item.safetyResult with
  | .featureProposal, _ => true
  | _, none => false
  | _, some safety =>
    decide (item.decision = some "approve" ∨ item.decision = some "halt") &&
    safety.passed.isSome && safety.checks &&
    decide (safety.riskLevel = some "low" ∨ safety.riskLevel = some "medium" ∨
      safety.riskLevel = some "high") &&
    (decide (gate ≠ .experimentDesign) ||
      (safety.evidenceComplete.isSome && decide (safety.requiresApproval = some true)))

/-- The effects of one decision; `base` is the number of the first of them. -/
def planDecision (gate : GateAgent) (run command base order : ℕ) (item : Item) (d : Decision) :
    List PlannedEffect :=
  let plan (effectType : EffectType) (order : ℕ) (dependsOn : Option ℕ) (quota : Option QuotaAction) :=
    PlannedEffect.mk command run d.itemId effectType order dependsOn item quota
  match gate with
  | .experimentDesign =>
    if d.approved && item.isActionable then
      plan .stageExperimentDraft order none (some .createExperiment) ::
        if item.hasTreatmentTask then
          [plan .openTreatmentChangeset (order + 1) (some base) (some .openPullRequest)]
        else []
    else [plan .recordExperimentRejection order none none]
  | .codeImplementation =>
    if d.approved && item.isActionable then
      [plan .openCodeChangeset order none (some .openPullRequest)]
    else [plan .recordProposalRejection order none none]
  | .featureProposal =>
    if d.approved then [plan .quarantineFeatureProposal order none none]
    else [plan .recordProposalRejection order none none]

/-- `_plan_effects`, from the decision with the given index on. Every decision names an item: the
request was compared with the gate. -/
def planEffects (gate : GateAgent) (run command : ℕ) (items : List (String × Item)) :
    ℕ → ℕ → List Decision → List PlannedEffect
  | _, _, [] => []
  | index, base, d :: ds =>
    match items.lookup d.itemId with
    | none => planEffects gate run command items (index + 1) base ds
    | some item =>
      let effects := planDecision gate run command base (index * 10) item d
      effects ++ planEffects gate run command items (index + 1) (base + effects.length) ds

/-! ## The transaction of a request -/

/-- The exceptions of `enqueue_approval_command`; `database` is a violated constraint. -/
inductive ApprovalError
  | runNotFound
  | gateConflict
  | decisions
  | capability
  | database
  deriving DecidableEq, Repr

/-- The arguments of `enqueue_approval_command`. -/
structure ApprovalRequest where
  run : ℕ
  project : String
  decisions : List Decision
  comment : Option String
  codegenAvailable : Bool
  deriving DecidableEq, Repr

/-- The decisions in the order in which the digest reads them. -/
def sortedDecisions (decisions : List Decision) : List Decision :=
  decisions.insertionSort fun a b => a.itemId ≤ b.itemId

/-- `request_sha256`, of a request for the run of the command. -/
def CommandRow.hasDigest (c : CommandRow) (decisions : List Decision) (comment : Option String) :
    Bool :=
  decide (sortedDecisions c.decisions = sortedDecisions decisions ∧ c.comment = comment)

structure Tables where
  runs : List Run
  results : List ResultRow
  commands : List CommandRow
  effects : List EffectRow
  proposals : List ProposalRow
  deriving DecidableEq, Repr

namespace Tables

variable (t : Tables)

def statusOf (run : ℕ) : Option RunStatus := t.runs[run]?.map fun r => r.row.status

def setRun (run : ℕ) (f : Run → Run) : Tables := { t with runs := t.runs.modify run f }

def result (run : ℕ) (agentName : String) : Option ResultRow :=
  t.results.find? fun r => decide (r.run = run ∧ r.agentName = agentName)

/-- The number of the command that an equal request has stored. -/
def replayed (q : ApprovalRequest) : Option ℕ :=
  t.commands.findIdx? fun c => decide (c.run = q.run) && c.hasDigest q.decisions q.comment

/-- `items_by_id`, or the conflict of an item that is no object, has no canonical id, breaks its
contract or repeats an id. -/
def itemsById (gate : GateAgent) :
    List (Option Item) → List (String × Item) → Option (List (String × Item))
  | [], found => some found
  | none :: _, _ => none
  | some item :: rest, found =>
    match canonicalItemId gate item with
    | none => none
    | some id =>
      if validateGateItemContract gate item && (found.lookup id).isNone then
        itemsById gate rest (found ++ [(id, item)])
      else none

/-- The gate that the run waits at: its agent and its items, if the persisted reference is the
pending one. -/
def waitingGate (run : ℕ) : Except ApprovalError (GateAgent × List (String × Item)) :=
  match t.runs[run]? with
  | none => .error .runNotFound
  | some r =>
    if r.row.status ≠ .waitingApproval then .error .gateConflict else
    match gateOfPhase r.row.phase with
    | none => .error .gateConflict
    | some gate =>
      match t.result run gate.name with
      | none => .error .gateConflict
      | some result =>
        if result.produces ≠ gate.produces ∨
            result.gate ≠ some (pendingGate run gate.name gate.produces) ∨ result.output = [] then
          .error .gateConflict
        else
          match itemsById gate result.output [] with
          | none => .error .gateConflict
          | some items => .ok (gate, items)

/-- The constraints of `agent_approval_commands` and `agent_approval_decisions` on a new row. -/
def admitsCommand (q : ApprovalRequest) (gate : GateAgent) : Bool :=
  (t.commands.all fun c => !decide (c.run = q.run ∧ c.gate = gate)) &&
  decide (1 ≤ q.decisions.length ∧ q.decisions.length ≤ 100) &&
  decide ((q.comment.getD "").length ≤ 2000) &&
  decide ((q.decisions.map Decision.itemId).Nodup)

def resumeStatus (decisions : List Decision) : RunStatus :=
  if decisions.any Decision.approved then .approved else .rejected

/-- The rows that a new command inserts, and the gate and the run that it updates. -/
def insertCommand (q : ApprovalRequest) (gate : GateAgent) (planned : List PlannedEffect) (now : ℕ) :
    Tables :=
  let command := t.commands.length
  let toQueue (r : Run) : Run :=
    { r with row := (r.row.approval .waitingApproval .approvalQueued r.row.phase now).getD r.row }
  { t.setRun q.run toQueue with
    commands := t.commands ++
      [⟨q.run, gate, q.decisions, q.comment, .queued, resumeStatus q.decisions⟩]
    effects := t.effects ++ planned.map fun plan => ⟨plan, .queued, 0, now, none⟩
    results := t.results.map fun r =>
      if r.run = q.run ∧ r.agentName = gate.name then
        let queued : GateRef :=
          { pendingGate q.run gate.name gate.produces with
            state := "queued", commandId := some command }
        { r with gate := some queued }
      else r }

/-- `enqueue_approval_command`: the tables after it and the number of the command it returns. An
equal request is answered with the stored command before the run is looked at. -/
def enqueueApprovalCommand (q : ApprovalRequest) (now : ℕ) : Except ApprovalError (Tables × ℕ) :=
  match t.runs[q.run]? with
  | none => .error .runNotFound
  | some r =>
    if r.project ≠ q.project then .error .runNotFound else
    match t.replayed q with
    | some command => .ok (t, command)
    | none =>
      match t.waitingGate q.run with
      | .error e => .error e
      | .ok (gate, items) =>
        let ids := q.decisions.map Decision.itemId
        if !(ids.all fun id => (items.lookup id).isSome) ||
            !(items.all fun item => ids.contains item.1) then
          .error .decisions
        else
          let command := t.commands.length
          let planned := planEffects gate q.run command items 0 t.effects.length q.decisions
          if !q.codegenAvailable && planned.any fun e => e.effectType.isCodegen then
            .error .capability
          else if t.admitsCommand q gate then
            .ok (t.insertCommand q gate planned now, command)
          else .error .database

end Tables

end Apdl.Agents.Approval
