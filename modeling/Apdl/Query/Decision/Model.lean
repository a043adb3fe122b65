import Apdl.Pipeline.Frontier.Model
import Apdl.Query.Arms

set_option autoImplicit false

/-!
# Experiment decisions

`experiment_results` and `completeness.py` of the query service: requests for the results of
experiments that run concurrently with each other and with the event pipeline of their project.

## Main definitions

* `boundaryTransaction`, `readWatermark` — `get_or_create_experiment_boundary`.
* `persistTransaction` — `persist_experiment_snapshot`.
* `early`, `analyzed`, `verified` — the parts of `experiment_results` between its awaits.
* `machine` — the requests, the tables and the pipeline.

## Design

A request is a stage and what it remembers; its transactions, its queries and the time it reads are
actions, with the outcome and the rows that came back. The boundary row is locked until its
transaction ends, and a request that creates it finds it pending, so only the watermark is read in a
step of its own. The rows of `experiment_analysis_boundaries` are joined with those of the pipeline,
which have the publication state, by their token. The statistics, JSON texts and digests are those
of a `Runtime`.
-/

namespace Apdl.Query.Decision

open Pipeline (Token MarkerState)
open PyValue (Fields field)
open Arms

/-! ## The experiment -/

inductive ExperimentStatus
  | scheduled
  | running
  | completed
  | stopped
  deriving DecidableEq

structure StatisticalPlan where
  significanceLevel : PyFloat
  requiredSampleSizePerArm : ℤ
  dataSettlementSeconds : ℤ
  deriving DecidableEq

/-- What the config service says of an experiment; instants are microseconds since 1970-01-01. -/
structure ConfigExperimentAnalysis where
  key : Text
  version : ℕ
  flagKey : Text
  metricEvent : Text
  status : ExperimentStatus
  controlVariant : Text
  variants : List Text
  statisticalPlan : StatisticalPlan
  startDate : ℤ
  endDate : ℤ
  /-- `validate_contract` -/
  unique : variants.Nodup
  control_mem : controlVariant ∈ variants
  start_lt : startDate < endDate
  deriving DecidableEq

/-- A decision: the experiment, its arms and the comparisons with the control. -/
structure DecisionSnapshot (κ : Type) where
  metadata : ConfigExperimentAnalysis
  aggregation : Aggregation
  comparisons : List κ

/-- What the code takes from the standard library and from other packages. -/
structure Runtime (κ π : Type) where
  sha256 : String → String
  /-- The canonical JSON text of a boundary: key, version, start and end of the window. -/
  boundaryJson : Text → ℕ → ℤ → ℤ → String
  /-- `_canonical_snapshot_json`, the cast to `jsonb`, and `model_validate`. -/
  snapshotJson : DecisionSnapshot κ → String
  jsonb : String → π
  modelValidate : π → Option (DecisionSnapshot κ)
  /-- `_comparison`: `none` when a statistic is not finite. -/
  comparison : ExperimentArmResult → ExperimentArmResult → ℕ → PyFloat → Option κ

variable {κ π : Type}

/-- `boundary_token`. -/
def Runtime.boundaryToken (rt : Runtime κ π) (m : ConfigExperimentAnalysis) : Token :=
  rt.sha256 (rt.boundaryJson m.key m.version m.startDate m.endDate)

/-- A row of `experiment_analysis_boundaries`, without its publication state. -/
structure BoundaryRow where
  experimentKey : Text
  configVersion : ℕ
  windowStart : ℤ
  windowEnd : ℤ
  markerToken : Token
  deriving DecidableEq

/-- A row of `experiment_analysis_snapshots`. -/
structure SnapshotRow (π : Type) where
  experimentKey : Text
  configVersion : ℕ
  boundaryStreamId : Pipeline.StreamId
  snapshotPayload : π
  snapshotSha256 : String

/-- `_SHA256_PATTERN`. -/
def isSha256 (digest : String) : Bool :=
  digest.length = 64 && digest.toList.all fun c =>
    ('0' ≤ c && c ≤ '9') || ('a' ≤ c && c ≤ 'f')

/-- `_validate_snapshot_payload`; `none` when it raises. -/
def Runtime.validateSnapshotPayload (rt : Runtime κ π) (row : SnapshotRow π) :
    Option (DecisionSnapshot κ) :=
  if isSha256 row.snapshotSha256 then
    (rt.modelValidate row.snapshotPayload).filter fun snapshot =>
      decide (rt.sha256 (rt.snapshotJson snapshot) = row.snapshotSha256)
  else none

/-- The row of a snapshot. -/
def Runtime.snapshotRow (rt : Runtime κ π) (m : ConfigExperimentAnalysis)
    (boundary : Pipeline.StreamId) (snapshot : DecisionSnapshot κ) : SnapshotRow π :=
  ⟨m.key, m.version, boundary, rt.jsonb (rt.snapshotJson snapshot),
    rt.sha256 (rt.snapshotJson snapshot)⟩

/-! ## Requests -/

inductive AuthorityState
  | pending
  | covered
  | degraded (failureReason : String)
  | quarantined
  deriving DecidableEq

/-- `ExperimentBoundaryAuthority` without a snapshot. -/
structure ExperimentBoundaryAuthority where
  state : AuthorityState
  markerStreamId : Option Pipeline.StreamId
  deriving DecidableEq

inductive Reason
  | experimentNotStarted
  | experimentWindowOpen
  | awaitingDataSettlement
  | experimentRunning
  | experimentStopped
  | noExposures
  | underpoweredArms
  | nonFiniteStatistics
  | identityAliasConflicts
  | unknownVariantExposures
  | dataCompletenessUnverified
  | awaitingPipelineBoundary
  | pipelineBoundaryFailed
  | pipelineDegraded
  | pipelineProvenanceUnavailable
  deriving DecidableEq

inductive Response (κ : Type)
  | nonFinal (reason : Reason) (underpoweredVariants : List Text) (common : Aggregation)
  | snapshot (snapshot : DecisionSnapshot κ)
  | error (exception : HTTPException)

/-- Where a request is. -/
inductive Stage (κ : Type)
  /-- Before the boundary transaction. -/
  | boundary
  /-- The transaction has read a published marker, and no snapshot. -/
  | watermark (marker : Pipeline.StreamId)
  /-- Before the analysis query. -/
  | analysis (authority : Option ExperimentBoundaryAuthority)
  /-- Before the provenance query. -/
  | provenance (marker : Pipeline.StreamId) (aggregation : Aggregation)
  /-- Before the snapshot transaction. -/
  | persist (marker : Pipeline.StreamId) (snapshot : DecisionSnapshot κ)
  | done (response : Response κ)

structure Request (κ : Type) where
  metadata : ConfigExperimentAnalysis
  /-- The clock that the request has read. -/
  currentTime : ℤ
  stage : Stage κ

/-- The decision that a request has returned. -/
def Request.decision (r : Request κ) : Option (DecisionSnapshot κ) :=
  match r.stage with
  | .done (.snapshot d) => some d
  | _ => none

/-- `_empty_arms` with the counts of `_common_response`. -/
def emptyArms (m : ConfigExperimentAnalysis) : Aggregation :=
  ⟨m.variants.map fun v => ⟨v, 0, 0, .finite 0⟩, 0, 0, 0⟩

def maxExperimentWindow : ℤ := 90 * 86400000000

/-- `experiment_results` before its first await after the metadata; `none` when it goes on. -/
def early (m : ConfigExperimentAnalysis) (currentTime : ℤ) : Option (Response κ) :=
  if m.endDate - m.startDate > maxExperimentWindow then
    some (.error ⟨422, "Authoritative experiment window must not exceed 90 days"⟩)
  else if m.status = .completed ∧ m.endDate > currentTime then
    some (.nonFinal .experimentWindowOpen m.variants (emptyArms m))
  else if m.status = .completed ∧
      currentTime < m.endDate + m.statisticalPlan.dataSettlementSeconds * 1000000 then
    some (.nonFinal .awaitingDataSettlement m.variants (emptyArms m))
  else if m.status = .scheduled then
    some (.nonFinal .experimentNotStarted m.variants (emptyArms m))
  else none

/-- A request whose metadata have arrived; `pool` is whether there is a completeness pool. -/
def Request.start (m : ConfigExperimentAnalysis) (currentTime : ℤ) (pool : Bool) : Request κ :=
  ⟨m, currentTime,
    match early m currentTime with
    | some response => .done response
    | none => if m.status = .completed ∧ pool then .boundary else .analysis none⟩

/-- The arms below the required sample size. -/
def underpoweredVariants (m : ConfigExperimentAnalysis) (arms : List ExperimentArmResult) :
    List Text :=
  (arms.filter fun arm => arm.sampleSize < m.statisticalPlan.requiredSampleSizePerArm).map
    fun arm => arm.variant

/-- The checks after `_aggregate_arms`, in order, with their responses. -/
def refusals (m : ConfigExperimentAnalysis) (authority : Option ExperimentBoundaryAuthority)
    (common : Aggregation) : List (Bool × Reason × List Text) :=
  let underpowered := underpoweredVariants m common.arms
  let state := authority.map fun a => a.state
  [(state = some .quarantined, .pipelineBoundaryFailed, underpowered),
    (common.unknownVariantActors ≠ 0, .unknownVariantExposures, underpowered),
    (common.identityConflictActors ≠ 0, .identityAliasConflicts, underpowered),
    (m.status = .running, .experimentRunning, underpowered),
    (m.status = .stopped, .experimentStopped, underpowered),
    ((common.arms.map fun arm => arm.sampleSize).sum = 0, .noExposures, m.variants),
    (underpowered ≠ [], .underpoweredArms, underpowered),
    (state = none, .pipelineProvenanceUnavailable, []),
    (state = some .pending, .awaitingPipelineBoundary, []),
    (state = some (.degraded "pipeline_provenance_unavailable") ∨
      state = some (.degraded "legacy_state_unverifiable"), .pipelineProvenanceUnavailable, []),
    (state ≠ some .covered, .pipelineDegraded, [])]

/-- `experiment_results` from the rows of the analysis query to the provenance query. -/
def analyzed (m : ConfigExperimentAnalysis) (authority : Option ExperimentBoundaryAuthority)
    (rows : List Fields) : Stage κ :=
  match aggregateArms m.variants rows with
  | .error e => .done (.error e)
  | .ok common =>
    match (refusals m authority common).find? (·.1), authority.bind (·.markerStreamId) with
    | some (_, reason, variants), _ => .done (.nonFinal reason variants common)
    | none, none => .done (.nonFinal .pipelineProvenanceUnavailable [] common)
    | none, some marker => .provenance marker common

/-- `experiment_results` from the rows of the provenance query to the snapshot transaction. -/
def verified (rt : Runtime κ π) (m : ConfigExperimentAnalysis) (marker : Pipeline.StreamId)
    (common : Aggregation) (rows : List Fields) : Stage κ :=
  let invalid := .done (.error (unavailable "ClickHouse returned invalid provenance aggregates"))
  match rows with
  | [row] =>
    match exactInt (field row "unprovenanced_events") with
    | none => invalid
    | some events =>
      if events < 0 then invalid
      else if events ≠ 0 then .done (.nonFinal .pipelineProvenanceUnavailable [] common)
      else
        let comparisonCount := common.arms.length - 1
        match common.arms.find? fun arm => arm.variant = m.controlVariant with
        | none => .done (.error (unavailable "Authoritative experiment arms are invalid"))
        | some control =>
          if comparisonCount < 1 then
            .done (.error (unavailable "Authoritative experiment arms are invalid"))
          else
            let treatments := common.arms.filter fun arm => arm.variant ≠ m.controlVariant
            match treatments.mapM fun treatment => rt.comparison control treatment comparisonCount
                m.statisticalPlan.significanceLevel with
            | none => .done (.nonFinal .nonFiniteStatistics [] common)
            | some comparisons => .persist marker ⟨m, common, comparisons⟩
  | _ => invalid

/-! ## The tables -/

structure State (κ π : Type) where
  pipeline : Pipeline.State
  boundaries : List BoundaryRow
  snapshots : List (SnapshotRow π)
  requests : List (Request κ)

/-- The boundary of an experiment. -/
def State.boundary (s : State κ π) (m : ConfigExperimentAnalysis) : Option BoundaryRow :=
  s.boundaries.find? fun b => b.experimentKey = m.key ∧ b.configVersion = m.version

/-- The snapshot of an experiment. -/
def State.snapshot (s : State κ π) (m : ConfigExperimentAnalysis) : Option (SnapshotRow π) :=
  s.snapshots.find? fun r => r.experimentKey = m.key ∧ r.configVersion = m.version

/-- `marker_publish_state` and `marker_stream_id` of a boundary. -/
def State.markerState (s : State κ π) (token : Token) : Option MarkerState :=
  (s.pipeline.world.pg.boundaries.find? fun b => b.token = token).map fun b => b.state

/-- `INSERT INTO experiment_analysis_boundaries … DO NOTHING`; `none` when the token is taken. -/
def State.insertBoundary (rt : Runtime κ π) (s : State κ π) (m : ConfigExperimentAnalysis) :
    Option (State κ π) :=
  match s.boundary m with
  | some _ => some s
  | none =>
    (Pipeline.step s.pipeline (.requestBoundary (rt.boundaryToken m))).map fun p =>
      { s with
        pipeline := p
        boundaries := s.boundaries ++
          [⟨m.key, m.version, m.startDate, m.endDate, rt.boundaryToken m⟩] }

/-- `get_or_create_experiment_boundary` until it reads the watermark: the tables and the stage
after it; `none` when it raises, which rolls it back. -/
def boundaryTransaction (rt : Runtime κ π) (s : State κ π) (m : ConfigExperimentAnalysis) :
    Option (State κ π × Stage κ) := do
  let s ← s.insertBoundary rt m
  let boundary ← s.boundary m
  if boundary.windowStart ≠ m.startDate ∨ boundary.windowEnd ≠ m.endDate ∨
      boundary.markerToken ≠ rt.boundaryToken m then none
  else
    let state ← s.markerState boundary.markerToken
    match s.snapshot m with
    | some row =>
      if state = .published row.boundaryStreamId then
        (rt.validateSnapshotPayload row).map fun snapshot => (s, .done (.snapshot snapshot))
      else none
    | none =>
      some (s,
        match state with
        | .quarantined _ => .analysis (some ⟨.quarantined, none⟩)
        | .pending => .analysis (some ⟨.pending, none⟩)
        | .published marker => .watermark marker)

/-- The end of `get_or_create_experiment_boundary`; the pipeline leaves out why it degraded. -/
def readWatermark (s : State κ π) (marker : Pipeline.StreamId) (failureReason : String) :
    ExperimentBoundaryAuthority :=
  match s.pipeline.world.pg.watermark with
  | none => ⟨.pending, some marker⟩
  | some w =>
    match w.status with
    | .degraded => ⟨.degraded failureReason, some marker⟩
    | .healthy => ⟨if marker ≤ w.contiguous then .covered else .pending, some marker⟩

/-- The `WHERE` clause of the insert of a snapshot. -/
def State.coversMarker (s : State κ π) (m : ConfigExperimentAnalysis)
    (marker : Pipeline.StreamId) : Bool :=
  (s.boundary m).any (fun b => s.markerState b.markerToken = some (.published marker)) &&
    s.pipeline.world.pg.watermark.any fun w => w.status = .healthy ∧ marker ≤ w.contiguous

/-- `INSERT INTO experiment_analysis_snapshots … DO NOTHING`. -/
def State.insertSnapshot (rt : Runtime κ π) (s : State κ π) (m : ConfigExperimentAnalysis)
    (marker : Pipeline.StreamId) (snapshot : DecisionSnapshot κ) : State κ π :=
  if (s.snapshot m).isNone ∧ s.coversMarker m marker then
    { s with snapshots := s.snapshots ++ [rt.snapshotRow m marker snapshot] }
  else s

/-- `persist_experiment_snapshot`; `none` when it raises, which rolls it back. -/
def persistTransaction (rt : Runtime κ π) (s : State κ π) (m : ConfigExperimentAnalysis)
    (marker : Pipeline.StreamId) (snapshot : DecisionSnapshot κ) :
    Option (State κ π × DecisionSnapshot κ) := do
  let s := s.insertSnapshot rt m marker snapshot
  let stored ← s.snapshot m
  if stored.boundaryStreamId ≠ marker then none
  else (rt.validateSnapshotPayload stored).map fun winner => (s, winner)

/-! ## The system -/

/-- How a transaction ends: known, committed without the caller knowing, or rolled back. -/
abbrev Outcome := Pipeline.Reply

/-- What a request waits for. -/
inductive Event
  | boundary (outcome : Outcome)
  | watermark (failureReason : String)
  /-- The watermark cannot be read. -/
  | watermarkFailed
  | analysis (rows : List Fields)
  | provenance (rows : List Fields)
  | persist (outcome : Outcome)
  /-- A query raises, or the request is cancelled. -/
  | abort (exception : HTTPException)

inductive Act
  | pipeline (a : Pipeline.Act)
  | request (m : ConfigExperimentAnalysis) (currentTime : ℤ) (pool : Bool)
  | resume (i : ℕ) (e : Event)

/-- One event of a request: the tables and its stage after it. -/
def Request.resume (rt : Runtime κ π) (s : State κ π) (r : Request κ) (e : Event) :
    Option (State κ π × Stage κ) :=
  match r.stage, e with
  | .boundary, .boundary outcome =>
    match outcome, boundaryTransaction rt s r.metadata with
    | .done, some result => some result
    | .lost, some (s', _) => some (s', .analysis none)
    | _, _ => some (s, .analysis none)
  | .watermark marker, .watermark failureReason =>
    some (s, .analysis (some (readWatermark s marker failureReason)))
  | .watermark _, .watermarkFailed => some (s, .analysis none)
  | .analysis authority, .analysis rows => some (s, analyzed r.metadata authority rows)
  | .provenance marker common, .provenance rows =>
    some (s, verified rt r.metadata marker common rows)
  | .persist marker snapshot, .persist outcome =>
    let unverified := .done (.nonFinal .dataCompletenessUnverified [] snapshot.aggregation)
    match outcome, persistTransaction rt s r.metadata marker snapshot with
    | .done, some (s', winner) => some (s', .done (.snapshot winner))
    | .lost, some (s', _) => some (s', unverified)
    | _, _ => some (s, unverified)
  | .done _, _ => none
  | _, .abort exception => some (s, .done (.error exception))
  | _, _ => none

/-- Boundaries are requested by the requests only. -/
def step (rt : Runtime κ π) (s : State κ π) : Act → Option (State κ π)
  | .pipeline (.requestBoundary _) => none
  | .pipeline a => (Pipeline.step s.pipeline a).map fun p => { s with pipeline := p }
  | .request m currentTime pool =>
    some { s with requests := s.requests ++ [.start m currentTime pool] }
  | .resume i e => do
    let r ← s.requests[i]?
    let (s', stage) ← r.resume rt s e
    some { s' with requests := s'.requests.set i { r with stage := stage } }

def machine (rt : Runtime κ π) : StepMachine (State κ π) Act where
  init := ⟨Pipeline.initial, [], [], []⟩
  step := step rt

end Apdl.Query.Decision
