import Apdl.Config.ExperimentFlag
import Apdl.Lib.StepMachine
import Apdl.Lib.Table

set_option autoImplicit false

/-!
# Config mutations

The commands of `store/mutations.py` on the tables `flags` and `experiments`, with the audit rows,
project versions and delivery intents they write, and the experiment routes of `routers/admin.py`
that decide which command to run.

## Main definitions

* `State`, `Act`, `machine` — every interleaving of these commands.

## Design

A command is one database transaction: it runs atomically and leaves the tables unchanged when it
raises. The update route first reads the experiment and then runs its command in a separate
transaction, so the two are separate steps and requests in flight are part of the state. Every
step brings its own clock reading.

`creation_idempotency_key` and the columns `created_at` and `updated_at` are left out; they only
let the database refuse a creation or are never read.
-/

namespace Apdl.Config.Mutations

open Flags Check

/-! ## Tables -/

/-- The primary key of `flags`. -/
def flagPk (f : Flag) : Text × Text := (f.projectId, f.key)

/-- The primary key of `experiments`. -/
def experimentPk (e : Experiment) : Text × Text := (e.projectId, e.key)

/-- The kinds of change that are audited and delivered. -/
inductive ChangeAction
  | flagCreated
  | flagUpdated
  | flagDisabled
  | flagArchived
  | flagCleanupArchived
  | experimentCreated
  | experimentUpdated
  | experimentStatusChanged
  | experimentDeleted
  | experimentArchived
  deriving DecidableEq, Repr

/-- The `origin` column of `flag_audit_log`. -/
inductive Origin
  | manual
  | experiment
  | scheduler
  deriving DecidableEq, Repr

/-- A row of `flag_audit_log`. -/
structure FlagAudit where
  action : ChangeAction
  actor : Text
  origin : Origin
  before : Option Flag
  after : Option Flag
  deriving DecidableEq

/-- A row of `experiment_audit_log`. -/
structure ExperimentAudit where
  action : ChangeAction
  actor : Text
  before : Option Experiment
  after : Option Experiment
  deriving DecidableEq

/-- The arguments of a delivery intent, from which its outbox row is built. -/
inductive Intent
  | flagChange (action : ChangeAction) (flag : Flag) (projectVersion : ℕ)
  | experimentChange (action : ChangeAction) (experiment : Experiment) (projectVersion : ℕ)
  deriving DecidableEq

/-- The tables the mutations write. -/
structure Db where
  flags : Table flagPk
  experiments : Table experimentPk
  /-- `config_project_versions`, `0` for a project without a row. -/
  projectVersions : Text → ℕ
  flagAudit : List FlagAudit
  experimentAudit : List ExperimentAudit
  outbox : List Intent

/-- The entity an error is about. -/
inductive Entity
  | flag
  | experiment
  deriving DecidableEq, Repr

/-- The fields of the frozen analysis contract, by their request names. -/
inductive FrozenField
  | bucketBy
  | defaultVariant
  | trafficPercentage
  | targetingRules
  | variants
  | primaryMetric
  | statisticalPlan
  | startDate
  | endDate
  deriving DecidableEq, Repr

/-- The keys of `_FROZEN_EXPERIMENT_FIELDS`, in order. -/
def FrozenField.all : List FrozenField :=
  [.bucketBy, .defaultVariant, .trafficPercentage, .targetingRules, .variants, .primaryMetric,
    .statisticalPlan, .startDate, .endDate]

/-- The exceptions a command raises. -/
inductive MutationError
  | notFound (entity : Entity) (key : Text)
  | versionConflict (entity : Entity) (key : Text) (currentVersion : ℕ)
  | experimentOwnedFlag (flagKey experimentKey : Text)
  | integrity (message : String)
  | immutableExperiment (key : Text) (fields : List FrozenField)
  | archivedExperiment (key : Text)
  | invalidTransition (source target : ExperimentStatus)
  | schema (e : SchemaError)
  /-- `asyncpg.UniqueViolationError`. -/
  | uniqueViolation
  deriving DecidableEq

/-- A command: the tables after it, or the exception it raises. -/
abbrev Command := Db → Except MutationError Db

/-- Run a schema validation inside a command. -/
def liftSchema {α : Type} : Except SchemaError α → Except MutationError α
  | .ok a => .ok a
  | .error e => .error (.schema e)

/-! ## Reading and writing rows -/

/-- `_locked_flag`: a flag that is not archived. -/
def lockedFlag (db : Db) (projectId key : Text) : Except MutationError Flag :=
  match db.flags.get (projectId, key) with
  | none => .error (.notFound .flag key)
  | some f => if f.archivedAt.isSome then .error (.notFound .flag key) else .ok f

def lockedExperiment (db : Db) (projectId key : Text) : Except MutationError Experiment :=
  match db.experiments.get (projectId, key) with
  | none => .error (.notFound .experiment key)
  | some e => .ok e

/-- The experiment that owns a flag. -/
def ownerOf (db : Db) (projectId flagKey : Text) : Option Experiment :=
  db.experiments.rows.find? fun e => decide (e.projectId = projectId) && decide (e.flagKey = flagKey)

def rejectExperimentOwned (db : Db) (projectId flagKey : Text) : Except MutationError Unit :=
  match ownerOf db projectId flagKey with
  | none => .ok ()
  | some owner => .error (.experimentOwnedFlag flagKey owner.key)

def checkVersion (entity : Entity) (key : Text) (current expected : ℕ) :
    Except MutationError Unit :=
  ensure (decide (current = expected)) (.versionConflict entity key current)

def insertFlag (db : Db) (flag : Flag) : Except MutationError Db := do
  liftSchema flag.validateVariantConfig
  match db.flags.insert flag with
  | none => .error .uniqueViolation
  | some flags => .ok { db with flags := flags }

/-- Write a flag row in the place of the one with its key. -/
def Db.putFlag (db : Db) (flag : Flag) : Db := { db with flags := db.flags.replace flag }

/-- Write an experiment row in the place of the one with its key. -/
def Db.putExperiment (db : Db) (e : Experiment) : Db :=
  { db with experiments := db.experiments.replace e }

/-- The row `_update_flag` writes: the fields of `flag`, the next version, the columns it does not
set as they were. -/
def updatedFlag (flag : Flag) : Flag := { flag with version := flag.version + 1 }

def auditFlag (db : Db) (action : ChangeAction) (actor : Text) (origin : Origin)
    (before after : Option Flag) : Db :=
  { db with flagAudit := db.flagAudit ++ [⟨action, actor, origin, before, after⟩] }

def auditExperiment (db : Db) (action : ChangeAction) (actor : Text)
    (before after : Option Experiment) : Db :=
  { db with experimentAudit := db.experimentAudit ++ [⟨action, actor, before, after⟩] }

/-- `_next_project_version`, which returns the version it allocates. -/
def nextProjectVersion (db : Db) (projectId : Text) : Db × ℕ :=
  ({ db with
      projectVersions :=
        Function.update db.projectVersions projectId (db.projectVersions projectId + 1) },
    db.projectVersions projectId + 1)

/-- `_enqueue_flag_change` with a new project version, which it returns. -/
def enqueueFlagChange (db : Db) (action : ChangeAction) (flag : Flag) : Db × ℕ :=
  let (db, v) := nextProjectVersion db flag.projectId
  ({ db with outbox := db.outbox ++ [.flagChange action flag v] }, v)

/-- `_enqueue_experiment_change` with the version its flag change allocated. -/
def enqueueExperimentChange (db : Db) (action : ChangeAction) (e : Experiment) (v : ℕ) : Db :=
  { db with outbox := db.outbox ++ [.experimentChange action e v] }

/-! ## Flag commands -/

/-- The audit row and the delivery intent of a flag command. -/
def recordFlag (db : Db) (auditAction : ChangeAction) (actor : Text) (before : Option Flag)
    (deliveryAction : ChangeAction) (after : Flag) : Db :=
  (enqueueFlagChange (auditFlag db auditAction actor .manual before (some after)) deliveryAction
    after).1

def createStandaloneFlag (flag : Flag) (actor : Text) : Command := fun db => do
  let db ← insertFlag db flag
  .ok (recordFlag db .flagCreated actor none .flagCreated flag)

/-- The fields of `FlagUpdate` that are set. -/
structure FlagUpdate where
  owners : Option (List Text)
  reviewBy : Option (Option ℤ)
  name : Option Text
  description : Option Text
  defaultVariant : Option Text
  variants : Option (List VariantConfig)
  rules : Option (List GateRule)
  fallthrough : Option FallthroughConfig
  evaluationMode : Option EvaluationMode
  guardrails : Option (List GuardrailConfig)

/-- `{**before, **updates}`. -/
def FlagUpdate.apply (u : FlagUpdate) (f : Flag) : Flag :=
  { f with
    owners := u.owners.getD f.owners
    reviewBy := u.reviewBy.getD f.reviewBy
    name := u.name.getD f.name
    description := u.description.getD f.description
    defaultVariant := u.defaultVariant.getD f.defaultVariant
    variants := u.variants.getD f.variants
    rules := u.rules.getD f.rules
    fallthrough := u.fallthrough.getD f.fallthrough
    evaluationMode := u.evaluationMode.getD f.evaluationMode
    guardrails := u.guardrails.getD f.guardrails }

/-- The steps every command on an existing standalone flag starts with: lock the flag, refuse an
owned one, check the version. -/
def standaloneFlag (db : Db) (projectId key : Text) (expectedVersion : ℕ) :
    Except MutationError Flag := do
  let before ← lockedFlag db projectId key
  rejectExperimentOwned db projectId key
  checkVersion .flag key before.version expectedVersion
  .ok before

def updateStandaloneFlag (projectId key : Text) (expectedVersion : ℕ) (updates : FlagUpdate)
    (actor : Text) : Command := fun db => do
  let before ← standaloneFlag db projectId key expectedVersion
  liftSchema (updates.apply before).validateVariantConfig
  let updated := updatedFlag (updates.apply before)
  .ok (recordFlag (db.putFlag updated) .flagUpdated actor (some before) .flagUpdated updated)

/-- `_transition_flag`. -/
def transitionedFlag (before : Flag) (target : FlagState) : Flag :=
  { before with
    state := target, enabled := decide (target = .active), disabledReason := [], disabledBy := [],
    disabledAt := none, version := before.version + 1 }

def transitionStandaloneFlag (projectId key : Text) (expectedVersion : ℕ) (target : FlagState)
    (actor : Text) : Command := fun db => do
  let before ← standaloneFlag db projectId key expectedVersion
  let updated := transitionedFlag before target
  .ok (recordFlag (db.putFlag updated) .flagUpdated actor (some before) .flagUpdated updated)

/-- `_disable_flag`. -/
def disabledFlag (before : Flag) (reason actor : Text) (now : Time) : Flag :=
  { before with
    state := .disabled, enabled := false, disabledReason := reason, disabledBy := actor,
    disabledAt := some now, version := before.version + 1 }

/-- `disable_standalone_flag`: a flag that is not enabled is left as it is. -/
def disableStandaloneFlag (projectId key : Text) (expectedVersion : ℕ) (reason actor : Text)
    (now : Time) : Command := fun db => do
  let before ← standaloneFlag db projectId key expectedVersion
  if before.enabled then
    let updated := disabledFlag before reason actor now
    .ok (recordFlag (db.putFlag updated) .flagDisabled actor (some before) .flagUpdated updated)
  else .ok db

/-- `_archive_flag`. -/
def archivedFlag (before : Flag) (now : Time) : Flag :=
  { before with
    state := .archived, enabled := false, archivedAt := some now, version := before.version + 1 }

def archiveStandaloneFlag (projectId key : Text) (expectedVersion : ℕ) (actor : Text)
    (now : Time) : Command := fun db => do
  let before ← standaloneFlag db projectId key expectedVersion
  let archived := archivedFlag before now
  .ok (recordFlag (db.putFlag archived) .flagArchived actor (some before) .flagArchived archived)

/-- `_cleanup_reasons` contains `fully_rolled_out`. -/
def fullyRolledOut (f : Flag) : Bool :=
  decide (f.state = .active) && f.enabled && decide (f.rules = []) &&
    decide (100 ≤ f.fallthrough.rollout.percentage) &&
    match f.variants.filter fun v => decide (0 < v.weight) with
    | [v] => decide (v.key ≠ f.defaultVariant)
    | _ => false

def cleanupStandaloneFlag (projectId key : Text) (expectedVersion : ℕ) (actor : Text)
    (now : Time) : Command := fun db => do
  let before ← standaloneFlag db projectId key expectedVersion
  ensure (fullyRolledOut before) (.integrity "flag is not eligible for cleanup")
  let archived := archivedFlag before now
  .ok (recordFlag (db.putFlag archived) .flagCleanupArchived actor (some before) .flagArchived
    archived)

/-! ## Experiment commands -/

/-- The audit rows and the delivery intents of an experiment command. -/
def recordBundle (db : Db) (actor : Text) (origin : Origin) (experimentAction : ChangeAction)
    (beforeExperiment afterExperiment : Option Experiment) (flagAction : ChangeAction)
    (beforeFlag : Option Flag) (afterFlag : Flag) (deliveryAction : ChangeAction)
    (delivered : Experiment) : Db :=
  let db := auditExperiment db experimentAction actor beforeExperiment afterExperiment
  let db := auditFlag db flagAction actor origin beforeFlag (some afterFlag)
  let (db, v) := enqueueFlagChange db flagAction afterFlag
  enqueueExperimentChange db deliveryAction delivered v

/-- `create_experiment_bundle`; `UNIQUE (project_id, flag_key)` is the check on owners. -/
def createExperimentBundle (experiment : Experiment) (flag : Flag) (actor : Text) : Command :=
  fun db => do
    let db ← insertFlag db flag
    match ownerOf db experiment.projectId experiment.flagKey with
    | some _ => .error .uniqueViolation
    | none =>
      match db.experiments.insert experiment with
      | none => .error .uniqueViolation
      | some experiments =>
        .ok (recordBundle { db with experiments := experiments } actor .experiment
          .experimentCreated none (some experiment) .flagCreated none flag .experimentCreated
          experiment)

/-- `finalize_terminal_analysis_window`: the experiment to store, and whether `end_date` may
change. -/
def finalizeTerminalAnalysisWindow (before desired : Experiment) (now : Time) :
    Except MutationError (Experiment × Bool) :=
  if (before.status = .draft ∨ before.status = .scheduled) ∧ desired.status = .stopped then
    .ok ({ desired with endDate := none }, true)
  else if before.status ≠ .running ∨
      ¬ (desired.status = .completed ∨ desired.status = .stopped) then
    .ok (desired, false)
  else
    match before.startDate, before.endDate with
    | some start, some plannedEnd =>
      if desired.status = .completed then
        if now < plannedEnd then
          .error (.integrity
            "A fixed-horizon experiment cannot complete before its planned end")
        else .ok ({ desired with endDate := some plannedEnd }, false)
      else if min now plannedEnd ≤ start then
        .error (.integrity "Terminal experiment end must be after its start")
      else .ok ({ desired with endDate := some (min now plannedEnd) }, true)
    | _, _ => .error (.integrity "Running experiment has an invalid analysis window")

def FrozenField.differs (before desired : Experiment) : FrozenField → Bool
  | .bucketBy => decide (before.bucketBy ≠ desired.bucketBy)
  | .defaultVariant => decide (before.defaultVariant ≠ desired.defaultVariant)
  | .trafficPercentage => decide (before.trafficPercentage ≠ desired.trafficPercentage)
  | .targetingRules => decide (before.targetingRules ≠ desired.targetingRules)
  | .variants => decide (before.variants ≠ desired.variants)
  | .primaryMetric => decide (before.primaryMetric ≠ desired.primaryMetric)
  | .statisticalPlan => decide (before.statisticalPlan ≠ desired.statisticalPlan)
  | .startDate => decide (before.startDate ≠ desired.startDate)
  | .endDate => decide (before.endDate ≠ desired.endDate)

/-- The fields of `_FROZEN_EXPERIMENT_FIELDS` in which two rows differ; `end_date` is left out when
it may change. -/
def changedFields (before desired : Experiment) (endDateAllowed : Bool) : List FrozenField :=
  FrozenField.all.filter fun f =>
    !(endDateAllowed && decide (f = .endDate)) && f.differs before desired

/-- `ensure_experiment_analysis_fields_immutable`. -/
def ensureAnalysisFieldsImmutable (before desired : Experiment) (endDateAllowed : Bool) :
    Except MutationError Unit :=
  if before.status = .draft then .ok ()
  else ensure (decide (changedFields before desired endDateAllowed = []))
    (.immutableExperiment before.key (changedFields before desired endDateAllowed))

/-- The row `_update_experiment` writes. -/
def updatedExperiment (before desired : Experiment) (flagVersion : ℕ) : Experiment :=
  { before with
    status := desired.status, description := desired.description,
    defaultVariant := desired.defaultVariant, variants := desired.variants,
    targetingRules := desired.targetingRules, primaryMetric := desired.primaryMetric,
    statisticalPlan := desired.statisticalPlan, trafficPercentage := desired.trafficPercentage,
    bucketBy := desired.bucketBy,
    minimumExposureConfigVersion :=
      if before.status = .draft ∧ desired.status ≠ .draft then some flagVersion
      else desired.minimumExposureConfigVersion,
    startDate := desired.startDate, endDate := desired.endDate, version := before.version + 1 }

def updateExperimentBundle (desired : Experiment) (expectedVersion : ℕ) (actor : Text)
    (origin : Origin) (now : Time) : Command := fun db => do
  let before ← lockedExperiment db desired.projectId desired.key
  checkVersion .experiment desired.key before.version expectedVersion
  ensure before.archivedAt.isNone (.archivedExperiment before.key)
  ensure (decide (desired.flagKey = before.flagKey))
    (.integrity "Experiment flag ownership is immutable")
  let (desired, endDateAllowed) ← finalizeTerminalAnalysisWindow before desired now
  ensureAnalysisFieldsImmutable before desired endDateAllowed
  let beforeFlag ← lockedFlag db desired.projectId before.flagKey
  let merged ← liftSchema (derivedExperimentFlag desired beforeFlag)
  let newFlag := updatedFlag merged
  let newExperiment := updatedExperiment before desired newFlag.version
  .ok (recordBundle ((db.putFlag newFlag).putExperiment newExperiment) actor origin
    (if before.status ≠ newExperiment.status then .experimentStatusChanged else .experimentUpdated)
    (some before) (some newExperiment) .flagUpdated (some beforeFlag) newFlag .experimentUpdated
    newExperiment)

/-- The row `_archive_experiment` writes. -/
def archiveExperiment (before : Experiment) (actor : Text) (now : Time) :
    Except MutationError Experiment := do
  let (desired, _) ←
    if before.status.isLaunched then
      finalizeTerminalAnalysisWindow before (before.setStatus .stopped) now
    else .ok (before, false)
  .ok { before with
    status := desired.status, endDate := desired.endDate, archivedAt := some now,
    archivedBy := some actor, version := before.version + 1 }

/-- `delete_experiment_bundle`: a draft is deleted, any other experiment archived; its flag is
archived. -/
def deleteExperimentBundle (projectId key : Text) (expectedVersion : ℕ) (actor : Text)
    (now : Time) : Command := fun db => do
  let before ← lockedExperiment db projectId key
  checkVersion .experiment key before.version expectedVersion
  ensure before.archivedAt.isNone (.archivedExperiment key)
  let beforeFlag ← lockedFlag db projectId before.flagKey
  let archived := archivedFlag beforeFlag now
  if before.status = .draft then
    .ok (recordBundle
      { db.putFlag archived with experiments := db.experiments.erase (experimentPk before) } actor
      .experiment .experimentDeleted (some before) none .flagArchived (some beforeFlag) archived
      .experimentDeleted { before with version := expectedVersion + 1 })
  else do
    let removed ← archiveExperiment before actor now
    .ok (recordBundle ((db.putFlag archived).putExperiment removed) actor .experiment
      .experimentArchived (some before) (some removed) .flagArchived (some beforeFlag) archived
      .experimentArchived removed)

/-- The launch check of `transition_due_experiment`. -/
def checkScheduledPlan (sampleSize : SampleSize) (current : Experiment) :
    Except MutationError Unit :=
  match current.statisticalPlan, current.primaryMetric with
  | some plan, some metric =>
    match (do
      plan.validate
      metric.validate
      validateStatisticalPlan sampleSize .running (some plan) (some metric)
        current.variants.length : Except SchemaError Unit) with
    | .ok () => .ok ()
    | .error _ =>
      .error (.integrity "Scheduled experiment lacks a valid predeclared statistical plan")
  | _, _ => .error (.integrity "Scheduled experiment lacks a valid predeclared statistical plan")

/-- The launch check is made only for a move to `running`. -/
def checkDueLaunch (sampleSize : SampleSize) (current : Experiment) (target : ExperimentStatus) :
    Except MutationError Unit :=
  if target = .running then checkScheduledPlan sampleSize current else .ok ()

/-- The status `transition_due_experiment` moves to, `none` when nothing is due. -/
def dueTarget (current : Experiment) (now : Time) : Option ExperimentStatus :=
  match current.status with
  | .scheduled =>
    match current.startDate, current.endDate with
    | some start, some finish =>
      if now < start then none else if now < finish then some .running else some .stopped
    | _, _ => none
  | .running =>
    match current.endDate with
    | some finish => if now < finish then none else some .completed
    | none => none
  | _ => none

/-- `transition_due_experiment`. The bundle update reads the clock again. -/
def transitionDueExperiment (sampleSize : SampleSize) (projectId key : Text) (expectedVersion : ℕ)
    (actor : Text) (now commitNow : Time) : Command := fun db => do
  let current ← lockedExperiment db projectId key
  if current.version ≠ expectedVersion then .ok db
  else
    match dueTarget current now with
    | none => .ok db
    | some target => do
      checkDueLaunch sampleSize current target
      updateExperimentBundle (current.setStatus target) expectedVersion actor .scheduler commitNow
        db

/-! ## The update route -/

/-- `ExperimentUpdate`; the outer `none` of a nullable field means that it is not set. -/
structure ExperimentUpdate where
  version : ℕ
  bucketBy : Option ExperimentBucketBy
  status : Option ExperimentStatus
  description : Option Text
  trafficPercentage : Option ℚ
  startDate : Option (Option Time)
  endDate : Option (Option Time)
  variants : Option (List ExperimentVariant)
  defaultVariant : Option Text
  primaryMetric : Option (Option ExperimentMetric)
  statisticalPlan : Option (Option ExperimentStatisticalPlan)
  targetingRules : Option (List ExperimentTargetingRule)

namespace ExperimentUpdate

/-- `ExperimentUpdate.model_validate`. -/
def validate (u : ExperimentUpdate) : Except SchemaError Unit := do
  ensure (decide (1 ≤ u.version)) (.field "version")
  ensure (u.trafficPercentage.all fun p => decide (0 ≤ p) && decide (p ≤ 100))
    (.field "traffic_percentage")
  ensure (u.variants.all fun vs => decide (2 ≤ vs.length) && decide (vs.length ≤ maxVariants))
    (.field "variants")
  Check.all ExperimentVariant.validate (u.variants.getD [])
  ensure (u.defaultVariant.all (boundedLength 1 maxIdentifierLength)) (.field "default_variant")
  Check.all ExperimentMetric.validate (u.primaryMetric.join.toList)
  Check.all ExperimentStatisticalPlan.validate (u.statisticalPlan.join.toList)
  ensure (u.targetingRules.all fun rs => decide (rs.length ≤ maxRules)) (.field "targeting_rules")
  Check.all ExperimentTargetingRule.validate (u.targetingRules.getD [])
  match u.variants with
  | none => pure ()
  | some vs => do
    validateVariantWeights (vs.map ExperimentVariant.project)
    match u.defaultVariant with
    | none => pure ()
    | some d => validateVariants (vs.map ExperimentVariant.project) d
  match u.startDate.join, u.endDate.join with
  | some start, some finish =>
    ensure (decide (start < finish)) (.value "end_date must be after start_date")
  | _, _ => pure ()

/-- The field is in `model_fields_set`. -/
def sets (u : ExperimentUpdate) : FrozenField → Bool
  | .bucketBy => u.bucketBy.isSome
  | .defaultVariant => u.defaultVariant.isSome
  | .trafficPercentage => u.trafficPercentage.isSome
  | .targetingRules => u.targetingRules.isSome
  | .variants => u.variants.isSome
  | .primaryMetric => u.primaryMetric.isSome
  | .statisticalPlan => u.statisticalPlan.isSome
  | .startDate => u.startDate.isSome
  | .endDate => u.endDate.isSome

/-- The frozen fields the request sets: `model_fields_set & _FROZEN_EXPERIMENT_REQUEST_FIELDS`. -/
def frozenFields (u : ExperimentUpdate) : List FrozenField := FrozenField.all.filter u.sets

/-- The experiment row with the fields of the request. -/
def apply (u : ExperimentUpdate) (e : Experiment) : Experiment :=
  { e with
    status := u.status.getD e.status
    description := u.description.getD e.description
    bucketBy := u.bucketBy.getD e.bucketBy
    trafficPercentage := u.trafficPercentage.getD e.trafficPercentage
    startDate := u.startDate.getD e.startDate
    endDate := u.endDate.getD e.endDate
    variants := u.variants.getD e.variants
    targetingRules :=
      (u.targetingRules.map fun rs => rs.map ExperimentTargetingRule.dumpExcludeNone).getD
        e.targetingRules
    primaryMetric := u.primaryMetric.getD e.primaryMetric
    statisticalPlan := u.statisticalPlan.getD e.statisticalPlan
    defaultVariant := u.defaultVariant.getD e.defaultVariant }

end ExperimentUpdate

/-- The checks of `update_experiment` on the experiment it read; the result is `desired`. -/
def planExperimentUpdate (sampleSize : SampleSize) (existing : Experiment) (u : ExperimentUpdate)
    (now : Time) : Except MutationError Experiment := do
  liftSchema u.validate
  checkVersion .experiment existing.key existing.version u.version
  ensure existing.archivedAt.isNone (.archivedExperiment existing.key)
  ensure (decide (u.status.getD existing.status ∈ allowedStatusTransitions existing.status))
    (.invalidTransition existing.status (u.status.getD existing.status))
  ensure (decide (existing.status = .draft) || decide (u.frozenFields = []))
    (.immutableExperiment existing.key u.frozenFields)
  let desired := u.apply existing
  liftSchema (validateExperimentLifecycle desired.status desired.startDate desired.endDate
    desired.primaryMetric now)
  liftSchema (validateStatisticalPlan sampleSize desired.status desired.statisticalPlan
    desired.primaryMetric desired.variants.length)
  ensure (decide (desired.defaultVariant ∈ desired.variants.map ExperimentVariant.key))
    (.schema (.value "default_variant must match a variant key"))
  .ok desired

/-! ## The system -/

/-- A request of the update route between its read and its command. -/
structure Pending where
  existing : Experiment
  desired : Experiment
  expectedVersion : ℕ

/-- The tables and the update requests in flight. -/
structure State where
  db : Db
  pending : List Pending

/-- What can happen next. -/
inductive Act
  | createFlag (projectId : Text) (body : FlagCreate) (salt actor : Text)
  | updateFlag (projectId key : Text) (version : ℕ) (updates : FlagUpdate) (actor : Text)
  | transitionFlag (projectId key : Text) (version : ℕ) (target : FlagState) (actor : Text)
  | disableFlag (projectId key : Text) (version : ℕ) (reason actor : Text) (now : Time)
  | archiveFlag (projectId key : Text) (version : ℕ) (actor : Text) (now : Time)
  | cleanupFlag (projectId key : Text) (version : ℕ) (actor : Text) (now : Time)
  | createExperiment (projectId : Text) (body : ExperimentCreate) (salt actor : Text) (now : Time)
  | readUpdate (projectId key : Text) (body : ExperimentUpdate) (now : Time)
  | commitUpdate (index : ℕ) (actor : Text) (now : Time)
  | deleteExperiment (projectId key : Text) (version : ℕ) (actor : Text) (now : Time)
  | transitionDue (projectId key : Text) (version : ℕ) (actor : Text) (now commitNow : Time)

/-- The commands on standalone flags. -/
def Act.onFlag : Act → Bool
  | .createFlag .. | .updateFlag .. | .transitionFlag .. | .disableFlag .. | .archiveFlag ..
  | .cleanupFlag .. => true
  | .createExperiment .. | .readUpdate .. | .commitUpdate .. | .deleteExperiment ..
  | .transitionDue .. => false

/-- The clock reading with which an action ends an experiment's analysis window. -/
def Act.commitClock : Act → Option Time
  | .commitUpdate _ _ now => some now
  | .deleteExperiment _ _ _ _ now => some now
  | .transitionDue _ _ _ _ _ commitNow => some commitNow
  | _ => none

/-- Run a command on the tables; `none` when it raises. -/
def State.run (s : State) (c : Command) : Option State :=
  match c s.db with
  | .ok db => some { s with db := db }
  | .error _ => none

/-- `create_experiment`: both rows from an accepted body. -/
def createExperiment (sampleSize : SampleSize) (projectId : Text) (body : ExperimentCreate)
    (salt actor : Text) (now : Time) : Command := fun db => do
  liftSchema (body.validate sampleSize now)
  let flag ← liftSchema (buildFlagCreate body.projectionArgs)
  createExperimentBundle (body.experimentRow projectId) (flag.flagRow projectId salt) actor db

/-- `create_flag`: the row of an accepted body. -/
def createFlag (projectId : Text) (body : FlagCreate) (salt actor : Text) : Command := fun db => do
  liftSchema body.validate
  createStandaloneFlag (body.flagRow projectId salt) actor db

def step (sampleSize : SampleSize) (s : State) : Act → Option State
  | .createFlag projectId body salt actor => s.run (createFlag projectId body salt actor)
  | .updateFlag projectId key version updates actor =>
    s.run (updateStandaloneFlag projectId key version updates actor)
  | .transitionFlag projectId key version target actor =>
    -- `FlagTransition.target_state` is `draft` or `active`
    if target = .draft ∨ target = .active then
      s.run (transitionStandaloneFlag projectId key version target actor)
    else none
  | .disableFlag projectId key version reason actor now =>
    s.run (disableStandaloneFlag projectId key version reason actor now)
  | .archiveFlag projectId key version actor now =>
    s.run (archiveStandaloneFlag projectId key version actor now)
  | .cleanupFlag projectId key version actor now =>
    s.run (cleanupStandaloneFlag projectId key version actor now)
  | .createExperiment projectId body salt actor now =>
    s.run (createExperiment sampleSize projectId body salt actor now)
  | .readUpdate projectId key body now =>
    match s.db.experiments.get (projectId, key) with
    | none => none
    | some existing =>
      match planExperimentUpdate sampleSize existing body now with
      | .error _ => none
      | .ok desired => some { s with pending := s.pending ++ [⟨existing, desired, body.version⟩] }
  | .commitUpdate index actor now =>
    match s.pending[index]? with
    | none => none
    | some p =>
      (s.run (updateExperimentBundle p.desired p.expectedVersion actor .experiment now)).map
        fun s' => { s' with pending := s'.pending.eraseIdx index }
  | .deleteExperiment projectId key version actor now =>
    s.run (deleteExperimentBundle projectId key version actor now)
  | .transitionDue projectId key version actor now commitNow =>
    s.run (transitionDueExperiment sampleSize projectId key version actor now commitNow)

/-- Empty tables and no request. -/
def initial : State :=
  { db :=
      { flags := Table.empty, experiments := Table.empty, projectVersions := fun _ => 0,
        flagAudit := [], experimentAudit := [], outbox := [] }
    pending := [] }

/-- The config mutations as a step machine. -/
def machine (sampleSize : SampleSize) : StepMachine State Act where
  init := initial
  step := step sampleSize

end Apdl.Config.Mutations
