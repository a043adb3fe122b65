import Apdl.Flags.Targeting
import Apdl.Lib.Check

set_option autoImplicit false

/-!
# Request models of the config service

The Pydantic models of `models/schemas.py` that the flag and experiment mutations use, with their
field bounds and their validators.

## Main definitions

* `validateFlagVariantConfig` — the check every flag row passes before it is written.

## Design

A model value is the record of its fields; `validate` is what Pydantic runs when it parses one,
field bounds first and the model validator last, and raises the first error (`SchemaError.field`
for a bound, with the field's path, `SchemaError.value` for a validator, with its text). Values of
type `Any` are JSON values. The field `value` of a condition is `none` when it is not in
`model_fields_set`; an explicit null is `some .null`. Where the code passes model instances to
another model, Pydantic does not validate them again, and neither do the functions here.

Instants are integers (microseconds), dates are day numbers. The floating-point sample-size
formula of the statistical plan is a parameter.
-/

namespace Apdl.Config

open Flags Check

/-- An instant in microseconds. -/
abbrev Time := ℤ

/-- The first error of a validation. -/
inductive SchemaError
  | field (path : String)
  /-- A validator raised `ValueError` with this text. -/
  | value (message : String)
  deriving DecidableEq, Repr

/-- `Field(min_length=lo, max_length=hi)` on a string. -/
def boundedLength (lo hi : ℕ) (t : Text) : Bool := decide (lo ≤ t.length) && decide (t.length ≤ hi)

/-- `Field(min_length=1, max_length=MAX_IDENTIFIER_LENGTH)`. -/
def checkIdentifier (path : String) (t : Text) : Except SchemaError Unit :=
  ensure (boundedLength 1 maxIdentifierLength t) (.field path)

/-! ## Conditions and rules -/

def operatorName : Operator → String
  | .equals => "equals"
  | .notEquals => "not_equals"
  | .gt => "gt"
  | .gte => "gte"
  | .lt => "lt"
  | .lte => "lte"
  | .contains => "contains"
  | .notContains => "not_contains"
  | .startsWith => "starts_with"
  | .endsWith => "ends_with"
  | .isIn => "in"
  | .notIn => "not_in"
  | .exists => "exists"
  | .notExists => "not_exists"

/-- `GateCondition`, and the JSON object it is serialized to. -/
structure GateCondition where
  /-- `attribute`. -/
  attr : Text
  operator : Operator
  /-- `none` when the field is not set. -/
  value : Option Json
  deriving DecidableEq

namespace GateCondition

/-- The model validator `validate_value`. -/
def validateValue (c : GateCondition) : Except SchemaError Unit :=
  if c.operator.isPresence then
    ensure c.value.isNone
      (.value (operatorName c.operator ++ " conditions must not include value"))
  else
    match c.value with
    | none => .error (.value (operatorName c.operator ++ " conditions require value"))
    | some v =>
      ensure (isConditionValueValid Text.length c.operator v)
        (.value ("invalid value for " ++ operatorName c.operator ++ " condition"))

/-- `GateCondition.model_validate`. -/
def validate (c : GateCondition) : Except SchemaError Unit := do
  checkIdentifier "attribute" c.attr
  c.validateValue

/-- `model_dump(mode="json")`: a field that is not set is written with its default. -/
def dumpJson (c : GateCondition) : GateCondition :=
  { c with value := some (c.value.getD .null) }

/-- `model_dump(mode="json", exclude_none=True)`: fields whose value is null are left out. -/
def dumpExcludeNone (c : GateCondition) : GateCondition :=
  { c with value := if c.value = some .null then none else c.value }

end GateCondition

structure RolloutConfig where
  percentage : ℚ
  bucketBy : Text
  deriving DecidableEq

/-- `RolloutConfig.model_validate`. -/
def RolloutConfig.validate (r : RolloutConfig) : Except SchemaError Unit := do
  ensure (decide (0 ≤ r.percentage) && decide (r.percentage ≤ 100)) (.field "percentage")
  checkIdentifier "bucket_by" r.bucketBy

structure VariantConfig where
  key : Text
  weight : ℤ
  deriving DecidableEq

/-- `MAX_VARIANT_WEIGHT` and `MAX_TOTAL_VARIANT_WEIGHT`. -/
def maxVariantWeight : ℤ := 9007199254740991

def maxVariants : ℕ := 10

/-- `VariantConfig.model_validate`. -/
def VariantConfig.validate (v : VariantConfig) : Except SchemaError Unit := do
  checkIdentifier "key" v.key
  ensure (decide (0 ≤ v.weight) && decide (v.weight ≤ maxVariantWeight)) (.field "weight")

/-- `GateRule`, and the JSON object it is serialized to. -/
structure GateRule where
  id : Text
  name : Text
  conditions : List GateCondition
  rollout : RolloutConfig
  deriving DecidableEq

namespace GateRule

/-- The bounds of the rule's own fields. -/
def validateFields (r : GateRule) : Except SchemaError Unit := do
  checkIdentifier "id" r.id
  ensure (boundedLength 0 maxStringLength r.name) (.field "name")
  ensure (decide (r.conditions.length ≤ maxConditionsPerRule)) (.field "conditions")

/-- `GateRule.model_validate` of an object: the conditions and the rollout are parsed too. -/
def validate (r : GateRule) : Except SchemaError Unit := do
  r.validateFields
  Check.all GateCondition.validate r.conditions
  r.rollout.validate

/-- `model_dump(mode="json")`. -/
def dumpJson (r : GateRule) : GateRule :=
  { r with conditions := r.conditions.map GateCondition.dumpJson }

/-- `model_dump(mode="json", exclude_none=True)`. -/
def dumpExcludeNone (r : GateRule) : GateRule :=
  { r with conditions := r.conditions.map GateCondition.dumpExcludeNone }

/-- Some condition of the rule is `exists` or `not_exists`. -/
def hasPresence (r : GateRule) : Bool := r.conditions.any fun c => c.operator.isPresence

end GateRule

structure ExperimentTargetingRule where
  id : Text
  name : Text
  conditions : List GateCondition
  deriving DecidableEq

namespace ExperimentTargetingRule

/-- `ExperimentTargetingRule.model_validate`. -/
def validate (r : ExperimentTargetingRule) : Except SchemaError Unit := do
  checkIdentifier "id" r.id
  ensure (boundedLength 0 maxStringLength r.name) (.field "name")
  ensure (decide (r.conditions.length ≤ maxConditionsPerRule)) (.field "conditions")
  Check.all GateCondition.validate r.conditions

/-- `model_dump(mode="json", exclude_none=True)`. -/
def dumpExcludeNone (r : ExperimentTargetingRule) : ExperimentTargetingRule :=
  { r with conditions := r.conditions.map GateCondition.dumpExcludeNone }

/-- Some condition of the rule is `exists` or `not_exists`. -/
def hasPresence (r : ExperimentTargetingRule) : Bool :=
  r.conditions.any fun c => c.operator.isPresence

end ExperimentTargetingRule

structure FallthroughConfig where
  rollout : RolloutConfig
  deriving DecidableEq

/-- `FallthroughConfig.model_validate`. -/
def FallthroughConfig.validate (f : FallthroughConfig) : Except SchemaError Unit :=
  f.rollout.validate

/-! ## Variants -/

/-- The running totals of `validate_variant_weight_contract`: every weight is in range and no
partial sum exceeds the limit. -/
def weightTotal : ℤ → List ℤ → Except SchemaError ℤ
  | total, [] => .ok total
  | total, w :: ws => do
    ensure (decide (0 ≤ w) && decide (w ≤ maxVariantWeight))
      (.value "variant weight must be a nonnegative JavaScript-safe integer")
    ensure (decide (total + w ≤ maxVariantWeight))
      (.value "total variant weight exceeds the JavaScript-safe integer limit")
    weightTotal (total + w) ws

def validateVariantWeightContract (weights : List ℤ) : Except SchemaError Unit := do
  ensure (decide (weights ≠ [])) (.value "variants must contain at least one variant")
  ensure (decide (weights.length ≤ maxVariants)) (.value "variants must contain at most 10 entries")
  let total ← weightTotal 0 weights
  ensure (decide (0 < total)) (.value "variant weights must contain at least one positive weight")

def validateVariantWeights (variants : List VariantConfig) : Except SchemaError Unit := do
  validateVariantWeightContract (variants.map VariantConfig.weight)
  ensure (decide (variants.map VariantConfig.key).Nodup)
    (.value "variants must contain unique keys")

def validateVariants (variants : List VariantConfig) (defaultVariant : Text) :
    Except SchemaError Unit := do
  validateVariantWeights variants
  ensure (decide (defaultVariant ∈ variants.map VariantConfig.key))
    (.value "default_variant must match a variant key")

/-- `validate_flag_variant_config`, on the fields of a flag that it reads. -/
def validateFlagVariantConfig (defaultVariant : Text) (variants : List VariantConfig)
    (rules : List GateRule) (fallthrough : FallthroughConfig) : Except SchemaError Unit := do
  ensure (decide (defaultVariant ≠ [])) (.value "default_variant must be a non-empty string")
  Check.all VariantConfig.validate variants
  validateVariants variants defaultVariant
  ensure (decide (rules.length ≤ maxRules)) (.value "rules must contain at most 50 entries")
  Check.all GateRule.validate rules
  fallthrough.validate

/-! ## Flags -/

inductive FlagState
  | draft
  | active
  | disabled
  | archived
  deriving DecidableEq, Repr

def FlagState.name : FlagState → String
  | .draft => "draft"
  | .active => "active"
  | .disabled => "disabled"
  | .archived => "archived"

inductive EvaluationMode
  | client
  | server
  | both
  deriving DecidableEq, Repr

inductive GuardrailMetric
  | frontendErrorRate
  | frontendErrorCount
  deriving DecidableEq, Repr

inductive GuardrailThreshold
  | twiceBaseline
  | atLeastOne
  deriving DecidableEq, Repr

structure GuardrailConfig where
  metric : GuardrailMetric
  threshold : GuardrailThreshold
  scope : Text
  minimumExposures : ℤ
  windowMinutes : ℤ
  deriving DecidableEq

/-- `GuardrailConfig.model_validate`. -/
def GuardrailConfig.validate (g : GuardrailConfig) : Except SchemaError Unit := do
  ensure (decide (0 ≤ g.minimumExposures)) (.field "minimum_exposures")
  ensure (decide (1 ≤ g.windowMinutes) && decide (g.windowMinutes ≤ 90 * 24 * 60))
    (.field "window_minutes")
  match g.metric with
  | .frontendErrorRate =>
    ensure (decide (g.threshold = .twiceBaseline))
      (.value "frontend_error_rate guardrails require threshold '2x_baseline'")
  | .frontendErrorCount =>
    ensure (decide (g.threshold = .atLeastOne))
      (.value "frontend_error_count guardrails require threshold 'at_least_one'")

/-- A code point that `str.strip` removes. -/
def isSpacePoint (c : ℕ) : Bool :=
  (decide (9 ≤ c) && decide (c ≤ 13)) || (decide (28 ≤ c) && decide (c ≤ 32)) ||
    (decide (0x2000 ≤ c) && decide (c ≤ 0x200A)) ||
    [0x85, 0xA0, 0x1680, 0x2028, 0x2029, 0x202F, 0x205F, 0x3000].contains c

def validateOwners (owners : List Text) : Except SchemaError Unit :=
  Check.all (fun o => ensure (!o.codePoints.all isSpacePoint)
    (.value "owners must contain non-empty strings")) owners

def validateStateEnabled (state : FlagState) (enabled : Bool) : Except SchemaError Unit :=
  ensure (enabled == decide (state = .active))
    (.value ("state '" ++ state.name ++ "' requires enabled=" ++
      (if state = .active then "True" else "False")))

structure FlagCreate where
  key : Text
  name : Text
  state : FlagState
  owners : List Text
  reviewBy : Option ℤ
  enabled : Bool
  description : Text
  defaultVariant : Text
  variants : List VariantConfig
  rules : List GateRule
  fallthrough : FallthroughConfig
  evaluationMode : EvaluationMode
  autoDisable : Bool
  guardrails : List GuardrailConfig
  deriving DecidableEq

namespace FlagCreate

/-- What is checked when the model is built from model instances: its own fields and its
validators, but not the rules, variants, fallthrough and guardrails again. -/
def construct (f : FlagCreate) : Except SchemaError Unit := do
  checkIdentifier "default_variant" f.defaultVariant
  ensure (decide (1 ≤ f.variants.length) && decide (f.variants.length ≤ maxVariants))
    (.field "variants")
  checkIdentifier "key" f.key
  ensure (decide (1 ≤ f.name.length)) (.field "name")
  ensure (decide (f.state ≠ .archived)) (.field "state")
  ensure (decide (f.rules.length ≤ maxRules)) (.field "rules")
  ensure (!f.autoDisable) (.field "auto_disable")
  validateVariants f.variants f.defaultVariant
  validateOwners f.owners
  validateStateEnabled f.state f.enabled

/-- `FlagCreate.model_validate` of a request body. -/
def validate (f : FlagCreate) : Except SchemaError Unit := do
  Check.all VariantConfig.validate f.variants
  Check.all GateRule.validate f.rules
  f.fallthrough.validate
  Check.all GuardrailConfig.validate f.guardrails
  f.construct

end FlagCreate

/-! ## Experiments -/

inductive ExperimentStatus
  | draft
  | scheduled
  | running
  | completed
  | stopped
  deriving DecidableEq, Repr

def ExperimentStatus.name : ExperimentStatus → String
  | .draft => "draft"
  | .scheduled => "scheduled"
  | .running => "running"
  | .completed => "completed"
  | .stopped => "stopped"

/-- The statuses that need a complete launch contract: `{"scheduled", "running"}`. -/
def ExperimentStatus.isLaunched (s : ExperimentStatus) : Bool :=
  decide (s = .scheduled) || decide (s = .running)

inductive ExperimentBucketBy
  | anonymousId
  | userId
  deriving DecidableEq, Repr

/-- The attribute name a bucketing choice stands for. -/
def ExperimentBucketBy.text : ExperimentBucketBy → Text
  | .anonymousId => Text.ofString "anonymous_id"
  | .userId => Text.ofString "user_id"

structure ExperimentVariant where
  key : Text
  weight : ℤ
  description : Text
  deriving DecidableEq

/-- `ExperimentVariant.model_validate`. -/
def ExperimentVariant.validate (v : ExperimentVariant) : Except SchemaError Unit := do
  checkIdentifier "key" v.key
  ensure (decide (0 < v.weight) && decide (v.weight ≤ maxVariantWeight)) (.field "weight")

def ExperimentVariant.project (v : ExperimentVariant) : VariantConfig := ⟨v.key, v.weight⟩

/-- The `direction` of a metric. -/
inductive MetricDirection
  | increase
  | decrease
  deriving DecidableEq, Repr

/-- `ExperimentMetric`; its `type` is always `conversion`. -/
structure ExperimentMetric where
  event : Text
  direction : MetricDirection
  deriving DecidableEq

/-- `ExperimentMetric.model_validate`. -/
def ExperimentMetric.validate (m : ExperimentMetric) : Except SchemaError Unit :=
  ensure (decide (1 ≤ m.event.length)) (.field "event")

/-- `ExperimentStatisticalPlan`; its `protocol` is fixed. -/
structure ExperimentStatisticalPlan where
  baselineConversionRate : ℚ
  minimumDetectableEffect : ℚ
  significanceLevel : ℚ
  nominalPower : ℚ
  requiredSampleSizePerArm : ℤ
  dataSettlementSeconds : ℤ
  deriving DecidableEq

def minStatisticalValue : ℚ := 1 / 1000000

/-- `ExperimentStatisticalPlan.model_validate`. -/
def ExperimentStatisticalPlan.validate (p : ExperimentStatisticalPlan) :
    Except SchemaError Unit := do
  ensure (decide (0 ≤ p.baselineConversionRate) && decide (p.baselineConversionRate ≤ 1))
    (.field "baseline_conversion_rate")
  ensure (decide (minStatisticalValue ≤ p.minimumDetectableEffect) &&
    decide (p.minimumDetectableEffect ≤ 1)) (.field "minimum_detectable_effect")
  ensure (decide (minStatisticalValue ≤ p.significanceLevel) &&
    decide (p.significanceLevel ≤ 1 / 2)) (.field "significance_level")
  ensure (decide (1 / 2 < p.nominalPower) && decide (p.nominalPower ≤ 9999 / 10000))
    (.field "nominal_power")
  ensure (decide (2 ≤ p.requiredSampleSizePerArm) &&
    decide (p.requiredSampleSizePerArm ≤ 10000000)) (.field "required_sample_size_per_arm")
  ensure (decide (1 ≤ p.dataSettlementSeconds) && decide (p.dataSettlementSeconds ≤ 86400))
    (.field "data_settlement_seconds")

/-- `prospective_sample_size_per_arm`: the per-arm target of a plan for a number of treatments and
a direction, or the text of the error it raises. -/
abbrev SampleSize := ExperimentStatisticalPlan → ℤ → MetricDirection → Except String ℤ

/-- `MAX_EXPERIMENT_DURATION` in microseconds. -/
def maxExperimentDuration : Time := 90 * 24 * 60 * 60 * 1000000

/-- `validate_experiment_lifecycle` at the instant `now`. -/
def validateExperimentLifecycle (status : ExperimentStatus) (startDate endDate : Option Time)
    (primaryMetric : Option ExperimentMetric) (now : Time) : Except SchemaError Unit := do
  match startDate, endDate with
  | none, some _ => .error (.value "end_date requires start_date")
  | some start, some finish => do
    ensure (decide (start < finish)) (.value "end_date must be after start_date")
    ensure (decide (finish - start ≤ maxExperimentDuration))
      (.value "experiment duration must not exceed 90 days")
  | _, _ => pure ()
  if status.isLaunched then
    match startDate, endDate with
    | some start, some finish => do
      ensure primaryMetric.isSome (.value (status.name ++ " experiments require primary_metric"))
      if status = .scheduled then
        ensure (decide (now < start)) (.value "scheduled experiments require a future start_date")
      else do
        ensure (decide (start ≤ now)) (.value "future experiments must use status 'scheduled'")
        ensure (decide (now < finish)) (.value "running experiments require a future end_date")
    | _, _ => .error (.value (status.name ++ " experiments require start_date and end_date"))
  else pure ()

def validateStatisticalPlan (sampleSize : SampleSize) (status : ExperimentStatus)
    (plan : Option ExperimentStatisticalPlan) (metric : Option ExperimentMetric)
    (variantCount : ℕ) : Except SchemaError Unit :=
  match plan with
  | none =>
    ensure (!status.isLaunched) (.value (status.name ++ " experiments require statistical_plan"))
  | some p =>
    match metric with
    | none => .error (.value "statistical_plan requires primary_metric")
    | some m =>
      match sampleSize p (variantCount - 1) m.direction with
      | .error message => .error (.value message)
      | .ok target =>
        ensure (decide (target ≤ p.requiredSampleSizePerArm))
          (.value ("required_sample_size_per_arm must be at least " ++ toString target ++
            " for the declared statistical plan"))

/-- A letter or digit of the resource-key pattern. -/
def isAlphaNumeric (u : CodeUnit) : Bool :=
  (decide (48 ≤ u.toNat) && decide (u.toNat ≤ 57)) ||
    (decide (65 ≤ u.toNat) && decide (u.toNat ≤ 90)) ||
    (decide (97 ≤ u.toNat) && decide (u.toNat ≤ 122))

/-- `RESOURCE_KEY_PATTERN`, `^[A-Za-z0-9][A-Za-z0-9._-]{0,127}$`. -/
def isResourceKey : Text → Bool
  | [] => false
  | u :: rest =>
    isAlphaNumeric u && decide (rest.length ≤ 127) &&
      rest.all fun v => isAlphaNumeric v || [46, 95, 45].contains v.toNat

structure ExperimentCreate where
  key : Text
  flagKey : Option Text
  bucketBy : ExperimentBucketBy
  status : ExperimentStatus
  description : Text
  trafficPercentage : ℚ
  startDate : Option Time
  endDate : Option Time
  variants : List ExperimentVariant
  defaultVariant : Text
  primaryMetric : Option ExperimentMetric
  statisticalPlan : Option ExperimentStatisticalPlan
  targetingRules : List ExperimentTargetingRule
  deriving DecidableEq

namespace ExperimentCreate

/-- `ExperimentCreateStatus`. -/
def statusAllowed (s : ExperimentStatus) : Bool :=
  decide (s = .draft) || decide (s = .scheduled) || decide (s = .running)

/-- `ExperimentCreate.model_validate` at the instant `now`. -/
def validate (sampleSize : SampleSize) (now : Time) (e : ExperimentCreate) :
    Except SchemaError Unit := do
  ensure (isResourceKey e.key) (.field "key")
  ensure (e.flagKey.all isResourceKey) (.field "flag_key")
  ensure (statusAllowed e.status) (.field "status")
  ensure (decide (0 ≤ e.trafficPercentage) && decide (e.trafficPercentage ≤ 100))
    (.field "traffic_percentage")
  ensure (decide (2 ≤ e.variants.length) && decide (e.variants.length ≤ maxVariants))
    (.field "variants")
  Check.all ExperimentVariant.validate e.variants
  checkIdentifier "default_variant" e.defaultVariant
  Check.all ExperimentMetric.validate e.primaryMetric.toList
  Check.all ExperimentStatisticalPlan.validate e.statisticalPlan.toList
  ensure (decide (e.targetingRules.length ≤ maxRules)) (.field "targeting_rules")
  Check.all ExperimentTargetingRule.validate e.targetingRules
  validateVariants (e.variants.map ExperimentVariant.project) e.defaultVariant
  validateExperimentLifecycle e.status e.startDate e.endDate e.primaryMetric now
  validateStatisticalPlan sampleSize e.status e.statisticalPlan e.primaryMetric e.variants.length

end ExperimentCreate

end Apdl.Config
