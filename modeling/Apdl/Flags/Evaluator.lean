import Apdl.Config.Schemas
import Apdl.Flags.Hash
import Mathlib.Algebra.Ring.Int.Defs
import Mathlib.Data.List.Infix

set_option autoImplicit false

/-!
# The three flag evaluators

`evaluate` of the config service, `FlagEvaluator.evaluate` of the Python SDK and
`FlagEvaluator.evaluate` of the JavaScript SDK, with the parsing that decides which configurations
the SDK caches hold.

## Main definitions

* `ConfigService.evaluate`, `Python.evaluate`, `JavaScript.evaluate` — the evaluators.

## Design

`resolve_attribute`, `apply_rollout`, `assign_variant` and `assign_weighted_variant` are the same
code in all three, so each is one definition over a `Runtime`; condition matching, the limits that
are checked again and the order of the checks differ and have a definition for each. Python counts
and searches code points, JavaScript code units. A Python evaluator that raises gives `none`. Buckets
and targets are exact fractions. `version` is stored in an integer column, which JavaScript reads
exactly; the `source` of a result only says where the configuration came from and is left out.
-/

namespace Apdl.Flags

open Config (GateCondition GateRule RolloutConfig VariantConfig FallthroughConfig FlagState
  SchemaError checkIdentifier boundedLength maxVariants maxVariantWeight validateVariants
  validateVariantWeightContract)
open Check

/-! ## Configurations -/

structure ClientFlagConfig where
  key : Text
  enabled : Bool
  defaultVariant : Text
  variants : List VariantConfig
  salt : Text
  rules : List GateRule
  fallthrough : FallthroughConfig
  version : ℕ
  deriving DecidableEq

/-- `ClientFlagConfig.model_validate`. -/
def ClientFlagConfig.validate (f : ClientFlagConfig) : Except SchemaError Unit := do
  checkIdentifier "default_variant" f.defaultVariant
  ensure (decide (1 ≤ f.variants.length) && decide (f.variants.length ≤ maxVariants))
    (.field "variants")
  Check.all VariantConfig.validate f.variants
  checkIdentifier "key" f.key
  ensure (boundedLength 0 maxStringLength f.salt) (.field "salt")
  ensure (decide (f.rules.length ≤ maxRules)) (.field "rules")
  Check.all GateRule.validate f.rules
  f.fallthrough.validate
  ensure (decide (1 ≤ f.version)) (.field "version")
  validateVariants f.variants f.defaultVariant

/-- `GateConfig.model_validate` of the Python SDK: the fields and bounds of `ClientFlagConfig`. -/
def Python.validate (f : ClientFlagConfig) : Except SchemaError Unit := f.validate

namespace JavaScript

/-- `hasCanonicalVariantWeights`, its loop: the total, `none` when a weight is out of range. -/
def weightTotal : ℤ → List ℤ → Option ℤ
  | total, [] => some total
  | total, w :: ws =>
    if w < 0 ∨ maxVariantWeight < w ∨ maxVariantWeight - w < total then none
    else weightTotal (total + w) ws

def hasCanonicalVariantWeights (weights : List ℤ) : Bool :=
  decide (weights.length ≠ 0) && decide (weights.length ≤ maxVariants) &&
    match weightTotal 0 weights with
    | none => false
    | some total => decide (0 < total)

def isRolloutConfig (r : RolloutConfig) : Bool :=
  decide (0 ≤ r.percentage) && decide (r.percentage ≤ 100) &&
    isIdentifier Text.unitLength r.bucketBy

def isFlagCondition (c : GateCondition) : Bool :=
  isIdentifier Text.unitLength c.attr &&
    if c.operator.isPresence then c.value.isNone
    else
      match c.value with
      | none => false
      | some v => decide (v ≠ .null) && isConditionValueValid Text.unitLength c.operator v

def isFlagRule (r : GateRule) : Bool :=
  isIdentifier Text.unitLength r.id && isBoundedText Text.unitLength r.name &&
    decide (r.conditions.length ≤ maxConditionsPerRule) && r.conditions.all isFlagCondition &&
    isRolloutConfig r.rollout

def isVariantList (variants : List VariantConfig) (defaultVariant : Text) : Bool :=
  hasCanonicalVariantWeights (variants.map VariantConfig.weight) &&
    variants.all (fun v => isIdentifier Text.unitLength v.key) &&
    decide (variants.map VariantConfig.key).Nodup &&
    decide (defaultVariant ∈ variants.map VariantConfig.key)

def isFlagConfig (f : ClientFlagConfig) : Bool :=
  isIdentifier Text.unitLength f.key && isIdentifier Text.unitLength f.defaultVariant &&
    isVariantList f.variants f.defaultVariant && isBoundedText Text.unitLength f.salt &&
    decide (f.rules.length ≤ maxRules) && f.rules.all isFlagRule &&
    isRolloutConfig f.fallthrough.rollout && decide (1 ≤ f.version)

end JavaScript

/-- What an SDK cache holds under a key. -/
inductive CacheEntry
  | config (flag : ClientFlagConfig)
  | invalid
  | missing

/-- A fresh cache of the Python SDK after a payload with this flag: `parse_flag_config_result`. -/
def Python.load (f : ClientFlagConfig) : CacheEntry :=
  match Python.validate f with
  | .ok () => .config f
  | .error _ => if f.key = [] then .missing else .invalid

/-- A fresh cache of the JavaScript SDK after a payload with this flag: `parseFlagConfigResult`. A
payload with a flag that has no usable key is dropped as a whole. -/
def JavaScript.load (f : ClientFlagConfig) : CacheEntry :=
  if isFlagConfig f then .config f
  else if isIdentifier Text.unitLength f.key then .invalid
  else .missing

structure EvalContext where
  userId : Option Text
  anonymousId : Option Text
  attributes : List (Text × Json)

/-- `_resolve_attribute`: the value of an attribute that is present, which a null never is. -/
def resolveAttribute (attr : Text) (ctx : EvalContext) : Option Json :=
  if attr = Text.ofString "user_id" then ctx.userId.map .str
  else if attr = Text.ofString "anonymous_id" then ctx.anonymousId.map .str
  else (ctx.attributes.lookup attr).filter fun v => decide (v ≠ .null)

/-! ## Conditions -/

/-- The comparison of a numeric operator; any other operator is `lte` here. -/
def compareNumeric (op : Operator) (a b : ℚ) : Bool :=
  match op with
  | .gt => decide (b < a)
  | .gte => decide (b ≤ a)
  | .lt => decide (a < b)
  | _ => decide (a ≤ b)

/-- The numeric operators on values. -/
def numericHolds (len : Text → ℕ) (op : Operator) (actual expected : Json) : Bool :=
  match parseNumeric len actual, parseNumeric len expected with
  | some a, some b => compareNumeric op a b
  | _, _ => false

/-- The membership test `any(scalar_equal(actual, item) for item in expected)`. -/
def memberOf (len : Text → ℕ) (actual expected : Json) : Bool :=
  match expected with
  | .arr items => items.any (scalarEqual len actual)
  | _ => false

/-- A string operator on two strings, the first of which is within bounds. -/
def stringHolds (len : Text → ℕ) (test : Text → Text → Bool) (actual expected : Json) : Bool :=
  match actual, expected with
  | .str a, .str e => isBoundedText len a && test a e
  | _, _ => false

namespace Python

/-- `expected in actual`. -/
def contains (actual expected : Text) : Bool :=
  decide (expected.codePoints <:+: actual.codePoints)

/-- `actual.startswith(expected)`. -/
def startsWith (actual expected : Text) : Bool :=
  decide (expected.codePoints <+: actual.codePoints)

/-- `actual.endswith(expected)`. -/
def endsWith (actual expected : Text) : Bool :=
  decide (expected.codePoints <:+ actual.codePoints)

/-- The operators that compare a present value with the expected one. -/
def operatorHolds (op : Operator) (actual expected : Json) : Bool :=
  match op with
  | .equals => scalarEqual Text.length actual expected
  | .notEquals => isScalar Text.length actual && !scalarEqual Text.length actual expected
  | .contains => stringHolds Text.length contains actual expected
  | .notContains => stringHolds Text.length (fun a e => !contains a e) actual expected
  | .startsWith => stringHolds Text.length startsWith actual expected
  | .endsWith => stringHolds Text.length endsWith actual expected
  | .isIn =>
    isScalar Text.length actual && isMembershipList Text.length expected &&
      memberOf Text.length actual expected
  | .notIn =>
    isScalar Text.length actual && isMembershipList Text.length expected &&
      !memberOf Text.length actual expected
  | .gt | .gte | .lt | .lte => numericHolds Text.length op actual expected
  | .exists | .notExists => false

def matchesCondition (c : GateCondition) (ctx : EvalContext) : Bool :=
  match c.operator with
  | .exists => (resolveAttribute c.attr ctx).isSome
  | .notExists => (resolveAttribute c.attr ctx).isNone
  | op =>
    match resolveAttribute c.attr ctx with
    | none => false
    | some actual =>
      isConditionValueValid Text.length op (c.value.getD .null) &&
        operatorHolds op actual (c.value.getD .null)

def matchesRule (ctx : EvalContext) (r : GateRule) : Bool :=
  r.conditions.all fun c => matchesCondition c ctx

end Python

namespace ConfigService

/-- The checks with which `matches_condition` and `matchesCondition` refuse a malformed condition. -/
def conditionValid (len : Text → ℕ) (c : GateCondition) : Bool :=
  isIdentifier len c.attr &&
    if c.operator.isPresence then c.value.isNone
    else
      match c.value with
      | none => false
      | some v => isConditionValueValid len c.operator v

def matchesCondition (c : GateCondition) (ctx : EvalContext) : Bool :=
  conditionValid Text.length c &&
    match c.operator with
    | .exists => (resolveAttribute c.attr ctx).isSome
    | .notExists => (resolveAttribute c.attr ctx).isNone
    | op =>
      match resolveAttribute c.attr ctx, c.value with
      | some actual, some expected => Python.operatorHolds op actual expected
      | _, _ => false

def matchesRule (ctx : EvalContext) (r : GateRule) : Bool :=
  decide (r.conditions.length ≤ maxConditionsPerRule) &&
    r.conditions.all fun c => matchesCondition c ctx

/-- `_rules_within_limits` and `rulesWithinLimits`. -/
def rulesWithinLimits (len : Text → ℕ) (rules : List GateRule) : Bool :=
  decide (rules.length ≤ maxRules) && rules.all fun r =>
    isIdentifier len r.id && decide (r.conditions.length ≤ maxConditionsPerRule)

end ConfigService

namespace JavaScript

/-- A string operator whose expected string is checked too. -/
def boundedHolds (test : Text → Text → Bool) (actual expected : Json) : Bool :=
  isBoundedString Text.unitLength expected && stringHolds Text.unitLength test actual expected

/-- The operators that compare a present value with the expected one. -/
def operatorHolds (op : Operator) (actual expected : Json) : Bool :=
  match op with
  | .equals => scalarEqual Text.unitLength actual expected
  | .notEquals => isScalar Text.unitLength actual && !scalarEqual Text.unitLength actual expected
  | .contains => boundedHolds (fun a e => decide (e <:+: a)) actual expected
  | .notContains => boundedHolds (fun a e => !decide (e <:+: a)) actual expected
  | .startsWith => boundedHolds (fun a e => decide (e <+: a)) actual expected
  | .endsWith => boundedHolds (fun a e => decide (e <:+ a)) actual expected
  | .isIn =>
    isScalar Text.unitLength actual && isMembershipList Text.unitLength expected &&
      memberOf Text.unitLength actual expected
  | .notIn =>
    isScalar Text.unitLength actual && isMembershipList Text.unitLength expected &&
      !memberOf Text.unitLength actual expected
  | .gt | .gte | .lt | .lte => numericHolds Text.unitLength op actual expected
  | .exists | .notExists => false

def matchesCondition (c : GateCondition) (ctx : EvalContext) : Bool :=
  ConfigService.conditionValid Text.unitLength c &&
    match c.operator with
    | .exists => (resolveAttribute c.attr ctx).isSome
    | .notExists => (resolveAttribute c.attr ctx).isNone
    | op =>
      match resolveAttribute c.attr ctx, c.value with
      | some actual, some expected => operatorHolds op actual expected
      | _, _ => false

def matchesRule (ctx : EvalContext) (r : GateRule) : Bool :=
  decide (r.conditions.length ≤ maxConditionsPerRule) &&
    r.conditions.all fun c => matchesCondition c ctx

end JavaScript

/-! ## Rollouts and variants -/

/-- What the rest of an evaluation takes from its language. -/
structure Runtime where
  /-- The length of a string. -/
  len : Text → ℕ
  /-- The bucketing hash, `none` when it raises. -/
  hash : Text → Text → Text → Option ℕ
  /-- The check of `assign_weighted_variant` on the weights. -/
  weightsValid : List ℤ → Bool
  /-- `variant or default` and `variant ?? default`. -/
  orDefault : Option Text → Text → Text

/-- Python; an empty string is falsy. -/
def Runtime.python : Runtime where
  len := Text.length
  hash := Python.hashBucket
  weightsValid ws := decide (validateVariantWeightContract ws = .ok ())
  orDefault v d :=
    match v with
    | none => d
    | some v => if v = [] then d else v

/-- JavaScript, with or without a `TextEncoder`. -/
def Runtime.javascript (textEncoder : Bool) : Runtime where
  len := Text.unitLength
  hash k s u := some (JavaScript.hashBucket textEncoder k s u)
  weightsValid := JavaScript.hasCanonicalVariantWeights
  orDefault v d := v.getD d

/-- Why an evaluation returned what it did. -/
inductive Reason
  | notFound
  | invalidConfig
  | disabled
  | error
  | ruleMatch
  | ruleRollout
  | fallthrough
  | fallthroughRollout
  deriving DecidableEq, Repr

structure EvalResult where
  key : Text
  variant : Option Text
  reason : Reason
  ruleId : Option Text
  rolloutBucket : Option ℚ
  variantBucket : Option ℚ
  rolloutPercentage : Option ℚ
  bucketBy : Option Text
  configVersion : Option ℕ
  deriving DecidableEq

/-- A result without details. -/
def EvalResult.plain (key : Text) (variant : Option Text) (reason : Reason)
    (configVersion : Option ℕ) : EvalResult :=
  { key := key, variant := variant, reason := reason, ruleId := none, rolloutBucket := none,
    variantBucket := none, rolloutPercentage := none, bucketBy := none,
    configVersion := configVersion }

section Runtime

variable (R : Runtime)

/-- `_unit_id`, empty when there is none. -/
def unitId (ctx : EvalContext) (bucketBy : Text) : Text :=
  if isIdentifier R.len bucketBy then
    match resolveAttribute bucketBy ctx with
    | some (.str v) => if isIdentifier R.len v then v else []
    | _ => []
  else []

/-- The result of `_apply_rollout`. -/
structure RolloutResult where
  passed : Bool
  bucket : Option ℚ
  percentage : ℚ
  bucketBy : Text

def applyRollout (f : ClientFlagConfig) (rollout : RolloutConfig) (ctx : EvalContext) :
    Option RolloutResult :=
  if unitId R ctx rollout.bucketBy = [] then
    some ⟨false, none, rollout.percentage, rollout.bucketBy⟩
  else
    (R.hash f.key (f.salt ++ Text.ofString ":rollout") (unitId R ctx rollout.bucketBy)).map fun h =>
      ⟨decide (percentageBucket h < rollout.percentage), some (percentageBucket h),
        rollout.percentage, rollout.bucketBy⟩

/-- The loop of `assign_weighted_variant`: the first variant whose cumulative weight exceeds the
target, else the last one with a positive weight. -/
def pickVariant (target : ℚ) : ℤ → Option Text → List VariantConfig → Option Text
  | _, last, [] => last
  | cumulative, last, v :: vs =>
    if v.weight ≤ 0 then pickVariant target cumulative last vs
    else if target < (cumulative + v.weight : ℤ) then some v.key
    else pickVariant target (cumulative + v.weight) (some v.key) vs

def assignWeightedVariant (variants : List VariantConfig) (bucket : ℚ) : Option Text :=
  if R.weightsValid (variants.map VariantConfig.weight) then
    pickVariant (bucket / 100 * ((variants.map VariantConfig.weight).sum : ℤ)) 0 none variants
  else none

def assignVariant (f : ClientFlagConfig) (ctx : EvalContext) (bucketBy : Text) :
    Option (Text × Option ℚ) :=
  if unitId R ctx bucketBy = [] then some (f.defaultVariant, none)
  else
    (R.hash f.key (f.salt ++ Text.ofString ":variant") (unitId R ctx bucketBy)).map fun h =>
      (R.orDefault (assignWeightedVariant R f.variants (percentageBucket h)) f.defaultVariant,
        some (percentageBucket h))

/-- Apply the rollout of a matched rule or of the fallthrough and assign a variant. -/
def decideRollout (f : ClientFlagConfig) (ctx : EvalContext) (ruleId : Option Text)
    (rollout : RolloutConfig) (passed failed : Reason) : Option EvalResult := do
  let r ← applyRollout R f rollout ctx
  let result : EvalResult :=
    { key := f.key, variant := some f.defaultVariant, reason := .error, ruleId := ruleId,
      rolloutBucket := r.bucket, variantBucket := none, rolloutPercentage := some r.percentage,
      bucketBy := some r.bucketBy, configVersion := some f.version }
  if r.bucket.isNone then some result
  else if r.passed then do
    let (variant, variantBucket) ← assignVariant R f ctx r.bucketBy
    some { result with
      variant := some variant, variantBucket := variantBucket, reason := passed }
  else some { result with reason := failed }

/-- The outcome for the first rule that matches, or for the fallthrough. -/
def serve (f : ClientFlagConfig) (ctx : EvalContext) (selected : Option GateRule) :
    Option EvalResult :=
  match selected with
  | some rule => decideRollout R f ctx (some rule.id) rule.rollout .ruleMatch .ruleRollout
  | none => decideRollout R f ctx none f.fallthrough.rollout .fallthrough .fallthroughRollout

end Runtime

/-! ## The evaluators -/

/-- `_canonical_evaluation_flag` succeeds. -/
def ConfigService.canonicalEvaluationFlag (f : ClientFlagConfig) : Except SchemaError Unit := do
  Check.all (fun r : GateRule => r.rollout.validate) f.rules
  f.fallthrough.validate
  validateVariantWeightContract (f.variants.map VariantConfig.weight)

/-- `evaluate` of the config service; `state` is `none` for a document without one. -/
def ConfigService.evaluate (state : Option FlagState) (f : ClientFlagConfig) (ctx : EvalContext) :
    Option EvalResult :=
  match ConfigService.canonicalEvaluationFlag f with
  | .error _ =>
    some (.plain f.key none .invalidConfig (if 1 ≤ f.version then some f.version else none))
  | .ok () =>
    if state.getD .active ≠ .active then
      some (.plain f.key (some f.defaultVariant) .disabled (some f.version))
    else if f.enabled = false then
      some (.plain f.key (some f.defaultVariant) .disabled (some f.version))
    else if ConfigService.rulesWithinLimits Text.length f.rules = false then
      some (.plain f.key (some f.defaultVariant) .error (some f.version))
    else serve .python f ctx (f.rules.find? (ConfigService.matchesRule ctx))

/-- `FlagEvaluator.evaluate` of the Python SDK. -/
def Python.evaluate (key : Text) (entry : CacheEntry) (ctx : EvalContext) : Option EvalResult :=
  match entry with
  | .missing => some (.plain key none .notFound none)
  | .invalid => some (.plain key none .invalidConfig none)
  | .config f =>
    if f.enabled = false then
      some (.plain f.key (some f.defaultVariant) .disabled (some f.version))
    else serve .python f ctx (f.rules.find? (Python.matchesRule ctx))

/-- `FlagEvaluator.evaluate` of the JavaScript SDK. -/
def JavaScript.evaluate (textEncoder : Bool) (key : Text) (entry : CacheEntry)
    (ctx : EvalContext) : Option EvalResult :=
  match entry with
  | .missing => some (.plain key none .notFound none)
  | .invalid => some (.plain key none .invalidConfig none)
  | .config f =>
    if f.enabled = false then
      some (.plain f.key (some f.defaultVariant) .disabled (some f.version))
    else if ConfigService.rulesWithinLimits Text.unitLength f.rules = false then
      some (.plain f.key (some f.defaultVariant) .error (some f.version))
    else serve (.javascript textEncoder) f ctx (f.rules.find? (JavaScript.matchesRule ctx))

end Apdl.Flags
