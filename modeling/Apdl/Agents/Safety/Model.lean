import Apdl.Lib.PyValue
import Mathlib.Data.List.Sort
import Mathlib.Data.List.Lex

set_option autoImplicit false

/-!
# The safety validator

An agent proposes actions, with a config that a model wrote. Before an action is executed, the validator
runs four checks on its config; an exception of a check is a failed check. The check of the blast radius
bounds the part of the users that a variant other than the default one reaches: the share of its weight
times the rollout.

## Main definitions

* `SafetyValidator.validate` — all of them.

## Design

Numbers are as in Python: integers of any size, true division and products rounded to doubles. The text
of a message with a formatted number is kept as the numbers that it is rendered from. The `repr` of a value
that is no string is a parameter. Log lines are left out.
-/

namespace Apdl.Agents.Safety

open Text (ofString)
open PyValue (Fields field hasField)

inductive ActionType
  | createExperiment
  | updateFlag
  | updateUiConfig
  | featureProposal
  | openPullRequest
  deriving DecidableEq

structure AgentAction where
  type : ActionType
  config : Fields

/-- An exception that ends a check. -/
inductive Crash
  | typeError
  | overflowError
  deriving DecidableEq

inductive Message
  | text (t : Text)
  /-- The check could not evaluate the config. -/
  | crashed (exception : Crash)
  | rolloutAbove (rollout : PyFloat)
  | defaultShareBelow (share : PyFloat)
  /-- A variant other than the default one would reach too many users. -/
  | exposureAbove (exposure : PyFloat)
  | experimentSafe (rollout share : PyFloat)
  | updateSafe (rollout exposure : PyFloat)
  deriving DecidableEq

structure Check where
  name : String
  passed : Bool
  message : Message
  deriving DecidableEq

/-- A message without numbers. -/
def plain (s : String) : Message := .text (ofString s)

/-! ## Flag configs -/

def joinNames : List Text → Text
  | [] => []
  | [name] => name
  | name :: names => name ++ ofString ", " ++ joinNames names

/-- The names of the fields that are not allowed, sorted. -/
def extraFields (fields : Fields) (allowed : List String) : List Text :=
  ((fields.map Prod.fst).filter fun name => name ∉ allowed.map ofString).insertionSort
    fun a b => a.codePoints ≤ b.codePoints

/-- `_REJECTED_FLAG_FIELDS`, sorted. -/
def rejectedFlagFields : List String :=
  ["defaultVariant", "default_value", "rollout_percentage", "targeting_rules", "variant_type",
    "variants_json"]

def experimentBucketByValues : List Text := [ofString "anonymous_id", ofString "user_id"]

def validateRollout (rollout : PyValue) (fieldName : String) (experiment : Bool) : Option Text :=
  match rollout with
  | .dict rollout =>
    let extra := extraFields rollout ["percentage", "bucket_by"]
    let inRange := (field rollout "percentage").number.any fun x =>
      !x.lt (.finite 0) && !(PyFloat.finite 100).lt x
    if extra ≠ [] then
      some (ofString (fieldName ++ " must contain only percentage and bucket_by; found: ") ++
        joinNames extra ++ ofString ".")
    else if inRange = false then
      some (ofString (fieldName ++ ".percentage must be a number from 0 to 100."))
    else
      match field rollout "bucket_by" with
      | .str bucketBy =>
        if bucketBy = [] then some (ofString (fieldName ++ ".bucket_by must be a non-empty string."))
        else if experiment ∧ bucketBy ∉ experimentBucketByValues then
          some (ofString (fieldName ++
            ".bucket_by must be anonymous_id or user_id for experiments."))
        else none
      | _ => some (ofString (fieldName ++ ".bucket_by must be a non-empty string."))
  | _ => some (ofString (fieldName ++ " must be an object."))

def validateFallthrough (fallthrough : PyValue) (experiment : Bool) : Option Text :=
  match fallthrough with
  | .dict fields =>
    let extra := extraFields fields ["rollout"]
    if extra ≠ [] then
      some (ofString "fallthrough must contain only canonical rollout field; found: " ++
        joinNames extra ++ ofString ".")
    else validateRollout (field fields "rollout") "fallthrough.rollout" experiment
  | _ => some (ofString "fallthrough must be an object.")

/-- The message about a weight. -/
def weightError (experiment : Bool) : Text :=
  if experiment then ofString "experiment variant weights must be positive integers."
  else ofString "variant weights must be non-negative integers."

/-- The loop of `_validate_variants`: the keys so far and the total weight, or a message. -/
def validateVariantsFrom (experiment : Bool) : List Text → ℤ → List PyValue →
    Except Text (List Text × ℤ)
  | keys, totalWeight, [] => .ok (keys, totalWeight)
  | keys, totalWeight, .dict variant :: rest =>
    let extra := extraFields variant ["key", "weight"]
    if extra ≠ [] then
      .error (ofString "variants must contain only canonical key and weight fields; found: " ++
        joinNames extra ++ ofString ".")
    else
      match field variant "key", field variant "weight" with
      | .str key, weight =>
        if key = [] then .error (ofString "variant key must be a non-empty string.")
        else if key ∈ keys then .error (ofString "variants must contain unique keys.")
        else
          match weight with
          | .int weight =>
            if weight < 0 ∨ (experiment ∧ weight = 0) then .error (weightError experiment)
            else validateVariantsFrom experiment (keys ++ [key]) (totalWeight + weight) rest
          | _ => .error (weightError experiment)
      | _, _ => .error (ofString "variant key must be a non-empty string.")
  | _, _, _ :: _ => .error (ofString "variants must contain objects.")

def validateVariants (variants : PyValue) (defaultVariant : Option Text) (experiment : Bool) :
    Option Text :=
  match variants with
  | .list [] => some (ofString "variants must contain at least one variant.")
  | .list variants =>
    if experiment ∧ ¬ (2 ≤ variants.length ∧ variants.length ≤ 10) then
      some (ofString "experiment variants must contain between 2 and 10 variants.")
    else
      match validateVariantsFrom experiment [] 0 variants with
      | .error message => some message
      | .ok (keys, totalWeight) =>
        if totalWeight ≤ 0 then
          some (ofString "variant weights must contain at least one positive weight.")
        else if defaultVariant.any fun key => key ∉ keys then
          some (ofString "default_variant must match a variant key.")
        else none
  | _ => some (ofString "variants must contain at least one variant.")

def validateRule (experiment : Bool) (rule : PyValue) : Option Text :=
  match rule with
  | .dict fields =>
    if hasField fields "variants" || hasField fields "default_variant" then
      some (ofString "rules must not define variants or default_variant.")
    else validateRollout (field fields "rollout") "rules.rollout" experiment
  | _ => some (ofString "rules must contain objects.")

/-- `default_variant` of a config: a string that is not empty, or nothing, or a message. -/
def validateDefaultVariant (value : PyValue) (requireComplete : Bool) :
    Except Text (Option Text) :=
  match value with
  | .none =>
    if requireComplete then .error (ofString "default_variant must be a non-empty string.")
    else .ok none
  | .str key =>
    if key = [] then .error (ofString "default_variant must be a non-empty string.") else .ok (some key)
  | _ => .error (ofString "default_variant must be a non-empty string.")

/-- The checks of a field: nothing if it is `None`. -/
def unlessNone (value : PyValue) (check : PyValue → Option Text) : Option Text :=
  if value.isNone then none else check value

/-- `rules` of a config. -/
def validateRules (experiment : Bool) (rules : PyValue) : Option Text :=
  match rules with
  | .list rules => rules.findSome? (validateRule experiment)
  | _ => some (ofString "rules must be a list.")

/-- `auto_disable` of a config: a list or a dictionary cannot be looked up in a set. -/
def validateAutoDisable (value : PyValue) : Except Crash (Option Text) :=
  match value with
  | .list _ | .dict _ => .error .typeError
  | _ =>
    -- `0` and `0.0` equal `False`
    if value.isNone || (match value with
      | .bool b => !b
      | .int n => n == 0
      | .float x => x == .finite 0
      | _ => false) then .ok none
    else .ok (some (ofString
      "auto_disable must be false; automatic guardrail mutation is unavailable."))

/-- `_validate_variant_flag_config` up to `auto_disable`. -/
def validateTrafficFields (config : Fields) (requireComplete experiment : Bool) : Option Text :=
  let rejected := rejectedFlagFields.filter fun name => hasField config name
  let missing := ["default_variant", "variants", "rules", "fallthrough"].find? fun name =>
    !hasField config name
  if rejected ≠ [] then
    some (ofString "Flag config contains non-canonical field(s): " ++
      joinNames (rejected.map ofString) ++ ofString ".")
  else if (match field config "fallthrough" with
      | .dict fields => hasField fields "value"
      | _ => false) then
    some (ofString "fallthrough must only contain rollout.")
  else if requireComplete ∧ missing.isSome then
    missing.map fun name => ofString ("flag_config." ++ name ++ " is required.")
  else
    match validateDefaultVariant (field config "default_variant") requireComplete with
    | .error message => some message
    | .ok defaultVariant =>
      if requireComplete ∧ (field config "variants").isNone then
        some (ofString "variants must contain at least one variant.")
      else
        (unlessNone (field config "variants") fun variants =>
          validateVariants variants defaultVariant experiment).or
        ((unlessNone (field config "rules") (validateRules experiment)).or
        (unlessNone (field config "fallthrough") fun fallthrough =>
          validateFallthrough fallthrough experiment))

def validateVariantFlagConfig (config : Fields) (requireComplete experiment : Bool) :
    Except Crash (Option Text) :=
  match validateTrafficFields config requireComplete experiment with
  | some message => .ok (some message)
  | none => validateAutoDisable (field config "auto_disable")

/-! ## Blast radius -/

/-- `weights[key] = weight`. -/
def setWeight (weights : List (Text × ℤ)) (key : Text) (weight : ℤ) : List (Text × ℤ) :=
  if key ∈ weights.map Prod.fst then
    weights.map fun entry => if entry.1 = key then (key, weight) else entry
  else weights ++ [(key, weight)]

/-- The loop of `_variant_weights`; `none` returns no weights at all. -/
def variantWeightsFrom : List (Text × ℤ) → List PyValue → Option (List (Text × ℤ))
  | weights, [] => some weights
  | weights, .dict variant :: rest =>
    match field variant "key", field variant "weight" with
    | .str key, .int weight => variantWeightsFrom (setWeight weights key weight) rest
    | _, _ => none
  | _, _ :: _ => none

def variantWeights (variants : PyValue) : List (Text × ℤ) :=
  match variants with
  | .list variants => (variantWeightsFrom [] variants).getD []
  | _ => []

def rolloutPercentage (rollout : PyValue) : Except Crash (Option PyFloat) :=
  match rollout with
  | .dict fields =>
    match field fields "percentage" with
    | .int n =>
      match Double.round n with
      | some q => .ok (some (.finite q))
      | none => .error .overflowError
    | .float x => .ok (some x)
    | _ => .ok none
  | _ => .ok none

/-- The percentages of the rules; `none` where a rule is no object. -/
def rulePercentages : List PyValue → Except Crash (Option (List PyFloat))
  | [] => .ok (some [])
  | .dict rule :: rest => do
    let percentage ← rolloutPercentage (field rule "rollout")
    let percentages ← rulePercentages rest
    return percentages.map (percentage.toList ++ ·)
  | _ :: _ => .ok none

def fallthroughPercentage (config : Fields) : Except Crash (Option PyFloat) :=
  match field config "fallthrough" with
  | .dict fallthrough => rolloutPercentage (field fallthrough "rollout")
  | _ => .ok none

/-- The percentages of the list of rules; a missing one is empty. -/
def rulesPercentages (config : Fields) : Except Crash (Option (List PyFloat)) :=
  match field config "rules" with
  | .list rules => rulePercentages rules
  | _ => .ok (some [])

/-- The percentages of `_max_rollout_percentage`; `none` where a rule is no object. -/
def percentages (config : Fields) : Except Crash (Option (List PyFloat)) := do
  let fallthrough ← fallthroughPercentage config
  let rules ← rulesPercentages config
  return rules.map (fallthrough.toList ++ ·)

def maxRolloutPercentage (config : Fields) : Except Crash (Option PyFloat) :=
  (percentages config).map fun
    | some (x :: rest) => some (PyFloat.max x rest)
    | _ => none

/-- `weight / total`. -/
def divide (weight total : ℤ) : Except Crash ℚ :=
  match Double.round (weight / total) with
  | some q => .ok q
  | none => .error .overflowError

/-- The greatest exposure of a variant other than the default one; `0.0` if there is none. -/
def maxNonDefaultExposure (weights : List (Text × ℤ)) (totalWeight : ℤ) (defaultVariant : Text)
    (rolloutPercentage : PyFloat) : Except Crash PyFloat :=
  (((weights.filter fun entry => entry.1 ≠ defaultVariant).map Prod.snd).mapM fun weight =>
    (divide weight totalWeight).map fun share => PyFloat.scale share rolloutPercentage).map fun
      | [] => .finite 0
      | x :: rest => PyFloat.max x rest

def totalWeight (weights : List (Text × ℤ)) : ℤ := (weights.map Prod.snd).sum

/-- `default_variant` if it is a key of the weights. A false value fails the check before it is looked up,
and a list or a dictionary cannot be looked up. -/
def lookupDefault (value : PyValue) (weights : List (Text × ℤ)) : Except Crash (Option Text) :=
  match value with
  | .str key => .ok (if key ≠ [] ∧ key ∈ weights.map Prod.fst then some key else none)
  | .list (_ :: _) | .dict (_ :: _) =>
    if totalWeight weights ≤ 0 then .ok none else .error .typeError
  | _ => .ok none

def checkExposure (weights : List (Text × ℤ)) (defaultVariant : Text) (rollout : PyFloat)
    (safe : PyFloat → Message) : Except Crash Check :=
  (maxNonDefaultExposure weights (totalWeight weights) defaultVariant rollout).map fun exposure =>
    if (PyFloat.finite 50).lt exposure then ⟨"blast_radius", false, .exposureAbove exposure⟩
    else ⟨"blast_radius", true, safe exposure⟩

/-- `_check_blast_radius` of `create_experiment`. -/
def checkExperimentRadius (config : Fields) : Except Crash Check :=
  match (if hasField config "flag_config" then field config "flag_config" else .dict []) with
  | .dict flagConfig => do
    let weights := variantWeights (field flagConfig "variants")
    let defaultVariant ← lookupDefault (field flagConfig "default_variant") weights
    match if totalWeight weights ≤ 0 then none else defaultVariant with
    | none => return ⟨"blast_radius", false,
        plain "Cannot assess blast radius until variant config is valid."⟩
    | some defaultVariant =>
      match ← maxRolloutPercentage flagConfig with
      | none => return ⟨"blast_radius", false,
          plain "Cannot assess blast radius without rule or fallthrough rollout percentage."⟩
      | some rollout =>
        if (PyFloat.finite 100).lt rollout then
          return ⟨"blast_radius", false, .rolloutAbove rollout⟩
        else
          let share ← divide ((weights.lookup defaultVariant).getD 0) (totalWeight weights)
          let defaultShare := PyFloat.scale share (.finite 100)
          if defaultShare.lt (.finite 10) then
            return ⟨"blast_radius", false, .defaultShareBelow defaultShare⟩
          else checkExposure weights defaultVariant rollout fun _ => .experimentSafe rollout defaultShare
  | _ => .ok ⟨"blast_radius", false, plain "Cannot assess blast radius without canonical flag_config."⟩

/-- `_check_blast_radius` of `update_flag`. -/
def checkUpdateRadius (config : Fields) : Except Crash Check := do
  let rollout ← maxRolloutPercentage config
  if (field config "variants").isNone && rollout.isNone then
    return ⟨"blast_radius", true, plain "Update changes no traffic-affecting fields."⟩
  else
    let weights := variantWeights (field config "variants")
    let defaultVariant ← lookupDefault (field config "default_variant") weights
    match (if totalWeight weights ≤ 0 then none else defaultVariant), rollout with
    | some defaultVariant, some rollout =>
      checkExposure weights defaultVariant rollout (.updateSafe rollout)
    | _, _ => return ⟨"blast_radius", false,
        plain ("Flag update changes traffic allocation but blast radius cannot be assessed — include " ++
          "variants, default_variant, and a rollout percentage.")⟩

/-- `_check_blast_radius` of `update_ui_config`. -/
def checkUiRadius (config : Fields) : Check :=
  let hasTargeting := match field config "targeting" with
    | .dict targeting => (field targeting "segment").truthy || (field targeting "conditions").truthy
    | .list targeting => !targeting.isEmpty
    | _ => false
  if hasTargeting then ⟨"blast_radius", true, plain "UI config has targeting criteria."⟩
  else ⟨"blast_radius", false, plain "UI config has no targeting — would affect all users."⟩

/-! ## Checks -/

def checkConflicts (action : AgentAction) : Check :=
  let config := action.config
  let flagConfigKey := match field config "flag_config" with
    | .dict flagConfig => field flagConfig "key"
    | _ => .none
  match action.type with
  | .createExperiment =>
    if !(field config "experiment_id").truthy then
      ⟨"conflict_check", false, plain "Experiment ID is missing."⟩
    else if !(field config "flag_key").truthy && !flagConfigKey.truthy then
      ⟨"conflict_check", false, plain "Flag key is missing from experiment design."⟩
    else ⟨"conflict_check", true, plain ("Experiment identity fields are present; authoritative " ++
      "Config conflict evidence is evaluated by the experiment-design graph.")⟩
  | .updateFlag =>
    if (field config "key").truthy then ⟨"conflict_check", true, plain "No conflicts detected."⟩
    else ⟨"conflict_check", false, plain "Flag key is missing."⟩
  | _ => ⟨"conflict_check", true, plain "No conflicts detected."⟩

def checkVariantConfig (action : AgentAction) : Except Crash Check :=
  match action.type with
  | .createExperiment =>
    match field action.config "flag_config" with
    | .dict flagConfig =>
      (validateVariantFlagConfig flagConfig true true).map fun
        | some message => ⟨"variant_config", false, .text message⟩
        | none => ⟨"variant_config", true, plain "Canonical variant flag config is valid."⟩
    | _ => .ok ⟨"variant_config", false,
        plain "Experiment design must include canonical flag_config."⟩
  | .updateFlag =>
    (validateVariantFlagConfig action.config false false).map fun
      | some message => ⟨"variant_config", false, .text message⟩
      | none => ⟨"variant_config", true, plain "No variant config changes require validation."⟩
  | _ => .ok ⟨"variant_config", true, plain "No variant config changes require validation."⟩

def checkBlastRadius (action : AgentAction) : Except Crash Check :=
  match action.type with
  | .createExperiment => checkExperimentRadius action.config
  | .updateFlag => checkUpdateRadius action.config
  | .updateUiConfig => .ok (checkUiRadius action.config)
  | _ => .ok ⟨"blast_radius", true, plain "Blast radius is acceptable."⟩

/-- `len(str(value or ""))`. -/
def textLength (repr : PyValue → Text) (value : PyValue) : ℕ :=
  if value.truthy then
    match value with
    | .str s => s.length
    | _ => (repr value).length
  else 0

def checkGuardrails (repr : PyValue → Text) (action : AgentAction) : Check :=
  let config := action.config
  match action.type with
  | .createExperiment =>
    match field config "primary_metric" with
    | .dict primaryMetric =>
      if !(field primaryMetric "event").truthy then
        ⟨"guardrails", false, plain "Primary metric event is not defined."⟩
      else if hasField primaryMetric "type" && (match field primaryMetric "type" with
          | .str s => decide (s ≠ ofString "conversion")
          | _ => true) then
        ⟨"guardrails", false, plain "Primary metric type must be conversion."⟩
      else if textLength repr (field config "hypothesis") < 10 then
        ⟨"guardrails", false,
          plain "Hypothesis is missing or too short. Experiments need a clear hypothesis."⟩
      else ⟨"guardrails", true, plain "Required experiment design fields are present."⟩
    | _ => ⟨"guardrails", false, plain "Primary metric event is not defined."⟩
  | .featureProposal =>
    if !(field config "risks").truthy then
      ⟨"guardrails", false, plain "Feature proposal has no documented risks."⟩
    else if !(field config "success_criteria").truthy then
      ⟨"guardrails", false, plain "Feature proposal has no success criteria."⟩
    else ⟨"guardrails", true, plain "Proposal includes required risks and success criteria."⟩
  | .openPullRequest =>
    if !(field config "title").truthy then
      ⟨"guardrails", false, plain "Pull request is missing a title."⟩
    else if textLength repr (field config "spec") < 10 then
      ⟨"guardrails", false, plain "Pull request spec is missing or too short."⟩
    else ⟨"guardrails", true, plain "Pull request has a title and spec."⟩
  | _ => ⟨"guardrails", true, plain "Guardrail requirements met."⟩

/-- `_run_check`: an exception is a failed check. -/
def runCheck (name : String) : Except Crash Check → Check
  | .ok check => check
  | .error exception => ⟨name, false, .crashed exception⟩

inductive RiskLevel
  | low
  | medium
  | high
  deriving DecidableEq

/-- The risk of an action whose checks pass. -/
def inherentRisk : ActionType → RiskLevel
  | .updateUiConfig => .low
  | .updateFlag => .medium
  | .createExperiment => .medium
  | .featureProposal => .high
  | .openPullRequest => .low

structure SafetyResult where
  passed : Bool
  checks : List Check
  riskLevel : RiskLevel
  deriving DecidableEq

def SafetyValidator.validate (repr : PyValue → Text) (action : AgentAction) : SafetyResult :=
  let checks := [checkConflicts action,
    runCheck "variant_config" (checkVariantConfig action),
    runCheck "blast_radius" (checkBlastRadius action), checkGuardrails repr action]
  let passed := checks.all Check.passed
  ⟨passed, checks, if passed then inherentRisk action.type else .high⟩

end Apdl.Agents.Safety
