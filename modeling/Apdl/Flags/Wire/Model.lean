import Apdl.Flags.Evaluator
import Apdl.Lib.Document

set_option autoImplicit false

/-!
# Flag payloads and their two parsers

`parseFlagConfigResult` of the JavaScript SDK (`flags/schema.ts`) and `parse_flag_config_result` of
the Python SDK (`flags/parse.py` with the models of `flags/models.py`), on JSON documents.

## Main definitions

* `Python.gateConfig`, `Python.parseFlagConfigResult` — the models.

## Design

A type guard of the JavaScript code returns the configuration it narrows its argument to, and
`none` where it is false; `GateConfig.model_validate` returns the model or `none` where it raises.
A field that is missing is `undefined` for JavaScript, which no check accepts.

JavaScript reads every number as a double. Python reads a literal without fraction and exponent as
an exact integer, which a strict integer field requires.

What pydantic makes of a value that does not have the type of a field is not part of the
repository: the lax conversions of `bool` and `float`, and which strings a `str` with a length
bound takes, are parameters. A percentage that is converted from something else than a number is
only known to be accepted or not; its value is never compared.
-/

namespace Apdl.Flags.Wire

open Config (GateCondition GateRule RolloutConfig VariantConfig FallthroughConfig operatorName
  boundedLength maxVariants maxVariantWeight validateVariants)
open Doc (Fields)

/-- `FlagConfigParseResult`. -/
structure ParseResult where
  projectId : Text
  flags : List ClientFlagConfig
  invalidKeys : List Text
  deriving DecidableEq

/-- What a parser makes of one candidate. -/
inductive Outcome
  | flag (config : ClientFlagConfig)
  | invalid (key : Text)
  /-- The payload cannot be trusted. -/
  | unrecognized
  deriving DecidableEq

/-- The loop over the candidates. -/
def collect (outcome : Doc → Outcome) : List Doc → ParseResult → Option ParseResult
  | [], result => some result
  | candidate :: rest, result =>
    match outcome candidate with
    | .flag config => collect outcome rest { result with flags := result.flags ++ [config] }
    | .invalid key => collect outcome rest { result with invalidKeys := result.invalidKeys ++ [key] }
    | .unrecognized => none

/-! ## Fields -/

def flagKeys : List String :=
  ["key", "enabled", "default_variant", "variants", "salt", "rules", "fallthrough", "version"]

def ruleKeys : List String := ["id", "name", "conditions", "rollout"]

def conditionKeys : List String := ["attribute", "operator", "value"]

def rolloutKeys : List String := ["percentage", "bucket_by"]

def fallthroughKeys : List String := ["rollout"]

def variantKeys : List String := ["key", "weight"]

def collectionKeys : List String := ["schema_version", "project_id", "flags"]

def rejectedFlagKeys : List String :=
  ["default_value", "defaultVariant", "variant_type", "variants_json", "rollout_percentage",
    "targeting_rules"]

def supportedOperators : List Operator :=
  [.equals, .notEquals, .contains, .notContains, .startsWith, .endsWith, .gt, .gte, .lt, .lte,
    .isIn, .notIn, .exists, .notExists]

def operatorOf (t : Text) : Option Operator :=
  supportedOperators.find? fun op => decide (Text.ofString (operatorName op) = t)

/-! ## JavaScript -/

namespace JavaScript

def isIdentifier (d : Doc) : Option Text := d.toText.filter (Flags.isIdentifier Text.unitLength)

def isBoundedString (d : Doc) : Option Text := d.toText.filter (isBoundedText Text.unitLength)

/-- `typeof input === 'boolean'`. -/
def boolean : Doc → Option Bool
  | .bool b => some b
  | _ => none

/-- `Number.isInteger` of a number. -/
def isInteger (d : Doc) : Option ℤ :=
  d.toDouble.bind fun r => if r.den = 1 then some r.num else none

/-- `Number.isSafeInteger` of a number. -/
def isSafeInteger (d : Doc) : Option ℤ :=
  (isInteger d).filter fun n => decide (n.natAbs ≤ 9007199254740991)

/-- The value of a document. -/
def read : Doc → Json := Doc.read fun n => Doc.nearest n

def isRolloutConfig (input : Doc) : Option RolloutConfig := do
  let fields ← input.toFields
  guard (fields.within rolloutKeys)
  let percentage ← fields.read "percentage" Doc.toDouble
  guard (0 ≤ percentage)
  guard (percentage ≤ 100)
  let bucketBy ← fields.read "bucket_by" isIdentifier
  return ⟨percentage, bucketBy⟩

def isFallthroughConfig (input : Doc) : Option FallthroughConfig := do
  let fields ← input.toFields
  guard (fields.within fallthroughKeys)
  let rollout ← fields.read "rollout" isRolloutConfig
  return ⟨rollout⟩

def isFlagCondition (input : Doc) : Option GateCondition := do
  let fields ← input.toFields
  guard (fields.within conditionKeys)
  let attr ← fields.read "attribute" isIdentifier
  let operator ← operatorOf (← fields.read "operator" Doc.toText)
  if operator.isPresence then
    guard (!fields.has "value")
    return ⟨attr, operator, none⟩
  else
    let value ← fields.get "value"
    guard (!value.isNull)
    guard (isConditionValueValid Text.unitLength operator (read value))
    return ⟨attr, operator, some (read value)⟩

def isFlagRule (input : Doc) : Option GateRule := do
  let fields ← input.toFields
  guard (fields.within ruleKeys)
  let id ← fields.read "id" isIdentifier
  let name ← fields.read "name" isBoundedString
  let items ← fields.read "conditions" Doc.toItems
  guard (items.length ≤ maxConditionsPerRule)
  let conditions ← items.mapM isFlagCondition
  let rollout ← fields.read "rollout" isRolloutConfig
  return ⟨id, name, conditions, rollout⟩

/-- The checks of `isVariantList` on one variant. -/
def isVariant (fields : Fields) : Option VariantConfig := do
  guard (fields.within variantKeys)
  let key ← fields.read "key" isIdentifier
  let weight ← fields.read "weight" isSafeInteger
  return ⟨key, weight⟩

def isVariantList (input : List Doc) (defaultVariant : Text) : Option (List VariantConfig) := do
  let records ← input.mapM Doc.toFields
  let weights ← records.mapM fun fields => fields.read "weight" isSafeInteger
  guard (JavaScript.hasCanonicalVariantWeights weights)
  let variants ← records.mapM isVariant
  guard (variants.map VariantConfig.key).Nodup
  guard (defaultVariant ∈ variants.map VariantConfig.key)
  return variants

def isFlagConfig (input : Doc) : Option ClientFlagConfig := do
  let fields ← input.toFields
  guard (fields.within flagKeys)
  let key ← fields.read "key" isIdentifier
  let enabled ← fields.read "enabled" boolean
  let defaultVariant ← fields.read "default_variant" isIdentifier
  let variants ← isVariantList (← fields.read "variants" Doc.toItems) defaultVariant
  let salt ← fields.read "salt" isBoundedString
  let items ← fields.read "rules" Doc.toItems
  guard (items.length ≤ maxRules)
  let rules ← items.mapM isFlagRule
  let fallthrough ← fields.read "fallthrough" isFallthroughConfig
  let version ← fields.read "version" isInteger
  guard (1 ≤ version)
  return ⟨key, enabled, defaultVariant, variants, salt, rules, fallthrough, version.toNat⟩

/-- `extractInvalidFlagKey` of a candidate that is no flag configuration. -/
def extractInvalidFlagKey (input : Doc) : Option Text := do
  let fields ← input.toFields
  let key ← fields.read "key" isIdentifier
  guard (rejectedFlagKeys.any fields.has || flagKeys.all fields.has)
  return key

def extractCandidates (input : Doc) : Option (Text × List Doc) := do
  let fields ← input.toFields
  guard (fields.within collectionKeys)
  let flags ← fields.read "flags" Doc.toItems
  guard ((← fields.read "schema_version" Doc.toDouble) = 2)
  let projectId ← fields.read "project_id" isIdentifier
  return (projectId, flags)

/-- One turn of the loop of `parseFlagConfigResult`. -/
def outcome (candidate : Doc) : Outcome :=
  match isFlagConfig candidate with
  | some config => .flag config
  | none =>
    match extractInvalidFlagKey candidate with
    | some key => .invalid key
    | none => .unrecognized

def parseFlagConfigResult (input : Doc) : Option ParseResult := do
  let (projectId, candidates) ← extractCandidates input
  collect outcome candidates ⟨projectId, [], []⟩

end JavaScript

/-! ## Python -/

/-- The conversions of pydantic that the models of the Python SDK rely on. -/
structure Pydantic where
  /-- A `str` with a length bound takes this string. -/
  isStr : Text → Bool
  /-- `bool`, in lax mode. -/
  bool : Doc → Option Bool
  /-- `float = Field(ge=0.0, le=100.0)`, in lax mode. -/
  percentage : Doc → Option ℚ
  /-- A string without unpaired surrogates is a string. -/
  isStr_of_wellFormed : ∀ t : Text, wellFormed t = true → isStr t = true
  bool_bool : ∀ b, bool (.bool b) = some b
  /-- An integer is converted to a double and compared with the bounds. -/
  percentage_int : ∀ n : ℤ, percentage (.int n) =
    (Double.round n).filter fun r => decide (0 ≤ r) && decide (r ≤ 100)
  percentage_float : ∀ q : ℚ, percentage (.float q) =
    (Double.round q).filter fun r => decide (0 ≤ r) && decide (r ≤ 100)

namespace Python

variable (P : Pydantic)

/-- `str = Field(min_length=lo, max_length=hi)`. -/
def constrainedStr (lo hi : ℕ) (d : Doc) : Option Text :=
  d.toText.filter fun s => P.isStr s && boundedLength lo hi s

/-- `int = Field(..., strict=True)`, before its bounds. -/
def strictInt : Doc → Option ℤ
  | .int n => some n
  | _ => none

/-- The value of a document. -/
def read : Doc → Json := Doc.read fun n => n

def rolloutConfig (data : Doc) : Option RolloutConfig := do
  let fields ← data.toFields
  guard (fields.within rolloutKeys)
  let percentage ← fields.read "percentage" P.percentage
  let bucketBy ← fields.read "bucket_by" (constrainedStr P 1 maxIdentifierLength)
  return ⟨percentage, bucketBy⟩

def fallthroughConfig (data : Doc) : Option FallthroughConfig := do
  let fields ← data.toFields
  guard (fields.within fallthroughKeys)
  let rollout ← fields.read "rollout" (rolloutConfig P)
  return ⟨rollout⟩

/-- `operator in ("exists", "not_exists")`, for the operator in the data. -/
def isPresenceName (operator : Option Doc) : Bool :=
  match operator with
  | some (.str s) => s == Text.ofString "exists" || s == Text.ofString "not_exists"
  | _ => false

/-- `_check_value_presence`, before the fields are validated. -/
def checkValuePresence (fields : Fields) : Bool :=
  if isPresenceName (fields.get "operator") then !fields.has "value"
  else
    match fields.get "value" with
    | none => false
    | some v => !v.isNull

/-- `_check_operator_value`, after the fields are validated. -/
def checkOperatorValue (operator : Operator) (value : Option Json) : Bool :=
  operator.isPresence || isConditionValueValid Text.length operator (value.getD .null)

def gateCondition (data : Doc) : Option GateCondition := do
  let fields ← data.toFields
  guard (checkValuePresence fields)
  guard (fields.within conditionKeys)
  let attr ← fields.read "attribute" (constrainedStr P 1 maxIdentifierLength)
  let operator ← operatorOf (← fields.read "operator" Doc.toText)
  let value := (fields.get "value").map read
  guard (checkOperatorValue operator value)
  return ⟨attr, operator, value⟩

/-- `name: str = Field(default="", max_length=MAX_STRING_LENGTH)`. -/
def ruleName : Option Doc → Option Text
  | none => some []
  | some d => constrainedStr P 0 maxStringLength d

def gateRule (data : Doc) : Option GateRule := do
  let fields ← data.toFields
  guard (fields.within ruleKeys)
  let id ← fields.read "id" (constrainedStr P 1 maxIdentifierLength)
  let name ← ruleName P (fields.get "name")
  let items ← fields.read "conditions" Doc.toItems
  guard (items.length ≤ maxConditionsPerRule)
  let conditions ← items.mapM (gateCondition P)
  let rollout ← fields.read "rollout" (rolloutConfig P)
  return ⟨id, name, conditions, rollout⟩

def variantConfig (data : Doc) : Option VariantConfig := do
  let fields ← data.toFields
  guard (fields.within variantKeys)
  let key ← fields.read "key" (constrainedStr P 1 maxIdentifierLength)
  let weight ← fields.read "weight" strictInt
  guard (0 ≤ weight)
  guard (weight ≤ maxVariantWeight)
  return ⟨key, weight⟩

def gateConfig (data : Doc) : Option ClientFlagConfig := do
  let fields ← data.toFields
  guard (fields.within flagKeys)
  let key ← fields.read "key" (constrainedStr P 1 maxIdentifierLength)
  let enabled ← fields.read "enabled" P.bool
  let defaultVariant ← fields.read "default_variant" (constrainedStr P 1 maxIdentifierLength)
  let variantItems ← fields.read "variants" Doc.toItems
  guard (1 ≤ variantItems.length)
  guard (variantItems.length ≤ maxVariants)
  let variants ← variantItems.mapM (variantConfig P)
  let salt ← fields.read "salt" (constrainedStr P 0 maxStringLength)
  let ruleItems ← fields.read "rules" Doc.toItems
  guard (ruleItems.length ≤ maxRules)
  let rules ← ruleItems.mapM (gateRule P)
  let fallthrough ← fields.read "fallthrough" (fallthroughConfig P)
  let version ← fields.read "version" strictInt
  guard (1 ≤ version)
  guard (validateVariants variants defaultVariant = .ok ())
  return ⟨key, enabled, defaultVariant, variants, salt, rules, fallthrough, version.toNat⟩

/-- `data.get("schema_version") != 2` does not hold. -/
def isSchemaVersion : Option Doc → Bool
  | some (.int n) => decide (n = 2)
  | some (.float q) => decide (Double.round q = some 2)
  | _ => false

/-- A `str` that is not empty. -/
def nonEmptyStr (d : Doc) : Option Text := d.toText.filter fun s => decide (s ≠ [])

def extractCandidates (data : Doc) : Option (Text × List Doc) := do
  let fields ← data.toFields
  guard (fields.within collectionKeys)
  guard (isSchemaVersion (fields.get "schema_version"))
  let projectId ← fields.read "project_id" nonEmptyStr
  let flags ← fields.read "flags" Doc.toItems
  return (projectId, flags)

/-- The key of a record that is no valid flag. -/
def invalidKey (candidate : Doc) : Option Text := do
  let fields ← candidate.toFields
  fields.read "key" nonEmptyStr

/-- One turn of the loop of `parse_flag_config_result`. -/
def outcome (candidate : Doc) : Outcome :=
  match gateConfig P candidate with
  | some config => .flag config
  | none =>
    match invalidKey candidate with
    | some key => .invalid key
    | none => .unrecognized

def parseFlagConfigResult (data : Doc) : Option ParseResult := do
  let (projectId, candidates) ← extractCandidates data
  collect (outcome P) candidates ⟨projectId, [], []⟩

end Python

end Apdl.Flags.Wire
