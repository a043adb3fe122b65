import Apdl.Flags.Wire.Model
import Apdl.Lib.Binary64
import Apdl.Lib.Traverse
import Mathlib.Tactic.Simps.Basic

set_option autoImplicit false

/-!
# The grammar of flag documents

Both parsers read the same grammar: an object with fixed fields, lists of objects inside it, and
scalars at fixed places. A document is first cut into the documents at those places (`RawFlag`);
a dialect says what is read at a place, and the variants are checked together at the end. The two
parsers are this reader at two dialects.

## Main results

* `Dialect.readFlag_eq_iff` — two dialects read the same flag when they read the same at every
  place.
-/

namespace Apdl.Flags.Wire

open Config (GateCondition GateRule RolloutConfig VariantConfig FallthroughConfig
  boundedLength maxVariants maxVariantWeight validateVariants validateVariantWeights
  validateVariantWeightContract)
open Doc (Fields)

/-! ## Documents cut at their scalars -/

structure RawRollout where
  percentage : Doc
  bucketBy : Doc

/-- The scalars of a condition; the operator is known, and a value stands exactly with the
operators that take one. -/
structure RawCondition where
  attr : Doc
  operator : Operator
  value : Option Doc

structure RawRule where
  id : Doc
  name : Option Doc
  conditions : List RawCondition
  rollout : RawRollout

structure RawVariant where
  key : Doc
  weight : Doc

structure RawFlag where
  key : Doc
  enabled : Doc
  defaultVariant : Doc
  variants : List RawVariant
  salt : Doc
  rules : List RawRule
  fallthrough : RawRollout
  version : Doc

def rawRollout (d : Doc) : Option RawRollout := do
  let fields ← d.toFields
  guard (fields.within rolloutKeys)
  return ⟨← fields.get "percentage", ← fields.get "bucket_by"⟩

def rawFallthrough (d : Doc) : Option RawRollout := do
  let fields ← d.toFields
  guard (fields.within fallthroughKeys)
  fields.read "rollout" rawRollout

/-- The value a condition carries: none for a presence operator, one that is not null for the
others. -/
def rawValue (operator : Operator) (value : Option Doc) : Option (Option Doc) :=
  if operator.isPresence then if value.isSome then none else some none
  else match value with
    | none => none
    | some v => if v.isNull then none else some (some v)

def rawCondition (d : Doc) : Option RawCondition := do
  let fields ← d.toFields
  guard (fields.within conditionKeys)
  let attr ← fields.get "attribute"
  let operator ← operatorOf (← fields.read "operator" Doc.toText)
  let value ← rawValue operator (fields.get "value")
  return ⟨attr, operator, value⟩

def rawRule (d : Doc) : Option RawRule := do
  let fields ← d.toFields
  guard (fields.within ruleKeys)
  let id ← fields.get "id"
  let items ← fields.read "conditions" Doc.toItems
  guard (items.length ≤ maxConditionsPerRule)
  let conditions ← items.mapM rawCondition
  let rollout ← fields.read "rollout" rawRollout
  return ⟨id, fields.get "name", conditions, rollout⟩

def rawVariant (d : Doc) : Option RawVariant := do
  let fields ← d.toFields
  guard (fields.within variantKeys)
  return ⟨← fields.get "key", ← fields.get "weight"⟩

def rawFlag (d : Doc) : Option RawFlag := do
  let fields ← d.toFields
  guard (fields.within flagKeys)
  let key ← fields.get "key"
  let enabled ← fields.get "enabled"
  let defaultVariant ← fields.get "default_variant"
  let variantItems ← fields.read "variants" Doc.toItems
  guard (1 ≤ variantItems.length ∧ variantItems.length ≤ maxVariants)
  let variants ← variantItems.mapM rawVariant
  let salt ← fields.get "salt"
  let ruleItems ← fields.read "rules" Doc.toItems
  guard (ruleItems.length ≤ maxRules)
  let rules ← ruleItems.mapM rawRule
  let fallthrough ← fields.read "fallthrough" rawFallthrough
  let version ← fields.get "version"
  return ⟨key, enabled, defaultVariant, variants, salt, rules, fallthrough, version⟩

/-! ## Dialects -/

/-- What is read at the scalar places. -/
structure Dialect where
  identifier : Doc → Option Text
  text : Doc → Option Text
  name : Option Doc → Option Text
  enabled : Doc → Option Bool
  weight : Doc → Option ℤ
  version : Doc → Option ℕ
  percentage : Doc → Option ℚ
  value : Operator → Doc → Option Json

namespace Dialect

variable (D : Dialect)

def readRollout (r : RawRollout) : Option RolloutConfig := do
  return ⟨← D.percentage r.percentage, ← D.identifier r.bucketBy⟩

def readValue (operator : Operator) : Option Doc → Option (Option Json)
  | none => some none
  | some d => (D.value operator d).map some

def readCondition (c : RawCondition) : Option GateCondition := do
  return ⟨← D.identifier c.attr, c.operator, ← D.readValue c.operator c.value⟩

def readRule (r : RawRule) : Option GateRule := do
  return ⟨← D.identifier r.id, ← D.name r.name, ← r.conditions.mapM D.readCondition,
    ← D.readRollout r.rollout⟩

def readVariant (v : RawVariant) : Option VariantConfig := do
  return ⟨← D.identifier v.key, ← D.weight v.weight⟩

def readFlag (f : RawFlag) : Option ClientFlagConfig := do
  let key ← D.identifier f.key
  let enabled ← D.enabled f.enabled
  let defaultVariant ← D.identifier f.defaultVariant
  let variants ← f.variants.mapM D.readVariant
  let salt ← D.text f.salt
  let rules ← f.rules.mapM D.readRule
  let rollout ← D.readRollout f.fallthrough
  let version ← D.version f.version
  guard (validateVariants variants defaultVariant = .ok ())
  return ⟨key, enabled, defaultVariant, variants, salt, rules, ⟨rollout⟩, version⟩

end Dialect

/-- The bounds of a percentage. -/
def inPercent (r : ℚ) : Bool := decide (0 ≤ r) && decide (r ≤ 100)

/-- What the JavaScript parser reads. -/
@[simps]
def javascript : Dialect where
  identifier := JavaScript.isIdentifier
  text := JavaScript.isBoundedString
  name d := d.bind JavaScript.isBoundedString
  enabled := JavaScript.boolean
  weight d := (JavaScript.isSafeInteger d).filter fun n => decide (0 ≤ n)
  version d := ((JavaScript.isInteger d).filter fun n => decide (1 ≤ n)).map Int.toNat
  percentage d := d.toDouble.filter inPercent
  value op d :=
    if isConditionValueValid Text.unitLength op (JavaScript.read d) then some (JavaScript.read d)
    else none

/-- What the Python parser reads. -/
@[simps]
def python (P : Pydantic) : Dialect where
  identifier := Python.constrainedStr P 1 maxIdentifierLength
  text := Python.constrainedStr P 0 maxStringLength
  name := Python.ruleName P
  enabled := P.bool
  weight d := (Python.strictInt d).filter fun n => decide (0 ≤ n) && decide (n ≤ maxVariantWeight)
  version d := ((Python.strictInt d).filter fun n => decide (1 ≤ n)).map Int.toNat
  percentage := P.percentage
  value op d :=
    if isConditionValueValid Text.length op (Python.read d) then some (Python.read d) else none

/-! ## What is cut and read -/

/-- The places of a flag object. -/
structure Cut (fields : Fields) (f : RawFlag) : Prop where
  within : fields.within flagKeys = true
  key : fields.get "key" = some f.key
  enabled : fields.get "enabled" = some f.enabled
  defaultVariant : fields.get "default_variant" = some f.defaultVariant
  variants : ∃ items, fields.read "variants" Doc.toItems = some items ∧
    (1 ≤ items.length ∧ items.length ≤ maxVariants) ∧ items.mapM rawVariant = some f.variants
  salt : fields.get "salt" = some f.salt
  rules : ∃ items, fields.read "rules" Doc.toItems = some items ∧
    items.length ≤ maxRules ∧ items.mapM rawRule = some f.rules
  fallthrough : fields.read "fallthrough" rawFallthrough = some f.fallthrough
  version : fields.get "version" = some f.version

lemma rawFlag_eq_some_iff {fields : Fields} {f : RawFlag} :
    rawFlag (.obj fields) = some f ↔ Cut fields f := by
  constructor
  · intro h
    obtain ⟨hkeys, h⟩ := Traverse.of_guard h
    obtain ⟨key, hkey, h⟩ := Traverse.of_bind h
    obtain ⟨enabled, henabled, h⟩ := Traverse.of_bind h
    obtain ⟨dv, hdv, h⟩ := Traverse.of_bind h
    obtain ⟨vitems, hvitems, h⟩ := Traverse.of_bind h
    obtain ⟨hcount, h⟩ := Traverse.of_guard h
    obtain ⟨vs, hvs, h⟩ := Traverse.of_bind h
    obtain ⟨salt, hsalt, h⟩ := Traverse.of_bind h
    obtain ⟨ritems, hritems, h⟩ := Traverse.of_bind h
    obtain ⟨hlen, h⟩ := Traverse.of_guard h
    obtain ⟨rs, hrs, h⟩ := Traverse.of_bind h
    obtain ⟨ft, hft, h⟩ := Traverse.of_bind h
    obtain ⟨version, hversion, h⟩ := Traverse.of_bind h
    obtain rfl := Option.some.inj h
    exact ⟨hkeys, hkey, henabled, hdv, ⟨vitems, hvitems, hcount, hvs⟩, hsalt,
      ⟨ritems, hritems, hlen, hrs⟩, hft, hversion⟩
  · rintro ⟨hkeys, hkey, henabled, hdv, ⟨vitems, hvitems, hcount, hvs⟩, hsalt,
      ⟨ritems, hritems, hlen, hrs⟩, hft, hversion⟩
    refine Traverse.bind_intro rfl <| Traverse.guard_intro hkeys <| Traverse.bind_intro hkey <|
      Traverse.bind_intro henabled <| Traverse.bind_intro hdv <| Traverse.bind_intro hvitems <|
      Traverse.guard_intro hcount <| Traverse.bind_intro hvs <| Traverse.bind_intro hsalt <|
      Traverse.bind_intro hritems <| Traverse.guard_intro hlen <| Traverse.bind_intro hrs <|
      Traverse.bind_intro hft <| Traverse.bind_intro hversion rfl

namespace Dialect

variable (D : Dialect)

/-- A flag is read at its places. -/
structure Reads (f : RawFlag) (c : ClientFlagConfig) : Prop where
  key : D.identifier f.key = some c.key
  enabled : D.enabled f.enabled = some c.enabled
  defaultVariant : D.identifier f.defaultVariant = some c.defaultVariant
  variants : f.variants.mapM D.readVariant = some c.variants
  salt : D.text f.salt = some c.salt
  rules : f.rules.mapM D.readRule = some c.rules
  fallthrough : D.readRollout f.fallthrough = some c.fallthrough.rollout
  version : D.version f.version = some c.version
  fit : validateVariants c.variants c.defaultVariant = .ok ()

variable {D}

lemma readFlag_eq_some_iff {f : RawFlag} {c : ClientFlagConfig} :
    D.readFlag f = some c ↔ D.Reads f c := by
  constructor
  · intro h
    obtain ⟨key, hkey, h⟩ := Traverse.of_bind h
    obtain ⟨enabled, henabled, h⟩ := Traverse.of_bind h
    obtain ⟨dv, hdv, h⟩ := Traverse.of_bind h
    obtain ⟨vs, hvs, h⟩ := Traverse.of_bind h
    obtain ⟨salt, hsalt, h⟩ := Traverse.of_bind h
    obtain ⟨rs, hrs, h⟩ := Traverse.of_bind h
    obtain ⟨ft, hft, h⟩ := Traverse.of_bind h
    obtain ⟨version, hversion, h⟩ := Traverse.of_bind h
    obtain ⟨hfit, h⟩ := Traverse.of_guard h
    obtain rfl := Option.some.inj h
    exact ⟨hkey, henabled, hdv, hvs, hsalt, hrs, hft, hversion, hfit⟩
  · rintro ⟨hkey, henabled, hdv, hvs, hsalt, hrs, hft, hversion, hfit⟩
    exact Traverse.bind_intro hkey <| Traverse.bind_intro henabled <| Traverse.bind_intro hdv <|
      Traverse.bind_intro hvs <| Traverse.bind_intro hsalt <| Traverse.bind_intro hrs <|
      Traverse.bind_intro hft <| Traverse.bind_intro hversion <| Traverse.guard_intro hfit rfl

end Dialect

/-! ## Variant weights -/

lemma weightTotal_iff (ws : List ℤ) (total r : ℤ) :
    Flags.JavaScript.weightTotal total ws = some r ↔ Config.weightTotal total ws = .ok r := by
  induction ws generalizing total with
  | nil => simp [Flags.JavaScript.weightTotal, Config.weightTotal]
  | cons w ws ih =>
    simp only [Flags.JavaScript.weightTotal, Config.weightTotal, Check.bind_eq_ok,
      Check.ensure_eq_ok, Bool.and_eq_true, decide_eq_true_eq]
    by_cases h : w < 0 ∨ maxVariantWeight < w ∨ maxVariantWeight - w < total
    · rw [if_pos h]
      constructor
      · rintro ⟨⟩
      · rintro ⟨-, hrange, -, hsum, -⟩
        omega
    · rw [if_neg h, ih]
      constructor
      · intro hr
        exact ⟨(), by omega, (), by omega, hr⟩
      · rintro ⟨-, -, -, -, hr⟩
        exact hr

lemma hasCanonicalVariantWeights_iff (ws : List ℤ) :
    Flags.JavaScript.hasCanonicalVariantWeights ws = true ↔
      validateVariantWeightContract ws = .ok () := by
  simp only [Flags.JavaScript.hasCanonicalVariantWeights, validateVariantWeightContract,
    Check.bind_eq_ok, Check.ensure_eq_ok, Bool.and_eq_true, decide_eq_true_eq, ne_eq,
    List.length_eq_zero_iff]
  constructor
  · rintro ⟨⟨hne, hlen⟩, htotal⟩
    cases ht : Flags.JavaScript.weightTotal 0 ws with
    | none => simp [ht] at htotal
    | some total =>
      rw [ht] at htotal
      exact ⟨(), hne, (), hlen, total, (weightTotal_iff ws 0 total).1 ht,
        of_decide_eq_true htotal⟩
  · rintro ⟨-, hne, -, hlen, total, ht, hpos⟩
    rw [(weightTotal_iff ws 0 total).2 ht]
    exact ⟨⟨hne, hlen⟩, decide_eq_true hpos⟩

lemma weightTotal_range {ws : List ℤ} {total r : ℤ} (h : Config.weightTotal total ws = .ok r) :
    ∀ w ∈ ws, 0 ≤ w ∧ w ≤ maxVariantWeight := by
  induction ws generalizing total with
  | nil => simp
  | cons w ws ih =>
    simp only [Config.weightTotal, Check.bind_eq_ok, Check.ensure_eq_ok, Bool.and_eq_true,
      decide_eq_true_eq] at h
    obtain ⟨-, hrange, -, -, hrest⟩ := h
    intro w' hw'
    rcases List.mem_cons.1 hw' with rfl | hmem
    · exact hrange
    · exact ih hrest w' hmem

lemma validateVariants_iff (vs : List VariantConfig) (dv : Text) :
    validateVariants vs dv = .ok () ↔
      Flags.JavaScript.hasCanonicalVariantWeights (vs.map VariantConfig.weight) = true ∧
        (vs.map VariantConfig.key).Nodup ∧ dv ∈ vs.map VariantConfig.key := by
  simp only [validateVariants, validateVariantWeights, Check.bind_eq_ok, Check.ensure_eq_ok,
    decide_eq_true_eq, hasCanonicalVariantWeights_iff]
  constructor
  · rintro ⟨⟨⟩, ⟨⟨⟩, hw, hnodup⟩, hmem⟩
    exact ⟨hw, hnodup, hmem⟩
  · rintro ⟨hw, hnodup, hmem⟩
    exact ⟨(), ⟨(), hw, hnodup⟩, hmem⟩

lemma weight_range {vs : List VariantConfig} {dv : Text} (h : validateVariants vs dv = .ok ()) :
    ∀ v ∈ vs, 0 ≤ v.weight ∧ v.weight ≤ maxVariantWeight := by
  have hw := (hasCanonicalVariantWeights_iff _).1 ((validateVariants_iff vs dv).1 h).1
  simp only [validateVariantWeightContract, Check.bind_eq_ok] at hw
  obtain ⟨-, -, -, -, total, htotal, -⟩ := hw
  intro v hv
  exact weightTotal_range htotal v.weight (List.mem_map_of_mem hv)

lemma length_range {vs : List VariantConfig} {dv : Text} (h : validateVariants vs dv = .ok ()) :
    1 ≤ vs.length ∧ vs.length ≤ maxVariants := by
  have hw := (hasCanonicalVariantWeights_iff _).1 ((validateVariants_iff vs dv).1 h).1
  simp only [validateVariantWeightContract, Check.bind_eq_ok, Check.ensure_eq_ok,
    decide_eq_true_eq, List.length_map, ne_eq, List.map_eq_nil_iff] at hw
  obtain ⟨-, hne, -, hlen, -⟩ := hw
  exact ⟨List.length_pos_of_ne_nil hne, hlen⟩

/-! ## The JavaScript parser

Each guard reads the places of its object in the order of the source; the reader first asks for all
of them. Where one is missing both are `none`, and where all are there the orders do not matter. -/

namespace JavaScript

lemma isRolloutConfig_eq (d : Doc) :
    isRolloutConfig d = (rawRollout d).bind javascript.readRollout := by
  rcases d with _ | _ | _ | _ | _ | _ | fields
  case obj =>
    simp only [isRolloutConfig, rawRollout, Doc.toFields, Fields.read, Option.bind_eq_bind,
      Option.bind_some]
    rcases Fields.get fields "percentage" with _ | p
    · simp
    rcases Fields.get fields "bucket_by" with _ | b
    · simp
    by_cases hkeys : Fields.within fields rolloutKeys = true
    · simp only [Dialect.readRollout, hkeys, Traverse.guard_bind, if_true, Option.bind_some, Option.pure_def,
        Option.bind_eq_bind]
      rcases hq : p.toDouble with _ | q
      · simp [hq]
      · by_cases h0 : 0 ≤ q <;> by_cases h1 : q ≤ 100 <;> simp [hq, Option.filter_some, inPercent, h0, h1]
    · simp [hkeys]
  all_goals rfl

lemma isFallthroughConfig_eq (d : Doc) :
    isFallthroughConfig d =
      (rawFallthrough d).bind fun r => (javascript.readRollout r).map FallthroughConfig.mk := by
  rcases d with _ | _ | _ | _ | _ | _ | fields
  case obj =>
    simp only [isFallthroughConfig, rawFallthrough, Doc.toFields, Fields.read, Option.bind_eq_bind,
      Option.bind_some]
    rcases Fields.get fields "rollout" with _ | r
    · simp
    by_cases hkeys : Fields.within fields fallthroughKeys = true
    · simp only [hkeys, Traverse.guard_bind, if_true, Option.bind_some, isRolloutConfig_eq]
      rcases rawRollout r with _ | r
      · rfl
      · cases hr : javascript.readRollout r <;> simp [hr]
    · simp [hkeys]
  all_goals rfl

lemma isFlagCondition_eq (d : Doc) :
    isFlagCondition d = (rawCondition d).bind javascript.readCondition := by
  rcases d with _ | _ | _ | _ | _ | _ | fields
  case obj =>
    simp only [isFlagCondition, rawCondition, Doc.toFields, Fields.read, Option.bind_eq_bind,
      Option.bind_some]
    rcases Fields.get fields "attribute" with _ | a
    · simp
    rcases Fields.get fields "operator" with _ | o
    · simp
    rcases ho : o.toText with _ | t
    · simp [ho]
    rcases hop : operatorOf t with _ | op
    · simp [ho, hop]
    by_cases hkeys : Fields.within fields conditionKeys = true
    · rcases hv : Fields.get fields "value" with _ | v <;> by_cases hp : op.isPresence = true
      · simp [ho, hop, hkeys, Fields.has, hv, hp, rawValue, Dialect.readCondition,
          Dialect.readValue]
      · simp [ho, hop, hkeys, Fields.has, hv, hp, rawValue]
      · simp [ho, hop, hkeys, Fields.has, hv, hp, rawValue]
      · by_cases hn : v.isNull = true <;>
          by_cases hval : isConditionValueValid Text.unitLength op (read v) = true <;>
            simp [ho, hop, hkeys, hp, hn, hval, rawValue, Dialect.readCondition, Dialect.readValue]
    · simp [hkeys]
  all_goals rfl

lemma isFlagRule_eq (d : Doc) : isFlagRule d = (rawRule d).bind javascript.readRule := by
  have hconds (items : List Doc) : items.mapM isFlagCondition =
      (items.mapM rawCondition).bind fun cs => cs.mapM javascript.readCondition := by
    rw [← Traverse.mapM_bind]
    exact Traverse.mapM_congr fun d _ => isFlagCondition_eq d
  rcases d with _ | _ | _ | _ | _ | _ | fields
  case obj =>
    simp only [isFlagRule, rawRule, Doc.toFields, Fields.read, Option.bind_eq_bind, Option.bind_some,
      Option.bind_assoc]
    rcases Fields.get fields "id" with _ | i
    · simp
    rcases Fields.get fields "conditions" with _ | c
    · simp
    rcases Fields.get fields "rollout" with _ | r
    · simp
    rcases hitems : c.toItems with _ | items
    · simp [hitems]
    by_cases hlen : items.length ≤ maxConditionsPerRule
    · simp only [hconds, isRolloutConfig_eq, hitems, hlen, Traverse.guard_bind, if_true, Option.bind_some]
      rcases items.mapM rawCondition with _ | cs
      · simp
      rcases rawRollout r with _ | r
      · simp
      by_cases hkeys : Fields.within fields ruleKeys = true
      · simp [hkeys, Dialect.readRule, Option.bind_assoc]
      · simp [hkeys]
    · simp [hitems, hlen]
  all_goals rfl

lemma isVariant_iff (d : Doc) (v : VariantConfig) :
    (rawVariant d).bind javascript.readVariant = some v ↔
      d.toFields.bind isVariant = some v ∧ 0 ≤ v.weight := by
  rcases d with _ | _ | _ | _ | _ | _ | fields
  case obj =>
    simp only [rawVariant, isVariant, Doc.toFields, Fields.read, Option.bind_eq_bind,
      Option.bind_some]
    rcases Fields.get fields "key" with _ | k
    · simp
    rcases Fields.get fields "weight" with _ | w
    · simp
    by_cases hkeys : Fields.within fields variantKeys = true
    · simp only [hkeys, Traverse.guard_bind, if_true, Option.bind_some, Option.pure_def,
        Dialect.readVariant, javascript_identifier, javascript_weight, Option.bind_eq_bind,
        Option.bind_eq_some_iff, Option.filter_eq_some_iff, decide_eq_true_eq, Option.some.injEq]
      constructor
      · rintro ⟨key, hkey, n, ⟨hn, h0⟩, rfl⟩
        exact ⟨⟨key, hkey, n, hn, rfl⟩, h0⟩
      · rintro ⟨⟨key, hkey, n, hn, rfl⟩, h0⟩
        exact ⟨key, hkey, n, ⟨hn, h0⟩, rfl⟩
    · simp [hkeys]
  all_goals simp [rawVariant, Doc.toFields]

lemma weight_of_isVariant {fields : Fields} {v : VariantConfig} (h : isVariant fields = some v) :
    fields.read "weight" isSafeInteger = some v.weight := by
  simp only [isVariant, Option.bind_eq_bind, Traverse.guard_bind, Option.pure_def,
    Option.ite_none_right_eq_some, Option.bind_eq_some_iff, Option.some.injEq] at h
  obtain ⟨-, key, -, n, hn, rfl⟩ := h
  exact hn

lemma isVariantList_eq_some_iff (items : List Doc) (dv : Text) (vs : List VariantConfig) :
    isVariantList items dv = some vs ↔
      items.mapM (fun d => (rawVariant d).bind javascript.readVariant) = some vs ∧
        validateVariants vs dv = .ok () := by
  rw [Traverse.mapM_eq_some_and_iff isVariant_iff, Traverse.mapM_bind]
  simp only [isVariantList, Option.bind_eq_bind, Traverse.guard_bind, Option.pure_def,
    Option.bind_eq_some_iff, Option.ite_none_right_eq_some, Option.some.injEq]
  constructor
  · rintro ⟨records, hrecords, ws, hws, hcanon, vs', hvs, hnodup, hmem, rfl⟩
    obtain rfl : vs'.map VariantConfig.weight = ws :=
      Option.some.inj ((Traverse.mapM_map_of_mapM (fun _ _ => weight_of_isVariant) hvs).symm.trans
        hws)
    have hok := (validateVariants_iff vs' dv).2 ⟨hcanon, hnodup, hmem⟩
    exact ⟨⟨⟨records, hrecords, hvs⟩, fun v hv => (weight_range hok v hv).1⟩, hok⟩
  · rintro ⟨⟨⟨records, hrecords, hvs⟩, -⟩, hok⟩
    obtain ⟨hcanon, hnodup, hmem⟩ := (validateVariants_iff vs dv).1 hok
    exact ⟨records, hrecords, _, Traverse.mapM_map_of_mapM (fun _ _ => weight_of_isVariant) hvs,
      hcanon, vs, hvs, hnodup, hmem, rfl⟩

theorem isFlagConfig_eq (d : Doc) : isFlagConfig d = (rawFlag d).bind javascript.readFlag := by
  have hrules (items : List Doc) : items.mapM isFlagRule =
      (items.mapM rawRule).bind fun rs => rs.mapM javascript.readRule := by
    rw [← Traverse.mapM_bind]
    exact Traverse.mapM_congr fun d _ => isFlagRule_eq d
  rcases d with _ | _ | _ | _ | _ | _ | fields
  case obj =>
    ext c
    rw [Option.bind_eq_some_iff]
    constructor
    · intro h
      obtain ⟨hkeys, h⟩ := Traverse.of_guard h
      obtain ⟨key, hkey, h⟩ := Traverse.of_bind h
      obtain ⟨enabled, henabled, h⟩ := Traverse.of_bind h
      obtain ⟨dv, hdv, h⟩ := Traverse.of_bind h
      obtain ⟨vitems, hvitems, h⟩ := Traverse.of_bind h
      obtain ⟨vs, hvs, h⟩ := Traverse.of_bind h
      obtain ⟨salt, hsalt, h⟩ := Traverse.of_bind h
      obtain ⟨ritems, hritems, h⟩ := Traverse.of_bind h
      obtain ⟨hlen, h⟩ := Traverse.of_guard h
      obtain ⟨rs, hrs, h⟩ := Traverse.of_bind h
      obtain ⟨ft, hft, h⟩ := Traverse.of_bind h
      obtain ⟨version, hversion, h⟩ := Traverse.of_bind h
      obtain ⟨hpos, h⟩ := Traverse.of_guard h
      obtain rfl := Option.some.inj h
      obtain ⟨k, hk, hkey⟩ := Fields.read_eq_some_iff.1 hkey
      obtain ⟨e, he, henabled⟩ := Fields.read_eq_some_iff.1 henabled
      obtain ⟨d, hd, hdv⟩ := Fields.read_eq_some_iff.1 hdv
      obtain ⟨s, hs, hsalt⟩ := Fields.read_eq_some_iff.1 hsalt
      obtain ⟨f, hf, hft⟩ := Fields.read_eq_some_iff.1 hft
      obtain ⟨n, hn, hversion⟩ := Fields.read_eq_some_iff.1 hversion
      obtain ⟨hvs, hfit⟩ := (isVariantList_eq_some_iff _ _ _).1 hvs
      rw [Traverse.mapM_bind, Option.bind_eq_some_iff] at hvs
      obtain ⟨rvs, hrvs, hvs⟩ := hvs
      rw [hrules, Option.bind_eq_some_iff] at hrs
      obtain ⟨rrs, hrrs, hrs⟩ := hrs
      rw [isFallthroughConfig_eq, Option.bind_eq_some_iff] at hft
      obtain ⟨rft, hrft, hft⟩ := hft
      obtain ⟨rollout, hrollout, rfl⟩ := Option.map_eq_some_iff.1 hft
      have hcount : 1 ≤ vitems.length ∧ vitems.length ≤ maxVariants := by
        have := length_range hfit
        rwa [Traverse.length_of_mapM hvs, Traverse.length_of_mapM hrvs] at this
      refine ⟨⟨k, e, d, rvs, s, rrs, rft, n⟩, rawFlag_eq_some_iff.2 ?_,
        Dialect.readFlag_eq_some_iff.2 ?_⟩
      · exact ⟨hkeys, hk, he, hd, ⟨vitems, hvitems, hcount, hrvs⟩, hs, ⟨ritems, hritems, hlen, hrrs⟩,
          Fields.read_eq_some_iff.2 ⟨f, hf, hrft⟩, hn⟩
      · refine ⟨hkey, henabled, hdv, hvs, hsalt, hrs, hrollout, ?_, hfit⟩
        simp [hversion, hpos, Option.filter_some]
    · rintro ⟨raw, hraw, hc⟩
      obtain ⟨hkeys, hk, he, hd, ⟨vitems, hvitems, -, hrvs⟩, hs, ⟨ritems, hritems, hlen, hrrs⟩, hf,
        hn⟩ := rawFlag_eq_some_iff.1 hraw
      obtain ⟨hkey, henabled, hdv, hvs, hsalt, hrs, hrollout, hversion, hfit⟩ :=
        Dialect.readFlag_eq_some_iff.1 hc
      obtain ⟨f, hf, hrft⟩ := Fields.read_eq_some_iff.1 hf
      obtain ⟨n, hfilter, hnat⟩ := Option.map_eq_some_iff.1 hversion
      obtain ⟨hint, hpos⟩ := Option.filter_eq_some_iff.1 hfilter
      refine Traverse.bind_intro rfl <| Traverse.guard_intro hkeys <|
        Traverse.bind_intro (Fields.read_eq_some_iff.2 ⟨_, hk, hkey⟩) <|
        Traverse.bind_intro (Fields.read_eq_some_iff.2 ⟨_, he, henabled⟩) <|
        Traverse.bind_intro (Fields.read_eq_some_iff.2 ⟨_, hd, hdv⟩) <|
        Traverse.bind_intro hvitems <|
        Traverse.bind_intro ((isVariantList_eq_some_iff _ _ _).2 ⟨?_, hfit⟩) <|
        Traverse.bind_intro (Fields.read_eq_some_iff.2 ⟨_, hs, hsalt⟩) <|
        Traverse.bind_intro hritems <| Traverse.guard_intro hlen <|
        Traverse.bind_intro (a := c.rules) ?_ <|
        Traverse.bind_intro (a := c.fallthrough) (Fields.read_eq_some_iff.2 ⟨f, hf, ?_⟩) <|
        Traverse.bind_intro (Fields.read_eq_some_iff.2 ⟨_, hn, hint⟩) <|
        Traverse.guard_intro (of_decide_eq_true hpos) ?_
      · rw [Traverse.mapM_bind, hrvs]
        exact hvs
      · rw [hrules, hrrs]
        exact hrs
      · rw [isFallthroughConfig_eq, hrft, Option.bind_some, hrollout]
        rfl
      · rw [hnat]
        rfl
  all_goals rfl

end JavaScript

/-! ## The Python parser -/

lemma operatorOf_eq_some {t : Text} {op : Operator} (h : operatorOf t = some op) :
    t = Text.ofString (Config.operatorName op) := by
  have hfound := List.find?_some (p := fun op => decide (Text.ofString (Config.operatorName op) = t)) h
  exact (of_decide_eq_true hfound).symm

namespace Python

variable (P : Pydantic)

lemma rolloutConfig_eq (d : Doc) :
    rolloutConfig P d = (rawRollout d).bind (python P).readRollout := by
  rcases d with _ | _ | _ | _ | _ | _ | fields
  case obj =>
    simp only [rolloutConfig, rawRollout, Doc.toFields, Fields.read, Option.bind_eq_bind,
      Option.bind_some]
    rcases Fields.get fields "percentage" with _ | p
    · simp
    rcases Fields.get fields "bucket_by" with _ | b
    · simp
    by_cases hkeys : Fields.within fields rolloutKeys = true
    · simp [hkeys, Dialect.readRollout]
    · simp [hkeys]
  all_goals rfl

lemma fallthroughConfig_eq (d : Doc) :
    fallthroughConfig P d =
      (rawFallthrough d).bind fun r => ((python P).readRollout r).map FallthroughConfig.mk := by
  rcases d with _ | _ | _ | _ | _ | _ | fields
  case obj =>
    simp only [fallthroughConfig, rawFallthrough, Doc.toFields, Fields.read, Option.bind_eq_bind,
      Option.bind_some]
    rcases Fields.get fields "rollout" with _ | r
    · simp
    by_cases hkeys : Fields.within fields fallthroughKeys = true
    · simp only [hkeys, Traverse.guard_bind, if_true, Option.bind_some, rolloutConfig_eq]
      rcases rawRollout r with _ | r
      · rfl
      · cases hr : (python P).readRollout r <;> simp [hr]
    · simp [hkeys]
  all_goals rfl

lemma isPresenceName_eq {d : Doc} {t : Text} {op : Operator} (hd : d.toText = some t)
    (hop : operatorOf t = some op) : isPresenceName (some d) = op.isPresence := by
  obtain rfl := operatorOf_eq_some hop
  cases d with
  | str s =>
    obtain rfl := Option.some.inj hd
    cases op <;> decide +kernel
  | _ => cases hd

lemma checkValuePresence_eq {fields : Fields} {o : Doc} {t : Text} {op : Operator}
    (ho : fields.get "operator" = some o) (ht : o.toText = some t) (hop : operatorOf t = some op) :
    checkValuePresence fields = (rawValue op (fields.get "value")).isSome := by
  unfold checkValuePresence rawValue Fields.has
  rw [ho, isPresenceName_eq ht hop]
  rcases fields.get "value" with _ | v
  · cases op.isPresence <;> rfl
  · cases op.isPresence
    · cases hn : v.isNull <;> simp [hn]
    · rfl

lemma gateCondition_eq (d : Doc) :
    gateCondition P d = (rawCondition d).bind (python P).readCondition := by
  rcases d with _ | _ | _ | _ | _ | _ | fields
  case obj =>
    simp only [gateCondition, rawCondition, Doc.toFields, Fields.read, Option.bind_eq_bind,
      Option.bind_some]
    rcases Fields.get fields "attribute" with _ | a
    · simp
    rcases ho : Fields.get fields "operator" with _ | o
    · simp
    rcases ht : o.toText with _ | t
    · simp [ht]
    rcases hop : operatorOf t with _ | op
    · simp [ht, hop]
    have hcheck := checkValuePresence_eq ho ht hop
    by_cases hkeys : Fields.within fields conditionKeys = true
    · rcases hv : Fields.get fields "value" with _ | v <;> by_cases hp : op.isPresence = true
      · simp [ht, hop, hkeys, hcheck, hv, hp, rawValue, checkOperatorValue, Dialect.readCondition,
          Dialect.readValue]
      · simp [ht, hop, hcheck, hv, hp, rawValue]
      · simp [ht, hop, hcheck, hv, hp, rawValue]
      · by_cases hn : v.isNull = true <;>
          by_cases hval : isConditionValueValid Text.length op (read v) = true <;>
            simp [ht, hop, hkeys, hcheck, hv, hp, hn, hval, rawValue, checkOperatorValue,
              Dialect.readCondition, Dialect.readValue]
    · simp [hkeys]
  all_goals rfl

lemma gateRule_eq (d : Doc) : gateRule P d = (rawRule d).bind (python P).readRule := by
  have hconds (items : List Doc) : items.mapM (gateCondition P) =
      (items.mapM rawCondition).bind fun cs => cs.mapM (python P).readCondition := by
    rw [← Traverse.mapM_bind]
    exact Traverse.mapM_congr fun d _ => gateCondition_eq P d
  rcases d with _ | _ | _ | _ | _ | _ | fields
  case obj =>
    simp only [gateRule, rawRule, Doc.toFields, Fields.read, Option.bind_eq_bind, Option.bind_some,
      Option.bind_assoc]
    rcases Fields.get fields "id" with _ | i
    · simp
    rcases Fields.get fields "conditions" with _ | c
    · simp
    rcases Fields.get fields "rollout" with _ | r
    · simp
    rcases hitems : c.toItems with _ | items
    · simp [hitems]
    by_cases hlen : items.length ≤ maxConditionsPerRule
    · simp only [hconds, rolloutConfig_eq, hitems, hlen, Traverse.guard_bind, if_true,
        Option.bind_some]
      rcases items.mapM rawCondition with _ | cs
      · simp
      rcases rawRollout r with _ | r
      · simp
      by_cases hkeys : Fields.within fields ruleKeys = true
      · simp [hkeys, Dialect.readRule]
      · simp [hkeys]
    · simp [hitems, hlen]
  all_goals rfl

lemma variantConfig_eq (d : Doc) :
    variantConfig P d = (rawVariant d).bind (python P).readVariant := by
  rcases d with _ | _ | _ | _ | _ | _ | fields
  case obj =>
    simp only [variantConfig, rawVariant, Doc.toFields, Fields.read, Option.bind_eq_bind,
      Option.bind_some]
    rcases Fields.get fields "key" with _ | k
    · simp
    rcases Fields.get fields "weight" with _ | w
    · simp
    by_cases hkeys : Fields.within fields variantKeys = true
    · rcases hw : strictInt w with _ | n
      · simp [hw, hkeys, Dialect.readVariant]
      · by_cases h0 : 0 ≤ n <;> by_cases h1 : n ≤ maxVariantWeight <;>
          simp [hw, hkeys, h0, h1, Dialect.readVariant, Option.filter_some]
    · simp [hkeys]
  all_goals rfl

theorem gateConfig_eq (d : Doc) : gateConfig P d = (rawFlag d).bind (python P).readFlag := by
  have hvariants (items : List Doc) : items.mapM (variantConfig P) =
      (items.mapM rawVariant).bind fun vs => vs.mapM (python P).readVariant := by
    rw [← Traverse.mapM_bind]
    exact Traverse.mapM_congr fun d _ => variantConfig_eq P d
  have hrules (items : List Doc) : items.mapM (gateRule P) =
      (items.mapM rawRule).bind fun rs => rs.mapM (python P).readRule := by
    rw [← Traverse.mapM_bind]
    exact Traverse.mapM_congr fun d _ => gateRule_eq P d
  rcases d with _ | _ | _ | _ | _ | _ | fields
  case obj =>
    ext c
    rw [Option.bind_eq_some_iff]
    constructor
    · intro h
      obtain ⟨hkeys, h⟩ := Traverse.of_guard h
      obtain ⟨key, hkey, h⟩ := Traverse.of_bind h
      obtain ⟨enabled, henabled, h⟩ := Traverse.of_bind h
      obtain ⟨dv, hdv, h⟩ := Traverse.of_bind h
      obtain ⟨vitems, hvitems, h⟩ := Traverse.of_bind h
      obtain ⟨hmin, h⟩ := Traverse.of_guard h
      obtain ⟨hmax, h⟩ := Traverse.of_guard h
      obtain ⟨vs, hvs, h⟩ := Traverse.of_bind h
      obtain ⟨salt, hsalt, h⟩ := Traverse.of_bind h
      obtain ⟨ritems, hritems, h⟩ := Traverse.of_bind h
      obtain ⟨hlen, h⟩ := Traverse.of_guard h
      obtain ⟨rs, hrs, h⟩ := Traverse.of_bind h
      obtain ⟨ft, hft, h⟩ := Traverse.of_bind h
      obtain ⟨version, hversion, h⟩ := Traverse.of_bind h
      obtain ⟨hpos, h⟩ := Traverse.of_guard h
      obtain ⟨hfit, h⟩ := Traverse.of_guard h
      obtain rfl := Option.some.inj h
      obtain ⟨k, hk, hkey⟩ := Fields.read_eq_some_iff.1 hkey
      obtain ⟨e, he, henabled⟩ := Fields.read_eq_some_iff.1 henabled
      obtain ⟨d, hd, hdv⟩ := Fields.read_eq_some_iff.1 hdv
      obtain ⟨s, hs, hsalt⟩ := Fields.read_eq_some_iff.1 hsalt
      obtain ⟨f, hf, hft⟩ := Fields.read_eq_some_iff.1 hft
      obtain ⟨n, hn, hversion⟩ := Fields.read_eq_some_iff.1 hversion
      rw [hvariants, Option.bind_eq_some_iff] at hvs
      obtain ⟨rvs, hrvs, hvs⟩ := hvs
      rw [hrules, Option.bind_eq_some_iff] at hrs
      obtain ⟨rrs, hrrs, hrs⟩ := hrs
      rw [fallthroughConfig_eq, Option.bind_eq_some_iff] at hft
      obtain ⟨rft, hrft, hft⟩ := hft
      obtain ⟨rollout, hrollout, rfl⟩ := Option.map_eq_some_iff.1 hft
      refine ⟨⟨k, e, d, rvs, s, rrs, rft, n⟩, rawFlag_eq_some_iff.2 ?_,
        Dialect.readFlag_eq_some_iff.2 ?_⟩
      · exact ⟨hkeys, hk, he, hd, ⟨vitems, hvitems, ⟨hmin, hmax⟩, hrvs⟩, hs,
          ⟨ritems, hritems, hlen, hrrs⟩, Fields.read_eq_some_iff.2 ⟨f, hf, hrft⟩, hn⟩
      · refine ⟨hkey, henabled, hdv, hvs, hsalt, hrs, hrollout, ?_, hfit⟩
        simp [hversion, hpos, Option.filter_some]
    · rintro ⟨raw, hraw, hc⟩
      obtain ⟨hkeys, hk, he, hd, ⟨vitems, hvitems, ⟨hmin, hmax⟩, hrvs⟩, hs,
        ⟨ritems, hritems, hlen, hrrs⟩, hf, hn⟩ := rawFlag_eq_some_iff.1 hraw
      obtain ⟨hkey, henabled, hdv, hvs, hsalt, hrs, hrollout, hversion, hfit⟩ :=
        Dialect.readFlag_eq_some_iff.1 hc
      obtain ⟨f, hf, hrft⟩ := Fields.read_eq_some_iff.1 hf
      obtain ⟨n, hfilter, hnat⟩ := Option.map_eq_some_iff.1 hversion
      obtain ⟨hint, hpos⟩ := Option.filter_eq_some_iff.1 hfilter
      refine Traverse.bind_intro rfl <| Traverse.guard_intro hkeys <|
        Traverse.bind_intro (Fields.read_eq_some_iff.2 ⟨_, hk, hkey⟩) <|
        Traverse.bind_intro (Fields.read_eq_some_iff.2 ⟨_, he, henabled⟩) <|
        Traverse.bind_intro (Fields.read_eq_some_iff.2 ⟨_, hd, hdv⟩) <|
        Traverse.bind_intro hvitems <| Traverse.guard_intro hmin <| Traverse.guard_intro hmax <|
        Traverse.bind_intro (a := c.variants) ?_ <|
        Traverse.bind_intro (Fields.read_eq_some_iff.2 ⟨_, hs, hsalt⟩) <|
        Traverse.bind_intro hritems <| Traverse.guard_intro hlen <|
        Traverse.bind_intro (a := c.rules) ?_ <|
        Traverse.bind_intro (a := c.fallthrough) (Fields.read_eq_some_iff.2 ⟨f, hf, ?_⟩) <|
        Traverse.bind_intro (Fields.read_eq_some_iff.2 ⟨_, hn, hint⟩) <|
        Traverse.guard_intro (of_decide_eq_true hpos) <| Traverse.guard_intro hfit ?_
      · rw [hvariants, hrvs]
        exact hvs
      · rw [hrules, hrrs]
        exact hrs
      · rw [fallthroughConfig_eq, hrft, Option.bind_some, hrollout]
        rfl
      · rw [hnat]
        rfl
  all_goals rfl

end Python

/-! ## Places -/

/-- A scalar place of a flag, with what stands there. -/
inductive Leaf
  | identifier (d : Doc)
  | text (d : Doc)
  | name (d : Option Doc)
  | enabled (d : Doc)
  | weight (d : Doc)
  | version (d : Doc)
  | percentage (d : Doc)
  | value (op : Operator) (d : Doc)

def RawRollout.leaves (r : RawRollout) : List Leaf := [.percentage r.percentage, .identifier r.bucketBy]

def RawCondition.leaves (c : RawCondition) : List Leaf :=
  .identifier c.attr :: c.value.toList.map (.value c.operator)

def RawRule.leaves (r : RawRule) : List Leaf :=
  .identifier r.id :: .name r.name :: (r.conditions.flatMap RawCondition.leaves ++ r.rollout.leaves)

def RawVariant.leaves (v : RawVariant) : List Leaf := [.identifier v.key, .weight v.weight]

def RawFlag.leaves (f : RawFlag) : List Leaf :=
  .identifier f.key :: .enabled f.enabled :: .identifier f.defaultVariant :: .text f.salt ::
    .version f.version :: (f.variants.flatMap RawVariant.leaves ++
      (f.rules.flatMap RawRule.leaves ++ f.fallthrough.leaves))

/-- A variant as it stands in the document. -/
def RawVariant.plain (v : RawVariant) : VariantConfig :=
  ⟨v.key.toText.getD [], (JavaScript.isInteger v.weight).getD 0⟩

/-- The variants of a flag fit together: their weights add up, their keys are distinct and the
default is one of them. -/
def RawFlag.Fits (f : RawFlag) : Prop :=
  validateVariants (f.variants.map RawVariant.plain) (f.defaultVariant.toText.getD []) = .ok ()

namespace Dialect

variable (D E : Dialect)

/-- The dialect reads something at a place. -/
def takes : Leaf → Bool
  | .identifier d => (D.identifier d).isSome
  | .text d => (D.text d).isSome
  | .name d => (D.name d).isSome
  | .enabled d => (D.enabled d).isSome
  | .weight d => (D.weight d).isSome
  | .version d => (D.version d).isSome
  | .percentage d => (D.percentage d).isSome
  | .value op d => (D.value op d).isSome

/-- Two dialects read the same at a place. -/
def SameAt : Leaf → Prop
  | .identifier d => D.identifier d = E.identifier d
  | .text d => D.text d = E.text d
  | .name d => D.name d = E.name d
  | .enabled d => D.enabled d = E.enabled d
  | .weight d => D.weight d = E.weight d
  | .version d => D.version d = E.version d
  | .percentage d => D.percentage d = E.percentage d
  | .value op d => D.value op d = E.value op d

/-- An identifier is read as the string that stands there, and a weight as its number. -/
structure Honest : Prop where
  identifier : ∀ {d : Doc} {t : Text}, D.identifier d = some t → d.toText = some t
  weight : ∀ {d : Doc} {n : ℤ}, D.weight d = some n → JavaScript.isInteger d = some n

variable {D E}

lemma readRollout_isSome_iff {r : RawRollout} :
    (D.readRollout r).isSome = true ↔ ∀ l ∈ r.leaves, D.takes l = true := by
  simp only [readRollout, RawRollout.leaves, List.forall_mem_cons, takes]
  cases D.percentage r.percentage <;> cases D.identifier r.bucketBy <;> simp

lemma readCondition_isSome_iff {c : RawCondition} :
    (D.readCondition c).isSome = true ↔ ∀ l ∈ c.leaves, D.takes l = true := by
  simp only [readCondition, RawCondition.leaves, List.forall_mem_cons, takes]
  cases D.identifier c.attr with
  | none => simp
  | some a =>
    cases c.value with
    | none => simp [readValue]
    | some d => cases hv : D.value c.operator d <;> simp [readValue, hv]

lemma readRule_isSome_iff {r : RawRule} :
    (D.readRule r).isSome = true ↔ ∀ l ∈ r.leaves, D.takes l = true := by
  have hconds : (r.conditions.mapM D.readCondition).isSome = true ↔
      ∀ l ∈ r.conditions.flatMap RawCondition.leaves, D.takes l = true := by
    simp only [Traverse.mapM_isSome_iff, readCondition_isSome_iff, List.mem_flatMap]
    exact ⟨fun h l ⟨c, hc, hl⟩ => h c hc l hl, fun h c hc l hl => h l ⟨c, hc, hl⟩⟩
  simp only [RawRule.leaves, List.forall_mem_cons, List.forall_mem_append, ← hconds,
    ← readRollout_isSome_iff]
  simp only [takes, readRule]
  cases D.identifier r.id <;> cases D.name r.name <;> cases r.conditions.mapM D.readCondition <;>
    cases D.readRollout r.rollout <;> simp

variable {v : RawVariant}

lemma readVariant_isSome_iff :
    (D.readVariant v).isSome = true ↔ ∀ l ∈ v.leaves, D.takes l = true := by
  simp only [readVariant, RawVariant.leaves, List.forall_mem_cons, takes]
  cases D.identifier v.key <;> cases D.weight v.weight <;> simp

lemma Honest.readVariant_eq (h : D.Honest) {c : VariantConfig}
    (hc : D.readVariant v = some c) : c = v.plain := by
  obtain ⟨key, hkey, hc⟩ := Traverse.of_bind hc
  obtain ⟨w, hw, hc⟩ := Traverse.of_bind hc
  obtain rfl := Option.some.inj hc
  rw [RawVariant.plain, h.identifier hkey, h.weight hw]
  rfl

theorem readFlag_isSome_iff (h : D.Honest) {f : RawFlag} :
    (D.readFlag f).isSome = true ↔ (∀ l ∈ f.leaves, D.takes l = true) ∧ f.Fits := by
  have hvariants : (f.variants.mapM D.readVariant).isSome = true ↔
      ∀ l ∈ f.variants.flatMap RawVariant.leaves, D.takes l = true := by
    simp only [Traverse.mapM_isSome_iff, readVariant_isSome_iff, List.mem_flatMap]
    exact ⟨fun h l ⟨v, hv, hl⟩ => h v hv l hl, fun h v hv l hl => h l ⟨v, hv, hl⟩⟩
  have hrules : (f.rules.mapM D.readRule).isSome = true ↔
      ∀ l ∈ f.rules.flatMap RawRule.leaves, D.takes l = true := by
    simp only [Traverse.mapM_isSome_iff, readRule_isSome_iff, List.mem_flatMap]
    exact ⟨fun h l ⟨v, hv, hl⟩ => h v hv l hl, fun h v hv l hl => h l ⟨v, hv, hl⟩⟩
  simp only [RawFlag.leaves, List.forall_mem_cons, List.forall_mem_append, ← hvariants, ← hrules,
    ← readRollout_isSome_iff]
  constructor
  · intro hsome
    obtain ⟨c, hc⟩ := Option.isSome_iff_exists.1 hsome
    obtain ⟨hkey, henabled, hdv, hvs, hsalt, hrs, hft, hversion, hfit⟩ := readFlag_eq_some_iff.1 hc
    refine ⟨⟨?_, ?_, ?_, ?_, ?_, ?_, ?_, ?_⟩, ?_⟩
    · simp [takes, hkey]
    · simp [takes, henabled]
    · simp [takes, hdv]
    · simp [takes, hsalt]
    · simp [takes, hversion]
    · simp [hvs]
    · simp [hrs]
    · simp [hft]
    · rw [RawFlag.Fits, ← Traverse.eq_map_of_mapM (fun _ _ => h.readVariant_eq) hvs,
        h.identifier hdv]
      exact hfit
  · rintro ⟨⟨hkey, henabled, hdv, hsalt, hversion, hvs, hrs, hft⟩, hfit⟩
    obtain ⟨key, hkey⟩ := Option.isSome_iff_exists.1 hkey
    obtain ⟨enabled, henabled⟩ := Option.isSome_iff_exists.1 henabled
    obtain ⟨dv, hdv⟩ := Option.isSome_iff_exists.1 hdv
    obtain ⟨salt, hsalt⟩ := Option.isSome_iff_exists.1 hsalt
    obtain ⟨version, hversion⟩ := Option.isSome_iff_exists.1 hversion
    obtain ⟨vs, hvs⟩ := Option.isSome_iff_exists.1 hvs
    obtain ⟨rs, hrs⟩ := Option.isSome_iff_exists.1 hrs
    obtain ⟨ft, hft⟩ := Option.isSome_iff_exists.1 hft
    have hc : D.readFlag f = some ⟨key, enabled, dv, vs, salt, rs, ⟨ft⟩, version⟩ := by
      refine readFlag_eq_some_iff.2 ⟨hkey, henabled, hdv, hvs, hsalt, hrs, hft, hversion, ?_⟩
      rw [RawFlag.Fits, ← Traverse.eq_map_of_mapM (fun _ _ => h.readVariant_eq) hvs,
        h.identifier hdv] at hfit
      exact hfit
    rw [hc]
    rfl

/-! ## Two dialects -/

lemma readRollout_eq_iff {r : RawRollout} {a b : RolloutConfig} (ha : D.readRollout r = some a)
    (hb : E.readRollout r = some b) : a = b ↔ ∀ l ∈ r.leaves, SameAt D E l := by
  obtain ⟨p, hp, ha⟩ := Traverse.of_bind ha
  obtain ⟨t, ht, ha⟩ := Traverse.of_bind ha
  obtain ⟨q, hq, hb⟩ := Traverse.of_bind hb
  obtain ⟨u, hu, hb⟩ := Traverse.of_bind hb
  obtain rfl := Option.some.inj ha
  obtain rfl := Option.some.inj hb
  simp [RawRollout.leaves, SameAt, hp, ht, hq, hu]

lemma readCondition_eq_iff {c : RawCondition} {a b : GateCondition}
    (ha : D.readCondition c = some a) (hb : E.readCondition c = some b) :
    a = b ↔ ∀ l ∈ c.leaves, SameAt D E l := by
  obtain ⟨t, ht, ha⟩ := Traverse.of_bind ha
  obtain ⟨v, hv, ha⟩ := Traverse.of_bind ha
  obtain ⟨u, hu, hb⟩ := Traverse.of_bind hb
  obtain ⟨w, hw, hb⟩ := Traverse.of_bind hb
  obtain rfl := Option.some.inj ha
  obtain rfl := Option.some.inj hb
  rcases hvalue : c.value with _ | d
  · rw [hvalue] at hv hw
    obtain rfl := Option.some.inj hv
    obtain rfl := Option.some.inj hw
    simp [RawCondition.leaves, SameAt, hvalue, ht, hu]
  · rw [hvalue] at hv hw
    obtain ⟨x, hx, rfl⟩ := Option.map_eq_some_iff.1 hv
    obtain ⟨y, hy, rfl⟩ := Option.map_eq_some_iff.1 hw
    simp [RawCondition.leaves, SameAt, hvalue, ht, hu, hx, hy]

lemma mapM_eq_iff {α β : Type} {f g : α → Option β} {leaves : α → List Leaf}
    (h : ∀ {a : α} {x y : β}, f a = some x → g a = some y →
      (x = y ↔ ∀ l ∈ leaves a, SameAt D E l))
    {as : List α} {xs ys : List β} (hf : as.mapM f = some xs) (hg : as.mapM g = some ys) :
    xs = ys ↔ ∀ l ∈ as.flatMap leaves, SameAt D E l := by
  have hfsome := Traverse.mapM_isSome_iff.1 (Option.isSome_iff_exists.2 ⟨xs, hf⟩)
  have hgsome := Traverse.mapM_isSome_iff.1 (Option.isSome_iff_exists.2 ⟨ys, hg⟩)
  have hpoint : ∀ a ∈ as, (f a = g a ↔ ∀ l ∈ leaves a, SameAt D E l) := by
    intro a ha
    obtain ⟨x, hx⟩ := Option.isSome_iff_exists.1 (hfsome a ha)
    obtain ⟨y, hy⟩ := Option.isSome_iff_exists.1 (hgsome a ha)
    rw [hx, hy, Option.some.injEq]
    exact h hx hy
  rw [Traverse.mapM_inj_iff hf hg]
  simp only [List.mem_flatMap]
  constructor
  · rintro hall l ⟨a, ha, hl⟩
    exact (hpoint a ha).1 (hall a ha) l hl
  · intro hall a ha
    exact (hpoint a ha).2 fun l hl => hall l ⟨a, ha, hl⟩

lemma readRule_eq_iff {r : RawRule} {a b : GateRule} (ha : D.readRule r = some a)
    (hb : E.readRule r = some b) : a = b ↔ ∀ l ∈ r.leaves, SameAt D E l := by
  obtain ⟨i, hi, ha⟩ := Traverse.of_bind ha
  obtain ⟨n, hn, ha⟩ := Traverse.of_bind ha
  obtain ⟨cs, hcs, ha⟩ := Traverse.of_bind ha
  obtain ⟨ro, hro, ha⟩ := Traverse.of_bind ha
  obtain ⟨j, hj, hb⟩ := Traverse.of_bind hb
  obtain ⟨m, hm, hb⟩ := Traverse.of_bind hb
  obtain ⟨ds, hds, hb⟩ := Traverse.of_bind hb
  obtain ⟨so, hso, hb⟩ := Traverse.of_bind hb
  obtain rfl := Option.some.inj ha
  obtain rfl := Option.some.inj hb
  simp only [RawRule.leaves, List.forall_mem_cons, List.forall_mem_append,
    ← mapM_eq_iff readCondition_eq_iff hcs hds, ← readRollout_eq_iff hro hso]
  simp [SameAt, hi, hn, hj, hm]

lemma readVariant_eq_iff {a b : VariantConfig} (ha : D.readVariant v = some a)
    (hb : E.readVariant v = some b) : a = b ↔ ∀ l ∈ v.leaves, SameAt D E l := by
  obtain ⟨p, hp, ha⟩ := Traverse.of_bind ha
  obtain ⟨t, ht, ha⟩ := Traverse.of_bind ha
  obtain ⟨q, hq, hb⟩ := Traverse.of_bind hb
  obtain ⟨u, hu, hb⟩ := Traverse.of_bind hb
  obtain rfl := Option.some.inj ha
  obtain rfl := Option.some.inj hb
  simp [RawVariant.leaves, SameAt, hp, ht, hq, hu]

theorem readFlag_eq_iff {f : RawFlag} {a b : ClientFlagConfig} (ha : D.readFlag f = some a)
    (hb : E.readFlag f = some b) : a = b ↔ ∀ l ∈ f.leaves, SameAt D E l := by
  have ra := readFlag_eq_some_iff.1 ha
  have rb := readFlag_eq_some_iff.1 hb
  simp only [RawFlag.leaves, List.forall_mem_cons, List.forall_mem_append,
    ← mapM_eq_iff readVariant_eq_iff ra.variants rb.variants,
    ← mapM_eq_iff readRule_eq_iff ra.rules rb.rules,
    ← readRollout_eq_iff ra.fallthrough rb.fallthrough]
  simp only [SameAt, ra.key, rb.key, ra.enabled, rb.enabled, ra.defaultVariant, rb.defaultVariant,
    ra.salt, rb.salt, ra.version, rb.version, Option.some.injEq]
  obtain ⟨k, e, dv, vs, s, rs, ⟨ft⟩, n⟩ := a
  obtain ⟨k', e', dv', vs', s', rs', ⟨ft'⟩, n'⟩ := b
  simp only [ClientFlagConfig.mk.injEq, FallthroughConfig.mk.injEq]
  tauto

end Dialect

end Apdl.Flags.Wire
