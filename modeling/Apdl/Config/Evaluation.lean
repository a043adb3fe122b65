import Apdl.Config.ClientFlag
import Apdl.Lib.PyValue

set_option autoImplicit false

/-!
# What an evaluation raises

The targeting contract and `evaluate` of the config service again, with the operations of Python that
raise when a value is of the wrong kind. No operator raises on any value. What raises is the encoding of
the text that is hashed, because an attribute may be a string that cannot be encoded.

## Main results

* `evaluate_raises_on_surrogate` — an admitted context with which it does not.
-/

namespace Apdl.Config.Evaluation

open Flags ClientFlag Check

/-! ## Operations that raise -/

/-- The exceptions. -/
inductive PyError
  | attribute
  | key
  | overflow
  | type
  | value
  | unicodeEncode
  deriving DecidableEq

/-- A computation of Python. -/
abbrev Py := Except PyError

/-- `isinstance(value, str)`. -/
def isStr : Json → Bool
  | .str _ => true
  | _ => false

/-- `isinstance(value, bool)`. -/
def isBool : Json → Bool
  | .bool _ => true
  | _ => false

/-- `len(value)`. -/
def len : Json → Py ℕ
  | .str s => .ok s.length
  | .arr items => .ok items.length
  | .obj fields => .ok fields.length
  | _ => .error .type

/-- `float(value)`. It is asked for numbers and for strings that match the numeric pattern. -/
def float : Json → Py PyFloat
  | .bool b => .ok (.finite (if b then 1 else 0))
  | .num q =>
    match Double.round q with
    | some r => .ok (.finite r)
    | none => .error .overflow
  | .str s =>
    match numericLiteral s with
    | some q => .ok (.nearest q)
    | none => .error .value
  | _ => .error .type

/-- A float that `math.isfinite` accepts. -/
def finite : PyFloat → Option ℚ
  | .finite q => some q
  | _ => none

/-- `_NUMERIC_RE.fullmatch(value) is not None`. -/
def fullmatch : Json → Py Bool
  | .str s => .ok (numericLiteral s).isSome
  | _ => .error .type

/-- A test of a string with another one: `in`, `startswith`, `endswith`. -/
def stringTest (test : Text → Text → Bool) : Json → Json → Py Bool
  | .str actual, .str expected => .ok (test actual expected)
  | .str _, _ => .error .type
  | _, _ => .error .attribute

/-- `for item in value`, of a list. -/
def iterate : Json → Py (List Json)
  | .arr items => .ok items
  | _ => .error .type

/-! ## The contract -/

def isBoundedString (v : Json) : Py Bool := do
  if isStr v then return decide ((← len v) ≤ maxStringLength)
  return false

def isJsonNumber (v : Json) : Py Bool :=
  match v with
  | .num _ =>
    match float v with
    | .ok x => .ok (finite x).isSome
    | .error .overflow | .error .type | .error .value => .ok false
    | .error e => .error e
  | _ => .ok false

def isScalar (v : Json) : Py Bool := do
  if ← isBoundedString v then return true
  if isBool v then return true
  isJsonNumber v

def scalarEqual (left right : Json) : Py Bool := do
  if !(← isScalar left) then return false
  if !(← isScalar right) then return false
  if isBool left || isBool right then
    return isBool left && isBool right && decide (left = right)
  if isStr left || isStr right then
    return isStr left && isStr right && decide (left = right)
  return decide ((← float left) = (← float right))

def parseNumeric (v : Json) : Py (Option ℚ) := do
  if ← isJsonNumber v then return finite (← float v)
  if !(← isBoundedString v) then return none
  if !(← fullmatch v) then return none
  match float v with
  | .ok x => return finite x
  | .error .overflow | .error .value => return none
  | .error e => .error e

def isMembershipList : Json → Py Bool
  | .arr items =>
    if 0 < items.length ∧ items.length ≤ maxMembershipValues then items.allM isScalar
    else return false
  | _ => return false

def isConditionValueValid (op : Operator) (v : Json) : Py Bool := do
  match op.cls with
  | .equality => isScalar v
  | .string => isBoundedString v
  | .numeric => return (← parseNumeric v).isSome
  | .membership => isMembershipList v
  | .presence => return false

/-! ## The evaluator -/

def stringHolds (test : Text → Text → Bool) (actual expected : Json) : Py Bool := do
  if ← isBoundedString actual then stringTest test actual expected else return false

/-- `any(scalar_equal(actual, item) for item in expected)`, and what is made of it. -/
def memberHolds (f : Bool → Bool) (actual expected : Json) : Py Bool := do
  if !(← isScalar actual) then return false
  if !(← isMembershipList expected) then return false
  return f (← (← iterate expected).anyM (scalarEqual actual))

/-- The operators that compare a present value with the expected one. -/
def operatorHolds (op : Operator) (actual expected : Json) : Py Bool := do
  match op with
  | .equals => scalarEqual actual expected
  | .notEquals =>
    if ← isScalar actual then return !(← scalarEqual actual expected) else return false
  | .contains => stringHolds Python.contains actual expected
  | .notContains => stringHolds (fun a e => !Python.contains a e) actual expected
  | .startsWith => stringHolds Python.startsWith actual expected
  | .endsWith => stringHolds Python.endsWith actual expected
  | .isIn => memberHolds id actual expected
  | .notIn => memberHolds not actual expected
  | .gt | .gte | .lt | .lte =>
    match ← parseNumeric actual, ← parseNumeric expected with
    | some a, some e => return compareNumeric op a e
    | _, _ => return false
  | .exists | .notExists => return false

/-- The check of the value of a condition. -/
def valueAccepted (c : GateCondition) : Py Bool :=
  if c.operator.isPresence then return c.value.isNone
  else
    match c.value with
    | none => return false
    | some v => isConditionValueValid c.operator v

def matchesCondition (c : GateCondition) (ctx : EvalContext) : Py Bool := do
  if !isIdentifier Text.length c.attr then return false
  if !(← valueAccepted c) then return false
  match c.operator with
  | .exists => return (resolveAttribute c.attr ctx).isSome
  | .notExists => return (resolveAttribute c.attr ctx).isNone
  | op =>
    match resolveAttribute c.attr ctx, c.value with
    | none, _ => return false
    | some actual, some expected => operatorHolds op actual expected
    | some _, none => .error .key

def matchesRule (ctx : EvalContext) (r : GateRule) : Py Bool :=
  if r.conditions.length ≤ maxConditionsPerRule then
    r.conditions.allM fun c => matchesCondition c ctx
  else return false

/-- `evaluate`. What is hashed is encoded, which may raise. -/
def evaluate (state : FlagState) (f : ClientFlagConfig) (ctx : EvalContext) : Py EvalResult :=
  match ConfigService.canonicalEvaluationFlag f with
  | .error _ =>
    .ok (.plain f.key none .invalidConfig (if 1 ≤ f.version then some f.version else none))
  | .ok () =>
    if state ≠ .active then .ok (.plain f.key (some f.defaultVariant) .disabled (some f.version))
    else if f.enabled = false then
      .ok (.plain f.key (some f.defaultVariant) .disabled (some f.version))
    else if ConfigService.rulesWithinLimits Text.length f.rules = false then
      .ok (.plain f.key (some f.defaultVariant) .error (some f.version))
    else do
      match serve .python f ctx (← f.rules.findM? (matchesRule ctx)) with
      | some r => .ok r
      | none => .error .unicodeEncode

/-! ## The contexts that are admitted -/

def maxEvalContextDepth : ℕ := 4

def maxEvalContextKeys : ℕ := 100

def maxEvalContextNodes : ℕ := 1000

mutual

/-- `_validate_context_value`; the budget that is left over, `none` when the value is refused. -/
def validateContextValue (depth : ℕ) : Json → ℕ × ℕ → Option (ℕ × ℕ)
  | v, (keys, nodes) =>
    if maxEvalContextNodes < nodes + 1 then none
    else
      match v with
      | .null | .bool _ => some (keys, nodes + 1)
      | .num q => if (Double.round q).isSome then some (keys, nodes + 1) else none
      | .str s => if isBoundedText Text.length s then some (keys, nodes + 1) else none
      | .arr items =>
        if maxEvalContextDepth ≤ depth ∨ maxMembershipValues < items.length then none
        else validateContextItems (depth + 1) items (keys, nodes + 1)
      | .obj fields =>
        if maxEvalContextDepth ≤ depth ∨ maxEvalContextKeys < keys + fields.length ∨
            maxMembershipValues < fields.length then none
        else validateContextFields (depth + 1) fields (keys + fields.length, nodes + 1)

def validateContextItems (depth : ℕ) : List Json → ℕ × ℕ → Option (ℕ × ℕ)
  | [], budget => some budget
  | v :: rest, budget =>
    (validateContextValue depth v budget).bind (validateContextItems depth rest)

def validateContextFields (depth : ℕ) : List (Text × Json) → ℕ × ℕ → Option (ℕ × ℕ)
  | [], budget => some budget
  | (key, v) :: rest, budget =>
    if isIdentifier Text.length key then
      (validateContextValue depth v budget).bind (validateContextFields depth rest)
    else none

end

/-- `EvalContext.model_validate`. -/
def validateContext (ctx : EvalContext) : Bool :=
  (ctx.userId.all fun t => wellFormed t && boundedLength 0 maxIdentifierLength t) &&
    (ctx.anonymousId.all fun t => wellFormed t && boundedLength 0 maxIdentifierLength t) &&
    (ctx.attributes.all fun field => wellFormed field.1) &&
    decide (ctx.attributes.length ≤ maxMembershipValues) &&
    match validateContextFields 0 ctx.attributes (ctx.attributes.length, 1) with
    | some (keys, _) => decide (keys ≤ maxEvalContextKeys)
    | none => false

/-! ## No operator raises -/

variable {c : GateCondition} {ctx : EvalContext} {v actual expected : Json}

lemma isBoundedString_eq (v : Json) :
    isBoundedString v = .ok (Flags.isBoundedString Text.length v) := by
  cases v <;> rfl

lemma isJsonNumber_num (q : ℚ) : isJsonNumber (.num q) = .ok (Double.round q).isSome := by
  simp only [isJsonNumber, float]
  cases h : Double.round q <;> simp only [finite, Option.isSome_none, Option.isSome_some]

lemma isScalar_eq (v : Json) : isScalar v = .ok (Flags.isScalar Text.length v) := by
  unfold isScalar
  rw [isBoundedString_eq]
  cases v with
  | num q => exact isJsonNumber_num q
  | str s =>
    simp only [Flags.isBoundedString, Flags.isScalar]
    cases isBoundedText Text.length s <;> rfl
  | _ => rfl

lemma float_of_isScalar {q : ℚ} (h : Flags.isScalar Text.length (.num q) = true) :
    ∃ r, Double.round q = some r ∧ float (.num q) = .ok (.finite r) := by
  obtain ⟨r, hr⟩ := Option.isSome_iff_exists.1 h
  exact ⟨r, hr, by simp only [float, hr]⟩

lemma scalarEqual_eq (left right : Json) :
    scalarEqual left right = .ok (Flags.scalarEqual Text.length left right) := by
  unfold scalarEqual Flags.scalarEqual
  rw [isScalar_eq, isScalar_eq]
  cases hl : Flags.isScalar Text.length left with
  | false => rfl
  | true =>
    cases hr : Flags.isScalar Text.length right with
    | false => rfl
    | true =>
      cases left with
      | num p =>
        cases right with
        | num q =>
          -- two numbers that are scalars are both converted
          obtain ⟨a, ha, hfa⟩ := float_of_isScalar hl
          obtain ⟨b, hb, hfb⟩ := float_of_isScalar hr
          have hsame : (some a == some b) = decide (PyFloat.finite a = PyFloat.finite b) := by
            simp [beq_eq_decide]
          simp only [ha, hb, hsame]
          change (do return decide ((← float (.num p)) = (← float (.num q)))) = _
          rw [hfa, hfb]
          rfl
        | null | arr items | obj fields => cases hr
        | bool b | str s => rfl
      | null | arr items | obj fields => cases hl
      | bool a =>
        cases right with
        | bool b => cases a <;> cases b <;> rfl
        | null | arr items | obj fields => cases hr
        | num q | str s => rfl
      | str a =>
        cases right with
        | str b => simp [isBool, isStr, beq_eq_decide, bind, Except.bind, pure, Except.pure]
        | null | arr items | obj fields => cases hr
        | num q | bool b => rfl

lemma parseNumeric_eq (v : Json) :
    parseNumeric v = .ok (Flags.parseNumeric Text.length v) := by
  unfold parseNumeric
  cases v with
  | num q =>
    rw [isJsonNumber_num]
    cases h : Double.round q with
    | none =>
      simp [Flags.parseNumeric, h, isBoundedString, isStr, bind, Except.bind, pure, Except.pure]
    | some r => simp [Flags.parseNumeric, h, float, finite, bind, Except.bind, pure, Except.pure]
  | str s =>
    rw [isBoundedString_eq]
    cases hs : isBoundedText Text.length s with
    | false =>
      simp [Flags.parseNumeric, Flags.isBoundedString, hs, isJsonNumber, bind, Except.bind, pure,
        Except.pure]
    | true =>
      cases hn : numericLiteral s with
      | none =>
        simp [Flags.parseNumeric, Flags.isBoundedString, hs, hn, isJsonNumber, fullmatch, bind,
          Except.bind, pure, Except.pure]
      | some q =>
        cases hq : Double.round q <;>
          simp [Flags.parseNumeric, Flags.isBoundedString, hs, hn, hq, isJsonNumber, fullmatch,
            float, PyFloat.nearest, finite, bind, Except.bind, pure, Except.pure]
  | null | bool b | arr items | obj fields => rfl

lemma isMembershipList_eq (v : Json) :
    isMembershipList v = .ok (Flags.isMembershipList Text.length v) := by
  have hscalar : isScalar = fun v => pure (Flags.isScalar Text.length v) := funext isScalar_eq
  cases v with
  | arr items =>
    have hall : items.allM isScalar = .ok (items.all (Flags.isScalar Text.length)) := by
      rw [hscalar]
      exact List.allM_pure
    simp only [isMembershipList, Flags.isMembershipList, hall]
    by_cases hmin : 0 < items.length <;> by_cases hmax : items.length ≤ maxMembershipValues <;>
      simp [hmin, hmax, pure, Except.pure]
  | _ => rfl

lemma isConditionValueValid_eq (op : Operator) (v : Json) :
    isConditionValueValid op v = .ok (Flags.isConditionValueValid Text.length op v) := by
  unfold isConditionValueValid Flags.isConditionValueValid
  cases op.cls with
  | equality => exact isScalar_eq v
  | string => exact isBoundedString_eq v
  | numeric =>
    simp only [parseNumeric_eq]
    rfl
  | membership => exact isMembershipList_eq v
  | presence => rfl

lemma stringHolds_eq (test : Text → Text → Bool) (actual : Json)
    (h : Flags.isBoundedString Text.length expected = true) :
    stringHolds test actual expected =
      .ok (Flags.stringHolds Text.length test actual expected) := by
  unfold stringHolds
  rw [isBoundedString_eq]
  cases expected with
  | str e =>
    cases actual with
    | str a =>
      simp only [Flags.isBoundedString, Flags.stringHolds]
      cases isBoundedText Text.length a <;> rfl
    | _ => rfl
  | _ => cases h

lemma memberHolds_eq (f : Bool → Bool) (actual : Json)
    (h : Flags.isMembershipList Text.length expected = true) :
    memberHolds f actual expected = .ok (Flags.isScalar Text.length actual &&
      Flags.isMembershipList Text.length expected && f (memberOf Text.length actual expected)) := by
  have hequal : scalarEqual actual = fun v => pure (Flags.scalarEqual Text.length actual v) :=
    funext (scalarEqual_eq actual)
  unfold memberHolds
  rw [isScalar_eq, isMembershipList_eq, h]
  cases expected with
  | arr items =>
    cases Flags.isScalar Text.length actual with
    | false => rfl
    | true =>
      simp only [iterate, hequal, List.anyM_pure]
      rfl
  | _ => cases h

lemma operatorHolds_eq {op : Operator} (actual : Json)
    (h : Flags.isConditionValueValid Text.length op expected = true) :
    operatorHolds op actual expected = .ok (Python.operatorHolds op actual expected) := by
  have hnumeric : ∀ op' : Operator, (do
      match ← parseNumeric actual, ← parseNumeric expected with
      | some a, some e => return compareNumeric op' a e
      | _, _ => return false) =
      (.ok (numericHolds Text.length op' actual expected) : Py Bool) := by
    intro op'
    rw [parseNumeric_eq, parseNumeric_eq]
    unfold numericHolds
    simp only [bind, Except.bind, pure, Except.pure]
    cases Flags.parseNumeric Text.length actual <;>
      cases Flags.parseNumeric Text.length expected <;> rfl
  cases op with
  | equals => exact scalarEqual_eq actual expected
  | notEquals =>
    simp only [operatorHolds, Python.operatorHolds, isScalar_eq, scalarEqual_eq]
    cases Flags.isScalar Text.length actual <;> rfl
  | contains | notContains | startsWith | endsWith => exact stringHolds_eq _ actual h
  | isIn => exact memberHolds_eq id actual h
  | notIn => exact memberHolds_eq not actual h
  | gt | gte | lt | lte => exact hnumeric _
  | «exists» | notExists => rfl

lemma valueAccepted_eq (c : GateCondition) : valueAccepted c = .ok
    (if c.operator.isPresence then c.value.isNone
    else
      match c.value with
      | none => false
      | some v => Flags.isConditionValueValid Text.length c.operator v) := by
  unfold valueAccepted
  cases c.operator.isPresence with
  | true => rfl
  | false =>
    cases c.value with
    | none => rfl
    | some v => exact isConditionValueValid_eq _ v

/-- **No operator raises**, whatever the value of the attribute is. -/
lemma matchesCondition_eq (c : GateCondition) (ctx : EvalContext) :
    matchesCondition c ctx = .ok (ConfigService.matchesCondition c ctx) := by
  unfold matchesCondition ConfigService.matchesCondition ConfigService.conditionValid
  rw [valueAccepted_eq]
  cases isIdentifier Text.length c.attr with
  | false => rfl
  | true =>
    obtain ⟨attr, op, value⟩ := c
    simp only [Bool.true_and]
    cases hp : op.isPresence with
    | true =>
      cases value with
      | some v => rfl
      | none => cases op <;> first | rfl | cases hp
    | false =>
      cases value with
      | none => rfl
      | some v =>
        simp only [Bool.false_eq_true, if_false]
        cases hv : Flags.isConditionValueValid Text.length op v with
        | false => rfl
        | true =>
          cases resolveAttribute attr ctx with
          | none => cases op <;> rfl
          | some actual =>
            have hholds := operatorHolds_eq actual hv
            cases op <;> first | exact hholds | cases hp

lemma matchesRule_eq (r : GateRule) (ctx : EvalContext) :
    matchesRule ctx r = .ok (ConfigService.matchesRule ctx r) := by
  have hcondition : (fun c => matchesCondition c ctx) =
      fun c => pure (ConfigService.matchesCondition c ctx) :=
    funext fun c => matchesCondition_eq c ctx
  unfold matchesRule ConfigService.matchesRule
  rw [hcondition, List.allM_pure]
  by_cases h : r.conditions.length ≤ maxConditionsPerRule <;> simp [h, pure, Except.pure]

/-! ## When an evaluation returns -/

/-- The rollout of the first rule that matches, or of the fallthrough. -/
def selectedRollout (f : ClientFlagConfig) (ctx : EvalContext) : RolloutConfig :=
  rolloutOf f (f.rules.find? (ConfigService.matchesRule ctx))

/-- There is no unit to bucket, or the key, the salt and the unit can be encoded. -/
def Hashable (f : ClientFlagConfig) (ctx : EvalContext) : Prop :=
  unitId .python ctx (selectedRollout f ctx).bucketBy = [] ∨
    wellFormed f.key = true ∧ wellFormed f.salt = true ∧
      wellFormed (unitId .python ctx (selectedRollout f ctx).bucketBy) = true

variable {f : ClientFlagConfig} {body : FlagCreate} {salt : Text} {r : EvalResult}
  {selected : Option GateRule} {rollout : RolloutConfig}

lemma hash_isSome {unit : Text} (suffix : Text) (hsuffix : wellFormed suffix = true)
    (h : wellFormed f.key = true ∧ wellFormed f.salt = true ∧ wellFormed unit = true) :
    ∃ n, Runtime.python.hash f.key (f.salt ++ 58 :: suffix) unit = some n := by
  have hwf : wellFormed (hashInput f.key (f.salt ++ 58 :: suffix) unit) = true := by
    rw [wellFormed_hashInput f.key f.salt unit hsuffix, h.1, h.2.1, h.2.2]
    rfl
  exact ⟨_, hashBucket_eq hwf true⟩

lemma decideRollout_isSome {id : Option Text} {a b : Reason}
    (h : unitId .python ctx rollout.bucketBy = [] ∨ wellFormed f.key = true ∧
      wellFormed f.salt = true ∧ wellFormed (unitId .python ctx rollout.bucketBy) = true) :
    ∃ r, decideRollout .python f ctx id rollout a b = some r := by
  by_cases hunit : unitId .python ctx rollout.bucketBy = []
  · have happly : applyRollout .python f rollout ctx =
        some ⟨false, none, rollout.percentage, rollout.bucketBy⟩ := if_pos hunit
    rw [decideRollout, happly]
    exact ⟨_, rfl⟩
  · have hwf := h.resolve_left hunit
    have hrollout : Text.ofString ":rollout" = 58 :: Text.ofString "rollout" := by decide
    have hvariant : Text.ofString ":variant" = 58 :: Text.ofString "variant" := by decide
    obtain ⟨n, hn⟩ := hash_isSome (Text.ofString "rollout") (by decide) hwf
    obtain ⟨m, hm⟩ := hash_isSome (Text.ofString "variant") (by decide) hwf
    simp only [decideRollout, applyRollout, assignVariant, if_neg hunit, hrollout, hvariant, hn, hm,
      Option.map_some, Option.bind_eq_bind, Option.bind_some, Option.isNone_some,
      Bool.false_eq_true, if_false]
    split <;> exact ⟨_, rfl⟩

lemma variant_of_assign {bucketBy v : Text} {bucket : Option ℚ}
    (h : assignVariant .python f ctx bucketBy = some (v, bucket)) :
    v ∈ f.variants.map VariantConfig.key ∨ v = f.defaultVariant := by
  unfold assignVariant at h
  split at h
  · cases h
    exact .inr rfl
  · obtain ⟨n, -, heq⟩ := Option.map_eq_some_iff.1 h
    cases heq
    cases hpick : assignWeightedVariant .python f.variants (percentageBucket n) with
    | none => exact .inr rfl
    | some k =>
      by_cases hk : k = []
      · exact .inr (if_pos hk)
      · unfold assignWeightedVariant at hpick
        split at hpick
        · obtain hlast | ⟨w, hw, rfl⟩ := pickVariant_mem hpick
          · cases hlast
          · exact .inl (List.mem_map.2 ⟨w, hw, (if_neg hk).symm⟩)
        · cases hpick

lemma variant_of_serve (h : serve .python f ctx selected = some r) :
    ∃ v, r.variant = some v ∧ (v ∈ f.variants.map VariantConfig.key ∨ v = f.defaultVariant) := by
  have hdecide : ∀ id rollout a b, decideRollout .python f ctx id rollout a b = some r →
      ∃ v, r.variant = some v ∧ (v ∈ f.variants.map VariantConfig.key ∨ v = f.defaultVariant) := by
    intro id rollout a b h
    simp only [decideRollout, Option.bind_eq_bind, Option.bind_eq_some_iff] at h
    obtain ⟨ro, -, h⟩ := h
    split at h
    · cases h
      exact ⟨_, rfl, .inr rfl⟩
    · split at h
      · obtain ⟨⟨v, bucket⟩, hassign, h⟩ := Option.bind_eq_some_iff.1 h
        cases h
        exact ⟨v, rfl, variant_of_assign hassign⟩
      · cases h
        exact ⟨_, rfl, .inr rfl⟩
  cases selected with
  | none => exact hdecide _ _ _ _ h
  | some rule => exact hdecide _ _ _ _ h

lemma serve_isSome_iff :
    (∃ r, serve .python f ctx (f.rules.find? (ConfigService.matchesRule ctx)) = some r) ↔
      Hashable f ctx := by
  constructor
  · rintro ⟨r, hr⟩
    obtain ⟨-, -, -, -, hhash⟩ := serve_shows hr
    refine or_iff_not_imp_left.2 fun hunit => ?_
    have hwf := wellFormed_of_hash (hhash hunit)
    simp only [Bool.and_eq_true] at hwf
    exact ⟨hwf.1.1, hwf.1.2, hwf.2⟩
  · intro h
    unfold Hashable selectedRollout at h
    revert h
    cases f.rules.find? (ConfigService.matchesRule ctx) with
    | none => exact decideRollout_isSome
    | some rule => exact decideRollout_isSome

lemma accepted_requested (h : body.validate = .ok ()) (salt : Text) :
    Accepted (requested body salt) ∧ validateStateEnabled body.state body.enabled = .ok () := by
  have ha : Accepted (requested body []) := Accepted.of_validate (validate_requested h (by decide))
  simp only [FlagCreate.validate, FlagCreate.construct, bind_eq_ok] at h
  obtain ⟨_, -, _, -, _, -, _, -, _, -, _, -, _, -, _, -, _, -, _, -, _, -, _, -, _, -, hstate⟩ := h
  exact ⟨⟨ha.rules_ok, ha.rules_length, ha.fallthrough_ok, ha.weights_ok, ha.keys_ne⟩, hstate⟩

lemma evaluate_accepted (h : body.validate = .ok ()) (salt : Text) (ctx : EvalContext) :
    evaluate body.state (requested body salt) ctx =
      if body.enabled = false then .ok (disabledResult (requested body salt))
      else
        match serve .python (requested body salt) ctx
          (body.rules.find? (ConfigService.matchesRule ctx)) with
        | some r => .ok r
        | none => .error .unicodeEncode := by
  obtain ⟨hacc, hstate⟩ := accepted_requested h salt
  simp only [validateStateEnabled, ensure_eq_ok, beq_iff_eq] at hstate
  have hmatches : matchesRule ctx = fun r => pure (ConfigService.matchesRule ctx r) :=
    funext fun r => matchesRule_eq r ctx
  have hfind : (requested body salt).rules.findM? (matchesRule ctx) =
      (pure (body.rules.find? (ConfigService.matchesRule ctx)) : Py (Option GateRule)) := by
    rw [hmatches]
    exact List.findM?_pure _ _
  unfold evaluate
  rw [hacc.canonical, hfind]
  simp only [hacc.withinLimits]
  by_cases hactive : body.state = .active
  · have hon : body.enabled = true := hstate.trans (decide_eq_true hactive)
    simp only [hactive, ne_eq, not_true, if_false, hon, Bool.true_eq_false]
    change (if (requested body salt).enabled = false then _ else _) = _
    have hon' : (requested body salt).enabled = true := hon
    rw [if_neg (by rw [hon']; decide)]
    rfl
  · have hoff : body.enabled = false := hstate.trans (decide_eq_false hactive)
    rw [if_pos hoff]
    simp only [ne_eq, hactive, not_false_eq_true, if_true]
    rfl

/-- **When an evaluation returns.** For an accepted flag and any context, the config service returns
a result with a declared variant or the default exactly when the flag is off or what is hashed can
be encoded. -/
theorem evaluate_returns_iff {body : FlagCreate} (h : body.validate = .ok ()) (salt : Text)
    (ctx : EvalContext) :
    (∃ r, evaluate body.state (requested body salt) ctx = .ok r ∧
      (r.variant = none → r.reason = .invalidConfig) ∧
      ∀ v ∈ r.variant, v ∈ body.variants.map VariantConfig.key ∨ v = body.defaultVariant) ↔
      (body.enabled = true → Hashable (requested body salt) ctx) := by
  rw [evaluate_accepted h, ← serve_isSome_iff]
  cases body.enabled with
  | false =>
    rw [if_pos rfl]
    refine iff_of_true ⟨_, rfl, fun hv => ?_, fun v hv => ?_⟩ fun henabled => ?_
    · cases hv
    · exact .inr (Option.some.inj hv).symm
    · cases henabled
  | true =>
    rw [if_neg (by decide)]
    refine Iff.trans ?_ (forall_prop_of_true rfl).symm
    constructor
    · rintro ⟨r, hr, -⟩
      split at hr
      · exact ⟨_, ‹_›⟩
      · cases hr
    · rintro ⟨r, hr⟩
      obtain ⟨v, hv, hmem⟩ := variant_of_serve hr
      change serve .python (requested body salt) ctx
        (body.rules.find? (ConfigService.matchesRule ctx)) = some r at hr
      refine ⟨r, by rw [hr], fun hnone => ?_, fun w hw => ?_⟩
      · rw [hv] at hnone
        cases hnone
      · rw [hv] at hw
        cases hw
        exact hmem

/-- A flag that buckets by an attribute. -/
def accountBody : FlagCreate :=
  { plainBody (Text.ofString "checkout") with
    state := .active, enabled := true, rules := [],
    fallthrough := ⟨⟨100, Text.ofString "account"⟩⟩ }

def accountContext (account : Text) : EvalContext :=
  ⟨some (Text.ofString "ada"), some [], [(Text.ofString "account", .str account)]⟩

/-- The evaluation of a flag that buckets by an account with a plain name. -/
theorem evaluate_returns_iff_acme :
    ∃ r, evaluate .active (requested accountBody sampleSalt)
        (accountContext (Text.ofString "acme")) = .ok r ∧
      (r.variant = none → r.reason = .invalidConfig) ∧
      ∀ v ∈ r.variant, v ∈ accountBody.variants.map VariantConfig.key ∨
        v = accountBody.defaultVariant :=
  (evaluate_returns_iff (by decide +kernel : accountBody.validate = .ok ()) sampleSalt
    (accountContext (Text.ofString "acme"))).2
    fun _ => .inr ⟨by decide +kernel, by decide +kernel, by decide +kernel⟩

/-- With an account that is half of a surrogate pair, which `EvalContext` admits, it raises. -/
theorem evaluate_raises_on_surrogate :
    accountBody.validate = .ok () ∧ isToken sampleSalt = true ∧
      validateContext (accountContext [0xD800]) = true ∧
      evaluate .active (requested accountBody sampleSalt) (accountContext [0xD800]) =
        .error .unicodeEncode := by
  refine ⟨by decide +kernel, by decide +kernel, by decide +kernel, by decide +kernel⟩

end Apdl.Config.Evaluation
