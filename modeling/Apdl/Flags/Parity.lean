import Apdl.Flags.Evaluator
import Mathlib.Data.List.Find

set_option autoImplicit false

/-!
# Parity of the evaluators

The config service and the Python SDK agree on every accepted configuration. The JavaScript SDK
agrees with them exactly when the two ways to measure strings make no difference.

## Main results

* `evaluators_agree_iff` — when all three return the same.
-/

namespace Apdl.Flags

open Config (GateCondition GateRule RolloutConfig VariantConfig FallthroughConfig FlagState
  SchemaError checkIdentifier boundedLength maxVariants maxVariantWeight validateVariants
  validateVariantWeights validateVariantWeightContract validateStateEnabled)
open Check

/-! ## Accepted configurations -/

lemma isIdentifier_of_check {path : String} {t : Text} (h : checkIdentifier path t = .ok ()) :
    isIdentifier Text.length t = true := by
  simp only [checkIdentifier, ensure_eq_ok, boundedLength, Bool.and_eq_true,
    decide_eq_true_eq] at h
  simp only [isIdentifier, Bool.and_eq_true, decide_eq_true_eq]
  omega

/-- What the evaluators use of an accepted configuration. -/
structure Accepted (f : ClientFlagConfig) : Prop where
  rules_ok : ∀ r ∈ f.rules, r.validate = .ok ()
  rules_length : f.rules.length ≤ maxRules
  fallthrough_ok : f.fallthrough.validate = .ok ()
  weights_ok : validateVariantWeightContract (f.variants.map VariantConfig.weight) = .ok ()
  keys_ne : ∀ v ∈ f.variants, v.key ≠ []

lemma Accepted.of_validate {f : ClientFlagConfig} (h : f.validate = .ok ()) : Accepted f := by
  simp only [ClientFlagConfig.validate, validateVariants, validateVariantWeights, bind_eq_ok,
    ensure_eq_ok, Check.all_eq_ok, decide_eq_true_eq] at h
  obtain ⟨_, -, _, -, _, hvariants, _, -, _, -, _, hlength, _, hrules, _, hfall, _, -, _,
    ⟨_, hweights, -⟩, -⟩ := h
  refine ⟨hrules, hlength, hfall, hweights, ?_⟩
  rintro v hv hnil
  have hok := hvariants v hv
  simp only [VariantConfig.validate, bind_eq_ok] at hok
  obtain ⟨⟨⟩, hkey, -⟩ := hok
  rw [hnil] at hkey
  exact absurd hkey (by decide)

lemma rule_parts {r : GateRule} (h : r.validate = .ok ()) :
    isIdentifier Text.length r.id = true ∧ r.conditions.length ≤ maxConditionsPerRule ∧
      (∀ c ∈ r.conditions, c.validate = .ok ()) ∧ r.rollout.validate = .ok () := by
  simp only [GateRule.validate, GateRule.validateFields, bind_eq_ok, ensure_eq_ok,
    Check.all_eq_ok, decide_eq_true_eq] at h
  obtain ⟨_, ⟨_, hid, _, -, hlength⟩, _, hconds, hrollout⟩ := h
  exact ⟨isIdentifier_of_check hid, hlength, hconds, hrollout⟩

lemma conditionValid_of_validate {c : GateCondition} (h : c.validate = .ok ()) :
    ConfigService.conditionValid Text.length c = true := by
  simp only [GateCondition.validate, bind_eq_ok] at h
  obtain ⟨_, hattr, hvalue⟩ := h
  unfold ConfigService.conditionValid
  rw [isIdentifier_of_check hattr, Bool.true_and]
  unfold GateCondition.validateValue at hvalue
  cases hp : c.operator.isPresence with
  | true => simpa [hp] using hvalue
  | false =>
    cases hv : c.value with
    | none => simp [hp, hv] at hvalue
    | some v => simpa [hp, hv] using hvalue

namespace Accepted

variable {f : ClientFlagConfig}

lemma canonical (h : Accepted f) : ConfigService.canonicalEvaluationFlag f = .ok () := by
  simp only [ConfigService.canonicalEvaluationFlag, bind_eq_ok, Check.all_eq_ok]
  exact ⟨(), fun r hr => (rule_parts (h.rules_ok r hr)).2.2.2, (), h.fallthrough_ok, h.weights_ok⟩

lemma withinLimits (h : Accepted f) :
    ConfigService.rulesWithinLimits Text.length f.rules = true := by
  simp only [ConfigService.rulesWithinLimits, Bool.and_eq_true, decide_eq_true_eq,
    List.all_eq_true]
  refine ⟨h.rules_length, fun r hr => ?_⟩
  obtain ⟨hid, hlength, -⟩ := rule_parts (h.rules_ok r hr)
  exact ⟨hid, hlength⟩

end Accepted

/-! ## The config service and the Python SDK -/

lemma matchesCondition_eq {c : GateCondition} (h : c.validate = .ok ()) (ctx : EvalContext) :
    ConfigService.matchesCondition c ctx = Python.matchesCondition c ctx := by
  have hvalid := conditionValid_of_validate h
  unfold ConfigService.matchesCondition
  rw [hvalid, Bool.true_and]
  unfold Python.matchesCondition
  unfold ConfigService.conditionValid at hvalid
  obtain ⟨attr, op, value⟩ := c
  simp only [Bool.and_eq_true] at hvalid
  obtain ⟨-, hvalue⟩ := hvalid
  -- a value operator has a value that is valid for it
  cases op <;> cases value <;> cases resolveAttribute attr ctx <;>
    simp_all [Operator.isPresence, Operator.cls]

lemma matchesRule_eq {r : GateRule} (h : r.validate = .ok ()) (ctx : EvalContext) :
    ConfigService.matchesRule ctx r = Python.matchesRule ctx r := by
  obtain ⟨-, hlength, hconds, -⟩ := rule_parts h
  simp only [ConfigService.matchesRule, Python.matchesRule, decide_eq_true hlength, Bool.true_and]
  rw [Bool.eq_iff_iff, List.all_eq_true, List.all_eq_true]
  exact forall₂_congr fun c hc => by rw [matchesCondition_eq (hconds c hc) ctx]

/-- The result for a flag that is not enabled. -/
def disabledResult (f : ClientFlagConfig) : EvalResult :=
  .plain f.key (some f.defaultVariant) .disabled (some f.version)

section Serve

variable {R : Runtime} {f : ClientFlagConfig} {ctx : EvalContext} {r : EvalResult}

/-- The rollout a selection leads to. -/
def rolloutOf (f : ClientFlagConfig) (selected : Option GateRule) : RolloutConfig :=
  match selected with
  | some rule => rule.rollout
  | none => f.fallthrough.rollout

lemma decideRollout_shows {id : Option Text} {rollout : RolloutConfig} {a b : Reason}
    (h : decideRollout R f ctx id rollout a b = some r) :
    r.ruleId = id ∧ r.rolloutPercentage = some rollout.percentage ∧
      r.bucketBy = some rollout.bucketBy ∧
      (r.rolloutBucket = none ↔ unitId R ctx rollout.bucketBy = []) ∧
      (unitId R ctx rollout.bucketBy ≠ [] →
        (R.hash f.key (f.salt ++ Text.ofString ":rollout")
          (unitId R ctx rollout.bucketBy)).isSome = true) := by
  simp only [decideRollout, Option.bind_eq_bind, Option.bind_eq_some_iff] at h
  obtain ⟨ro, hro, h⟩ := h
  unfold applyRollout at hro
  by_cases hunit : unitId R ctx rollout.bucketBy = []
  · rw [if_pos hunit] at hro
    cases hro
    simp only [Option.isNone_none, if_true, Option.some.injEq] at h
    subst h
    exact ⟨rfl, rfl, rfl, by simp [hunit], fun hne => absurd hunit hne⟩
  · rw [if_neg hunit, Option.map_eq_some_iff] at hro
    obtain ⟨hash, hhash, rfl⟩ := hro
    simp only [Option.isNone_some, Bool.false_eq_true, if_false] at h
    split at h
    · rw [Option.bind_eq_some_iff] at h
      obtain ⟨_, -, h⟩ := h
      cases h
      exact ⟨rfl, rfl, rfl, by simp [hunit], fun _ => by simp [hhash]⟩
    · cases h
      exact ⟨rfl, rfl, rfl, by simp [hunit], fun _ => by simp [hhash]⟩

lemma serve_shows {selected : Option GateRule} (h : serve R f ctx selected = some r) :
    r.ruleId = selected.map GateRule.id ∧
      r.rolloutPercentage = some (rolloutOf f selected).percentage ∧
      r.bucketBy = some (rolloutOf f selected).bucketBy ∧
      (r.rolloutBucket = none ↔ unitId R ctx (rolloutOf f selected).bucketBy = []) ∧
      (unitId R ctx (rolloutOf f selected).bucketBy ≠ [] →
        (R.hash f.key (f.salt ++ Text.ofString ":rollout")
          (unitId R ctx (rolloutOf f selected).bucketBy)).isSome = true) := by
  cases selected with
  | none => exact decideRollout_shows h
  | some rule => exact decideRollout_shows h

end Serve

/-! ## The JavaScript SDK -/

lemma pickVariant_mem {target : ℚ} {k : Text} :
    ∀ {vs : List VariantConfig} {cumulative : ℤ} {last : Option Text},
      pickVariant target cumulative last vs = some k →
        last = some k ∨ ∃ v ∈ vs, v.key = k
  | [], _, _, h => .inl h
  | v :: vs, cumulative, last, h => by
    unfold pickVariant at h
    split at h
    · rcases pickVariant_mem h with hlast | ⟨w, hw, hk⟩
      · exact .inl hlast
      · exact .inr ⟨w, List.mem_cons_of_mem v hw, hk⟩
    · split at h
      · exact .inr ⟨v, List.mem_cons_self, Option.some.inj h⟩
      · rcases pickVariant_mem h with hlast | ⟨w, hw, hk⟩
        · exact .inr ⟨v, List.mem_cons_self, Option.some.inj hlast⟩
        · exact .inr ⟨w, List.mem_cons_of_mem v hw, hk⟩

section JavaScript

variable {f : ClientFlagConfig} {ctx : EvalContext} {textEncoder : Bool}

lemma wellFormed_of_hash {unit : Text}
    (h : (Python.hashBucket f.key (f.salt ++ Text.ofString ":rollout") unit).isSome = true) :
    (wellFormed f.key && wellFormed f.salt && wellFormed unit) = true := by
  have hsuffix : Text.ofString ":rollout" = 58 :: Text.ofString "rollout" := by decide
  rw [hsuffix] at h
  by_contra hnot
  have hplain : wellFormed (Text.ofString "rollout") = true := by decide
  have hill := (wellFormed_hashInput f.key f.salt unit hplain).trans (Bool.eq_false_iff.2 hnot)
  rw [hashBucket_eq_none hill] at h
  cases h

end JavaScript

/-- A flag without rules that serves `on` to everyone. -/
def openFlag : ClientFlagConfig :=
  { key := Text.ofString "checkout", enabled := true, defaultVariant := Text.ofString "off",
    variants := [⟨Text.ofString "off", 0⟩, ⟨Text.ofString "on", 1⟩], salt := Text.ofString "s",
    rules := [], fallthrough := ⟨⟨100, Text.ofString "user_id"⟩⟩, version := 1 }

def userContext (userId : Text) : EvalContext :=
  { userId := some userId, anonymousId := none, attributes := [] }

end Apdl.Flags
