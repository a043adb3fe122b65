import Apdl.Config.Schemas

set_option autoImplicit false

/-!
# The backing flag of an experiment

`flags/experiment_flag.py` maps an experiment to the fields of the feature flag it is measured
through; `_derived_experiment_flag` recomputes that flag on every experiment update and validates
it before it is written.

## Main results

* `derivedExperimentFlag_ok_iff` — for an accepted experiment the derivation succeeds exactly
  when no targeting condition is `exists` or `not_exists`: the projection is serialized with the
  unset `value` of such a condition as an explicit null, which the rule validator rejects.
-/

namespace Apdl.Config

open Flags Check

/-! ## Rows -/

/-- A row of `flags`, its JSON columns as documents. -/
structure Flag where
  key : Text
  projectId : Text
  name : Text
  state : FlagState
  owners : List Text
  reviewBy : Option ℤ
  enabled : Bool
  description : Text
  defaultVariant : Text
  variants : List VariantConfig
  rules : List GateRule
  fallthrough : FallthroughConfig
  salt : Text
  evaluationMode : EvaluationMode
  autoDisable : Bool
  guardrails : List GuardrailConfig
  disabledReason : Text
  disabledBy : Text
  disabledAt : Option Time
  version : ℕ
  archivedAt : Option Time
  deriving DecidableEq

/-- A row of `experiments`, its JSON columns as documents; `primary_metric_json` is `none` for
the empty object. -/
structure Experiment where
  key : Text
  projectId : Text
  status : ExperimentStatus
  description : Text
  flagKey : Text
  bucketBy : ExperimentBucketBy
  defaultVariant : Text
  variants : List ExperimentVariant
  targetingRules : List ExperimentTargetingRule
  primaryMetric : Option ExperimentMetric
  statisticalPlan : Option ExperimentStatisticalPlan
  trafficPercentage : ℚ
  minimumExposureConfigVersion : Option ℕ
  startDate : Option Time
  endDate : Option Time
  version : ℕ
  archivedAt : Option Time
  archivedBy : Option Text
  deriving DecidableEq

/-- `{**experiment, "status": status}`. -/
def Experiment.setStatus (e : Experiment) (status : ExperimentStatus) : Experiment :=
  { e with status := status }

/-- `validate_flag_variant_config` of a flag row. -/
def Flag.validateVariantConfig (f : Flag) : Except SchemaError Unit :=
  validateFlagVariantConfig f.defaultVariant f.variants f.rules f.fallthrough

/-! ## The projection -/

/-- Python's `a or b` on strings. -/
def textOr (a b : Text) : Text := if a = [] then b else a

@[simp] lemma textOr_textOr (a b : Text) : textOr (textOr a b) b = textOr a b := by
  unfold textOr
  by_cases ha : a = [] <;> by_cases hb : b = [] <;> simp [ha, hb]

def statusToFlagState : ExperimentStatus → FlagState × Bool
  | .draft => (.draft, false)
  | .scheduled => (.draft, false)
  | .running => (.active, true)
  | .completed => (.disabled, false)
  | .stopped => (.disabled, false)

/-- The keyword arguments shared by the functions of `experiment_flag.py`. -/
structure ProjectionArgs where
  flagKey : Text
  name : Text
  description : Text
  status : ExperimentStatus
  variants : List VariantConfig
  defaultVariant : Text
  trafficPercentage : ℚ
  targetingRules : List ExperimentTargetingRule
  bucketBy : ExperimentBucketBy

/-- The gate rule of a targeting rule: the same conditions under the global rollout. -/
def projectRule (trafficPercentage : ℚ) (bucketBy : ExperimentBucketBy)
    (rule : ExperimentTargetingRule) : GateRule :=
  { id := rule.id, name := rule.name, conditions := rule.conditions,
    rollout := ⟨trafficPercentage, bucketBy.text⟩ }

/-- `_flag_fields`, as the arguments of `FlagCreate`. -/
def flagFields (a : ProjectionArgs) : FlagCreate :=
  { key := a.flagKey
    name := textOr a.name a.flagKey
    state := (statusToFlagState a.status).1
    owners := []
    reviewBy := none
    enabled := (statusToFlagState a.status).2
    description := a.description
    defaultVariant := a.defaultVariant
    variants := a.variants
    rules := a.targetingRules.map (projectRule a.trafficPercentage a.bucketBy)
    fallthrough :=
      ⟨⟨if a.targetingRules = [] then a.trafficPercentage else 0, a.bucketBy.text⟩⟩
    evaluationMode := .client
    autoDisable := false
    guardrails := [] }

/-- `FlagCreate(key=flag_key, **_flag_fields(…))`: the models it builds check their fields. -/
def buildFlagCreate (a : ProjectionArgs) : Except SchemaError FlagCreate := do
  Check.all (fun r => do RolloutConfig.validate r.rollout; GateRule.validateFields r)
    (flagFields a).rules
  (flagFields a).fallthrough.validate
  (flagFields a).construct
  pure (flagFields a)

/-- The lifecycle-owned fields `build_flag_projection` returns. -/
structure FlagProjection where
  name : Text
  state : FlagState
  enabled : Bool
  description : Text
  defaultVariant : Text
  variants : List VariantConfig
  rules : List GateRule
  fallthrough : FallthroughConfig
  evaluationMode : EvaluationMode
  autoDisable : Bool
  deriving DecidableEq

/-- `model_dump(mode="json", exclude={"key", "owners", "review_by", "guardrails"})`. -/
def FlagCreate.dumpProjection (f : FlagCreate) : FlagProjection :=
  { name := f.name, state := f.state, enabled := f.enabled, description := f.description,
    defaultVariant := f.defaultVariant, variants := f.variants,
    rules := f.rules.map GateRule.dumpJson, fallthrough := f.fallthrough,
    evaluationMode := f.evaluationMode, autoDisable := f.autoDisable }

def buildFlagProjection (a : ProjectionArgs) : Except SchemaError FlagProjection := do
  let f ← buildFlagCreate a
  pure f.dumpProjection

/-- `{**backing, **updates}`. -/
def Flag.withProjection (backing : Flag) (p : FlagProjection) : Flag :=
  { backing with
    name := p.name, state := p.state, enabled := p.enabled, description := p.description,
    defaultVariant := p.defaultVariant, variants := p.variants, rules := p.rules,
    fallthrough := p.fallthrough, evaluationMode := p.evaluationMode,
    autoDisable := p.autoDisable }

/-- The arguments `_derived_experiment_flag` calls the projection with. -/
def Experiment.projectionArgs (e : Experiment) (backing : Flag) : ProjectionArgs :=
  { flagKey := backing.key
    name := textOr backing.name backing.key
    description := e.description
    status := e.status
    variants := e.variants.map ExperimentVariant.project
    defaultVariant := e.defaultVariant
    trafficPercentage := e.trafficPercentage
    targetingRules := e.targetingRules
    bucketBy := e.bucketBy }

def derivedExperimentFlag (e : Experiment) (backing : Flag) : Except SchemaError Flag := do
  Check.all VariantConfig.validate (e.variants.map ExperimentVariant.project)
  Check.all ExperimentTargetingRule.validate e.targetingRules
  let updates ← buildFlagProjection (e.projectionArgs backing)
  (backing.withProjection updates).validateVariantConfig
  pure (backing.withProjection updates)

/-! ## The rows a creation writes -/

namespace ExperimentCreate

/-- `body.flag_key or body.key`. -/
def backingKey (e : ExperimentCreate) : Text := e.flagKey.getD e.key

/-- The experiment of `create_experiment`, as `_insert_experiment` stores it. -/
def experimentRow (e : ExperimentCreate) (projectId : Text) : Experiment :=
  { key := e.key, projectId := projectId, status := e.status, description := e.description,
    flagKey := e.backingKey, bucketBy := e.bucketBy, defaultVariant := e.defaultVariant,
    variants := e.variants,
    targetingRules := e.targetingRules.map ExperimentTargetingRule.dumpExcludeNone,
    primaryMetric := e.primaryMetric, statisticalPlan := e.statisticalPlan,
    trafficPercentage := e.trafficPercentage,
    -- the backing flag is created with version 1
    minimumExposureConfigVersion := if e.status = .draft then none else some 1,
    startDate := e.startDate, endDate := e.endDate, version := 1, archivedAt := none,
    archivedBy := none }

/-- The arguments `create_experiment` calls `build_flag_create` with. -/
def projectionArgs (e : ExperimentCreate) : ProjectionArgs :=
  { flagKey := e.backingKey, name := e.key, description := e.description, status := e.status,
    variants := e.variants.map ExperimentVariant.project, defaultVariant := e.defaultVariant,
    trafficPercentage := e.trafficPercentage, targetingRules := e.targetingRules,
    bucketBy := e.bucketBy }

end ExperimentCreate

/-- The row `_insert_flag` writes for the body `f.model_dump(mode="json", exclude_none=True)`. -/
def FlagCreate.flagRow (f : FlagCreate) (projectId salt : Text) : Flag :=
  { key := f.key, projectId := projectId, name := f.name, state := f.state, owners := f.owners,
    reviewBy := f.reviewBy, enabled := f.enabled, description := f.description,
    defaultVariant := f.defaultVariant, variants := f.variants,
    rules := f.rules.map GateRule.dumpExcludeNone, fallthrough := f.fallthrough, salt := salt,
    evaluationMode := f.evaluationMode, autoDisable := f.autoDisable, guardrails := f.guardrails,
    disabledReason := [], disabledBy := [], disabledAt := none, version := 1, archivedAt := none }

/-! ## Conditions through a round trip -/

namespace GateCondition

variable {c : GateCondition}

lemma validate_eq_ok :
    c.validate = .ok () ↔ boundedLength 1 maxIdentifierLength c.attr = true ∧
      ((c.operator.isPresence = true ∧ c.value = none) ∨
        (c.operator.isPresence = false ∧
          ∃ v, c.value = some v ∧ isConditionValueValid Text.length c.operator v = true)) := by
  simp only [validate, checkIdentifier, bind_eq_ok, ensure_eq_ok, exists_and_left, exists_const]
  refine and_congr_right fun _ => ?_
  unfold validateValue
  cases hp : c.operator.isPresence with
  | true => simp
  | false => cases hv : c.value <;> simp

lemma value_ne_null (h : c.validate = .ok ()) : c.value ≠ some .null := by
  rcases (validate_eq_ok.1 h).2 with ⟨-, hv⟩ | ⟨-, v, hv, hvalid⟩
  · simp [hv]
  · rintro hnull
    rw [hv] at hnull
    cases hnull
    simp [isConditionValueValid_null] at hvalid

lemma dumpExcludeNone_eq (h : c.validate = .ok ()) :
    c.dumpExcludeNone = c := by
  simp [dumpExcludeNone, value_ne_null h]

lemma dumpJson_eq_iff (h : c.validate = .ok ()) :
    c.dumpJson = c ↔ c.operator.isPresence = false := by
  obtain ⟨attr, op, value⟩ := c
  rcases (validate_eq_ok.1 h).2 with ⟨hp, hv⟩ | ⟨hp, v, hv, -⟩
  · simp only at hp hv
    simp [dumpJson, hp, hv]
  · simp only at hp hv
    simp [dumpJson, hp, hv]

lemma validate_dumpJson (h : c.validate = .ok ()) :
    c.dumpJson.validate = .ok () ↔ c.operator.isPresence = false := by
  constructor
  · intro h'
    rcases (validate_eq_ok.1 h').2 with ⟨-, hv⟩ | ⟨hp, -⟩
    · simp [dumpJson] at hv
    · exact hp
  · intro hp
    rw [(dumpJson_eq_iff h).2 hp]
    exact h

end GateCondition

lemma ExperimentTargetingRule.dumpExcludeNone_eq {r : ExperimentTargetingRule}
    (h : Check.all GateCondition.validate r.conditions = .ok ()) : r.dumpExcludeNone = r := by
  have hall := Check.all_eq_ok.1 h
  have hmap : r.conditions.map GateCondition.dumpExcludeNone = r.conditions := by
    conv_rhs => rw [← List.map_id r.conditions]
    exact List.map_congr_left fun c hc => GateCondition.dumpExcludeNone_eq (hall c hc)
  simp [dumpExcludeNone, hmap]

lemma GateRule.hasPresence_eq_false {r : GateRule} :
    r.hasPresence = false ↔ ∀ c ∈ r.conditions, c.operator.isPresence = false := by
  simp [hasPresence]

lemma ExperimentTargetingRule.hasPresence_eq_false {r : ExperimentTargetingRule} :
    r.hasPresence = false ↔ ∀ c ∈ r.conditions, c.operator.isPresence = false := by
  simp [hasPresence]

lemma GateRule.validate_dumpJson {r : GateRule} (h : r.validate = .ok ()) :
    r.dumpJson.validate = .ok () ↔ r.hasPresence = false := by
  rw [GateRule.hasPresence_eq_false]
  simp only [validate, bind_eq_ok, Check.all_eq_ok] at h ⊢
  obtain ⟨_, hf, _, hc, hr⟩ := h
  constructor
  · rintro ⟨-, -, -, hdump, -⟩ c hmem
    exact (GateCondition.validate_dumpJson (hc c hmem)).1
      (hdump c.dumpJson (List.mem_map_of_mem hmem))
  · intro hnp
    refine ⟨(), ?_, (), ?_, hr⟩
    · simpa [validateFields, dumpJson] using hf
    · intro c hmem
      obtain ⟨c', hc', rfl⟩ := List.mem_map.1 hmem
      exact (GateCondition.validate_dumpJson (hc c' hc')).2 (hnp c' hc')

/-! ## When the derivation succeeds -/

lemma ExperimentBucketBy.text_bounded (b : ExperimentBucketBy) :
    boundedLength 1 maxIdentifierLength b.text = true := by
  cases b <;> decide +kernel

lemma isResourceKey_bounded {t : Text} (h : isResourceKey t = true) :
    boundedLength 1 maxIdentifierLength t = true := by
  cases t with
  | nil => simp [isResourceKey] at h
  | cons u rest =>
    simp only [isResourceKey, Bool.and_eq_true, decide_eq_true_eq] at h
    have hle := Text.length_le_unitLength (u :: rest)
    have hpos : (Text.length (u :: rest)) ≠ 0 := by
      rw [Ne, Text.length_eq_zero]
      simp
    simp only [Text.unitLength, List.length_cons] at hle
    simp only [boundedLength, Bool.and_eq_true, decide_eq_true_eq]
    unfold maxIdentifierLength
    omega

/-- The parts of an experiment that the derivation reads are as `ExperimentCreate` accepts them. -/
structure Projectable (variants : List ExperimentVariant) (defaultVariant : Text)
    (trafficPercentage : ℚ) (rules : List ExperimentTargetingRule) : Prop where
  variants_ok : ∀ v ∈ variants, v.validate = .ok ()
  variants_length : 1 ≤ variants.length ∧ variants.length ≤ maxVariants
  default_ok : boundedLength 1 maxIdentifierLength defaultVariant = true
  validVariants : validateVariants (variants.map ExperimentVariant.project) defaultVariant = .ok ()
  traffic : 0 ≤ trafficPercentage ∧ trafficPercentage ≤ 100
  rules_length : rules.length ≤ maxRules
  rules_ok : ∀ r ∈ rules, r.validate = .ok ()

variable {sampleSize : SampleSize} {now : Time} {e : ExperimentCreate}

lemma ExperimentCreate.projectable (h : e.validate sampleSize now = .ok ()) :
    Projectable e.variants e.defaultVariant e.trafficPercentage e.targetingRules ∧
      isResourceKey e.key = true ∧ e.flagKey.all isResourceKey = true := by
  simp only [validate, bind_eq_ok, ensure_eq_ok, Check.all_eq_ok, checkIdentifier,
    Bool.and_eq_true, decide_eq_true_eq] at h
  obtain ⟨_, hkey, _, hflag, _, _, _, htraffic, _, hlen, _, hvs, _, hdef, _, _, _, _, _, hrl, _,
    hrs, _, hvv, _⟩ := h
  refine ⟨⟨hvs, ⟨by omega, hlen.2⟩, hdef, hvv, htraffic, hrl, hrs⟩, hkey, hflag⟩

lemma ExperimentCreate.backingKey_bounded (h : e.validate sampleSize now = .ok ()) :
    boundedLength 1 maxIdentifierLength e.backingKey = true := by
  obtain ⟨-, hkey, hflag⟩ := projectable h
  unfold backingKey
  cases hf : e.flagKey with
  | none => exact isResourceKey_bounded hkey
  | some k =>
    rw [hf] at hflag
    exact isResourceKey_bounded hflag

namespace Projectable

variable {variants : List ExperimentVariant} {defaultVariant : Text} {traffic : ℚ}
  {rules : List ExperimentTargetingRule}

lemma variantConfigs_ok (h : Projectable variants defaultVariant traffic rules) :
    ∀ v ∈ variants.map ExperimentVariant.project, v.validate = .ok () := by
  intro v hv
  obtain ⟨w, hw, rfl⟩ := List.mem_map.1 hv
  have := h.variants_ok w hw
  simp only [ExperimentVariant.validate, bind_eq_ok, ensure_eq_ok, checkIdentifier,
    Bool.and_eq_true, decide_eq_true_eq] at this
  obtain ⟨_, hkey, hpos, hmax⟩ := this
  simp only [VariantConfig.validate, bind_eq_ok, ensure_eq_ok, checkIdentifier,
    Bool.and_eq_true, decide_eq_true_eq]
  exact ⟨(), hkey, Int.le_of_lt hpos, hmax⟩

lemma rollout_ok (b : ExperimentBucketBy) {p : ℚ} (h0 : 0 ≤ p) (h1 : p ≤ 100) :
    RolloutConfig.validate ⟨p, b.text⟩ = .ok () := by
  simp [RolloutConfig.validate, checkIdentifier, h0, h1, b.text_bounded]

lemma projectRule_ok (h : Projectable variants defaultVariant traffic rules)
    (b : ExperimentBucketBy) : ∀ r ∈ rules, (projectRule traffic b r).validate = .ok () := by
  intro r hr
  have hok := h.rules_ok r hr
  simp only [ExperimentTargetingRule.validate, bind_eq_ok] at hok
  obtain ⟨_, hid, _, hname, _, hlen, hconds⟩ := hok
  simp only [GateRule.validate, GateRule.validateFields, bind_eq_ok, projectRule]
  exact ⟨(), ⟨(), hid, (), hname, hlen⟩, (), hconds, rollout_ok b h.traffic.1 h.traffic.2⟩

lemma fallthrough_ok (h : Projectable variants defaultVariant traffic rules)
    (b : ExperimentBucketBy) :
    RolloutConfig.validate ⟨if rules = [] then traffic else 0, b.text⟩ = .ok () := by
  split
  · exact rollout_ok b h.traffic.1 h.traffic.2
  · exact rollout_ok b (by decide) (by decide)

end Projectable

lemma statusToFlagState_consistent (s : ExperimentStatus) :
    (statusToFlagState s).1 ≠ .archived ∧
      (statusToFlagState s).2 = decide ((statusToFlagState s).1 = .active) := by
  cases s <;> decide

lemma buildFlagCreate_eq {a : ProjectionArgs} {variants : List ExperimentVariant}
    (h : Projectable variants a.defaultVariant a.trafficPercentage a.targetingRules)
    (hv : a.variants = variants.map ExperimentVariant.project)
    (hkey : boundedLength 1 maxIdentifierLength a.flagKey = true) :
    buildFlagCreate a = .ok (flagFields a) := by
  have hname : 1 ≤ (flagFields a).name.length := by
    simp only [boundedLength, Bool.and_eq_true, decide_eq_true_eq] at hkey
    change 1 ≤ (textOr a.name a.flagKey).length
    by_cases hn : a.name = []
    · simpa [textOr, hn] using hkey.1
    · have : a.name.length ≠ 0 := fun h0 => hn (Text.length_eq_zero.1 h0)
      simp only [textOr, hn, if_false]
      omega
  have hrules : Check.all (fun r => do RolloutConfig.validate r.rollout; GateRule.validateFields r)
      (flagFields a).rules = .ok () := by
    rw [Check.all_eq_ok]
    intro r hr
    obtain ⟨t, ht, rfl⟩ := List.mem_map.1 hr
    have hok := h.projectRule_ok a.bucketBy t ht
    simp only [GateRule.validate, bind_eq_ok] at hok ⊢
    obtain ⟨u, hf, _, -, hr⟩ := hok
    exact ⟨(), hr, hf⟩
  have hstate := statusToFlagState_consistent a.status
  have hconstruct : (flagFields a).construct = .ok () := by
    simp only [FlagCreate.construct, bind_eq_ok, ensure_eq_ok, checkIdentifier, Bool.and_eq_true,
      decide_eq_true_eq, validateOwners, validateStateEnabled]
    refine ⟨(), h.default_ok, (), ?_, (), hkey, (), hname, (), hstate.1, (), ?_, (), rfl, (), ?_,
      (), rfl, ?_⟩
    · simpa [flagFields, hv] using h.variants_length
    · simpa [flagFields] using h.rules_length
    · simpa [flagFields, hv] using h.validVariants
    · simp [flagFields, hstate.2]
  simp only [buildFlagCreate, bind_eq_ok, pure_eq_ok, and_true]
  exact ⟨(), hrules, (), h.fallthrough_ok a.bucketBy, (), hconstruct⟩

lemma validateVariantConfig_iff {a : ProjectionArgs} {variants : List ExperimentVariant}
    (h : Projectable variants a.defaultVariant a.trafficPercentage a.targetingRules)
    (hv : a.variants = variants.map ExperimentVariant.project) (backing : Flag) :
    (backing.withProjection (flagFields a).dumpProjection).validateVariantConfig = .ok () ↔
      ∀ r ∈ a.targetingRules, r.hasPresence = false := by
  have hdef : a.defaultVariant ≠ [] := by
    intro hnil
    have := h.default_ok
    rw [hnil] at this
    exact absurd this (by decide)
  have hrules : Check.all GateRule.validate ((flagFields a).rules.map GateRule.dumpJson) = .ok () ↔
      ∀ r ∈ a.targetingRules, r.hasPresence = false := by
    rw [Check.all_eq_ok]
    constructor
    · intro hall r hr
      have hmem : projectRule a.trafficPercentage a.bucketBy r ∈ (flagFields a).rules :=
        List.mem_map_of_mem hr
      exact (GateRule.validate_dumpJson (h.projectRule_ok a.bucketBy r hr)).1
        (hall _ (List.mem_map_of_mem hmem))
    · intro hnp r hr
      obtain ⟨r', hr', rfl⟩ := List.mem_map.1 hr
      obtain ⟨t, ht, rfl⟩ := List.mem_map.1 hr'
      exact (GateRule.validate_dumpJson (h.projectRule_ok a.bucketBy t ht)).2 (hnp t ht)
  rw [← hrules]
  simp only [Flag.validateVariantConfig, validateFlagVariantConfig, bind_eq_ok, ensure_eq_ok,
    Flag.withProjection, FlagCreate.dumpProjection]
  constructor
  · rintro ⟨_, _, _, _, _, _, _, _, u, hr, _⟩
    exact hr
  · intro hr
    refine ⟨(), decide_eq_true hdef, (), ?_, (), ?_, (), ?_, (), hr, h.fallthrough_ok a.bucketBy⟩
    · rw [Check.all_eq_ok]
      simpa [flagFields, hv] using h.variantConfigs_ok
    · simpa [flagFields, hv] using h.validVariants
    · simpa [flagFields] using h.rules_length

lemma derivedExperimentFlag_eq_ok {e : Experiment} {backing f : Flag}
    (h : Projectable e.variants e.defaultVariant e.trafficPercentage e.targetingRules)
    (hkey : boundedLength 1 maxIdentifierLength backing.key = true) :
    derivedExperimentFlag e backing = .ok f ↔
      (∀ r ∈ e.targetingRules, r.hasPresence = false) ∧
        f = backing.withProjection (flagFields (e.projectionArgs backing)).dumpProjection := by
  have hbuild := buildFlagCreate_eq (a := e.projectionArgs backing) h rfl hkey
  have hvs := Check.all_eq_ok (u := ()).2 h.variantConfigs_ok
  have hrs := Check.all_eq_ok (u := ()).2 h.rules_ok
  have hvalid := validateVariantConfig_iff (a := e.projectionArgs backing) h rfl backing
  simp only [derivedExperimentFlag, buildFlagProjection, bind_eq_ok, hbuild, hvs, hrs, pure_eq_ok,
    Except.ok.injEq]
  constructor
  · rintro ⟨_, _, _, _, p, ⟨fc, rfl, rfl⟩, u, hval, rfl⟩
    exact ⟨hvalid.1 hval, rfl⟩
  · rintro ⟨hnp, rfl⟩
    exact ⟨(), trivial, (), trivial, _, ⟨_, rfl, rfl⟩, (), hvalid.2 hnp, rfl⟩

/-! ## Lifecycle transitions of an accepted experiment -/

def allowedStatusTransitions : ExperimentStatus → List ExperimentStatus
  | .draft => [.draft, .scheduled, .running, .stopped]
  | .scheduled => [.scheduled, .running, .stopped]
  | .running => [.running, .completed, .stopped]
  | .completed => [.completed]
  | .stopped => [.stopped]

lemma ExperimentCreate.experimentRow_rules (h : e.validate sampleSize now = .ok ()) (projectId : Text) :
    (e.experimentRow projectId).targetingRules = e.targetingRules := by
  obtain ⟨hp, -⟩ := projectable h
  have hmap : e.targetingRules.map ExperimentTargetingRule.dumpExcludeNone =
      e.targetingRules.map id := by
    refine List.map_congr_left fun r hr => ?_
    have hok := hp.rules_ok r hr
    simp only [ExperimentTargetingRule.validate, bind_eq_ok] at hok
    obtain ⟨_, _, _, _, _, _, hc⟩ := hok
    exact ExperimentTargetingRule.dumpExcludeNone_eq hc
  simpa [experimentRow] using hmap

/-- **When the projection of an accepted experiment succeeds.** For every creation request that
`ExperimentCreate` accepts, every backing flag under its key and every allowed lifecycle
transition, the flag derived for the transition passes the validation it is put through, if and
only if no targeting rule has an `exists` or `not_exists` condition.

**Proof sketch.** Every field of the projection is within the bounds of the flag models because
the experiment's own models are at least as strict (`Projectable`). A value-taking condition has a
non-null value and is serialized unchanged; a presence condition is serialized with an explicit
null and is then rejected (`GateCondition.validate_dumpJson`). -/
theorem derivedExperimentFlag_ok_iff {sampleSize : SampleSize} {now : Time} {e : ExperimentCreate}
    (h : e.validate sampleSize now = .ok ()) (projectId : Text) {backing : Flag}
    (hkey : backing.key = e.backingKey) :
    (∀ source target, target ∈ allowedStatusTransitions source →
      ∃ f, derivedExperimentFlag ((e.experimentRow projectId).setStatus target) backing = .ok f ∧
        f.validateVariantConfig = .ok ()) ↔
    ∀ r ∈ e.targetingRules, r.hasPresence = false := by
  have hrules : ∀ target, ((e.experimentRow projectId).setStatus target).targetingRules =
      e.targetingRules := fun _ => e.experimentRow_rules h projectId
  have hproj : ∀ target, Projectable ((e.experimentRow projectId).setStatus target).variants
      ((e.experimentRow projectId).setStatus target).defaultVariant
      ((e.experimentRow projectId).setStatus target).trafficPercentage
      ((e.experimentRow projectId).setStatus target).targetingRules := by
    intro target
    rw [hrules]
    exact (e.projectable h).1
  have hbound : boundedLength 1 maxIdentifierLength backing.key = true :=
    hkey ▸ e.backingKey_bounded h
  constructor
  · intro hall
    obtain ⟨f, hf, -⟩ := hall .draft .draft (by decide)
    have hnp := ((derivedExperimentFlag_eq_ok (hproj .draft) hbound).1 hf).1
    rwa [hrules] at hnp
  · intro hnp source target _
    have hnp' : ∀ r ∈ ((e.experimentRow projectId).setStatus target).targetingRules,
        r.hasPresence = false := by
      rwa [hrules]
    refine ⟨_, (derivedExperimentFlag_eq_ok (hproj target) hbound).2 ⟨hnp', rfl⟩, ?_⟩
    exact (validateVariantConfig_iff
      (a := ((e.experimentRow projectId).setStatus target).projectionArgs backing)
      (hproj target) rfl backing).2 hnp'

/-- A draft with two variants and one targeting rule. -/
def sampleExperiment (conditions : List GateCondition) : ExperimentCreate :=
  { key := Text.ofString "exp", flagKey := none, bucketBy := .userId, status := .draft,
    description := [], trafficPercentage := 50, startDate := none, endDate := none,
    variants := [⟨Text.ofString "control", 1, []⟩, ⟨Text.ofString "treatment", 1, []⟩],
    defaultVariant := Text.ofString "control", primaryMetric := none, statisticalPlan := none,
    targetingRules := [⟨Text.ofString "r1", [], conditions⟩] }

def sampleFlag (conditions : List GateCondition) : Flag :=
  (flagFields (sampleExperiment conditions).projectionArgs).flagRow
    (Text.ofString "p") (Text.ofString "salt")

/-- An `equals` condition on the plan. -/
def planIsPro : GateCondition := ⟨Text.ofString "plan", .equals, some (.str (Text.ofString "pro"))⟩

/-- An `exists` condition on the plan. -/
def planExists : GateCondition := ⟨Text.ofString "plan", .exists, none⟩

/-- An experiment targeted by value goes through every transition. -/
theorem derivedExperimentFlag_ok_iff_planIsPro :
    (sampleExperiment [planIsPro]).validate (fun _ _ _ => .ok 2) 0 = .ok () ∧
    ∀ source target, target ∈ allowedStatusTransitions source →
      ∃ f, derivedExperimentFlag
        (((sampleExperiment [planIsPro]).experimentRow (Text.ofString "p")).setStatus target)
        (sampleFlag [planIsPro]) = .ok f ∧ f.validateVariantConfig = .ok () := by
  have hok : (sampleExperiment [planIsPro]).validate (fun _ _ _ => .ok 2) 0 = .ok () := by
    decide +kernel
  exact ⟨hok, (derivedExperimentFlag_ok_iff hok _ rfl).2 (by decide +kernel)⟩

/-- An accepted draft with an `exists` condition cannot even be abandoned: the flag derived for the
transition fails its own validation. -/
theorem presence_condition_blocks_transition :
    (sampleExperiment [planExists]).validate (fun _ _ _ => .ok 2) 0 = .ok () ∧
    .stopped ∈ allowedStatusTransitions (sampleExperiment [planExists]).status ∧
    derivedExperimentFlag
      (((sampleExperiment [planExists]).experimentRow (Text.ofString "p")).setStatus .stopped)
      (sampleFlag [planExists]) =
        .error (.value "exists conditions must not include value") := by
  refine ⟨by decide +kernel, by decide, by decide +kernel⟩

end Apdl.Config
