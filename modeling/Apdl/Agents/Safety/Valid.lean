import Apdl.Agents.Safety.Model
import Apdl.Config.Schemas

set_option autoImplicit false

/-!
# Configs that pass the validation

The checks of a flag config read it field by field. What they leave of it is a list of variants with
different keys and a positive total weight, and rollouts in range; and the numbers that the exposure is
computed from are these.

## Main results

* `percentages_eq` — the percentages that are computed with are those of the config, and in range.
-/

namespace Apdl.Agents.Safety

open Text (ofString)
open PyValue (Fields field hasField)
open Config (VariantConfig)

/-! ## Configs -/

def variantOf : PyValue → Option VariantConfig
  | .dict variant =>
    match field variant "key", field variant "weight" with
    | .str key, .int weight => some ⟨key, weight⟩
    | _, _ => none
  | _ => none

def variantsOf : PyValue → List VariantConfig
  | .list variants => variants.filterMap variantOf
  | _ => []

/-- The default variant of a config. -/
def defaultOf : PyValue → Text
  | .str key => key
  | _ => []

def rolloutOf : PyValue → Option PyFloat
  | .dict rollout => (field rollout "percentage").number
  | _ => none

def ruleRolloutOf : PyValue → Option PyFloat
  | .dict rule => rolloutOf (field rule "rollout")
  | _ => none

def ruleRollouts (config : Fields) : Option (List PyFloat) :=
  match field config "rules" with
  | .list rules => some (rules.filterMap ruleRolloutOf)
  | _ => none

/-- The percentages of the fallthrough and the rules. -/
def rolloutsOf (config : Fields) : List PyFloat :=
  (ruleRolloutOf (field config "fallthrough")).toList ++ (ruleRollouts config).getD []

/-! ## Rollouts that are valid -/

lemma round_small : ∀ n ∈ List.range 101, Double.round (n : ℚ) = some (n : ℚ) := by
  decide +kernel

def InRange (x : PyFloat) : Prop := x.lt (.finite 0) = false ∧ (PyFloat.finite 100).lt x = false

lemma InRange.cases {x : PyFloat} (h : InRange x) :
    x = .nan ∨ ∃ q, x = .finite q ∧ 0 ≤ q ∧ q ≤ 100 := by
  cases x with
  | nan => exact .inl rfl
  | finite q =>
    refine .inr ⟨q, rfl, ?_, ?_⟩
    · simpa [PyFloat.lt] using h.1
    · simpa [PyFloat.lt] using h.2
  | infinity negative => cases negative <;> simp [InRange, PyFloat.lt] at h

variable {experiment : Bool}

lemma rolloutPercentage_eq {rollout : PyValue} {fieldName : String}
    (h : validateRollout rollout fieldName experiment = none) :
    ∃ x, rolloutOf rollout = some x ∧ InRange x ∧ rolloutPercentage rollout = .ok (some x) := by
  cases rollout with
  | dict fields =>
    simp only [validateRollout] at h
    rw [ite_eq_iff] at h
    obtain ⟨-, h⟩ | ⟨-, h⟩ := h
    · cases h
    rw [ite_eq_iff] at h
    obtain ⟨-, h⟩ | ⟨hrange, -⟩ := h
    · cases h
    rw [Bool.not_eq_false, Option.any_eq_true] at hrange
    obtain ⟨x, hx, hin⟩ := hrange
    rw [Bool.and_eq_true, Bool.not_eq_true', Bool.not_eq_true'] at hin
    refine ⟨x, hx, hin, ?_⟩
    unfold rolloutPercentage
    cases hp : field fields "percentage" with
    | int n =>
      rw [hp, PyValue.number, Option.some.injEq] at hx
      subst hx
      obtain hnan | ⟨q, hq, h0, h100⟩ := InRange.cases hin
      · cases hnan
      · obtain rfl := PyFloat.finite.inj hq
        have hnat : ((n.toNat : ℕ) : ℚ) = (n : ℚ) := by
          have hn : (0 : ℤ) ≤ n := by exact_mod_cast h0
          exact_mod_cast Int.toNat_of_nonneg hn
        have hsmall : n.toNat ∈ List.range 101 := by
          have hle : n ≤ 100 := by exact_mod_cast h100
          rw [List.mem_range]
          omega
        have hround := round_small n.toNat hsmall
        rw [hnat] at hround
        simp [hp, hround]
    | float y =>
      rw [hp, PyValue.number, Option.some.injEq] at hx
      subst hx
      simp [hp]
    | none | bool b | str s | list l | dict d => simp [hp, PyValue.number] at hx
  | none | bool b | int n | float y | str s | list l => simp [validateRollout] at h

lemma rulePercentage_eq {rule : PyValue} (h : validateRule experiment rule = none) :
    ∃ fields x, rule = .dict fields ∧ ruleRolloutOf rule = some x ∧ InRange x ∧
      rolloutPercentage (field fields "rollout") = .ok (some x) := by
  cases rule with
  | dict fields =>
    simp only [validateRule] at h
    rw [ite_eq_iff] at h
    obtain ⟨-, h⟩ | ⟨-, h⟩ := h
    · cases h
    obtain ⟨x, hx, hin, hp⟩ := rolloutPercentage_eq h
    exact ⟨fields, x, rfl, hx, hin, hp⟩
  | none | bool b | int n | float y | str s | list l => simp [validateRule] at h

lemma rulePercentages_eq {rules : List PyValue}
    (h : ∀ rule ∈ rules, validateRule experiment rule = none) :
    rulePercentages rules = .ok (some (rules.filterMap ruleRolloutOf)) ∧
      ∀ x ∈ rules.filterMap ruleRolloutOf, InRange x := by
  induction rules with
  | nil => exact ⟨rfl, by simp⟩
  | cons rule rules ih =>
    rw [List.forall_mem_cons] at h
    obtain ⟨fields, x, rfl, hx, hin, hp⟩ := rulePercentage_eq h.1
    obtain ⟨hrest, hall⟩ := ih h.2
    refine ⟨?_, ?_⟩
    · rw [rulePercentages, hp, hrest, List.filterMap_cons_some hx]
      rfl
    · rw [List.filterMap_cons_some hx, List.forall_mem_cons]
      exact ⟨hin, hall⟩

lemma validFallthrough_eq {fallthrough : PyValue}
    (h : validateFallthrough fallthrough experiment = none) :
    ∃ fields x, fallthrough = .dict fields ∧ ruleRolloutOf fallthrough = some x ∧ InRange x ∧
      rolloutPercentage (field fields "rollout") = .ok (some x) := by
  cases fallthrough with
  | dict fields =>
    simp only [validateFallthrough] at h
    rw [ite_eq_iff] at h
    obtain ⟨-, h⟩ | ⟨-, h⟩ := h
    · cases h
    obtain ⟨x, hx, hin, hp⟩ := rolloutPercentage_eq h
    exact ⟨fields, x, rfl, hx, hin, hp⟩
  | none | bool b | int n | float y | str s | list l => simp [validateFallthrough] at h

/-! ## Configs that are valid -/

structure ValidTraffic (config : Fields) (requireComplete experiment : Bool) : Prop where
  default : ∃ defaultVariant,
    validateDefaultVariant (field config "default_variant") requireComplete = .ok defaultVariant ∧
      ((field config "variants").isNone = true ∨
        validateVariants (field config "variants") defaultVariant experiment = none)
  complete : requireComplete = true → (field config "variants").isNone = false
  rules : (field config "rules").isNone = true ∨ validateRules experiment (field config "rules") = none
  fallthrough : (field config "fallthrough").isNone = true ∨
    validateFallthrough (field config "fallthrough") experiment = none

lemma unlessNone_eq_none {value : PyValue} {check : PyValue → Option Text}
    (h : unlessNone value check = none) : value.isNone = true ∨ check value = none := by
  unfold unlessNone at h
  rw [ite_eq_iff] at h
  exact h.imp And.left And.right

lemma validTraffic_of_none {config : Fields} {requireComplete : Bool}
    (h : validateTrafficFields config requireComplete experiment = none) :
    ValidTraffic config requireComplete experiment := by
  unfold validateTrafficFields at h
  dsimp only at h
  rw [ite_eq_iff] at h
  obtain ⟨-, h⟩ | ⟨-, h⟩ := h
  · cases h
  rw [ite_eq_iff] at h
  obtain ⟨-, h⟩ | ⟨-, h⟩ := h
  · cases h
  rw [ite_eq_iff] at h
  obtain ⟨hmissing, h⟩ | ⟨-, h⟩ := h
  · rw [Option.map_eq_none_iff] at h
    simp [h] at hmissing
  cases hdefault : validateDefaultVariant (field config "default_variant") requireComplete with
  | error message => simp [hdefault] at h
  | ok defaultVariant =>
    simp only [hdefault] at h
    rw [ite_eq_iff] at h
    obtain ⟨-, h⟩ | ⟨hcomplete, h⟩ := h
    · cases h
    rw [Option.or_eq_none_iff, Option.or_eq_none_iff] at h
    obtain ⟨hvariants, hrules, hfallthrough⟩ := h
    refine ⟨⟨defaultVariant, hdefault, unlessNone_eq_none hvariants⟩, ?_,
      unlessNone_eq_none hrules, unlessNone_eq_none hfallthrough⟩
    intro hrequired
    rw [hrequired] at hcomplete
    simpa using hcomplete

/-- **The percentages of valid fields** are the ones that are computed with, and in range. -/
lemma percentages_eq {config : Fields} {requireComplete : Bool}
    (h : ValidTraffic config requireComplete experiment) :
    percentages config = .ok (some (rolloutsOf config)) ∧ ∀ x ∈ rolloutsOf config, InRange x := by
  have hfall : ∃ x : Option PyFloat, ruleRolloutOf (field config "fallthrough") = x ∧
      (∀ y ∈ x, InRange y) ∧
      fallthroughPercentage config = .ok x := by
    unfold fallthroughPercentage
    rcases h.fallthrough with hnone | hvalid
    · cases hf : field config "fallthrough" with
      | none => exact ⟨none, rfl, by simp, rfl⟩
      | _ => simp [hf, PyValue.isNone] at hnone
    · obtain ⟨fields, x, hf, hx, hin, hp⟩ := validFallthrough_eq hvalid
      rw [hf] at hx ⊢
      exact ⟨some x, hx, fun y hy => Option.some.inj hy ▸ hin, hp⟩
  have hrules : ∃ xs : List PyFloat, (ruleRollouts config).getD [] = xs ∧ (∀ y ∈ xs, InRange y) ∧
      rulesPercentages config = .ok (some xs) := by
    unfold ruleRollouts rulesPercentages
    rcases h.rules with hnone | hvalid
    · cases hr : field config "rules" with
      | none => exact ⟨[], rfl, by simp, rfl⟩
      | _ => simp [hr, PyValue.isNone] at hnone
    · cases hr : field config "rules" with
      | list rules =>
        rw [hr, validateRules, List.findSome?_eq_none_iff] at hvalid
        obtain ⟨heq, hin⟩ := rulePercentages_eq hvalid
        exact ⟨_, rfl, hin, heq⟩
      | none | bool b | int n | float y | str s | dict d => simp [hr, validateRules] at hvalid
  obtain ⟨x, hx, hxin, hxeq⟩ := hfall
  obtain ⟨xs, hxs, hxsin, hxseq⟩ := hrules
  refine ⟨?_, ?_⟩
  · unfold percentages
    rw [hxeq, hxseq, rolloutsOf, hx, hxs]
    rfl
  · intro y hy
    rw [rolloutsOf, hx, hxs, List.mem_append, Option.mem_toList] at hy
    exact hy.elim (hxin y) (hxsin y)

/-! ## Variants that are valid -/

def weightEntry (v : VariantConfig) : Text × ℤ := (v.key, v.weight)

/-- The sum of the weights of variants. -/
def totalOf (variants : List VariantConfig) : ℤ := (variants.map VariantConfig.weight).sum

lemma totalWeight_weightEntry (variants : List VariantConfig) :
    totalWeight (variants.map weightEntry) = totalOf variants := by
  rw [totalWeight, totalOf, List.map_map]
  rfl

variable {variants : List PyValue}

lemma validateVariantsFrom_ok {keys keys' : List Text} {total total' : ℤ} (hkeys : keys.Nodup)
    (h : validateVariantsFrom experiment keys total variants = .ok (keys', total')) :
    ∃ vs : List VariantConfig, variants.map variantOf = vs.map some ∧
      (∀ v ∈ vs, 0 ≤ v.weight) ∧ (keys ++ vs.map VariantConfig.key).Nodup ∧
      keys' = keys ++ vs.map VariantConfig.key ∧ total' = total + totalOf vs := by
  induction variants generalizing keys total with
  | nil =>
    simp only [validateVariantsFrom, Except.ok.injEq, Prod.mk.injEq] at h
    obtain ⟨rfl, rfl⟩ := h
    exact ⟨[], rfl, by simp, by simpa using hkeys, by simp, by simp [totalOf]⟩
  | cons variant rest ih =>
    cases variant with
    | dict fields =>
      simp only [validateVariantsFrom] at h
      rw [ite_eq_iff] at h
      obtain ⟨-, h⟩ | ⟨-, h⟩ := h
      · cases h
      cases hkey : field fields "key" with
      | str key =>
        simp only [hkey] at h
        rw [ite_eq_iff] at h
        obtain ⟨-, h⟩ | ⟨-, h⟩ := h
        · cases h
        rw [ite_eq_iff] at h
        obtain ⟨-, h⟩ | ⟨hnew, h⟩ := h
        · cases h
        cases hweight : field fields "weight" with
        | int weight =>
          simp only [hweight] at h
          rw [ite_eq_iff] at h
          obtain ⟨-, h⟩ | ⟨hrange, h⟩ := h
          · cases h
          rw [not_or] at hrange
          have hkeys' : (keys ++ [key]).Nodup := by
            rw [List.nodup_append_comm, List.singleton_append, List.nodup_cons]
            exact ⟨hnew, hkeys⟩
          obtain ⟨vs, hvs, hnonneg, hnodup, hk, ht⟩ := ih hkeys' h
          have hvariant : variantOf (.dict fields) = some ⟨key, weight⟩ := by
            simp [variantOf, hkey, hweight]
          refine ⟨⟨key, weight⟩ :: vs, ?_, ?_, ?_, ?_, ?_⟩
          · rw [List.map_cons, List.map_cons, hvariant, hvs]
          · rw [List.forall_mem_cons]
            exact ⟨not_lt.1 hrange.1, hnonneg⟩
          · rwa [List.append_assoc] at hnodup
          · rw [hk, List.append_assoc]
            rfl
          · rw [ht, totalOf, totalOf, List.map_cons, List.sum_cons, add_assoc]
        | none | bool b | float y | str s | list l | dict d => simp [hweight] at h
      | none | bool b | int n | float y | list l | dict d => simp [hkey] at h
    | none | bool b | int n | float y | str s | list l => simp [validateVariantsFrom] at h

lemma setWeight_of_notMem {weights : List (Text × ℤ)} {key : Text} (weight : ℤ)
    (h : key ∉ weights.map Prod.fst) : setWeight weights key weight = weights ++ [(key, weight)] :=
  if_neg h

lemma variantWeightsFrom_eq {weights : List (Text × ℤ)}
    {vs : List VariantConfig} (hvs : variants.map variantOf = vs.map some)
    (hnodup : (weights.map Prod.fst ++ vs.map VariantConfig.key).Nodup) :
    variantWeightsFrom weights variants = some (weights ++ vs.map weightEntry) := by
  induction variants generalizing weights vs with
  | nil =>
    obtain rfl : vs = [] := by simpa using hvs.symm
    simp [variantWeightsFrom]
  | cons variant rest ih =>
    cases vs with
    | nil => simp at hvs
    | cons v vs =>
      rw [List.map_cons, List.map_cons, List.cons.injEq] at hvs
      obtain ⟨hv, hvs⟩ := hvs
      cases variant with
      | dict fields =>
        have hnew : v.key ∉ weights.map Prod.fst := by
          intro hin
          exact (List.nodup_append.1 hnodup).2.2 _ hin _ (by simp) rfl
        have hnodup' : ((weights ++ [weightEntry v]).map Prod.fst ++
            vs.map VariantConfig.key).Nodup := by
          rw [List.map_append, List.append_assoc]
          exact hnodup
        cases hkey : field fields "key" with
        | str key =>
          cases hweight : field fields "weight" with
          | int weight =>
            obtain rfl : (⟨key, weight⟩ : VariantConfig) = v := by
              simpa [variantOf, hkey, hweight] using hv
            simp only [variantWeightsFrom, hkey, hweight]
            rw [setWeight_of_notMem weight hnew]
            exact (ih hvs hnodup').trans (by simp [weightEntry])
          | none | bool b | float y | str s | list l | dict d =>
            simp [variantOf, hkey, hweight] at hv
        | none | bool b | int n | float y | list l | dict d => simp [variantOf, hkey] at hv
      | none | bool b | int n | float y | str s | list l => simp [variantOf] at hv

structure ValidVariants (variants : PyValue) (experiment : Bool) : Prop where
  weights : variantWeights variants = (variantsOf variants).map weightEntry
  nonneg : ∀ v ∈ variantsOf variants, 0 ≤ v.weight
  nodup : ((variantsOf variants).map VariantConfig.key).Nodup
  total_pos : 0 < totalOf (variantsOf variants)
  two : experiment = true → 2 ≤ (variantsOf variants).length

lemma filterMap_of_map_some {vs : List VariantConfig}
    (h : variants.map variantOf = vs.map some) : variants.filterMap variantOf = vs := by
  induction variants generalizing vs with
  | nil => simpa using h
  | cons variant rest ih =>
    cases vs with
    | nil => simp at h
    | cons v vs =>
      rw [List.map_cons, List.map_cons, List.cons.injEq] at h
      rw [List.filterMap_cons_some h.1, ih h.2]

/-- **Valid variants** are computed with as they are. -/
lemma validVariants_of_none {variants : PyValue} {defaultVariant : Option Text}
    (h : validateVariants variants defaultVariant experiment = none) :
    ValidVariants variants experiment := by
  cases variants with
  | list items =>
    cases items with
    | nil => simp [validateVariants] at h
    | cons item items =>
      simp only [validateVariants] at h
      rw [ite_eq_iff] at h
      obtain ⟨-, h⟩ | ⟨hlength, h⟩ := h
      · cases h
      cases hfrom : validateVariantsFrom experiment [] 0 (item :: items) with
      | error message => simp [hfrom] at h
      | ok result =>
        obtain ⟨keys, total⟩ := result
        simp only [hfrom] at h
        rw [ite_eq_iff] at h
        obtain ⟨-, h⟩ | ⟨htotal, -⟩ := h
        · cases h
        obtain ⟨vs, hvs, hnonneg, hnodup, -, rfl⟩ := validateVariantsFrom_ok List.nodup_nil hfrom
        have hof : variantsOf (.list (item :: items)) = vs := filterMap_of_map_some hvs
        have hlen : (item :: items).length = vs.length := by
          simpa only [List.length_map] using congrArg List.length hvs
        refine ⟨?_, ?_, ?_, ?_, ?_⟩
        · simp only [variantWeights]
          rw [hof, variantWeightsFrom_eq hvs (by simpa using hnodup)]
          rfl
        · rwa [hof]
        · simpa only [hof, List.nil_append] using hnodup
        · rw [hof]
          omega
        · intro hexperiment
          rw [hof, ← hlen]
          by_contra hshort
          exact hlength ⟨hexperiment, fun hrange => hshort hrange.1⟩
  | none | bool b | int n | float y | str s | dict d => simp [validateVariants] at h

end Apdl.Agents.Safety
