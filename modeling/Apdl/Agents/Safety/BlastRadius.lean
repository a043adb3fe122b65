import Apdl.Agents.Safety.Valid
import Apdl.Config.Mutations.Model
import Apdl.Lib.Check

set_option autoImplicit false

/-!
# What the check of the blast radius covers

The check of an update sees the fields of the update, and the exposure is that of the flag that they are
merged into: the rollouts that the update does not replace stay, and a variant stops being the default one
when another one becomes it. Moreover the exposure is computed with doubles, and no comparison with a NaN
fails a check. These are the ways in which a flag can pass the check and exceed the cap.

## Main results

* `blast_radius_iff` — actions that pass respect the cap exactly when they are covered.
-/

namespace Apdl.Agents.Safety

open Text (ofString)
open PyValue (Fields field hasField)
open Config (Flag VariantConfig GateRule)
open Config.Mutations (FlagUpdate)

/-! ## The cap -/

/-- The part of the users that a variant reaches, in percent. -/
def exposureOf (weight total : ℤ) (rollout : ℚ) : ℚ := weight / total * rollout

/-- Every variant other than the default one reaches at most 50% at each of the rollouts. -/
def CappedAt (variants : List VariantConfig) (defaultVariant : Text) (rollouts : List ℚ) : Prop :=
  ∀ v ∈ variants, v.key ≠ defaultVariant → ∀ r ∈ rollouts,
    exposureOf v.weight (totalOf variants) r ≤ 50

def rolloutsOfFlag (f : Flag) : List ℚ :=
  f.fallthrough.rollout.percentage :: f.rules.map fun rule => rule.rollout.percentage

/-- The cap of a flag. -/
def Capped (f : Flag) : Prop := CappedAt f.variants f.defaultVariant (rolloutsOfFlag f)

/-- The cap of the config of an experiment: every rollout is a number, every variant other than the default
one reaches at most 50% at it, and the share of the default one is at least 10%. -/
def ExperimentCapped (config : Fields) : Prop :=
  (∀ v ∈ variantsOf (field config "variants"), v.key ≠ defaultOf (field config "default_variant") →
    ∀ x ∈ rolloutsOf config, ∃ r, x = .finite r ∧
      exposureOf v.weight (totalOf (variantsOf (field config "variants"))) r ≤ 50) ∧
  ∀ v ∈ variantsOf (field config "variants"), v.key = defaultOf (field config "default_variant") →
    10 ≤ exposureOf v.weight (totalOf (variantsOf (field config "variants"))) 100

/-! ## The update -/

/-- The update that the config service reads from a config: a field that is `None` is not sent. -/
structure Reads (config : Fields) (u : FlagUpdate) : Prop where
  variants : u.variants = match field config "variants" with
    | .none => none
    | variants => some (variantsOf variants)
  defaultVariant : u.defaultVariant = match field config "default_variant" with
    | .none => none
    | defaultVariant => some (defaultOf defaultVariant)
  rules : (u.rules.map fun rules => rules.map fun rule => PyFloat.finite rule.rollout.percentage) =
    ruleRollouts config
  fallthrough : (u.fallthrough.map fun fallthrough => PyFloat.finite fallthrough.rollout.percentage) =
    ruleRolloutOf (field config "fallthrough")

/-- The rollouts that an update gives. -/
def given (u : FlagUpdate) : List ℚ :=
  (u.fallthrough.map fun fallthrough => fallthrough.rollout.percentage).toList ++
    (u.rules.getD []).map fun rule => rule.rollout.percentage

/-- The rollouts of a flag that an update leaves. -/
def retained (f : Flag) (u : FlagUpdate) : List ℚ :=
  (if u.fallthrough.isSome then [] else [f.fallthrough.rollout.percentage]) ++
    if u.rules.isSome then [] else f.rules.map fun rule => rule.rollout.percentage

lemma mem_rolloutsOfFlag_apply (f : Flag) (u : FlagUpdate) (r : ℚ) :
    r ∈ rolloutsOfFlag (u.apply f) ↔ r ∈ given u ∨ r ∈ retained f u := by
  unfold rolloutsOfFlag given retained FlagUpdate.apply
  cases u.fallthrough <;> cases u.rules <;> simp [or_comm]

/-- The exact exposure is above 50%, and the one that is computed is not. -/
def RoundsDown (weight total : ℤ) (rollout : ℚ) : Prop :=
  50 < exposureOf weight total rollout ∧ ∃ share, Double.round (weight / total) = some share ∧
    (PyFloat.finite 50).lt (PyFloat.nearest (share * rollout)) = false

/-- The exact share is below 10%, and the one that is computed is not. -/
def RoundsUp (weight total : ℤ) : Prop :=
  exposureOf weight total 100 < 10 ∧ ∃ share, Double.round (weight / total) = some share ∧
    (PyFloat.nearest (share * 100)).lt (.finite 10) = false

/-- **What the check of an update has to see.** An update without variants may make another variant the
default one: the former one has to respect the cap at the rollouts that stay. An update with variants is
checked at the rollouts that it gives, up to the rounding, and not at the rollouts that stay. -/
def Covered (f : Flag) (u : FlagUpdate) : Prop :=
  match u.variants with
  | none => u.defaultVariant.getD f.defaultVariant ≠ f.defaultVariant →
      ∀ v ∈ f.variants, v.key = f.defaultVariant → ∀ r ∈ retained f u,
        exposureOf v.weight (totalOf f.variants) r ≤ 50
  | some variants => ∀ v ∈ variants, v.key ≠ u.defaultVariant.getD f.defaultVariant →
      (∀ r ∈ retained f u, exposureOf v.weight (totalOf variants) r ≤ 50) ∧
        ∀ r ∈ given u, ¬ RoundsDown v.weight (totalOf variants) r

/-- **What the check of an experiment has to see.** Every rollout is a number, and no exposure is above the
cap only before it is rounded. -/
def ExperimentCovered (config : Fields) : Prop :=
  (∀ x ∈ rolloutsOf config, x ≠ .nan) ∧
  (∀ v ∈ variantsOf (field config "variants"), v.key ≠ defaultOf (field config "default_variant") →
    ∀ r, .finite r ∈ rolloutsOf config →
      ¬ RoundsDown v.weight (totalOf (variantsOf (field config "variants"))) r) ∧
  ∀ v ∈ variantsOf (field config "variants"), v.key = defaultOf (field config "default_variant") →
    ¬ RoundsUp v.weight (totalOf (variantsOf (field config "variants")))

variable {variants : List VariantConfig} {check : Check}

lemma exposure_of_check {defaultVariant : Text} {r : ℚ} {safe : PyFloat → Message}
    (h : checkExposure (variants.map weightEntry) defaultVariant (.finite r) safe = .ok check)
    (hpassed : check.passed = true) :
    ∀ v ∈ variants, v.key ≠ defaultVariant → ∃ share,
      Double.round (v.weight / totalOf variants) = some share ∧
        (PyFloat.finite 50).lt (PyFloat.nearest (share * r)) = false := by
  intro v hv hkey
  unfold checkExposure maxNonDefaultExposure at h
  rw [totalWeight_weightEntry] at h
  set exposure : ℤ → Except Crash PyFloat := fun weight =>
    (divide weight (totalOf variants)).map fun share => PyFloat.scale share (.finite r)
  set weights := ((variants.map weightEntry).filter fun entry => entry.1 ≠ defaultVariant).map Prod.snd
  have hmem : v.weight ∈ weights :=
    List.mem_map.2 ⟨weightEntry v, List.mem_filter.2 ⟨List.mem_map_of_mem hv, decide_eq_true hkey⟩, rfl⟩
  cases hmap : weights.mapM exposure with
  | error e => simp [hmap, Except.map] at h
  | ok exposures =>
    obtain ⟨x, hx⟩ := Check.isOk_of_mapM hmap _ hmem
    have hin : x ∈ exposures := (Check.mem_of_mapM hmap x).2 ⟨_, hmem, hx⟩
    cases hshare : Double.round (v.weight / totalOf variants) with
    | none => simp [exposure, divide, hshare, Except.map] at hx
    | some share =>
      obtain rfl : PyFloat.nearest (share * r) = x := by
        simpa [exposure, divide, hshare, Except.map, PyFloat.scale] using hx
      refine ⟨share, rfl, ?_⟩
      rw [Bool.eq_false_iff]
      intro habove
      cases exposures with
      | nil => cases hin
      | cons y ys =>
        -- no product of two numbers is a NaN
        have hy : y ≠ .nan := by
          obtain ⟨w, -, hw⟩ := (Check.mem_of_mapM hmap y).1 List.mem_cons_self
          rintro rfl
          unfold exposure divide PyFloat.scale PyFloat.nearest at hw
          cases hround : Double.round (w / totalOf variants) with
          | none => simp [hround, Except.map] at hw
          | some s =>
            simp only [hround, Except.map, Except.ok.injEq] at hw
            cases hprod : Double.round (s * r) <;> simp [hprod] at hw
        have hlt := PyFloat.lt_max hy hin habove
        simp only [hmap, Except.map, Except.ok.injEq, if_pos hlt] at h
        subst h
        cases hpassed

lemma exposureOf_mono {weight total : ℤ} {r q : ℚ} (hweight : 0 ≤ weight) (htotal : 0 < total)
    (h : r ≤ q) : exposureOf weight total r ≤ exposureOf weight total q := by
  have hshare : (0 : ℚ) ≤ weight / total :=
    div_nonneg (by exact_mod_cast hweight) (by exact_mod_cast htotal.le)
  exact mul_le_mul_of_nonneg_left h hshare

/-- **A passed check covers the rollouts that it sees**, where nothing is rounded down. -/
lemma capped_of_check {defaultVariant : Text} {x : PyFloat}
    {rest : List PyFloat} {safe : PyFloat → Message}
    (hnonneg : ∀ v ∈ variants, 0 ≤ v.weight) (htotal : 0 < totalOf variants)
    (hfinite : ∀ y ∈ x :: rest, ∃ q, y = .finite q)
    (h : checkExposure (variants.map weightEntry) defaultVariant (PyFloat.max x rest) safe = .ok check)
    (hpassed : check.passed = true) {v : VariantConfig} (hv : v ∈ variants)
    (hkey : v.key ≠ defaultVariant)
    (hround : ∀ r, .finite r ∈ x :: rest → ¬ RoundsDown v.weight (totalOf variants) r) :
    ∀ r, .finite r ∈ x :: rest → exposureOf v.weight (totalOf variants) r ≤ 50 := by
  intro r hr
  obtain ⟨p, rfl⟩ := hfinite x List.mem_cons_self
  have hfin : ∀ y ∈ rest, ∀ b, y ≠ .infinity b := by
    intro y hy b hb
    obtain ⟨q, hq⟩ := hfinite y (List.mem_cons_of_mem _ hy)
    rw [hb] at hq
    cases hq
  obtain ⟨q, hq, hpq, hrest, hfrom⟩ := PyFloat.max_finite (p := p) hfin
  have hqmem : .finite q ∈ PyFloat.finite p :: rest := by
    rcases hfrom with rfl | hin
    · exact List.mem_cons_self
    · exact List.mem_cons_of_mem _ hin
  have hle : r ≤ q := by
    rcases List.mem_cons.1 hr with hr | hr
    · exact PyFloat.finite.inj hr ▸ hpq
    · exact hrest r hr
  rw [hq] at h
  obtain ⟨share, hshare, hbelow⟩ := exposure_of_check h hpassed v hv hkey
  refine (exposureOf_mono (hnonneg v hv) htotal hle).trans (not_lt.1 fun habove => ?_)
  exact hround q hqmem ⟨habove, share, hshare, hbelow⟩

/-! ## Checks that pass -/

lemma lookupDefault_eq_some {value : PyValue} {weights : List (Text × ℤ)} {key : Text}
    (h : lookupDefault value weights = .ok (some key)) :
    value = .str key ∧ key ∈ weights.map Prod.fst := by
  cases value with
  | str s =>
    simp only [lookupDefault, Except.ok.injEq] at h
    rw [ite_eq_iff] at h
    obtain ⟨hs, h⟩ | ⟨-, h⟩ := h
    · cases h
      exact ⟨rfl, hs.2⟩
    · cases h
  | list items =>
    cases items with
    | nil => cases h
    | cons item items => by_cases ht : totalWeight weights ≤ 0 <;> simp [lookupDefault, ht] at h
  | dict fields =>
    cases fields with
    | nil => cases h
    | cons entry fields => by_cases ht : totalWeight weights ≤ 0 <;> simp [lookupDefault, ht] at h
  | none | bool b | int n | float y => cases h

lemma checks_of_passed {repr : PyValue → Text} {action : AgentAction}
    (h : (SafetyValidator.validate repr action).passed = true) :
    (∃ check, checkVariantConfig action = .ok check ∧ check.passed = true) ∧
      ∃ check, checkBlastRadius action = .ok check ∧ check.passed = true := by
  simp only [SafetyValidator.validate, List.all_cons, List.all_nil, Bool.and_true,
    Bool.and_eq_true] at h
  obtain ⟨-, hvariant, hradius, -⟩ := h
  refine ⟨?_, ?_⟩
  · cases hcheck : checkVariantConfig action with
    | error e => simp [hcheck, runCheck] at hvariant
    | ok check => exact ⟨check, rfl, by simpa [hcheck, runCheck] using hvariant⟩
  · cases hcheck : checkBlastRadius action with
    | error e => simp [hcheck, runCheck] at hradius
    | ok check => exact ⟨check, rfl, by simpa [hcheck, runCheck] using hradius⟩

variable {config : Fields} {requireComplete experiment : Bool}

lemma validTraffic_of_validate
    (h : validateVariantFlagConfig config requireComplete experiment = .ok none) :
    ValidTraffic config requireComplete experiment := by
  unfold validateVariantFlagConfig at h
  cases htraffic : validateTrafficFields config requireComplete experiment with
  | none => exact validTraffic_of_none htraffic
  | some message => simp [htraffic] at h

lemma updateTraffic_of_passed
    (h : checkVariantConfig ⟨.updateFlag, config⟩ = .ok check) (hpassed : check.passed = true) :
    ValidTraffic config false false := by
  unfold checkVariantConfig at h
  dsimp only at h
  cases hvalid : validateVariantFlagConfig config false false with
  | error e => simp [hvalid, Except.map] at h
  | ok message =>
    cases message with
    | none => exact validTraffic_of_validate hvalid
    | some message =>
      simp only [hvalid, Except.map, Except.ok.injEq] at h
      subst h
      cases hpassed

def flagConfigOf (config : Fields) : Fields :=
  match field config "flag_config" with
  | .dict flagConfig => flagConfig
  | _ => []

lemma experimentTraffic_of_passed
    (h : checkVariantConfig ⟨.createExperiment, config⟩ = .ok check) (hpassed : check.passed = true) :
    field config "flag_config" = .dict (flagConfigOf config) ∧
      ValidTraffic (flagConfigOf config) true true := by
  unfold checkVariantConfig at h
  unfold flagConfigOf
  dsimp only at h
  cases hconfig : field config "flag_config" with
  | dict flagConfig =>
    simp only [hconfig] at h
    refine ⟨rfl, ?_⟩
    cases hvalid : validateVariantFlagConfig flagConfig true true with
    | error e => simp [hvalid, Except.map] at h
    | ok message =>
      cases message with
      | none => exact validTraffic_of_validate hvalid
      | some message =>
        simp only [hvalid, Except.map, Except.ok.injEq] at h
        subst h
        cases hpassed
  | none | bool b | int n | float y | str s | list l =>
    simp only [hconfig, Except.ok.injEq] at h
    subst h
    cases hpassed

lemma maxRolloutPercentage_eq (h : ValidTraffic config requireComplete experiment) :
    maxRolloutPercentage config = .ok (match rolloutsOf config with
      | [] => none
      | x :: rest => some (PyFloat.max x rest)) := by
  unfold maxRolloutPercentage
  rw [(percentages_eq h).1]
  cases rolloutsOf config <;> rfl

lemma validVariants_of_total (h : ValidTraffic config requireComplete experiment)
    (htotal : ¬ totalWeight (variantWeights (field config "variants")) ≤ 0) :
    ValidVariants (field config "variants") experiment := by
  obtain ⟨defaultVariant, -, hnone | hvalid⟩ := h.default
  · cases hv : field config "variants" with
    | none => simp [hv, variantWeights, totalWeight] at htotal
    | _ => simp [hv, PyValue.isNone] at hnone
  · exact validVariants_of_none hvalid

/-- **An update that passes** changes neither variants nor rollouts, or is checked at its rollouts. -/
lemma update_of_passed (hvalid : ValidTraffic config false false)
    (h : checkUpdateRadius config = .ok check) (hpassed : check.passed = true) :
    (field config "variants" = .none ∧ rolloutsOf config = []) ∨
      ∃ defaultVariant x rest, rolloutsOf config = x :: rest ∧
        field config "default_variant" = .str defaultVariant ∧
        ValidVariants (field config "variants") false ∧
        checkExposure ((variantsOf (field config "variants")).map weightEntry) defaultVariant
          (PyFloat.max x rest) (.updateSafe (PyFloat.max x rest)) = .ok check := by
  unfold checkUpdateRadius at h
  rw [maxRolloutPercentage_eq hvalid, Check.bind_eq_ok] at h
  obtain ⟨rollout, hrollout, h⟩ := h
  rw [Except.ok.injEq] at hrollout
  rw [ite_eq_iff] at h
  obtain ⟨hunchanged, -⟩ | ⟨-, h⟩ := h
  · left
    rw [Bool.and_eq_true] at hunchanged
    refine ⟨?_, ?_⟩
    · cases hv : field config "variants" with
      | none => rfl
      | _ => simp [hv, PyValue.isNone] at hunchanged
    · cases hr : rolloutsOf config with
      | nil => rfl
      | cons x rest =>
        rw [hr] at hrollout
        rw [← hrollout] at hunchanged
        cases hunchanged.2
  · right
    rw [Check.bind_eq_ok] at h
    obtain ⟨defaultVariant, hdefault, h⟩ := h
    split at h
    · next key r hkey =>
      rw [ite_eq_iff] at hkey
      obtain ⟨-, hkey⟩ | ⟨htotal, rfl⟩ := hkey
      · cases hkey
      have hvariants := validVariants_of_total hvalid htotal
      obtain ⟨hstr, -⟩ := lookupDefault_eq_some hdefault
      cases hr : rolloutsOf config with
      | nil =>
        rw [hr] at hrollout
        cases hrollout
      | cons x rest =>
        rw [hr] at hrollout
        cases hrollout
        rw [hvariants.weights] at h
        exact ⟨key, x, rest, rfl, hstr, hvariants, h⟩
    · simp only [Check.pure_eq_ok] at h
      subst h
      cases hpassed

/-- **An experiment that passes** is checked at its rollouts, and the share of its default variant is. -/
lemma experiment_of_passed (hconfig : field config "flag_config" = .dict (flagConfigOf config))
    (hvalid : ValidTraffic (flagConfigOf config) true true)
    (h : checkExperimentRadius config = .ok check) (hpassed : check.passed = true) :
    ∃ defaultVariant x rest share, rolloutsOf (flagConfigOf config) = x :: rest ∧
      field (flagConfigOf config) "default_variant" = .str defaultVariant ∧
      ValidVariants (field (flagConfigOf config) "variants") true ∧
      Double.round ((((variantsOf (field (flagConfigOf config) "variants")).map weightEntry).lookup
        defaultVariant).getD 0 / totalOf (variantsOf (field (flagConfigOf config) "variants"))) =
          some share ∧
      (PyFloat.nearest (share * 100)).lt (.finite 10) = false ∧
      ∃ safe, checkExposure ((variantsOf (field (flagConfigOf config) "variants")).map weightEntry)
        defaultVariant (PyFloat.max x rest) safe = .ok check := by
  have hfound : hasField config "flag_config" = true := by
    unfold PyValue.field at hconfig
    unfold PyValue.hasField
    cases hl : config.lookup (ofString "flag_config") with
    | none => simp [hl] at hconfig
    | some v => rfl
  unfold checkExperimentRadius at h
  rw [if_pos hfound, hconfig] at h
  dsimp only at h
  rw [Check.bind_eq_ok] at h
  obtain ⟨defaultVariant, hdefault, h⟩ := h
  split at h
  · simp only [Check.pure_eq_ok] at h
    subst h
    cases hpassed
  next key hkey =>
    rw [ite_eq_iff] at hkey
    obtain ⟨-, hkey⟩ | ⟨htotal, rfl⟩ := hkey
    · cases hkey
    have hvariants := validVariants_of_total hvalid htotal
    obtain ⟨hstr, -⟩ := lookupDefault_eq_some hdefault
    rw [maxRolloutPercentage_eq hvalid, Check.bind_eq_ok] at h
    obtain ⟨rollout, hrollout, h⟩ := h
    rw [Except.ok.injEq] at hrollout
    cases hr : rolloutsOf (flagConfigOf config) with
    | nil =>
      rw [hr] at hrollout
      subst hrollout
      simp only [Check.pure_eq_ok] at h
      subst h
      cases hpassed
    | cons x rest =>
      rw [hr] at hrollout
      subst hrollout
      dsimp only at h
      rw [ite_eq_iff] at h
      obtain ⟨-, h⟩ | ⟨-, h⟩ := h
      · simp only [Check.pure_eq_ok] at h
        subst h
        cases hpassed
      rw [Check.bind_eq_ok] at h
      obtain ⟨share, hshare, h⟩ := h
      rw [ite_eq_iff] at h
      obtain ⟨-, h⟩ | ⟨habove, h⟩ := h
      · simp only [Check.pure_eq_ok] at h
        subst h
        cases hpassed
      rw [hvariants.weights] at h hshare
      rw [totalWeight_weightEntry] at hshare
      refine ⟨key, x, rest, share, rfl, hstr, hvariants, ?_, eq_false_of_ne_true habove, _, h⟩
      unfold divide at hshare
      split at hshare
      · cases hshare
        assumption
      · cases hshare

/-! ## The merge -/

variable {u : FlagUpdate}

lemma finite_mem_rolloutsOf (h : Reads config u) :
    rolloutsOf config = (given u).map .finite := by
  unfold rolloutsOf given
  rw [← h.fallthrough, ← h.rules]
  cases u.fallthrough <;> cases u.rules <;> simp [Function.comp_def]

lemma apply_default (f : Flag) (u : FlagUpdate) :
    (u.apply f).defaultVariant = u.defaultVariant.getD f.defaultVariant := rfl

/-- **Updates that change no variants.** The rollouts that stay are those that the variants are capped at,
up to the variant that is no longer the default one. -/
lemma capped_apply_of_unchanged {f : Flag} (hcapped : Capped f)
    (hvariants : u.variants = none) (hgiven : given u = []) : Capped (u.apply f) ↔ Covered f u := by
  have hv : (u.apply f).variants = f.variants := by simp [FlagUpdate.apply, hvariants]
  have hretained : ∀ r ∈ retained f u, r ∈ rolloutsOfFlag f := by
    intro r hr
    unfold retained at hr
    unfold rolloutsOfFlag
    cases hf : u.fallthrough <;> cases hrules : u.rules <;> simp_all
  unfold Capped CappedAt Covered
  rw [hvariants, hv, apply_default]
  refine ⟨?_, ?_⟩
  · intro h hne v hvmem hkey r hr
    refine h v hvmem ?_ r ((mem_rolloutsOfFlag_apply f u r).2 (.inr hr))
    rw [hkey]
    exact hne.symm
  · intro h v hvmem hkey r hr
    have hr : r ∈ retained f u := by
      simpa [hgiven] using (mem_rolloutsOfFlag_apply f u r).1 hr
    by_cases hformer : v.key = f.defaultVariant
    · exact h (fun heq => hkey (hformer.trans heq.symm)) v hvmem hformer r hr
    · exact hcapped v hvmem hformer r (hretained r hr)

theorem update_capped_iff (repr : PyValue → Text) {f : Flag}
    (hreads : Reads config u) (hcapped : Capped f)
    (hpassed : (SafetyValidator.validate repr ⟨.updateFlag, config⟩).passed = true) :
    Capped (u.apply f) ↔ Covered f u := by
  obtain ⟨⟨variant, hvariant, hvariantOk⟩, radius, hradius, hradiusOk⟩ := checks_of_passed hpassed
  have hvalid := updateTraffic_of_passed hvariant hvariantOk
  have hrollouts := finite_mem_rolloutsOf hreads
  obtain ⟨hnone, hnil⟩ | ⟨key, x, rest, hr, hkey, hvariants, hcheck⟩ :=
    update_of_passed hvalid hradius hradiusOk
  · refine capped_apply_of_unchanged hcapped ?_ ?_
    · rw [hreads.variants, hnone]
    · simpa [hrollouts] using hnil
  have hu : u.variants = some (variantsOf (field config "variants")) := by
    have htotal := hvariants.total_pos
    rw [hreads.variants]
    cases hv : field config "variants" with
    | none => simp [hv, variantsOf, totalOf] at htotal
    | _ => rfl
  have hd : u.defaultVariant = some key := by rw [hreads.defaultVariant, hkey]; rfl
  have hv : (u.apply f).variants = variantsOf (field config "variants") := by
    simp [FlagUpdate.apply, hu]
  have hmem : ∀ r, .finite r ∈ x :: rest ↔ r ∈ given u := by
    intro r
    rw [← hr, hrollouts]
    simp
  unfold Capped CappedAt Covered
  rw [hu, hv, apply_default, hd]
  dsimp only [Option.getD_some]
  refine ⟨?_, ?_⟩
  · intro h v hvmem hne
    refine ⟨fun r hr => h v hvmem hne r ((mem_rolloutsOfFlag_apply f u r).2 (.inr hr)), ?_⟩
    intro r hr hround
    exact absurd (h v hvmem hne r ((mem_rolloutsOfFlag_apply f u r).2 (.inl hr)))
      (not_le.2 hround.1)
  · intro h v hvmem hne r hrmem
    rcases (mem_rolloutsOfFlag_apply f u r).1 hrmem with hgiven | hretained
    · refine capped_of_check hvariants.nonneg hvariants.total_pos ?_ hcheck hradiusOk hvmem hne
        (fun q hq => (h v hvmem hne).2 q ((hmem q).1 hq)) r ((hmem r).2 hgiven)
      intro y hy
      rw [← hr, hrollouts] at hy
      obtain ⟨q, -, rfl⟩ := List.mem_map.1 hy
      exact ⟨q, rfl⟩
    · exact (h v hvmem hne).1 r hretained

/-! ## Experiments -/

lemma lookup_weightEntry {v : VariantConfig}
    (hnodup : (variants.map VariantConfig.key).Nodup) (hv : v ∈ variants) :
    (variants.map weightEntry).lookup v.key = some v.weight := by
  induction variants with
  | nil => cases hv
  | cons w rest ih =>
    rw [List.map_cons, List.nodup_cons] at hnodup
    rw [List.map_cons, weightEntry, List.lookup_cons]
    rcases List.mem_cons.1 hv with rfl | hv
    · rw [beq_self_eq_true]
    · have hne : v.key ≠ w.key := fun heq => hnodup.1 (heq ▸ List.mem_map_of_mem hv)
      rw [beq_eq_false_iff_ne.2 hne]
      exact ih hnodup.2 hv

lemma exists_other (key : Text) (htwo : 2 ≤ variants.length)
    (hnodup : (variants.map VariantConfig.key).Nodup) : ∃ v ∈ variants, v.key ≠ key := by
  match variants, htwo, hnodup with
  | v :: w :: rest, _, hnodup =>
    have hne : v.key ≠ w.key := fun heq => (List.nodup_cons.1 hnodup).1 (by simp [heq])
    by_cases hv : v.key = key
    · exact ⟨w, by simp, fun hw => hne (hv.trans hw.symm)⟩
    · exact ⟨v, by simp, hv⟩

theorem experiment_capped_iff (repr : PyValue → Text)
    (hpassed : (SafetyValidator.validate repr ⟨.createExperiment, config⟩).passed = true) :
    ExperimentCapped (flagConfigOf config) ↔ ExperimentCovered (flagConfigOf config) := by
  obtain ⟨⟨variant, hvariant, hvariantOk⟩, radius, hradius, hradiusOk⟩ := checks_of_passed hpassed
  obtain ⟨hconfig, hvalid⟩ := experimentTraffic_of_passed hvariant hvariantOk
  obtain ⟨key, x, rest, share, hr, hkey, hvariants, hshare, habove, safe, hcheck⟩ :=
    experiment_of_passed hconfig hvalid hradius hradiusOk
  have hinRange := (percentages_eq hvalid).2
  have hd : defaultOf (field (flagConfigOf config) "default_variant") = key := by rw [hkey]; rfl
  unfold ExperimentCapped ExperimentCovered
  rw [hd]
  refine ⟨?_, ?_⟩
  · rintro ⟨hcap, hdefault⟩
    refine ⟨?_, ?_, ?_⟩
    · intro y hy
      obtain ⟨v, hv, hne⟩ := exists_other key (hvariants.two rfl) hvariants.nodup
      obtain ⟨r, rfl, -⟩ := hcap v hv hne y hy
      exact PyFloat.noConfusion
    · intro v hv hne r hrmem hround
      obtain ⟨q, hq, hle⟩ := hcap v hv hne _ hrmem
      obtain rfl := PyFloat.finite.inj hq
      exact absurd hle (not_le.2 hround.1)
    · intro v hv heq hround
      exact absurd (hdefault v hv heq) (not_le.2 hround.1)
  · rintro ⟨hnan, hround, hroundUp⟩
    have hfinite : ∀ y ∈ x :: rest, ∃ q, y = .finite q := by
      intro y hy
      rw [← hr] at hy
      obtain h | ⟨q, hq, -⟩ := (hinRange y hy).cases
      · exact absurd h (hnan y hy)
      · exact ⟨q, hq⟩
    refine ⟨?_, ?_⟩
    · intro v hv hne y hy
      rw [hr] at hy
      obtain ⟨q, rfl⟩ := hfinite y hy
      refine ⟨q, rfl, ?_⟩
      exact capped_of_check hvariants.nonneg hvariants.total_pos hfinite hcheck hradiusOk hv hne
        (fun r hrmem => hround v hv hne r (hr ▸ hrmem)) q hy
    · intro v hv heq
      rw [← heq, lookup_weightEntry hvariants.nodup hv, Option.getD_some] at hshare
      exact not_lt.1 fun hbelow => hroundUp v hv heq ⟨hbelow, share, hshare, habove⟩

/-- **Actions that pass the safety validator.** The flag that an update is merged into, and the flag of an
experiment, respect the cap of the blast radius exactly when what the check does not see respects it: the
rollouts that stay, a variant that is no longer the default one, numbers that are no numbers, and what is
lost when the exposures are rounded. -/
theorem blast_radius_iff (repr : PyValue → Text) :
    (∀ config f u, Reads config u → Capped f →
      (SafetyValidator.validate repr ⟨.updateFlag, config⟩).passed = true →
        (Capped (u.apply f) ↔ Covered f u)) ∧
    ∀ config, (SafetyValidator.validate repr ⟨.createExperiment, config⟩).passed = true →
      (ExperimentCapped (flagConfigOf config) ↔ ExperimentCovered (flagConfigOf config)) :=
  ⟨fun _ _ _ hreads hcapped hpassed => update_capped_iff repr hreads hcapped hpassed,
    fun _ hpassed => experiment_capped_iff repr hpassed⟩

/-! ## Examples -/

def fieldsOf (fields : List (String × PyValue)) : Fields :=
  fields.map fun entry => (ofString entry.1, entry.2)

def withRollout (percentage : PyFloat) : PyValue :=
  .dict (fieldsOf [("rollout", .dict (fieldsOf
    [("percentage", .float percentage), ("bucket_by", .str (ofString "user_id"))]))])

def twoVariants (control treatment : ℤ) : PyValue :=
  .list [.dict (fieldsOf [("key", .str (ofString "control")), ("weight", .int control)]),
    .dict (fieldsOf [("key", .str (ofString "treatment")), ("weight", .int treatment)])]

/-- An update of the variants and the fallthrough. -/
def updateOf (control treatment : ℤ) (percentage : PyFloat) : Fields :=
  fieldsOf [("key", .str (ofString "checkout")), ("default_variant", .str (ofString "control")),
    ("variants", twoVariants control treatment), ("fallthrough", withRollout percentage)]

def experimentOf (control treatment : ℤ) (fallthrough rule : PyFloat) : Fields :=
  fieldsOf [("experiment_id", .str (ofString "checkout-copy")),
    ("flag_key", .str (ofString "checkout")),
    ("primary_metric", .dict (fieldsOf [("event", .str (ofString "purchase"))])),
    ("hypothesis", .str (ofString "Shorter copy sells more.")),
    ("flag_config", .dict (fieldsOf [("default_variant", .str (ofString "control")),
      ("variants", twoVariants control treatment), ("rules", .list [withRollout rule]),
      ("fallthrough", withRollout fallthrough)]))]

/-- A flag with two variants and a rule that everyone meets. -/
def storedFlag (control treatment : ℤ) (ruleRollout : ℚ) : Flag where
  key := ofString "checkout"
  projectId := ofString "shop"
  name := ofString "Checkout"
  state := .active
  owners := []
  reviewBy := none
  enabled := true
  description := []
  defaultVariant := ofString "control"
  variants := [⟨ofString "control", control⟩, ⟨ofString "treatment", treatment⟩]
  rules := [⟨ofString "everyone", ofString "Everyone", [], ⟨ruleRollout, ofString "user_id"⟩⟩]
  fallthrough := ⟨⟨0, ofString "user_id"⟩⟩
  salt := ofString "salt"
  evaluationMode := .client
  autoDisable := false
  guardrails := []
  disabledReason := []
  disabledBy := []
  disabledAt := none
  version := 1
  archivedAt := none

/-- The update that `updateOf` is read as. -/
def trafficUpdate (control treatment : ℤ) (percentage : ℚ) : FlagUpdate where
  owners := none
  reviewBy := none
  name := none
  description := none
  defaultVariant := some (ofString "control")
  variants := some [⟨ofString "control", control⟩, ⟨ofString "treatment", treatment⟩]
  rules := none
  fallthrough := some ⟨⟨percentage, ofString "user_id"⟩⟩
  evaluationMode := none
  guardrails := none

def defaultUpdate : FlagUpdate where
  owners := none
  reviewBy := none
  name := none
  description := none
  defaultVariant := some (ofString "treatment")
  variants := none
  rules := none
  fallthrough := none
  evaluationMode := none
  guardrails := none

/-- The config that `defaultUpdate` is read from. -/
def defaultUpdateConfig : Fields :=
  fieldsOf [("key", .str (ofString "checkout")), ("default_variant", .str (ofString "treatment"))]

instance (f : Flag) : Decidable (Capped f) := by unfold Capped CappedAt; infer_instance

instance (config : Fields) (u : FlagUpdate) : Decidable (Reads config u) :=
  decidable_of_iff (_ ∧ _ ∧ _ ∧ _)
    ⟨fun ⟨h1, h2, h3, h4⟩ => ⟨h1, h2, h3, h4⟩, fun ⟨h1, h2, h3, h4⟩ => ⟨h1, h2, h3, h4⟩⟩

/-- A text for values that are no strings. -/
def emptyRepr : PyValue → Text := fun _ => []

/-- **Updates and experiments that pass and exceed the cap.** Weights of 10 and 90 with a fallthrough of
50%, while a rule of the flag keeps its rollout of 100%; a new default variant, which leaves the former
one with 90%; weights of 1 and 3 with the double that is next to 66 and two thirds; and an experiment of 10
and 90 whose fallthrough is not a number. -/
theorem passed_exceeds_cap :
    (Reads (updateOf 10 90 (.finite 50)) (trafficUpdate 10 90 50) ∧ Capped (storedFlag 1 1 100) ∧
      (SafetyValidator.validate emptyRepr
        ⟨.updateFlag, updateOf 10 90 (.finite 50)⟩).passed = true ∧
      ¬ Capped ((trafficUpdate 10 90 50).apply (storedFlag 1 1 100))) ∧
    (Reads defaultUpdateConfig defaultUpdate ∧ Capped (storedFlag 90 10 100) ∧
      (SafetyValidator.validate emptyRepr ⟨.updateFlag, defaultUpdateConfig⟩).passed = true ∧
      ¬ Capped (defaultUpdate.apply (storedFlag 90 10 100))) ∧
    (Reads (updateOf 1 3 (.finite (4691249611844267 / 70368744177664)))
        (trafficUpdate 1 3 (4691249611844267 / 70368744177664)) ∧ Capped (storedFlag 1 1 0) ∧
      (SafetyValidator.validate emptyRepr
        ⟨.updateFlag, updateOf 1 3 (.finite (4691249611844267 / 70368744177664))⟩).passed = true ∧
      ¬ Capped ((trafficUpdate 1 3 (4691249611844267 / 70368744177664)).apply
        (storedFlag 1 1 0))) ∧
    (SafetyValidator.validate emptyRepr
      ⟨.createExperiment, experimentOf 10 90 .nan (.finite 100)⟩).passed = true ∧
      ¬ ExperimentCapped (flagConfigOf (experimentOf 10 90 .nan (.finite 100))) := by
  refine ⟨by decide +kernel, by decide +kernel, by decide +kernel, by decide +kernel, ?_⟩
  rintro ⟨hcap, -⟩
  have hv : (⟨ofString "treatment", 90⟩ : VariantConfig) ∈
      variantsOf (field (flagConfigOf (experimentOf 10 90 .nan (.finite 100))) "variants") := by
    decide +kernel
  have hx : PyFloat.nan ∈ rolloutsOf (flagConfigOf (experimentOf 10 90 .nan (.finite 100))) := by
    decide +kernel
  obtain ⟨r, hr, -⟩ := hcap _ hv (by decide +kernel) _ hx
  cases hr

/-- Weights of 1 and 1 at 80%, merged into a flag with a rule at 40%, and an experiment with weights of 1
and 1 at 80% and 40%. -/
theorem blast_radius_iff_even :
    (Capped ((trafficUpdate 1 1 80).apply (storedFlag 1 1 40)) ↔
      Covered (storedFlag 1 1 40) (trafficUpdate 1 1 80)) ∧
    (ExperimentCapped (flagConfigOf (experimentOf 1 1 (.finite 80) (.finite 40))) ↔
      ExperimentCovered (flagConfigOf (experimentOf 1 1 (.finite 80) (.finite 40)))) :=
  ⟨(blast_radius_iff emptyRepr).1 (updateOf 1 1 (.finite 80)) _ _ (by decide +kernel)
      (by decide +kernel) (by decide +kernel),
    (blast_radius_iff emptyRepr).2 _ (by decide +kernel)⟩

end Apdl.Agents.Safety
