import Apdl.Flags.Parity
import Apdl.Lib.Binary64
import Mathlib.Data.List.Forall2

set_option autoImplicit false

/-!
# Rollout percentages

`is_in_rollout` and `_apply_rollout` compare the bucket of a unit with a percentage. The first
decides 0 and 100 percent without a bucket; the second compares strictly at every percentage, and
the greatest hash has the bucket 100.

## Main results

* `raised_keeps_assignment` — raising a percentage keeps every assignment of a variant.

## Design

The evaluators compute buckets in doubles, which `Evaluator` leaves exact. What the laws need is
common to both scales: a bucket is not negative, and it is below 100 except for the greatest hash.
-/

namespace Apdl.Flags

open Config (GateRule RolloutConfig FallthroughConfig FlagState SchemaError checkIdentifier)
open Check

/-! ## Scales -/

/-- A way of computing buckets: none is negative, and only that of the greatest hash is 100. -/
structure Scale where
  bucket : ℕ → ℚ
  nonneg : ∀ h ≤ uint32Max, 0 ≤ bucket h
  lt_full : ∀ h < uint32Max, bucket h < 100
  full : bucket uint32Max = 100

lemma cast_uint32Max : (uint32Max : ℚ) = 4294967295 := by
  norm_num [uint32Max]

/-- Buckets as exact fractions. -/
def Scale.exact : Scale where
  bucket := percentageBucket
  nonneg h _ := by
    unfold percentageBucket
    positivity
  lt_full h hlt := by
    have hq : (h : ℚ) < uint32Max := by exact_mod_cast hlt
    rw [cast_uint32Max] at hq
    rw [percentageBucket, cast_uint32Max]
    linarith
  full := by
    rw [percentageBucket, cast_uint32Max]
    norm_num

/-- `percentage_bucket` in doubles: `(hash / _UINT32_MAX) * 100.0`. -/
def doubleBucket (hash : ℕ) : Option ℚ :=
  (Double.round ((hash : ℚ) / uint32Max)).bind fun x => Double.round (x * 100)

variable {h : ℕ}

lemma doubleBucket_spec (hle : h ≤ uint32Max) :
    ∃ b, doubleBucket h = some b ∧ 0 ≤ b ∧ (h < uint32Max → b ≤ 100 - 1 / 2 ^ 27) := by
  have hquot : (0 : ℚ) ≤ (h : ℚ) / uint32Max := by positivity
  have hone : (h : ℚ) / uint32Max ≤ 1 := by
    rw [div_le_one (by rw [cast_uint32Max]; norm_num)]
    exact_mod_cast hle
  obtain ⟨x, hx, hx1⟩ := Double.exists_round_le (q := (h : ℚ) / uint32Max) (k := 0) (by norm_num)
    (by rw [abs_of_nonneg hquot, pow_zero]; exact hone)
  have hx0 := Double.round_nonneg hquot hx
  rw [abs_of_nonneg hx0, pow_zero] at hx1
  obtain ⟨b, hb, -⟩ := Double.exists_round_le (q := x * 100) (k := 7) (by norm_num)
    (by rw [abs_of_nonneg (by positivity)]; linarith)
  have hb0 := Double.round_nonneg (by positivity) hb
  refine ⟨b, by rw [doubleBucket, hx, Option.bind_some, hb], hb0, fun hlt => ?_⟩
  -- the quotient is at most the double `1 - 2 ^ -33`
  have hmax : (2 : ℚ) ^ 7 ≤ 2 ^ 1024 := pow_le_pow_right₀ (by norm_num) (by norm_num)
  have hxgrid : Double.OnGrid (1 - 1 / 2 ^ 33) :=
    ⟨2 ^ 33 - 1, -33, by norm_num, by norm_num, by norm_num, lt_of_lt_of_le (by norm_num) hmax⟩
  have hxle : x ≤ 1 - 1 / 2 ^ 33 := by
    refine Double.round_le_onGrid hquot hxgrid ?_ hx
    have hcast : (h : ℚ) + 1 ≤ uint32Max := by exact_mod_cast hlt
    rw [cast_uint32Max] at hcast ⊢
    linarith
  have hbgrid : Double.OnGrid (100 - 1 / 2 ^ 27) :=
    ⟨100 * 2 ^ 27 - 1, -27, by norm_num, by norm_num, by norm_num,
      lt_of_lt_of_le (by norm_num) hmax⟩
  exact Double.round_le_onGrid (by positivity) hbgrid (by linarith) hb

/-- Buckets in doubles. -/
def Scale.binary64 : Scale where
  bucket h := (doubleBucket h).getD 0
  nonneg h hle := by
    obtain ⟨b, hb, hb0, -⟩ := doubleBucket_spec hle
    rwa [hb]
  lt_full h hlt := by
    obtain ⟨b, hb, -, hb1⟩ := doubleBucket_spec hlt.le
    rw [hb, Option.getD_some]
    linarith [hb1 hlt]
  full := by decide +kernel

/-! ## Hashes are 32 bits wide -/

lemma hashStep_le (h byte : ℕ) : Python.hashStep h byte ≤ uint32Max := Nat.and_le_right

lemma foldl_hashStep_le (bytes : List ℕ) (hle : h ≤ uint32Max) :
    bytes.foldl Python.hashStep h ≤ uint32Max := by
  induction bytes generalizing h with
  | nil => exact hle
  | cons byte bytes ih => exact ih (hashStep_le h byte)

/-- The two languages that evaluate flags. -/
def Runtime.IsLanguage (R : Runtime) : Prop :=
  R = .python ∨ ∃ textEncoder, R = .javascript textEncoder

lemma Runtime.IsLanguage.hash_le {R : Runtime} (hR : R.IsLanguage) {key salt unit : Text}
    (hh : R.hash key salt unit = some h) : h ≤ uint32Max := by
  have hbasis : fnvOffsetBasis ≤ uint32Max := by decide
  rcases hR with rfl | ⟨textEncoder, rfl⟩
  · obtain ⟨bytes, -, rfl⟩ := Option.map_eq_some_iff.1 hh
    exact foldl_hashStep_le bytes hbasis
  · obtain rfl := Option.some.inj hh
    have hstep : JavaScript.hashStep = Python.hashStep := by
      funext a b
      exact (hashStep_eq a b).symm
    rw [JavaScript.hashBucket, hstep]
    exact foldl_hashStep_le _ hbasis

/-! ## The two decisions -/

section Decisions

variable (S : Scale) (R : Runtime)

def rolloutSalt (f : ClientFlagConfig) : Text := f.salt ++ Text.ofString ":rollout"

/-- `_apply_rollout` on a scale. -/
def applyRolloutOn (f : ClientFlagConfig) (rollout : RolloutConfig) (ctx : EvalContext) :
    Option RolloutResult :=
  if unitId R ctx rollout.bucketBy = [] then
    some ⟨false, none, rollout.percentage, rollout.bucketBy⟩
  else
    (R.hash f.key (rolloutSalt f) (unitId R ctx rollout.bucketBy)).map fun h =>
      ⟨decide (S.bucket h < rollout.percentage), some (S.bucket h), rollout.percentage,
        rollout.bucketBy⟩

/-- `is_in_rollout` and `isInRollout`; `none` when the hash raises. -/
def isInRollout (key salt unit : Text) (percentage : ℚ) : Option Bool :=
  if 100 ≤ percentage then some true
  else if percentage ≤ 0 then some false
  else (R.hash key salt unit).map fun h => decide (S.bucket h < percentage)

/-- The hash of the unit that a rollout buckets by; `none` without a unit. -/
def rolloutHash (f : ClientFlagConfig) (rollout : RolloutConfig) (ctx : EvalContext) : Option ℕ :=
  if unitId R ctx rollout.bucketBy = [] then none
  else R.hash f.key (rolloutSalt f) (unitId R ctx rollout.bucketBy)

/-- The laws of a rollout: 100 percent passes, 0 percent does not, and `is_in_rollout` says the
same. -/
def RolloutLaws (f : ClientFlagConfig) (rollout : RolloutConfig) (ctx : EvalContext) : Prop :=
  ∃ r, applyRolloutOn S R f rollout ctx = some r ∧
    (rollout.percentage = 100 → r.passed = true) ∧ (rollout.percentage = 0 → r.passed = false) ∧
    isInRollout S R f.key (rolloutSalt f) (unitId R ctx rollout.bucketBy) rollout.percentage =
      some r.passed

end Decisions

variable {S : Scale} {R : Runtime} {f f' : ClientFlagConfig} {rollout : RolloutConfig}
  {ctx : EvalContext} {hash : ℕ}

lemma applyRolloutOn_of_hash (h : rolloutHash R f rollout ctx = some hash) :
    applyRolloutOn S R f rollout ctx =
      some ⟨decide (S.bucket hash < rollout.percentage), some (S.bucket hash), rollout.percentage,
        rollout.bucketBy⟩ := by
  unfold rolloutHash at h
  unfold applyRolloutOn
  split_ifs at h ⊢ with hunit
  rw [h, Option.map_some]

lemma isInRollout_of_hash (h : rolloutHash R f rollout ctx = some hash) (percentage : ℚ) :
    isInRollout S R f.key (rolloutSalt f) (unitId R ctx rollout.bucketBy) percentage =
      some (decide (100 ≤ percentage ∨ 0 < percentage ∧ S.bucket hash < percentage)) := by
  unfold rolloutHash at h
  unfold isInRollout
  split_ifs at h with hunit
  rw [h]
  split_ifs with hfull hzero
  · simp [hfull]
  · simp [hfull, hzero]
  · simp [hfull, not_le.1 hzero]

lemma bucket_lt_iff (hle : hash ≤ uint32Max) (percentage : ℚ) :
    (S.bucket hash < percentage ↔
        100 ≤ percentage ∨ 0 < percentage ∧ S.bucket hash < percentage) ↔
      ¬ (percentage = 100 ∧ hash = uint32Max) := by
  have hnonneg := S.nonneg hash hle
  constructor
  · rintro hiff ⟨rfl, rfl⟩
    have hlt := hiff.2 (.inl le_rfl)
    rw [S.full] at hlt
    exact lt_irrefl _ hlt
  · intro hends
    constructor
    · intro hlt
      exact .inr ⟨lt_of_le_of_lt hnonneg hlt, hlt⟩
    · rintro (hfull | ⟨-, hlt⟩)
      · rcases lt_or_eq_of_le hle with hhash | rfl
        · exact lt_of_lt_of_le (S.lt_full hash hhash) hfull
        · rw [S.full]
          exact lt_of_le_of_ne hfull fun heq => hends ⟨heq.symm, rfl⟩
      · exact hlt

lemma rolloutLaws_of_hash (h : rolloutHash R f rollout ctx = some hash) (hle : hash ≤ uint32Max) :
    RolloutLaws S R f rollout ctx ↔ ¬ (rollout.percentage = 100 ∧ hash = uint32Max) := by
  have hiff := bucket_lt_iff (S := S) hle rollout.percentage
  unfold RolloutLaws
  rw [applyRolloutOn_of_hash h, isInRollout_of_hash h]
  constructor
  · rintro ⟨r, hr, -, -, hagree⟩
    obtain rfl := Option.some.inj hr
    exact hiff.1 (decide_eq_decide.1 (Option.some.inj hagree)).symm
  · intro hends
    have hsame := hiff.2 hends
    refine ⟨_, rfl, fun hfull => ?_, fun hzero => ?_, ?_⟩
    · exact decide_eq_true (hsame.2 (.inl hfull.ge))
    · exact decide_eq_false (not_lt.2 (hzero ▸ S.nonneg hash hle))
    · exact congrArg some (decide_eq_decide.2 hsame.symm)

/-- **The laws of rollouts** hold, in the config service and in JavaScript, except for the one unit
hash whose bucket is 100, at 100 percent. -/
theorem rollout_laws_iff (S : Scale) (hR : R.IsLanguage)
    (h : rolloutHash R f rollout ctx = some hash) :
    RolloutLaws S R f rollout ctx ↔ ¬ (rollout.percentage = 100 ∧ hash = uint32Max) := by
  have hhash : R.hash f.key (rolloutSalt f) (unitId R ctx rollout.bucketBy) = some hash := by
    unfold rolloutHash at h
    split_ifs at h
    exact h
  exact rolloutLaws_of_hash h (hR.hash_le hhash)

/-- The laws hold for a user, in doubles. -/
theorem rollout_laws_iff_user : RolloutLaws .binary64 .python openFlag
    openFlag.fallthrough.rollout (userContext (Text.ofString "u1")) := by
  obtain ⟨hash, hhash, hne⟩ : ∃ hash, rolloutHash .python openFlag
      openFlag.fallthrough.rollout (userContext (Text.ofString "u1")) = some hash ∧
      hash ≠ uint32Max := by
    have hrun : (rolloutHash .python openFlag openFlag.fallthrough.rollout
        (userContext (Text.ofString "u1"))).map (fun h => decide (h ≠ uint32Max)) = some true := by
      decide +kernel
    obtain ⟨hash, hhash, hne⟩ := Option.map_eq_some_iff.1 hrun
    exact ⟨hash, hhash, of_decide_eq_true hne⟩
  exact (rollout_laws_iff .binary64 (.inl rfl) hhash).2 fun h => hne h.2

def greatestUser : Text := Text.ofString "user-1516132159"

/-- A flag at 100 percent does not pass for that user, in either language and on either scale, though
`is_in_rollout` says it does; the config service serves the default. -/
theorem full_rollout_excludes_greatest_hash :
    openFlag.validate = .ok () ∧ openFlag.fallthrough.rollout.percentage = 100 ∧
    (∀ R ∈ [Runtime.python, .javascript true, .javascript false], ∀ S ∈ [Scale.exact, .binary64],
      ¬ RolloutLaws S R openFlag openFlag.fallthrough.rollout (userContext greatestUser) ∧
      (applyRolloutOn S R openFlag openFlag.fallthrough.rollout
        (userContext greatestUser)).map RolloutResult.passed = some false ∧
      isInRollout S R openFlag.key (rolloutSalt openFlag) greatestUser 100 = some true) ∧
    (ConfigService.evaluate (some .active) openFlag (userContext greatestUser)).map
      (fun r => (r.reason, r.variant)) =
        some (.fallthroughRollout, some (Text.ofString "off")) := by
  refine ⟨by decide +kernel, rfl, ?_, by decide +kernel⟩
  intro R hmem S _
  have hhash : rolloutHash R openFlag openFlag.fallthrough.rollout
      (userContext greatestUser) = some uint32Max := by
    simp only [List.mem_cons, List.not_mem_nil, or_false] at hmem
    rcases hmem with rfl | rfl | rfl <;> decide +kernel
  refine ⟨fun hlaws => ?_, ?_, ?_⟩
  · exact (rolloutLaws_of_hash hhash le_rfl).1 hlaws ⟨rfl, rfl⟩
  · rw [applyRolloutOn_of_hash hhash, Option.map_some, S.full]
    rfl
  · exact if_pos le_rfl

/-! ## Raising a percentage -/

/-- A rollout with another percentage. -/
def withPercentage (rollout : RolloutConfig) (p : ℚ) : RolloutConfig :=
  { rollout with percentage := p }

/-- One rollout percentage of a flag is raised, that of a rule or that of the fallthrough. -/
inductive Raised (f : ClientFlagConfig) : ClientFlagConfig → Prop
  | rule {i : ℕ} {r : GateRule} {p : ℚ} (hr : f.rules[i]? = some r)
      (hraise : r.rollout.percentage ≤ p) (hmax : p ≤ 100) :
      Raised f { f with rules := f.rules.set i { r with rollout := withPercentage r.rollout p } }
  | fallthrough {p : ℚ} (hraise : f.fallthrough.rollout.percentage ≤ p) (hmax : p ≤ 100) :
      Raised f { f with fallthrough := ⟨withPercentage f.fallthrough.rollout p⟩ }

/-- A rollout differs from another at most by a percentage that is not lower. -/
structure RolloutLe (a b : RolloutConfig) : Prop where
  bucketBy : b.bucketBy = a.bucketBy
  percentage : a.percentage ≤ b.percentage
  bounded : a.validate = .ok () → b.validate = .ok ()

/-- Rules that differ at most by the percentages of their rollouts. -/
structure RuleLe (a b : GateRule) : Prop where
  id : b.id = a.id
  conditions : b.conditions = a.conditions
  rollout : RolloutLe a.rollout b.rollout

/-- Flags that differ at most by the percentages of their rollouts. -/
structure FlagLe (f f' : ClientFlagConfig) : Prop where
  rest : f' = { f with rules := f'.rules, fallthrough := f'.fallthrough }
  rules : List.Forall₂ RuleLe f.rules f'.rules
  fallthrough : RolloutLe f.fallthrough.rollout f'.fallthrough.rollout

lemma RolloutLe.refl (a : RolloutConfig) : RolloutLe a a := ⟨rfl, le_rfl, id⟩

lemma RuleLe.refl (a : GateRule) : RuleLe a a := ⟨rfl, rfl, .refl _⟩

lemma rolloutLe_withPercentage {p : ℚ} (hraise : rollout.percentage ≤ p) (hmax : p ≤ 100) :
    RolloutLe rollout (withPercentage rollout p) := by
  refine ⟨rfl, hraise, fun hval => ?_⟩
  simp only [RolloutConfig.validate, bind_eq_ok, ensure_eq_ok, Bool.and_eq_true,
    decide_eq_true_eq] at hval ⊢
  obtain ⟨_, ⟨hnonneg, -⟩, hid⟩ := hval
  exact ⟨(), ⟨le_trans hnonneg hraise, hmax⟩, hid⟩

lemma forall₂_set {α : Type} {rel : α → α → Prop} (hrefl : ∀ a, rel a a) {l : List α} {i : ℕ}
    {a b : α} (ha : l[i]? = some a) (hab : rel a b) : List.Forall₂ rel l (l.set i b) := by
  induction l generalizing i with
  | nil => exact .nil
  | cons c l ih =>
    cases i with
    | zero =>
      obtain rfl := Option.some.inj ha
      exact .cons hab (List.forall₂_same.2 fun x _ => hrefl x)
    | succ i => exact .cons (hrefl c) (ih ha)

lemma Raised.flagLe (h : Raised f f') : FlagLe f f' := by
  cases h with
  | rule hr hraise hmax =>
    exact ⟨rfl, forall₂_set RuleLe.refl hr ⟨rfl, rfl, rolloutLe_withPercentage hraise hmax⟩,
      .refl _⟩
  | fallthrough hraise hmax =>
    exact ⟨rfl, List.forall₂_same.2 fun r _ => .refl r, rolloutLe_withPercentage hraise hmax⟩

lemma find?_of_forall₂ {α : Type} {rel : α → α → Prop} {p : α → Bool} {l l' : List α}
    (h : List.Forall₂ rel l l') (hp : ∀ a b, rel a b → p b = p a) :
    Option.Rel rel (l.find? p) (l'.find? p) ∧ l'.findIdx? p = l.findIdx? p ∧ l'.all p = l.all p := by
  induction h with
  | nil => exact ⟨.none, rfl, rfl⟩
  | cons hab _ ih =>
    obtain ⟨hfind, hidx, hall⟩ := ih
    rw [List.find?_cons, List.find?_cons, List.findIdx?_cons, List.findIdx?_cons, List.all_cons,
      List.all_cons, hp _ _ hab, hidx, hall]
    refine ⟨?_, rfl, rfl⟩
    split
    · exact .some hab
    · exact hfind

lemma RuleLe.matchesRule {a b : GateRule} (h : RuleLe a b) (ctx : EvalContext) :
    ConfigService.matchesRule ctx b = ConfigService.matchesRule ctx a := by
  unfold ConfigService.matchesRule
  rw [h.conditions]

lemma FlagLe.rulesWithinLimits (h : FlagLe f f') (len : Text → ℕ) :
    ConfigService.rulesWithinLimits len f'.rules = ConfigService.rulesWithinLimits len f.rules := by
  unfold ConfigService.rulesWithinLimits
  rw [h.rules.length_eq, (find?_of_forall₂ h.rules fun a b hab => ?_).2.2]
  rw [hab.id, hab.conditions]

lemma FlagLe.canonical (h : FlagLe f f') (hf : ConfigService.canonicalEvaluationFlag f = .ok ()) :
    ConfigService.canonicalEvaluationFlag f' = .ok () := by
  simp only [ConfigService.canonicalEvaluationFlag, bind_eq_ok, all_eq_ok] at hf ⊢
  obtain ⟨_, hrules, _, hft, hweights⟩ := hf
  refine ⟨(), fun b hb => ?_, (), h.fallthrough.bounded hft, ?_⟩
  · obtain ⟨i, hi⟩ := List.mem_iff_getElem?.1 hb
    have hlen := h.rules.length_eq
    obtain ⟨hi', -⟩ := List.getElem?_eq_some_iff.1 hi
    have hrule : RuleLe f.rules[i] b := by
      have hget := h.rules.get (by omega : i < f.rules.length) hi'
      rwa [List.get_eq_getElem, List.get_eq_getElem, (List.getElem?_eq_some_iff.1 hi).2] at hget
    exact hrule.rollout.bounded (hrules _ (List.getElem_mem _))
  · rw [h.rest]
    exact hweights

lemma decideRollout_raised (h : FlagLe f f') {a b : RolloutConfig} (hab : RolloutLe a b)
    {ruleId : Option Text} {passed failed : Reason} {r : EvalResult}
    (hr : decideRollout R f ctx ruleId a passed failed = some r)
    (hpassed : r.reason ≠ .error) (hfailed : r.reason ≠ failed) :
    decideRollout R f' ctx ruleId b passed failed =
      some { r with rolloutPercentage := some b.percentage } := by
  have hassign : assignVariant R f' ctx b.bucketBy = assignVariant R f ctx a.bucketBy := by
    rw [h.rest, hab.bucketBy]
    rfl
  have hf' : f'.key = f.key ∧ f'.salt = f.salt ∧ f'.defaultVariant = f.defaultVariant ∧
      f'.version = f.version := by
    rw [h.rest]
    exact ⟨rfl, rfl, rfl, rfl⟩
  obtain ⟨hkey, hsalt, hdefault, hversion⟩ := hf'
  simp only [decideRollout, Option.bind_eq_bind, Option.bind_eq_some_iff] at hr ⊢
  obtain ⟨ro, hro, hr⟩ := hr
  unfold applyRollout at hro ⊢
  rw [hab.bucketBy, hkey, hsalt, hdefault, hversion]
  rw [hab.bucketBy] at hassign
  by_cases hunit : unitId R ctx a.bucketBy = []
  · rw [if_pos hunit] at hro
    obtain rfl := Option.some.inj hro
    simp only [Option.isNone_none, if_true, Option.some.injEq] at hr
    subst hr
    exact absurd rfl hpassed
  · rw [if_neg hunit] at hro
    obtain ⟨hash, hhash, rfl⟩ := Option.map_eq_some_iff.1 hro
    simp only [Option.isNone_some, Bool.false_eq_true, if_false, decide_eq_true_eq] at hr
    split_ifs at hr with hlt
    · obtain ⟨⟨variant, variantBucket⟩, hvariant, hr⟩ := Option.bind_eq_some_iff.1 hr
      have hlt' : percentageBucket hash < b.percentage := lt_of_lt_of_le hlt hab.percentage
      refine ⟨_, by rw [if_neg hunit, hhash, Option.map_some], ?_⟩
      simp only [Option.isNone_some, Bool.false_eq_true, if_false, decide_eq_true_eq, if_pos hlt',
        hassign, hvariant, Option.bind_some]
      obtain rfl := Option.some.inj hr
      rfl
    · obtain rfl := Option.some.inj hr
      exact absurd rfl hfailed

/-- **Raising a rollout percentage keeps every assignment**: the same place in the rules is selected,
and it assigns the same variant for the same reason. -/
theorem raised_keeps_assignment {state : Option FlagState} {r : EvalResult} (h : Raised f f')
    (hr : ConfigService.evaluate state f ctx = some r)
    (hreason : r.reason = .ruleMatch ∨ r.reason = .fallthrough) :
    f'.rules.findIdx? (ConfigService.matchesRule ctx) =
        f.rules.findIdx? (ConfigService.matchesRule ctx) ∧
      ∃ r', ConfigService.evaluate state f' ctx = some r' ∧ r'.variant = r.variant ∧
        r'.ruleId = r.ruleId ∧ r'.reason = r.reason := by
  have hle := h.flagLe
  obtain ⟨hfind, hidx, -⟩ := find?_of_forall₂ hle.rules fun a b hab => hab.matchesRule ctx
  refine ⟨hidx, ?_⟩
  unfold ConfigService.evaluate at hr ⊢
  split at hr
  · cases hr
    rcases hreason with h | h <;> cases h
  rename_i hcanonical
  rw [hle.canonical hcanonical]
  have henabled : f'.enabled = f.enabled := by rw [hle.rest]
  dsimp only
  rw [henabled, hle.rulesWithinLimits]
  split_ifs at hr ⊢
  · cases hr
    rcases hreason with h | h <;> cases h
  · cases hr
    rcases hreason with h | h <;> cases h
  · cases hr
    rcases hreason with h | h <;> cases h
  · suffices hserve : ∃ p, serve .python f' ctx (f'.rules.find? (ConfigService.matchesRule ctx)) =
        some { r with rolloutPercentage := p } by
      obtain ⟨p, hp⟩ := hserve
      exact ⟨_, hp, rfl, rfl, rfl⟩
    have hne : r.reason ≠ .error ∧ r.reason ≠ .ruleRollout ∧ r.reason ≠ .fallthroughRollout := by
      rcases hreason with h | h <;> rw [h] <;> decide
    generalize f.rules.find? (ConfigService.matchesRule ctx) = selected at hfind hr
    generalize f'.rules.find? (ConfigService.matchesRule ctx) = selected' at hfind
    cases hfind with
    | none => exact ⟨_, decideRollout_raised hle hle.fallthrough hr hne.1 hne.2.2⟩
    | some hrule =>
      unfold serve at hr ⊢
      dsimp only at hr ⊢
      rw [hrule.id]
      exact ⟨_, decideRollout_raised hle hrule.rollout hr hne.1 hne.2.1⟩

/-- The open flag at 95 percent. -/
def mostFlag : ClientFlagConfig :=
  { openFlag with fallthrough := ⟨⟨95, Text.ofString "user_id"⟩⟩ }

/-- A user whom 95 percent serve is served by 100. -/
theorem raised_keeps_assignment_most :
    ∃ r', ConfigService.evaluate none openFlag (userContext (Text.ofString "u1")) = some r' ∧
      r'.variant = some (Text.ofString "on") := by
  have hrun : (ConfigService.evaluate none mostFlag (userContext (Text.ofString "u1"))).map
      (fun r => (r.reason, r.variant)) = some (.fallthrough, some (Text.ofString "on")) := by
    decide +kernel
  obtain ⟨r, hr, heq⟩ := Option.map_eq_some_iff.1 hrun
  have hraised : Raised mostFlag openFlag :=
    .fallthrough (f := mostFlag) (p := 100) (by decide +kernel) le_rfl
  obtain ⟨-, r', hr', hvariant, -⟩ :=
    raised_keeps_assignment hraised hr (.inr (congrArg Prod.fst heq))
  exact ⟨r', hr', hvariant.trans (congrArg Prod.snd heq)⟩

end Apdl.Flags
