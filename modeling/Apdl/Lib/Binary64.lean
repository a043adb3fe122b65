import Apdl.Lib.Double
import Mathlib.Algebra.Order.Field.Basic
import Mathlib.Algebra.Order.Field.Power
import Mathlib.Data.Rat.Cast.Order
import Mathlib.Tactic.FieldSimp
import Mathlib.Tactic.Linarith
import Mathlib.Tactic.Positivity
import Mathlib.Tactic.Ring

set_option autoImplicit false

/-!
# The grid of binary64 values

What `Double.round` does to the numbers that are doubles already, and to integers.

## Main results

* `Double.round_le_onGrid` — a number below a double is rounded to a number below it.
-/

namespace Double

lemma two_zpow_of_nonneg {e : ℤ} (h : 0 ≤ e) : (2 : ℚ) ^ e = 2 ^ e.toNat := by
  rw [← zpow_natCast, Int.toNat_of_nonneg h]

lemma two_zpow_of_neg {e : ℤ} (h : ¬ 0 ≤ e) : (2 : ℚ) ^ e = (2 ^ (-e).toNat)⁻¹ := by
  rw [← zpow_natCast, Int.toNat_of_nonneg (by omega), ← zpow_neg, neg_neg]

variable {n d k : ℕ}

lemma div_lt_zpow_iff (hd : d ≠ 0) (e : ℤ) : (n : ℚ) / d < 2 ^ e ↔
      if 0 ≤ e then n < d * 2 ^ e.toNat else n * 2 ^ (-e).toNat < d := by
  have hdq : (0 : ℚ) < d := by exact_mod_cast Nat.pos_of_ne_zero hd
  rw [div_lt_iff₀ hdq]
  by_cases h : 0 ≤ e
  · rw [if_pos h, two_zpow_of_nonneg h, mul_comm]
    exact_mod_cast Iff.rfl
  · rw [if_neg h, two_zpow_of_neg h, inv_mul_eq_div, lt_div_iff₀ (by positivity)]
    exact_mod_cast Iff.rfl

lemma exponent_spec (hn : n ≠ 0) (hd : d ≠ 0) :
    (2 : ℚ) ^ exponent n d ≤ (n : ℚ) / d ∧ (n : ℚ) / d < 2 ^ (exponent n d + 1) := by
  have hdq : (0 : ℚ) < d := by exact_mod_cast Nat.pos_of_ne_zero hd
  have hnlo : (2 : ℚ) ^ Nat.log 2 n ≤ n := by exact_mod_cast Nat.pow_log_le_self 2 hn
  have hnhi : (n : ℚ) < 2 ^ (Nat.log 2 n + 1) := by
    exact_mod_cast Nat.lt_pow_succ_log_self (by norm_num) n
  have hdlo : (2 : ℚ) ^ Nat.log 2 d ≤ d := by exact_mod_cast Nat.pow_log_le_self 2 hd
  have hdhi : (d : ℚ) < 2 ^ (Nat.log 2 d + 1) := by
    exact_mod_cast Nat.lt_pow_succ_log_self (by norm_num) d
  obtain ⟨e, he⟩ : ∃ e : ℤ, e = (Nat.log 2 n : ℤ) - Nat.log 2 d := ⟨_, rfl⟩
  -- the logarithms place the number in `[2 ^ (e - 1), 2 ^ (e + 1))`
  have hlo : (2 : ℚ) ^ (e - 1) ≤ (n : ℚ) / d := by
    rw [le_div_iff₀ hdq]
    calc (2 : ℚ) ^ (e - 1) * d ≤ 2 ^ (e - 1) * 2 ^ (Nat.log 2 d + 1) := by gcongr
      _ = 2 ^ Nat.log 2 n := by
        rw [← zpow_natCast, ← zpow_natCast, ← zpow_add₀ two_ne_zero, he]
        congr 1
        push_cast
        ring
      _ ≤ n := hnlo
  have hhi : (n : ℚ) / d < 2 ^ (e + 1) := by
    rw [div_lt_iff₀ hdq]
    calc (n : ℚ) < 2 ^ (Nat.log 2 n + 1) := hnhi
      _ = 2 ^ (e + 1) * 2 ^ Nat.log 2 d := by
        rw [← zpow_natCast, ← zpow_natCast, ← zpow_add₀ two_ne_zero, he]
        congr 1
        push_cast
        ring
      _ ≤ 2 ^ (e + 1) * d := by gcongr
  have hexp : exponent n d = if (n : ℚ) / d < 2 ^ e then e - 1 else e := by
    simp only [exponent, ← he, div_lt_zpow_iff hd e]
    by_cases h : 0 ≤ e <;> simp only [h, if_true, if_false]
  rw [hexp]
  by_cases hlt : (n : ℚ) / d < 2 ^ e
  · rw [if_pos hlt]
    exact ⟨hlo, by simpa using hlt⟩
  · rw [if_neg hlt]
    exact ⟨not_lt.1 hlt, hhi⟩

lemma le_exponent (hn : n ≠ 0) (hd : d ≠ 0) {k : ℤ} (h : (2 : ℚ) ^ k ≤ (n : ℚ) / d) :
    k ≤ exponent n d := by
  have hlt := lt_of_le_of_lt h (exponent_spec hn hd).2
  have := (zpow_lt_zpow_iff_right₀ (by norm_num : (1 : ℚ) < 2)).1 hlt
  omega

lemma exponent_lt (hn : n ≠ 0) (hd : d ≠ 0) {k : ℤ} (h : (n : ℚ) / d < 2 ^ k) :
    exponent n d < k :=
  (zpow_lt_zpow_iff_right₀ (by norm_num : (1 : ℚ) < 2)).1
    (lt_of_le_of_lt (exponent_spec hn hd).1 h)

/-! ## The rounded mantissa -/

lemma le_roundHalfEven (hd : 0 < d) (h : k * d ≤ n) : k ≤ roundHalfEven n d := by
  have hq : k ≤ n / d := (Nat.le_div_iff_mul_le hd).2 h
  unfold roundHalfEven
  dsimp only
  split_ifs <;> omega

lemma roundHalfEven_le (hd : 0 < d) (h : n ≤ k * d) : roundHalfEven n d ≤ k := by
  have hdm := Nat.div_add_mod n d
  have hmod := Nat.mod_lt n hd
  have hq : n / d ≤ k := Nat.div_le_of_le_mul (by rw [mul_comm]; exact h)
  rcases Nat.lt_or_eq_of_le hq with hlt | heq
  · unfold roundHalfEven
    dsimp only
    split_ifs <;> omega
  · have hr : n % d = 0 := by
      rw [heq, mul_comm] at hdm
      omega
    unfold roundHalfEven
    simp [hr, heq, hd]

/-- The unit in the last place that a number is rounded to. -/
def ulp (n d : ℕ) : ℤ := max (exponent n d - 52) (-1074)

/-- The number in units of the last place, rounded to an integer. -/
def mantissa (n d : ℕ) : ℕ :=
  if 0 ≤ ulp n d then roundHalfEven n (d * 2 ^ (ulp n d).toNat)
  else roundHalfEven (n * 2 ^ (-ulp n d).toNat) d

lemma roundMagnitude_eq (hn : n ≠ 0) :
    roundMagnitude n d =
      if (mantissa n d : ℚ) * 2 ^ ulp n d < 2 ^ 1024 then some ((mantissa n d : ℚ) * 2 ^ ulp n d)
      else none := by
  have hvalue : (mantissa n d : ℚ) * 2 ^ ulp n d =
      if 0 ≤ ulp n d then (mantissa n d : ℚ) * 2 ^ (ulp n d).toNat
      else (mantissa n d : ℚ) / 2 ^ (-ulp n d).toNat := by
    by_cases h : 0 ≤ ulp n d
    · rw [if_pos h, two_zpow_of_nonneg h]
    · rw [if_neg h, two_zpow_of_neg h, div_eq_mul_inv]
  rw [hvalue]
  unfold roundMagnitude
  rw [if_neg hn]
  rfl

lemma le_mantissa (hd : d ≠ 0) (h : (k : ℚ) * 2 ^ ulp n d ≤ (n : ℚ) / d) :
    k ≤ mantissa n d := by
  have hdq : (0 : ℚ) < d := by exact_mod_cast Nat.pos_of_ne_zero hd
  rw [le_div_iff₀ hdq] at h
  unfold mantissa
  by_cases h0 : 0 ≤ ulp n d
  · rw [if_pos h0]
    refine le_roundHalfEven (by positivity) ?_
    rw [two_zpow_of_nonneg h0, mul_assoc, mul_comm (2 ^ _ : ℚ)] at h
    exact_mod_cast h
  · rw [if_neg h0]
    refine le_roundHalfEven (Nat.pos_of_ne_zero hd) ?_
    rw [two_zpow_of_neg h0, mul_right_comm, ← div_eq_mul_inv, div_le_iff₀ (by positivity)] at h
    exact_mod_cast h

lemma mantissa_le (hd : d ≠ 0) (h : (n : ℚ) / d ≤ (k : ℚ) * 2 ^ ulp n d) :
    mantissa n d ≤ k := by
  have hdq : (0 : ℚ) < d := by exact_mod_cast Nat.pos_of_ne_zero hd
  rw [div_le_iff₀ hdq] at h
  unfold mantissa
  by_cases h0 : 0 ≤ ulp n d
  · rw [if_pos h0]
    refine roundHalfEven_le (by positivity) ?_
    rw [two_zpow_of_nonneg h0, mul_assoc, mul_comm (2 ^ _ : ℚ)] at h
    exact_mod_cast h
  · rw [if_neg h0]
    refine roundHalfEven_le (Nat.pos_of_ne_zero hd) ?_
    rw [two_zpow_of_neg h0, mul_right_comm, ← div_eq_mul_inv, le_div_iff₀ (by positivity)] at h
    exact_mod_cast h

lemma mantissa_le_two_pow (hn : n ≠ 0) (hd : d ≠ 0) : mantissa n d ≤ 2 ^ 53 := by
  refine mantissa_le hd (le_trans (exponent_spec hn hd).2.le ?_)
  have hcast : ((2 ^ 53 : ℕ) : ℚ) = (2 : ℚ) ^ (53 : ℤ) := by norm_num
  rw [hcast, ← zpow_add₀ two_ne_zero]
  refine zpow_le_zpow_right₀ (by norm_num) ?_
  unfold ulp
  omega

/-! ## The grid -/

/-- A magnitude of at most 53 bits that is a multiple of the subnormal unit and finite. -/
def OnGrid (x : ℚ) : Prop := ∃ (m : ℕ) (t : ℤ), m ≤ 2 ^ 53 ∧ -1074 ≤ t ∧ x = m * 2 ^ t ∧ x < 2 ^ 1024

variable {x q r : ℚ}

lemma onGrid_of_roundMagnitude (hd : d ≠ 0) (h : roundMagnitude n d = some x) :
    OnGrid x := by
  by_cases hn : n = 0
  · obtain rfl : 0 = x := by simpa [roundMagnitude, hn] using h
    exact ⟨0, 0, by norm_num, by norm_num, by norm_num, by norm_num⟩
  · rw [roundMagnitude_eq hn] at h
    split_ifs at h with hlt
    obtain rfl := Option.some.inj h
    exact ⟨mantissa n d, ulp n d, mantissa_le_two_pow hn hd, le_max_right _ _, rfl, hlt⟩

lemma OnGrid.lt (h : OnGrid x) :
    ∃ (m : ℕ) (t : ℤ), m < 2 ^ 53 ∧ -1074 ≤ t ∧ x = m * 2 ^ t ∧ x < 2 ^ 1024 := by
  obtain ⟨m, t, hm, ht, hx, hlt⟩ := h
  rcases Nat.lt_or_eq_of_le hm with hm | rfl
  · exact ⟨m, t, hm, ht, hx, hlt⟩
  · refine ⟨2 ^ 52, t + 1, by norm_num, by omega, ?_, hlt⟩
    rw [hx, zpow_add_one₀ two_ne_zero]
    push_cast
    ring

lemma roundMagnitude_onGrid (hd : d ≠ 0) (h : OnGrid ((n : ℚ) / d)) :
    roundMagnitude n d = some ((n : ℚ) / d) := by
  by_cases hn : n = 0
  · simp [roundMagnitude, hn]
  obtain ⟨m, t, hm, ht, hx, hlt⟩ := h.lt
  -- the unit divides the number, since 53 bits suffice for it
  have hexp : exponent n d < t + 53 := by
    refine exponent_lt hn hd ?_
    rw [hx, add_comm, zpow_add₀ two_ne_zero]
    gcongr
    exact_mod_cast hm
  have hulp : ulp n d ≤ t := by
    unfold ulp
    omega
  have hscaled : (n : ℚ) / d = ((m * 2 ^ (t - ulp n d).toNat : ℕ) : ℚ) * 2 ^ ulp n d := by
    rw [hx]
    push_cast
    rw [mul_assoc, ← two_zpow_of_nonneg (by omega), ← zpow_add₀ two_ne_zero, sub_add_cancel]
  have hmant : mantissa n d = m * 2 ^ (t - ulp n d).toNat :=
    le_antisymm (mantissa_le hd hscaled.le) (le_mantissa hd hscaled.ge)
  rw [roundMagnitude_eq hn, hmant, ← hscaled, if_pos hlt]

/-! ## Rounding -/

lemma abs_eq_div (q : ℚ) : |q| = (q.num.natAbs : ℚ) / q.den := by
  conv_lhs => rw [← Rat.num_div_den q]
  rw [abs_div, Nat.abs_cast, Nat.cast_natAbs, Int.cast_abs]

theorem round_onGrid (h : OnGrid |q|) : round q = some q := by
  rw [abs_eq_div] at h
  unfold round
  rw [roundMagnitude_onGrid q.den_ne_zero h, ← abs_eq_div, Option.map_some]
  by_cases hq : q < 0
  · rw [if_pos hq, abs_of_neg hq, neg_neg]
  · rw [if_neg hq, abs_of_nonneg (not_lt.1 hq)]

lemma onGrid_abs_of_round (h : round q = some r) : OnGrid |r| := by
  unfold round at h
  obtain ⟨x, hx, hr⟩ := Option.map_eq_some_iff.1 h
  have hgrid := onGrid_of_roundMagnitude q.den_ne_zero hx
  have hnonneg : 0 ≤ x := by
    obtain ⟨m, t, -, -, hxm, -⟩ := hgrid
    rw [hxm]
    positivity
  have habs : |r| = x := by
    rw [← hr]
    split_ifs
    · rw [abs_neg, abs_of_nonneg hnonneg]
    · exact abs_of_nonneg hnonneg
  rw [habs]
  exact hgrid

theorem round_round (h : round q = some r) : round r = some r :=
  round_onGrid (onGrid_abs_of_round h)

theorem round_nonneg (hq : 0 ≤ q) (h : round q = some r) : 0 ≤ r := by
  unfold round at h
  obtain ⟨m, hm, rfl⟩ := Option.map_eq_some_iff.1 h
  rw [if_neg (not_lt.2 hq)]
  obtain ⟨k, t, -, -, rfl, -⟩ := onGrid_of_roundMagnitude q.den_ne_zero hm
  positivity

theorem round_neg (q : ℚ) : round (-q) = (round q).map Neg.neg := by
  unfold round
  rw [Rat.neg_num, Rat.neg_den, Int.natAbs_neg, Option.map_map]
  by_cases hzero : q = 0
  · subst hzero
    simp [roundMagnitude]
  refine Option.map_congr fun x _ => ?_
  rcases lt_or_gt_of_ne hzero with hneg | hpos
  · rw [if_neg (by linarith), Function.comp_apply, if_pos hneg, neg_neg]
  · rw [if_pos (by linarith), Function.comp_apply, if_neg (by linarith)]

/-! ## Integers -/

variable {z : ℤ}

theorem round_intCast (h : z.natAbs ≤ 2 ^ 53) : round z = some (z : ℚ) := by
  refine round_onGrid ⟨z.natAbs, 0, h, by norm_num, ?_, ?_⟩
  · rw [zpow_zero, mul_one, Nat.cast_natAbs, Int.cast_abs]
  · have hle : ((z.natAbs : ℕ) : ℚ) ≤ 2 ^ 53 := by exact_mod_cast h
    rw [← Int.cast_abs, ← Nat.cast_natAbs]
    calc ((z.natAbs : ℕ) : ℚ) ≤ 2 ^ 53 := hle
      _ < 2 ^ 1024 := pow_lt_pow_right₀ (by norm_num) (by norm_num)

lemma two_zpow_le_roundMagnitude (hn : n ≠ 0) (hd : d ≠ 0) {k : ℤ} (hk : -1022 ≤ k)
    (h : (2 : ℚ) ^ k ≤ (n : ℚ) / d) (hx : roundMagnitude n d = some x) :
    (2 : ℚ) ^ k ≤ x := by
  have hexp := le_exponent hn hd h
  have hulp : ulp n d = exponent n d - 52 := by
    unfold ulp
    omega
  have hmant : 2 ^ 52 ≤ mantissa n d := by
    refine le_mantissa hd ?_
    have hcast : ((2 ^ 52 : ℕ) : ℚ) = (2 : ℚ) ^ (52 : ℤ) := by norm_num
    rw [hcast, ← zpow_add₀ two_ne_zero, hulp, add_sub_cancel]
    exact (exponent_spec hn hd).1
  rw [roundMagnitude_eq hn] at hx
  split_ifs at hx
  obtain rfl := Option.some.inj hx
  calc (2 : ℚ) ^ k ≤ 2 ^ exponent n d := zpow_le_zpow_right₀ (by norm_num) hexp
    _ = 2 ^ (52 : ℤ) * 2 ^ ulp n d := by rw [← zpow_add₀ two_ne_zero, hulp, add_sub_cancel]
    _ ≤ (mantissa n d : ℚ) * 2 ^ ulp n d := by
      gcongr
      exact_mod_cast hmant

theorem le_round_intCast (h : 2 ^ k ≤ z) (hr : round z = some r) :
    2 ^ k ≤ r := by
  have hpos : 0 < z := lt_of_lt_of_le (by positivity) h
  have hz : ¬ ((z : ℚ) < 0) := by exact_mod_cast not_lt.2 hpos.le
  unfold round at hr
  simp only [hz, if_false, Option.map_id'] at hr
  have habs : ((z : ℚ).num.natAbs : ℚ) / (z : ℚ).den = z := by
    rw [← abs_eq_div, abs_of_pos (by exact_mod_cast hpos)]
  have hk : (2 : ℚ) ^ (k : ℤ) ≤ r := by
    refine two_zpow_le_roundMagnitude ?_ (Rat.den_ne_zero _) (by omega) ?_ hr
    · simpa using hpos.ne'
    · rw [habs, zpow_natCast]
      exact_mod_cast h
  rwa [zpow_natCast] at hk

theorem round_intCast_le (h : z ≤ -2 ^ k) (hr : round z = some r) :
    r ≤ -2 ^ k := by
  have hneg : round ((-z : ℤ) : ℚ) = some (-r) := by
    rw [Int.cast_neg, round_neg, hr, Option.map_some]
  have := le_round_intCast (z := -z) (k := k) (by omega) hneg
  linarith

theorem exists_int_round (hr : round z = some r) : ∃ k : ℤ, r = k := by
  by_cases hsmall : z.natAbs ≤ 2 ^ 53
  · rw [round_intCast hsmall] at hr
    exact ⟨z, (Option.some.inj hr).symm⟩
  · have hn : (z : ℚ).num.natAbs ≠ 0 := by
      rw [Rat.num_intCast]
      omega
    unfold round at hr
    obtain ⟨x, hx, rfl⟩ := Option.map_eq_some_iff.1 hr
    rw [roundMagnitude_eq hn] at hx
    split_ifs at hx
    obtain rfl := Option.some.inj hx
    -- beyond 53 bits the unit is at least one
    have hulp : 0 ≤ ulp (z : ℚ).num.natAbs (z : ℚ).den := by
      have : (53 : ℤ) ≤ exponent (z : ℚ).num.natAbs (z : ℚ).den := by
        refine le_exponent hn (Rat.den_ne_zero _) ?_
        have hlarge : ((2 ^ 53 : ℕ) : ℚ) ≤ z.natAbs := by exact_mod_cast (not_le.1 hsmall).le
        rw [← abs_eq_div, ← Int.cast_abs, ← Nat.cast_natAbs]
        exact_mod_cast hlarge
      unfold ulp
      omega
    rw [two_zpow_of_nonneg hulp]
    split_ifs
    · exact ⟨-(mantissa _ _ * 2 ^ _ : ℕ), by push_cast; ring⟩
    · exact ⟨(mantissa _ _ * 2 ^ _ : ℕ), by push_cast; ring⟩

lemma mantissa_mul_le_onGrid (hn : n ≠ 0) (hd : d ≠ 0) {g : ℚ} (hg : OnGrid g)
    (h : (n : ℚ) / d ≤ g) : (mantissa n d : ℚ) * 2 ^ ulp n d ≤ g := by
  obtain ⟨m, t, hm, ht, rfl, -⟩ := hg.lt
  have hulp : ulp n d ≤ t := by
    -- a coarser unit would put the number above `2 ^ (t + 53)`
    by_contra hlt
    have hexp : t + 53 ≤ exponent n d := by
      unfold ulp at hlt
      omega
    have hlow : (2 : ℚ) ^ (t + 53) ≤ (n : ℚ) / d :=
      le_trans (zpow_le_zpow_right₀ (by norm_num) hexp) (exponent_spec hn hd).1
    have hhigh : (m : ℚ) * 2 ^ t < 2 ^ (t + 53) := by
      have hm' : (m : ℚ) < 2 ^ 53 := by exact_mod_cast hm
      calc (m : ℚ) * 2 ^ t < 2 ^ 53 * 2 ^ t := mul_lt_mul_of_pos_right hm' (by positivity)
        _ = 2 ^ (t + 53) := by rw [zpow_add₀ two_ne_zero, mul_comm]; norm_num
    exact absurd (le_trans hlow h) (not_le.2 hhigh)
  have hsplit : (m : ℚ) * 2 ^ t = ((m * 2 ^ (t - ulp n d).toNat : ℕ) : ℚ) * 2 ^ ulp n d := by
    push_cast
    rw [mul_assoc, ← two_zpow_of_nonneg (by omega : 0 ≤ t - ulp n d), ← zpow_add₀ two_ne_zero,
      sub_add_cancel]
  rw [hsplit] at h ⊢
  exact mul_le_mul_of_nonneg_right (by exact_mod_cast mantissa_le hd h) (by positivity)

theorem round_le_onGrid {g : ℚ} (hq : 0 ≤ q) (hg : OnGrid g) (h : q ≤ g)
    (hr : round q = some r) : r ≤ g := by
  unfold round at hr
  obtain ⟨x, hx, rfl⟩ := Option.map_eq_some_iff.1 hr
  rw [if_neg (not_lt.2 hq)]
  by_cases hn : q.num.natAbs = 0
  · obtain rfl : 0 = x := by simpa [roundMagnitude, hn] using hx
    exact le_trans hq h
  · rw [roundMagnitude_eq hn] at hx
    rw [← abs_of_nonneg hq, abs_eq_div] at h
    split_ifs at hx
    · obtain rfl := Option.some.inj hx
      exact mantissa_mul_le_onGrid hn q.den_ne_zero hg h

theorem exists_round_le (hk : k < 1024) (h : |q| ≤ 2 ^ k) :
    ∃ r, round q = some r ∧ |r| ≤ 2 ^ k := by
  have hmag : ∃ x, roundMagnitude q.num.natAbs q.den = some x ∧ 0 ≤ x ∧ x ≤ 2 ^ k := by
    by_cases hn : q.num.natAbs = 0
    · exact ⟨0, by simp [roundMagnitude, hn], le_refl 0, by positivity⟩
    · have hlt : (2 : ℚ) ^ k < 2 ^ 1024 := pow_lt_pow_right₀ (by norm_num) hk
      have hgrid : OnGrid ((2 : ℚ) ^ k) :=
        ⟨1, k, by norm_num, by omega, by rw [Nat.cast_one, one_mul, zpow_natCast], hlt⟩
      have hle := mantissa_mul_le_onGrid hn q.den_ne_zero hgrid (by rw [← abs_eq_div]; exact h)
      refine ⟨(mantissa q.num.natAbs q.den : ℚ) * 2 ^ ulp q.num.natAbs q.den, ?_, ?_, hle⟩
      · rw [roundMagnitude_eq hn, if_pos (lt_of_le_of_lt hle hlt)]
      · exact mul_nonneg (Nat.cast_nonneg _) (zpow_nonneg (by norm_num) _)
  obtain ⟨x, hx, hpos, hle⟩ := hmag
  refine ⟨if q < 0 then -x else x, by rw [round, hx]; rfl, ?_⟩
  split_ifs
  · rwa [abs_neg, abs_of_nonneg hpos]
  · rwa [abs_of_nonneg hpos]

end Double
