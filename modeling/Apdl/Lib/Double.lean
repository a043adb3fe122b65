import Mathlib.Algebra.Group.Nat.Defs
import Mathlib.Data.Rat.Defs
import Mathlib.Data.Nat.Log

set_option autoImplicit false

/-!
# Rounding to IEEE 754 binary64

Numbers are exact rationals; `Double.round` is the nearest binary64 value, ties to even, which is
what decimal literals and integer conversions give in every conforming runtime.

## Main definitions

* `Double.round` — the nearest finite double, `none` on overflow.
-/

namespace Double

/-- The nearest integer to a nonnegative rational `n / d`, ties to even. -/
def roundHalfEven (n d : ℕ) : ℕ :=
  let q := n / d
  let r := n % d
  if 2 * r < d then q
  else if d < 2 * r then q + 1
  else if q % 2 = 0 then q else q + 1

/-- The exponent `e` with `2 ^ e ≤ n / d < 2 ^ (e + 1)`, for positive `n` and `d`. -/
def exponent (n d : ℕ) : ℤ :=
  let e : ℤ := (Nat.log 2 n : ℤ) - Nat.log 2 d
  -- the logarithms give `e` up to one
  if 0 ≤ e then (if n < d * 2 ^ e.toNat then e - 1 else e)
  else (if n * 2 ^ (-e).toNat < d then e - 1 else e)

/-- The magnitude of the nearest double to `n / d`, `none` when it is not finite. -/
def roundMagnitude (n d : ℕ) : Option ℚ :=
  if n = 0 then some 0
  else
    -- the unit in the last place: 53 significant bits, bounded below by the subnormal one
    let ulp : ℤ := max (exponent n d - 52) (-1074)
    let m : ℕ :=
      if 0 ≤ ulp then roundHalfEven n (d * 2 ^ ulp.toNat)
      else roundHalfEven (n * 2 ^ (-ulp).toNat) d
    let value : ℚ := if 0 ≤ ulp then (m : ℚ) * 2 ^ ulp.toNat else (m : ℚ) / 2 ^ (-ulp).toNat
    if value < 2 ^ 1024 then some value else none

/-- The nearest double, ties to even; `none` when the magnitude rounds to infinity. -/
def round (q : ℚ) : Option ℚ :=
  (roundMagnitude q.num.natAbs q.den).map fun m => if q < 0 then -m else m

end Double
