import Mathlib.Data.List.Basic

set_option autoImplicit false

/-!
# Strings as sequences of UTF-16 code units

Text that crosses between runtimes is a sequence of UTF-16 code units, which is how one runtime
stores it; another stores its code points, a surrogate pair counting as one. Unpaired surrogates
are code points of their own.

## Main results

* `Text.codePoints_append_cons` — a unit that is no surrogate separates the text before it from the
  text after it.
-/

abbrev CodeUnit := UInt16

/-- A sequence of UTF-16 code units. -/
abbrev Text := List CodeUnit

instance Text.lawfulBEq : LawfulBEq Text := inferInstance

instance Text.lawfulBEqProd : LawfulBEq (Text × Text) := inferInstance

namespace CodeUnit

/-- A high (leading) surrogate, `D800` to `DBFF`. -/
def isHigh (u : CodeUnit) : Bool := decide (0xD800 ≤ u.toNat) && decide (u.toNat ≤ 0xDBFF)

/-- A low (trailing) surrogate, `DC00` to `DFFF`. -/
def isLow (u : CodeUnit) : Bool := decide (0xDC00 ≤ u.toNat) && decide (u.toNat ≤ 0xDFFF)

/-- The code point of a surrogate pair. -/
def combine (hi lo : CodeUnit) : ℕ := 0x10000 + (hi.toNat - 0xD800) * 0x400 + (lo.toNat - 0xDC00)

end CodeUnit

namespace Text

/-- What holds of all units of a text is decided by running through the text, not through all
units there are. -/
instance decidableForallMem {p : CodeUnit → Prop} [DecidablePred p] (t : Text) :
    Decidable (∀ u ∈ t, p u) := List.decidableBAll p t

def unitLength (t : Text) : ℕ := List.length t

/-- The code points: surrogate pairs are joined, every other unit stands for itself. -/
def codePoints : Text → List ℕ
  | [] => []
  | [u] => [u.toNat]
  | u :: v :: rest =>
    if u.isHigh && v.isLow then CodeUnit.combine u v :: codePoints rest
    else u.toNat :: codePoints (v :: rest)

/-- The length in code points. -/
def length (t : Text) : ℕ := (codePoints t).length

/-- The code units of a scalar value. -/
def encodeScalar (c : ℕ) : List CodeUnit :=
  if c < 0x10000 then [UInt16.ofNat c]
  else
    [UInt16.ofNat (0xD800 + (c - 0x10000) / 0x400), UInt16.ofNat (0xDC00 + (c - 0x10000) % 0x400)]

def ofString (s : String) : Text := s.toList.flatMap fun c => encodeScalar c.toNat

@[simp] lemma codePoints_nil : codePoints [] = [] := rfl

lemma length_le_unitLength (t : Text) : t.length ≤ t.unitLength := by
  unfold length unitLength
  induction t using codePoints.induct with
  | case1 => simp [codePoints]
  | case2 u => simp [codePoints]
  | case3 u v rest hpair ih =>
    simp only [codePoints, hpair, if_true, List.length_cons]
    omega
  | case4 u v rest hpair ih =>
    simp only [codePoints, hpair, List.length_cons] at ih ⊢
    simp only [Bool.false_eq_true, if_false, List.length_cons]
    omega

lemma unitLength_le (t : Text) : t.unitLength ≤ 2 * t.length := by
  unfold length unitLength
  induction t using codePoints.induct with
  | case1 => simp [codePoints]
  | case2 u => simp [codePoints]
  | case3 u v rest hpair ih =>
    simp only [codePoints, hpair, if_true, List.length_cons]
    omega
  | case4 u v rest hpair ih =>
    simp only [codePoints, hpair, List.length_cons] at ih ⊢
    simp only [Bool.false_eq_true, if_false, List.length_cons]
    omega

lemma codePoints_cons {u : CodeUnit} (hu : u.isHigh = false) (t : Text) :
    codePoints (u :: t) = u.toNat :: codePoints t := by
  cases t with
  | nil => rfl
  | cons v rest => simp [codePoints, hu]

lemma codePoints_append_cons {u : CodeUnit} (hhigh : u.isHigh = false) (hlow : u.isLow = false)
    (a b : Text) : codePoints (a ++ u :: b) = codePoints a ++ u.toNat :: codePoints b := by
  induction a using codePoints.induct with
  | case1 => simp [codePoints_cons hhigh]
  | case2 v =>
    have hpair : ¬ (v.isHigh && u.isLow) = true := by simp [hlow]
    simp [codePoints, hpair, codePoints_cons hhigh]
  | case3 v w rest hpair ih => simp only [List.cons_append, codePoints, hpair, if_true, ih]
  | case4 v w rest hpair ih =>
    simp only [List.cons_append, codePoints, hpair] at ih ⊢
    simp [ih]

lemma encode_codePoints (t : Text) : (codePoints t).flatMap encodeScalar = t := by
  have hunit : ∀ u : CodeUnit, encodeScalar u.toNat = [u] := by
    intro u
    rw [encodeScalar, if_pos u.toNat_lt, UInt16.ofNat_toNat]
  induction t using codePoints.induct with
  | case1 => rfl
  | case2 u => simp [codePoints, hunit]
  | case3 u v rest hpair ih =>
    have hcombine : encodeScalar (CodeUnit.combine u v) = [u, v] := by
      simp only [CodeUnit.isHigh, CodeUnit.isLow, Bool.and_eq_true, decide_eq_true_eq] at hpair
      obtain ⟨⟨hu, hu'⟩, hv, hv'⟩ := hpair
      have hhigh : 0xD800 + (CodeUnit.combine u v - 0x10000) / 0x400 = u.toNat := by
        unfold CodeUnit.combine
        omega
      have hlow : 0xDC00 + (CodeUnit.combine u v - 0x10000) % 0x400 = v.toNat := by
        unfold CodeUnit.combine
        omega
      have hlarge : ¬ CodeUnit.combine u v < 0x10000 := by
        unfold CodeUnit.combine
        omega
      rw [encodeScalar, if_neg hlarge, hhigh, hlow, UInt16.ofNat_toNat, UInt16.ofNat_toNat]
    simp only [codePoints, hpair, if_true, List.flatMap_cons, hcombine, ih, List.cons_append,
      List.nil_append]
  | case4 u v rest hpair ih =>
    simp only [codePoints, hpair] at ih ⊢
    simp [hunit, ih]

lemma codePoints_injective : Function.Injective codePoints :=
  Function.LeftInverse.injective encode_codePoints

lemma length_eq_zero {t : Text} : t.length = 0 ↔ t = [] := by
  constructor
  · intro h
    have := unitLength_le t
    exact List.length_eq_zero_iff.1 (by unfold unitLength at this; omega)
  · rintro rfl
    rfl

end Text
