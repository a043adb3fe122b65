import Apdl.Lib.Binary64
import Apdl.Lib.Decimal

set_option autoImplicit false

/-!
# Numbers in JSON texts

How a number is written and how it is read back. An integer is written in decimal; a double is
written by the shortest decimal that is nearest to no other double, and of those by the closest.

## Main results

* `NumberLiteral.value_ofInt`, `NumberLiteral.value_ofMagnitude` — a number is written as a literal
  that denotes it.
-/

namespace JsonText

/-! ## Doubles -/

/-- The magnitude of a finite double. -/
structure Magnitude where
  value : ℚ
  nonneg : 0 ≤ value
  exact : Double.round value = some value

inductive PyDouble
  | finite (negative : Bool) (magnitude : Magnitude)
  | infinity (negative : Bool)
  | nan

namespace PyDouble

/-- The number of a decimal coefficient and exponent. -/
def decimal (coefficient : ℕ) (exponent : ℤ) : ℚ := coefficient * 10 ^ exponent

lemma decimal_nonneg (c : ℕ) (e : ℤ) : 0 ≤ decimal c e := by
  unfold decimal
  positivity

/-- The double that is nearest to a number, an infinity when none is. -/
def ofRational (negative : Bool) (q : ℚ) (hq : 0 ≤ q) : PyDouble :=
  match h : Double.round q with
  | some r => .finite negative ⟨r, Double.round_nonneg hq h, Double.round_round h⟩
  | none => .infinity negative

lemma ofRational_of_round {negative : Bool} {q : ℚ} (hq : 0 ≤ q) {m : Magnitude}
    (h : Double.round q = some m.value) : ofRational negative q hq = .finite negative m := by
  obtain ⟨value, hnonneg, hexact⟩ := m
  unfold ofRational
  split
  · next r hr =>
    obtain rfl := Option.some.inj (hr.symm.trans h)
    rfl
  · next hr =>
    rw [hr] at h
    cases h

end PyDouble

open PyDouble (decimal decimal_nonneg)

/-! ## Literals -/

def isDigit (u : CodeUnit) : Bool := decide (48 ≤ u.toNat) && decide (u.toNat ≤ 57)

lemma isDigit_iff {u : CodeUnit} : isDigit u = true ↔ 48 ≤ u.toNat ∧ u.toNat ≤ 57 := by
  simp [isDigit]

structure NumberLiteral where
  negative : Bool
  whole : Text
  fraction : Option Text
  exponent : Option (Bool × Text)

/-- What the reader and the writer raise. -/
inductive JsonError
  /-- `JSONDecodeError`. -/
  | decode
  /-- `ValueError`: an integer with too many digits. -/
  | intTooLong
  deriving DecidableEq

/-- A number that is read or written. -/
inductive PyNumber
  | int (n : ℤ)
  | double (x : PyDouble)

namespace NumberLiteral

def fractionText : Option Text → Text
  | none => []
  | some digits => 46 :: digits

/-- The exponent of a literal, written with its sign. -/
def exponentText : Option (Bool × Text) → Text
  | none => []
  | some (negative, digits) => 101 :: (if negative then 45 else 43) :: digits

/-- The text of a literal. -/
def write (l : NumberLiteral) : Text :=
  (if l.negative then [45] else []) ++
    (l.whole ++ (fractionText l.fraction ++ exponentText l.exponent))

def scanSign : Text → Bool × Text
  | [] => (false, [])
  | u :: t => if u = 45 then (true, t) else (false, u :: t)

/-- The digits before the point: a zero stands alone. -/
def scanWhole : Text → Option (Text × Text)
  | [] => none
  | u :: t =>
    if u = 48 then some ([48], t)
    else if isDigit u then some ((u :: t).takeWhile isDigit, (u :: t).dropWhile isDigit)
    else none

/-- The digits after the point; a point without a digit is not read. -/
def scanFraction : Text → Option Text × Text
  | u :: d :: t =>
    if u = 46 ∧ isDigit d = true then
      (some ((d :: t).takeWhile isDigit), (d :: t).dropWhile isDigit)
    else (none, u :: d :: t)
  | t => (none, t)

def scanExponentSign : Text → Bool × Text
  | [] => (false, [])
  | u :: t => if u = 45 then (true, t) else if u = 43 then (false, t) else (false, u :: t)

/-- The exponent; a mark without digits is not read. -/
def scanExponent : Text → Option (Bool × Text) × Text
  | [] => (none, [])
  | u :: t =>
    if (u = 101 ∨ u = 69) ∧ (scanExponentSign t).2.takeWhile isDigit ≠ [] then
      (some ((scanExponentSign t).1, (scanExponentSign t).2.takeWhile isDigit),
        (scanExponentSign t).2.dropWhile isDigit)
    else (none, u :: t)

/-- The longest literal that a text starts with, and the text after it. -/
def scan (t : Text) : Option (NumberLiteral × Text) :=
  (scanWhole (scanSign t).2).map fun found =>
    let fraction := scanFraction found.2
    let exponent := scanExponent fraction.2
    (⟨(scanSign t).1, found.1, fraction.1, exponent.1⟩, exponent.2)

/-- `sys.get_int_max_str_digits()`. -/
def maxDigits : ℕ := 4300

/-- The number of a sign and a magnitude. -/
def signed (negative : Bool) (n : ℕ) : ℤ := if negative then -n else n

def exponentValue : Option (Bool × Text) → ℤ
  | none => 0
  | some (negative, digits) => signed negative (Decimal.value digits)

/-- The magnitude of the number that a literal denotes. -/
def magnitude (l : NumberLiteral) : ℚ :=
  decimal (Decimal.value (l.whole ++ l.fraction.getD []))
    (exponentValue l.exponent - (l.fraction.getD []).unitLength)

lemma magnitude_nonneg (l : NumberLiteral) : 0 ≤ l.magnitude := decimal_nonneg _ _

/-- The double that a literal denotes. -/
def toDouble (l : NumberLiteral) : PyDouble := .ofRational l.negative l.magnitude l.magnitude_nonneg

/-- The number that a literal denotes: an integer when it has no fraction and no exponent. -/
def value (l : NumberLiteral) : Except JsonError PyNumber :=
  if l.fraction = none ∧ l.exponent = none then
    if maxDigits < l.whole.unitLength then .error .intTooLong
    else .ok (.int (signed l.negative (Decimal.value l.whole)))
  else .ok (.double l.toDouble)

/-! ## Reading back -/

/-- What the grammar asks of a literal. -/
structure WellFormed (l : NumberLiteral) : Prop where
  whole : l.whole = [48] ∨ ∃ u t, l.whole = u :: t ∧ u ≠ 48 ∧ Decimal.Digits (u :: t)
  fraction : ∀ digits, l.fraction = some digits → digits ≠ [] ∧ Decimal.Digits digits
  exponent : ∀ sign digits, l.exponent = some (sign, digits) → digits ≠ [] ∧ Decimal.Digits digits

/-- The text does not start with a digit. -/
def NoDigit (t : Text) : Prop := ∀ u t', t = u :: t' → isDigit u = false

/-- The text does not go on with a literal that stands before it. -/
structure Stops (t : Text) : Prop where
  noDigit : NoDigit t
  noExponent : ∀ u t', t = u :: t' → u ≠ 101 ∧ u ≠ 69
  noFraction : ∀ u d t', t = u :: d :: t' → u = 46 → isDigit d = false

variable {t : Text}

lemma takeWhile_digits {ds : Text} (h : Decimal.Digits ds) (ht : NoDigit t) :
    (ds ++ t).takeWhile isDigit = ds ∧ (ds ++ t).dropWhile isDigit = t := by
  have hall : ∀ u ∈ ds, isDigit u = true := fun u hu => isDigit_iff.2 (h u hu)
  have hrest : t.takeWhile isDigit = [] ∧ t.dropWhile isDigit = t := by
    cases t with
    | nil => exact ⟨rfl, rfl⟩
    | cons u t => simp [ht u t rfl]
  rw [List.takeWhile_append_of_pos hall, List.dropWhile_append_of_pos hall, hrest.1, hrest.2]
  simp

lemma scanExponent_write {e : Option (Bool × Text)}
    (h : ∀ sign digits, e = some (sign, digits) → digits ≠ [] ∧ Decimal.Digits digits)
    (ht : Stops t) : scanExponent (exponentText e ++ t) = (e, t) := by
  cases e with
  | none =>
    cases t with
    | nil => rfl
    | cons u t =>
      obtain ⟨h1, h2⟩ := ht.noExponent u t rfl
      simp [exponentText, scanExponent, h1, h2]
  | some parts =>
    obtain ⟨sign, digits⟩ := parts
    obtain ⟨hne, hdigits⟩ := h sign digits rfl
    obtain ⟨htake, hdrop⟩ := takeWhile_digits hdigits ht.noDigit
    have hsign : scanExponentSign ((if sign then 45 else 43) :: (digits ++ t)) = (sign, digits ++ t) := by
      cases sign <;> rfl
    show scanExponent (101 :: (if sign then 45 else 43) :: (digits ++ t)) = _
    rw [scanExponent, hsign, htake, hdrop, if_pos ⟨.inl rfl, hne⟩]

lemma noDigit_exponentText (e : Option (Bool × Text)) (ht : Stops t) :
    NoDigit (exponentText e ++ t) := by
  intro u t' h
  cases e with
  | none => exact ht.noDigit u t' h
  | some parts =>
    obtain ⟨rfl, -⟩ := List.cons.inj h
    decide

lemma scanFraction_write {f : Option Text}
    (h : ∀ digits, f = some digits → digits ≠ [] ∧ Decimal.Digits digits)
    (e : Option (Bool × Text)) (ht : Stops t) :
    scanFraction (fractionText f ++ (exponentText e ++ t)) = (f, exponentText e ++ t) := by
  cases f with
  | none =>
    cases e with
    | some parts => rfl
    | none =>
      show scanFraction t = (none, t)
      match t, ht with
      | [], _ => rfl
      | [u], _ => rfl
      | u :: d :: t, ht =>
        have hpoint := ht.noFraction u d t rfl
        rw [scanFraction, if_neg]
        rintro ⟨hu, hd⟩
        rw [hpoint hu] at hd
        cases hd
  | some digits =>
    obtain ⟨hne, hdigits⟩ := h digits rfl
    obtain ⟨htake, hdrop⟩ := takeWhile_digits hdigits (noDigit_exponentText e ht)
    obtain ⟨d, ds, rfl⟩ := List.exists_cons_of_ne_nil hne
    have hd : isDigit d = true := isDigit_iff.2 (hdigits d List.mem_cons_self)
    show scanFraction (46 :: d :: (ds ++ (exponentText e ++ t))) = _
    rw [scanFraction, if_pos ⟨rfl, hd⟩, ← List.cons_append, htake, hdrop]

lemma noDigit_fractionText (f : Option Text) (e : Option (Bool × Text)) (ht : Stops t) :
    NoDigit (fractionText f ++ (exponentText e ++ t)) := by
  cases f with
  | none => exact noDigit_exponentText e ht
  | some digits =>
    intro u t' h
    obtain ⟨rfl, -⟩ := List.cons.inj h
    decide

lemma scanWhole_write {w : Text}
    (h : w = [48] ∨ ∃ u t, w = u :: t ∧ u ≠ 48 ∧ Decimal.Digits (u :: t)) (ht : NoDigit t) :
    scanWhole (w ++ t) = some (w, t) := by
  rcases h with rfl | ⟨u, w, rfl, hu, hdigits⟩
  · rfl
  · obtain ⟨htake, hdrop⟩ := takeWhile_digits hdigits ht
    have hdigit : isDigit u = true := isDigit_iff.2 (hdigits u List.mem_cons_self)
    rw [List.cons_append, scanWhole, if_neg hu, if_pos hdigit, ← List.cons_append, htake, hdrop]

variable {l : NumberLiteral}

theorem scan_write (h : l.WellFormed) (ht : Stops t) :
    scan (l.write ++ t) = some (l, t) := by
  have hsign : scanSign (l.write ++ t) = (l.negative,
      l.whole ++ (fractionText l.fraction ++ (exponentText l.exponent ++ t))) := by
    obtain ⟨u, w, hw, hu⟩ : ∃ u w, l.whole = u :: w ∧ u ≠ 45 := by
      rcases h.whole with hw | ⟨u, w, hw, -, hdigits⟩
      · exact ⟨48, [], hw, by decide⟩
      · refine ⟨u, w, hw, ?_⟩
        rintro rfl
        exact absurd (hdigits 45 List.mem_cons_self).1 (by decide)
    unfold write
    cases l.negative with
    | true => simp [scanSign]
    | false => simp [scanSign, hw, hu]
  rw [scan, hsign]
  dsimp only
  rw [scanWhole_write h.whole (noDigit_fractionText _ _ ht), Option.map_some]
  dsimp only
  rw [scanFraction_write h.fraction l.exponent ht]
  dsimp only
  rw [scanExponent_write h.exponent ht]

/-! ## Reading into two dots

A literal has no two dots in a row, so that a text that is cut is told from a text that goes on. -/

lemma dropWhile_dots (p t : Text) :
    ∃ q, q <:+ p ∧ (p ++ 46 :: t).dropWhile isDigit = q ++ 46 :: t := by
  refine ⟨p.dropWhile isDigit, List.dropWhile_suffix _, ?_⟩
  rw [List.dropWhile_append]
  split
  · next hempty => simp [List.isEmpty_iff.1 hempty, show isDigit 46 = false from rfl]
  · rfl

lemma scanSign_dots (p t : Text) : ∃ q, q <:+ p ∧ (scanSign (p ++ 46 :: t)).2 = q ++ 46 :: t := by
  cases p with
  | nil => exact ⟨[], List.suffix_rfl, rfl⟩
  | cons u p =>
    rw [List.cons_append, scanSign]
    split
    · exact ⟨p, List.suffix_cons u p, rfl⟩
    · exact ⟨u :: p, List.suffix_rfl, rfl⟩

lemma scanWhole_dots (p t : Text) : scanWhole (p ++ 46 :: t) = none ∨
    ∃ w q, q <:+ p ∧ scanWhole (p ++ 46 :: t) = some (w, q ++ 46 :: t) := by
  cases p with
  | nil => exact .inl rfl
  | cons u p =>
    obtain ⟨q, hq, hdrop⟩ := dropWhile_dots (u :: p) t
    rw [List.cons_append] at hdrop ⊢
    rw [scanWhole, hdrop]
    split_ifs with hzero hdigit
    · exact .inr ⟨[48], p, List.suffix_cons u p, rfl⟩
    · exact .inr ⟨_, q, hq, rfl⟩
    · exact .inl rfl

lemma scanFraction_dots (p t : Text) :
    ∃ q, q <:+ p ∧ (scanFraction (p ++ 46 :: 46 :: t)).2 = q ++ 46 :: 46 :: t := by
  match p with
  | [] => exact ⟨[], List.suffix_rfl, rfl⟩
  | [u] =>
    refine ⟨[u], List.suffix_rfl, ?_⟩
    rw [List.cons_append, List.nil_append, scanFraction, if_neg fun h => by cases h.2]
  | u :: d :: p =>
    obtain ⟨q, hq, hdrop⟩ := dropWhile_dots (d :: p) (46 :: t)
    rw [List.cons_append] at hdrop
    rw [List.cons_append, List.cons_append, scanFraction, hdrop]
    split
    · exact ⟨q, hq.trans (List.suffix_cons u _), rfl⟩
    · exact ⟨u :: d :: p, List.suffix_rfl, rfl⟩

lemma scanExponentSign_dots (p t : Text) :
    ∃ q, q <:+ p ∧ (scanExponentSign (p ++ 46 :: t)).2 = q ++ 46 :: t := by
  cases p with
  | nil => exact ⟨[], List.suffix_rfl, rfl⟩
  | cons u p =>
    rw [List.cons_append, scanExponentSign]
    split_ifs
    · exact ⟨p, List.suffix_cons u p, rfl⟩
    · exact ⟨p, List.suffix_cons u p, rfl⟩
    · exact ⟨u :: p, List.suffix_rfl, rfl⟩

lemma scanExponent_dots (p t : Text) :
    ∃ q, q <:+ p ∧ (scanExponent (p ++ 46 :: t)).2 = q ++ 46 :: t := by
  cases p with
  | nil => exact ⟨[], List.suffix_rfl, rfl⟩
  | cons u p =>
    obtain ⟨r, hr, hsign⟩ := scanExponentSign_dots p t
    obtain ⟨q, hq, hdrop⟩ := dropWhile_dots r t
    rw [List.cons_append, scanExponent, hsign, hdrop]
    split
    · exact ⟨q, (hq.trans hr).trans (List.suffix_cons u p), rfl⟩
    · exact ⟨u :: p, List.suffix_rfl, rfl⟩

theorem scan_dots (p t : Text) : scan (p ++ 46 :: 46 :: t) = none ∨
    ∃ l q, q <:+ p ∧ scan (p ++ 46 :: 46 :: t) = some (l, q ++ 46 :: 46 :: t) := by
  obtain ⟨p₁, h₁, hsign⟩ := scanSign_dots p (46 :: t)
  rw [scan, hsign]
  rcases scanWhole_dots p₁ (46 :: t) with hnone | ⟨w, p₂, h₂, hwhole⟩
  · exact .inl (by rw [hnone, Option.map_none])
  · obtain ⟨p₃, h₃, hfraction⟩ := scanFraction_dots p₂ t
    obtain ⟨p₄, h₄, hexponent⟩ := scanExponent_dots p₃ (46 :: t)
    have hsuffix : p₄ <:+ p := ((h₄.trans h₃).trans h₂).trans h₁
    rw [hwhole, Option.map_some]
    dsimp only
    rw [hfraction, hexponent]
    exact .inr ⟨_, p₄, hsuffix, rfl⟩

lemma takeWhile_dots (p t : Text) : (p ++ 46 :: t).takeWhile isDigit = p.takeWhile isDigit := by
  induction p with
  | nil => rfl
  | cons u p ih =>
    rw [List.cons_append, List.takeWhile_cons, List.takeWhile_cons, ih]

lemma length_whole_le {rest : Text} (h : scan t = some (l, rest)) :
    l.whole.unitLength ≤ ((scanSign t).2.takeWhile isDigit).length := by
  obtain ⟨found, hwhole, heq⟩ := Option.map_eq_some_iff.1 h
  have hl : l.whole = found.1 := (congrArg (fun r => r.1.whole) heq).symm
  rw [hl]
  cases htext : (scanSign t).2 with
  | nil =>
    rw [htext] at hwhole
    cases hwhole
  | cons u s =>
    rw [htext, scanWhole] at hwhole
    split_ifs at hwhole with hzero hdigit
    · rw [← Option.some.inj hwhole, hzero, List.takeWhile_cons_of_pos rfl]
      simp [Text.unitLength]
    · rw [← Option.some.inj hwhole]
      exact le_rfl

lemma length_whole_cut (h : l.WellFormed) {p : Text} (hp : p <+: l.write)
    (t : Text) {l' : NumberLiteral} {rest : Text} (hscan : scan (p ++ 46 :: 46 :: t) = some (l', rest)) :
    l'.whole.unitLength ≤ l.whole.unitLength := by
  have hdigits : Decimal.Digits l.whole := by
    rcases h.whole with hw | ⟨u, w, hw, -, hdigits⟩
    · rw [hw]
      exact fun u hu => by rw [List.mem_singleton.1 hu]; decide
    · rwa [hw]
  have hstops : Stops [] := ⟨fun _ _ h => (by cases h), fun _ _ h => (by cases h),
    fun _ _ _ h => (by cases h)⟩
  -- what is left of the digits of the literal
  have hbody : ∀ q, q <+: l.whole ++ (fractionText l.fraction ++ exponentText l.exponent) →
      ((q ++ 46 :: 46 :: t).takeWhile isDigit).length ≤ l.whole.unitLength := by
    intro q hq
    obtain ⟨htake, -⟩ := takeWhile_digits hdigits (noDigit_fractionText l.fraction l.exponent hstops)
    rw [List.append_nil] at htake
    obtain ⟨r, hr⟩ := hq
    have hleft : q.takeWhile isDigit <+: l.whole := by
      rw [← htake, ← hr, List.takeWhile_append]
      split
      · exact (List.takeWhile_prefix _).trans (List.prefix_append _ _)
      · exact List.prefix_rfl
    rw [takeWhile_dots]
    exact hleft.length_le
  refine (length_whole_le hscan).trans ?_
  unfold write at hp
  cases hsign : l.negative with
  | true =>
    rw [hsign, if_pos rfl, List.singleton_append] at hp
    rcases List.prefix_cons_iff.1 hp with rfl | ⟨q, rfl, hq⟩
    · exact Nat.zero_le _
    · exact hbody q hq
  | false =>
    rw [hsign, if_neg (by simp), List.nil_append] at hp
    have hkeep : (scanSign (p ++ 46 :: 46 :: t)).2 = p ++ 46 :: 46 :: t := by
      cases p with
      | nil => rfl
      | cons u p =>
        have hu : u ≠ 45 := by
          rintro rfl
          have hne : ∀ v w, l.whole = v :: w → v ≠ 45 := by
            rintro v w hw rfl
            exact absurd (hdigits 45 (hw ▸ List.mem_cons_self)).1 (by decide)
          rcases h.whole with hw | ⟨v, w, hw, -, -⟩
          · rw [hw] at hp
            cases (List.cons_prefix_cons.1 hp).1
          · rw [hw] at hp
            exact hne v w hw (List.cons_prefix_cons.1 hp).1.symm
        rw [List.cons_append, scanSign, if_neg hu]
    rw [hkeep]
    exact hbody p hp

/-! ## Writing numbers -/

/-- The literal of an integer. -/
def ofInt (n : ℤ) : NumberLiteral := ⟨decide (n < 0), Decimal.text n.natAbs, none, none⟩

/-- The decimal point of a positive number: `10 ^ (p - 1) ≤ x < 10 ^ p`. -/
def decimalPoint (x : ℚ) : ℤ :=
  if 1 ≤ x then Nat.log 10 x.floor.toNat + 1 else 1 - Nat.clog 10 x⁻¹.ceil.toNat

/-- The numbers of `n` digits on both sides of `x`, in units of `10 ^ (decimalPoint x - n)`; the
closer one is the first one. -/
def neighbours (x : ℚ) (n : ℕ) : ℕ × ℕ :=
  let scaled := x * 10 ^ ((n : ℤ) - decimalPoint x)
  let closest := Double.roundHalfEven scaled.num.natAbs scaled.den
  (closest, if closest = scaled.floor.toNat then scaled.ceil.toNat else scaled.floor.toNat)

/-- A decimal of `n` digits that is rounded to `x`. -/
def tryDigits (x : ℚ) (n : ℕ) : Option ℕ :=
  let rounds : ℕ → Bool := fun c =>
    decide (Double.round (decimal c (decimalPoint x - n)) = some x)
  if rounds (neighbours x n).1 then some (neighbours x n).1
  else if rounds (neighbours x n).2 then some (neighbours x n).2
  else none

/-- The first decimal that is rounded to `x`, from `n` digits on. -/
def searchDigits (x : ℚ) : ℕ → ℕ → ℕ × ℤ
  | 0, n => ((neighbours x n).1, decimalPoint x - n)
  | more + 1, n =>
    match tryDigits x n with
    | some c =>
      -- the upper neighbour may be the next power of ten
      if c = 10 ^ n then (1, decimalPoint x) else (c, decimalPoint x - n)
    | none => searchDigits x more (n + 1)

/-- The shortest decimal that is rounded to a double. The exact value of a double has at most 1074
digits after the point. -/
def shortest (x : ℚ) : ℕ × ℤ :=
  if x = 0 then (0, 0) else searchDigits x (decimalPoint x + 1074).toNat 1

/-- `n` zeros. -/
def zeros (n : ℕ) : Text := List.replicate n 48

def behindFirst (digits : Text) : Option Text :=
  if digits.drop 1 = [] then none else some (digits.drop 1)

/-- The literal of a decimal: with an exponent when the point is far from the digits. -/
def ofDigits (negative : Bool) (c : ℕ) (e : ℤ) : NumberLiteral :=
  let digits := Decimal.text c
  let point := e + digits.unitLength
  if point ≤ -4 ∨ 16 < point then
    let exponent := Decimal.text (point - 1).natAbs
    { negative := negative
      whole := digits.take 1
      fraction := behindFirst digits
      exponent := some (decide (point - 1 < 0), zeros (2 - exponent.unitLength) ++ exponent) }
  else if point ≤ 0 then ⟨negative, [48], some (zeros (-point).toNat ++ digits), none⟩
  else if (digits.unitLength : ℤ) ≤ point then
    ⟨negative, digits ++ zeros (point.toNat - digits.unitLength), some [48], none⟩
  else ⟨negative, digits.take point.toNat, some (digits.drop point.toNat), none⟩

/-- The literal of a finite double. -/
def ofMagnitude (negative : Bool) (m : Magnitude) : NumberLiteral :=
  ofDigits negative (shortest m.value).1 (shortest m.value).2

/-! ## The shortest decimal -/

variable {x : ℚ}

lemma round_of_tryDigits {n c : ℕ} (h : tryDigits x n = some c) :
    Double.round (decimal c (decimalPoint x - n)) = some x := by
  unfold tryDigits at h
  dsimp only at h
  split_ifs at h with h1 h2
  · obtain rfl := Option.some.inj h
    exact of_decide_eq_true h1
  · obtain rfl := Option.some.inj h
    exact of_decide_eq_true h2

lemma decimal_neighbours {n k : ℕ} (h : x * 10 ^ ((n : ℤ) - decimalPoint x) = k) :
    decimal (neighbours x n).1 (decimalPoint x - n) = x := by
  have hclosest : (neighbours x n).1 = k := by
    unfold neighbours
    dsimp only
    rw [h]
    simp [Double.roundHalfEven, Nat.mod_one]
  rw [hclosest, decimal, ← h, mul_assoc, ← zpow_add₀ (by norm_num)]
  simp

lemma round_searchDigits (more n : ℕ)
    (hlast : Double.round (decimal (neighbours x (n + more)).1 (decimalPoint x - (n + more : ℕ))) =
      some x) :
    Double.round (decimal (searchDigits x more n).1 (searchDigits x more n).2) = some x := by
  induction more generalizing n with
  | zero => exact hlast
  | succ more ih =>
    unfold searchDigits
    cases htry : tryDigits x n with
    | none => exact ih (n + 1) (by rwa [Nat.add_right_comm, Nat.add_assoc n])
    | some c =>
      have hround := round_of_tryDigits htry
      dsimp only
      split
      · next hc =>
        have hdecimal : decimal c (decimalPoint x - n) = decimal 1 (decimalPoint x) := by
          rw [hc, decimal, decimal, Nat.cast_pow, ← zpow_natCast, Nat.cast_ofNat,
            ← zpow_add₀ (by norm_num)]
          simp
        rwa [hdecimal] at hround
      · exact hround

lemma exists_mul_eq {m : Magnitude} {k : ℤ} (hk : 1074 ≤ k) : ∃ c : ℕ, m.value * 10 ^ k = c := by
  obtain ⟨a, t, -, ht, hx, -⟩ := abs_of_nonneg m.nonneg ▸ Double.onGrid_abs_of_round m.exact
  refine ⟨a * 2 ^ (t + k).toNat * 5 ^ k.toNat, ?_⟩
  have hten : (10 : ℚ) ^ k = 2 ^ k * 5 ^ k := by rw [← mul_zpow]; norm_num
  have htwo : (2 : ℚ) ^ t * 2 ^ k = 2 ^ (t + k).toNat := by
    rw [← zpow_add₀ two_ne_zero, Double.two_zpow_of_nonneg (by omega)]
  have hfive : (5 : ℚ) ^ k = 5 ^ k.toNat := by
    rw [← zpow_natCast, Int.toNat_of_nonneg (by omega)]
  rw [hx, hten]
  push_cast
  rw [← htwo, ← hfive]
  ring

theorem round_shortest (m : Magnitude) :
    Double.round (decimal (shortest m.value).1 (shortest m.value).2) = some m.value := by
  unfold shortest
  split
  · next hzero => rw [hzero]; decide +kernel
  · refine round_searchDigits _ _ ?_
    obtain ⟨c, hc⟩ := exists_mul_eq (m := m)
      (k := ((1 + (decimalPoint m.value + 1074).toNat : ℕ) : ℤ) - decimalPoint m.value) (by omega)
    rw [decimal_neighbours hc]
    exact m.exact

lemma shortest_ne_zero (m : Magnitude) : (shortest m.value).1 ≠ 0 ∨ (shortest m.value).2 = 0 := by
  by_cases hzero : m.value = 0
  · exact .inr (by rw [shortest, if_pos hzero])
  · refine .inl fun hc => hzero ?_
    have hround := round_shortest m
    rw [hc, decimal, Nat.cast_zero, zero_mul] at hround
    have hround0 : Double.round 0 = some 0 := by decide +kernel
    exact (Option.some.inj (hround0.symm.trans hround)).symm

/-! ## Reading written numbers -/

lemma digits_zeros (n : ℕ) : Decimal.Digits (zeros n) := by
  intro u hu
  rw [zeros, List.mem_replicate] at hu
  rw [hu.2]
  decide

lemma digits_append {s : Text} (hs : Decimal.Digits s) (ht : Decimal.Digits t) :
    Decimal.Digits (s ++ t) := by
  intro u hu
  rcases List.mem_append.1 hu with hu | hu
  · exact hs u hu
  · exact ht u hu

lemma value_zeros_append (n : ℕ) (t : Text) : Decimal.value (zeros n ++ t) = Decimal.value t := by
  rw [Decimal.value_append, zeros, Decimal.value_zeros, zero_mul, zero_add]

lemma value_append_zeros (t : Text) (n : ℕ) :
    Decimal.value (t ++ zeros n) = Decimal.value t * 10 ^ n := by
  rw [Decimal.value_append, zeros, Decimal.value_zeros, add_zero, Text.unitLength,
    List.length_replicate]

lemma signed_natAbs (z : ℤ) : signed (decide (z < 0)) z.natAbs = z := by
  unfold signed
  by_cases h : z < 0
  · rw [if_pos (by simpa using h)]
    omega
  · rw [if_neg (by simpa using h)]
    omega

lemma wellFormed_ofInt (n : ℤ) : (ofInt n).WellFormed where
  whole := by
    by_cases hn : n.natAbs = 0
    · have hzero : Decimal.text 0 = [48] := by decide
      exact .inl (by rw [ofInt, hn, hzero])
    · obtain ⟨u, t, h, hu⟩ := Decimal.text_eq_cons hn
      exact .inr ⟨u, t, h, hu, h ▸ Decimal.text_units⟩
  fraction := fun _ h => by cases h
  exponent := fun _ _ h => by cases h

theorem value_ofInt {n : ℤ} (h : (Decimal.text n.natAbs).unitLength ≤ maxDigits) :
    (ofInt n).value = .ok (.int n) := by
  have hlength : ¬ maxDigits < (ofInt n).whole.unitLength := not_lt.2 h
  rw [value, if_pos ⟨rfl, rfl⟩, if_neg hlength]
  simp only [ofInt, Decimal.value_text, signed_natAbs]

lemma getD_behindFirst (t : Text) : (behindFirst t).getD [] = t.drop 1 := by
  unfold behindFirst
  split
  · next h => rw [h, Option.getD_none]
  · rfl

lemma magnitude_ofDigits (negative : Bool) (c : ℕ) (e : ℤ) :
    (ofDigits negative c e).magnitude = decimal c e := by
  have hpos : 0 < (Decimal.text c).unitLength := List.length_pos_iff.2 (Decimal.text_ne_nil c)
  have hshift : ∀ (k : ℕ) (d : ℤ), decimal (c * 10 ^ k) d = decimal c (d + k) := by
    intro k d
    rw [decimal, decimal, zpow_add₀ (by norm_num), zpow_natCast]
    push_cast
    ring
  unfold ofDigits
  dsimp only
  split_ifs with hfar hsmall hlarge
  · -- one digit before the point
    rw [magnitude]
    dsimp only
    rw [getD_behindFirst, List.take_append_drop, exponentValue, value_zeros_append,
      Decimal.value_text, Decimal.value_text, signed_natAbs]
    congr 1
    simp only [Text.unitLength, List.length_drop] at hpos ⊢
    omega
  · -- zeros after the point
    have hzeros : ∀ k, [48] ++ (zeros k ++ Decimal.text c) = zeros (k + 1) ++ Decimal.text c :=
      fun k => rfl
    rw [magnitude]
    dsimp only
    rw [Option.getD_some, hzeros, value_zeros_append, Decimal.value_text]
    congr 1
    simp only [exponentValue, zeros, Text.unitLength, List.length_append, List.length_replicate]
      at hsmall ⊢
    omega
  · -- zeros before the point
    have hzeros : ∀ k, zeros k ++ [48] = zeros (k + 1) := fun k => List.replicate_succ'.symm
    rw [magnitude]
    dsimp only
    rw [Option.getD_some, List.append_assoc, hzeros, value_append_zeros, Decimal.value_text, hshift]
    congr 1
    simp only [exponentValue, Text.unitLength, List.length_singleton] at hlarge hsmall ⊢
    omega
  · rw [magnitude]
    dsimp only
    rw [Option.getD_some, List.take_append_drop, Decimal.value_text]
    congr 1
    simp only [exponentValue, Text.unitLength, List.length_drop] at hlarge hsmall ⊢
    omega

lemma ofDigits_zero (negative : Bool) : ofDigits negative 0 0 = ⟨negative, [48], some [48], none⟩ := by
  cases negative <;> rfl

lemma wellFormed_ofDigits (negative : Bool) {c : ℕ} {e : ℤ} (h : c ≠ 0 ∨ e = 0) :
    (ofDigits negative c e).WellFormed := by
  have hzero : [(48 : CodeUnit)] ≠ [] ∧ Decimal.Digits [48] := ⟨by simp, digits_zeros 1⟩
  by_cases hc : c = 0
  · obtain rfl := hc
    obtain rfl := h.resolve_left (not_not.2 rfl)
    rw [ofDigits_zero]
    exact ⟨.inl rfl, fun _ h => by cases h; exact hzero, fun _ _ h => by cases h⟩
  have hdigits : ∀ n, Decimal.Digits (Decimal.text n) := fun n => Decimal.text_units
  have hdrop : ∀ k, Decimal.Digits ((Decimal.text c).drop k) :=
    fun k v hv => hdigits c v (List.mem_of_mem_drop hv)
  obtain ⟨u, t, htext, hu⟩ := Decimal.text_eq_cons hc
  have hwhole : ∀ (k : ℕ) (z : Text), Decimal.Digits z → ∃ v w, (Decimal.text c).take (k + 1) ++ z = v :: w ∧
      v ≠ 48 ∧ Decimal.Digits (v :: w) := by
    intro k z hz
    refine ⟨u, t.take k ++ z, by rw [htext]; rfl, hu, ?_⟩
    have htake : Decimal.Digits ((Decimal.text c).take (k + 1)) :=
      fun v hv => hdigits c v (List.mem_of_mem_take hv)
    have hall := digits_append htake hz
    rwa [htext] at hall
  have hnil : Decimal.Digits [] := fun _ h => absurd h List.not_mem_nil
  unfold ofDigits
  dsimp only
  split_ifs with hfar hsmall hlarge
  · refine ⟨.inr ?_, ?_, ?_⟩
    · simpa using hwhole 0 [] hnil
    · intro digits h
      simp only [behindFirst] at h
      split_ifs at h with hne
      obtain rfl := Option.some.inj h
      exact ⟨hne, hdrop 1⟩
    · intro sign digits h
      obtain ⟨-, rfl⟩ := Prod.mk.inj (Option.some.inj h)
      exact ⟨List.append_ne_nil_of_right_ne_nil _ (Decimal.text_ne_nil _),
        digits_append (digits_zeros _) (hdigits _)⟩
  · refine ⟨.inl rfl, ?_, fun _ _ h => by cases h⟩
    intro digits h
    obtain rfl := Option.some.inj h
    exact ⟨List.append_ne_nil_of_right_ne_nil _ (Decimal.text_ne_nil _),
      digits_append (digits_zeros _) (hdigits _)⟩
  · refine ⟨.inr ?_, ?_, fun _ _ h => by cases h⟩
    · have hlength : (Decimal.text c).take ((Decimal.text c).unitLength + 1) = Decimal.text c :=
        List.take_of_length_le (Nat.le_succ _)
      have := hwhole (Decimal.text c).unitLength _ (digits_zeros
        ((e + (Decimal.text c).unitLength).toNat - (Decimal.text c).unitLength))
      rwa [hlength] at this
    · intro digits h
      obtain rfl := Option.some.inj h
      exact hzero
  · have hpoint : (e + (Decimal.text c).unitLength).toNat =
        (e + (Decimal.text c).unitLength).toNat - 1 + 1 := by omega
    refine ⟨.inr ?_, ?_, fun _ _ h => by cases h⟩
    · rw [hpoint]
      simpa using hwhole _ [] hnil
    · intro digits h
      obtain rfl := Option.some.inj h
      refine ⟨fun hnil => ?_, hdrop _⟩
      have hshort : (Decimal.text c).unitLength ≤ (e + (Decimal.text c).unitLength).toNat :=
        List.drop_eq_nil_iff.1 hnil
      omega

lemma wellFormed_ofMagnitude (negative : Bool) (m : Magnitude) :
    (ofMagnitude negative m).WellFormed := wellFormed_ofDigits negative (shortest_ne_zero m)

@[simp] lemma negative_ofDigits (negative : Bool) (c : ℕ) (e : ℤ) :
    (ofDigits negative c e).negative = negative := by
  unfold ofDigits
  dsimp only
  split_ifs <;> rfl

lemma not_integer_ofDigits (negative : Bool) (c : ℕ) (e : ℤ) :
    ¬ ((ofDigits negative c e).fraction = none ∧ (ofDigits negative c e).exponent = none) := by
  unfold ofDigits
  dsimp only
  split_ifs <;> simp

lemma length_whole_ofDigits (negative : Bool) (c : ℕ) (e : ℤ) :
    (ofDigits negative c e).whole.unitLength ≤ 16 := by
  unfold ofDigits
  dsimp only
  split_ifs with hfar hsmall hlarge
  · exact (List.length_take_le _ _).trans (by decide)
  · exact Nat.le_of_ble_eq_true rfl
  · simp only [Text.unitLength, zeros, List.length_append, List.length_replicate] at hlarge hfar ⊢
    omega
  · refine (List.length_take_le _ _).trans ?_
    omega

theorem value_ofMagnitude (negative : Bool) (m : Magnitude) :
    (ofMagnitude negative m).value = .ok (.double (.finite negative m)) := by
  have hround : Double.round (ofMagnitude negative m).magnitude = some m.value := by
    rw [ofMagnitude, magnitude_ofDigits]
    exact round_shortest m
  have hdouble : (ofMagnitude negative m).toDouble = .finite (ofMagnitude negative m).negative m :=
    PyDouble.ofRational_of_round _ hround
  have hsign : (ofMagnitude negative m).negative = negative := negative_ofDigits _ _ _
  have hfloat : ¬ ((ofMagnitude negative m).fraction = none ∧
      (ofMagnitude negative m).exponent = none) := not_integer_ofDigits _ _ _
  rw [value, if_neg hfloat, hdouble, hsign]

end NumberLiteral

end JsonText
