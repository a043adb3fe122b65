import Apdl.Lib.Timestamp

set_option autoImplicit false

/-!
# Decimal texts of numbers

The canonical decimal text of a natural number, as `str` writes it and `int` reads it, and the order
of decimal texts.

## Main results

* `Decimal.text_eq_cons` — the text of a positive number does not start with a zero.
-/

namespace Decimal

/-- The decimal text of a number. -/
def text (n : ℕ) : Text := Text.ofString (toString n)

/-- The code units of a list of characters. -/
def units (cs : List Char) : Text := cs.map fun c => UInt16.ofNat c.toNat

lemma toNat_of_isDigit {c : Char} (h : c.isDigit = true) : 48 ≤ c.toNat ∧ c.toNat ≤ 57 := by
  simp only [Char.isDigit, Bool.and_eq_true, decide_eq_true_eq] at h
  exact ⟨h.1, h.2⟩

lemma text_eq (n : ℕ) : text n = units (Nat.toDigits 10 n) := by
  have hlist : (toString n).toList = Nat.toDigits 10 n := Nat.toList_repr
  have hdigits : ∀ c ∈ Nat.toDigits 10 n, Text.encodeScalar c.toNat = [UInt16.ofNat c.toNat] := by
    intro c hc
    have := toNat_of_isDigit (Nat.isDigit_of_mem_toDigits (by decide) (by decide) hc)
    rw [Text.encodeScalar, if_pos (by omega)]
  rw [text, Text.ofString, hlist, units, List.flatMap_congr hdigits]
  exact List.flatMap_pure_eq_map _ _

lemma takeNumber_digits {cs : List Char} (h : ∀ c ∈ cs, c.isDigit = true) (acc : ℕ) :
    Timestamp.takeNumber cs.length acc (cs.map Char.toNat) =
      some (Nat.ofDigitChars 10 cs acc, []) := by
  induction cs generalizing acc with
  | nil => rfl
  | cons c cs ih =>
    obtain ⟨hc, hcs⟩ := List.forall_mem_cons.1 h
    obtain ⟨hlo, hhi⟩ := toNat_of_isDigit hc
    have hvalue : Timestamp.decimalValue c.toNat = some (c.toNat - 48) := by
      have hd := Timestamp.decimalValue_ascii (d := c.toNat - 48) (by omega)
      rwa [Nat.add_sub_cancel' hlo] at hd
    rw [List.length_cons, List.map_cons, Timestamp.takeNumber, hvalue, Option.bind_some, ih hcs,
      Nat.ofDigitChars_cons]
    rfl

lemma toNat_units {cs : List Char} (h : ∀ c ∈ cs, c.isDigit = true) :
    (units cs).map UInt16.toNat = cs.map Char.toNat := by
  rw [units, List.map_map]
  refine List.map_congr_left fun c hc => ?_
  obtain ⟨-, hhi⟩ := toNat_of_isDigit (h c hc)
  simp only [Function.comp_apply, UInt16.toNat_ofNat']
  exact Nat.mod_eq_of_lt (by omega)

lemma isDigit_toDigits (n : ℕ) : ∀ c ∈ Nat.toDigits 10 n, c.isDigit = true :=
  fun _ hc => Nat.isDigit_of_mem_toDigits (by decide) (by decide) hc

theorem takeNumber_text (n : ℕ) :
    Timestamp.takeNumber (text n).unitLength 0 ((text n).map UInt16.toNat) = some (n, []) := by
  have hdigits := isDigit_toDigits n
  rw [text_eq, toNat_units hdigits]
  have hlen : (units (Nat.toDigits 10 n)).unitLength = (Nat.toDigits 10 n).length := by
    rw [units, Text.unitLength, List.length_map]
  rw [hlen, takeNumber_digits hdigits, Nat.ofDigitChars_ten_toDigits]

variable {n : ℕ}

lemma text_units : ∀ u ∈ text n, 48 ≤ u.toNat ∧ u.toNat ≤ 57 := by
  intro u hu
  have hmem : u.toNat ∈ (Nat.toDigits 10 n).map Char.toNat := by
    rw [← toNat_units (isDigit_toDigits n), ← text_eq]
    exact List.mem_map_of_mem hu
  obtain ⟨c, hc, heq⟩ := List.mem_map.1 hmem
  rw [← heq]
  exact toNat_of_isDigit (isDigit_toDigits n c hc)

/-! ## The order of decimal texts -/

/-- The number a text of digits denotes. -/
def value (t : Text) : ℕ := t.foldl (fun n u => 10 * n + (u.toNat - 48)) 0

/-- Every unit of the text is a digit. -/
def Digits (t : Text) : Prop := ∀ u ∈ t, 48 ≤ u.toNat ∧ u.toNat ≤ 57

lemma foldl_value (t : Text) (n : ℕ) :
    t.foldl (fun n u => 10 * n + (u.toNat - 48)) n = 10 ^ Text.unitLength t * n + value t := by
  induction t generalizing n with
  | nil => simp [value, Text.unitLength]
  | cons u t ih =>
    have hvalue : value (u :: t) = 10 ^ Text.unitLength t * (u.toNat - 48) + value t := by
      rw [value, List.foldl_cons, ih]
      simp
    rw [List.foldl_cons, ih, hvalue]
    simp only [Text.unitLength, List.length_cons, pow_succ]
    ring

lemma value_cons (u : CodeUnit) (t : Text) :
    value (u :: t) = 10 ^ Text.unitLength t * (u.toNat - 48) + value t := by
  rw [value, List.foldl_cons, foldl_value]
  simp

variable {t : Text}

lemma value_lt_pow (h : Digits t) : value t < 10 ^ Text.unitLength t := by
  induction t with
  | nil => decide
  | cons u t ih =>
    obtain ⟨hu, ht⟩ := List.forall_mem_cons.1 h
    have hrest := ih ht
    have hfirst : 10 ^ Text.unitLength t * (u.toNat - 48) ≤ 10 ^ Text.unitLength t * 9 :=
      Nat.mul_le_mul_left _ (by omega)
    rw [value_cons]
    simp only [Text.unitLength, List.length_cons, pow_succ] at hrest hfirst ⊢
    omega

lemma value_lt_iff {s : Text} (hs : Digits s) (ht : Digits t)
    (hlen : Text.unitLength s = Text.unitLength t) : value s < value t ↔ s < t := by
  induction s generalizing t with
  | nil =>
    obtain rfl : t = [] := List.length_eq_zero_iff.1 hlen.symm
    simp
  | cons u s ih =>
    cases t with
    | nil => cases hlen
    | cons v t =>
      obtain ⟨hu, hs⟩ := List.forall_mem_cons.1 hs
      obtain ⟨hv, ht⟩ := List.forall_mem_cons.1 ht
      have hlen : Text.unitLength s = Text.unitLength t := Nat.succ.inj hlen
      have hsv := value_lt_pow hs
      have htv := value_lt_pow ht
      rw [hlen] at hsv
      have huv : u < v ↔ u.toNat < v.toNat := UInt16.lt_iff_toNat_lt
      rw [value_cons, value_cons, hlen, List.cons_lt_cons_iff, ← ih hs ht hlen, huv]
      -- the first digits decide unless they agree
      rcases Nat.lt_trichotomy u.toNat v.toNat with hlt | heq | hgt
      · have hstep := Nat.mul_le_mul_left (10 ^ Text.unitLength t)
          (show u.toNat - 48 + 1 ≤ v.toNat - 48 by omega)
        rw [Nat.mul_add, Nat.mul_one] at hstep
        exact iff_of_true (by omega) (.inl hlt)
      · have huv : u = v := UInt16.toNat_inj.1 heq
        subst huv
        simp
      · have hstep := Nat.mul_le_mul_left (10 ^ Text.unitLength t)
          (show v.toNat - 48 + 1 ≤ u.toNat - 48 by omega)
        rw [Nat.mul_add, Nat.mul_one] at hstep
        refine iff_of_false (by omega) ?_
        rintro (hlt | ⟨rfl, -⟩)
        · omega
        · omega

lemma pow_le_value {u : CodeUnit} (hu : 49 ≤ u.toNat) :
    10 ^ Text.unitLength t ≤ value (u :: t) := by
  rw [value_cons]
  exact le_trans (Nat.le_mul_of_pos_right _ (by omega)) (Nat.le_add_right _ _)

theorem value_text (n : ℕ) : value (text n) = n := by
  have hread : ∀ (cs : List Char), (∀ c ∈ cs, c.isDigit = true) → ∀ acc,
      (units cs).foldl (fun n u => 10 * n + (u.toNat - 48)) acc = Nat.ofDigitChars 10 cs acc := by
    intro cs
    induction cs with
    | nil => exact fun _ _ => rfl
    | cons c cs ih =>
      intro h acc
      obtain ⟨hc, hcs⟩ := List.forall_mem_cons.1 h
      obtain ⟨-, hhi⟩ := toNat_of_isDigit hc
      have hunit : (UInt16.ofNat c.toNat).toNat = c.toNat := by
        rw [UInt16.toNat_ofNat']
        exact Nat.mod_eq_of_lt (by omega)
      rw [units, List.map_cons, List.foldl_cons, hunit, Nat.ofDigitChars_cons]
      exact ih hcs _
  rw [text_eq, value, hread _ (isDigit_toDigits n), Nat.ofDigitChars_ten_toDigits]

/-! ## Leading and trailing zeros -/

lemma value_append (s t : Text) :
    value (s ++ t) = value s * 10 ^ Text.unitLength t + value t := by
  rw [value, List.foldl_append, foldl_value, mul_comm]
  rfl

@[simp] lemma value_zeros (n : ℕ) : value (List.replicate n 48) = 0 := by
  induction n with
  | zero => rfl
  | succ n ih =>
    rw [List.replicate_succ, value_cons, ih]
    simp

lemma toDigits_eq_cons (hn : n ≠ 0) :
    ∃ c cs, Nat.toDigits 10 n = c :: cs ∧ c ≠ '0' := by
  induction n using Nat.strong_induction_on with
  | _ n ih =>
    by_cases hlt : n < 10
    · have hdigit : ∀ m < 10, m ≠ 0 → Nat.digitChar m ≠ '0' := by decide
      exact ⟨Nat.digitChar n, [], Nat.toDigits_of_lt_base hlt, hdigit n hlt hn⟩
    · obtain ⟨c, cs, hcs, hc⟩ := ih (n / 10) (by omega) (by omega)
      rw [Nat.toDigits_of_base_le (by decide) (by omega), hcs]
      exact ⟨c, _, rfl, hc⟩

lemma text_eq_cons (hn : n ≠ 0) : ∃ u t, text n = u :: t ∧ u ≠ 48 := by
  obtain ⟨c, cs, hcs, hc⟩ := toDigits_eq_cons hn
  have hdigit : c.isDigit = true := isDigit_toDigits n c (hcs ▸ List.mem_cons_self)
  obtain ⟨-, hhi⟩ := toNat_of_isDigit hdigit
  refine ⟨UInt16.ofNat c.toNat, units cs, by rw [text_eq, hcs]; rfl, fun h => hc ?_⟩
  have hnat := congrArg UInt16.toNat h
  rw [UInt16.toNat_ofNat', Nat.mod_eq_of_lt (by omega)] at hnat
  exact Char.toNat_inj.1 hnat

lemma text_ne_nil (n : ℕ) : text n ≠ [] := by
  by_cases hn : n = 0
  · rw [hn]
    decide
  · obtain ⟨u, t, h, -⟩ := text_eq_cons hn
    simp [h]

end Decimal
