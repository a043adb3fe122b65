import Apdl.Config.Schemas
import Apdl.Lib.Decimal
import Apdl.Lib.Traverse
import Mathlib.Computability.RegularExpressions
import Mathlib.Data.List.Induction
import Mathlib.Data.Prod.Lex

set_option autoImplicit false

/-!
# Texts of stream IDs

`_stream_id_parts` of the writer and `parse_stream_id` of the query service. The first reads both
parts with `int`, which accepts blanks, signs, underscores and the digits of every script, and
compares with `str`; the second matches a regular expression. A string is a list of code points,
unpaired surrogates included.

## Main results

* `stream_id_parsing` — both parsers accept the canonical IDs of 64 bits and no other string.
-/

namespace Apdl.StreamIdText

open Config (isSpacePoint)
open Timestamp (decimalValue)

/-! ## `int` and `str` -/

def Python.strip (s : List ℕ) : List ℕ :=
  ((s.dropWhile isSpacePoint).reverse.dropWhile isSpacePoint).reverse

/-- The values of digits with single underscores between them. -/
def Python.digitValues : List ℕ → Option (List ℕ)
  | [] => none
  | [c] => (decimalValue c).map ([·])
  | c :: next :: rest => do
    let value ← decimalValue c
    let values ← if next = 95 then digitValues rest else digitValues (next :: rest)
    return value :: values

/-- `sys.get_int_max_str_digits()`. -/
def Python.maxStrDigits : ℕ := 4300

/-- The value of an unsigned literal; `none` when `int` raises. -/
def Python.magnitude (s : List ℕ) : Option ℕ := do
  let values ← Python.digitValues s
  guard (values.length ≤ Python.maxStrDigits)
  return values.foldl (fun n d => 10 * n + d) 0

/-- `int(s)`; `none` when it raises. -/
def Python.int (s : List ℕ) : Option ℤ :=
  match Python.strip s with
  | 45 :: digits => (Python.magnitude digits).map fun n : ℕ => -(n : ℤ)
  | 43 :: digits => (Python.magnitude digits).map fun n : ℕ => (n : ℤ)
  | digits => (Python.magnitude digits).map fun n : ℕ => (n : ℤ)

/-- The decimal text of a natural number. -/
def digits (n : ℕ) : List ℕ := (Nat.toDigits 10 n).map Char.toNat

/-- `str(n)`. -/
def Python.str (n : ℤ) : List ℕ := if n < 0 then 45 :: digits n.natAbs else digits n.natAbs

/-- `s.split("-", 1)` with two parts; `none` when unpacking them raises. -/
def Python.splitHyphen : List ℕ → Option (List ℕ × List ℕ)
  | [] => none
  | c :: s => if c = 45 then some ([], s) else (splitHyphen s).map fun p => (c :: p.1, p.2)

/-! ## The parsers -/

def Writer.streamIdParts (streamId : List ℕ) : Option (ℕ × ℕ) := do
  let (millisecondsText, sequenceText) ← Python.splitHyphen streamId
  let milliseconds ← Python.int millisecondsText
  guard (Python.str milliseconds = millisecondsText)
  let sequence ← Python.int sequenceText
  guard (Python.str sequence = sequenceText)
  guard (¬(milliseconds < 0 ∨ sequence < 0 ∨ milliseconds ≥ 2 ^ 64 ∨ sequence ≥ 2 ^ 64))
  return (milliseconds.toNat, sequence.toNat)

open RegularExpression in
/-- A class of the characters `lo` to `lo + n`. -/
def charClass (lo : ℕ) : ℕ → RegularExpression ℕ
  | 0 => char lo
  | n + 1 => charClass lo n + char (lo + n + 1)

/-- `(0|[1-9][0-9]*)`. -/
def numeral : RegularExpression ℕ := .char 48 + charClass 49 8 * .star (charClass 48 9)

def streamIdPattern : RegularExpression ℕ := numeral * (.char 45 * numeral)

def maxStreamIdPart : ℤ := 2 ^ 64 - 1

def Query.parseStreamId (value : List ℕ) : Option (ℕ × ℕ) := do
  guard (streamIdPattern.rmatch value)
  let (milliseconds, sequence) ← Python.splitHyphen value
  let ms ← Python.int milliseconds
  let seq ← Python.int sequence
  guard (¬(ms > maxStreamIdPart ∨ seq > maxStreamIdPart))
  return (ms.toNat, seq.toNat)

/-- `a < b` of two pairs: the first unequal components decide. -/
def Python.tupleLess (a b : ℕ × ℕ) : Bool :=
  if a.1 = b.1 then decide (a.2 < b.2) else decide (a.1 < b.1)

/-! ## Canonical numerals -/

def IsDigit (c : ℕ) : Prop := 48 ≤ c ∧ c ≤ 57

/-- A list of digits without a leading zero. -/
def Canonical : List ℕ → Prop
  | [] => False
  | c :: rest => (c = 48 ∧ rest = []) ∨ (49 ≤ c ∧ c ≤ 57 ∧ ∀ d ∈ rest, IsDigit d)

lemma Canonical.isDigit {s : List ℕ} (h : Canonical s) : ∀ c ∈ s, IsDigit c := by
  cases s with
  | nil => exact h.elim
  | cons c rest =>
    obtain ⟨rfl, rfl⟩ | ⟨hlo, hhi, hrest⟩ := h
    · simp [IsDigit]
    · exact List.forall_mem_cons.2 ⟨⟨by omega, hhi⟩, hrest⟩

lemma digits_of_lt {n : ℕ} (h : n < 10) : digits n = [48 + n] := by
  have hchar : ∀ m < 10, (Nat.digitChar m).toNat = 48 + m := by decide
  rw [digits, Nat.toDigits_of_lt_base h, List.map_singleton, hchar n h]

lemma digits_of_le {n : ℕ} (h : 10 ≤ n) : digits n = digits (n / 10) ++ [48 + n % 10] := by
  have hlt : n % 10 < 10 := Nat.mod_lt _ (by decide)
  have hlast := digits_of_lt hlt
  rw [digits, Nat.toDigits_of_lt_base hlt] at hlast
  rw [digits, Nat.toDigits_of_base_le (by decide) h, List.map_append, hlast, digits]

lemma canonical_digits (n : ℕ) : Canonical (digits n) := by
  by_cases hn : n = 0
  · rw [hn, digits_of_lt (by decide)]
    exact .inl ⟨rfl, rfl⟩
  · obtain ⟨c, cs, hcs, hzero⟩ := Decimal.toDigits_eq_cons hn
    have hdigit : ∀ d ∈ c :: cs, IsDigit d.toNat := fun d hd =>
      Decimal.toNat_of_isDigit (Decimal.isDigit_toDigits n d (hcs ▸ hd))
    obtain ⟨⟨hlo, hhi⟩, hrest⟩ := List.forall_mem_cons.1 hdigit
    have hne : c.toNat ≠ 48 := fun h => hzero (Char.toNat_inj.1 h)
    rw [digits, hcs]
    exact .inr ⟨by omega, hhi, List.forall_mem_map.2 hrest⟩

theorem eq_digits_iff (s : List ℕ) : (∃ n, s = digits n) ↔ Canonical s := by
  refine ⟨?_, fun h => ?_⟩
  · rintro ⟨n, rfl⟩
    exact canonical_digits n
  · have hpositive : ∀ (c : ℕ) (rest : List ℕ), 49 ≤ c → c ≤ 57 → (∀ d ∈ rest, IsDigit d) →
        ∃ n, 0 < n ∧ c :: rest = digits n := by
      intro c rest hlo hhi hrest
      induction rest using List.reverseRecOn with
      | nil =>
        refine ⟨c - 48, by omega, ?_⟩
        rw [digits_of_lt (by omega), Nat.add_sub_cancel' (by omega)]
      | append_singleton rest d ih =>
        obtain ⟨hrest, hd⟩ := List.forall_mem_append.1 hrest
        obtain ⟨hdlo, hdhi⟩ : IsDigit d := hd d (List.mem_singleton_self d)
        obtain ⟨n, hn, heq⟩ := ih hrest
        refine ⟨10 * n + (d - 48), by omega, ?_⟩
        rw [digits_of_le (by omega), show (10 * n + (d - 48)) / 10 = n by omega, ← heq,
          show 48 + (10 * n + (d - 48)) % 10 = d by omega, List.cons_append]
    cases s with
    | nil => exact h.elim
    | cons c rest =>
      obtain ⟨rfl, rfl⟩ | ⟨hlo, hhi, hrest⟩ := h
      · exact ⟨0, (digits_of_lt (n := 0) (by decide)).symm⟩
      · obtain ⟨n, -, hn⟩ := hpositive c rest hlo hhi hrest
        exact ⟨n, hn⟩

/-! ## Reading a canonical numeral -/

variable {s : List ℕ}

lemma isSpacePoint_digit {c : ℕ} (h : IsDigit c) : isSpacePoint c = false := by
  have hall : ∀ d < 10, isSpacePoint (48 + d) = false := by decide
  have hc := hall (c - 48) (by have := h.1; have := h.2; omega)
  rwa [Nat.add_sub_cancel' h.1] at hc

lemma strip_digits (h : ∀ c ∈ s, IsDigit c) : Python.strip s = s := by
  have hdrop : ∀ l : List ℕ, (∀ c ∈ l, IsDigit c) → l.dropWhile isSpacePoint = l := by
    intro l hl
    cases l with
    | nil => rfl
    | cons c l => rw [List.dropWhile_cons_of_neg (by simp [isSpacePoint_digit (hl c (by simp))])]
  rw [Python.strip, hdrop s h, hdrop _ (fun c hc => h c (List.mem_reverse.1 hc)),
    List.reverse_reverse]

lemma digitValues_digits (hne : s ≠ []) (h : ∀ c ∈ s, IsDigit c) :
    Python.digitValues s = some (s.map (· - 48)) := by
  have hvalue : ∀ c, IsDigit c → decimalValue c = some (c - 48) := by
    rintro c ⟨hlo, hhi⟩
    have hd := Timestamp.decimalValue_ascii (d := c - 48) (by omega)
    rwa [Nat.add_sub_cancel' hlo] at hd
  induction s with
  | nil => exact absurd rfl hne
  | cons c s ih =>
    obtain ⟨hc, hs⟩ := List.forall_mem_cons.1 h
    cases s with
    | nil => simp [Python.digitValues, hvalue c hc]
    | cons d s =>
      have hd : d ≠ 95 := by
        have := (hs d List.mem_cons_self).2
        omega
      simp [Python.digitValues, hvalue c hc, hd, ih (by simp) hs]

lemma foldl_digits (n : ℕ) : ((digits n).map (· - 48)).foldl (fun n d => 10 * n + d) 0 = n := by
  induction n using Nat.strong_induction_on with
  | _ n ih =>
    rcases Nat.lt_or_ge n 10 with hlt | hge
    · simp [digits_of_lt hlt]
    · rw [digits_of_le hge, List.map_append, List.foldl_append, ih (n / 10) (by omega)]
      simp only [List.map_cons, List.map_nil, List.foldl_cons, List.foldl_nil]
      omega

lemma length_digits_le {k n : ℕ} (hk : 1 ≤ k) (h : n < 10 ^ k) : (digits n).length ≤ k := by
  induction k generalizing n with
  | zero => omega
  | succ k ih =>
    rcases Nat.lt_or_ge n 10 with hlt | hge
    · simp [digits_of_lt hlt]
    · have hk : 1 ≤ k := by
        rcases Nat.eq_zero_or_pos k with rfl | hk
        · simp at h
          omega
        · exact hk
      have hrest := ih hk (Nat.div_lt_of_lt_mul (by rwa [pow_succ'] at h))
      rw [digits_of_le hge, List.length_append, List.length_singleton]
      omega

lemma int_digits (n : ℕ) : Python.int (digits n) =
    if (digits n).length ≤ Python.maxStrDigits then some (n : ℤ) else none := by
  have hdigit := (canonical_digits n).isDigit
  have hne : digits n ≠ [] := by
    intro h
    have hc := canonical_digits n
    rw [h] at hc
    exact hc
  have hmagnitude : Python.magnitude (digits n) =
      if (digits n).length ≤ Python.maxStrDigits then some n else none := by
    rw [Python.magnitude, digitValues_digits hne hdigit]
    by_cases h : (digits n).length ≤ Python.maxStrDigits <;> simp [guard, h, foldl_digits]
  unfold Python.int
  rw [strip_digits hdigit]
  split
  · next rest heq => exact absurd (hdigit 45 (by simp [heq])).1 (by decide)
  · next rest heq => exact absurd (hdigit 43 (by simp [heq])).1 (by decide)
  · rw [hmagnitude]
    split <;> rfl

lemma int_digits_of_lt {n : ℕ} (hn : n < 2 ^ 64) : Python.int (digits n) = some (n : ℤ) := by
  have hlength : (digits n).length ≤ Python.maxStrDigits :=
    le_trans (length_digits_le (k := 20) (by decide) (lt_trans hn (by decide))) (by decide)
  rw [int_digits, if_pos hlength]

lemma eq_of_int_digits {n : ℕ} {m : ℤ} (h : Python.int (digits n) = some m) : m = n := by
  rw [int_digits] at h
  split at h
  · exact (Option.some.inj h).symm
  · cases h

/-! ## Canonical IDs -/

lemma splitHyphen_eq_some (s a b : List ℕ) :
    Python.splitHyphen s = some (a, b) ↔ s = a ++ 45 :: b ∧ 45 ∉ a := by
  induction s generalizing a with
  | nil => simp [Python.splitHyphen]
  | cons c s ih =>
    rw [Python.splitHyphen]
    by_cases hc : c = 45
    · rw [if_pos hc]
      cases a with
      | nil => simp [hc, eq_comm]
      | cons d a =>
        refine iff_of_false (by simp) fun h => ?_
        obtain ⟨rfl, -⟩ := List.cons.inj h.1
        exact h.2 (hc ▸ List.mem_cons_self)
    · rw [if_neg hc]
      cases a with
      | nil => simp [hc]
      | cons d a =>
        have hmap : (Python.splitHyphen s).map (fun p => (c :: p.1, p.2)) = some (d :: a, b) ↔
            c = d ∧ Python.splitHyphen s = some (a, b) := by
          rw [Option.map_eq_some_iff]
          grind
        rw [hmap, ih]
        grind

def idText (id : ℕ × ℕ) : List ℕ := digits id.1 ++ 45 :: digits id.2

variable {id : ℕ × ℕ}

lemma splitHyphen_idText : Python.splitHyphen (idText id) = some (digits id.1, digits id.2) := by
  refine (splitHyphen_eq_some _ _ _).2 ⟨rfl, fun h => ?_⟩
  exact absurd ((canonical_digits _).isDigit 45 h).1 (by decide)

lemma eq_digits_of_str {x : List ℕ} {n : ℤ} (hstr : Python.str n = x) (hn : 0 ≤ n) :
    x = digits n.toNat := by
  rw [← hstr, Python.str, if_neg (by omega), show n.natAbs = n.toNat by omega]

theorem streamIdParts_eq_some (s : List ℕ) (id : ℕ × ℕ) :
    Writer.streamIdParts s = some id ↔ s = idText id ∧ id.1 < 2 ^ 64 ∧ id.2 < 2 ^ 64 := by
  constructor
  · intro h
    obtain ⟨⟨a, b⟩, hsplit, h⟩ := Traverse.of_bind h
    obtain ⟨ms, -, h⟩ := Traverse.of_bind h
    obtain ⟨hms, h⟩ := Traverse.of_guard h
    obtain ⟨seq, -, h⟩ := Traverse.of_bind h
    obtain ⟨hseq, h⟩ := Traverse.of_guard h
    obtain ⟨hrange, h⟩ := Traverse.of_guard h
    obtain rfl := Option.some.inj h
    rw [((splitHyphen_eq_some _ _ _).1 hsplit).1, eq_digits_of_str hms (by omega),
      eq_digits_of_str hseq (by omega)]
    exact ⟨rfl, by dsimp only; omega, by dsimp only; omega⟩
  · rintro ⟨rfl, hms, hseq⟩
    have hstr (n : ℕ) : Python.str n = digits n := rfl
    have hrange : ¬((id.1 : ℤ) < 0 ∨ (id.2 : ℤ) < 0 ∨ (id.1 : ℤ) ≥ 2 ^ 64 ∨ (id.2 : ℤ) ≥ 2 ^ 64) := by
      omega
    exact Traverse.bind_intro splitHyphen_idText <| Traverse.bind_intro (int_digits_of_lt hms) <|
      Traverse.guard_intro (hstr _) <| Traverse.bind_intro (int_digits_of_lt hseq) <|
      Traverse.guard_intro (hstr _) <| Traverse.guard_intro hrange rfl

lemma charClass_rmatch (lo n : ℕ) (s : List ℕ) :
    (charClass lo n).rmatch s = true ↔ ∃ c, lo ≤ c ∧ c ≤ lo + n ∧ s = [c] := by
  induction n with
  | zero =>
    rw [charClass, RegularExpression.char_rmatch_iff]
    refine ⟨fun h => ⟨lo, le_rfl, le_rfl, h⟩, ?_⟩
    rintro ⟨c, hlo, hhi, rfl⟩
    rw [show c = lo by omega]
  | succ n ih =>
    rw [charClass, RegularExpression.add_rmatch_iff, ih, RegularExpression.char_rmatch_iff]
    constructor
    · rintro (⟨c, hlo, hhi, rfl⟩ | rfl)
      · exact ⟨c, hlo, by omega, rfl⟩
      · exact ⟨_, by omega, le_rfl, rfl⟩
    · rintro ⟨c, hlo, hhi, rfl⟩
      rcases Nat.lt_or_ge (lo + n) c with hlt | hge
      · exact .inr (by rw [show c = lo + n + 1 by omega])
      · exact .inl ⟨c, hlo, hge, rfl⟩

lemma numeral_rmatch (s : List ℕ) : numeral.rmatch s = true ↔ Canonical s := by
  have hrun (l : List ℕ) :
      (RegularExpression.star (charClass 48 9)).rmatch l = true ↔ ∀ c ∈ l, IsDigit c := by
    simp only [RegularExpression.star_rmatch_iff, charClass_rmatch]
    constructor
    · rintro ⟨S, rfl, hS⟩ c hc
      obtain ⟨t, ht, hct⟩ := List.mem_flatten.1 hc
      obtain ⟨-, d, hlo, hhi, rfl⟩ := hS t ht
      rw [List.mem_singleton.1 hct]
      exact ⟨hlo, hhi⟩
    · intro h
      refine ⟨l.map fun c => [c], (List.flatMap_singleton' l).symm,
        List.forall_mem_map.2 fun c hc => ⟨List.cons_ne_nil _ _, c, (h c hc).1, (h c hc).2, rfl⟩⟩
  rw [numeral, RegularExpression.add_rmatch_iff, RegularExpression.char_rmatch_iff,
    RegularExpression.mul_rmatch_iff]
  simp only [charClass_rmatch, hrun]
  constructor
  · rintro (rfl | ⟨-, rest, rfl, ⟨c, hlo, hhi, rfl⟩, hrest⟩)
    · exact .inl ⟨rfl, rfl⟩
    · exact .inr ⟨hlo, hhi, hrest⟩
  · cases s with
    | nil => exact False.elim
    | cons c rest =>
      rintro (⟨rfl, rfl⟩ | ⟨hlo, hhi, hrest⟩)
      · exact .inl rfl
      · exact .inr ⟨[c], rest, rfl, ⟨c, hlo, hhi, rfl⟩, hrest⟩

theorem parseStreamId_eq_some (s : List ℕ) (id : ℕ × ℕ) :
    Query.parseStreamId s = some id ↔ s = idText id ∧ id.1 < 2 ^ 64 ∧ id.2 < 2 ^ 64 := by
  have hpattern : streamIdPattern.rmatch s = true ↔ ∃ id, s = idText id := by
    simp only [streamIdPattern, RegularExpression.mul_rmatch_iff, numeral_rmatch,
      RegularExpression.char_rmatch_iff, ← eq_digits_iff]
    constructor
    · rintro ⟨-, -, rfl, ⟨m, rfl⟩, -, -, rfl, rfl, ⟨n, rfl⟩⟩
      exact ⟨(m, n), rfl⟩
    · rintro ⟨id, rfl⟩
      exact ⟨_, _, rfl, ⟨_, rfl⟩, _, _, rfl, rfl, ⟨_, rfl⟩⟩
  constructor
  · intro h
    obtain ⟨hmatch, h⟩ := Traverse.of_guard h
    obtain ⟨⟨m, n⟩, rfl⟩ := hpattern.1 hmatch
    obtain ⟨parts, hsplit, h⟩ := Traverse.of_bind h
    obtain rfl := Option.some.inj (hsplit.symm.trans splitHyphen_idText)
    obtain ⟨ms, hms, h⟩ := Traverse.of_bind h
    obtain ⟨seq, hseq, h⟩ := Traverse.of_bind h
    obtain ⟨hrange, h⟩ := Traverse.of_guard h
    obtain rfl := eq_of_int_digits hms
    obtain rfl := eq_of_int_digits hseq
    obtain rfl := Option.some.inj h
    unfold maxStreamIdPart at hrange
    exact ⟨rfl, by dsimp only at hrange ⊢; omega, by dsimp only at hrange ⊢; omega⟩
  · rintro ⟨rfl, hms, hseq⟩
    have hrange : ¬((id.1 : ℤ) > maxStreamIdPart ∨ (id.2 : ℤ) > maxStreamIdPart) := by
      unfold maxStreamIdPart
      omega
    exact Traverse.guard_intro (hpattern.2 ⟨id, rfl⟩) <| Traverse.bind_intro splitHyphen_idText <|
      Traverse.bind_intro (int_digits_of_lt hms) <| Traverse.bind_intro (int_digits_of_lt hseq) <|
      Traverse.guard_intro hrange rfl

lemma tupleLess_iff {a b : ℕ × ℕ} (ha : a.2 < 2 ^ 64) (hb : b.2 < 2 ^ 64) :
    (Python.tupleLess a b = true ↔ toLex a < toLex b) ∧
      (toLex a < toLex b ↔ a.1 * 2 ^ 64 + a.2 < b.1 * 2 ^ 64 + b.2) := by
  have hless : Python.tupleLess a b = true ↔ a.1 < b.1 ∨ a.1 = b.1 ∧ a.2 < b.2 := by
    unfold Python.tupleLess
    split <;> simp <;> omega
  rw [hless, Prod.Lex.toLex_lt_toLex]
  exact ⟨Iff.rfl, by omega⟩

/-- **Stream ID parsing.** Both parsers accept exactly the canonical texts of two parts of 64 bits
and return the parts, and comparing parsed pairs is the order of stream IDs: the lexicographic one,
which is that of the 128-bit numbers. -/
theorem stream_id_parsing (s : List ℕ) :
    Writer.streamIdParts s = Query.parseStreamId s ∧
    (∀ id, Query.parseStreamId s = some id ↔
      s = idText id ∧ id.1 < 2 ^ 64 ∧ id.2 < 2 ^ 64) ∧
    ∀ t a b, Query.parseStreamId s = some a → Query.parseStreamId t = some b →
      (Python.tupleLess a b = true ↔ toLex a < toLex b) ∧
      (toLex a < toLex b ↔ a.1 * 2 ^ 64 + a.2 < b.1 * 2 ^ 64 + b.2) := by
  refine ⟨Option.ext fun id => ?_, parseStreamId_eq_some s, fun t a b ha hb => ?_⟩
  · exact (streamIdParts_eq_some s id).trans (parseStreamId_eq_some s id).symm
  · exact tupleLess_iff ((parseStreamId_eq_some s a).1 ha).2.2 ((parseStreamId_eq_some t b).1 hb).2.2

end Apdl.StreamIdText
