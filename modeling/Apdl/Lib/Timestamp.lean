import Apdl.Lib.Traverse
import Apdl.Lib.Utf16
import Mathlib.Tactic.Ring

set_option autoImplicit false

/-!
# Python's `datetime` and RFC 3339 texts

A UTC `datetime` is the record of its fields, which are those of an existing instant. Texts of the
form `YYYY-MM-DDTHH:MM:SS[.ffffff]Z` are read with the decimal digits of every script, as `\d` and
`int` do, and written with those of ASCII.

## Main results

* `Timestamp.groups_format` — a text that was written is read as the instant it was written for.
-/

def isLeapYear (year : ℕ) : Bool :=
  decide (year % 4 = 0) && (decide (year % 100 ≠ 0) || decide (year % 400 = 0))

def daysInMonth (year month : ℕ) : ℕ :=
  if month = 2 then if isLeapYear year then 29 else 28
  else if month = 4 ∨ month = 6 ∨ month = 9 ∨ month = 11 then 30
  else 31

/-- A UTC `datetime`. -/
@[ext]
structure Datetime where
  year : ℕ
  month : ℕ
  day : ℕ
  hour : ℕ
  minute : ℕ
  second : ℕ
  microsecond : ℕ
  year_range : 1 ≤ year ∧ year ≤ 9999
  month_range : 1 ≤ month ∧ month ≤ 12
  day_range : 1 ≤ day ∧ day ≤ daysInMonth year month
  hour_range : hour ≤ 23
  minute_range : minute ≤ 59
  second_range : second ≤ 59
  microsecond_range : microsecond ≤ 999999
  deriving DecidableEq

namespace Datetime

/-- The constructor `datetime(…, tzinfo=timezone.utc)`; `none` when it raises `ValueError`. -/
def make? (year month day hour minute second microsecond : ℕ) : Option Datetime :=
  if h : (1 ≤ year ∧ year ≤ 9999) ∧ (1 ≤ month ∧ month ≤ 12) ∧
      (1 ≤ day ∧ day ≤ daysInMonth year month) ∧ hour ≤ 23 ∧ minute ≤ 59 ∧ second ≤ 59 ∧
      microsecond ≤ 999999 then
    some ⟨year, month, day, hour, minute, second, microsecond, h.1, h.2.1, h.2.2.1, h.2.2.2.1,
      h.2.2.2.2.1, h.2.2.2.2.2.1, h.2.2.2.2.2.2⟩
  else none

lemma make?_fields (t : Datetime) :
    make? t.year t.month t.day t.hour t.minute t.second t.microsecond = some t :=
  dif_pos ⟨t.year_range, t.month_range, t.day_range, t.hour_range, t.minute_range, t.second_range,
    t.microsecond_range⟩

def daysBeforeMonth (year month : ℕ) : ℕ :=
  ((List.range (month - 1)).map fun m => daysInMonth year (m + 1)).sum

/-- The proleptic Gregorian ordinal of a date. -/
def ordinal (year month day : ℕ) : ℕ :=
  365 * (year - 1) + (year - 1) / 4 - (year - 1) / 100 + (year - 1) / 400 +
    daysBeforeMonth year month + day

/-- The microseconds from the beginning of the calendar to an instant. -/
def micros (t : Datetime) : ℤ :=
  1000000 * (60 * (60 * (24 * ordinal t.year t.month t.day + t.hour) + t.minute) + t.second : ℕ) +
    t.microsecond

/-- `datetime.min`, in microseconds. -/
def minMicros : ℤ := 86400 * 1000000

/-- `datetime.max`, in microseconds. -/
def maxMicros : ℤ := 3652060 * 86400 * 1000000 - 1

/-- `t + timedelta(seconds=seconds)`, in microseconds; `none` when it raises `OverflowError`. -/
def shift (t : Datetime) (seconds : ℤ) : Option ℤ :=
  let shifted := t.micros + 1000000 * seconds
  if minMicros ≤ shifted ∧ shifted ≤ maxMicros then some shifted else none

/-- `t.replace(microsecond=(t.microsecond // 1_000) * 1_000)`. -/
def truncateMillis (t : Datetime) : Datetime :=
  { t with
    microsecond := t.microsecond / 1000 * 1000
    microsecond_range := le_trans (Nat.div_mul_le_self _ _) t.microsecond_range }

end Datetime

namespace Timestamp

/-! ## Texts -/

def decimalZeros : List ℕ :=
  [0x30, 0x660, 0x6F0, 0x7C0, 0x966, 0x9E6, 0xA66, 0xAE6, 0xB66, 0xBE6, 0xC66, 0xCE6, 0xD66, 0xDE6,
    0xE50, 0xED0, 0xF20, 0x1040, 0x1090, 0x17E0, 0x1810, 0x1946, 0x19D0, 0x1A80, 0x1A90, 0x1B50,
    0x1BB0, 0x1C40, 0x1C50, 0xA620, 0xA8D0, 0xA900, 0xA9D0, 0xA9F0, 0xAA50, 0xABF0, 0xFF10,
    0x104A0, 0x10D30, 0x10D40, 0x11066, 0x110F0, 0x11136, 0x111D0, 0x112F0, 0x11450, 0x114D0,
    0x11650, 0x116C0, 0x116D0, 0x116DA, 0x11730, 0x118E0, 0x11950, 0x11BF0, 0x11C50, 0x11D50,
    0x11DA0, 0x11F50, 0x16130, 0x16A60, 0x16AC0, 0x16B50, 0x16D70, 0x1CCF0, 0x1D7CE, 0x1D7D8,
    0x1D7E2, 0x1D7EC, 0x1D7F6, 0x1E140, 0x1E2F0, 0x1E4F0, 0x1E5F1, 0x1E950, 0x1FBF0]

/-- The value of a character that `\d` matches. -/
def decimalValue (c : ℕ) : Option ℕ :=
  decimalZeros.findSome? fun z => if z ≤ c ∧ c ≤ z + 9 then some (c - z) else none

/-- `int` of exactly `n` digits, and the rest. -/
def takeNumber : ℕ → ℕ → List ℕ → Option (ℕ × List ℕ)
  | 0, acc, cs => some (acc, cs)
  | _ + 1, _, [] => none
  | n + 1, acc, c :: cs => (decimalValue c).bind fun d => takeNumber n (10 * acc + d) cs

/-- The rest after a character. -/
def expect (c : ℕ) : List ℕ → Option (List ℕ)
  | [] => none
  | x :: xs => if x = c then some xs else none

/-- The digits at the beginning of a text, and the rest. -/
def takeRun : List ℕ → List ℕ × List ℕ
  | [] => ([], [])
  | c :: cs =>
    match decimalValue c with
    | none => ([], c :: cs)
    | some d => (d :: (takeRun cs).1, (takeRun cs).2)

/-- `(?:\.(\d{1,6}))?`: the digits of a fraction, filled up with zeros. -/
def fraction (cs : List ℕ) : Option (ℕ × List ℕ) :=
  match expect 46 cs with
  | none => some (0, cs)
  | some rest =>
    let (ds, rest) := takeRun rest
    if 1 ≤ ds.length ∧ ds.length ≤ 6 then
      some ((ds ++ List.replicate (6 - ds.length) 0).foldl (fun n d => 10 * n + d) 0, rest)
    else none

/-- The groups of `RFC3339_UTC_PATTERN`, as numbers. -/
structure Groups where
  year : ℕ
  month : ℕ
  day : ℕ
  hour : ℕ
  minute : ℕ
  second : ℕ
  microsecond : ℕ
  deriving DecidableEq

/-- `RFC3339_UTC_PATTERN.fullmatch`. -/
def groups (t : Text) : Option Groups := do
  let (year, cs) ← takeNumber 4 0 t.codePoints
  let cs ← expect 45 cs
  let (month, cs) ← takeNumber 2 0 cs
  let cs ← expect 45 cs
  let (day, cs) ← takeNumber 2 0 cs
  let cs ← expect 84 cs
  let (hour, cs) ← takeNumber 2 0 cs
  let cs ← expect 58 cs
  let (minute, cs) ← takeNumber 2 0 cs
  let cs ← expect 58 cs
  let (second, cs) ← takeNumber 2 0 cs
  let (microsecond, cs) ← fraction cs
  let cs ← expect 90 cs
  guard (cs = [])
  return ⟨year, month, day, hour, minute, second, microsecond⟩

/-- The `datetime` with the groups; `none` when the constructor raises. -/
def Groups.datetime? (g : Groups) : Option Datetime :=
  Datetime.make? g.year g.month g.day g.hour g.minute g.second g.microsecond

/-- A number in `w` decimal digits. -/
def padded : ℕ → ℕ → List ℕ
  | 0, _ => []
  | w + 1, n => (48 + n / 10 ^ w) :: padded w (n % 10 ^ w)

/-- The characters of an instant of a four-digit year, with milliseconds. -/
def formatPoints (t : Datetime) : List ℕ :=
  padded 4 t.year ++ 45 :: (padded 2 t.month ++ 45 :: (padded 2 t.day ++ 84 ::
    (padded 2 t.hour ++ 58 :: (padded 2 t.minute ++ 58 :: (padded 2 t.second ++ 46 ::
      (padded 3 (t.microsecond / 1000) ++ [90]))))))

/-- `t.strftime("%Y-%m-%dT%H:%M:%S.") + f"{t.microsecond // 1000:03d}Z"`, for a year of four
digits. -/
def format (t : Datetime) : Text := (formatPoints t).map UInt16.ofNat

/-! ## Reading back -/

lemma decimalValue_ascii {d : ℕ} (h : d ≤ 9) : decimalValue (48 + d) = some d := by
  have hfirst : 0x30 ≤ 48 + d ∧ 48 + d ≤ 0x30 + 9 := by omega
  rw [decimalValue, decimalZeros, List.findSome?_cons, if_pos hfirst]
  simp

lemma leading_digit (acc n w : ℕ) :
    (10 * acc + n / 10 ^ w) * 10 ^ w + n % 10 ^ w = acc * 10 ^ (w + 1) + n := by
  calc (10 * acc + n / 10 ^ w) * 10 ^ w + n % 10 ^ w
      = acc * 10 ^ (w + 1) + (10 ^ w * (n / 10 ^ w) + n % 10 ^ w) := by ring
    _ = acc * 10 ^ (w + 1) + n := by rw [Nat.div_add_mod]

variable {w n : ℕ}

lemma takeNumber_padded (acc : ℕ) (h : n < 10 ^ w) (rest : List ℕ) :
    takeNumber w acc (padded w n ++ rest) = some (acc * 10 ^ w + n, rest) := by
  induction w generalizing n acc with
  | zero =>
    obtain rfl : n = 0 := by simpa using h
    simp [takeNumber, padded]
  | succ w ih =>
    have hdigit : n / 10 ^ w ≤ 9 := by
      have : n / 10 ^ w < 10 := Nat.div_lt_of_lt_mul (by rwa [pow_succ] at h)
      omega
    have hmod : n % 10 ^ w < 10 ^ w := Nat.mod_lt _ (Nat.pow_pos (by decide))
    rw [padded, List.cons_append, takeNumber, decimalValue_ascii hdigit, Option.bind_some,
      ih _ hmod]
    rw [leading_digit]

lemma takeRun_padded (h : n < 10 ^ w) :
    ∃ ds, takeRun (padded w n ++ [90]) = (ds, [90]) ∧ ds.length = w ∧
      ∀ acc, ds.foldl (fun n d => 10 * n + d) acc = acc * 10 ^ w + n := by
  induction w generalizing n with
  | zero =>
    obtain rfl : n = 0 := by simpa using h
    exact ⟨[], by decide +kernel, rfl, fun acc => by simp⟩
  | succ w ih =>
    have hdigit : n / 10 ^ w ≤ 9 := by
      have : n / 10 ^ w < 10 := Nat.div_lt_of_lt_mul (by rwa [pow_succ] at h)
      omega
    obtain ⟨ds, hrun, hlen, hvalue⟩ := ih (n := n % 10 ^ w) (Nat.mod_lt _ (Nat.pow_pos (by decide)))
    refine ⟨n / 10 ^ w :: ds, ?_, by simp [hlen], fun acc => ?_⟩
    · simp [padded, takeRun, decimalValue_ascii hdigit, hrun]
    · rw [List.foldl_cons, hvalue, leading_digit]

lemma fraction_padded (h : n < 1000) :
    fraction (46 :: (padded 3 n ++ [90])) = some (n * 1000, [90]) := by
  obtain ⟨ds, hrun, hlen, hvalue⟩ := takeRun_padded (w := 3) (n := n) (by simpa using h)
  have hfill : (ds ++ List.replicate (6 - ds.length) 0).foldl (fun n d => 10 * n + d) 0 =
      n * 1000 := by
    rw [hlen, List.foldl_append, hvalue]
    simp only [Nat.reduceSub, List.replicate, List.foldl_cons, List.foldl_nil]
    ring
  simp only [fraction, expect, if_pos, hrun]
  rw [if_pos (by omega), hfill]

lemma codePoints_ofNat {ps : List ℕ} (h : ∀ p ∈ ps, p < 128) :
    Text.codePoints (ps.map UInt16.ofNat) = ps := by
  induction ps with
  | nil => rfl
  | cons p ps ih =>
    obtain ⟨hp, hps⟩ := List.forall_mem_cons.1 h
    have hnat : (UInt16.ofNat p).toNat = p := by
      simp only [UInt16.toNat_ofNat']
      exact Nat.mod_eq_of_lt (by omega)
    have hhigh : CodeUnit.isHigh (UInt16.ofNat p) = false := by
      simp only [CodeUnit.isHigh, hnat, Bool.and_eq_false_iff, decide_eq_false_iff_not]
      omega
    rw [List.map_cons, Text.codePoints_cons hhigh, hnat, ih hps]

lemma padded_lt (h : n < 10 ^ w) : ∀ p ∈ padded w n, p < 128 := by
  induction w generalizing n with
  | zero => simp [padded]
  | succ w ih =>
    have hdigit : n / 10 ^ w < 10 := Nat.div_lt_of_lt_mul (by rwa [pow_succ] at h)
    rw [padded, List.forall_mem_cons]
    exact ⟨by omega, ih (Nat.mod_lt _ (Nat.pow_pos (by decide)))⟩

lemma daysInMonth_le (year month : ℕ) : daysInMonth year month ≤ 31 := by
  unfold daysInMonth
  split_ifs <;> omega

theorem groups_format (t : Datetime) :
    groups (format t) = some ⟨t.year, t.month, t.day, t.hour, t.minute, t.second,
      t.microsecond / 1000 * 1000⟩ := by
  have hyear : t.year < 10 ^ 4 := by have := t.year_range; omega
  have hmonth : t.month < 10 ^ 2 := by have := t.month_range; omega
  have hday : t.day < 10 ^ 2 := by
    have := t.day_range
    have := daysInMonth_le t.year t.month
    omega
  have hhour : t.hour < 10 ^ 2 := by have := t.hour_range; omega
  have hminute : t.minute < 10 ^ 2 := by have := t.minute_range; omega
  have hsecond : t.second < 10 ^ 2 := by have := t.second_range; omega
  have hmillis : t.microsecond / 1000 < 1000 := by have := t.microsecond_range; omega
  have hascii : ∀ p ∈ formatPoints t, p < 128 := by
    simp only [formatPoints, List.forall_mem_append, List.forall_mem_cons, List.not_mem_nil,
      false_implies, implies_true, and_true]
    exact ⟨padded_lt hyear, by omega, padded_lt hmonth, by omega, padded_lt hday, by omega,
      padded_lt hhour, by omega, padded_lt hminute, by omega, padded_lt hsecond, by omega,
      padded_lt hmillis, by omega⟩
  have hpoints : (format t).codePoints = formatPoints t := codePoints_ofNat hascii
  refine Traverse.bind_intro (by rw [hpoints]; exact takeNumber_padded 0 hyear _) <|
    Traverse.bind_intro rfl <| Traverse.bind_intro (takeNumber_padded 0 hmonth _) <|
    Traverse.bind_intro rfl <| Traverse.bind_intro (takeNumber_padded 0 hday _) <|
    Traverse.bind_intro rfl <| Traverse.bind_intro (takeNumber_padded 0 hhour _) <|
    Traverse.bind_intro rfl <| Traverse.bind_intro (takeNumber_padded 0 hminute _) <|
    Traverse.bind_intro rfl <| Traverse.bind_intro (takeNumber_padded 0 hsecond _) <|
    Traverse.bind_intro (fraction_padded hmillis) <| Traverse.bind_intro rfl <|
    Traverse.guard_intro rfl ?_
  simp

end Timestamp
