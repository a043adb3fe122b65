import Apdl.Lib.Double
import Apdl.Lib.Utf16
import Mathlib.Data.Rat.Cast.Order

set_option autoImplicit false

/-!
# Python values that are not numbers only

What `json.loads` returns without options: dictionaries, lists, strings, booleans, integers of any size, and
floats, among them the infinities and the one that is not a number.

## Main results

* `PyFloat.lt_max` — what is below an element is below the `max`.
-/

/-- A float. The rational of a finite one is a double; the sign of a zero is lost. -/
inductive PyFloat
  | finite (q : ℚ)
  | nan
  | infinity (negative : Bool)
  deriving DecidableEq

namespace PyFloat

/-- The float that is nearest to a rational. -/
def nearest (q : ℚ) : PyFloat :=
  match Double.round q with
  | some r => .finite r
  | none => .infinity (decide (q < 0))

/-- `x < y`: false when one of them is not a number. -/
def lt : PyFloat → PyFloat → Bool
  | .nan, _ | _, .nan => false
  | .finite p, .finite q => decide (p < q)
  | .finite _, .infinity negative => !negative
  | .infinity negative, .finite _ => negative
  | .infinity a, .infinity b => a && !b

/-- `p * x` for a finite `p`. -/
def scale (p : ℚ) : PyFloat → PyFloat
  | .finite q => nearest (p * q)
  | .nan => .nan
  | .infinity negative => if p = 0 then .nan else .infinity (xor negative (decide (p < 0)))

/-- `max` of the elements of a list, the first one being `x`: an element replaces a smaller one. -/
def max (x : PyFloat) (rest : List PyFloat) : PyFloat :=
  rest.foldl (fun m y => if m.lt y then y else m) x

lemma max_finite {p : ℚ} {rest : List PyFloat} (h : ∀ x ∈ rest, ∀ b, x ≠ .infinity b) :
    ∃ q, max (.finite p) rest = .finite q ∧ p ≤ q ∧ (∀ r, .finite r ∈ rest → r ≤ q) ∧
      (q = p ∨ .finite q ∈ rest) := by
  induction rest generalizing p with
  | nil => exact ⟨p, rfl, le_rfl, by simp, .inl rfl⟩
  | cons y rest ih =>
    rw [List.forall_mem_cons] at h
    have hstep : ∀ p' : ℚ, (if (PyFloat.finite p).lt y then y else .finite p) = .finite p' → p ≤ p' →
        (∀ r, y = .finite r → r ≤ p') → (p' = p ∨ y = .finite p') →
        ∃ q, max (.finite p) (y :: rest) = .finite q ∧ p ≤ q ∧
          (∀ r, .finite r ∈ y :: rest → r ≤ q) ∧ (q = p ∨ .finite q ∈ y :: rest) := by
      intro p' hp' hle hy hfrom
      obtain ⟨q, hq, hpq, hrest, hq'⟩ := ih (p := p') h.2
      refine ⟨q, ?_, hle.trans hpq, ?_, ?_⟩
      · rw [max, List.foldl_cons, hp']
        exact hq
      · intro r hr
        rcases List.mem_cons.1 hr with hr | hr
        · exact (hy r hr.symm).trans hpq
        · exact hrest r hr
      · rcases hq' with rfl | hin
        · exact hfrom.imp_right fun hy => List.mem_cons.2 (.inl hy.symm)
        · exact .inr (List.mem_cons_of_mem _ hin)
    cases y with
    | nan => exact hstep p rfl le_rfl (by simp) (.inl rfl)
    | infinity b => exact absurd rfl (h.1 b)
    | finite r =>
      by_cases hlt : p < r
      · exact hstep r (by simp [lt, hlt]) hlt.le (by simp) (.inr rfl)
      · refine hstep p (by simp [lt, hlt]) le_rfl (fun r' hr' => ?_) (.inl rfl)
        obtain rfl : r = r' := by simpa using hr'
        exact not_lt.1 hlt

variable {c x y : PyFloat}

lemma lt_of_lt_of_not_lt (hy : y ≠ .nan) (hcx : c.lt x = true) (hyx : y.lt x = false) :
    c.lt y = true := by
  cases c <;> cases x <;> cases y <;> simp_all [lt]
  exact lt_of_lt_of_le ‹_› ‹_›

lemma lt_trans (hcx : c.lt x = true) (hxy : x.lt y = true) : c.lt y = true := by
  cases c <;> cases x <;> cases y <;> simp_all [lt]
  exact LT.lt.trans ‹_› ‹_›

/-- **The greatest element.** What is below an element of a list is below its `max`, unless the list starts
with a NaN. -/
lemma lt_max {rest : List PyFloat} (hx : x ≠ .nan) (hy : y ∈ x :: rest)
    (hc : c.lt y = true) : c.lt (max x rest) = true := by
  induction rest generalizing x y with
  | nil =>
    obtain rfl : y = x := by simpa using hy
    exact hc
  | cons z rest ih =>
    have hstep : (if x.lt z then z else x) ≠ .nan := by
      by_cases hz : x.lt z = true
      · rw [if_pos hz]
        rintro rfl
        cases x <;> cases hz
      · rwa [if_neg hz]
    show c.lt (max (if x.lt z then z else x) rest) = true
    by_cases hrest : y ∈ rest
    · exact ih hstep (List.mem_cons_of_mem _ hrest) hc
    -- otherwise the element that is kept is not below `y`
    have hkept : c.lt (if x.lt z then z else x) = true := by
      rw [List.mem_cons, List.mem_cons, or_iff_left hrest] at hy
      by_cases hz : x.lt z = true
      · rw [if_pos hz]
        rcases hy with rfl | rfl
        · exact lt_trans hc hz
        · exact hc
      · rw [if_neg hz]
        rcases hy with rfl | rfl
        · exact hc
        · exact lt_of_lt_of_not_lt hx hc (Bool.not_eq_true _ ▸ hz)
    exact ih hstep List.mem_cons_self hkept

end PyFloat

inductive PyValue
  | none
  | bool (b : Bool)
  | int (n : ℤ)
  | float (x : PyFloat)
  | str (s : Text)
  | list (items : List PyValue)
  | dict (fields : List (Text × PyValue))

namespace PyValue

abbrev Fields := List (Text × PyValue)

/-- `name in fields`. -/
def hasField (fields : Fields) (name : String) : Bool := (fields.lookup (Text.ofString name)).isSome

/-- `fields.get(name)`. -/
def field (fields : Fields) (name : String) : PyValue :=
  (fields.lookup (Text.ofString name)).getD .none

/-- `bool(value)`. -/
def truthy : PyValue → Bool
  | .none => false
  | .bool b => b
  | .int n => n != 0
  | .float x => x != .finite 0
  | .str s => !s.isEmpty
  | .list items => !items.isEmpty
  | .dict fields => !fields.isEmpty

/-- `value is None`. -/
def isNone : PyValue → Bool
  | .none => true
  | _ => false

/-- The number of an integer that is no boolean, or of a float. -/
def number : PyValue → Option PyFloat
  | .int n => some (.finite n)
  | .float x => some x
  | _ => Option.none

/-! ## Equality -/

/-- The number that a value is in a comparison: `True` is one. -/
def comparedNumber : PyValue → Option PyFloat
  | .bool b => some (.finite (if b then 1 else 0))
  | value => value.number

def equalNumber (v w : PyValue) : Bool :=
  match comparedNumber v, comparedNumber w with
  | some x, some y => decide (x ≠ .nan ∧ x = y)
  | _, _ => false

mutual

/-- `v == w`. -/
def equal : PyValue → PyValue → Bool
  | .none, w => w.isNone
  | .bool b, w => equalNumber (.bool b) w
  | .int n, w => equalNumber (.int n) w
  | .float x, w => equalNumber (.float x) w
  | .str s, w =>
    match w with
    | .str t => decide (s = t)
    | _ => false
  | .list vs, w =>
    match w with
    | .list ws => equalItems vs ws
    | _ => false
  | .dict fs, w =>
    match w with
    | .dict gs => decide (fs.length = gs.length) && equalFields fs gs
    | _ => false

def equalItems : List PyValue → List PyValue → Bool
  | [], [] => true
  | v :: vs, w :: ws => equal v w && equalItems vs ws
  | _, _ => false

/-- Every field of the first dictionary has an equal value in the second one. -/
def equalFields : List (Text × PyValue) → Fields → Bool
  | [], _ => true
  | (name, v) :: fs, gs =>
    (match gs.lookup name with
      | some w => equal v w
      | Option.none => false) && equalFields fs gs

end

end PyValue
