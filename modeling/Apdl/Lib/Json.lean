import Apdl.Lib.Utf16
import Mathlib.Data.Rat.Defs

set_option autoImplicit false

/-!
# JSON values

The values a JSON text denotes. A number is the exact rational its literal denotes; strings are
sequences of UTF-16 code units, so unpaired surrogates written as escapes are kept.
-/

inductive Json
  | null
  | bool (b : Bool)
  | num (q : ℚ)
  | str (s : Text)
  | arr (items : List Json)
  | obj (fields : List (Text × Json))

namespace Json

mutual

/-- Structural equality test. -/
def eqb : Json → Json → Bool
  | .null, .null => true
  | .bool a, .bool b => a == b
  | .num a, .num b => a == b
  | .str a, .str b => a == b
  | .arr a, .arr b => eqbItems a b
  | .obj a, .obj b => eqbFields a b
  | _, _ => false

/-- Equality test for arrays. -/
def eqbItems : List Json → List Json → Bool
  | [], [] => true
  | a :: as, b :: bs => eqb a b && eqbItems as bs
  | _, _ => false

/-- Equality test for objects. -/
def eqbFields : List (Text × Json) → List (Text × Json) → Bool
  | [], [] => true
  | (k, a) :: as, (l, b) :: bs => k == l && eqb a b && eqbFields as bs
  | _, _ => false

end

mutual

theorem eqb_iff : ∀ a b : Json, eqb a b = true ↔ a = b
  | .null, b => by cases b <;> simp [eqb]
  | .bool a, b => by cases b <;> simp [eqb]
  | .num a, b => by cases b <;> simp [eqb]
  | .str a, b => by cases b <;> simp [eqb]
  | .arr a, b => by
    cases b with
    | arr b => simp only [eqb, eqbItems_iff a b, arr.injEq]
    | _ => simp [eqb]
  | .obj a, b => by
    cases b with
    | obj b => simp only [eqb, eqbFields_iff a b, obj.injEq]
    | _ => simp [eqb]

theorem eqbItems_iff : ∀ a b : List Json, eqbItems a b = true ↔ a = b
  | [], b => by cases b <;> simp [eqbItems]
  | a :: as, b => by
    cases b with
    | nil => simp [eqbItems]
    | cons b bs => simp only [eqbItems, Bool.and_eq_true, eqb_iff a b, eqbItems_iff as bs,
        List.cons.injEq]

theorem eqbFields_iff : ∀ a b : List (Text × Json), eqbFields a b = true ↔ a = b
  | [], b => by cases b <;> simp [eqbFields]
  | (k, a) :: as, b => by
    cases b with
    | nil => simp [eqbFields]
    | cons b bs =>
      obtain ⟨l, b⟩ := b
      simp only [eqbFields, Bool.and_eq_true, beq_iff_eq, eqb_iff a b, eqbFields_iff as bs,
        List.cons.injEq, Prod.mk.injEq]

end

instance : DecidableEq Json := fun a b => decidable_of_iff (eqb a b = true) (eqb_iff a b)

end Json
