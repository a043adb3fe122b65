import Apdl.Lib.Placeholder

set_option autoImplicit false

/-!
# Event selectors as SQL

`build_selector_condition` turns an event selector into a boolean expression of ClickHouse. What the
user supplied goes into named parameters, which the expression refers to by `%(name)s`.

## Design

A filter pairs an operator with a value of the kind that `check_operator_value` demands for it, so
the two are one inductive type. Numbers are any type `N` with a text of their own: no builder looks
at a number.
-/

namespace Apdl.Query.Sql

/-- A scalar that a filter compares with. -/
inductive Scalar (N : Type)
  | bool (value : Bool)
  | number (value : N)
  | string (value : String)

/-- `EventFilterOperator` with the value it takes. -/
inductive FilterTest (N : Type)
  | eq (value : Scalar N)
  | neq (value : Scalar N)
  | in_ (first : Scalar N) (rest : List (Scalar N))
  | notIn (first : Scalar N) (rest : List (Scalar N))
  | exists_
  | notExists
  | contains (value : String)
  | gt (value : N)
  | gte (value : N)
  | lt (value : N)
  | lte (value : N)

structure EventPropertyFilter (N : Type) where
  property : String
  test : FilterTest N

structure EventSelector (N : Type) where
  eventName : String
  filters : List (EventPropertyFilter N)

/-- The value of a parameter. -/
inductive Param (N : Type)
  | text (value : String)
  | number (value : N)
  | flag (value : ℕ)

def maxExactFilterInteger : ℕ := 2 ^ 53 - 1

/-- `%(name)s`. -/
def placeholder (name : String) : String := "%(" ++ name ++ ")s"

variable {N : Type}

def extractorForValue (value : Scalar N) (propertiesColumn propertyParam : String) : String :=
  match value with
  | .bool _ => "JSONExtractBool(" ++ propertiesColumn ++ ", " ++ placeholder propertyParam ++ ")"
  | .number _ => "JSONExtractFloat(" ++ propertiesColumn ++ ", " ++ placeholder propertyParam ++ ")"
  | .string _ =>
    "JSONExtractString(" ++ propertiesColumn ++ ", " ++ placeholder propertyParam ++ ")"

def jsonTypeCondition (value : Scalar N) (propertiesColumn propertyParam : String) : String :=
  let jsonType := "JSONType(" ++ propertiesColumn ++ ", " ++ placeholder propertyParam ++ ")"
  match value with
  | .bool _ => jsonType ++ " = 'Bool'"
  | .number _ =>
    let signedValue := "JSONExtractInt(" ++ propertiesColumn ++ ", " ++ placeholder propertyParam ++
      ")"
    "((" ++ jsonType ++ " = 'Int64' AND " ++ signedValue ++ " BETWEEN -" ++
      toString maxExactFilterInteger ++ " AND " ++ toString maxExactFilterInteger ++ ") OR " ++
      jsonType ++ " = 'Double')"
  | .string _ => jsonType ++ " = 'String'"

def normalizeFilterValue : Scalar N → Param N
  | .bool value => .flag (if value then 1 else 0)
  | .number value => .number value
  | .string value => .text value

/-- The branch of `_build_filter_condition` for `gt`, `gte`, `lt` and `lte`, with
`_numeric_comparator`. -/
def buildComparison (comparator : String) (property : String) (value : N)
    (pfx propertiesColumn : String) : String × List (String × Param N) :=
  let propertyParam := pfx ++ "_property"
  let valueParam := pfx ++ "_value"
  let extractor := "JSONExtractFloat(" ++ propertiesColumn ++ ", " ++ placeholder propertyParam ++ ")"
  let jsonType := jsonTypeCondition (.number value : Scalar N) propertiesColumn propertyParam
  ("(" ++ jsonType ++ " AND " ++ extractor ++ " " ++ comparator ++ " " ++ placeholder valueParam ++
      ")",
    [(propertyParam, .text property), (valueParam, .number value)])

/-- The branch of `_build_filter_condition` for `in` and `not_in`. -/
def buildMembership (comparator : String) (property : String) (first : Scalar N)
    (rest : List (Scalar N)) (pfx propertiesColumn : String) : String × List (String × Param N) :=
  let propertyParam := pfx ++ "_property"
  let values := (first :: rest).zipIdx.map fun (value, index) =>
    (pfx ++ "_value_" ++ toString index, normalizeFilterValue value)
  let valueParams := values.map fun value => placeholder value.1
  let extractor := extractorForValue first propertiesColumn propertyParam
  let jsonType := jsonTypeCondition first propertiesColumn propertyParam
  let valuesSql := String.intercalate ", " valueParams
  ("(" ++ jsonType ++ " AND " ++ extractor ++ " " ++ comparator ++ " (" ++ valuesSql ++ "))",
    (propertyParam, .text property) :: values)

/-- The branch of `_build_filter_condition` for `eq` and `neq`. -/
def buildEquality (comparator : String) (property : String) (value : Scalar N)
    (pfx propertiesColumn : String) : String × List (String × Param N) :=
  let propertyParam := pfx ++ "_property"
  let valueParam := pfx ++ "_value"
  let extractor := extractorForValue value propertiesColumn propertyParam
  let jsonType := jsonTypeCondition value propertiesColumn propertyParam
  ("(" ++ jsonType ++ " AND " ++ extractor ++ " " ++ comparator ++ " " ++ placeholder valueParam ++
      ")",
    [(propertyParam, .text property), (valueParam, normalizeFilterValue value)])

/-- `_build_filter_condition`: the expression and the parameters. -/
def buildFilterCondition (filter : EventPropertyFilter N) (pfx propertiesColumn : String) :
    String × List (String × Param N) :=
  let propertyParam := pfx ++ "_property"
  match filter.test with
  | .exists_ =>
    ("JSONHas(" ++ propertiesColumn ++ ", " ++ placeholder propertyParam ++ ")",
      [(propertyParam, .text filter.property)])
  | .notExists =>
    ("NOT JSONHas(" ++ propertiesColumn ++ ", " ++ placeholder propertyParam ++ ")",
      [(propertyParam, .text filter.property)])
  | .contains value =>
    let valueParam := pfx ++ "_value"
    let extractor :=
      "JSONExtractString(" ++ propertiesColumn ++ ", " ++ placeholder propertyParam ++ ")"
    let jsonType := jsonTypeCondition (.string value : Scalar N) propertiesColumn propertyParam
    ("(" ++ jsonType ++ " AND position(" ++ extractor ++ ", " ++ placeholder valueParam ++ ") > 0)",
      [(propertyParam, .text filter.property), (valueParam, .text value)])
  | .gt value => buildComparison ">" filter.property value pfx propertiesColumn
  | .gte value => buildComparison ">=" filter.property value pfx propertiesColumn
  | .lt value => buildComparison "<" filter.property value pfx propertiesColumn
  | .lte value => buildComparison "<=" filter.property value pfx propertiesColumn
  | .in_ first rest => buildMembership "IN" filter.property first rest pfx propertiesColumn
  | .notIn first rest => buildMembership "NOT IN" filter.property first rest pfx propertiesColumn
  | .eq value => buildEquality "=" filter.property value pfx propertiesColumn
  | .neq value => buildEquality "!=" filter.property value pfx propertiesColumn

/-- `build_selector_condition`, with the column names that the builders pass. -/
def buildSelectorCondition (selector : EventSelector N) (pfx : String) :
    String × List (String × Param N) :=
  let eventParam := pfx ++ "_event_name"
  let filters := selector.filters.zipIdx.map fun (filter, index) =>
    buildFilterCondition filter (pfx ++ "_filter_" ++ toString index) "properties"
  let clauses := ("e.event_name = " ++ placeholder eventParam) :: filters.map Prod.fst
  ("(" ++ String.intercalate " AND " clauses ++ ")",
    (eventParam, .text selector.eventName) :: filters.flatMap Prod.snd)

/-! ## Labels -/

section Label

variable (numberStr : N → String)

/-- `str` of a scalar. -/
def Scalar.str : Scalar N → String
  | .bool value => if value then "True" else "False"
  | .number value => numberStr value
  | .string value => value

/-- The operator and its value in `_filter_label`. -/
def FilterTest.label : FilterTest N → String
  | .exists_ => "exists"
  | .notExists => "not_exists"
  | .contains value => "contains " ++ value
  | .gt value => "gt " ++ numberStr value
  | .gte value => "gte " ++ numberStr value
  | .lt value => "lt " ++ numberStr value
  | .lte value => "lte " ++ numberStr value
  | .in_ first rest =>
    "in [" ++ String.intercalate "," ((first :: rest).map (Scalar.str numberStr)) ++ "]"
  | .notIn first rest =>
    "not_in [" ++ String.intercalate "," ((first :: rest).map (Scalar.str numberStr)) ++ "]"
  | .eq value => "eq " ++ value.str numberStr
  | .neq value => "neq " ++ value.str numberStr

def filterLabel (filter : EventPropertyFilter N) : String :=
  filter.property ++ " " ++ filter.test.label numberStr

def selectorLabel (selector : EventSelector N) : String :=
  if selector.filters.isEmpty then selector.eventName
  else selector.eventName ++ "[" ++
    String.intercalate ", " (selector.filters.map (filterLabel numberStr)) ++ "]"

end Label

def normalizeQueryParams (query : String) : String :=
  String.ofList (Placeholder.normalize query.toList)

end Apdl.Query.Sql
