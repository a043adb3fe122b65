import Apdl.Lib.Double
import Apdl.Lib.Json

set_option autoImplicit false

/-!
# The targeting value contract

`targeting_contract.py` of the config service, its copy in the Python SDK and
`targeting-contract.ts` of the JavaScript SDK are the same functions, except that Python measures
strings in code points and JavaScript in UTF-16 code units. The definitions here take the length
as a parameter; `Text.length` gives the Python ones and `Text.unitLength` the JavaScript ones.
-/

namespace Apdl.Flags

/-! ## Limits and operators -/

def maxRules : ℕ := 50

def maxConditionsPerRule : ℕ := 20

def maxIdentifierLength : ℕ := 128

def maxStringLength : ℕ := 256

def maxMembershipValues : ℕ := 100

/-- `ConditionOperator`. -/
inductive Operator
  | equals
  | notEquals
  | gt
  | gte
  | lt
  | lte
  | contains
  | notContains
  | startsWith
  | endsWith
  | isIn
  | notIn
  | exists
  | notExists
  deriving DecidableEq, Repr

/-- The sets the operators are partitioned into. -/
inductive OperatorClass
  | equality
  | string
  | numeric
  | membership
  | presence
  deriving DecidableEq, Repr

/-- `EQUALITY_OPERATORS`, `STRING_OPERATORS`, `NUMERIC_OPERATORS`, `MEMBERSHIP_OPERATORS` and
`PRESENCE_OPERATORS`. -/
def Operator.cls : Operator → OperatorClass
  | .equals | .notEquals => .equality
  | .contains | .notContains | .startsWith | .endsWith => .string
  | .gt | .gte | .lt | .lte => .numeric
  | .isIn | .notIn => .membership
  | .exists | .notExists => .presence

/-- `operator in PRESENCE_OPERATORS`. -/
def Operator.isPresence (op : Operator) : Bool := decide (op.cls = .presence)

/-! ## The decimal grammar -/

def digitValue (u : CodeUnit) : Option ℕ :=
  if 48 ≤ u.toNat ∧ u.toNat ≤ 57 then some (u.toNat - 48) else none

/-- The longest run of digits at the front, and the rest. -/
def takeDigits : Text → List ℕ × Text
  | [] => ([], [])
  | u :: rest =>
    match digitValue u with
    | none => ([], u :: rest)
    | some d => (d :: (takeDigits rest).1, (takeDigits rest).2)

/-- The number a digit list denotes. -/
def digitsValue (ds : List ℕ) : ℕ := ds.foldl (fun n d => 10 * n + d) 0

/-- `0|[1-9][0-9]*`. -/
def isIntegerPart (ds : List ℕ) : Bool :=
  match ds with
  | [] => false
  | [_] => true
  | d :: _ => decide (d ≠ 0)

/-- `(?:\.[0-9]+)?` at the front: the digits after the point and the rest, `none` when a point
has no digit after it. -/
def fractionPart (t : Text) : Option (List ℕ × Text) :=
  match t with
  | 46 :: rest =>
    match takeDigits rest with
    | ([], _) => none
    | (ds, rest') => some (ds, rest')
  | t => some ([], t)

def exponentSign (t : Text) : Bool × Text :=
  match t with
  | 43 :: rest => (false, rest)
  | 45 :: rest => (true, rest)
  | t => (false, t)

/-- `(?:[eE][+-]?[0-9]+)?$`: the exponent at the end of the text. -/
def exponentPart (t : Text) : Option ℤ :=
  match t with
  | [] => some 0
  | u :: rest =>
    if u = 69 ∨ u = 101 then
      match takeDigits (exponentSign rest).2 with
      | ([], _) => none
      | (ds, []) =>
        some (if (exponentSign rest).1 then -(digitsValue ds : ℤ) else (digitsValue ds : ℤ))
      | (_, _ :: _) => none
    else none

def literalSign (t : Text) : Bool × Text :=
  match t with
  | 45 :: rest => (true, rest)
  | t => (false, t)

/-- The value of a text that matches `NUMERIC_PATTERN`. -/
def numericLiteral (t : Text) : Option ℚ :=
  let (negative, body) := literalSign t
  let (whole, afterWhole) := takeDigits body
  if isIntegerPart whole then
    (fractionPart afterWhole).bind fun (frac, afterFrac) =>
      (exponentPart afterFrac).map fun e =>
        let mantissa : ℚ := (digitsValue (whole ++ frac) : ℚ) / 10 ^ frac.length
        let value : ℚ := if 0 ≤ e then mantissa * 10 ^ e.toNat else mantissa / 10 ^ (-e).toNat
        if negative then -value else value
  else none

/-! ## The contract -/

section Contract

variable (len : Text → ℕ)

def isIdentifier (t : Text) : Bool := decide (0 < len t) && decide (len t ≤ maxIdentifierLength)

/-- `is_bounded_string`, of a string. -/
def isBoundedText (t : Text) : Bool := decide (len t ≤ maxStringLength)

def isBoundedString : Json → Bool
  | .str s => isBoundedText len s
  | _ => false

/-- `is_scalar`; a number has to convert to a finite double (`is_json_number`). -/
def isScalar : Json → Bool
  | .str s => isBoundedText len s
  | .bool _ => true
  | .num q => (Double.round q).isSome
  | _ => false

/-- `scalar_equal`: equality without coercion; numbers are compared as doubles. -/
def scalarEqual (left right : Json) : Bool :=
  if isScalar len left && isScalar len right then
    match left, right with
    | .bool a, .bool b => a == b
    | .str a, .str b => a == b
    | .num a, .num b => Double.round a == Double.round b
    | _, _ => false
  else false

def parseNumeric : Json → Option ℚ
  | .num q => Double.round q
  | .str s => if isBoundedText len s then (numericLiteral s).bind Double.round else none
  | _ => none

def isMembershipList : Json → Bool
  | .arr items =>
    decide (0 < items.length) && decide (items.length ≤ maxMembershipValues) &&
      items.all (isScalar len)
  | _ => false

def isConditionValueValid (op : Operator) (value : Json) : Bool :=
  match op.cls with
  | .equality => isScalar len value
  | .string => isBoundedString len value
  | .numeric => (parseNumeric len value).isSome
  | .membership => isMembershipList len value
  | .presence => false

end Contract

lemma isConditionValueValid_null (len : Text → ℕ) (op : Operator) :
    isConditionValueValid len op .null = false := by
  cases op <;> rfl

end Apdl.Flags
