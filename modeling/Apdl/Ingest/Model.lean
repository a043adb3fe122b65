import Apdl.Flags.Hash
import Apdl.Lib.NumberText
import Apdl.Lib.PyJson
import Apdl.Lib.Timestamp

set_option autoImplicit false

/-!
# Values and bounds of ingestion requests

The values a request body is made of and the limits of `validate_event_json_bounds`
(`validation/json_contract.py`) on an event: depth, cardinality, number of nodes and bytes.

## Design

A Python value is a `Doc` (`PyJson`). Some Python operations raise on some values: a list or an
object has no hash, and an integer beyond the doubles has no conversion (`Raised`).
-/

namespace Apdl.Ingest

open Doc (Fields)
open Text (ofString)
open Flags (wellFormed utf8Encode)
open JsonText (NumberLiteral)

/-- The text of a number. -/
def ofNat (n : ℕ) : Text := ofString (toString n)

/-- An exception that is no validation error. -/
inductive Raised
  /-- `TypeError`: a list or a dictionary has no hash. -/
  | unhashable
  /-- `OverflowError`: the result of a conversion or of date arithmetic is out of range. -/
  | overflow
  deriving DecidableEq, Repr

/-- An error of the response: `{"field": …, "message": …}`. -/
structure FieldError where
  field : Text
  message : Text
  deriving DecidableEq

/-! ## Bounds -/

def maxEventBytes : ℕ := 64 * 1024

def maxJsonDepth : ℕ := 10

def maxContainerItems : ℕ := 100

def maxEventNodes : ℕ := 1000

mutual

/-- `visit`: the number of nodes up to here, or the text of the limit that is exceeded. -/
def visit (value : Doc) (depth : ℕ) (path : Text) (nodes : ℕ) : Except Text ℕ :=
  if maxEventNodes < nodes + 1 then
    .error (ofString "Event exceeds maximum JSON node count of 1000")
  else if maxJsonDepth < depth then
    .error (path ++ ofString " exceeds maximum JSON depth of 10")
  else
    match value with
    | .obj fields =>
      if maxContainerItems < fields.length then
        .error (path ++ ofString " exceeds maximum object fields of 100")
      else visitFields fields (depth + 1) path (nodes + 1)
    | .arr items =>
      if maxContainerItems < items.length then
        .error (path ++ ofString " exceeds maximum array items of 100")
      else visitItems items 0 (depth + 1) path (nodes + 1)
    | _ => .ok (nodes + 1)

/-- The loop over the fields of an object. -/
def visitFields (fields : List (Text × Doc)) (depth : ℕ) (path : Text) (nodes : ℕ) :
    Except Text ℕ :=
  match fields with
  | [] => .ok nodes
  | (key, item) :: rest =>
    (visit item depth (path ++ ofString "." ++ key) nodes).bind fun nodes =>
      visitFields rest depth path nodes

/-- The loop over the items of an array. -/
def visitItems (items : List Doc) (index depth : ℕ) (path : Text) (nodes : ℕ) : Except Text ℕ :=
  match items with
  | [] => .ok nodes
  | item :: rest =>
    (visit item depth (path ++ ofString "[" ++ ofNat index ++ ofString "]") nodes).bind fun nodes =>
      visitItems rest (index + 1) depth path nodes

end

/-- The bytes of a character in a JSON string that is written with `ensure_ascii=False`. -/
def charSize (c : ℕ) : ℕ :=
  if c = 34 ∨ c = 92 ∨ c = 8 ∨ c = 9 ∨ c = 10 ∨ c = 12 ∨ c = 13 then 2
  else if c < 32 then 6
  else (utf8Encode c).length

/-- The bytes of a JSON string. -/
def stringSize (s : Text) : ℕ := 2 + (s.codePoints.map charSize).sum

/-- The length of `repr` of a double. -/
def floatSize (q : ℚ) : ℕ :=
  let decimal := NumberLiteral.shortest |q|
  (NumberLiteral.ofDigits (decide (q < 0)) decimal.1 decimal.2).write.unitLength

mutual

/-- The length of `json.dumps(value, ensure_ascii=False, separators=(",", ":")).encode("utf-8")`. -/
def encodedSize : Doc → ℕ
  | .null => 4
  | .bool b => if b then 4 else 5
  | .int n => PyJson.intDigits n + if n < 0 then 1 else 0
  | .float q => floatSize q
  | .str s => stringSize s
  | .arr items => 2 + (items.length - 1) + itemsSize items
  | .obj fields => 2 + (fields.length - 1) + fieldsSize fields

/-- The bytes of the items of an array. -/
def itemsSize : List Doc → ℕ
  | [] => 0
  | d :: ds => encodedSize d + itemsSize ds

/-- The bytes of the fields of an object. -/
def fieldsSize : List (Text × Doc) → ℕ
  | [] => 0
  | (k, d) :: ds => stringSize k + 1 + encodedSize d + fieldsSize ds

end

mutual

/-- Every string of the value can be encoded. -/
def encodable : Doc → Bool
  | .str s => wellFormed s
  | .arr items => encodableItems items
  | .obj fields => encodableFields fields
  | _ => true

/-- Every string of the items can be encoded. -/
def encodableItems : List Doc → Bool
  | [] => true
  | d :: ds => encodable d && encodableItems ds

/-- Every string of the fields can be encoded. -/
def encodableFields : List (Text × Doc) → Bool
  | [] => true
  | (k, d) :: ds => wellFormed k && encodable d && encodableFields ds

end

/-- `validate_event_json_bounds`, with the text of `CanonicalJSONError`. -/
def validateEventJsonBounds (event : Doc) : Except Text Unit := do
  let _ ← visit event 0 (ofString "event") 0
  Check.ensure ((PyJson.dumps event).isSome && encodable event)
    (ofString "Event contains a non-JSON value")
  Check.ensure (decide (encodedSize event ≤ maxEventBytes))
    (ofString "Event exceeds maximum serialized size of 65536 bytes")

/-! ## Values -/

/-- `bool(value)`, of a value or `None`. -/
def truthy : Option Doc → Bool
  | none => false
  | some .null => false
  | some (.bool b) => b
  | some (.int n) => decide (n ≠ 0)
  | some (.float q) => decide (q ≠ 0)
  | some (.str s) => decide (s ≠ [])
  | some (.arr items) => !items.isEmpty
  | some (.obj fields) => !fields.isEmpty

/-- `value == text`. -/
def isText (value : Option Doc) (text : String) : Bool :=
  match value with
  | some (.str s) => s == ofString text
  | _ => false

/-- `value in frozenset(texts)`. -/
def isMember (texts : List String) : Doc → Except Raised Bool
  | .str s => .ok ((texts.map ofString).contains s)
  | .arr _ => .error .unhashable
  | .obj _ => .error .unhashable
  | _ => .ok false

def isNonEmptyString : Option Doc → Bool
  | some (.str s) => decide (0 < s.length)
  | _ => false

def isFiniteNumber : Doc → Except Raised Bool
  | .int n => if (Double.round n).isSome then .ok true else .error .overflow
  | .float q => .ok (Double.round q).isSome
  | _ => .ok false

def isNonNegativeInt : Doc → Bool
  | .int n => decide (0 ≤ n)
  | _ => false

/-- The number a value is, for a comparison. -/
def toNumber : Doc → Option ℚ
  | .int n => some n
  | .float q => some q
  | _ => none

def keys (fields : Fields) : List Text := fields.map Prod.fst

/-- `sorted` of strings: by code points. -/
def sorted (texts : List Text) : List Text :=
  texts.mergeSort fun a b => decide (a.codePoints ≤ b.codePoints)

/-- `sorted(required - keys)`. -/
def missing (required : List String) (fields : Fields) : List Text :=
  sorted ((required.map ofString).filter fun k => !(keys fields).contains k)

/-- `sorted(keys - allowed)`. -/
def unknown (allowed : List String) (fields : Fields) : List Text :=
  sorted ((keys fields).filter fun k => !(allowed.map ofString).contains k)

def join (path field : Text) : Text := if path = [] then field else path ++ ofString "." ++ field

end Apdl.Ingest
