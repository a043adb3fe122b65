import Apdl.Lib.Double
import Apdl.Lib.Json

set_option autoImplicit false

/-!
# JSON documents as they are written

A JSON text says more than the value it denotes: whether a number is written as an integer or with
a fraction or an exponent decides what some runtimes read it as. `Doc` keeps that; the runtimes
differ in how they read the integer literals.

## Main definitions

* `Doc.ofJson` — a value written as a document.
-/

/-- A JSON document. -/
inductive Doc
  | null
  | bool (b : Bool)
  /-- A number without fraction and exponent. -/
  | int (n : ℤ)
  /-- A number with a fraction or an exponent. -/
  | float (q : ℚ)
  | str (s : Text)
  | arr (items : List Doc)
  | obj (fields : List (Text × Doc))

namespace Doc

abbrev Fields := List (Text × Doc)

/-- The value of a field; of a repeated field the last one counts. -/
def Fields.get (fields : Fields) (name : String) : Option Doc :=
  fields.reverse.lookup (Text.ofString name)

def Fields.read {α : Type} (fields : Fields) (name : String) (reader : Doc → Option α) : Option α :=
  (fields.get name).bind reader

lemma Fields.read_eq_some_iff {α : Type} {fields : Fields} {name : String}
    {reader : Doc → Option α} {a : α} :
    fields.read name reader = some a ↔ ∃ d, fields.get name = some d ∧ reader d = some a :=
  Option.bind_eq_some_iff

def Fields.has (fields : Fields) (name : String) : Bool := (fields.get name).isSome

/-- Every field is one of `allowed`. -/
def Fields.within (fields : Fields) (allowed : List String) : Bool :=
  fields.all fun f => (allowed.map Text.ofString).contains f.1

/-- The nearest double of a literal; a literal that overflows keeps its exact value, which is no
double. -/
def nearest (q : ℚ) : ℚ := (Double.round q).getD q

/-- A number literal as a finite double. -/
def toDouble : Doc → Option ℚ
  | .int n => Double.round n
  | .float q => Double.round q
  | _ => none

/-- The string a document is. -/
def toText : Doc → Option Text
  | .str s => some s
  | _ => none

def toItems : Doc → Option (List Doc)
  | .arr items => some items
  | _ => none

def toFields : Doc → Option Fields
  | .obj fields => some fields
  | _ => none

/-- The document is `null`. -/
def isNull : Doc → Bool
  | .null => true
  | _ => false

mutual

/-- The value of a document when an integer literal is read by `readInt`. -/
def read (readInt : ℤ → ℚ) : Doc → Json
  | .null => .null
  | .bool b => .bool b
  | .int n => .num (readInt n)
  | .float q => .num (nearest q)
  | .str s => .str s
  | .arr items => .arr (readItems readInt items)
  | .obj fields => .obj (readFields readInt fields)

/-- The values of the items of an array. -/
def readItems (readInt : ℤ → ℚ) : List Doc → List Json
  | [] => []
  | d :: ds => read readInt d :: readItems readInt ds

/-- The values of the fields of an object. -/
def readFields (readInt : ℤ → ℚ) : List (Text × Doc) → List (Text × Json)
  | [] => []
  | (k, d) :: ds => (k, read readInt d) :: readFields readInt ds

end

mutual

/-- A value written as a document: an integer without a fraction, any other number with one. -/
def ofJson : Json → Doc
  | .null => .null
  | .bool b => .bool b
  | .num q => if q.den = 1 then .int q.num else .float q
  | .str s => .str s
  | .arr items => .arr (ofItems items)
  | .obj fields => .obj (ofFields fields)

/-- The items of an array, written. -/
def ofItems : List Json → List Doc
  | [] => []
  | v :: vs => ofJson v :: ofItems vs

/-- The fields of an object, written. -/
def ofFields : List (Text × Json) → List (Text × Doc)
  | [] => []
  | (k, v) :: vs => (k, ofJson v) :: ofFields vs

end

lemma readItems_eq_map (readInt : ℤ → ℚ) (items : List Doc) :
    readItems readInt items = items.map (read readInt) := by
  induction items with
  | nil => rfl
  | cons d ds ih => rw [readItems, List.map_cons, ih]

end Doc
