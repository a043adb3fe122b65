import Apdl.Lib.NumberText

set_option autoImplicit false

/-!
# JSON texts

The reader `json.loads` and the writer `json.dumps` of Python on texts, unit by unit.

## Design

A string is written in ASCII, every other unit as an escape. The reader recurses on a number of
steps, and two steps for each unit of the text are enough.
-/

namespace JsonText

/-! ## Values -/

/-- A value. Objects of other types stand as the strings that they are written as. -/
inductive Value
  | null
  | bool (b : Bool)
  | int (n : ℤ)
  | double (x : PyDouble)
  | str (s : Text)
  | arr (items : List Value)
  | obj (fields : List (Text × Value))

def Value.ofNumber : PyNumber → Value
  | .int n => .int n
  | .double x => .double x

/-- `null`. -/
def nullText : Text := [110, 117, 108, 108]

/-- `true` and `false`. -/
def boolText : Bool → Text
  | true => [116, 114, 117, 101]
  | false => [102, 97, 108, 115, 101]

/-- `NaN`. -/
def nanText : Text := [78, 97, 78]

/-- `Infinity` and `-Infinity`. -/
def infinityText : Bool → Text
  | true => [45, 73, 110, 102, 105, 110, 105, 116, 121]
  | false => [73, 110, 102, 105, 110, 105, 116, 121]

/-! ## Writing -/

/-- A hexadecimal digit, in lower case. -/
def hexDigit (n : ℕ) : CodeUnit := UInt16.ofNat (if n < 10 then 48 + n else 87 + n)

/-- The four hexadecimal digits of a unit. -/
def hexText (u : CodeUnit) : Text :=
  [hexDigit (u.toNat / 4096), hexDigit (u.toNat / 256 % 16), hexDigit (u.toNat / 16 % 16),
    hexDigit (u.toNat % 16)]

/-- The units of a string with an escape of their own, and the letter of the escape. -/
def shortEscapes : List (CodeUnit × CodeUnit) :=
  [(34, 34), (92, 92), (10, 110), (13, 114), (9, 116), (12, 102), (8, 98)]

/-- A unit in a string. -/
def escape (u : CodeUnit) : Text :=
  match shortEscapes.lookup u with
  | some letter => [92, letter]
  | none => if 32 ≤ u.toNat ∧ u.toNat ≤ 126 then [u] else 92 :: 117 :: hexText u

def quoted (s : Text) : Text := 34 :: (s.flatMap escape ++ [34])

def writeDouble : PyDouble → Text
  | .finite negative m => (NumberLiteral.ofMagnitude negative m).write
  | .infinity negative => infinityText negative
  | .nan => nanText

mutual

/-- The text of a value. -/
def write (gap : Text) : Value → Text
  | .null => nullText
  | .bool b => boolText b
  | .int n => (NumberLiteral.ofInt n).write
  | .double x => writeDouble x
  | .str s => quoted s
  | .arr [] => [91, 93]
  | .arr (v :: vs) => 91 :: (write gap v ++ writeItems gap vs)
  | .obj [] => [123, 125]
  | .obj ((k, v) :: fs) => 123 :: (quoted k ++ 58 :: (gap ++ (write gap v ++ writeFields gap fs)))

/-- The items of an array behind another one, and the end of the array. -/
def writeItems (gap : Text) : List Value → Text
  | [] => [93]
  | v :: vs => 44 :: (gap ++ (write gap v ++ writeItems gap vs))

/-- The fields of an object behind another one, and the end of the object. -/
def writeFields (gap : Text) : List (Text × Value) → Text
  | [] => [125]
  | (k, v) :: fs =>
    44 :: (gap ++ (quoted k ++ 58 :: (gap ++ (write gap v ++ writeFields gap fs))))

end

mutual

/-- No integer of the value has too many digits. -/
def writable : Value → Bool
  | .int n => decide ((Decimal.text n.natAbs).unitLength ≤ NumberLiteral.maxDigits)
  | .arr items => writableItems items
  | .obj fields => writableFields fields
  | _ => true

/-- No integer of the items has too many digits. -/
def writableItems : List Value → Bool
  | [] => true
  | v :: vs => writable v && writableItems vs

/-- No integer of the fields has too many digits. -/
def writableFields : List (Text × Value) → Bool
  | [] => true
  | (_, v) :: fs => writable v && writableFields fs

end

/-- `json.dumps`; the gap is a space by default, and nothing with `separators=(",", ":")`. -/
def dumps (gap : Text) (v : Value) : Except JsonError Text :=
  if writable v then .ok (write gap v) else .error .intTooLong

/-! ## Reading -/

def isSpace (u : CodeUnit) : Bool := u = 32 || u = 9 || u = 10 || u = 13

/-- The text behind white space. -/
def skipSpace (t : Text) : Text := t.dropWhile isSpace

/-- The value of a hexadecimal digit. -/
def hexValue (u : CodeUnit) : Option ℕ :=
  if 48 ≤ u.toNat ∧ u.toNat ≤ 57 then some (u.toNat - 48)
  else if 97 ≤ u.toNat ∧ u.toNat ≤ 102 then some (u.toNat - 87)
  else if 65 ≤ u.toNat ∧ u.toNat ≤ 70 then some (u.toNat - 55)
  else none

/-- The unit of four hexadecimal digits. -/
def hexUnit (a b c d : CodeUnit) : Option CodeUnit := do
  let a ← hexValue a
  let b ← hexValue b
  let c ← hexValue c
  let d ← hexValue d
  some (UInt16.ofNat (4096 * a + 256 * b + 16 * c + d))

def letterUnit (letter : CodeUnit) : Option CodeUnit :=
  if letter = 47 then some 47 else (shortEscapes.map Prod.swap).lookup letter

/-- The string up to the closing quote, and the text behind it. -/
def scanString : Text → Option (Text × Text)
  | [] => none
  | u :: t =>
    if u = 34 then some ([], t)
    else if u = 92 then
      match t with
      | [] => none
      | e :: t =>
        if e = 117 then
          match t with
          | a :: b :: c :: d :: t =>
            (hexUnit a b c d).bind fun v => (scanString t).map fun r => (v :: r.1, r.2)
          | _ => none
        else (letterUnit e).bind fun v => (scanString t).map fun r => (v :: r.1, r.2)
    else if u.toNat < 32 then none
    else (scanString t).map fun r => (u :: r.1, r.2)
termination_by structural t => t

/-- The text behind a word that it starts with. -/
def stripWord : Text → Text → Option Text
  | [], t => some t
  | _ :: _, [] => none
  | u :: w, v :: t => if u = v then stripWord w t else none

/-- The values that are written as words. -/
def constants : List (Text × Value) :=
  [(nullText, .null), (boolText true, .bool true), (boolText false, .bool false),
    (nanText, .double .nan), (infinityText false, .double (.infinity false)),
    (infinityText true, .double (.infinity true))]

/-- A word, and the text behind it. -/
def scanConstant (t : Text) : Option (Value × Text) :=
  constants.findSome? fun c => (stripWord c.1 t).map fun rest => (c.2, rest)

/-- A word or a number, and the text behind it. -/
def scanAtom (t : Text) : Except JsonError (Value × Text) :=
  match scanConstant t with
  | some found => .ok found
  | none =>
    match NumberLiteral.scan t with
    | none => .error .decode
    | some (l, rest) => l.value.map fun n => (Value.ofNumber n, rest)

/-- The key of a field, and the text of its value. -/
def scanKey : Text → Except JsonError (Text × Text)
  | [] => .error .decode
  | u :: t =>
    if u = 34 then
      match scanString t with
      | none => .error .decode
      | some (key, rest) =>
        match skipSpace rest with
        | [] => .error .decode
        | v :: rest => if v = 58 then .ok (key, skipSpace rest) else .error .decode
    else .error .decode

/-- `dict[key] = value`. -/
def insertField (fields : List (Text × Value)) (key : Text) (value : Value) : List (Text × Value) :=
  match fields with
  | [] => [(key, value)]
  | (k, v) :: fs => if k = key then (k, value) :: fs else (k, v) :: insertField fs key value

/-- The dictionary of a list of pairs. -/
def dictOf (pairs : List (Text × Value)) : List (Text × Value) :=
  pairs.foldl (fun fields f => insertField fields f.1 f.2) []

mutual

/-- `scan_once`: the value that a text starts with, and the text behind it. -/
def scanValue : ℕ → Text → Except JsonError (Value × Text)
  | 0, _ => .error .decode
  | _ + 1, [] => .error .decode
  | steps + 1, u :: t =>
    if u = 34 then
      match scanString t with
      | none => .error .decode
      | some (s, rest) => .ok (.str s, rest)
    else if u = 91 then
      if (skipSpace t).head? = some 93 then .ok (.arr [], (skipSpace t).tail)
      else (scanItems steps (skipSpace t)).map fun r => (.arr r.1, r.2)
    else if u = 123 then
      if (skipSpace t).head? = some 125 then .ok (.obj [], (skipSpace t).tail)
      else (scanFields steps (skipSpace t)).map fun r => (.obj (dictOf r.1), r.2)
    else scanAtom (u :: t)

/-- The items of an array up to its end. -/
def scanItems : ℕ → Text → Except JsonError (List Value × Text)
  | 0, _ => .error .decode
  | steps + 1, t =>
    (scanValue steps t).bind fun r =>
      match skipSpace r.2 with
      | [] => .error .decode
      | u :: rest =>
        if u = 44 then (scanItems steps (skipSpace rest)).map fun q => (r.1 :: q.1, q.2)
        else if u = 93 then .ok ([r.1], rest)
        else .error .decode

/-- The fields of an object up to its end. -/
def scanFields : ℕ → Text → Except JsonError (List (Text × Value) × Text)
  | 0, _ => .error .decode
  | steps + 1, t =>
    (scanKey t).bind fun k =>
      (scanValue steps k.2).bind fun r =>
        match skipSpace r.2 with
        | [] => .error .decode
        | u :: rest =>
          if u = 44 then (scanFields steps (skipSpace rest)).map fun q => ((k.1, r.1) :: q.1, q.2)
          else if u = 125 then .ok ([(k.1, r.1)], rest)
          else .error .decode

end

def loads (t : Text) : Except JsonError Value :=
  if t.head? = some 0xFEFF then .error .decode
  else
    (scanValue (2 * t.unitLength + 2) (skipSpace t)).bind fun r =>
      if skipSpace r.2 = [] then .ok r.1 else .error .decode

mutual

/-- The value that is read from the text of a value. -/
def parsed : Value → Value
  | .null => .null
  | .bool b => .bool b
  | .int n => .int n
  | .double x => .double x
  | .str s => .str s
  | .arr items => .arr (parsedItems items)
  | .obj fields => .obj (dictOf (parsedFields fields))

def parsedItems : List Value → List Value
  | [] => []
  | v :: vs => parsed v :: parsedItems vs

def parsedFields : List (Text × Value) → List (Text × Value)
  | [] => []
  | (k, v) :: fs => (k, parsed v) :: parsedFields fs

end

end JsonText
