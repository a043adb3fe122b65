import Apdl.Flags.Hash
import Apdl.Lib.JsonText
import Mathlib.Data.List.Sort

set_option autoImplicit false

/-!
# Tool messages

A tool call of the reasoning model is executed, its output is cut to a number of characters, and what
is left goes back to the model in an envelope (`framework/tool_loop.py`).

## Main definitions

* `toolMessage` — the content of a tool message.

## Design

The parameters of a tool and the tool itself are one function of the name and the parameters
(`Services.runner`); a JSON text is ASCII, so that its units are its characters. Elapsed times and log
lines are left out.
-/

namespace Apdl.Agents.ToolLoop

open JsonText (Value JsonError)
open Text (ofString)

def resultCharCap : ℕ := 8000

def resultDataCharCap : ℕ := resultCharCap - 1000

/-- The parameters of a call. -/
abbrev Arguments := List (Text × Value)

structure ToolTraceEntry where
  tool : Text
  params : Arguments
  result : Option Text
  error : Option Text

/-- An exception of a tool: the name of its type and its text. -/
structure Raised where
  kind : Text
  message : Text

/-- What the calls use of other code. -/
structure Services where
  /-- `hashlib.sha256(…).digest()`. -/
  sha256 : List ℕ → Fin 32 → UInt8
  /-- `repr` of a string. -/
  pyRepr : Text → Text
  /-- The validation of the parameters of a catalog tool, and its runner. -/
  runner : Text → Arguments → Except Raised Value

/-! ## The envelope -/

/-- A string, or `None`. -/
def optional : Option Text → Value
  | none => .null
  | some s => .str s

mutual

/-- `sort_keys=True`: the fields of every object in the order of their keys. -/
def sortKeys : Value → Value
  | .null => .null
  | .bool b => .bool b
  | .int n => .int n
  | .double x => .double x
  | .str s => .str s
  | .arr items => .arr (sortItems items)
  | .obj fields => .obj ((sortFields fields).insertionSort fun f g => f.1.codePoints ≤ g.1.codePoints)

def sortItems : List Value → List Value
  | [] => []
  | v :: vs => sortKeys v :: sortItems vs

def sortFields : List (Text × Value) → List (Text × Value)
  | [] => []
  | (k, v) :: fs => (k, sortKeys v) :: sortFields fs

end

def hexdigest (digest : Fin 32 → UInt8) : Text :=
  (List.finRange 32).flatMap fun i =>
    [JsonText.hexDigit ((digest i).toNat / 16), JsonText.hexDigit ((digest i).toNat % 16)]

/-- `payload.encode()`; a JSON text has no surrogates. -/
def encode (payload : Text) : List ℕ := payload.codePoints.flatMap Flags.utf8Encode

def toolResultSourceId (services : Services) (entry : ToolTraceEntry) : Except JsonError Text :=
  (JsonText.dumps [] (sortKeys (.obj [
    (ofString "tool", .str entry.tool),
    (ofString "params", .obj entry.params),
    (ofString "result", optional entry.result),
    (ofString "error", optional entry.error)]))).map fun payload =>
      ofString "warehouse:" ++ (hexdigest (services.sha256 (encode payload))).take 24

/-- The data of an envelope: the result as JSON, or as the text that it is. -/
def resultData : Option Text → Except JsonError Value
  | none => .ok .null
  | some result =>
    match JsonText.loads result with
    | .ok data => .ok data
    | .error .decode => .ok (.str result)
    | .error .intTooLong => .error .intTooLong

def warehouseResultEnvelope (services : Services) (entry : ToolTraceEntry) : Except JsonError Text :=
  (resultData entry.result).bind fun data =>
    (toolResultSourceId services entry).bind fun sourceId =>
      JsonText.dumps [] (.obj [
        (ofString "schema", .str (ofString "warehouse_tool_result@1")),
        (ofString "trust", .str (ofString "untrusted")),
        (ofString "source_id", .str sourceId),
        (ofString "tool", .str entry.tool),
        (ofString "params", .obj entry.params),
        (ofString "data", if entry.error = none then data else .null),
        (ofString "error", optional entry.error)])

/-! ## Calls -/

/-- What `_truncate` writes behind a text that it cuts. -/
def truncationNote (length cap : ℕ) : Text :=
  ofString "... [truncated " ++ (Decimal.text (length - cap) ++ (ofString " of " ++
    (Decimal.text length ++ ofString " chars]")))

def truncate (blob : Text) (cap : ℕ) : Text :=
  if blob.unitLength ≤ cap then blob else blob.take cap ++ truncationNote blob.unitLength cap

/-- The names of `TOOL_CATALOG`. -/
def toolCatalog : List Text :=
  ["discover_events", "query_events", "query_timeseries", "query_funnel", "query_retention",
    "query_cohort", "query_breakdown", "list_flags", "get_active_experiments",
    "calculate_statistical_plan"].map ofString

def runTool (services : Services) (name : Text) (params : Arguments) : Except Raised Value :=
  if name ∈ toolCatalog then services.runner name params
  else .error ⟨ofString "ValueError", ofString "Unknown tool '" ++ name ++ ofString "'"⟩

/-- What `json.dumps` raises on an integer that is too long. -/
def intTooLong : Raised :=
  ⟨ofString "ValueError", ofString ("Exceeds the limit (4300 digits) for integer string conversion; " ++
    "use sys.set_int_max_str_digits() to increase the limit")⟩

def outputText (output : Value) : Except Raised Text :=
  (JsonText.dumps [32] output).mapError fun _ => intTooLong

def executeCall (services : Services) (allowedTools : List Text) (name : Text)
    (arguments : Arguments) : ToolTraceEntry :=
  if name ∉ allowedTools then
    { tool := name
      params := arguments
      result := none
      error := some (ofString "PermissionError: Tool " ++ services.pyRepr name ++
        ofString " is not enabled for this agent") }
  else
    match (runTool services name arguments).bind outputText with
    | .ok blob =>
      { tool := name, params := arguments, result := some (truncate blob resultDataCharCap), error := none }
    | .error raised =>
      { tool := name
        params := arguments
        result := none
        error := some (raised.kind ++ ofString ": " ++ raised.message) }

def toolMessage (services : Services) (allowedTools : List Text) (name : Text)
    (arguments : Arguments) : Except JsonError Text :=
  warehouseResultEnvelope services (executeCall services allowedTools name arguments)

end Apdl.Agents.ToolLoop
