import Apdl.Ingest.Model

set_option autoImplicit false

/-!
# Event batches

`validate_event_batch` of the ingestion service (`validation/schema.py`) with the pydantic models
of `models/schemas.py`: a batch is an object with a list of events, every event satisfies the model
`Event` in strict mode, the reserved events have contracts of their own, and message IDs are unique.

## Main definitions

* `validateEvent`, `validateUniqueMessageIds`, `validateEventBatch` — all errors of a batch.

## Design

A validator returns its list of errors, each with its field and its text; pydantic's own texts are
those of the library. Which strings a `str` field with a length bound takes is a parameter.
-/

namespace Apdl.Ingest

open Doc (Fields)
open Text (ofString)

/-! ## The validators of pydantic -/

/-- An entry of `ValidationError.errors()`. -/
structure LineError where
  loc : List Text
  message : Text
  deriving DecidableEq

/-- An error of the value itself. -/
def LineError.here (message : String) : LineError := ⟨[], ofString message⟩

/-- The errors of a field. -/
def within (name : String) (errors : List LineError) : List LineError :=
  errors.map fun e => { e with loc := ofString name :: e.loc }

/-- `str`, in strict mode. -/
def str : Doc → List LineError
  | .str _ => []
  | _ => [.here "Input should be a valid string"]

/-- `str = Field(min_length=lo, max_length=hi)`, in strict mode, with `lo` at most one. -/
def boundedStr (isStr : Text → Bool) (lo hi : ℕ) : Doc → List LineError
  | .str s =>
    if !isStr s then
      [.here "Input should be a valid string, unable to parse raw data as a unicode string"]
    else if s.length < lo then [.here "String should have at least 1 character"]
    else if hi < s.length then
      [⟨[], ofString "String should have at most " ++ ofNat hi ++ ofString " characters"⟩]
    else []
  | _ => [.here "Input should be a valid string"]

/-- `int = Field(ge=0, le=hi)`, in strict mode. -/
def boundedInt (hi : ℕ) : Doc → List LineError
  | .int n =>
    if n < 0 then [.here "Input should be greater than or equal to 0"]
    else if (hi : ℤ) < n then
      [⟨[], ofString "Input should be less than or equal to " ++ ofNat hi⟩]
    else []
  | _ => [.here "Input should be a valid integer"]

/-- `dict[str, Any]`, in strict mode. -/
def dict : Doc → List LineError
  | .obj _ => []
  | _ => [.here "Input should be a valid dictionary"]

/-- `T | None`. -/
def nullable (validate : Doc → List LineError) : Doc → List LineError
  | .null => []
  | d => validate d

structure FieldSpec where
  name : String
  required : Bool
  validate : Doc → List LineError

def FieldSpec.errors (fields : Fields) (spec : FieldSpec) : List LineError :=
  match fields.get spec.name with
  | some d => within spec.name (spec.validate d)
  | none => if spec.required then within spec.name [.here "Field required"] else []

/-- `extra="forbid"`. -/
def extraErrors (names : List String) (fields : Fields) : List LineError :=
  (fields.filter fun f => !(names.map ofString).contains f.1).map fun f =>
    ⟨[f.1], ofString "Extra inputs are not permitted"⟩

/-- A model with these fields and `extra="forbid"`. -/
def model (name : String) (specs : List FieldSpec) : Doc → List LineError
  | .obj fields =>
    specs.flatMap (FieldSpec.errors fields) ++ extraErrors (specs.map FieldSpec.name) fields
  | _ => [.here ("Input should be a valid dictionary or instance of " ++ name)]

/-! ## Contexts -/

section Models

variable (isStr : Text → Bool)

def namedVersionContext : Doc → List LineError :=
  model "NamedVersionContext"
    [⟨"name", true, boundedStr isStr 1 128⟩, ⟨"version", true, boundedStr isStr 1 128⟩]

def deviceContext : Doc → List LineError :=
  model "DeviceContext" [⟨"type", true, boundedStr isStr 1 64⟩]

def dimensionsContext : Doc → List LineError :=
  model "DimensionsContext"
    [⟨"width", true, boundedInt 100000⟩, ⟨"height", true, boundedInt 100000⟩]

def pageContext : Doc → List LineError :=
  model "PageContext"
    [⟨"url", true, boundedStr isStr 0 4096⟩, ⟨"title", true, boundedStr isStr 0 1024⟩,
      ⟨"path", true, boundedStr isStr 0 2048⟩, ⟨"search", true, boundedStr isStr 0 2048⟩]

/-- The fields of `EventContext`. -/
def contextSpecs : List FieldSpec :=
  [⟨"library", false, nullable (namedVersionContext isStr)⟩,
    ⟨"browser", false, nullable (namedVersionContext isStr)⟩,
    ⟨"os", false, nullable (namedVersionContext isStr)⟩,
    ⟨"device", false, nullable (deviceContext isStr)⟩,
    ⟨"screen", false, nullable dimensionsContext⟩, ⟨"viewport", false, nullable dimensionsContext⟩,
    ⟨"page", false, nullable (pageContext isStr)⟩,
    ⟨"locale", false, nullable (boundedStr isStr 0 128)⟩,
    ⟨"timezone", false, nullable (boundedStr isStr 0 128)⟩,
    ⟨"referrer", false, nullable (boundedStr isStr 0 4096)⟩]

/-- `EventContext`, whose members must not be null. -/
def eventContext (d : Doc) : List LineError :=
  match d with
  | .obj fields =>
    match fields.find? fun f => f.2.isNull with
    | some f =>
      [⟨[], ofString "Context field '" ++ f.1 ++ ofString "' must be omitted rather than null"⟩]
    | none => model "EventContext" (contextSpecs isStr) d
  | _ => model "EventContext" (contextSpecs isStr) d

/-! ## Events -/

/-- `MAX_EVENT_NAME_LENGTH` and `MAX_PROPERTY_KEY_LENGTH`. -/
def maxEventNameLength : ℕ := 256

def maxStringPropertyLength : ℕ := 8192

def maxEventAgeSeconds : ℤ := 7 * 24 * 60 * 60

def maxEventFutureSkewSeconds : ℤ := 5 * 60

def validEventTypes : List String := ["track", "identify", "group", "page"]

/-- `CANONICAL_EVENT_NAMES`. -/
def canonicalEventName (type : Text) : Option Text :=
  (["identify", "group", "page"].map ofString).find? fun name => name == type

/-- `validate_event_name`, after `str`. -/
def validateEventName : Doc → List LineError
  | .str s =>
    if s.length = 0 then [.here "Event name must not be empty"]
    else if maxEventNameLength < s.length then [.here "Event name exceeds maximum length of 256"]
    else []
  | d => str d

/-- `validate_event_type`, after `str`. -/
def validateEventType : Doc → List LineError
  | .str s =>
    if (validEventTypes.map ofString).contains s then []
    else [⟨[], ofString "Invalid event type '" ++ s ++
      ofString "'. Must be one of: track, identify, group, page"⟩]
  | d => str d

/-- The `datetime` of a canonical timestamp, or the text of the error. -/
def parseTimestamp (value : Text) : Except String Datetime :=
  match Timestamp.groups value with
  | none => .error "Timestamp must use canonical RFC3339 UTC format YYYY-MM-DDTHH:MM:SS[.ffffff]Z"
  | some g =>
    if g.year < 1000 then .error "Timestamp year must contain four canonical digits"
    else
      match g.datetime? with
      | none => .error "Timestamp must be a valid RFC3339 value"
      | some t => .ok t

/-- The window of a timestamp around the time of receipt. -/
def timestampWindow (parsed receivedAt : Datetime) : Except Raised (List LineError) :=
  match receivedAt.shift (-maxEventAgeSeconds) with
  | none => .error .overflow
  | some oldest =>
    if parsed.micros < oldest then
      .ok [.here "Timestamp must not be more than 7 days older than server receipt time"]
    else
      match receivedAt.shift maxEventFutureSkewSeconds with
      | none => .error .overflow
      | some newest =>
        if newest < parsed.micros then
          .ok [.here "Timestamp must not be more than 5 minutes ahead of server receipt time"]
        else .ok []

/-- `validate_timestamp`, after `str`. -/
def validateTimestamp (receivedAt : Datetime) : Doc → Except Raised (List LineError)
  | .str s =>
    match parseTimestamp s with
    | .error message => .ok [.here message]
    | .ok parsed => timestampWindow parsed receivedAt
  | d => .ok (str d)

def propertyError (property : Text × Doc) : Option LineError :=
  if maxEventNameLength < property.1.length then
    some (.here "Property key exceeds maximum length of 256")
  else
    match property.2 with
    | .str s =>
      if maxStringPropertyLength < s.length then
        some (.here "String property value exceeds maximum length of 8192")
      else none
    | _ => none

/-- `validate_properties`, after `dict[str, Any]`: the first property with an error. -/
def validateProperties : Doc → List LineError
  | .obj fields => (fields.findSome? propertyError).toList
  | d => dict d

namespace Event

def optionalFields : List String :=
  ["user_id", "anonymous_id", "group_id", "properties", "traits", "session_id"]

/-- `reject_explicit_null_optional_fields`: the first optional field that is null. -/
def explicitNull (fields : Fields) : Option String :=
  optionalFields.find? fun name => match fields.get name with
    | some d => d.isNull
    | none => false

def identifier (name : String) (required : Bool) : FieldSpec :=
  ⟨name, required, if required then boundedStr isStr 1 128
    else nullable (boundedStr isStr 1 128)⟩

/-- The fields before `timestamp`. -/
def specsBefore : List FieldSpec :=
  [⟨"event", true, validateEventName⟩, ⟨"type", true, validateEventType⟩,
    identifier isStr "user_id" false, identifier isStr "anonymous_id" false,
    identifier isStr "group_id" false]

/-- The fields after `timestamp`. -/
def specsAfter : List FieldSpec :=
  [⟨"properties", false, nullable validateProperties⟩, ⟨"traits", false, nullable dict⟩,
    ⟨"context", true, eventContext isStr⟩, identifier isStr "message_id" true,
    identifier isStr "session_id" false]

def fieldNames : List String :=
  (specsBefore isStr).map FieldSpec.name ++ "timestamp" :: (specsAfter isStr).map FieldSpec.name

def timestampErrors (receivedAt : Datetime) (fields : Fields) : Except Raised (List LineError) :=
  match fields.get "timestamp" with
  | some d => (validateTimestamp receivedAt d).map (within "timestamp")
  | none => .ok (within "timestamp" [.here "Field required"])

def fieldErrors (receivedAt : Datetime) (fields : Fields) : Except Raised (List LineError) := do
  let timestamp ← timestampErrors receivedAt fields
  return (specsBefore isStr).flatMap (FieldSpec.errors fields) ++ timestamp ++
    (specsAfter isStr).flatMap (FieldSpec.errors fields) ++
    extraErrors (fieldNames isStr) fields

/-- `validate_canonical_envelope`, on fields without errors. -/
def envelopeErrors (fields : Fields) : List LineError :=
  if !truthy (fields.get "user_id") && !truthy (fields.get "anonymous_id") then
    [.here "Event requires user_id or anonymous_id"]
  else
    match fields.get "type" with
    | some (.str type) =>
      match canonicalEventName type with
      | some name =>
        if fields.get "event" |>.any fun d => d.toText == some name then
          if isText (fields.get "type") "identify" && !truthy (fields.get "user_id") then
            [.here "Identify events require user_id"]
          else if isText (fields.get "type") "group" && !truthy (fields.get "group_id") then
            [.here "Group events require group_id"]
          else []
        else
          [⟨[], ofString "Event type '" ++ type ++ ofString "' requires event='" ++ name ++
            ofString "'"⟩]
      | none => []
    | _ => []

/-- `Event.model_validate(event, strict=True, context={"received_at": …})`. -/
def modelValidate (receivedAt : Datetime) (fields : Fields) : Except Raised (List LineError) :=
  match explicitNull fields with
  | some name =>
    .ok [.here ("Optional event field '" ++ name ++ "' must be omitted rather than null")]
  | none =>
    (fieldErrors isStr receivedAt fields).map fun errors =>
      if errors = [] then envelopeErrors fields else errors

end Event

end Models

end Apdl.Ingest
