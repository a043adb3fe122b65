import Apdl.Ingest.Route
import Apdl.Lib.Decimal

set_option autoImplicit false

/-!
# Stream entries as rows

`_parse_event` of the ClickHouse writer (`clickhouse_writer.py`): the fields of a stream entry are
checked against the canonical contract and turned into a row of the events table.

## Main definitions

* `parseEvent` — the row of an entry, or the text of the error.

## Design

The JSON columns of a row are the documents they hold, and the text of `event_json` is the document
it denotes. An error is the text of the exception. `_validate_clickhouse_row` checks the types that
the fields of `Row` have.
-/

namespace Apdl.Pipeline.Writer

open Doc (Fields)
open Text (ofString)
open Ingest (truthy isText keys missing unknown ofNat maxEventAgeSeconds maxEventFutureSkewSeconds
  validEventTypes canonicalEventName isProjectId streamKey)
open Check

/-- The text of the exception that refuses an entry. -/
abbrev ParseError := Text

def raise {α : Type} (message : String) : Except ParseError α := .error (ofString message)

/-! ## Fields -/

def canonicalContextFields : List String :=
  ["library", "browser", "os", "device", "screen", "viewport", "page", "locale", "timezone",
    "referrer"]

def canonicalEventFields : List String :=
  ["event", "type", "user_id", "anonymous_id", "group_id", "timestamp", "properties", "traits",
    "context", "message_id", "session_id", "project_id", "server_timestamp", "ip"]

def canonicalRequiredEventFields : List String :=
  ["event", "type", "timestamp", "server_timestamp", "context", "message_id"]

/-- `", ".join(names)`. -/
def joined (names : List Text) : Text := (ofString ", ").intercalate names

def rejectUnknownObjectFields (value : Fields) (allowed : List String) (path : String) :
    Except ParseError Unit :=
  ensure (unknown allowed value).isEmpty
    (ofString (path ++ " contains unknown fields: ") ++ joined (unknown allowed value))

/-- `_validate_nested_object`: the fields of the object. -/
def validateNestedObject (value : Doc) (fields : List String) (path : String) :
    Except ParseError Fields := do
  match value with
  | .obj members => do
    rejectUnknownObjectFields members fields path
    ensure (missing fields members).isEmpty
      (ofString (path ++ " is missing fields: ") ++ joined (missing fields members))
    .ok members
  | _ => raise (path ++ " must be an object")

def requireString (value : Option Doc) (path : String) (maximum : ℕ) (nonEmpty : Bool) :
    Except ParseError Unit :=
  match value with
  | some (.str s) => do
    ensure (!(nonEmpty && decide (s = []))) (ofString (path ++ " must not be empty"))
    ensure (decide (s.length ≤ maximum))
      (ofString (path ++ " exceeds maximum length of ") ++ ofNat maximum)
  | _ => raise (path ++ " must be a string")

def requireDimension (value : Option Doc) (path : String) : Except ParseError Unit :=
  ensure (match value with
    | some (.int n) => decide (0 ≤ n) && decide (n ≤ 100000)
    | _ => false) (ofString (path ++ " must be an integer from 0 through 100000"))

/-- A member of the context, when it is there. -/
def whenPresent (context : Fields) (field : String) (check : Doc → Except ParseError Unit) :
    Except ParseError Unit :=
  match context.get field with
  | none => .ok ()
  | some value => check value

/-- The check of `library`, `browser` and `os`. -/
def validateNamedVersion (field : String) (value : Doc) : Except ParseError Unit := do
  let members ← validateNestedObject value ["name", "version"] ("context." ++ field)
  requireString (members.get "name") ("context." ++ field ++ ".name") 128 true
  requireString (members.get "version") ("context." ++ field ++ ".version") 128 true

/-- The check of `device`. -/
def validateDevice (value : Doc) : Except ParseError Unit := do
  let members ← validateNestedObject value ["type"] "context.device"
  requireString (members.get "type") "context.device.type" 64 true

/-- The check of `screen` and `viewport`. -/
def validateDimensions (field : String) (value : Doc) : Except ParseError Unit := do
  let members ← validateNestedObject value ["width", "height"] ("context." ++ field)
  requireDimension (members.get "width") ("context." ++ field ++ ".width")
  requireDimension (members.get "height") ("context." ++ field ++ ".height")

/-- The check of `page`. -/
def validatePage (value : Doc) : Except ParseError Unit := do
  let members ← validateNestedObject value ["url", "title", "path", "search"] "context.page"
  requireString (members.get "url") "context.page.url" 4096 false
  requireString (members.get "title") "context.page.title" 1024 false
  requireString (members.get "path") "context.page.path" 2048 false
  requireString (members.get "search") "context.page.search" 2048 false

def validateContext (context : Fields) : Except ParseError Unit := do
  rejectUnknownObjectFields context canonicalContextFields "context"
  Check.all (fun field => whenPresent context field (validateNamedVersion field))
    ["library", "browser", "os"]
  whenPresent context "device" validateDevice
  Check.all (fun field => whenPresent context field (validateDimensions field))
    ["screen", "viewport"]
  whenPresent context "page" validatePage
  Check.all (fun (field, maximum) => whenPresent context field fun value =>
      requireString (some value) ("context." ++ field) maximum false)
    [("locale", 128), ("timezone", 128), ("referrer", 4096)]

/-! ## Timestamps and stream IDs -/

def parseTimestamp (value : Option Doc) (field : String) : Except ParseError Datetime :=
  match value with
  | some (.str s) =>
    match Timestamp.groups s with
    | none => raise (field ++ " must use canonical RFC3339 UTC format")
    | some g =>
      if g.year < 1000 then raise (field ++ " year must contain four canonical digits")
      else
        match g.datetime? with
        | none => raise (field ++ " must be a valid RFC3339 value")
        | some t => .ok t
  | _ => raise (field ++ " must be an RFC3339 UTC string")

def validateEventTimestampWindow (timestamp receivedAt : Datetime) : Except ParseError Unit :=
  match receivedAt.shift (-maxEventAgeSeconds) with
  | none => raise "date value out of range"
  | some oldest =>
    if timestamp.micros < oldest then
      raise "timestamp is more than 7 days older than server receipt time"
    else
      match receivedAt.shift maxEventFutureSkewSeconds with
      | none => raise "date value out of range"
      | some newest =>
        if newest < timestamp.micros then
          raise "timestamp is more than 5 minutes ahead of server receipt time"
        else .ok ()

/-- `int` of a text of digits with `str(int(text)) == text`. -/
def canonicalDigits (t : Text) : Option ℕ :=
  (Timestamp.takeNumber t.unitLength 0 (t.map UInt16.toNat)).bind fun (n, _) =>
    if Decimal.text n = t then some n else none

/-- `int(text)` of a text with `str(int(text)) == text`: a canonical decimal. -/
def canonicalDecimal (t : Text) : Option ℤ :=
  match t with
  | 45 :: digits => ((canonicalDigits digits).filter fun n => decide (0 < n)).map fun n => -(n : ℤ)
  | digits => (canonicalDigits digits).map fun n => (n : ℤ)

/-- The two parts of `stream_id.split("-", 1)`, as canonical decimals of 64 bits. -/
def splitStreamId (streamId : Text) : Option (ℕ × ℕ) := do
  let milliseconds := streamId.takeWhile fun u => u != 45
  -- there is a separator
  guard (List.length milliseconds < streamId.unitLength)
  let ms ← canonicalDecimal milliseconds
  let seq ← canonicalDecimal (streamId.drop (List.length milliseconds + 1))
  guard (0 ≤ ms ∧ 0 ≤ seq ∧ ms < 2 ^ 64 ∧ seq < 2 ^ 64)
  return (ms.toNat, seq.toNat)

def streamIdParts (streamId : Text) : Except ParseError (ℕ × ℕ) :=
  match splitStreamId streamId with
  | some parts => .ok parts
  | none => .error (ofString "Invalid Redis stream ID: " ++ streamId)

/-! ## Rows -/

/-- A row of the events table. -/
structure Row where
  projectId : Text
  messageId : Text
  eventType : Text
  eventName : Text
  userId : Text
  anonymousId : Text
  groupId : Text
  sessionId : Text
  timestamp : Datetime
  receivedAt : Datetime
  properties : Doc
  traits : Doc
  context : Doc
  ip : Text
  country : Text
  deviceType : Text
  browser : Text
  sourceStream : Text
  sourceStreamId : Text
  sourceStreamIdMs : ℕ
  sourceStreamIdSeq : ℕ

def eventName (payload : Fields) : Except ParseError Text :=
  match payload.get "event" with
  | some (.str s) =>
    if s = [] then raise "event must be a non-empty string" else .ok s
  | _ => raise "event must be a non-empty string"

/-- `_optional_string` and `_identity_string`: the string of a field, empty when it is not there. -/
def optionalString (payload : Fields) (field : String) : Except ParseError Text :=
  match payload.get field with
  | none => .ok []
  | some .null => .ok []
  | some (.str s) => .ok s
  | some _ => raise (field ++ " must be a string")

/-- A member that has to be an object, empty when it is not there. -/
def optionalObject (payload : Fields) (field : String) : Except ParseError Fields :=
  match payload.get field with
  | none => .ok []
  | some .null => .ok []
  | some (.obj fields) => .ok fields
  | some _ => raise (field ++ " must be an object")

/-- `context.get(field) or {}`, which has to be an object. -/
def contextObject (context : Fields) (field : String) : Except ParseError Fields :=
  if truthy (context.get field) then
    match context.get field with
    | some (.obj fields) => .ok fields
    | _ => raise ("context." ++ field ++ " must be an object")
  else .ok []

/-- `json.dumps(value, allow_nan=False)`. -/
def column (value : Fields) : Except ParseError Doc :=
  match PyJson.dumps (.obj value) with
  | some d => .ok d
  | none => raise "Out of range float values are not JSON compliant"

/-- The stream authority of the entry: the two parts of its ID. -/
def sourcePosition (projectId sourceStream sourceStreamId : Text) : Except ParseError (ℕ × ℕ) :=
  if sourceStream ≠ [] then do
    ensure (isProjectId projectId) (ofString "invalid project ID: " ++ projectId)
    ensure (decide (sourceStream = streamKey projectId))
      (ofString "source stream conflicts with project authority")
    streamIdParts sourceStreamId
  else do
    ensure (decide (sourceStreamId = [])) (ofString "source stream ID requires a source stream")
    .ok (0, 0)

/-- The fields that must be omitted rather than null. -/
def nullableFields : List String :=
  ["user_id", "anonymous_id", "group_id", "properties", "traits", "session_id"]

def rejectExplicitNull (event : Fields) (field : String) : Except ParseError Unit :=
  ensure (match event.get field with
    | some .null => false
    | _ => true)
    (ofString ("optional event field '" ++ field ++ "' must be omitted rather than null"))

/-- A project assertion matches the authority of the stream. -/
def matchesProject (projectId : Text) (asserted : Option Doc) : Bool :=
  match asserted with
  | none => true
  | some .null => true
  | some (.str s) => s == projectId
  | some _ => false

/-- `type`, one of the canonical ones. -/
def eventType (event : Fields) : Except ParseError Text :=
  match event.get "type" with
  | some (.str s) =>
    if (validEventTypes.map ofString).contains s then .ok s
    else raise "type must be one of: track, identify, group, page"
  | some (.arr _) => raise "unhashable type: 'list'"
  | some (.obj _) => raise "unhashable type: 'dict'"
  | _ => raise "type must be one of: track, identify, group, page"

/-- `event_json`, decoded. -/
def decodeEvent (data : Fields) : Except ParseError Fields := do
  match data.get "event_json" with
  | some payload =>
    match PyJson.loads payload with
    | .error (.duplicateKey key) => .error (ofString "duplicate JSON object key: " ++ key)
    | .error .intTooLong => raise "Exceeds the limit for integer string conversion"
    | .ok (.obj event) => .ok event
    | .ok _ => raise "event_json must decode to an object"
  | none => raise "event_json must be a JSON string"

/-- The checks of the envelope: known fields, required fields, no explicit null, the project. -/
def checkEnvelope (data event : Fields) (projectId : Text) : Except ParseError Unit := do
  ensure (unknown canonicalEventFields event).isEmpty
    (ofString "event_json contains unknown fields: " ++ joined (unknown canonicalEventFields event))
  ensure (missing canonicalRequiredEventFields event).isEmpty
    (ofString "event_json is missing required fields: " ++
      joined (missing canonicalRequiredEventFields event))
  Check.all (rejectExplicitNull event) nullableFields
  ensure (matchesProject projectId (data.get "project_id") &&
      matchesProject projectId (event.get "project_id"))
    (ofString "event project ID conflicts with stream authority")

/-- `identify`, `group` and `page` events have the name of their type. -/
def checkName (type name : Text) : Except ParseError Unit :=
  match canonicalEventName type with
  | some expected =>
    ensure (decide (name = expected)) (ofString "type '" ++ type ++ ofString "' requires event '" ++
      expected ++ ofString "'")
  | none => .ok ()

/-- The checks that tie the type, the name and the identities together. -/
def checkIdentity (event : Fields) (type name : Text) : Except ParseError Unit := do
  checkName type name
  ensure (truthy (event.get "user_id") || truthy (event.get "anonymous_id"))
    (ofString "event requires user_id or anonymous_id")
  ensure (!(decide (type = ofString "identify")) || truthy (event.get "user_id"))
    (ofString "identify events require user_id")
  ensure (!(decide (type = ofString "group")) || truthy (event.get "group_id"))
    (ofString "group events require group_id")
  ensure (match event.get "message_id" with
    | some (.str s) => decide (s ≠ [])
    | _ => false) (ofString "message_id must be a non-empty string")

def contextOf (event : Fields) : Except ParseError Fields :=
  match event.get "context" with
  | some (.obj context) => .ok context
  | _ => raise "context must be an object"

def parseEvent (data : Fields) (projectId sourceStream sourceStreamId : Text) :
    Except ParseError Row := do
  let event ← decodeEvent data
  checkEnvelope data event projectId
  let name ← eventName event
  let type ← eventType event
  checkIdentity event type name
  let receivedAt ← parseTimestamp (event.get "server_timestamp") "server_timestamp"
  let timestamp ← parseTimestamp (event.get "timestamp") "timestamp"
  validateEventTimestampWindow timestamp receivedAt
  let (ms, seq) ← sourcePosition projectId sourceStream sourceStreamId
  let context ← contextOf event
  validateContext context
  let properties ← optionalObject event "properties"
  let traits ← optionalObject event "traits"
  let browser ← contextObject context "browser"
  let device ← contextObject context "device"
  let messageId ← optionalString event "message_id"
  let userId ← optionalString event "user_id"
  let anonymousId ← optionalString event "anonymous_id"
  let groupId ← optionalString event "group_id"
  let sessionId ← optionalString event "session_id"
  let propertiesColumn ← column properties
  let traitsColumn ← column traits
  let contextColumn ← column context
  let ip ← optionalString event "ip"
  let deviceType ← optionalString device "type"
  let browserName ← optionalString browser "name"
  .ok { projectId := projectId, messageId := messageId, eventType := type, eventName := name,
        userId := userId, anonymousId := anonymousId, groupId := groupId, sessionId := sessionId,
        timestamp := timestamp, receivedAt := receivedAt, properties := propertiesColumn,
        traits := traitsColumn, context := contextColumn, ip := ip, country := [],
        deviceType := deviceType, browser := browserName, sourceStream := sourceStream,
        sourceStreamId := sourceStreamId, sourceStreamIdMs := ms, sourceStreamIdSeq := seq }

end Apdl.Pipeline.Writer
