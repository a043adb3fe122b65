import Apdl.Ingest.Batch

set_option autoImplicit false

/-!
# The ingestion route

`POST /v1/events` (`routers/events.py`): the request body is parsed and bounded, click events are
sanitized (`privacy.py`), the batch is validated, and the events are stamped and published to the
stream of their project (`streaming/redis_producer.py`).

## Main definitions

* `stamp`, `publishBatch`, `ingestEvents` — what is published.

## Design

Authentication and the rate limits come before or between the checks and only refuse. The clock of
the service stands after 1970. A published entry has the one field `event_json`.
-/

namespace Apdl.Ingest

open Doc (Fields)
open Text (ofString)

/-! ## Sanitizing -/

/-- `[a-z][a-z0-9-]{0,63}`. -/
def isTag (cs : List ℕ) : Bool :=
  match cs with
  | [] => false
  | c :: rest =>
    (decide (97 ≤ c) && decide (c ≤ 122)) && decide (rest.length ≤ 63) &&
      rest.all fun c => (decide (97 ≤ c) && decide (c ≤ 122)) ||
        (decide (48 ≤ c) && decide (c ≤ 57)) || decide (c = 45)

def isSafeTag : Doc → Bool
  | .str s => isTag s.codePoints
  | _ => false

def isSafeCoordinate (d : Doc) : Bool :=
  (toNumber d).any fun q => decide (0 ≤ q) && decide (q ≤ 100000)

def isSafeRageClickCount : Doc → Bool
  | .int n => decide (3 ≤ n) && decide (n ≤ 100)
  | _ => false

def autoCaptureProperties (eventName : Text) : Option (List (String × (Doc → Bool))) :=
  if eventName = ofString "$click" then
    some [("tag", isSafeTag), ("x", isSafeCoordinate), ("y", isSafeCoordinate)]
  else if eventName = ofString "$rage_click" then
    some [("tag", isSafeTag), ("clickCount", isSafeRageClickCount), ("x", isSafeCoordinate),
      ("y", isSafeCoordinate)]
  else none

def safeProperties (properties : Option Doc) (schema : List (String × (Doc → Bool))) : Fields :=
  match properties with
  | some (.obj fields) =>
    schema.filterMap fun entry =>
      ((Fields.get fields entry.1).filter entry.2).map fun d => (ofString entry.1, d)
  | _ => []

/-- `_safe_context`, of a dictionary. -/
def safeContext (context : Fields) : Fields :=
  context.filter fun f => !(["page", "referrer"].map ofString).contains f.1

/-- `properties != sanitized_properties`: the sanitized ones are some of the properties. -/
def propertiesChanged (properties : Option Doc) (sanitized : Fields) : Bool :=
  match properties with
  | some (.obj fields) => fields.any fun f => !(keys sanitized).contains f.1
  | _ => true

/-- The body of the loop of `sanitize_auto_capture_events`. -/
def sanitizeEvent : Doc → Doc
  | .obj event =>
    match (Fields.get event "event").bind Doc.toText with
    | none => .obj event
    | some name =>
      match autoCaptureProperties name with
      | none => .obj event
      | some schema =>
        let properties := Fields.get event "properties"
        let sanitized := safeProperties properties schema
        match Fields.get event "context" with
        | some (.obj context) =>
          if (safeContext context).length ≠ context.length then
            .obj (PyJson.set (PyJson.set event (ofString "properties") (.obj sanitized))
              (ofString "context") (.obj (safeContext context)))
          else if propertiesChanged properties sanitized then
            .obj (PyJson.set event (ofString "properties") (.obj sanitized))
          else .obj event
        | _ =>
          if propertiesChanged properties sanitized then
            .obj (PyJson.set event (ofString "properties") (.obj sanitized))
          else .obj event
  | d => d

def sanitizeAutoCaptureEvents : Doc → Doc
  | .obj body =>
    match Fields.get body "events" with
    | some (.arr events) =>
      .obj (PyJson.set body (ofString "events") (.arr (events.map sanitizeEvent)))
    | _ => .obj body
  | d => d

/-! ## The route -/

/-- Why a request is not accepted. -/
inductive Refusal
  /-- `400 bad_request`. -/
  | badRequest (message : Text)
  /-- `400 validation_failed`. -/
  | validationFailed (errors : List FieldError)
  | raised (exception : Raised)
  /-- The `ValueError` of an integer literal with too many digits. -/
  | intTooLong
  deriving DecidableEq

/-- `parse_canonical_json`, of a JSON document. -/
def parseCanonicalJson (raw : Doc) : Except Refusal Doc :=
  match PyJson.loads raw with
  | .ok body => .ok body
  | .error (.duplicateKey key) =>
    .error (.badRequest (ofString "Duplicate JSON object key: " ++ key))
  | .error .intTooLong => .error .intTooLong

/-- The bounds of the events, when there is a list of events. -/
def checkBounds : Doc → Except Refusal Unit
  | .obj body =>
    match Fields.get body "events" with
    | some (.arr events) =>
      Check.all (fun event =>
        match validateEventJsonBounds event with
        | .ok () => .ok ()
        | .error message => .error (.validationFailed [⟨ofString "events", message⟩])) events
    | _ => .ok ()
  | _ => .ok ()

section Route

variable (isStr : Text → Bool) (receivedAt : Datetime)

/-- The errors of `validate_event_batch`, as a refusal. -/
def checkBatch (body : Doc) : Except Refusal Unit :=
  match validateEventBatch isStr receivedAt body with
  | .error e => .error (.raised e)
  | .ok [] => .ok ()
  | .ok (e :: es) => .error (.validationFailed (e :: es))

def bodyEvents : Doc → List Fields
  | .obj body =>
    match Fields.get body "events" with
    | some (.arr events) => events.filterMap Doc.toFields
    | _ => []
  | _ => []

/-- `ingest_events` up to the stamps: the sanitized events of a request that passes every check. -/
def acceptBatch (raw : Doc) : Except Refusal (List Fields) := do
  let body ← parseCanonicalJson raw
  checkBounds body
  let body := sanitizeAutoCaptureEvents body
  Check.ensure (truthy (some body)) (.badRequest (ofString "Request body is empty"))
  checkBatch isStr receivedAt body
  .ok (bodyEvents body)

end Route

/-- `[A-Za-z0-9]{1,64}`. -/
def isProjectId (t : Text) : Bool :=
  decide (1 ≤ t.length) && decide (t.length ≤ 64) && t.codePoints.all fun c =>
    (decide (65 ≤ c) && decide (c ≤ 90)) || (decide (97 ≤ c) && decide (c ≤ 122)) ||
      (decide (48 ≤ c) && decide (c ≤ 57))

structure ProjectId where
  text : Text
  canonical : isProjectId text = true

structure ClockReading extends Datetime where
  epoch : 1970 ≤ year

/-- The time of receipt: the reading in milliseconds. -/
def ClockReading.receivedAt (now : ClockReading) : Datetime := now.toDatetime.truncateMillis

/-- The server fields of an event. -/
def stamp (receivedAt : Datetime) (sourceIp projectId : Text) (event : Fields) : Fields :=
  PyJson.set
    (PyJson.set
      (PyJson.set event (ofString "server_timestamp") (.str (Timestamp.format receivedAt)))
      (ofString "ip") (.str sourceIp))
    (ofString "project_id") (.str projectId)

/-- The payloads of `publish_batch`; `none` when `json.dumps` raises. -/
def publishBatch (events : List Fields) : Option (List Doc) :=
  events.mapM fun event => PyJson.dumps (.obj event)

/-- `ingest_events`: the payloads that are published to the stream of the project, or the
refusal. -/
def ingestEvents (isStr : Text → Bool) (now : ClockReading) (sourceIp : Text)
    (projectId : ProjectId) (raw : Doc) : Except Refusal (Option (List Doc)) := do
  let events ← acceptBatch isStr now.receivedAt raw
  .ok (publishBatch (events.map (stamp now.receivedAt sourceIp projectId.text)))

def streamKey (projectId : Text) : Text := ofString "events:raw:" ++ projectId

end Apdl.Ingest
