import Apdl.Ingest.Schema

set_option autoImplicit false

/-!
# Reserved events and batches

The contracts of `$feature_flag_exposure`, `$frontend_error` and `$web_vital`, and
`validate_event_batch` (`validation/schema.py`).

## Design

The functions that append to a list of errors return the errors they append.
-/

namespace Apdl.Ingest

open Doc (Fields)
open Text (ofString)

/-! ## Properties -/

def propertyPath (path key : Text) : Text := join path (ofString "properties." ++ key)

def propertyFieldError (path : Text) (key message : String) : FieldError :=
  ⟨propertyPath path (ofString key), ofString message⟩

/-- An error of a property when a condition holds of its value; nothing when it is absent. -/
def checkProperty (properties : Fields) (path : Text) (key message : String)
    (fails : Doc → Except Raised Bool) : Except Raised (List FieldError) :=
  match properties.get key with
  | none => .ok []
  | some d => (fails d).map fun bad => if bad then [propertyFieldError path key message] else []

def validateStringProperty (properties : Fields) (path : Text) (key : String) :
    Except Raised (List FieldError) :=
  checkProperty properties path key ("Property '" ++ key ++ "' must be a string")
    fun d => .ok d.toText.isNone

def validateNullableStringProperty (properties : Fields) (path : Text) (key : String) :
    Except Raised (List FieldError) :=
  checkProperty properties path key ("Property '" ++ key ++ "' must be a string or null")
    fun d => .ok (!d.isNull && d.toText.isNone)

def validateNumberProperty (properties : Fields) (path : Text) (key : String) :
    Except Raised (List FieldError) :=
  checkProperty properties path key ("Property '" ++ key ++ "' must be a finite number")
    fun d => (isFiniteNumber d).map (!·)

/-- `_validate_nullable_number_property` without bounds. -/
def validateNullableNumberProperty (properties : Fields) (path : Text) (key : String) :
    Except Raised (List FieldError) :=
  checkProperty properties path key ("Property '" ++ key ++ "' must be a finite number or null")
    fun d => if d.isNull then .ok false else (isFiniteNumber d).map (!·)

/-- `_validate_nullable_number_property` with `minimum=0.0, maximum=100.0`. -/
def validateNullablePercentageProperty (properties : Fields) (path : Text) (key : String) :
    Except Raised (List FieldError) := do
  let kind ← validateNullableNumberProperty properties path key
  let value := ((properties.get key).bind toNumber).getD 0
  if kind = [] then
    .ok ((if value < 0 then
        [propertyFieldError path key ("Property '" ++ key ++ "' must be greater than or equal to 0")]
      else []) ++
      if 100 < value then
        [propertyFieldError path key ("Property '" ++ key ++ "' must be less than or equal to 100")]
      else [])
  else .ok kind

/-- A property outside a set of texts. -/
def checkMember (properties : Fields) (path : Text) (key message : String) (texts : List String) :
    Except Raised (List FieldError) :=
  checkProperty properties path key message fun d => (isMember texts d).map (!·)

def keyErrors (properties : Fields) (path : Text) (allowed : List String) (name : String) :
    List FieldError :=
  ((missing allowed properties).map fun key =>
    ⟨propertyPath path key, ofString ("Missing required " ++ name ++ " property")⟩) ++
  (unknown allowed properties).map fun key =>
    ⟨propertyPath path key, ofString ("Unknown " ++ name ++ " property")⟩

def dictProperty (properties : Fields) (key : String) : Option Fields :=
  (properties.get key).bind Doc.toFields

/-- The errors of an entry of `active_flags`. -/
def activeFlagErrors (path : Text) (entry : Text × Doc) : List FieldError :=
  (if entry.1 = [] then
    [propertyFieldError path "active_flags"
      "Property 'active_flags' keys must be non-empty strings"] else []) ++
  if isNonEmptyString (some entry.2) then []
  else [⟨propertyPath path (ofString "active_flags." ++ entry.1),
    ofString "Active flag values must be non-empty variant strings"⟩]

/-- The errors of an entry of `active_flag_versions`. -/
def activeVersionErrors (path : Text) (entry : Text × Doc) : List FieldError :=
  (if entry.1 = [] then
    [propertyFieldError path "active_flag_versions"
      "Property 'active_flag_versions' keys must be non-empty strings"] else []) ++
  if isNonNegativeInt entry.2 then []
  else [⟨propertyPath path (ofString "active_flag_versions." ++ entry.1),
    ofString "Active flag versions must be non-negative integers"⟩]

def validateActiveFlagProperties (properties : Fields) (path : Text) : List FieldError :=
  match properties.get "active_flags", dictProperty properties "active_flags" with
  | some _, none =>
    [propertyFieldError path "active_flags" "Property 'active_flags' must be an object"]
  | _, flags =>
    match properties.get "active_flag_versions",
      dictProperty properties "active_flag_versions" with
    | some _, none =>
      [propertyFieldError path "active_flag_versions"
        "Property 'active_flag_versions' must be an object"]
    | _, versions =>
      match flags, versions with
      | some flags, some versions =>
        (if (keys flags).all (keys versions).contains && (keys versions).all (keys flags).contains
          then []
          else [propertyFieldError path "active_flag_versions"
            "Property 'active_flag_versions' keys must match active_flags"]) ++
          flags.flatMap (activeFlagErrors path) ++ versions.flatMap (activeVersionErrors path)
      | _, _ => []

/-! ## Reserved events -/

/-- `FEATURE_FLAG_EXPOSURE_ENVELOPE_KEYS`. -/
def envelopeKeys : List String :=
  ["event", "type", "user_id", "anonymous_id", "group_id", "timestamp", "properties", "context",
    "message_id", "session_id"]

/-- `FEATURE_FLAG_EXPOSURE_REQUIRED_ENVELOPE_KEYS`. -/
def requiredEnvelopeKeys : List String :=
  ["event", "type", "timestamp", "properties", "message_id", "session_id"]

def featureFlagExposureKeys : List String :=
  ["flag_key", "variant", "reason", "rule_id", "rollout_bucket", "variant_bucket",
    "rollout_percentage", "bucket_by", "config_version", "source", "page", "component"]

def featureFlagExposureReasons : List String := ["rule_match", "fallthrough"]

def featureFlagExposureSources : List String :=
  ["memory", "initial_fetch", "sse", "local_storage", "server"]

def frontendErrorKeys : List String :=
  ["error_type", "message", "page", "component", "slot_id", "source", "line", "column", "stack",
    "active_flags", "active_flag_versions"]

def frontendErrorTypes : List String :=
  ["javascript_error", "unhandled_rejection", "component_render_error"]

def webVitalKeys : List String :=
  ["metric", "value", "rating", "delta", "id", "navigation_type", "page", "active_flags",
    "active_flag_versions"]

def webVitalMetrics : List String := ["CLS", "INP", "LCP"]

def webVitalRatings : List String := ["good", "needs_improvement", "poor"]

def validateFeatureFlagExposureEnvelope (event : Fields) (path : Text) : List FieldError :=
  ((missing requiredEnvelopeKeys event).map fun key =>
    ⟨join path key, ofString "Missing required feature flag exposure envelope field"⟩) ++
  ((unknown envelopeKeys event).map fun key =>
    ⟨join path key, ofString "Unknown feature flag exposure envelope field"⟩) ++
  (if !truthy (event.get "user_id") && !truthy (event.get "anonymous_id") then
    [⟨join path (ofString "user_id"),
      ofString "Feature flag exposure requires canonical user_id or anonymous_id"⟩] else []) ++
  (["user_id", "anonymous_id", "group_id", "timestamp", "message_id", "session_id"].flatMap
    fun key =>
      if event.has key && !isNonEmptyString (event.get key) then
        [⟨join path (ofString key),
          ofString ("Envelope field '" ++ key ++ "' must be a non-empty string")⟩]
      else []) ++
  if event.has "context" && ((event.get "context").bind Doc.toFields).isNone then
    [⟨join path (ofString "context"), ofString "Envelope field 'context' must be an object"⟩]
  else []

/-- The error of a reserved event whose type is not `track`. -/
def trackError (event : Fields) (path : Text) (name : String) : List FieldError :=
  if isText (event.get "type") "track" then []
  else [⟨join path (ofString "type"),
    ofString ("Reserved event '" ++ name ++ "' must use type 'track'")⟩]

/-- `_reserved_properties`: the properties, or the error. -/
def reservedProperties (event : Fields) (path : Text) : Except FieldError Fields :=
  match event.get "properties" with
  | none =>
    .error ⟨join path (ofString "properties"),
      ofString "Missing required reserved event properties"⟩
  | some (.obj properties) => .ok properties
  | some _ =>
    .error ⟨join path (ofString "properties"),
      ofString "Reserved event properties must be an object"⟩

/-- The error of a null assignment property. -/
def notNull (properties : Fields) (path : Text) (key : String) : List FieldError :=
  if (properties.get key).any Doc.isNull then
    [propertyFieldError path key ("Assignment property '" ++ key ++ "' must not be null")]
  else []

/-- The two rules about `reason` and `rule_id`. -/
def ruleIdErrors (properties : Fields) (path : Text) : List FieldError :=
  (if isText (properties.get "reason") "rule_match" &&
      !isNonEmptyString (properties.get "rule_id") then
    [propertyFieldError path "rule_id" "Rule assignments require a non-empty rule_id"] else []) ++
  if isText (properties.get "reason") "fallthrough" &&
      (properties.get "rule_id").any fun d => !d.isNull then
    [propertyFieldError path "rule_id" "Fallthrough assignments require a null rule_id"]
  else []

def validateFeatureFlagExposureTypes (properties : Fields) (path : Text) :
    Except Raised (List FieldError) := do
  let flagKey ← checkProperty properties path "flag_key"
    "Property 'flag_key' must be a non-empty string" fun d => .ok (!isNonEmptyString (some d))
  let variant ← checkProperty properties path "variant"
    "Property 'variant' must be a non-empty string" fun d => .ok (!isNonEmptyString (some d))
  let reason ← checkMember properties path "reason"
    "Property 'reason' is not a canonical assignment reason" featureFlagExposureReasons
  let ruleId ← validateNullableStringProperty properties path "rule_id"
  let rolloutBucket ← validateNullableNumberProperty properties path "rollout_bucket"
  let variantBucket ← validateNullableNumberProperty properties path "variant_bucket"
  let percentage ← validateNullablePercentageProperty properties path "rollout_percentage"
  let bucketBy ← validateNullableStringProperty properties path "bucket_by"
  let nonEmptyBucketBy ← checkProperty properties path "bucket_by"
    "Assignment property 'bucket_by' must be a non-empty string"
    fun d => .ok (!isNonEmptyString (some d))
  let version ← checkProperty properties path "config_version"
    "Property 'config_version' must be a positive integer"
    fun d => .ok (!isNonNegativeInt d || decide ((toNumber d).getD 0 < 1))
  let source ← checkMember properties path "source"
    "Property 'source' is not a canonical gate config source" featureFlagExposureSources
  let page ← validateStringProperty properties path "page"
  let component ← validateStringProperty properties path "component"
  return flagKey ++ variant ++ reason ++ ruleId ++ rolloutBucket ++ variantBucket ++ percentage ++
    bucketBy ++ ["rollout_bucket", "variant_bucket", "rollout_percentage"].flatMap
      (notNull properties path) ++ nonEmptyBucketBy ++ ruleIdErrors properties path ++ version ++
    source ++ page ++ component

def validateFeatureFlagExposureEvent (event : Fields) (path : Text) :
    Except Raised (List FieldError) :=
  let envelope := trackError event path "$feature_flag_exposure" ++
    validateFeatureFlagExposureEnvelope event path
  match reservedProperties event path with
  | .error e => .ok (envelope ++ [e])
  | .ok properties =>
    (validateFeatureFlagExposureTypes properties path).map fun types =>
      envelope ++ keyErrors properties path featureFlagExposureKeys "feature flag exposure" ++ types

/-- The checks of the properties of `$frontend_error`. -/
def validateFrontendErrorTypes (properties : Fields) (path : Text) :
    Except Raised (List FieldError) := do
  let errorType ← checkMember properties path "error_type"
    "Property 'error_type' is not a canonical frontend error type" frontendErrorTypes
  let strings ← ["message", "page", "component", "slot_id", "source", "stack"].mapM
    (validateStringProperty properties path)
  let line ← validateNullableNumberProperty properties path "line"
  let column ← validateNullableNumberProperty properties path "column"
  return errorType ++ strings.flatten ++ line ++ column ++
    validateActiveFlagProperties properties path

def validateFrontendErrorEvent (event : Fields) (path : Text) : Except Raised (List FieldError) :=
  let envelope := trackError event path "$frontend_error" ++
    validateFeatureFlagExposureEnvelope event path
  match reservedProperties event path with
  | .error e => .ok (envelope ++ [e])
  | .ok properties =>
    (validateFrontendErrorTypes properties path).map fun types =>
      envelope ++ keyErrors properties path frontendErrorKeys "frontend error" ++ types

/-- The checks of the properties of `$web_vital`. -/
def validateWebVitalTypes (properties : Fields) (path : Text) :
    Except Raised (List FieldError) := do
  let metric ← checkMember properties path "metric"
    "Property 'metric' is not a canonical web vital metric" webVitalMetrics
  let rating ← checkMember properties path "rating"
    "Property 'rating' is not a canonical web vital rating" webVitalRatings
  let value ← validateNumberProperty properties path "value"
  let delta ← validateNumberProperty properties path "delta"
  let strings ← ["id", "navigation_type", "page", "component"].mapM
    (validateStringProperty properties path)
  return metric ++ rating ++ value ++ delta ++ strings.flatten ++
    validateActiveFlagProperties properties path

def validateWebVitalEvent (event : Fields) (path : Text) : Except Raised (List FieldError) :=
  let envelope := trackError event path "$web_vital" ++
    validateFeatureFlagExposureEnvelope event path
  match reservedProperties event path with
  | .error e => .ok (envelope ++ [e])
  | .ok properties =>
    (validateWebVitalTypes properties path).map fun types =>
      envelope ++ keyErrors properties path webVitalKeys "web vital" ++ types

def validateReservedEvent (event : Fields) (path : Text) : Except Raised (List FieldError) :=
  if isText (event.get "event") "$feature_flag_exposure" then
    validateFeatureFlagExposureEvent event path
  else if isText (event.get "event") "$frontend_error" then validateFrontendErrorEvent event path
  else if isText (event.get "event") "$web_vital" then validateWebVitalEvent event path
  else .ok []

/-! ## Batches -/

section Batches

variable (isStr : Text → Bool) (receivedAt : Datetime)

/-- `_format_errors` of one error, whose location has only names. -/
def formatError (path : Text) (e : LineError) : FieldError :=
  let field := (ofString ".").intercalate e.loc
  ⟨if path ≠ [] ∧ field ≠ [] then path ++ ofString "." ++ field
    else if path ≠ [] then path else field, e.message⟩

def validateEvent (path : Text) : Doc → Except Raised (List FieldError)
  | .obj event => do
    let identity : List FieldError :=
      if !truthy (Fields.get event "user_id") && !truthy (Fields.get event "anonymous_id") then
        [⟨join path (ofString "user_id"), ofString "Event requires user_id or anonymous_id"⟩]
      else []
    let modelErrors ← Event.modelValidate isStr receivedAt event
    let reserved ← validateReservedEvent event path
    return identity ++ modelErrors.map (formatError path) ++ reserved
  | _ => .ok [⟨if path = [] then ofString "event" else path, ofString "Event must be an object"⟩]

def messageId (event : Doc) : Option Text :=
  (event.toFields.bind fun fields => fields.get "message_id").bind Doc.toText

/-- The loop of `_validate_unique_message_ids`. -/
def duplicateMessageIds : List (Text × ℕ) → ℕ → List Doc → List FieldError
  | _, _, [] => []
  | first, index, event :: rest =>
    match messageId event with
    | none => duplicateMessageIds first (index + 1) rest
    | some id =>
      match first.lookup id with
      | none => duplicateMessageIds ((id, index) :: first) (index + 1) rest
      | some firstIndex =>
        ⟨ofString "events[" ++ ofNat index ++ ofString "].message_id",
          ofString "Duplicate message_id; first occurrence at events[" ++ ofNat firstIndex ++
            ofString "].message_id"⟩ :: duplicateMessageIds first (index + 1) rest

def validateUniqueMessageIds (events : List Doc) : List FieldError :=
  duplicateMessageIds [] 0 events

/-- The loop over the events of a batch. -/
def validateEvents : ℕ → List Doc → Except Raised (List FieldError)
  | _, [] => .ok []
  | index, event :: rest => do
    let errors ← validateEvent isStr receivedAt
      (ofString "events[" ++ ofNat index ++ ofString "]") event
    let others ← validateEvents (index + 1) rest
    return errors ++ others

def maxBatchSize : ℕ := 100

def error (field message : String) : Except Raised (List FieldError) :=
  .ok [⟨ofString field, ofString message⟩]

/-- `validate_event_batch`: the errors; the batch is valid when there are none. -/
def validateEventBatch : Doc → Except Raised (List FieldError)
  | .obj body =>
    match Fields.get body "events" with
    | none => error "events" "Missing required field 'events'"
    | some value =>
      if unknown ["events"] body ≠ [] then
        .ok ((unknown ["events"] body).map fun key => ⟨key, ofString "Unknown batch field"⟩)
      else
        match value with
        | .arr events =>
          if events.length = 0 then error "events" "Batch must contain at least one event"
          else if maxBatchSize < events.length then
            error "events" "Batch size exceeds maximum of 100"
          else do
            let errors ← validateEvents isStr receivedAt 0 events
            return errors ++ validateUniqueMessageIds events
        | _ => error "events" "Field 'events' must be an array"
  | _ => error "body" "Request body must be a JSON object"

end Batches

end Apdl.Ingest
