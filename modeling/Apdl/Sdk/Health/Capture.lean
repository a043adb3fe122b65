import Apdl.Lib.Double
import Apdl.Lib.Document

set_option autoImplicit false

/-!
# Browser health capture

`HealthCapture` turns browser errors, unhandled rejections, errors of rendered components and reports of web
vitals into events (`capture/health.ts`). Every event then passes `sanitizeAutoCaptureEvent`
(`privacy/auto-capture-safety.ts`), which copies the properties it knows one by one and leaves out what is
too long or of another shape.

## Design

The `URL` parser of the browser is a parameter. A function that assigns to a target returns the property
and what it assigns. The context of an event and its other fields are left out; the sanitizer changes only
the context and the properties.
-/

namespace Apdl.Sdk.Health

open Text (ofString)

/-! ## Values -/

abbrev Finite : Type := { q : ℚ // Double.round q = some q }

inductive JsNumber
  | finite (x : Finite)
  | infinity (negative : Bool)
  | nan
  deriving DecidableEq

inductive JsValue
  | null
  | bool (b : Bool)
  | number (x : JsNumber)
  | string (t : Text)
  | array (items : List JsValue)
  | record (fields : List (Text × JsValue))

/-- The properties of an object; an absent one is `undefined`. -/
abbrev Record : Type := List (Text × JsValue)

/-- A property. -/
def Record.get (r : Record) (key : String) : Option JsValue := r.lookup (ofString key)

/-- `JSON.stringify` of a number: from `10 ^ 21` on an integer has an exponent. -/
def JsNumber.stringify : JsNumber → Doc
  | .finite x =>
    if x.1.den = 1 ∧ -10 ^ 21 < x.1 ∧ x.1 < 10 ^ 21 then .int x.1.num else .float x.1
  | .infinity _ | .nan => .null

mutual

def JsValue.stringify : JsValue → Doc
  | .null => .null
  | .bool b => .bool b
  | .number x => x.stringify
  | .string t => .str t
  | .array items => .arr (stringifyItems items)
  | .record fields => .obj (stringifyFields fields)

/-- `JSON.stringify` of the items of an array. -/
def stringifyItems : List JsValue → List Doc
  | [] => []
  | v :: vs => v.stringify :: stringifyItems vs

/-- `JSON.stringify` of the properties of an object. -/
def stringifyFields : List (Text × JsValue) → List (Text × Doc)
  | [] => []
  | (k, v) :: fs => (k, v.stringify) :: stringifyFields fs

end

/-- The code unit of a character. -/
def unit (c : Char) : CodeUnit := UInt16.ofNat c.toNat

/-! ## Capture -/

/-- A value that is thrown, with what `JSON.stringify(value) ?? String(value)` gives. -/
inductive Thrown
  /-- An `Error`. -/
  | error (message : Text) (stack : Option Text) (rendered : Text)
  | string (t : Text)
  | other (rendered : Text)
  deriving DecidableEq

def messageFromUnknown : Thrown → Text
  | .error message _ rendered => if message = [] then rendered else message
  | .string t => t
  | .other rendered => rendered

def stackFromUnknown : Thrown → Text
  | .error _ stack _ => stack.getD []
  | _ => []

def finiteNumberOrNull : Option JsValue → JsValue
  | some (.number (.finite x)) => .number (.finite x)
  | _ => .null

def truncate (value : Text) (maxLength : ℕ) : Text :=
  if maxLength < value.unitLength then value.take maxLength else value

/-- The flags that are active on a page, with their variants and versions. -/
structure ActiveFlagSnapshot where
  activeFlags : List (Text × Text)
  activeFlagVersions : List (Text × JsNumber)
  nodup_flags : (activeFlags.map Prod.fst).Nodup
  nodup_versions : (activeFlagVersions.map Prod.fst).Nodup
  same_keys : ∀ k, k ∈ activeFlags.map Prod.fst ↔ k ∈ activeFlagVersions.map Prod.fst
  variant_ne : ∀ f ∈ activeFlags, f.2 ≠ []
  version_pos : ∀ v ∈ activeFlagVersions, ∃ x : Finite, v.2 = .finite x ∧ 0 < x.1

/-- `active_flags`. -/
def ActiveFlagSnapshot.flags (s : ActiveFlagSnapshot) : JsValue :=
  .record (s.activeFlags.map fun f => (f.1, .string f.2))

/-- `active_flag_versions`. -/
def ActiveFlagSnapshot.versions (s : ActiveFlagSnapshot) : JsValue :=
  .record (s.activeFlagVersions.map fun v => (v.1, .number v.2))

structure TrackEvent where
  event : Text
  properties : Record

def frontendErrorEvent : Text := ofString "$frontend_error"

def webVitalEvent : Text := ofString "$web_vital"

structure ErrorDetails where
  message : Text
  source : Text := []
  line : JsValue := .null
  column : JsValue := .null
  stack : Text
  component : Option Text := none
  slotId : Option Text := none

/-- `captureError`, on the path of the page. -/
def captureError (pagePath : Option Text) (s : ActiveFlagSnapshot) (errorType : String)
    (details : ErrorDetails) : TrackEvent where
  event := frontendErrorEvent
  properties :=
    [(ofString "error_type", .string (ofString errorType)),
     (ofString "message", .string (truncate details.message 1024)),
     (ofString "page", .string (pagePath.getD [])),
     (ofString "component", .string (details.component.getD [])),
     (ofString "slot_id", .string (details.slotId.getD [])),
     (ofString "source", .string details.source),
     (ofString "line", details.line),
     (ofString "column", details.column),
     (ofString "stack", .string (truncate details.stack 4096)),
     (ofString "active_flags", s.flags),
     (ofString "active_flag_versions", s.versions)]

/-- An `ErrorEvent` of the browser. -/
structure ErrorEvent where
  message : Text
  filename : Text
  lineno : Option JsValue
  colno : Option JsValue
  error : Thrown

/-- A report of a web vital. -/
structure Metric where
  name : Text
  value : JsNumber
  rating : Text
  delta : JsNumber
  id : Text
  navigationType : Text

/-- The event of a web vital. -/
def Metric.event (pagePath : Option Text) (s : ActiveFlagSnapshot) (m : Metric) : TrackEvent where
  event := webVitalEvent
  properties :=
    [(ofString "metric", .string m.name),
     (ofString "value", .number m.value),
     (ofString "rating", .string
       (if m.rating = ofString "needs-improvement" then ofString "needs_improvement" else m.rating)),
     (ofString "delta", .number m.delta),
     (ofString "id", .string m.id),
     (ofString "navigation_type", .string m.navigationType),
     (ofString "page", .string (pagePath.getD [])),
     (ofString "active_flags", s.flags),
     (ofString "active_flag_versions", s.versions)]

/-- What the browser or the application reports. -/
inductive Report
  | browserError (e : ErrorEvent)
  | unhandledRejection (reason : Thrown)
  | componentRenderError (component slotId : Text) (error : Thrown)
  | webVital (m : Metric)

structure HealthCapture where
  active : Bool
  frontendErrors : Bool
  webVitals : Bool

def webVitalMetrics : List Text := ["CLS", "INP", "LCP"].map ofString

def HealthCapture.report (h : HealthCapture) (pagePath : Option Text) (s : ActiveFlagSnapshot) :
    Report → Option TrackEvent
  | .browserError e =>
    if h.frontendErrors && h.active then
      some (captureError pagePath s "javascript_error"
        { message := if e.message = [] then messageFromUnknown e.error else e.message
          source := e.filename
          line := finiteNumberOrNull e.lineno
          column := finiteNumberOrNull e.colno
          stack := stackFromUnknown e.error })
    else none
  | .unhandledRejection reason =>
    if h.frontendErrors && h.active then
      some (captureError pagePath s "unhandled_rejection"
        { message := messageFromUnknown reason, stack := stackFromUnknown reason })
    else none
  | .componentRenderError component slotId error =>
    if h.frontendErrors && h.active then
      some (captureError pagePath s "component_render_error"
        { message := messageFromUnknown error
          stack := stackFromUnknown error
          component := some component
          slotId := some slotId })
    else none
  | .webVital m =>
    if h.webVitals && h.active && webVitalMetrics.contains m.name then some (m.event pagePath s)
    else none

/-! ## Sanitizing -/

/-- What the `URL` parser makes of a text. -/
structure Url where
  protocol : Text
  username : Text
  password : Text
  origin : Text
  pathname : Text

def isBoundedString (value : Text) (maxLength : ℕ) : Bool := decide (value.unitLength ≤ maxLength)

/-- The text before the first `?` or `#`. -/
def beforeQuery (value : Text) : Text := value.takeWhile fun u => u != unit '?' && u != unit '#'

def sanitizePath : Option JsValue → Option Text
  | some (.string value) =>
    if 2048 < value.unitLength then none
    else if (beforeQuery value).head? = some (unit '/') then some (beforeQuery value) else none
  | _ => none

def safeErrorTypes : List Text :=
  ["javascript_error", "unhandled_rejection", "component_render_error"].map ofString

def safeWebVitalRatings : List Text := ["good", "needs_improvement", "poor"].map ofString

/-- A property and what is assigned to it, if anything. -/
abbrev Assignment : Type := String × Option JsValue

def assigned (assignments : List Assignment) : Record :=
  assignments.filterMap fun a => a.2.map fun v => (ofString a.1, v)

def copyEnum (source : Record) (key : String) (allowed : List Text) : Assignment :=
  (key, match source.get key with
    | some (.string value) => if allowed.contains value then some (.string value) else none
    | _ => none)

def copyFiniteNumber (source : Record) (key : String) : Assignment :=
  (key, match source.get key with
    | some (.number (.finite x)) => some (.number (.finite x))
    | _ => none)

def copyNullableFiniteNumber (source : Record) (key : String) : Assignment :=
  (key, match source.get key with
    | some .null => some .null
    | some (.number (.finite x)) => some (.number (.finite x))
    | _ => none)

def copySanitizedPath (source : Record) (key : String) : Assignment :=
  (key, (sanitizePath (source.get key)).map .string)

def copyStringRecord (source : Record) (key : String) : Assignment :=
  (key, match source.get key with
    | some (.record fields) =>
      if fields.all fun f => match f.2 with
        | .string t => isBoundedString t 256
        | _ => false
      then some (.record fields) else none
    | _ => none)

/-- `Number.isInteger(value) && value >= 1`. -/
def isPositiveInteger : JsValue → Bool
  | .number (.finite x) => x.1.den == 1 && decide (1 ≤ x.1)
  | _ => false

def copyPositiveIntegerRecord (source : Record) (key : String) : Assignment :=
  (key, match source.get key with
    | some (.record fields) =>
      if fields.all fun f => isPositiveInteger f.2 then some (.record fields) else none
    | _ => none)

section Urls

variable (parseUrl : Text → Option Url)

def sanitizeHttpUrl (value : Text) : Option Text :=
  if 4096 < value.unitLength then none
  else
    match parseUrl value with
    | none => none
    | some parsed =>
      if (parsed.protocol ≠ ofString "http:" ∧ parsed.protocol ≠ ofString "https:") ∨
          parsed.username ≠ [] ∨ parsed.password ≠ [] then none
      else some (parsed.origin ++ parsed.pathname)

/-- `\s` of a regular expression. -/
def isSpace (u : CodeUnit) : Bool :=
  (decide (9 ≤ u.toNat) && decide (u.toNat ≤ 13)) ||
    [0x20, 0xA0, 0x1680, 0x2028, 0x2029, 0x202F, 0x205F, 0x3000, 0xFEFF].contains u.toNat ||
    (decide (0x2000 ≤ u.toNat) && decide (u.toNat ≤ 0x200A))

/-- `[^\s)\]\x7d]`. -/
def isUrlUnit (u : CodeUnit) : Bool :=
  !isSpace u && !([unit ')', unit ']', UInt16.ofNat 0x7D].contains u)

/-- An ASCII letter in lower case. -/
def lower (u : CodeUnit) : CodeUnit := if 65 ≤ u.toNat ∧ u.toNat ≤ 90 then u + 32 else u

/-- The length of the URL that a text starts with: the scheme in any case, and at least one unit. -/
def urlLength (t : Text) : Option ℕ :=
  (["https://", "http://"].map ofString).findSome? fun scheme =>
    if (t.take scheme.length).map lower = scheme then
      let rest := (t.drop scheme.length).takeWhile isUrlUnit
      if rest = [] then none else some (scheme.length + rest.length)
    else none

/-- The replacement of every URL; the first argument counts the units of a URL that were replaced. -/
def replaceUrls : ℕ → Text → Text
  | _, [] => []
  | skip + 1, _ :: t => replaceUrls skip t
  | 0, u :: t =>
    match urlLength (u :: t) with
    | some n =>
      (sanitizeHttpUrl parseUrl ((u :: t).take n)).getD (ofString "[REDACTED_URL]") ++
        replaceUrls (n - 1) t
    | none => u :: replaceUrls 0 t

def stripUrlsFromText (value : Text) : Text := replaceUrls parseUrl 0 value

def copyBoundedString (source : Record) (key : String) (maxLength : ℕ) (stripUrls : Bool) :
    Assignment :=
  (key, match source.get key with
    | some (.string value) =>
      if isBoundedString value maxLength then
        some (.string (if stripUrls then stripUrlsFromText parseUrl value else value))
      else none
    | _ => none)

def copySanitizedUrlLike (source : Record) (key : String) : Assignment :=
  (key, match source.get key with
    | some (.string value) =>
      if isBoundedString value 4096 then
        some (.string ((sanitizeHttpUrl parseUrl value).getD (beforeQuery value)))
      else none
    | _ => none)

/-- What `sanitizeFrontendErrorProperties` assigns. -/
def frontendErrorAssignments (source : Record) : List Assignment :=
  [copyEnum source "error_type" safeErrorTypes,
   copyBoundedString parseUrl source "message" 1024 true,
   copySanitizedPath source "page",
   copyBoundedString parseUrl source "component" 256 false,
   copyBoundedString parseUrl source "slot_id" 256 false,
   copySanitizedUrlLike parseUrl source "source",
   copyNullableFiniteNumber source "line",
   copyNullableFiniteNumber source "column",
   copyBoundedString parseUrl source "stack" 4096 true,
   copyStringRecord source "active_flags",
   copyPositiveIntegerRecord source "active_flag_versions"]

def sanitizeFrontendErrorProperties (source : Record) : Record :=
  assigned (frontendErrorAssignments parseUrl source)

/-- What `sanitizeWebVitalProperties` assigns. -/
def webVitalAssignments (source : Record) : List Assignment :=
  [copyEnum source "metric" webVitalMetrics,
   copyFiniteNumber source "value",
   copyEnum source "rating" safeWebVitalRatings,
   copyFiniteNumber source "delta",
   copyBoundedString parseUrl source "id" 256 false,
   copyBoundedString parseUrl source "navigation_type" 128 false,
   copySanitizedPath source "page",
   copyStringRecord source "active_flags",
   copyPositiveIntegerRecord source "active_flag_versions"]

def sanitizeWebVitalProperties (source : Record) : Record :=
  assigned (webVitalAssignments parseUrl source)

/-- `sanitizeReservedProperties`, on the two events of health capture. -/
def sanitizeReservedProperties (e : TrackEvent) : Record :=
  if e.event = frontendErrorEvent then sanitizeFrontendErrorProperties parseUrl e.properties
  else if e.event = webVitalEvent then sanitizeWebVitalProperties parseUrl e.properties
  else e.properties

def sanitizeAutoCaptureEvent (e : TrackEvent) : TrackEvent :=
  { e with properties := sanitizeReservedProperties parseUrl e }

end Urls

end Apdl.Sdk.Health
