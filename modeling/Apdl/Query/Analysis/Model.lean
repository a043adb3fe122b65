import Apdl.Lib.Sql
import Mathlib.Data.List.MinMax
import Mathlib.Data.Prod.Lex
import Mathlib.Data.String.Basic

set_option autoImplicit false

/-!
# The experiment analysis query

`EXPERIMENT_ANALYSIS_QUERY` of the query service over `experiment_event_deliveries`, which the
materialized view `experiment_event_deliveries_mv` fills from the inserts into `events`.

## Main definitions

* `boundaryEvents`, `rawExposures`, `assignments`, `metricEvents`, `identityQuality`,
  `actorOutcomes`, `analysisQuery` — the common table expressions of the query, and its rows.

## Design

A `DateTime64(3)` is a number of milliseconds since 1970-01-01, a `Date` a number of days, both in
UTC and without the bounds of their storage. The JSON text in `properties` is given by the members
of its object, with what the extraction functions make of each value. An outer join fills a missing
`String` with `''`, a missing `UInt8` with 0 and a missing `DateTime64` with 1970-01-01.
-/

namespace Apdl.Query

/-! ## The table -/

/-- What the extraction functions make of a JSON value. -/
inductive PropertyValue
  /-- A string, which `JSONExtractString` returns. -/
  | string (s : String)
  /-- A number, which `JSONExtractUInt` returns. -/
  | number (n : ℕ)
  /-- A value of which both return their default. -/
  | other
  deriving DecidableEq

/-- The members of a JSON object. -/
abbrev Properties := List (String × PropertyValue)

def jsonExtractString (p : Properties) (key : String) : String :=
  match p.lookup key with
  | some (.string s) => s
  | _ => ""

def jsonExtractUInt (p : Properties) (key : String) : ℕ :=
  match p.lookup key with
  | some (.number n) => n
  | _ => 0

/-- A Redis stream ID: milliseconds and sequence number. -/
abbrev StreamId := ℕ ×ₗ ℕ

/-- The columns of an inserted `events` row that the view and the query read. -/
structure EventRow where
  projectId : String
  messageId : String
  eventType : String
  eventName : String
  userId : String
  anonymousId : String
  timestamp : ℤ
  receivedAt : ℤ
  properties : Properties
  sourceStream : String
  /-- `source_stream_id` with its two parts; `none` is the empty string. -/
  sourceStreamId : Option StreamId
  deriving DecidableEq

/-- `toDate` of a `DateTime64(3)`. -/
def toDate (t : ℤ) : ℤ := t / 86400000

/-- The `event_date` that the view stores. -/
def EventRow.eventDate (d : EventRow) : ℤ := toDate d.receivedAt

/-- `experiment_event_deliveries_mv`: the rows that the inserts into `events` add to the table. -/
def experimentEventDeliveries (events : List EventRow) : List EventRow :=
  events.filter fun d => decide (d.sourceStreamId ≠ none)

/-- The sorting key of `experiment_event_deliveries`. -/
def EventRow.sortingKey (d : EventRow) : String × String × Option StreamId :=
  (d.projectId, d.sourceStream, d.sourceStreamId)

/-! ## Parameters -/

/-- The analysis metadata of an experiment. -/
structure Metadata where
  flagKey : String
  metricEvent : String
  variants : List String
  minimumExposureConfigVersion : ℕ
  /-- `enrollment_mode == "targeted"`. -/
  targeted : Bool
  /-- The window, in microseconds since 1970-01-01. -/
  startDate : ℤ
  endDate : ℤ

structure QueryParams where
  projectId : String
  flagKey : String
  metricEvent : String
  declaredVariants : List String
  minimumExposureConfigVersion : ℕ
  assignmentReason : String
  startMs : ℤ
  endMs : ℤ
  requireProvenance : Bool
  sourceStream : String
  boundary : StreamId

/-- `_datetime64_boundary_milliseconds`: the first millisecond at or after an instant. -/
def datetime64BoundaryMilliseconds (microseconds : ℤ) : ℤ := -(-microseconds / 1000)

/-- The reason of the exposures that count. -/
def Metadata.assignmentReason (m : Metadata) : String :=
  if m.targeted then "rule_match" else "fallthrough"

/-- The parameters `experiment_results` passes, with the stream ID of the boundary marker when the
boundary is covered. -/
def queryParams (projectId : String) (m : Metadata) (marker : Option StreamId) : QueryParams :=
  { projectId := projectId
    flagKey := m.flagKey
    metricEvent := m.metricEvent
    declaredVariants := m.variants
    minimumExposureConfigVersion := m.minimumExposureConfigVersion
    assignmentReason := m.assignmentReason
    startMs := datetime64BoundaryMilliseconds m.startDate
    endMs := datetime64BoundaryMilliseconds m.endDate
    requireProvenance := marker.isSome
    sourceStream := "events:raw:" ++ projectId
    boundary := marker.getD (toLex (0, 0)) }

/-! ## Common table expressions -/

/-- The `WHERE` clause of `boundary_events`. -/
def EventRow.atBoundary (p : QueryParams) (d : EventRow) : Bool :=
  decide (d.projectId = p.projectId) &&
    (!p.requireProvenance ||
      decide (d.sourceStream = p.sourceStream) &&
        match d.sourceStreamId with
        | none => false
        | some id => decide (id ≤ p.boundary))

/-- The parts of `source_stream_id`. -/
def EventRow.streamParts (d : EventRow) : StreamId := d.sourceStreamId.getD (toLex (0, 0))

/-- The first columns of the `ORDER BY` clause of `boundary_events`. -/
def EventRow.messageKey (d : EventRow) : String ×ₗ String := toLex (d.projectId, d.messageId)

/-- The columns of the `ORDER BY` clause that are sorted downwards. -/
def EventRow.receipt (d : EventRow) : ℤ ×ₗ StreamId := toLex (d.receivedAt, d.streamParts)

/-- The `ORDER BY` clause of `boundary_events`. -/
def EventRow.Before (a b : EventRow) : Prop :=
  a.messageKey < b.messageKey ∨ a.messageKey = b.messageKey ∧ b.receipt ≤ a.receipt

instance : DecidableRel EventRow.Before := fun _ _ => inferInstanceAs (Decidable (_ ∨ _))

/-- `boundary_events`: of the deliveries at the boundary, the last received one per message. -/
def boundaryEvents (table : List EventRow) (p : QueryParams) : List EventRow :=
  Sql.limitOneBy EventRow.messageKey
    (((Sql.replacingFinal EventRow.sortingKey EventRow.receivedAt table).filter
      (EventRow.atBoundary p)).insertionSort EventRow.Before)

/-- A row of the identity join: `resolved_user_id` and `has_conflict`. -/
structure IdentityAlias where
  resolvedUserId : String
  hasConflict : Bool
  deriving DecidableEq

/-- The group of an anonymous ID in the identity subquery. -/
def identityAlias (events : List EventRow) (p : QueryParams) (anonymousId : String) :
    Option IdentityAlias := do
  let users := (events.filter fun d =>
    decide (d.projectId = p.projectId) && decide (d.eventType = "identify") &&
      decide (d.userId ≠ "") && decide (d.anonymousId ≠ "") &&
      decide (d.anonymousId = anonymousId)).map EventRow.userId
  let least ← users.min?
  let greatest ← users.max?
  some ⟨if least = greatest then least else "", decide (least ≠ greatest)⟩

/-- The columns that the outer join adds to an event. -/
def joinedAlias (events : List EventRow) (p : QueryParams) (d : EventRow) : IdentityAlias :=
  (identityAlias events p d.anonymousId).getD ⟨"", false⟩

/-- `canonical_actor_sql`. -/
def canonicalActor (d : EventRow) (resolvedUserId : String) : String :=
  if d.userId ≠ "" then "u:" ++ d.userId
  else if resolvedUserId ≠ "" then "u:" ++ resolvedUserId
  else if d.anonymousId ≠ "" then "a:" ++ d.anonymousId
  else ""

def actorId (events : List EventRow) (p : QueryParams) (d : EventRow) : String :=
  canonicalActor d (joinedAlias events p d).resolvedUserId

/-- The conditions on time and actor that exposures and metric events share. -/
def EventRow.inWindow (events : List EventRow) (p : QueryParams) (d : EventRow) : Bool :=
  decide (p.startMs ≤ d.timestamp) && decide (d.timestamp < p.endMs) &&
    (decide (toDate p.startMs ≤ d.eventDate) && decide (d.eventDate ≤ toDate p.endMs)) &&
    decide (actorId events p d ≠ "")

/-- A row of `raw_exposures`. -/
structure RawExposure where
  actorId : String
  variant : String
  firstExposure : ℤ
  messageId : String
  identityConflict : Bool
  deriving DecidableEq

/-- The columns of `raw_exposures`. -/
def rawExposure (events : List EventRow) (p : QueryParams) (d : EventRow) : RawExposure :=
  { actorId := actorId events p d
    variant := jsonExtractString d.properties "variant"
    firstExposure := d.timestamp
    messageId := d.messageId
    identityConflict := (joinedAlias events p d).hasConflict }

def rawExposures (events : List EventRow) (p : QueryParams) : List RawExposure :=
  (events.filter fun d =>
    decide (d.projectId = p.projectId) && decide (d.eventName = "$feature_flag_exposure") &&
      decide (jsonExtractString d.properties "flag_key" = p.flagKey) &&
      decide (p.minimumExposureConfigVersion ≤ jsonExtractUInt d.properties "config_version") &&
      decide (jsonExtractString d.properties "reason" = p.assignmentReason) &&
      d.inWindow events p).map (rawExposure events p)

/-- A row of `assignments`. -/
structure Assignment where
  actorId : String
  assignedVariant : String
  assignedAt : ℤ
  crossedOver : Bool
  hasUnknownVariant : Bool
  deriving DecidableEq

/-- The order of tuples, from the linear orders of its parts. -/
instance instPreorderTuple : Preorder (ℤ ×ₗ String) :=
  (Prod.Lex.instLinearOrder ℤ String).toPartialOrder.toPreorder

/-- The `tuple(first_exposure, message_id)` of an exposure. -/
def RawExposure.order (x : RawExposure) : ℤ ×ₗ String := toLex (x.firstExposure, x.messageId)

/-- The aggregates of one actor's exposures. -/
def assignment (p : QueryParams) (actorId : String) (group : List RawExposure) :
    Option Assignment := do
  let first ← group.argmin RawExposure.order
  let assignedAt ← (group.map RawExposure.firstExposure).min?
  some
    { actorId := actorId
      assignedVariant := first.variant
      assignedAt := assignedAt
      crossedOver := decide (Sql.uniqExact (group.map RawExposure.variant) > 1)
      hasUnknownVariant :=
        decide (group.countP (fun x => decide (x.variant ∉ p.declaredVariants)) > 0) }

def assignments (exposures : List RawExposure) (p : QueryParams) : List Assignment :=
  (exposures.map RawExposure.actorId).dedup.filterMap fun a =>
    assignment p a (exposures.filter fun x => decide (x.actorId = a))

/-- A row of `metric_events`. -/
structure MetricEvent where
  actorId : String
  timestamp : ℤ
  identityConflict : Bool
  deriving DecidableEq

/-- The columns of `metric_events`. -/
def metricEvent (events : List EventRow) (p : QueryParams) (d : EventRow) : MetricEvent :=
  { actorId := actorId events p d
    timestamp := d.timestamp
    identityConflict := (joinedAlias events p d).hasConflict }

def metricEvents (events : List EventRow) (p : QueryParams) : List MetricEvent :=
  (events.filter fun d =>
    decide (d.projectId = p.projectId) && decide (d.eventName = p.metricEvent) &&
      d.inWindow events p).map (metricEvent events p)

/-- `identity_quality`: the number of actors with conflicting aliases among the counted events. -/
def identityQuality (exposures : List RawExposure) (assigned : List Assignment)
    (metrics : List MetricEvent) : ℕ :=
  Sql.uniqExact
    ((exposures.filter RawExposure.identityConflict).map RawExposure.actorId ++
      metrics.flatMap fun m =>
        (assigned.filter fun a => decide (a.actorId = m.actorId) && m.identityConflict &&
          decide (a.assignedAt ≤ m.timestamp)).map fun _ => m.actorId)

/-- A row of `actor_outcomes`. -/
structure ActorOutcome where
  assignment : Assignment
  converted : Bool
  deriving DecidableEq

/-- The `timestamp` column of the outer join of an assignment with the metric events. -/
def joinedTimestamps (a : Assignment) (metrics : List MetricEvent) : List ℤ :=
  match (metrics.filter fun m => decide (m.actorId = a.actorId)).map MetricEvent.timestamp with
  | [] => [0]
  | timestamps => timestamps

def actorOutcomes (assigned : List Assignment) (metrics : List MetricEvent) (p : QueryParams) :
    List ActorOutcome :=
  assigned.map fun a =>
    { assignment := a
      converted := decide ((joinedTimestamps a metrics).countP
        (fun t => decide (a.assignedAt ≤ t) && decide (t < p.endMs)) > 0) }

structure ResultRow where
  variant : String
  sampleSize : ℕ
  conversions : ℕ
  crossoverActors : ℕ
  unknownVariantActors : ℕ
  identityConflictActors : ℕ
  deriving DecidableEq

def resultRow (outcomes : List ActorOutcome) (conflicts : ℕ) (variant : String) : ResultRow :=
  let group := outcomes.filter fun o => decide (o.assignment.assignedVariant = variant)
  { variant := variant
    sampleSize := group.length
    conversions := group.countP ActorOutcome.converted
    crossoverActors := group.countP fun o => o.assignment.crossedOver
    unknownVariantActors := group.countP fun o => o.assignment.hasUnknownVariant
    identityConflictActors := conflicts }

/-- `EXPERIMENT_ANALYSIS_QUERY` on the table of deliveries. -/
def analysisQuery (table : List EventRow) (p : QueryParams) : List ResultRow :=
  let events := boundaryEvents table p
  let exposures := rawExposures events p
  let assigned := assignments exposures p
  let metrics := metricEvents events p
  let outcomes := actorOutcomes assigned metrics p
  let conflicts := identityQuality exposures assigned metrics
  ((outcomes.map fun o => o.assignment.assignedVariant).dedup.insertionSort (· ≤ ·)).map
    (resultRow outcomes conflicts)

end Apdl.Query
