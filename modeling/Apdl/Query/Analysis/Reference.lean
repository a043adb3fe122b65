import Apdl.Query.Analysis.Model
import Mathlib.Data.Finset.Sort

set_option autoImplicit false

/-!
# What an experiment analysis should count

The analysis of an experiment as a computation on the finite set of its deliveries: which actors
took part, the variant each was assigned to, and which of them converted.

## Design

Nothing here refers to the day on which an event was received, except `ReceivedInTime`.
-/

namespace Apdl.Query

/-- A finite set of deliveries and what to analyse. A stream entry never changes, so a delivery is
determined by its stream ID. -/
structure Analysis where
  deliveries : Finset EventRow
  keyed : ∀ x ∈ deliveries, ∀ y ∈ deliveries, x.sortingKey = y.sortingKey → x = y
  projectId : String
  boundary : StreamId
  metadata : Metadata

/-- Who an event is attributed to. -/
inductive Actor
  | user (id : String)
  | anonymous (id : String)
  deriving DecidableEq

namespace Analysis

variable (A : Analysis)

/-- Deliveries of the project's stream at or before the boundary. -/
def AtBoundary (d : EventRow) : Prop :=
  d ∈ A.deliveries ∧ d.projectId = A.projectId ∧
    d.sourceStream = "events:raw:" ++ A.projectId ∧ ∃ id, d.sourceStreamId = some id ∧ id ≤ A.boundary

/-- The last received delivery of its message. -/
def Latest (d : EventRow) : Prop :=
  A.AtBoundary d ∧ ∀ x, A.AtBoundary x → x.messageId = d.messageId → x.receipt ≤ d.receipt

/-- The window of the experiment, for a time in milliseconds. -/
def InWindow (t : ℤ) : Prop := A.metadata.startDate ≤ 1000 * t ∧ 1000 * t < A.metadata.endDate

/-! ## Actors -/

/-- An identify event asserts that the anonymous ID belongs to the user. -/
def Identifies (anonymousId userId : String) : Prop :=
  anonymousId ≠ "" ∧ userId ≠ "" ∧
    ∃ d, A.Latest d ∧ d.eventType = "identify" ∧ d.anonymousId = anonymousId ∧ d.userId = userId

/-- Identify events disagree on the user. -/
def Ambiguous (anonymousId : String) : Prop :=
  ∃ u v, A.Identifies anonymousId u ∧ A.Identifies anonymousId v ∧ u ≠ v

/-- The anonymous ID resolves to the user. -/
def Resolves (anonymousId userId : String) : Prop :=
  A.Identifies anonymousId userId ∧ ¬A.Ambiguous anonymousId

/-- The actor of an event: its user, else the user its anonymous ID resolves to, else the
anonymous ID. -/
def ActsAs (d : EventRow) : Actor → Prop
  | .user u => u ≠ "" ∧ (d.userId = u ∨ d.userId = "" ∧ A.Resolves d.anonymousId u)
  | .anonymous a =>
    a ≠ "" ∧ d.userId = "" ∧ d.anonymousId = a ∧ ∀ u, ¬A.Resolves d.anonymousId u

/-! ## Outcomes -/

/-- The variant an exposure reports. -/
def variant (d : EventRow) : String := jsonExtractString d.properties "variant"

/-- An exposure of the actor that counts. -/
def Exposure (a : Actor) (d : EventRow) : Prop :=
  A.Latest d ∧ A.ActsAs d a ∧ d.eventName = "$feature_flag_exposure" ∧
    jsonExtractString d.properties "flag_key" = A.metadata.flagKey ∧
    A.metadata.minimumExposureConfigVersion ≤ jsonExtractUInt d.properties "config_version" ∧
    jsonExtractString d.properties "reason" = A.metadata.assignmentReason ∧ A.InWindow d.timestamp

/-- The earliest exposure of the actor, by message ID among simultaneous ones. -/
def First (a : Actor) (d : EventRow) : Prop :=
  A.Exposure a d ∧ ∀ x, A.Exposure a x →
    (toLex (d.timestamp, d.messageId) : ℤ ×ₗ String) ≤ toLex (x.timestamp, x.messageId)

/-- The actor is assigned to the variant. -/
def Assigned (a : Actor) (v : String) : Prop := ∃ d, A.First a d ∧ variant d = v

/-- A metric event of the actor from its first exposure `d` on, before the end of the window. -/
def MetricSince (a : Actor) (d e : EventRow) : Prop :=
  A.First a d ∧ A.Latest e ∧ A.ActsAs e a ∧ e.eventName = A.metadata.metricEvent ∧
    d.timestamp ≤ e.timestamp ∧ 1000 * e.timestamp < A.metadata.endDate

def Converted (a : Actor) : Prop := ∃ d e, A.MetricSince a d e

/-- The actor was exposed to two variants. -/
def CrossedOver (a : Actor) : Prop :=
  ∃ d x, A.Exposure a d ∧ A.Exposure a x ∧ variant d ≠ variant x

/-- The actor was exposed to a variant that the experiment does not declare. -/
def UnknownVariant (a : Actor) : Prop := ∃ d, A.Exposure a d ∧ variant d ∉ A.metadata.variants

/-- A counted event of the actor has an ambiguous anonymous ID. -/
def Conflicted (a : Actor) : Prop :=
  (∃ d, A.Exposure a d ∧ A.Ambiguous d.anonymousId) ∨
    ∃ d e, A.MetricSince a d e ∧ A.Ambiguous e.anonymousId

open Classical in
noncomputable def assignedVariants : Finset String :=
  (A.deliveries.image variant).filter fun v => ∃ a, A.Assigned a v

noncomputable def row (v : String) : ResultRow :=
  { variant := v
    sampleSize := Set.ncard {a | A.Assigned a v}
    conversions := Set.ncard {a | A.Assigned a v ∧ A.Converted a}
    crossoverActors := Set.ncard {a | A.Assigned a v ∧ A.CrossedOver a}
    unknownVariantActors := Set.ncard {a | A.Assigned a v ∧ A.UnknownVariant a}
    identityConflictActors := Set.ncard {a | A.Conflicted a} }

/-- The rows of the analysis, by variant. -/
noncomputable def resultRows : List ResultRow := A.assignedVariants.sort.map A.row

/-- The parameters that `experiment_results` passes to the query. -/
def params : QueryParams := queryParams A.projectId A.metadata (some A.boundary)

/-- The delivery was received on a day from the one on which the window starts to the one on which
it ends. -/
def ReceivedInDays (d : EventRow) : Prop :=
  toDate A.params.startMs ≤ toDate d.receivedAt ∧ toDate d.receivedAt ≤ toDate A.params.endMs

/-- Every event that counts was received on a day of the window, and no exposure is dated at or
before 1970-01-01. -/
structure ReceivedInTime : Prop where
  exposures : ∀ a d, A.Exposure a d → A.ReceivedInDays d ∧ 0 < d.timestamp
  metrics : ∀ a d e, A.MetricSince a d e → A.ReceivedInDays e

end Analysis

end Apdl.Query
