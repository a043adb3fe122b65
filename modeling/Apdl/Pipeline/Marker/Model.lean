import Apdl.Lib.Table
import Apdl.Pipeline.Frontier.Model

set_option autoImplicit false

/-!
# Publication of analysis boundary markers

The boundary rows of a project, the Redis stream with the deduplication keys of its markers, and the
publication attempts of any number of writers and restarts: the Lua script of
`_publish_one_boundary_marker`, its PostgreSQL update, and `_record_boundary_marker_failure`.

## Main definitions

* `State`, `Act`, `step`, `machine` — every interleaving of attempts, lost replies, failures of both
  stores, crashes, and other traffic on the stream.

## Design

An attempt works on the row as it was claimed; several attempts on one row may be in flight, since a
restarted writer or a second one claims a row whose earlier attempt is still running. Retry
deadlines only delay a claim and are left out, as are the failure code and the timestamps of a row,
which no function here reads. A row is identified by its token, which is unique.
-/

namespace Apdl.Pipeline.Marker

/-! ## PostgreSQL -/

/-- `marker_publish_state`. -/
inductive PublishState
  | pending
  | published
  | quarantined
  deriving DecidableEq, Repr

/-- A row of `experiment_analysis_boundaries`. -/
structure Row where
  token : Token
  state : PublishState
  attempts : ℕ
  markerStreamId : Option StreamId
  observedStreamId : Option StreamId
  deriving DecidableEq

/-- The boundary rows of the project. -/
abbrev Rows := Table Row.token

/-- The row of a new boundary. -/
def Row.fresh (token : Token) : Row := ⟨token, .pending, 0, none, none⟩

/-- `BOUNDARY_MARKER_MAX_PUBLISH_ATTEMPTS`. -/
def maxPublishAttempts : ℕ := 5

/-- The row after a failed attempt: the attempt is counted, and an observed ID is kept or filled. -/
def Row.failed (b : Row) (quarantined : Bool) (observed : Option StreamId) : Row :=
  { b with
    attempts := b.attempts + 1
    state := if quarantined = true ∨ maxPublishAttempts ≤ b.attempts + 1 then .quarantined
      else .pending
    observedStreamId := if b.observedStreamId ≠ none then b.observedStreamId else observed }

/-- The row after a successful attempt. -/
def Row.markedAt (b : Row) (id : StreamId) : Row :=
  { b with markerStreamId := some id, state := .published, observedStreamId := some id }

/-- `enforce_experiment_analysis_boundary_immutability`: the updates the trigger lets through. -/
def enforceImmutability (old new : Row) : Bool :=
  decide (new.token = old.token) &&
    (decide (old.observedStreamId = none) ||
      decide (new.observedStreamId = old.observedStreamId)) &&
    decide (old.state = .pending) &&
    match new.state with
    | .published => decide (new.attempts = old.attempts)
    | .pending | .quarantined => decide (new.attempts = old.attempts + 1)

/-- No other row has observed the same stream ID. -/
def uniqueObserved (rows : Rows) (new : Row) : Bool :=
  rows.rows.all fun b => decide (b.token = new.token) || decide (b.observedStreamId = none) ||
    decide (b.observedStreamId ≠ new.observedStreamId)

/-- Why an update raises. -/
inductive UpdateError
  /-- `UniqueViolationError` of the observed stream ID. -/
  | uniqueViolation
  /-- The trigger refuses. -/
  | immutable
  deriving DecidableEq, Repr

/-- `UPDATE … RETURNING` of the row with a token, if it meets the guard. -/
def updateRow (rows : Rows) (token : Token) (guard : Row → Bool) (set : Row → Row) :
    Except UpdateError (Option Row × Rows) :=
  match rows.get token with
  | none => .ok (none, rows)
  | some old =>
    if guard old then
      if enforceImmutability old (set old) then
        if uniqueObserved rows (set old) then .ok (some (set old), rows.replace (set old))
        else .error .uniqueViolation
      else .error .immutable
    else .ok (none, rows)

/-! ## Redis -/

def eventStreamMaxEntries : ℕ := 1000000

def xlen (r : Redis) : ℕ := (r.log.filter fun e => r.present e.id).length

/-- `XRANGE id id COUNT 1`. -/
def xrange (r : Redis) (id : StreamId) : Option Entry :=
  if id ∈ r.deleted then none else r.log.find? fun e => decide (e.id = id)

inductive LuaReply
  | markerId (id : StreamId)
  /-- `BOUNDARY_MARKER_DEDUP_INVALID`, with the ID of the deduplication key. -/
  | dedupInvalid (existing : Option StreamId)
  /-- `EVENT_STREAM_CAPACITY_REACHED`. -/
  | capacityReached
  deriving DecidableEq

/-- `BOUNDARY_MARKER_LUA` for a token, the ID that its row has observed, and the ID that `XADD` would
generate. -/
def boundaryMarkerLua (r : Redis) (token : Token) (observed : Option StreamId) (fresh : StreamId) :
    LuaReply × Redis :=
  match r.dedup.lookup token with
  | some existing =>
    if observed ≠ none ∧ observed ≠ some existing then (.dedupInvalid (some existing), r)
    else if (xrange r existing).map Entry.content = some (.marker token) then (.markerId existing, r)
    else (.dedupInvalid (some existing), r)
  | none =>
    if observed ≠ none then (.dedupInvalid none, r)
    else if eventStreamMaxEntries ≤ xlen r then (.capacityReached, r)
    else (.markerId fresh,
      { r.append ⟨fresh, .marker token⟩ with dedup := (token, fresh) :: r.dedup })

/-! ## Attempts -/

/-- The codes of `BoundaryMarkerPublishError` that arise here. -/
inductive FailureCode
  | eventStreamCapacity
  | redisPublishFailed
  | invalidRedisMarkerId
  | boundaryAuthorityUpdateFailed
  | boundaryAuthorityUpdateInvalid
  | invalidBoundaryMarkerDedup
  deriving DecidableEq, Repr

/-- `BoundaryMarkerPublishError`. -/
structure Failure where
  code : FailureCode
  terminal : Bool
  observedStreamId : Option StreamId
  deriving DecidableEq

/-- `PendingBoundaryMarker`. -/
structure PendingMarker where
  token : Token
  publishAttempts : ℕ
  observedStreamId : Option StreamId
  deriving DecidableEq

/-- Where an attempt is. -/
inductive Phase
  /-- Before the script. -/
  | evaluate
  /-- The script returned the ID; before the update of the row. -/
  | store (id : StreamId)
  /-- Before `_record_boundary_marker_failure`. -/
  | fail (failure : Failure)
  deriving DecidableEq

structure Attempt where
  marker : PendingMarker
  phase : Phase
  deriving DecidableEq

/-- A stream ID that a marker can have. -/
def positiveId (id : StreamId) : Bool := decide (0 < (ofLex id).1)

/-- `_pending_boundary_marker` of a claimed row: `none` when it raises. -/
def pendingBoundaryMarker (b : Row) : Option PendingMarker :=
  if b.attempts < maxPublishAttempts ∧ b.observedStreamId.all positiveId = true then
    some ⟨b.token, b.attempts, b.observedStreamId⟩
  else none

namespace PendingMarker

/-- Redis fails, or its reply does not arrive. -/
def redisFailure : Phase := .fail ⟨.redisPublishFailed, false, none⟩

/-- What `_publish_one_boundary_marker` does with the reply of the script. -/
def readReply (m : PendingMarker) : LuaReply → Phase
  | .dedupInvalid existing =>
    -- the first validated observation is kept
    let observed := if m.observedStreamId ≠ none then m.observedStreamId
      else existing.filter positiveId
    .fail ⟨.invalidBoundaryMarkerDedup, true, observed⟩
  | .capacityReached => .fail ⟨.eventStreamCapacity, false, none⟩
  | .markerId id =>
    if positiveId id = false then .fail ⟨.invalidRedisMarkerId, true, none⟩
    else if m.observedStreamId ≠ none ∧ m.observedStreamId ≠ some id then
      .fail ⟨.invalidBoundaryMarkerDedup, true, none⟩
    else .store id

/-- The rows that an attempt may still change. -/
def isCurrent (m : PendingMarker) (b : Row) : Bool :=
  decide (b.state = .pending) && decide (b.attempts = m.publishAttempts) &&
    decide (b.markerStreamId = none)

/-- PostgreSQL fails, or its reply does not arrive, after the script returned an ID. -/
def authorityFailure (id : StreamId) : Failure := ⟨.boundaryAuthorityUpdateFailed, false, some id⟩

/-- The transaction that publishes a row: the rows after it and the failure it ends with. -/
def storeMarker (m : PendingMarker) (rows : Rows) (id : StreamId) : Rows × Option Failure :=
  match updateRow rows m.token m.isCurrent fun b => b.markedAt id with
  | .error _ => (rows, some (authorityFailure id))
  | .ok (updated, rows') =>
    let stored := if updated = none then rows.get m.token else updated
    if stored.any fun b => decide (b.state = .published) && decide (b.markerStreamId = some id) &&
        decide (b.observedStreamId = some id) then (rows', none)
    else (rows', some ⟨.boundaryAuthorityUpdateInvalid, true, some id⟩)

/-- `_update_boundary_marker_failure`. -/
def updateFailure (m : PendingMarker) (rows : Rows) (quarantined : Bool)
    (observed : Option StreamId) : Except UpdateError (Option Row × Rows) :=
  updateRow rows m.token
    (fun b => m.isCurrent b && (decide (b.observedStreamId = none) || decide (observed = none) ||
      decide (b.observedStreamId = observed)))
    fun b => b.failed quarantined observed

/-- The ID that is recorded with a failure. -/
def observedWith (m : PendingMarker) (f : Failure) : Option StreamId :=
  if f.observedStreamId ≠ none then f.observedStreamId else m.observedStreamId

/-- The failure ends the publication. -/
def quarantines (m : PendingMarker) (f : Failure) : Bool :=
  f.terminal || decide (maxPublishAttempts ≤ m.publishAttempts + 1)

/-- `_record_boundary_marker_failure`: the rows after it. -/
def recordFailure (m : PendingMarker) (rows : Rows) (f : Failure) : Rows :=
  if m.observedStreamId ≠ none ∧ m.observedWith f ≠ m.observedStreamId then rows
  else
    match m.updateFailure rows (m.quarantines f) (m.observedWith f) with
    | .ok (_, rows') => rows'
    | .error .uniqueViolation =>
      if m.quarantines f = true ∧ f.code = .invalidBoundaryMarkerDedup ∧
          m.observedStreamId = none ∧ m.observedWith f ≠ none then
        -- the ID belongs to another boundary: quarantine without it
        match m.updateFailure rows (m.quarantines f) none with
        | .ok (_, rows') => rows'
        | .error _ => rows
      else rows
    | .error .immutable => rows

end PendingMarker

/-! ## The system -/

/-- The stores and the attempts in flight. -/
structure State where
  redis : Redis
  rows : Rows
  inflight : List Attempt

/-- What can happen next. -/
inductive Act
  | request (token : Token)
  | append (e : Entry)
  | remove (id : StreamId)
  | claim (token : Token)
  /-- The script of an attempt, with the ID `XADD` would generate. -/
  | evaluate (k : ℕ) (fresh : StreamId) (reply : Reply)
  | store (k : ℕ) (reply : Reply)
  | recordFailure (k : ℕ) (reply : Reply)
  /-- The writer of an attempt crashes or is cancelled. -/
  | drop (k : ℕ)

/-- The attempt at a position goes on in a phase. -/
def State.setPhase (s : State) (k : ℕ) (att : Attempt) (phase : Phase) : List Attempt :=
  s.inflight.set k { att with phase := phase }

/-- One step of the script of an attempt. -/
def evaluateStep (s : State) (k : ℕ) (att : Attempt) (fresh : StreamId) (reply : Reply) :
    Option State :=
  if s.redis.canAppend fresh = true ∧ positiveId fresh = true then
    let (answer, redis) := boundaryMarkerLua s.redis att.marker.token att.marker.observedStreamId fresh
    match reply with
    | .done => some { s with
        redis := redis, inflight := s.setPhase k att (att.marker.readReply answer) }
    | .lost => some { s with
        redis := redis, inflight := s.setPhase k att PendingMarker.redisFailure }
    | .failed => some { s with inflight := s.setPhase k att PendingMarker.redisFailure }
  else none

/-- The update of an attempt whose script returned an ID. -/
def storeStep (s : State) (k : ℕ) (att : Attempt) (id : StreamId) (reply : Reply) : State :=
  let (rows, failure) := att.marker.storeMarker s.rows id
  match reply with
  | .done =>
    match failure with
    | none => { s with rows := rows, inflight := s.inflight.eraseIdx k }
    | some f => { s with rows := rows, inflight := s.setPhase k att (.fail f) }
  | .lost => { s with
      rows := rows, inflight := s.setPhase k att (.fail (PendingMarker.authorityFailure id)) }
  | .failed => { s with
      inflight := s.setPhase k att (.fail (PendingMarker.authorityFailure id)) }

def step (s : State) : Act → Option State
  | .request token => (s.rows.insert (.fresh token)).map fun rows => { s with rows := rows }
  | .append e =>
    match e.content with
    | .marker _ => none
    | _ =>
      if s.redis.canAppend e.id then some { s with redis := s.redis.append e } else none
  | .remove id =>
    if s.redis.present id then
      some { s with redis := { s.redis with deleted := s.redis.deleted ++ [id] } }
    else none
  | .claim token =>
    match s.rows.get token with
    | none => none
    | some b =>
      if b.state = .pending ∧ b.markerStreamId = none then
        (pendingBoundaryMarker b).map fun m => { s with inflight := s.inflight ++ [⟨m, .evaluate⟩] }
      else none
  | .evaluate k fresh reply =>
    match s.inflight[k]? with
    | some ⟨m, .evaluate⟩ => evaluateStep s k ⟨m, .evaluate⟩ fresh reply
    | _ => none
  | .store k reply =>
    match s.inflight[k]? with
    | some ⟨m, .store id⟩ => some (storeStep s k ⟨m, .store id⟩ id reply)
    | _ => none
  | .recordFailure k reply =>
    match s.inflight[k]? with
    | some ⟨m, .fail f⟩ =>
      some { s with
        rows := if reply = .failed then s.rows else m.recordFailure s.rows f
        inflight := s.inflight.eraseIdx k }
    | _ => none
  | .drop k => some { s with inflight := s.inflight.eraseIdx k }

/-- Empty stores and no attempt. -/
def initial : State :=
  ⟨{ log := [], deleted := [], group := none, dedup := [] }, .empty, []⟩

/-- The publication of boundary markers as a step machine. -/
def machine : StepMachine State Act where
  init := initial
  step := step

end Apdl.Pipeline.Marker
