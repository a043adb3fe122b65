import Apdl.Lib.Script
import Apdl.Lib.Utf16
import Mathlib.Data.List.Dedup

set_option autoImplicit false

/-!
# The deletion of analytics data

`execute_request` deletes what is stored of a user, or of a project. The anonymous IDs of a user are read
from the assertions that link them, and the assertions are deleted last. A run can be cut off, and the
request is then executed again, under the maintenance fence and with the writers shut out.

## Main definitions

* `runs` — executions one after the other, each of which can be cut off.

## Design

A call that raises can have had its effect or not, and a deletion whose answer is lost can also be applied
later. Rows have the columns that conditions compare; texts that are quoted in base64 are the texts. The
aliases are read without their order. A deletion is applied as a whole. Rows that expire after a year are
left out, and so are the schema checks before the execution.
-/

namespace Apdl.Pipeline.Deletion

/-! ## Requests -/

inductive Scope
  | project
  | user
  deriving DecidableEq

/-- `DeletionRequest`. The user of a request of scope `user` is `user_id`, which is not `None` there. -/
structure DeletionRequest where
  requestId : Text
  scope : Scope
  projectId : Text
  userId : Text
  actor : Text
  reason : Text
  targetSha256 : Text
  requestSha256 : Text
  deriving DecidableEq

/-- `TARGET_TABLES`, in their order. -/
inductive TargetTable
  | featureFlagExposures
  | frontendHealthEvents
  | sessions
  | experimentEventDeliveries
  | events
  | identityAliasAssertions
  deriving DecidableEq

def targetTables : List TargetTable :=
  [.featureFlagExposures, .frontendHealthEvents, .sessions, .experimentEventDeliveries, .events,
    .identityAliasAssertions]

/-- A row of a target table: the columns of the conditions, and the rest of it. -/
structure Row where
  projectId : Text
  userId : Text
  anonymousId : Text
  rest : Text
  deriving DecidableEq

/-- A condition on rows: a project, and a user with anonymous IDs or everyone. -/
structure Condition where
  projectId : Text
  identities : Option (Text × List Text)
  deriving DecidableEq

/-- A row meets a condition. -/
def Condition.holds (c : Condition) (row : Row) : Bool :=
  decide (row.projectId = c.projectId) &&
    match c.identities with
    | none => true
    | some (userId, anonymousIds) =>
      decide (row.userId = userId) || decide (row.anonymousId ∈ anonymousIds)

def targetCondition (request : DeletionRequest) (anonymousIds : List Text) : Condition :=
  match request.scope with
  | .project => ⟨request.projectId, none⟩
  | .user => ⟨request.projectId, some (request.userId, anonymousIds)⟩

/-! ## The audit ledger -/

inductive EventType
  | requested
  | completed
  deriving DecidableEq

/-- `details`: empty for a requested event. -/
structure Details where
  anonymousIdCount : ℕ
  matchedRows : List (TargetTable × ℕ)
  deriving DecidableEq

/-- A row of `analytics_data_deletion_audit`, its key left out. -/
structure AuditEvent where
  scope : Scope
  projectId : Text
  targetSha256 : Text
  requestSha256 : Text
  actor : Text
  reason : Text
  details : Option Details
  deriving DecidableEq

def DeletionRequest.event (request : DeletionRequest) (details : Option Details) : AuditEvent where
  scope := request.scope
  projectId := request.projectId
  targetSha256 := request.targetSha256
  requestSha256 := request.requestSha256
  actor := request.actor
  reason := request.reason
  details := details

def AuditEvent.SameIdentity (a b : AuditEvent) : Prop := { a with details := none } = { b with details := none }

instance (a b : AuditEvent) : Decidable (a.SameIdentity b) := by
  unfold AuditEvent.SameIdentity
  infer_instance

/-- The events of one request, by type. -/
structure AuditEvents where
  requested : Option AuditEvent
  completed : Option AuditEvent
  deriving DecidableEq

def AuditEvents.get (events : AuditEvents) : EventType → Option AuditEvent
  | .requested => events.requested
  | .completed => events.completed

/-- The insert of an event: nothing on a conflict, and an exception where a completion has no request of
the same identity. -/
def AuditEvents.insert (events : AuditEvents) (type : EventType) (event : AuditEvent) :
    Option AuditEvents :=
  match type with
  | .requested => some { events with requested := events.requested.or (some event) }
  | .completed =>
    match events.requested with
    | some requested =>
      if requested.SameIdentity event then
        some { events with completed := events.completed.or (some event) }
      else none
    | none => none

/-! ## The databases -/

/-- The queries. -/
inductive Call
  | readAuditEvents (requestId : Text)
  | recordAuditEvent (requestId : Text) (type : EventType) (event : AuditEvent)
  | selectAnonymousIds (projectId userId : Text)
  | count (table : TargetTable) (condition : Condition)
  | alterDelete (table : TargetTable) (condition : Condition)
  deriving DecidableEq

/-- What a query returns. -/
def Call.Result : Call → Type
  | .readAuditEvents _ => AuditEvents
  | .recordAuditEvent .. => Unit
  | .selectAnonymousIds .. => List Text
  | .count .. => ℕ
  | .alterDelete .. => Unit

/-- The exception of a query. -/
inductive Failure
  | raised
  deriving DecidableEq

abbrev Answer (e : Call) : Type := Except Failure e.Result

/-- The state of the databases. -/
structure World where
  tables : TargetTable → List Row
  /-- The ledger, by request. -/
  audit : Text → AuditEvents
  /-- Deletions whose answer was lost and which have not been applied. -/
  mutations : List (TargetTable × Condition)

/-- The rows that are left of a table. -/
def remaining (condition : Condition) (rows : List Row) : List Row :=
  rows.filter fun row => !condition.holds row

def World.delete (w : World) (table : TargetTable) (condition : Condition) : World :=
  { w with tables := Function.update w.tables table (remaining condition (w.tables table)) }

/-- The events of a request are replaced. -/
def World.setEvents (w : World) (requestId : Text) (events : AuditEvents) : World :=
  { w with audit := Function.update w.audit requestId events }

/-- The anonymous IDs that assertions link to a user of a project. -/
def anonymousIdsOf (assertions : List Row) (projectId userId : Text) : List Text :=
  ((assertions.filter fun row => decide (row.projectId = projectId ∧ row.userId = userId ∧
    row.anonymousId ≠ [])).map Row.anonymousId).dedup

/-- What a query does, and what it returns; an exception of the database is `none`. -/
def World.perform (w : World) : (e : Call) → Option (World × e.Result)
  | .readAuditEvents requestId => some (w, w.audit requestId)
  | .recordAuditEvent requestId type event =>
    ((w.audit requestId).insert type event).map fun events => (w.setEvents requestId events, ())
  | .selectAnonymousIds projectId userId =>
    some (w, anonymousIdsOf (w.tables .identityAliasAssertions) projectId userId)
  | .count table condition => some (w, (w.tables table).countP condition.holds)
  | .alterDelete table condition => some (w.delete table condition, ())

/-- What becomes of a query. -/
inductive Outcome
  | ok
  | lost
  /-- It has no effect. -/
  | failed
  /-- It is a deletion that may be applied later, and the answer is lost. -/
  | late
  deriving DecidableEq

/-- What happens to a query. -/
def World.exec (e : Call) (w : World) : Outcome → Option (World × Answer e)
  | .ok =>
    match w.perform e with
    | some (v, r) => some (v, .ok r)
    | none => some (w, .error .raised)
  | .lost => (w.perform e).map fun v => (v.1, .error .raised)
  | .failed => some (w, .error .raised)
  | .late =>
    match e with
    | .alterDelete table condition =>
      some ({ w with mutations := w.mutations ++ [(table, condition)] }, .error .raised)
    | _ => none

/-- A deletion whose answer was lost is applied. -/
def World.drift (w : World) (index : ℕ) : Option World :=
  (w.mutations[index]?).map fun mutation =>
    { w.delete mutation.1 mutation.2 with mutations := w.mutations.eraseIdx index }

/-- The databases, with the writers shut out. -/
def world : Host Call Answer World ℕ Outcome where
  env := World.drift
  exec := World.exec

/-! ## The program -/

/-- An exception of the program. -/
inductive DeletionError
  | query
  /-- The request ID is bound to another request. -/
  | bound
  | notRequested
  | notConverged (table : TargetTable)
  | notCompleted
  deriving DecidableEq

/-- Programs that wait for queries. -/
abbrev Program (α : Type) : Type := ExceptT DeletionError (Script Call Answer) α

def query (e : Call) : Program e.Result := Script.call (fun _ => DeletionError.query) e

/-- `status` of a result. -/
inductive Status
  | completed
  | alreadyCompleted
  deriving DecidableEq

structure DeletionResult where
  status : Status
  details : Option Details
  deriving DecidableEq

/-- Raise unless a condition holds. -/
def require (condition : Bool) (e : DeletionError) : Program Unit :=
  if condition then pure () else throw e

/-- `_validate_audit_identity`: whether every event has the identity of the request. -/
def hasIdentity (request : DeletionRequest) (events : AuditEvents) : Bool :=
  [events.requested, events.completed].all fun event =>
    event.all fun event => decide (event.SameIdentity (request.event none))

/-- `_read_audit_events` and `_validate_audit_identity`. -/
def readEvents (request : DeletionRequest) : Program AuditEvents := do
  let events ← query (.readAuditEvents request.requestId)
  require (hasIdentity request events) .bound
  pure events

def recordAuditEvent (request : DeletionRequest) (type : EventType) (details : Option Details) :
    Program Unit :=
  query (.recordAuditEvent request.requestId type (request.event details))

def linkedAnonymousIds (request : DeletionRequest) : Program (List Text) :=
  match request.scope with
  | .project => pure []
  | .user => query (.selectAnonymousIds request.projectId request.userId)

/-- `SELECT count()`. -/
def countRows (table : TargetTable) (condition : Condition) : Program ℕ :=
  query (.count table condition)

/-- `ALTER TABLE … DELETE`. -/
def alterDelete (table : TargetTable) (condition : Condition) : Program Unit :=
  query (.alterDelete table condition)

def deleteRows (table : TargetTable) (condition : Condition) (matched : ℕ) : Program Unit :=
  if 0 < matched then alterDelete table condition else pure ()

/-- One turn of the loop of `_delete_target_rows`: the number of rows that matched. -/
def deleteFrom (condition : Condition) (table : TargetTable) : Program ℕ := do
  let matched ← countRows table condition
  deleteRows table condition matched
  let left ← countRows table condition
  require (left == 0) (.notConverged table)
  pure matched

/-- The loop of `_delete_target_rows`. -/
def deleteFromAll (condition : Condition) : List TargetTable → Program (List (TargetTable × ℕ))
  | [] => pure []
  | table :: tables => do
    let matched ← deleteFrom condition table
    let rest ← deleteFromAll condition tables
    pure ((table, matched) :: rest)

def deleteTargetRows (request : DeletionRequest) (aliases : List Text) :
    Program (List (TargetTable × ℕ)) :=
  deleteFromAll (targetCondition request aliases) targetTables

/-- The requested event is recorded unless it is there. -/
def ensureRequested (request : DeletionRequest) (events : AuditEvents) : Program Unit :=
  match events.requested with
  | some _ => pure ()
  | none => do
    recordAuditEvent request .requested none
    let events ← readEvents request
    require events.requested.isSome .notRequested

/-- The rows are deleted and the completion is recorded. -/
def complete (request : DeletionRequest) : Program DeletionResult := do
  let aliases ← linkedAnonymousIds request
  let matchedRows ← deleteTargetRows request aliases
  let details : Details := ⟨aliases.length, matchedRows⟩
  recordAuditEvent request .completed (some details)
  let events ← readEvents request
  require (decide (events.completed.bind AuditEvent.details = some details)) .notCompleted
  pure ⟨.completed, some details⟩

def executeRequest (request : DeletionRequest) : Program DeletionResult := do
  let events ← readEvents request
  match events.completed with
  | some completed => pure ⟨.alreadyCompleted, completed.details⟩
  | none => do
    ensureRequested request events
    complete request

/-- The executions of a request, one after the other, from tables that nothing has been deleted from. -/
def runs (request : DeletionRequest) (w : World) :
    StepMachine (Host.Hosted Call Answer World (Except DeletionError DeletionResult))
      (Host.Act ℕ Outcome) :=
  world.machine (executeRequest request).run w

end Apdl.Pipeline.Deletion
