import Mathlib.Algebra.Group.Nat.Defs
import Mathlib.Data.List.MinMax
import Mathlib.Data.Prod.Lex
import Mathlib.Logic.Function.Basic
import Apdl.Lib.StepMachine

set_option autoImplicit false

/-!
# The config outbox

The config service commits every change together with a row of `config_outbox`; one worker
claims due rows, delivers them and records the outcome. This file models the table, the mutation
transactions that fill it, the worker and the operator commands as one step machine.

## Main definitions

* `Sys`, `Act`, `machine` — the whole system: open transactions, the worker, the clock.

## Design

Times are whole seconds. A transaction is a sequence of steps (`begin`, `allocate`, inserts,
`commit` or `rollback`), because the sequence behind `id` is not transactional and the upsert of
`_next_project_version` holds its row lock until the transaction ends; both matter for the order
of ids and versions. `Sys` carries three history variables that no step reads: the broadcasts
performed, the rows ever committed and the ids ever quarantined.

Every database statement of the worker may fail, may be lost with its effect done, or may be
followed by a crash of the process; the action names which.
-/

namespace Apdl.Config.Outbox

/-! ## Constants -/

def claimTimeoutSeconds : ℕ := 60

def maxBackoffSeconds : ℕ := 60

def maxDeliveryAttempts : ℕ := 8

def cleanupBatchSize : ℕ := 500

def processedRetentionSeconds : ℕ := 7 * 24 * 60 * 60

def quarantinedRetentionSeconds : ℕ := 90 * 24 * 60 * 60

/-! ## Rows -/

/-- The `kind` column. -/
inductive Kind
  | flagChange
  | experimentChange
  | exposure
  deriving DecidableEq, Repr

/-- The kinds whose delivery is an SSE broadcast: `kind IN ('flag_change', 'experiment_change')`. -/
def Kind.isConfig : Kind → Bool
  | .flagChange => true
  | .experimentChange => true
  | .exposure => false

/-- The SSE event names of config deliveries. -/
inductive EventType
  | flagUpdate
  | experimentUpdate
  deriving DecidableEq, Repr

/-- The `payload` column. `D` is the type of the JSON objects carried under `data` or `event`. -/
inductive Payload (D : Type)
  /-- The object built by `_flag_delivery` and `_experiment_delivery`. -/
  | config (eventType : EventType) (projectVersion : ℕ) (data : D)
  /-- The object built by `enqueue_exposure`. -/
  | exposure (streamKey : String) (event : D)
  deriving DecidableEq, Repr

/-- `project_version` of a config payload. -/
def Payload.version {D : Type} : Payload D → ℕ
  | .config _ v _ => v
  | .exposure _ _ => 0

/-- The `failure_class` column. -/
inductive FailureClass
  | permanent
  | attemptsExhausted
  deriving DecidableEq, Repr

/-- One row of `config_outbox`. -/
structure Row (D : Type) where
  id : ℕ
  projectId : String
  kind : Kind
  dedupKey : String
  payload : Payload D
  attempts : ℕ
  availableAt : ℕ
  claimedAt : Option ℕ
  processedAt : Option ℕ
  quarantinedAt : Option ℕ
  failureClass : Option FailureClass
  failureCode : Option String
  lastError : String
  deriving DecidableEq, Repr

namespace Row

variable {D : Type}

/-- A config-change row. -/
def isConfig (r : Row D) : Bool := r.kind.isConfig

/-- The row is still to be delivered: `processed_at IS NULL AND quarantined_at IS NULL`. -/
def isOpen (r : Row D) : Bool := r.processedAt.isNone && r.quarantinedAt.isNone

/-- The project version its payload carries. -/
def version (r : Row D) : ℕ := r.payload.version

/-- The claim on the row is absent or older than the claim timeout. -/
def claimFree (now : ℕ) (r : Row D) : Bool :=
  match r.claimedAt with
  | none => true
  | some c => decide (c + claimTimeoutSeconds < now)

/-- Two rows of one project are delivered in order when both are config changes or both are
exposures. -/
def sameLane (r r' : Row D) : Bool :=
  (r.isConfig && r'.isConfig) || (decide (r.kind = .exposure) && decide (r'.kind = .exposure))

end Row

/-! ## The tables -/

/-- The committed database state and the parts of it that are not transactional: the sequence
`nextId` and the row locks on `config_project_versions`. -/
structure Db (D : Type) where
  rows : List (Row D)
  /-- `config_project_versions.project_version`, `0` for a project without a row. -/
  versions : String → ℕ
  /-- The transaction that holds the row lock of a project's counter. -/
  versionLock : String → Option ℕ
  nextId : ℕ

variable {D : Type}

/-- The subquery `NOT EXISTS (… earlier …)` of `claim_next` fails: an earlier row of the same
lane is still open. -/
def blocked (rows : List (Row D)) (r : Row D) : Bool :=
  rows.any fun e =>
    decide (e.projectId = r.projectId) && e.isOpen && decide (e.id < r.id) && r.sameLane e

/-- The `WHERE` clause of `claim_next`. -/
def claimable (now : ℕ) (rows : List (Row D)) (r : Row D) : Bool :=
  r.isOpen && decide (r.attempts < maxDeliveryAttempts) && decide (r.availableAt ≤ now) &&
    r.claimFree now && !blocked rows r

/-- `ORDER BY pending.available_at, pending.id LIMIT 1`. -/
def candidate (now : ℕ) (rows : List (Row D)) : Option (Row D) :=
  (rows.filter (claimable now rows)).argmin fun r => toLex (r.availableAt, r.id)

/-- Apply `f` to the rows with the given id that satisfy `p`: an `UPDATE … WHERE id = $1 AND p`. -/
def updateWhere (rows : List (Row D)) (p : Row D → Bool) (f : Row D → Row D) : List (Row D) :=
  rows.map fun r => if p r then f r else r

/-- `SET claimed_at = now(), attempts = attempts + 1`. -/
def Row.claim (now : ℕ) (r : Row D) : Row D :=
  { r with claimedAt := some now, attempts := r.attempts + 1 }

/-- `claim_next`: the rows after the claim and the row it returns. -/
def claimNext (now : ℕ) (rows : List (Row D)) : Option (List (Row D) × Row D) :=
  (candidate now rows).map fun c =>
    (updateWhere rows (fun r => decide (r.id = c.id)) (Row.claim now), c.claim now)

def markProcessed (now : ℕ) (rows : List (Row D)) (rowId : ℕ) : List (Row D) :=
  updateWhere rows (fun r => decide (r.id = rowId) && r.isOpen) fun r =>
    { r with processedAt := some now, claimedAt := none, lastError := "" }

/-- The retry delay after the given number of attempts: `min(2 ** max(attempts - 1, 0), 60)`. -/
def backoff (attempts : ℕ) : ℕ := min (2 ^ (attempts - 1)) maxBackoffSeconds

def markFailed (now : ℕ) (rows : List (Row D)) (rowId attempts : ℕ) (error : String) :
    List (Row D) :=
  updateWhere rows
    (fun r => decide (r.id = rowId) && r.isOpen && decide (r.attempts < maxDeliveryAttempts))
    fun r => { r with claimedAt := none, availableAt := now + backoff attempts, lastError := error }

def markQuarantined (now : ℕ) (rows : List (Row D)) (rowId : ℕ) (cls : FailureClass)
    (code error : String) : List (Row D) :=
  updateWhere rows (fun r => decide (r.id = rowId) && r.isOpen) fun r =>
    { r with
      quarantinedAt := some now, claimedAt := none, failureClass := some cls,
      failureCode := some code, lastError := error }

/-- The rows `quarantine_exhausted` terminalizes. -/
def exhausted (now : ℕ) (r : Row D) : Bool :=
  r.isOpen && decide (maxDeliveryAttempts ≤ r.attempts) && r.claimFree now

def quarantineExhausted (now : ℕ) (rows : List (Row D)) : List (Row D) :=
  updateWhere rows (exhausted now) fun r =>
    { r with
      quarantinedAt := some now, claimedAt := none, failureClass := some .attemptsExhausted,
      failureCode := some "delivery_attempts_exhausted",
      lastError := if r.lastError = "" then "Delivery attempt limit reached" else r.lastError }

/-- One pruning statement of `cleanup_once`: delete the first `cleanupBatchSize` rows, by the
terminal time and then by id, among those whose terminal time is past its retention. -/
def pruneBy (terminalAt : Row D → Option ℕ) (retention now : ℕ) (rows : List (Row D)) :
    List (Row D) :=
  let expired := rows.filter fun r => (terminalAt r).any fun t => decide (t + retention < now)
  let batch := (expired.mergeSort fun a b =>
    decide (toLex ((terminalAt a).getD 0, a.id) ≤ toLex ((terminalAt b).getD 0, b.id))).take
      cleanupBatchSize
  rows.filter fun r => !(batch.any fun b => decide (b.id = r.id))

/-- `cleanup_once`, as far as it concerns the outbox table. -/
def cleanupOnce (now : ℕ) (rows : List (Row D)) : List (Row D) :=
  pruneBy Row.quarantinedAt quarantinedRetentionSeconds now
    (pruneBy Row.processedAt processedRetentionSeconds now rows)

/-- What an operator asks for a quarantined row. -/
inductive Resolution
  | replay
  | discard
  deriving DecidableEq, Repr

/-- The row a resolution names: `id = $1 AND project_id = $2 AND quarantined_at IS NOT NULL`. -/
def isQuarantinedRow (projectId : String) (rowId : ℕ) (r : Row D) : Bool :=
  decide (r.id = rowId) && decide (r.projectId = projectId) && r.quarantinedAt.isSome

/-- `resolve_quarantined`: `none` when there is no such quarantined row, or when a replay is
refused because the row is not an exposure (`UnsafeQuarantineReplay`). -/
def resolveQuarantined (now : ℕ) (rows : List (Row D)) (projectId : String) (rowId : ℕ)
    (action : Resolution) : Option (List (Row D)) :=
  match rows.find? (isQuarantinedRow projectId rowId) with
  | none => none
  | some row =>
    match action with
    | .replay =>
      if row.kind = .exposure then
        some (updateWhere rows (isQuarantinedRow projectId rowId) fun r =>
          { r with
            attempts := 0, availableAt := now, claimedAt := none, quarantinedAt := none,
            failureClass := none, failureCode := none, lastError := "" })
      else none
    | .discard => some (rows.filter fun r => !isQuarantinedRow projectId rowId r)

/-! ## Delivery -/

/-- How a delivery ends when it raises. -/
inductive DeliveryError
  /-- `PermanentDeliveryError` with its code and text. -/
  | permanent (code message : String)
  /-- Any other exception, with its text. -/
  | transient (message : String)
  deriving DecidableEq, Repr

/-- One call of `SSEBroadcaster.broadcast`, with the outbox row it comes from. -/
structure Broadcast (D : Type) where
  rowId : ℕ
  projectId : String
  eventType : EventType
  projectVersion : ℕ
  data : D
  deriving DecidableEq, Repr

/-- `_config_delivery_payload`: the payload has the canonical shape, the event type of its kind
and a positive version. -/
def configDeliveryPayload (payload : Payload D) (expected : EventType) :
    Except DeliveryError (EventType × ℕ × D) :=
  match payload with
  | .exposure _ _ =>
    .error (.permanent "invalid_payload" "Config outbox payload has noncanonical fields")
  | .config eventType projectVersion data =>
    if eventType ≠ expected then
      .error (.permanent "invalid_payload" "Config outbox payload has an invalid event_type")
    else if projectVersion < 1 then
      .error (.permanent "invalid_project_version"
        "Config outbox payload has an invalid project_version")
    else .ok (eventType, projectVersion, data)

/-- The outcome of the awaited Redis call of a delivery: it succeeds (for an exposure: the entry
is admitted) or it raises. -/
inductive RedisReply
  | ok
  | error (message : String)
  deriving DecidableEq, Repr

/-- The config branch of `deliver`: check the payload, invalidate the cache in Redis, broadcast. -/
def deliverConfig (row : Row D) (expected : EventType) (redis : RedisReply) :
    Except DeliveryError (Option (Broadcast D)) :=
  match configDeliveryPayload row.payload expected with
  | .error e => .error e
  | .ok (eventType, projectVersion, data) =>
    match redis with
    | .error message => .error (.transient message)
    | .ok => .ok (some ⟨row.id, row.projectId, eventType, projectVersion, data⟩)

/-- The exposure branch of `deliver`. The checks on the event object itself are the parameter
`eventError`: the text of the first one that fails. -/
def deliverExposure (eventError : D → Option String) (row : Row D) (redis : RedisReply) :
    Except DeliveryError (Option (Broadcast D)) :=
  match row.payload with
  | .config _ _ _ =>
    .error (.permanent "invalid_payload" "Config outbox payload has noncanonical fields")
  | .exposure streamKey event =>
    if streamKey ≠ "events:raw:" ++ row.projectId then
      .error (.permanent "invalid_payload" "Config exposure stream does not match its project")
    else match eventError event with
      | some message => .error (.permanent "invalid_payload" message)
      | none =>
        match redis with
        | .error message => .error (.transient message)
        | .ok => .ok none

/-- `deliver`: the broadcast it performs, or the exception it raises. -/
def deliver (eventError : D → Option String) (row : Row D) (redis : RedisReply) :
    Except DeliveryError (Option (Broadcast D)) :=
  match row.kind with
  | .flagChange => deliverConfig row .flagUpdate redis
  | .experimentChange => deliverConfig row .experimentUpdate redis
  | .exposure => deliverExposure eventError row redis

/-- The statement `drain_once` issues after a delivery. -/
def settle (now : ℕ) (rows : List (Row D)) (row : Row D) (result : Except DeliveryError Unit) :
    List (Row D) :=
  match result with
  | .ok () => markProcessed now rows row.id
  | .error (.permanent code message) => markQuarantined now rows row.id .permanent code message
  | .error (.transient message) =>
    if maxDeliveryAttempts ≤ row.attempts then
      markQuarantined now rows row.id .attemptsExhausted "delivery_attempts_exhausted" message
    else markFailed now rows row.id row.attempts message

/-! ## Mutation transactions -/

/-- An open mutation transaction of one project. -/
structure Txn (D : Type) where
  projectId : String
  startedAt : ℕ
  /-- The version `_next_project_version` returned. -/
  version : Option ℕ
  /-- The outbox rows inserted so far. -/
  rows : List (Row D)

/-- A row as `_insert_outbox` writes it, the other columns at their defaults. -/
def insertOutbox (id : ℕ) (startedAt : ℕ) (projectId : String) (kind : Kind) (dedupKey : String)
    (payload : Payload D) : Row D :=
  { id := id, projectId := projectId, kind := kind, dedupKey := dedupKey, payload := payload,
    attempts := 0, availableAt := startedAt, claimedAt := none, processedAt := none,
    quarantinedAt := none, failureClass := none, failureCode := none, lastError := "" }

/-- Which of the two config entities a mutation enqueues a change for. -/
inductive ConfigKind
  | flag
  | experiment
  deriving DecidableEq, Repr

/-- The outbox kind of `_enqueue_flag_change` and `_enqueue_experiment_change`. -/
def ConfigKind.kind : ConfigKind → Kind
  | .flag => .flagChange
  | .experiment => .experimentChange

/-- The event type of `_flag_delivery` and `_experiment_delivery`. -/
def ConfigKind.eventType : ConfigKind → EventType
  | .flag => .flagUpdate
  | .experiment => .experimentUpdate

/-! ## The system -/

/-- Where the worker is inside `drain_once`. -/
inductive Worker (D : Type)
  | idle
  /-- The claim returned this row; `deliver` has not finished. -/
  | claimed (row : Row D)
  /-- `deliver` returned or raised; its statement is not issued yet. -/
  | delivered (row : Row D) (result : Except DeliveryError Unit)

/-- The database, the open transactions and the worker, with the history of the run. -/
structure Sys (D : Type) where
  now : ℕ
  db : Db D
  txns : ℕ → Option (Txn D)
  worker : Worker D
  broadcasts : List (Broadcast D)
  committed : List (Row D)
  everQuarantined : List ℕ

/-- What can happen next. -/
inductive Act (D : Type)
  | tick (seconds : ℕ)
  | begin (tid : ℕ) (projectId : String)
  | allocate (tid : ℕ)
  | insertConfig (tid : ℕ) (kind : ConfigKind) (dedupKey : String) (data : D)
  | insertExposure (tid : ℕ) (messageId : String) (streamKey : String) (event : D)
  | commit (tid : ℕ)
  | rollback (tid : ℕ)
  /-- `claim_next`; when its reply is lost the worker does not learn of the claim. -/
  | claim (replied : Bool)
  | deliver (redis : RedisReply)
  /-- The statement after a delivery; `applied` when the database executed it. -/
  | settle (applied : Bool)
  /-- The process stops: the worker and every open transaction are gone. -/
  | crash
  | sweep
  | cleanup
  | resolve (projectId : String) (rowId : ℕ) (action : Resolution)

def quarantinedIds (rows : List (Row D)) : List ℕ :=
  (rows.filter fun r => r.quarantinedAt.isSome).map Row.id

/-- Replace the table, remembering the ids that are quarantined in it. -/
def Sys.setRows (s : Sys D) (rows : List (Row D)) : Sys D :=
  { s with
    db := { s.db with rows := rows },
    everQuarantined := s.everQuarantined ++ quarantinedIds rows }

/-- Replace or end an open transaction. -/
def Sys.setTxn (s : Sys D) (tid : ℕ) (t : Option (Txn D)) : Sys D :=
  { s with txns := Function.update s.txns tid t }

/-- Give up the counter lock if this transaction holds it. -/
def releaseLock (lock : String → Option ℕ) (tid : ℕ) (projectId : String) : String → Option ℕ :=
  if lock projectId = some tid then Function.update lock projectId none else lock

/-- `_next_project_version` inside a transaction: it waits while another transaction holds the
counter, and holds it from here on. -/
def Sys.allocate (s : Sys D) (tid : ℕ) : Option (Sys D) :=
  match s.txns tid with
  | none => none
  | some t =>
    if t.version.isSome || (s.db.versionLock t.projectId).isSome then none
    else some
      { s.setTxn tid (some { t with version := some (s.db.versions t.projectId + 1) }) with
        db := { s.db with versionLock := Function.update s.db.versionLock t.projectId (some tid) } }

/-- `_insert_outbox` inside a transaction: the id comes from the sequence, which no rollback
takes back. -/
def Sys.insertRow (s : Sys D) (tid : ℕ) (t : Txn D) (kind : Kind) (dedupKey : String)
    (payload : Payload D) : Sys D :=
  { s.setTxn tid (some { t with
      rows := t.rows ++
        [insertOutbox s.db.nextId t.startedAt t.projectId kind dedupKey payload] }) with
    db := { s.db with nextId := s.db.nextId + 1 } }

/-- `_enqueue_flag_change` or `_enqueue_experiment_change` once the version is allocated. -/
def Sys.insertConfig (s : Sys D) (tid : ℕ) (kind : ConfigKind) (dedupKey : String) (data : D) :
    Option (Sys D) :=
  match s.txns tid with
  | none => none
  | some t =>
    match t.version with
    | none => none
    | some v => some (s.insertRow tid t kind.kind dedupKey (.config kind.eventType v data))

/-- `enqueue_exposure`. -/
def Sys.insertExposure (s : Sys D) (tid : ℕ) (messageId streamKey : String) (event : D) :
    Option (Sys D) :=
  (s.txns tid).map fun t => s.insertRow tid t .exposure messageId (.exposure streamKey event)

/-- The counters once the transaction's upsert is visible. -/
def Txn.commitVersions (t : Txn D) (versions : String → ℕ) : String → ℕ :=
  match t.version with
  | none => versions
  | some v => Function.update versions t.projectId v

/-- Commit: the rows and the counter become visible and the lock is released. -/
def Sys.commit (s : Sys D) (tid : ℕ) : Option (Sys D) :=
  (s.txns tid).map fun t =>
    { s.setTxn tid none with
      db := { s.db with
        rows := s.db.rows ++ t.rows
        versions := t.commitVersions s.db.versions
        versionLock := releaseLock s.db.versionLock tid t.projectId }
      committed := s.committed ++ t.rows }

/-- Rollback: nothing becomes visible. -/
def Sys.rollback (s : Sys D) (tid : ℕ) : Option (Sys D) :=
  (s.txns tid).map fun t =>
    { s.setTxn tid none with
      db := { s.db with versionLock := releaseLock s.db.versionLock tid t.projectId } }

/-- The worker claims a row. -/
def Sys.claim (s : Sys D) (replied : Bool) : Option (Sys D) :=
  match s.worker with
  | .idle =>
    (claimNext s.now s.db.rows).map fun (rows, row) =>
      { s.setRows rows with worker := if replied then .claimed row else .idle }
  | _ => none

/-- The worker performs the delivery of the row it holds. -/
def Sys.deliver (eventError : D → Option String) (s : Sys D) (redis : RedisReply) :
    Option (Sys D) :=
  match s.worker with
  | .claimed row =>
    match Outbox.deliver eventError row redis with
    | .ok none => some { s with worker := .delivered row (.ok ()) }
    | .ok (some b) =>
      some { s with worker := .delivered row (.ok ()), broadcasts := s.broadcasts ++ [b] }
    | .error e => some { s with worker := .delivered row (.error e) }
  | _ => none

/-- The worker records the outcome, or fails to. -/
def Sys.settle (s : Sys D) (applied : Bool) : Option (Sys D) :=
  match s.worker with
  | .delivered row result =>
    if applied then
      some { s.setRows (Outbox.settle s.now s.db.rows row result) with worker := .idle }
    else some { s with worker := .idle }
  | _ => none

/-- The process stops. The database aborts its transactions. -/
def Sys.crash (s : Sys D) : Sys D :=
  { s with
    txns := fun _ => none
    worker := .idle
    db := { s.db with versionLock := fun _ => none } }

/-- One step of the system. The sweep and the cleanup are part of the worker's loop; here they
may also run while a delivery is under way. -/
def step (eventError : D → Option String) (s : Sys D) : Act D → Option (Sys D)
  | .tick seconds => some { s with now := s.now + seconds }
  | .begin tid projectId =>
    match s.txns tid with
    | none => some (s.setTxn tid (some ⟨projectId, s.now, none, []⟩))
    | some _ => none
  | .allocate tid => s.allocate tid
  | .insertConfig tid kind dedupKey data => s.insertConfig tid kind dedupKey data
  | .insertExposure tid messageId streamKey event => s.insertExposure tid messageId streamKey event
  | .commit tid => s.commit tid
  | .rollback tid => s.rollback tid
  | .claim replied => s.claim replied
  | .deliver redis => s.deliver eventError redis
  | .settle applied => s.settle applied
  | .crash => some s.crash
  | .sweep => some (s.setRows (quarantineExhausted s.now s.db.rows))
  | .cleanup => some (s.setRows (cleanupOnce s.now s.db.rows))
  | .resolve projectId rowId action =>
    (resolveQuarantined s.now s.db.rows projectId rowId action).map s.setRows

/-- The empty database, no transaction, an idle worker. -/
def initial : Sys D :=
  { now := 0
    db := { rows := [], versions := fun _ => 0, versionLock := fun _ => none, nextId := 1 }
    txns := fun _ => none
    worker := .idle
    broadcasts := []
    committed := []
    everQuarantined := [] }

/-- The outbox as a step machine. -/
def machine (eventError : D → Option String) : StepMachine (Sys D) (Act D) where
  init := initial
  step := step eventError

end Apdl.Config.Outbox
