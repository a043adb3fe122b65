import Apdl.Lib.StepMachine

set_option autoImplicit false

/-!
# The event queue of the Python SDK

`EventQueue` buffers canonical events and sends them in batches from a background thread, from
callers of `flush` and from `stop`. This file models its methods at the granularity of their locks:
everything between two lock operations, transport calls or reads of a shared flag is one step.

## Design

`_deliver_batch` is recursive. While it runs, the batch of the current request and the right halves
that are still to be delivered are its stack: a retryable result of the current batch returns that
batch and all of them, and an empty one continues with the innermost. Between two requests the
function reads `_stopping` at most once.

A thread that waits for a lock has no state of its own, so a call of `flush` begins when it gets the
drain lock, and a call of `stop` when it gets the stop lock. The event `_wake` only shortens a wait
that ends by itself.
-/

namespace Apdl.Sdk.PyQueue

/-- An event in the queue: a canonical payload, as one object. -/
structure Item (E : Type) where
  seq : ℕ
  payload : E
  deriving DecidableEq

inductive TransportOutcome
  | accepted
  | retryable
  | payloadRejected
  | permanentRejection
  deriving DecidableEq, Repr

/-- How `post_json` ends: with an outcome, with another value, with an encoding error, or with any
other exception. -/
inductive PostResult
  | outcome (o : TransportOutcome)
  | invalid
  | encodingError
  | error
  deriving DecidableEq, Repr

def attemptSend : PostResult → TransportOutcome
  | .outcome o => o
  | .invalid => .retryable
  | .encodingError => .permanentRejection
  | .error => .retryable

/-- What the queue uses of the configuration and of the event types. -/
structure Settings (E : Type) where
  maxQueueSize : ℕ
  batchSize : ℕ
  /-- `canonicalize_event_payload`; `none` where it raises. -/
  canonicalize : E → Option E
  /-- `serialized_json_size` of the request with these events. -/
  requestBytes : List E → ℕ

/-- `MAX_REQUEST_SERIALIZED_BYTES`. -/
def maxRequestBytes : ℕ := 512 * 1024

structure DeliveryReport (E : Type) where
  accepted : ℕ
  permanentlyRejected : ℕ
  undeliveredEvents : List (Item E)

/-- What happens, in order. -/
inductive Effect (E : Type)
  /-- `enqueue` appends an event. -/
  | enqueue (x : Item E)
  /-- A request with these events starts. -/
  | attempt (batch : List (Item E))
  | accepted (batch : List (Item E))
  | rejected (batch : List (Item E))
  /-- `stop` fences the intake. -/
  | stop

/-- The loop of `_take_batch`, with the number of iterations left and the batch so far. -/
def takeBatchFrom {E : Type} (cfg : Settings E) :
    ℕ → List (Item E) → List (Item E) → List (Item E) × List (Item E)
  | 0, batch, queue => (batch, queue)
  | _ + 1, batch, [] => (batch, [])
  | n + 1, batch, x :: queue =>
    if batch ≠ [] ∧ maxRequestBytes < cfg.requestBytes ((batch ++ [x]).map Item.payload) then
      (batch, x :: queue)
    else takeBatchFrom cfg n (batch ++ [x]) queue

/-- `_take_batch`: the batch and what is left in the queue. -/
def takeBatch {E : Type} (cfg : Settings E) (queue : List (Item E)) :
    List (Item E) × List (Item E) :=
  takeBatchFrom cfg cfg.batchSize [] queue

/-- Where `_drain_locked` is, with its counters. -/
inductive Drain (E : Type)
  | taking (accepted rejected : ℕ)
  /-- A request is under way, and the right halves that follow are not sent yet. -/
  | sending (batch : List (Item E)) (rights : List (List (Item E))) (accepted rejected : ℕ)
  | requeuing (retryable : List (Item E)) (accepted rejected : ℕ)
  | reporting (accepted rejected : ℕ)

/-- Who calls `flush`. -/
inductive Caller
  | background
  | application
  deriving DecidableEq, Repr

/-- Where a call of `flush` is that has the drain lock. -/
inductive FlushStage (E : Type)
  | entered
  | refused
  | draining (d : Drain E)
  | finishing (report : DeliveryReport E)

/-- Where a call of `stop` is that has the stop lock. -/
inductive StopStage (E : Type)
  /-- `_accepting` is off. -/
  | fenced
  /-- `_stopping` is set and retries are cancelled. -/
  | signalled
  | joining (hadActiveDrain : Bool)
  /-- The drain lock is held from here to `closing`. -/
  | draining (d : Drain E)
  | recalling
  | recalled (attempt : DeliveryReport E)
  | closing (report : DeliveryReport E)

/-- Who has the drain lock. -/
inductive Holder (E : Type)
  | flush (caller : Caller) (stage : FlushStage E)
  | stop

/-- The background thread. -/
inductive Worker
  | none
  | waiting
  | woken
  | flushing
  | exited
  deriving DecidableEq, Repr

/-- `EventQueue` with its callers. -/
structure State (E : Type) where
  queue : List (Item E)
  accepting : Bool
  stopping : Bool
  closed : Bool
  drainActive : Bool
  lastDrainReport : DeliveryReport E
  shutdownReport : Option (DeliveryReport E)
  thread : Worker
  /-- Canonical events of `enqueue` calls between their two sections. -/
  enqueuing : List E
  drainLock : Option (Holder E)
  stopLock : Option (StopStage E)
  next : ℕ
  log : List (Effect E)
  /-- What `flush` and `stop` have returned. -/
  reports : List (DeliveryReport E)

/-- What the threads do next. -/
inductive Act (E : Type)
  /-- The first section of `enqueue`, and the canonicalisation. -/
  | enqueue (event : E)
  /-- The second section of the `i`-th `enqueue` under way. -/
  | append (i : ℕ)
  | start
  /-- The wait of the background thread ends. -/
  | wake
  /-- The background thread checks `_stopping`. -/
  | run
  /-- A call of `flush` gets the drain lock. -/
  | flush (caller : Caller)
  /-- The flush that has the drain lock goes on; `result` ends its request, if it waits for one. -/
  | flushStep (result : PostResult)
  /-- A call of `stop` gets the stop lock. -/
  | stop
  | stopStep (result : PostResult)

namespace State

variable {E : Type}

/-- `EventQueue.__init__`. -/
def initial : State E :=
  { queue := [], accepting := true, stopping := false, closed := false, drainActive := false
    lastDrainReport := ⟨0, 0, []⟩, shutdownReport := none, thread := .none, enqueuing := []
    drainLock := none, stopLock := none, next := 0, log := [], reports := [] }

/-- Something happens. -/
def emit (s : State E) (e : Effect E) : State E := { s with log := s.log ++ [e] }

/-- A request starts. -/
def send (s : State E) (batch : List (Item E)) (rights : List (List (Item E))) (a r : ℕ) :
    State E × Drain E :=
  (s.emit (.attempt batch), .sending batch rights a r)

/-- `_deliver_batch` returns without retryable events: the innermost right half follows, unless the
queue is stopping. -/
def resume (s : State E) (rights : List (List (Item E))) (a r : ℕ) : State E × Drain E :=
  match rights with
  | [] => (s, .taking a r)
  | right :: rights =>
    if s.stopping then (s, .requeuing (right ++ rights.flatten) a r)
    else s.send right rights a r

/-- `_deliver_batch` after its request. -/
def deliver (s : State E) (batch : List (Item E)) (rights : List (List (Item E))) (a r : ℕ) :
    TransportOutcome → State E × Drain E
  | .accepted => (s.emit (.accepted batch)).resume rights (a + batch.length) r
  | .retryable => (s, .requeuing (batch ++ rights.flatten) a r)
  | .permanentRejection => (s.emit (.rejected batch)).resume rights a (r + batch.length)
  | .payloadRejected =>
    if batch.length = 1 then (s.emit (.rejected batch)).resume rights a (r + batch.length)
    else if s.stopping then (s, .requeuing (batch ++ rights.flatten) a r)
    else
      let midpoint := batch.length / 2
      s.send (batch.take midpoint) (batch.drop midpoint :: rights) a r

/-- The next step of `_drain_locked`, up to its report. -/
def drain (cfg : Settings E) (s : State E) (result : PostResult) :
    Drain E → State E × (Drain E ⊕ DeliveryReport E)
  | .taking a r =>
    match takeBatch cfg s.queue with
    | ([], _) => (s, .inl (.reporting a r))
    | (x :: batch, rest) =>
      let sent := { s with queue := rest }.send (x :: batch) [] a r
      (sent.1, .inl sent.2)
  | .sending batch rights a r =>
    let delivered := s.deliver batch rights a r (attemptSend result)
    (delivered.1, .inl delivered.2)
  | .requeuing retryable a r => ({ s with queue := retryable ++ s.queue }, .inl (.reporting a r))
  | .reporting a r => (s, .inr ⟨a, r, s.queue⟩)

/-- A call returns a report. -/
def reply (s : State E) (report : DeliveryReport E) : State E :=
  { s with reports := s.reports ++ [report] }

/-- A call of `flush` gives the drain lock back and returns. -/
def leaveFlush (s : State E) (caller : Caller) (report : DeliveryReport E) : State E :=
  { s with
    drainLock := none
    thread := if caller = Caller.background then .waiting else s.thread }.reply report

/-- The next step of `flush`. -/
def flushStep (cfg : Settings E) (s : State E) (caller : Caller) (result : PostResult) :
    FlushStage E → State E
  | .entered =>
    if s.stopping = false ∧ s.closed = false then
      { s with drainActive := true, drainLock := some (.flush caller (.draining (.taking 0 0))) }
    else { s with drainLock := some (.flush caller .refused) }
  | .refused => s.leaveFlush caller ⟨0, 0, s.queue⟩
  | .draining d =>
    match s.drain cfg result d with
    | (s, .inl d) => { s with drainLock := some (.flush caller (.draining d)) }
    | (s, .inr report) => { s with drainLock := some (.flush caller (.finishing report)) }
  | .finishing report =>
    { s with lastDrainReport := report, drainActive := false }.leaveFlush caller report

/-- The next step of `stop`; `none` while it waits. -/
def stopStep (cfg : Settings E) (s : State E) (result : PostResult) :
    StopStage E → Option (State E)
  | .fenced => some { s with stopping := true, stopLock := some .signalled }
  | .signalled => some { s with stopLock := some (.joining s.drainActive) }
  | .joining hadActiveDrain =>
    -- the thread is joined, then the drain lock is taken
    if (s.thread = .none ∨ s.thread = .exited) ∧ s.drainLock.isNone then
      some { s with
        drainLock := some .stop
        stopLock := some (if hadActiveDrain then .recalling else .draining (.taking 0 0)) }
    else none
  | .recalling => some { s with stopLock := some (.recalled s.lastDrainReport) }
  | .recalled attempt =>
    some { s with
      drainLock := none
      stopLock := some (.closing ⟨attempt.accepted, attempt.permanentlyRejected, s.queue⟩) }
  | .draining d =>
    match s.drain cfg result d with
    | (s, .inl d) => some { s with stopLock := some (.draining d) }
    | (s, .inr report) => some { s with drainLock := none, stopLock := some (.closing report) }
  | .closing report =>
    some ({ s with
      closed := true, thread := .none, shutdownReport := some report, stopLock := none }.reply
        report)

/-- One step; `none` where a call raises or waits. -/
def step (cfg : Settings E) (s : State E) : Act E → Option (State E)
  | .enqueue event =>
    if s.accepting ∧ s.queue.length < cfg.maxQueueSize then
      (cfg.canonicalize event).map fun canonical =>
        { s with enqueuing := s.enqueuing ++ [canonical] }
    else none
  | .append i =>
    (s.enqueuing[i]?).map fun canonical =>
      let s := { s with enqueuing := s.enqueuing.eraseIdx i }
      if s.accepting ∧ s.queue.length < cfg.maxQueueSize then
        let item := ⟨s.next, canonical⟩
        { s with queue := s.queue ++ [item], next := s.next + 1 }.emit (.enqueue item)
      else s
  | .start =>
    if s.accepting then
      some (if s.thread = .none then { s with thread := .waiting } else s)
    else none
  | .wake => if s.thread = .waiting then some { s with thread := .woken } else none
  | .run =>
    if s.thread = .woken then
      some { s with thread := if s.stopping then .exited else .flushing }
    else none
  | .flush caller =>
    if s.drainLock.isNone ∧ (caller = .background → s.thread = .flushing) then
      some { s with drainLock := some (.flush caller .entered) }
    else none
  | .flushStep result =>
    match s.drainLock with
    | some (.flush caller stage) => some (s.flushStep cfg caller result stage)
    | _ => none
  | .stop =>
    if s.stopLock.isSome then none
    else if s.closed then s.shutdownReport.map s.reply
    else some ({ s with accepting := false, stopLock := some .fenced }.emit .stop)
  | .stopStep result =>
    match s.stopLock with
    | some stage => s.stopStep cfg result stage
    | none => none

end State

/-- The runs of one queue. -/
def machine {E : Type} (cfg : Settings E) : StepMachine (State E) (Act E) :=
  ⟨State.initial, State.step cfg⟩

end Apdl.Sdk.PyQueue
