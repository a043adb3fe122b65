import Apdl.Lib.StepMachine
import Mathlib.Algebra.Group.Nat.Defs
import Mathlib.Data.Prod.Lex

set_option autoImplicit false

/-!
# The completeness frontier of a project stream

One writer process of `clickhouse_writer.py` on one project stream, with the Redis stream and its
consumer group, the ClickHouse events table and the PostgreSQL authority row
`event_pipeline_watermarks`.

## Main definitions

* `Act`, `step`, `machine` — every interleaving of ingestion, the writer's tasks, failures, crashes
  and restarts.

## Design

A remote call and what its caller does until the next `await` are one step; the outcome of the call
is part of the action (`Reply`), so that its effect may happen with the reply lost. Time limits and
cancelled waits are lost or failed replies. Checks that only delay a task (backpressure, retry
deadlines, buffer capacity, claim idle time) are left out: every schedule they permit is a run here.

A stream entry is represented by what the parser makes of its fields. `log` keeps every entry ever
appended; `deleted` marks those that `XDEL` or `XTRIM` removed.
-/

namespace Apdl.Pipeline

/-! ## Redis -/

/-- A Redis stream ID `milliseconds-sequence`, in its order. -/
abbrev StreamId := ℕ ×ₗ ℕ

instance StreamId.lawfulBEq : LawfulBEq StreamId := inferInstance

/-- The ID `0-0`. -/
def StreamId.zero : StreamId := toLex (0, 0)

/-- The number of sequence numbers within a millisecond. -/
def sequenceLimit : ℕ := 2 ^ 64

/-- `_next_stream_id`: the first ID after the given one. -/
def nextStreamId (id : StreamId) : StreamId :=
  if sequenceLimit - 1 ≤ (ofLex id).2 then toLex ((ofLex id).1 + 1, 0)
  else toLex ((ofLex id).1, (ofLex id).2 + 1)

/-- The token of an analysis boundary marker. -/
abbrev Token := String

/-- What the parser makes of the fields of an entry. -/
inductive Content
  /-- `_parse_event` returns a row. -/
  | row
  /-- `_parse_boundary_marker` returns a token. -/
  | marker (token : Token)
  /-- Parsing raises. -/
  | malformed
  deriving DecidableEq, Repr

structure Entry where
  id : StreamId
  content : Content
  deriving DecidableEq

/-- The consumer group of the writer. -/
structure Group where
  lastDelivered : StreamId
  entriesRead : ℕ
  pending : List StreamId
  deriving DecidableEq

/-- The project stream and its group. -/
structure Redis where
  /-- Every entry ever appended, oldest first. -/
  log : List Entry
  deleted : List StreamId
  group : Option Group
  dedup : List (Token × StreamId)

namespace Redis

def lastId (r : Redis) : StreamId := (r.log.map Entry.id).foldl max .zero

/-- The entry is in the stream. -/
def present (r : Redis) (id : StreamId) : Bool :=
  decide (id ∈ r.log.map Entry.id) && decide (id ∉ r.deleted)

/-- `max-deleted-entry-id`. -/
def maxDeleted (r : Redis) : StreamId := r.deleted.foldl max .zero

/-- `XADD`. -/
def append (r : Redis) (e : Entry) : Redis := { r with log := r.log ++ [e] }

/-- The entries after the group's head that are in the stream, in order. -/
def undelivered (r : Redis) (g : Group) : List Entry :=
  r.log.filter fun e => decide (g.lastDelivered < e.id) && decide (e.id ∉ r.deleted)

/-- `XREADGROUP … >` with a count: the delivered entries and the stream after it. -/
def readGroup (r : Redis) (g : Group) (count : ℕ) : List Entry × Redis :=
  let entries := (r.undelivered g).take count
  (entries,
    { r with
      group := some
        { lastDelivered := (entries.map Entry.id).foldl max g.lastDelivered
          entriesRead := g.entriesRead + entries.length
          pending := g.pending ++ entries.map Entry.id } })

/-- `XAUTOCLAIM` of the given pending IDs: the claimed entries, whether some were deleted, and the
stream after it, where deleted ones are no longer pending. -/
def autoClaim (r : Redis) (g : Group) (ids : List StreamId) : List Entry × Bool × Redis :=
  let claimed := ids.filter fun id => decide (id ∈ g.pending)
  (r.log.filter fun e => decide (e.id ∈ claimed) && decide (e.id ∉ r.deleted),
    claimed.any fun id => decide (id ∈ r.deleted),
    { r with group := some { g with
        pending := g.pending.filter fun id => !(decide (id ∈ claimed) && decide (id ∈ r.deleted)) } })

/-- The counts `XACK` and `XDEL` of the given IDs return. -/
def finalizeCounts (r : Redis) (ids : List StreamId) : ℕ × ℕ :=
  (match r.group with
    | none => 0
    | some g => (ids.filter fun id => decide (id ∈ g.pending)).length,
    (ids.filter r.present).length)

/-- `MULTI; XACK; XDEL; EXEC`. -/
def finalize (r : Redis) (ids : List StreamId) : Redis :=
  { r with
    group := r.group.map fun g =>
      { g with pending := g.pending.filter fun id => decide (id ∉ ids) }
    deleted := r.deleted ++ ids.filter r.present }

/-- `XTRIM MINID`: remove the entries before an ID. -/
def trim (r : Redis) (minId : StreamId) : Redis :=
  { r with deleted := r.deleted ++
      (r.log.map Entry.id).filter fun id => decide (id < minId) && decide (id ∉ r.deleted) }

end Redis

/-! ## PostgreSQL -/

inductive Status
  | healthy
  | degraded
  deriving DecidableEq, Repr

/-- The authority row of the project; its `provenance_start_stream_id` is always `0-0`. -/
structure Watermark where
  contiguous : StreamId
  entriesRead : ℕ
  status : Status
  deriving DecidableEq

/-- `marker_publish_state`, with the stream ID recorded for it. -/
inductive MarkerState
  | pending
  | published (id : StreamId)
  | quarantined (observed : Option StreamId)
  deriving DecidableEq

/-- A row of `experiment_analysis_boundaries` of the project. -/
structure Boundary where
  token : Token
  state : MarkerState
  deriving DecidableEq

/-- The tables the writer uses. -/
structure Postgres where
  watermark : Option Watermark
  boundaries : List Boundary

/-- `_degrade_pipeline_authority`. -/
def Postgres.degrade (p : Postgres) : Postgres :=
  { p with watermark :=
      match p.watermark with
      | none => some ⟨.zero, 0, .degraded⟩
      | some w => some { w with status := .degraded } }

/-- The transaction of `_advance_pipeline_frontier`: the head and delivery count of the group must
be those of the finalized deliveries, else the row is degraded. -/
def Watermark.advance (w : Watermark) (finalized : List StreamId) (candidate : StreamId)
    (entriesRead : ℕ) : Watermark :=
  if w.status = .degraded then w
  else
    let newFinalized := finalized.filter fun id => decide (w.contiguous < id)
    let idempotentCommit :=
      decide (candidate = w.contiguous) && decide (entriesRead = w.entriesRead) &&
        decide (newFinalized = [])
    let exactAdvance :=
      decide (newFinalized ≠ []) && decide (w.contiguous < candidate) &&
        decide (candidate = newFinalized.foldl max .zero) &&
        decide (entriesRead = w.entriesRead + newFinalized.length)
    if candidate < w.contiguous ∨ entriesRead < w.entriesRead ∨
        (idempotentCommit || exactAdvance) = false then
      { w with status := .degraded }
    else if exactAdvance then
      { w with contiguous := candidate, entriesRead := entriesRead }
    else w

/-- The row of a published marker. -/
def Postgres.published (p : Postgres) (token : Token) (id : StreamId) : Prop :=
  ⟨token, .published id⟩ ∈ p.boundaries

instance (p : Postgres) (token : Token) (id : StreamId) : Decidable (p.published token id) :=
  inferInstanceAs (Decidable (_ ∈ p.boundaries))

/-- Some quarantined row observed the ID. -/
def Postgres.quarantinedAt (p : Postgres) (id : StreamId) : Bool :=
  p.boundaries.any fun b => decide (b.state = .quarantined (some id))

/-- `_verify_boundary_deliveries` on the expected tokens: `none` when it raises, else whether a
quarantined marker is among the deliveries. -/
def verifyBoundaries (p : Postgres) (expected : List (StreamId × Token)) : Option Bool :=
  if expected.all fun d => decide (p.published d.2 d.1) || p.quarantinedAt d.1 then
    some (expected.any fun d => p.quarantinedAt d.1)
  else none

/-- What the start observes of the group. -/
structure Observed where
  created : Bool
  lastDelivered : StreamId
  entriesRead : ℕ
  deriving DecidableEq

/-- `_initialize_pipeline_authority`. -/
def initializeAuthority (p : Postgres) (o : Observed) (maxDeleted : StreamId) : Postgres :=
  match p.watermark with
  | some w =>
    if o.created then p.degrade
    else if w.status = .healthy ∧
        (o.lastDelivered ≠ w.contiguous ∨ o.entriesRead ≠ w.entriesRead) then p.degrade
    else p
  | none =>
    { p with watermark := some ⟨.zero, o.entriesRead,
        if o.lastDelivered = .zero ∧ maxDeleted = .zero ∧ o.entriesRead = 0 then .healthy
        else .degraded⟩ }

/-- The stores; ClickHouse is the set of stream IDs whose rows were inserted. -/
structure World where
  redis : Redis
  inserted : List StreamId
  pg : Postgres

/-! ## The writer -/

/-- `BufferedEvent`. -/
structure Buffered where
  id : StreamId
  /-- `row is not None`. -/
  row : Bool
  token : Option Token
  deriving DecidableEq

/-- Where `_finalize_durable_stream` is. -/
inductive Stage
  /-- Before `_verify_boundary_deliveries` reads the boundary rows. -/
  | verify
  | degradeQuarantine
  /-- Before `EXEC`. -/
  | exec
  /-- Before the authority is degraded for unexpected counts. -/
  | degradeMismatch
  /-- Before `XINFO GROUPS`. -/
  | inspect
  /-- Before the authority is degraded for an unusable group state. -/
  | degradeInspect
  /-- Before the frontier transaction. -/
  | commit (candidate : StreamId) (entriesRead : ℕ)
  deriving DecidableEq

/-- The holder of the flush lock. -/
inductive FlushTask
  | idle
  /-- `_finalize_durable_stream` of `ids`; then `_flush` inserts, or is done. -/
  | finalizing (ids : List StreamId) (stage : Stage) (thenInsert : Bool)
  /-- `_insert_or_isolate`: the batches still to insert, in order, and the outcome so far. -/
  | inserting (ackSucceeded : Bool) (size : ℕ) (work : List (List Buffered))
      (durable retry : List Buffered)
  deriving DecidableEq

/-- The consume loop. -/
inductive ConsumerTask
  | idle
  | degradeLost (messages : List Entry)
  /-- `_process_messages`. -/
  | processing (messages : List Entry)
  /-- `_dead_letter_delivery` of a malformed message. -/
  | deadLetter (id : StreamId) (rest : List Entry)
  deriving DecidableEq

/-- `_reconcile_acknowledged_history` in the monitor loop. -/
inductive MonitorTask
  | idle
  /-- Before `XPENDING`. -/
  | summarize
  /-- Before `XTRIM MINID`. -/
  | trim (minId : StreamId)
  deriving DecidableEq

/-- The memory of a running writer, for this stream. -/
structure Memory where
  buffer : List Buffered
  durablePendingAck : List StreamId
  boundaryTokens : List (StreamId × Token)
  uncertain : Bool
  finalizedSinceFrontier : List StreamId
  flush : FlushTask
  consumer : ConsumerTask
  monitor : MonitorTask
  marker : Option (Token × StreamId)

/-- A writer that has just started. -/
def Memory.fresh : Memory :=
  { buffer := [], durablePendingAck := [], boundaryTokens := [], uncertain := false,
    finalizedSinceFrontier := [], flush := .idle, consumer := .idle, monitor := .idle,
    marker := none }

namespace Memory

/-- `_queue_durable_ack` of one event. -/
def queueOne (m : Memory) (b : Buffered) : Memory :=
  { m with
    durablePendingAck :=
      if b.id ∈ m.durablePendingAck then m.durablePendingAck else m.durablePendingAck ++ [b.id]
    boundaryTokens :=
      match b.token with
      | none => m.boundaryTokens
      | some t => (b.id, t) :: m.boundaryTokens }

def queueDurableAck (m : Memory) (bs : List Buffered) : Memory := bs.foldl queueOne m

/-- The start of the insertion in `_flush`. -/
def startInsert (m : Memory) (ackSucceeded : Bool) : Memory :=
  { m with flush :=
      if m.buffer = [] then .idle
      else .inserting ackSucceeded m.buffer.length [m.buffer] [] [] }

/-- `_finalize_durable_stream` raised; the IDs are kept. -/
def finalizeFailed (m : Memory) (thenInsert : Bool) : Memory :=
  if thenInsert then m.startInsert false else { m with flush := .idle }

/-- `_finalize_durable_stream` returned; the IDs are done. -/
def finalizeSucceeded (m : Memory) (ids : List StreamId) (thenInsert : Bool) : Memory :=
  let m := { m with
    uncertain := false
    durablePendingAck := m.durablePendingAck.filter fun id => decide (id ∉ ids)
    boundaryTokens := m.boundaryTokens.filter fun d => decide (d.1 ∉ ids) }
  if thenInsert then m.startInsert (decide (m.durablePendingAck = [])) else { m with flush := .idle }

/-- The end of `_flush` after its insertion. -/
def finishInsert (m : Memory) (ackSucceeded : Bool) (size : ℕ) (durable retry : List Buffered) :
    Memory :=
  let m := queueDurableAck { m with buffer := retry ++ m.buffer.drop size, flush := .idle } durable
  { m with flush :=
      if ackSucceeded ∧ m.durablePendingAck ≠ [] then .finalizing m.durablePendingAck .verify false
      else .idle }

/-- The token that a delivery must match. -/
def expectedTokens (m : Memory) (ids : List StreamId) : List (StreamId × Token) :=
  ids.filterMap fun id => (m.boundaryTokens.lookup id).map fun t => (id, t)

end Memory

inductive Process
  | down
  /-- The consumer group was ensured; the authority is not initialized yet. -/
  | starting (observed : Observed)
  | up (memory : Memory)

/-- The stores and the writer. -/
structure State where
  world : World
  process : Process

/-! ## Actions -/

/-- What the caller sees of a remote call. -/
inductive Reply
  /-- The effect happened and the caller knows. -/
  | done
  /-- The effect happened and the caller sees a failure. -/
  | lost
  /-- Nothing happened and the caller sees a failure. -/
  | failed
  deriving DecidableEq, Repr

inductive InsertOutcome
  | inserted
  | transient (inserted : Bool)
  | terminal (deadLetter : Reply)
  deriving DecidableEq, Repr

/-- What can happen next. -/
inductive Act
  | append (e : Entry)
  | requestBoundary (token : Token)
  | reconcileAtStart (reply : Reply)
  | ensureGroup (reply : Reply)
  | initAuthority (reply : Reply)
  | crash
  | readGroup (count : ℕ) (reply : Reply)
  | autoClaim (ids : List StreamId) (reply : Reply)
  | degradeLost (reply : Reply)
  | processMessage
  /-- The buffer is full; the remaining messages stay pending. -/
  | leavePending
  | deadLetter (reply : Reply)
  /-- `_flush` takes the lock. -/
  | flush
  /-- The flush loop only retries the finalization. -/
  | ackDurable
  | verify (reply : Reply)
  | degradeFinalizing (reply : Reply)
  | exec (reply : Reply)
  /-- `XINFO GROUPS`, with or without a provable lag. -/
  | inspect (usable : Bool)
  | commit (reply : Reply)
  | insertBatch (outcome : InsertOutcome)
  | monitorInfo
  | monitorPending
  | monitorTrim (reply : Reply)
  | publishMarker (token : Token) (id : StreamId) (reply : Reply)
  | recordMarker (reply : Reply)
  | quarantineMarker (token : Token) (observed : Option StreamId)

/-- A new entry must have an ID beyond all earlier ones. -/
def Redis.canAppend (r : Redis) (id : StreamId) : Bool :=
  decide (r.lastId < id) && decide ((ofLex id).2 < sequenceLimit)

/-- The bound `_reconcile_acknowledged_history` trims to, when no entry is pending. -/
def Group.trimBound (g : Group) : Option StreamId :=
  if g.lastDelivered = .zero then none
  else
    match g.pending with
    | [] => some (nextStreamId g.lastDelivered)
    | id :: ids => some (ids.foldl min id)

def State.setMemory (s : State) (m : Memory) : State := { s with process := .up m }

/-- Change PostgreSQL. -/
def World.setPg (w : World) (p : Postgres) : World := { w with pg := p }

def World.setRedis (w : World) (r : Redis) : World := { w with redis := r }

/-- Degrade the authority and go on with `m` when the caller knows, else with `m'`. -/
def State.degradeThen (s : State) (reply : Reply) (m m' : Memory) : State :=
  match reply with
  | .done => ⟨s.world.setPg s.world.pg.degrade, .up m⟩
  | .lost => ⟨s.world.setPg s.world.pg.degrade, .up m'⟩
  | .failed => ⟨s.world, .up m'⟩

/-! ## Steps of the writer's tasks -/

/-- The steps of the consume loop. -/
def consumerStep (s : State) (m : Memory) : Act → Option State
  | .readGroup count reply =>
    match m.consumer, s.world.redis.group with
    | .idle, some g =>
      let (entries, redis) := s.world.redis.readGroup g count
      match reply with
      | .done => some ⟨s.world.setRedis redis, .up { m with consumer := .processing entries }⟩
      | .lost => some ⟨s.world.setRedis redis, .up m⟩
      | .failed => some s
    | _, _ => none
  | .autoClaim ids reply =>
    match m.consumer, s.world.redis.group with
    | .idle, some g =>
      let (entries, lost, redis) := s.world.redis.autoClaim g ids
      match reply with
      | .done =>
        some ⟨s.world.setRedis redis,
          .up { m with consumer := if lost then .degradeLost entries else .processing entries }⟩
      | .lost => some ⟨s.world.setRedis redis, .up m⟩
      | .failed => some s
    | _, _ => none
  | .degradeLost reply =>
    match m.consumer with
    | .degradeLost messages =>
      some (s.degradeThen reply { m with consumer := .processing messages }
        { m with consumer := .idle })
    | _ => none
  | .processMessage =>
    match m.consumer with
    | .processing [] => some (s.setMemory { m with consumer := .idle })
    | .processing (e :: rest) =>
      match e.content with
      | .row =>
        some (s.setMemory { m with
          buffer := m.buffer ++ [⟨e.id, true, none⟩], consumer := .processing rest })
      | .marker t =>
        some (s.setMemory { m with
          buffer := m.buffer ++ [⟨e.id, false, some t⟩], consumer := .processing rest })
      | .malformed => some (s.setMemory { m with consumer := .deadLetter e.id rest })
    | _ => none
  | .leavePending =>
    match m.consumer with
    | .processing _ => some (s.setMemory { m with consumer := .idle })
    | _ => none
  | .deadLetter reply =>
    match m.consumer with
    | .deadLetter id rest =>
      some (s.degradeThen reply
        { (m.queueOne ⟨id, true, none⟩) with consumer := .processing rest }
        { m with consumer := .processing rest })
    | _ => none
  | _ => none

/-- The steps of `_finalize_durable_stream`. -/
def finalizeStep (s : State) (m : Memory) (ids : List StreamId) (stage : Stage)
    (thenInsert : Bool) : Act → Option State
  | .verify reply =>
    match stage with
    | .verify =>
      match reply with
      | .done =>
        match verifyBoundaries s.world.pg (m.expectedTokens ids) with
        | none => some (s.setMemory (m.finalizeFailed thenInsert))
        | some quarantine =>
          some (s.setMemory { m with
            flush := .finalizing ids (if quarantine then .degradeQuarantine else .exec) thenInsert })
      | _ => some (s.setMemory (m.finalizeFailed thenInsert))
    | _ => none
  | .degradeFinalizing reply =>
    match stage with
    | .degradeQuarantine =>
      some (s.degradeThen reply { m with flush := .finalizing ids .exec thenInsert }
        (m.finalizeFailed thenInsert))
    | .degradeMismatch =>
      some (s.degradeThen reply (m.finalizeFailed thenInsert) (m.finalizeFailed thenInsert))
    | .degradeInspect =>
      some (s.degradeThen reply (m.finalizeFailed thenInsert) (m.finalizeFailed thenInsert))
    | _ => none
  | .exec reply =>
    match stage with
    | .exec =>
      let redis := s.world.redis.finalize ids
      let counts := s.world.redis.finalizeCounts ids
      match reply with
      | .done =>
        if counts = (ids.length, ids.length) ∨ m.uncertain = true ∧ counts = (0, 0) then
          some ⟨s.world.setRedis redis, .up { m with
            uncertain := true
            finalizedSinceFrontier :=
              m.finalizedSinceFrontier ++
                ids.filter fun id => decide (id ∉ m.finalizedSinceFrontier)
            flush := .finalizing ids .inspect thenInsert }⟩
        else
          some ⟨s.world.setRedis redis,
            .up { m with flush := .finalizing ids .degradeMismatch thenInsert }⟩
      | .lost => some ⟨s.world.setRedis redis,
          .up ({ m with uncertain := true }.finalizeFailed thenInsert)⟩
      | .failed => some (s.setMemory ({ m with uncertain := true }.finalizeFailed thenInsert))
    | _ => none
  | .inspect usable =>
    match stage with
    | .inspect =>
      match usable, s.world.redis.group with
      | true, some g =>
        if g.pending = [] then
          some (s.setMemory { m with
            flush := .finalizing ids (.commit g.lastDelivered g.entriesRead) thenInsert })
        else some (s.setMemory (m.finalizeSucceeded ids thenInsert))
      | _, _ =>
        some (s.setMemory { m with flush := .finalizing ids .degradeInspect thenInsert })
    | _ => none
  | .commit reply =>
    match stage with
    | .commit candidate entriesRead =>
      match s.world.pg.watermark with
      | none => some (s.setMemory (m.finalizeFailed thenInsert))
      | some w =>
        let pg := { s.world.pg with
          watermark := some (w.advance m.finalizedSinceFrontier candidate entriesRead) }
        match reply with
        | .done => some ⟨s.world.setPg pg,
            .up ({ m with finalizedSinceFrontier := [] }.finalizeSucceeded ids thenInsert)⟩
        | .lost => some ⟨s.world.setPg pg, .up (m.finalizeFailed thenInsert)⟩
        | .failed => some (s.setMemory (m.finalizeFailed thenInsert))
    | _ => none
  | _ => none

/-- The rows of a batch reach ClickHouse. -/
def World.insertRows (w : World) (batch : List Buffered) : World :=
  { w with inserted := w.inserted ++ (batch.filter Buffered.row).map Buffered.id }

/-- The steps of `_insert_or_isolate`. -/
def insertStep (s : State) (m : Memory) (ackSucceeded : Bool) (size : ℕ)
    (work : List (List Buffered)) (durable retry : List Buffered) : Act → Option State
  | .insertBatch outcome =>
    match work with
    | [] => some (s.setMemory (m.finishInsert ackSucceeded size durable retry))
    | batch :: rest =>
      if batch.all fun b => !b.row then
        some (s.setMemory { m with
          flush := .inserting ackSucceeded size rest (durable ++ batch) retry })
      else
        match outcome with
        | .inserted =>
          some ⟨s.world.insertRows batch, .up { m with
            flush := .inserting ackSucceeded size rest (durable ++ batch) retry }⟩
        | .transient true =>
          some ⟨s.world.insertRows batch, .up { m with
            flush := .inserting ackSucceeded size rest durable (retry ++ batch) }⟩
        | .transient false =>
          some (s.setMemory { m with
            flush := .inserting ackSucceeded size rest durable (retry ++ batch) })
        | .terminal reply =>
          match batch with
          | [b] =>
            let m := { m with flush := .inserting ackSucceeded size rest durable retry }
            some (s.degradeThen reply (m.queueOne ⟨b.id, true, none⟩) m)
          | batch => some (s.setMemory { m with
              flush := .inserting ackSucceeded size
                (batch.take (batch.length / 2) :: batch.drop (batch.length / 2) :: rest)
                durable retry })
  | _ => none

def flushStep (s : State) (m : Memory) (a : Act) : Option State :=
  match m.flush with
  | .idle =>
    match a with
    | .flush =>
      if m.durablePendingAck = [] then some (s.setMemory (m.startInsert true))
      else some (s.setMemory { m with flush := .finalizing m.durablePendingAck .verify true })
    | .ackDurable =>
      if m.durablePendingAck = [] then none
      else some (s.setMemory { m with flush := .finalizing m.durablePendingAck .verify false })
    | _ => none
  | .finalizing ids stage thenInsert => finalizeStep s m ids stage thenInsert a
  | .inserting ackSucceeded size work durable retry =>
    insertStep s m ackSucceeded size work durable retry a

/-- The steps of `_reconcile_acknowledged_history` in the monitor loop. -/
def monitorStep (s : State) (m : Memory) : Act → Option State
  | .monitorInfo =>
    match m.monitor, s.world.redis.group with
    | .idle, some g =>
      if g.lastDelivered = .zero then some s
      else if g.pending = [] then
        some (s.setMemory { m with monitor := .trim (nextStreamId g.lastDelivered) })
      else some (s.setMemory { m with monitor := .summarize })
    | _, _ => none
  | .monitorPending =>
    match m.monitor, s.world.redis.group with
    | .summarize, some g =>
      match g.pending with
      | [] => some (s.setMemory { m with monitor := .idle })
      | id :: ids => some (s.setMemory { m with monitor := .trim (ids.foldl min id) })
    | _, _ => none
  | .monitorTrim reply =>
    match m.monitor with
    | .trim minId =>
      match reply with
      | .failed => some (s.setMemory { m with monitor := .idle })
      | _ => some ⟨s.world.setRedis (s.world.redis.trim minId), .up { m with monitor := .idle }⟩
    | _ => none
  | _ => none

/-- The marker row changes from `pending`. -/
def Postgres.setMarker (p : Postgres) (token : Token) (state : MarkerState) : Postgres :=
  { p with boundaries := p.boundaries.map fun b =>
      if b.token = token ∧ b.state = .pending then { b with state := state } else b }

def markerStep (s : State) (m : Memory) : Act → Option State
  | .publishMarker token id reply =>
    if m.marker = none ∧ ⟨token, .pending⟩ ∈ s.world.pg.boundaries then
      match s.world.redis.dedup.lookup token with
      | some known =>
        match reply with
        | .done =>
          -- an entry that is gone is a terminal failure, after which the marker is quarantined
          if s.world.redis.present known then
            some (s.setMemory { m with marker := some (token, known) })
          else some s
        | _ => some s
      | none =>
        if s.world.redis.canAppend id then
          let redis := { s.world.redis.append ⟨id, .marker token⟩ with
            dedup := (token, id) :: s.world.redis.dedup }
          match reply with
          | .done => some ⟨s.world.setRedis redis, .up { m with marker := some (token, id) }⟩
          | .lost => some ⟨s.world.setRedis redis, .up m⟩
          | .failed => some s
        else none
    else none
  | .recordMarker reply =>
    match m.marker with
    | some (token, id) =>
      match reply with
      | .failed => some (s.setMemory { m with marker := none })
      | _ => some ⟨s.world.setPg (s.world.pg.setMarker token (.published id)),
          .up { m with marker := none }⟩
    | none => none
  | .quarantineMarker token observed =>
    some ⟨s.world.setPg (s.world.pg.setMarker token (.quarantined observed)), .up m⟩
  | _ => none

/-! ## The system -/

def startStep (s : State) : Act → Option State
  | .reconcileAtStart reply =>
    match s.process, s.world.redis.group with
    | .down, some g =>
      match g.trimBound, reply with
      | some bound, .done => some ⟨s.world.setRedis (s.world.redis.trim bound), .down⟩
      | some bound, .lost => some ⟨s.world.setRedis (s.world.redis.trim bound), .down⟩
      | _, _ => some s
    | _, _ => none
  | .ensureGroup reply =>
    match s.process with
    | .down =>
      match s.world.redis.group with
      | some g => some { s with process := .starting ⟨false, g.lastDelivered, g.entriesRead⟩ }
      | none =>
        let redis := { s.world.redis with group := some ⟨.zero, 0, []⟩ }
        match reply with
        | .done => some ⟨s.world.setRedis redis, .starting ⟨true, .zero, 0⟩⟩
        | .lost => some ⟨s.world.setRedis redis, .down⟩
        | .failed => some s
    | _ => none
  | .initAuthority reply =>
    match s.process with
    | .starting o =>
      let pg := initializeAuthority s.world.pg o s.world.redis.maxDeleted
      match reply with
      | .done => some ⟨s.world.setPg pg, .up .fresh⟩
      | .lost => some ⟨s.world.setPg pg, .down⟩
      | .failed => some { s with process := .down }
    | _ => none
  | _ => none

def step (s : State) (a : Act) : Option State :=
  match a with
  | .append e =>
    if s.world.redis.canAppend e.id then
      some { s with world := s.world.setRedis (s.world.redis.append e) }
    else none
  | .requestBoundary token =>
    if ∃ b ∈ s.world.pg.boundaries, b.token = token then none
    else some { s with world := s.world.setPg { s.world.pg with
      boundaries := s.world.pg.boundaries ++ [⟨token, .pending⟩] } }
  | .crash => some { s with process := .down }
  | .reconcileAtStart _ | .ensureGroup _ | .initAuthority _ => startStep s a
  | .readGroup .. | .autoClaim .. | .degradeLost _ | .processMessage | .leavePending
  | .deadLetter _ =>
    match s.process with
    | .up m => consumerStep s m a
    | _ => none
  | .flush | .ackDurable | .verify _ | .degradeFinalizing _ | .exec _ | .inspect _ | .commit _
  | .insertBatch _ =>
    match s.process with
    | .up m => flushStep s m a
    | _ => none
  | .monitorInfo | .monitorPending | .monitorTrim _ =>
    match s.process with
    | .up m => monitorStep s m a
    | _ => none
  | .publishMarker .. | .recordMarker _ | .quarantineMarker .. =>
    match s.process with
    | .up m => markerStep s m a
    | _ => none

/-- Empty stores and no writer. -/
def initial : State :=
  { world :=
      { redis := { log := [], deleted := [], group := none, dedup := [] }
        inserted := []
        pg := { watermark := none, boundaries := [] } }
    process := .down }

/-- The pipeline of one project stream as a step machine. -/
def machine : StepMachine State Act where
  init := initial
  step := step

end Apdl.Pipeline
