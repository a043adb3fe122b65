import Apdl.Config.Outbox.Model

set_option autoImplicit false

/-!
# The SSE stream of one client

`GET /v1/stream` registers a bounded queue with the broadcaster, reads a flag snapshot in one
repeatable-read transaction, and then sends the snapshot followed by the queued updates that are
newer than it. This file adds one such connection to the outbox system.

## Main definitions

* `World`, `Act`, `machine` — the outbox system together with the connection.

## Design

A snapshot is the project version and the changes it reflects, which are the rows committed when
the transaction took its database snapshot. The generator starts the task for the next update
before it sends the current one, so an update taken from the queue may wait in `Phase.streaming`
while the previous send is blocked. The outcome of every credential check is part of the action.
-/

namespace Apdl.Config.Sse

open Outbox

variable {D : Type}

inductive CloseReason
  | clientDisconnect
  | credentialAuthorityUnavailable
  | credentialRevoked
  | slowConsumer
  | maxLifetime
  | serverShutdown
  deriving DecidableEq, Repr

/-- The result of `get_flag_snapshot`: the project version and the changes that are visible. -/
structure Snapshot (D : Type) where
  version : ℕ
  changes : List (Row D)
  deriving DecidableEq, Repr

/-- One event sent to the client. -/
inductive StreamEvent (D : Type)
  | config (snap : Snapshot D)
  | update (b : Broadcast D)
  | streamError (reason : CloseReason)
  deriving DecidableEq, Repr

/-- Where the request is: the subscription is registered, the snapshot is read, the snapshot is
sent and the result of `_next_update` may be waiting, or the request has ended and the
subscription is removed. -/
inductive Phase (D : Type)
  | registered
  | ready (snap : Snapshot D)
  | streaming (snap : Snapshot D) (update : Option (Broadcast D))
  | ended
  deriving DecidableEq, Repr

/-- One connection: its subscription, its generator and the events sent so far. -/
structure Conn (D : Type) where
  projectId : String
  queue : List (Broadcast D)
  closeReason : Option CloseReason
  phase : Phase D
  sent : List (StreamEvent D)
  deriving DecidableEq, Repr

namespace Conn

/-- The subscription is in the broadcaster's table. -/
def isRegistered (c : Conn D) : Bool :=
  match c.phase with
  | .ended => false
  | _ => true

/-- The connection stays open: the request has not ended and no close was requested. -/
def isOpen (c : Conn D) : Bool := c.isRegistered && c.closeReason.isNone

/-- `_request_close_locked`: the first reason stays. -/
def requestClose (c : Conn D) (reason : CloseReason) : Conn D :=
  match c.closeReason with
  | none => { c with closeReason := some reason }
  | some _ => c

/-- The loop body of `SSEBroadcaster.broadcast`: queue the event, or close a full consumer. -/
def broadcast (capacity : ℕ) (c : Conn D) (b : Broadcast D) : Conn D :=
  if c.isOpen && decide (c.projectId = b.projectId) then
    if c.queue.length < capacity then { c with queue := c.queue ++ [b] }
    else c.requestClose .slowConsumer
  else c

/-- The generator returns and removes the subscription, after a last event if there is one. -/
def finish (c : Conn D) (reason : CloseReason) (last : List (StreamEvent D)) : Conn D :=
  { c.requestClose reason with phase := .ended, sent := c.sent ++ last }

/-- The updates taken or queued that the generator will still send if nothing intervenes. -/
def waiting (c : Conn D) (version : ℕ) : List (Broadcast D) :=
  ((match c.phase with
    | .streaming _ (some b) => [b]
    | _ => []) ++ c.queue).filter fun b => decide (version < b.projectVersion)

end Conn

/-- The outbox system and one client's connection. -/
structure World (D : Type) where
  outbox : Sys D
  conn : Option (Conn D)

/-- The outcome of `credential_has_current_role`. -/
inductive Authority
  | authorized
  | denied
  | unavailable
  deriving DecidableEq, Repr

/-- The reason the stream ends with after a failed credential check. -/
def Authority.reason : Authority → Option CloseReason
  | .authorized => none
  | .denied => some .credentialRevoked
  | .unavailable => some .credentialAuthorityUnavailable

/-- What can happen next. -/
inductive Act (D : Type)
  | outbox (a : Outbox.Act D)
  /-- `add_connection` admits the client. -/
  | register (projectId : String)
  /-- `get_flag_snapshot` returns, or raises. -/
  | readSnapshot (ok : Bool)
  /-- The credential check before the first event. -/
  | authorize (authority : Authority)
  /-- `_next_update` takes an event from the queue. -/
  | nextUpdate
  /-- The generator handles the event it took. -/
  | emit
  /-- The periodic credential check. -/
  | recheck (authority : Authority)
  /-- `_next_update` sees the close signal. -/
  | observeClose
  /-- `expire_connections` finds the lifetime elapsed. -/
  | expire
  /-- `SSEBroadcaster.stop`. -/
  | shutdown
  /-- The transport is gone; also a send that timed out. -/
  | disconnect

/-- `get_flag_snapshot`: the counter and the committed changes of the project in one database
snapshot. -/
def getFlagSnapshot (o : Sys D) (projectId : String) : Snapshot D :=
  { version := o.db.versions projectId
    changes := o.committed.filter fun r => decide (r.projectId = projectId) }

/-- A step of the outbox system as the connection sees it: the broadcasts it performs reach the
subscription, and a crash takes the connection down. -/
def Conn.afterOutbox (capacity : ℕ) (o o' : Sys D) (a : Outbox.Act D) (c : Conn D) : Conn D :=
  match a with
  | .crash => c.finish .serverShutdown []
  | _ => (o'.broadcasts.drop o.broadcasts.length).foldl (Conn.broadcast capacity) c

/-- A step of the connection itself. -/
def Conn.step (o : Sys D) (c : Conn D) : Act D → Option (Conn D)
  | .readSnapshot ok =>
    match c.phase with
    | .registered =>
      if ok then some { c with phase := .ready (getFlagSnapshot o c.projectId) }
      else some (c.finish .clientDisconnect [])
    | _ => none
  | .authorize authority =>
    match c.phase with
    | .ready snap =>
      match authority.reason with
      | none => some { c with phase := .streaming snap none, sent := c.sent ++ [.config snap] }
      | some reason => some (c.finish reason [.streamError reason])
    | _ => none
  | .nextUpdate =>
    match c.phase, c.queue, c.closeReason with
    | .streaming snap none, b :: queue, none =>
      some { c with phase := .streaming snap (some b), queue := queue }
    | _, _, _ => none
  | .emit =>
    match c.phase with
    | .streaming snap (some b) =>
      if b.projectVersion ≤ snap.version then some { c with phase := .streaming snap none }
      else some { c with phase := .streaming snap none, sent := c.sent ++ [.update b] }
    | _ => none
  | .recheck authority =>
    match c.phase with
    | .streaming _ _ =>
      match authority.reason with
      | none => some c
      | some reason => some (c.finish reason [.streamError reason])
    | _ => none
  | .observeClose =>
    match c.phase, c.closeReason with
    | .streaming _ none, some reason => some (c.finish reason [.streamError reason])
    | _, _ => none
  | .expire => if c.isRegistered then some (c.requestClose .maxLifetime) else none
  | .shutdown => if c.isRegistered then some (c.requestClose .serverShutdown) else none
  | .disconnect => if c.isRegistered then some (c.finish .clientDisconnect []) else none
  | .outbox _ => none
  | .register _ => none

def step (capacity : ℕ) (eventError : D → Option String) (w : World D) : Act D → Option (World D)
  | .outbox a =>
    (Outbox.step eventError w.outbox a).map fun o' =>
      ⟨o', w.conn.map (Conn.afterOutbox capacity w.outbox o' a)⟩
  | .register projectId =>
    match w.conn with
    | none => some ⟨w.outbox, some ⟨projectId, [], none, .registered, []⟩⟩
    | some _ => none
  | a =>
    match w.conn with
    | none => none
    | some c => (c.step w.outbox a).map fun c' => ⟨w.outbox, some c'⟩

/-- The outbox system with one client, as a step machine. -/
def machine (capacity : ℕ) (eventError : D → Option String) : StepMachine (World D) (Act D) where
  init := ⟨initial, none⟩
  step := step capacity eventError

end Apdl.Config.Sse
