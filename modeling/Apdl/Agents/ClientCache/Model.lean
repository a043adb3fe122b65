import Apdl.Lib.StepMachine
import Mathlib.Order.Basic

set_option autoImplicit false

/-!
# The cache of provider clients

`ProviderClientCache` holds the SDK clients of LLM providers, a bounded number of them, under leases
that are counted. This file models the cache and the calls of its methods, which interleave at their
`await`s.

## Main definitions

* `machine` — their interleavings, with cancellation, factories and closers that may fail.

## Design

A section under the condition has no `await` other than waiting, so each is one step. An entry is an
object with an identity of its own; `State.heap` holds all entries ever made, and `State.entries` the
dictionary, as the list of its values in the order of insertion. The tasks that close a client or
abandon a creation are shielded from the cancellation of their callers, so that cancelling a caller
that waits for one has no effect on the cache. `wait_for` checks its predicate whenever it wakes up;
a call that wakes up looks at the cache again and waits again exactly if the predicate is false.

Three fields of an entry record history: the task that closes it, the calls of its closer, and
whether its slot was given back. A `RuntimeError` of the cache sets `State.fault`.
-/

namespace Apdl.Agents.ClientCache

inductive ProviderName
  | openai
  | anthropic
  | google
  | xai
  | localProvider
  deriving DecidableEq, Repr

/-- `ProviderClientIdentity`, after the checks of `__post_init__`. -/
structure Identity where
  projectId : String
  provider : ProviderName
  endpointUrl : String
  credentialId : Option String
  credentialVersion : Option ℕ
  connectionVersion : ℕ
  deriving DecidableEq, Repr

def Identity.scope (i : Identity) : String × ProviderName := (i.projectId, i.provider)

/-- `_validate_api_key` does not raise. -/
def validateApiKey (i : Identity) (apiKey : Option String) : Bool :=
  match i.provider, apiKey with
  | .localProvider, key => key.isNone
  | _, some key => !key.isEmpty
  | _, none => false

/-- `OwnedProviderClient`, with the identity that its factory was called with. -/
structure Client where
  madeFor : Identity
  deriving DecidableEq, Repr

/-- `_close_and_release_slot` of an entry: the task is created, calls the closer, and waits for the
condition to give the slot back. -/
inductive Cleanup
  | none
  | pending
  | closing
  | closed
  deriving DecidableEq, Repr

structure Entry where
  identity : Identity
  sequence : ℕ
  users : ℕ
  owned : Option Client
  retiring : Bool
  closing : Bool
  cleanup : Cleanup
  closes : ℕ
  gone : Bool
  deriving DecidableEq, Repr

/-- The new entry of `acquire`. -/
def Entry.reserve (i : Identity) (sequence : ℕ) : Entry :=
  ⟨i, sequence, 1, none, false, false, .none, 0, false⟩

/-- `owned is not None and users == 0`. -/
def Entry.isIdle (x : Entry) : Bool := x.owned.isSome && decide (x.users = 0)

/-- What a call of `acquire` is doing. -/
inductive Phase
  /-- It is about to look at the cache. -/
  | seeking
  | waiting
  /-- It waits until another entry is closed. -/
  | closing (e : ℕ)
  /-- The factory runs. -/
  | creating (e : ℕ)
  /-- The factory has returned. -/
  | created (e : ℕ) (client : Client)
  /-- The creation failed or was cancelled. -/
  | abandoning (e : ℕ) (client : Option Client)
  | leased
  /-- It has raised. -/
  | failed
  deriving DecidableEq, Repr

/-- The entry that a call creates. -/
def Phase.reserved : Phase → Option ℕ
  | .creating e | .created e _ | .abandoning e _ => some e
  | _ => none

/-- The client that a call has got from its factory. -/
def Phase.client : Phase → Option Client
  | .created _ client => some client
  | .abandoning _ client => client
  | _ => none

/-- A call of `acquire`. -/
structure Call where
  identity : Identity
  phase : Phase
  deriving DecidableEq, Repr

/-- The life of a lease: `release` creates the task that runs `_release`. -/
inductive LeaseStage
  | held
  | releasing
  | released
  deriving DecidableEq, Repr

/-- `ProviderClientLease`, with the identity that its call asked for. -/
structure Lease where
  entry : ℕ
  identity : Identity
  stage : LeaseStage
  deriving DecidableEq, Repr

/-- The lease still counts. -/
def Lease.isOutstanding (l : Lease) : Bool := decide (l.stage ≠ .released)

/-- What a call of `aclose` is doing. -/
inductive Drain
  | looping
  | waiting
  | closing (e : ℕ)
  | returned
  | cancelled
  deriving DecidableEq, Repr

/-- `ProviderClientCache`, with the calls of its methods. -/
structure State where
  maxEntries : ℕ
  heap : List Entry
  entries : List ℕ
  occupiedSlots : ℕ
  sequence : ℕ
  closed : Bool
  calls : List Call
  leases : List Lease
  drains : List Drain
  fault : Bool
  deriving DecidableEq, Repr

namespace State

variable (s : State)

/-- The number of leases on an entry that still count. -/
def outstanding (e : ℕ) : ℕ := s.leases.countP fun l => decide (l.entry = e) && l.isOutstanding

/-- An entry changes. -/
def put (e : ℕ) (x : Entry) : State := { s with heap := s.heap.set e x }

def moveCall (k : ℕ) (c : Call) (phase : Phase) : State :=
  { s with calls := s.calls.set k { c with phase := phase } }

def notifyAll : State :=
  { s with
    calls := s.calls.map fun c => if c.phase = .waiting then { c with phase := .seeking } else c
    drains := s.drains.map fun d => if d = .waiting then .looping else d }

/-- `_entries.get`. -/
def lookup (i : Identity) : Option ℕ :=
  s.entries.find? fun e => decide ((s.heap[e]?).map Entry.identity = some i)

/-- `_detach_locked`, and the task that `_close_detached_entry` then creates. -/
def detachLocked (e : ℕ) (x : Entry) : State :=
  if x.closing || x.owned.isNone || decide (x.users ≠ 0) then { s with fault := true }
  else
    { s.put e { x with closing := true, cleanup := .pending } with entries := s.entries.erase e }

/-- `_assert_not_superseded_locked` raises. -/
def isSuperseded (i : Identity) : Bool :=
  s.entries.any fun e => (s.heap[e]?).any fun x =>
    decide (x.identity.scope = i.scope) &&
      decide (i.connectionVersion ≤ x.identity.connectionVersion)

/-- `_retire_idle_conflict_locked`, over the rest of the snapshot of the entries. -/
def retireIdleConflict (i : Identity) : State → List ℕ → State × Option ℕ
  | s, [] => (s, none)
  | s, e :: rest =>
    match s.heap[e]? with
    | none => retireIdleConflict i s rest
    | some x =>
      if x.identity.scope ≠ i.scope ∨ x.identity = i then retireIdleConflict i s rest
      else
        let x' := { x with retiring := true }
        if x.isIdle then ((s.put e x').detachLocked e x', some e)
        else retireIdleConflict i (s.put e x') rest

def sequenceOf (e : ℕ) : ℕ := ((s.heap[e]?).map Entry.sequence).getD 0

/-- The entry with the least sequence, the first of them. -/
def oldest : List ℕ → Option ℕ
  | [] => none
  | e :: rest =>
    match oldest rest with
    | none => some e
    | some e' => if s.sequenceOf e ≤ s.sequenceOf e' then some e else some e'

def idleEntries : List ℕ :=
  s.entries.filter fun e => (s.heap[e]?).any fun x => x.isIdle && !x.closing

/-- `ProviderClientLease` for a new user of an entry. -/
def grant (k e : ℕ) (c : Call) (x : Entry) : State :=
  { (s.put e x).moveCall k c .leased with leases := s.leases ++ [⟨e, c.identity, .held⟩] }

/-- The section of `acquire`. -/
def seek (k : ℕ) (c : Call) : State :=
  if s.closed then s.moveCall k c .failed
  else match s.lookup c.identity with
    | some e =>
      match s.heap[e]? with
      | some x =>
        if x.retiring || x.owned.isNone then s.moveCall k c .waiting
        else
          { s.grant k e c { x with users := x.users + 1, sequence := s.sequence + 1 } with
            sequence := s.sequence + 1 }
      | none => s
    | none =>
      if s.isSuperseded c.identity then s.moveCall k c .failed
      else
        match retireIdleConflict c.identity s s.entries with
        | (s₁, some e) => s₁.moveCall k c (.closing e)
        | (s₁, none) =>
          if s₁.maxEntries ≤ s₁.occupiedSlots then
            match (s₁.oldest s₁.idleEntries).bind fun e => (s₁.heap[e]?).map fun x => (e, x) with
            | some (e, x) => (s₁.detachLocked e x).moveCall k c (.closing e)
            | none => s₁.moveCall k c .waiting
          else
            { s₁.moveCall k c (.creating s₁.heap.length) with
              heap := s₁.heap ++ [Entry.reserve c.identity (s₁.sequence + 1)]
              entries := s₁.entries ++ [s₁.heap.length]
              occupiedSlots := s₁.occupiedSlots + 1
              sequence := s₁.sequence + 1 }

/-- The section of `_create_reserved`, after the factory has returned. -/
def install (k e : ℕ) (c : Call) (client : Client) (x : Entry) : State :=
  if s.closed || x.retiring then
    let x' := { x with owned := some client, users := 0 }
    (((s.put e x').detachLocked e x').moveCall k c .failed).notifyAll
  else
    { s.grant k e c { x with owned := some client, sequence := s.sequence + 1 } with
      sequence := s.sequence + 1 }.notifyAll

/-- The section of `_abandon_reserved`. -/
def abandonReserved (k e : ℕ) (c : Call) (client : Option Client) (x : Entry) : State :=
  match client with
  | none =>
    { (s.put e { x with gone := true }).moveCall k c .failed with
      entries := if s.lookup x.identity = some e then s.entries.erase e else s.entries
      occupiedSlots := s.occupiedSlots - 1 }.notifyAll
  | some client =>
    let x' := { x with owned := some client, users := 0 }
    (((s.put e x').detachLocked e x').moveCall k c .failed).notifyAll

/-- The section of `_release`. -/
def releaseLocked (j : ℕ) (l : Lease) (x : Entry) : State :=
  if x.users < 1 then { s with fault := true }
  else
    let x' := { x with users := x.users - 1, sequence := s.sequence + 1 }
    let s₁ := { s.put l.entry x' with
      leases := s.leases.set j { l with stage := .released }, sequence := s.sequence + 1 }
    if x'.users = 0 ∧ (x'.retiring || s.closed) then (s₁.detachLocked l.entry x').notifyAll
    else s₁.notifyAll

/-- The section of `retire`. -/
def retire (i : Identity) : State :=
  match (s.lookup i).bind fun e => (s.heap[e]?).map fun x => (e, x) with
  | none => s
  | some (e, x) =>
    let x' := { x with retiring := true }
    if x.isIdle then ((s.put e x').detachLocked e x').notifyAll else (s.put e x').notifyAll

/-- The first section of `aclose`. -/
def beginDrain : State :=
  let heap := s.heap.mapIdx fun e x => if e ∈ s.entries then { x with retiring := true } else x
  let s₁ := { s with closed := true, heap := heap, drains := s.drains ++ [Drain.looping] }
  s₁.notifyAll

/-- `aclose` goes on. -/
def moveDrain (d : ℕ) (next : Drain) : State := { s with drains := s.drains.set d next }

/-- The section in the loop of `aclose`. -/
def drain (d : ℕ) : State :=
  if s.occupiedSlots = 0 then s.moveDrain d .returned
  else
    match s.idleEntries.head?.bind fun e => (s.heap[e]?).map fun x => (e, x) with
    | some (e, x) => (s.detachLocked e x).moveDrain d (.closing e)
    | none => s.moveDrain d .waiting

/-- A section of the task that closes an entry. -/
def cleanupStep (e : ℕ) (x : Entry) : Option State :=
  match x.cleanup with
  | .pending => some (s.put e { x with cleanup := .closing, closes := x.closes + 1 })
  | .closing => some (s.put e { x with cleanup := .closed })
  | .closed =>
    if x.gone then none
    else some { s.put e { x with gone := true } with occupiedSlots := s.occupiedSlots - 1 }.notifyAll
  | .none => none

/-- The entry that a call waits for is closed. -/
def isGone (e : ℕ) : Bool := (s.heap[e]?).any Entry.gone

end State

/-- The actions. -/
inductive Act
  /-- `acquire` is called. -/
  | acquire (identity : Identity) (apiKey : Option String)
  /-- The section of `acquire`. -/
  | seek (k : ℕ)
  | factory (k : ℕ) (ok : Bool)
  /-- The section after the factory. -/
  | install (k : ℕ)
  /-- The section of `_abandon_reserved`. -/
  | abandon (k : ℕ)
  /-- The call of `acquire` is cancelled. -/
  | cancel (k : ℕ)
  /-- `release` of a lease is called, for the first time. -/
  | release (j : ℕ)
  /-- The section of `_release`. -/
  | releaseLocked (j : ℕ)
  /-- The section of `retire`. -/
  | retire (identity : Identity)
  /-- The task that closes an entry goes on; the closer may have raised. -/
  | cleanup (e : ℕ)
  /-- The first section of `aclose`. -/
  | aclose
  /-- The section in the loop of `aclose`. -/
  | drain (d : ℕ)
  /-- The call of `aclose` is cancelled. -/
  | cancelDrain (d : ℕ)
  deriving DecidableEq, Repr

namespace State

/-- What a cancelled call of `acquire` does. -/
def cancelCall (s : State) (k : ℕ) (c : Call) : Option State :=
  match c.phase with
  | .seeking | .waiting | .closing _ => some (s.moveCall k c .failed)
  | .creating e => some (s.moveCall k c (.abandoning e none))
  | .created e client => some (s.moveCall k c (.abandoning e (some client)))
  | _ => none

/-- The steps of a call of `acquire`. -/
def stepCall (s : State) (k : ℕ) (c : Call) : Act → Option State
  | .seek _ =>
    match c.phase with
    | .seeking => some (s.seek k c)
    | .closing e => if s.isGone e then some (s.moveCall k c .seeking) else none
    | _ => none
  | .factory _ ok =>
    match c.phase with
    | .creating e => (s.heap[e]?).map fun x =>
      s.moveCall k c (if ok then .created e ⟨x.identity⟩ else .abandoning e none)
    | _ => none
  | .install _ =>
    match c.phase with
    | .created e client => (s.heap[e]?).map (s.install k e c client)
    | _ => none
  | .abandon _ =>
    match c.phase with
    | .abandoning e client => (s.heap[e]?).map (s.abandonReserved k e c client)
    | _ => none
  | .cancel _ => s.cancelCall k c
  | _ => none

def stepLease (s : State) (j : ℕ) (l : Lease) : Act → Option State
  | .release _ =>
    if l.stage = .held then some { s with leases := s.leases.set j { l with stage := .releasing } }
    else none
  | .releaseLocked _ =>
    if l.stage = .releasing then (s.heap[l.entry]?).map (s.releaseLocked j l) else none
  | _ => none

/-- The steps of a call of `aclose`. -/
def stepDrain (s : State) (d : ℕ) (phase : Drain) : Act → Option State
  | .drain _ =>
    match phase with
    | .looping => some (s.drain d)
    | .closing e => if s.isGone e then some (s.moveDrain d .looping) else none
    | _ => none
  | .cancelDrain _ =>
    match phase with
    | .looping | .waiting | .closing _ => some (s.moveDrain d .cancelled)
    | _ => none
  | _ => none

def step (s : State) (act : Act) : Option State :=
  match act with
  | .acquire i apiKey =>
    some { s with
      calls := s.calls ++ [⟨i, if validateApiKey i apiKey then .seeking else .failed⟩] }
  | .seek k | .factory k _ | .install k | .abandon k | .cancel k =>
    (s.calls[k]?).bind fun c => s.stepCall k c act
  | .release j | .releaseLocked j => (s.leases[j]?).bind fun l => s.stepLease j l act
  | .retire i => some (s.retire i)
  | .cleanup e => (s.heap[e]?).bind (s.cleanupStep e)
  | .aclose => some s.beginDrain
  | .drain d | .cancelDrain d => (s.drains[d]?).bind fun phase => s.stepDrain d phase act

/-- An empty cache. -/
def initial (maxEntries : ℕ) : State := ⟨maxEntries, [], [], 0, 0, false, [], [], [], false⟩

end State

/-- The cache and the calls of its methods. -/
def machine (maxEntries : ℕ) : StepMachine State Act := ⟨State.initial maxEntries, State.step⟩

end Apdl.Agents.ClientCache
