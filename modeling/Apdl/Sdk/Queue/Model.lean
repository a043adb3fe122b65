import Apdl.Lib.StepMachine

set_option autoImplicit false

/-!
# The event queue of the JavaScript SDK

The asynchronous tasks of `EventQueue` (`event-queue.ts`) with `Transport.send` and the part of
`OfflineStorage` they rely on: one normal drain at a time, lifecycle drains, offline claims, and the
fence that `revokeAnalyticsConsent` raises.

## Design

The code between two `await`s of a task is one step. What validation, size limits, capacity and
leases decide (which events of a batch are kept, how many records a claim takes, which queued events
a store result finalizes) is chosen by the action, so every run of the code is a run here. A
transaction takes effect when the method that creates it is called, since IndexedDB runs the
transactions of a store in the order of their creation; only the fallback of a failed store happens
later. Reports, counters and debug output are left out.
-/

namespace Apdl.Sdk

/-- `messageId`. -/
abbrev EventId := ℕ

/-- The key of an offline record. -/
abbrev RecordId := ℕ

/-- `PendingEvent`. -/
structure Pending where
  event : EventId
  durableRecordId : Option RecordId
  deriving DecidableEq

/-- What a run did that consent is about. -/
inductive Effect
  /-- `revokeAnalyticsConsent` was called while the queue held these events. -/
  | revoke (held : List EventId)
  | send (events : List EventId)
  deriving DecidableEq

def eventsOf (ps : List Pending) : List EventId := ps.map Pending.event

/-- The record IDs of a batch. -/
def recordsOf (ps : List Pending) : List RecordId := ps.filterMap Pending.durableRecordId

/-! ## Offline storage -/

/-- An offline record of this scope. -/
structure Record where
  id : RecordId
  event : EventId
  deriving DecidableEq

/-- A store whose transaction failed, and that has yet to fall back to memory. -/
structure FailedStore where
  epoch : ℕ
  events : List EventId
  deriving DecidableEq

/-- `OfflineStorage`. -/
structure Storage where
  records : List Record
  fallbackQueue : List Record
  failed : List FailedStore
  nextId : RecordId
  deriving DecidableEq

namespace Storage

def newRecords (st : Storage) (events : List EventId) : List Record :=
  events.zipIdx.map fun e => ⟨st.nextId + e.2, e.1⟩

/-- `store`: the events are durable unless the transaction fails; records beyond the bounds of the
storage are evicted. -/
def store (st : Storage) (epoch : ℕ) (events : List EventId) (durable : Bool)
    (evicted : List RecordId) : Storage :=
  if durable then
    { st with
      records := (st.records ++ st.newRecords events).filter fun r => decide (r.id ∉ evicted)
      nextId := st.nextId + events.length }
  else { st with failed := st.failed ++ [⟨epoch, events⟩] }

/-- `storeInFallback` of the first failed store. -/
def storeInFallback (st : Storage) (evicted : List RecordId) : Storage :=
  match st.failed with
  | [] => st
  | f :: rest =>
    { st with
      fallbackQueue :=
        (st.fallbackQueue ++ st.newRecords f.events).filter fun r => decide (r.id ∉ evicted)
      failed := rest
      nextId := st.nextId + f.events.length }

/-- The pending events of claimed records. -/
def claimed (rs : List Record) (ids : List RecordId) : List Pending :=
  (rs.filter fun r => decide (r.id ∈ ids)).map fun r => ⟨r.event, some r.id⟩

/-- Delete records: in memory always, in IndexedDB when the transaction commits. -/
def delete (st : Storage) (gone : Record → Bool) (commit : Bool) : Storage :=
  { st with
    records := if commit then st.records.filter fun r => !gone r else st.records
    fallbackQueue := st.fallbackQueue.filter fun r => !gone r }

def acknowledge (st : Storage) (ids : List RecordId) (commit : Bool) : Storage :=
  st.delete (fun r => decide (r.id ∈ ids)) commit

def acknowledgeStored (st : Storage) (events : List EventId) (commit : Bool) : Storage :=
  st.delete (fun r => decide (r.event ∈ events)) commit

/-- `clear` before its transaction. -/
def clearFallback (st : Storage) : Storage := { st with fallbackQueue := [] }

/-- The transaction of `clear`. -/
def clearRecords (st : Storage) (commit : Bool) : Storage :=
  if commit then { st with records := [] } else st

end Storage

/-! ## Tasks -/

/-- `claimOfflineEvents`. -/
inductive ClaimTask
  | waitFence (fence : ℕ)
  /-- `claim` has taken records from memory and not yet from IndexedDB. -/
  | claiming (epoch : ℕ) (claims : List Pending)
  /-- `claim` has resolved. -/
  | received (epoch : ℕ) (claims : List Pending)
  | releasing (epoch : ℕ) (usable : List Pending)
  | acknowledging (epoch : ℕ) (claimedPending : List Pending)
  /-- Waiting for `clear`. -/
  | clearing
  | finished (claimed : Bool)
  deriving DecidableEq

/-- `ActiveDelivery` of the normal drain, and the epoch of its batch. -/
structure Batch where
  epoch : ℕ
  ownedEvents : List Pending
  aborted : Bool
  takenOver : Bool
  deriving DecidableEq

/-- Where the normal drain waits while it owns a batch. -/
inductive BatchStage
  | disposing (prepared : List Pending)
  /-- For a response to the head of `work`; the rest is unattempted. -/
  | fetching (work : List (List Pending)) (attempt : ℕ) (delivered rejected : List Pending)
  | sleeping (work : List (List Pending)) (attempt : ℕ) (delivered rejected : List Pending)
  /-- `deliverPreparedBatch` has resolved. -/
  | returned (delivered rejected retryable : List Pending)
  | acknowledging (retryable : List Pending)
  | releasing (retryable : List Pending)
  | storing (retryable : List Pending)
  /-- For `clear`, to continue the loop or to leave it. -/
  | clearing (again : Bool)
  deriving DecidableEq

/-- `drainNormalQueue`. -/
inductive NormalTask
  | idle
  | waitResume (lifecycle : ℕ)
  | waitStart
  | looping
  | claiming (claim : ClaimTask)
  | waitFence (fence : ℕ)
  /-- Waiting for the acknowledgement of locally disposed events, with no batch. -/
  | disposed
  | working (batch : Batch) (stage : BatchStage)
  deriving DecidableEq

/-- `drainLifecycleQueue`. -/
inductive LifecycleTask
  | waitFence (fence : ℕ) (inherited : List EventId)
  | sending (epoch : ℕ) (prepared : List Pending)
  /-- Waiting for the persistence of `candidates`. -/
  | settling (epoch : ℕ) (finals : List Pending)
  | clearing
  | finished
  deriving DecidableEq

/-- `start`. -/
inductive StartTask
  | notStarted
  | claiming (claim : ClaimTask)
  | complete
  deriving DecidableEq

/-- Whose delivery `activeDelivery` is. -/
inductive ActiveRef
  | normal
  | lifecycle (id : ℕ)
  deriving DecidableEq

/-- The fence of the oldest revocation that is not settled. -/
inductive FenceStage
  | waiting
  /-- `clear` was called. -/
  | called
  /-- Its transaction is done. -/
  | cleared
  deriving DecidableEq

/-- The queue. The `n`-th revocation raises the consent epoch to `n`, and its fence is settled when
`fencesSettled` is at least `n`. -/
structure State where
  queue : List Pending
  accepting : Bool
  granted : Bool
  consentEpoch : ℕ
  fencesSettled : ℕ
  fence : FenceStage
  unloadRequested : Bool
  unloadPromise : Option ℕ
  resumeBarrier : Option ℕ
  activeDelivery : Option ActiveRef
  normal : NormalTask
  start : StartTask
  lifecycles : List (ℕ × LifecycleTask)
  storage : Storage
  log : List Effect
  deriving DecidableEq

/-! ## What the queue holds -/

def ClaimTask.events : ClaimTask → List EventId
  | .claiming _ ps | .received _ ps | .releasing _ ps | .acknowledging _ ps => eventsOf ps
  | _ => []

def BatchStage.events : BatchStage → List EventId
  | .disposing ps | .acknowledging ps | .releasing ps | .storing ps => eventsOf ps
  | .fetching work _ delivered rejected | .sleeping work _ delivered rejected =>
    eventsOf (work.flatten ++ delivered ++ rejected)
  | .returned delivered rejected retryable => eventsOf (delivered ++ rejected ++ retryable)
  | .clearing _ => []

def NormalTask.events : NormalTask → List EventId
  | .claiming c => c.events
  | .working b stage => eventsOf b.ownedEvents ++ stage.events
  | _ => []

def LifecycleTask.events : LifecycleTask → List EventId
  | .waitFence _ inherited => inherited
  | .sending _ prepared => eventsOf prepared
  | .settling _ finals => eventsOf finals
  | _ => []

/-- The events of `start`. -/
def StartTask.events : StartTask → List EventId
  | .claiming c => c.events
  | _ => []

def Storage.events (st : Storage) : List EventId :=
  (st.records ++ st.fallbackQueue).map Record.event ++ st.failed.flatMap FailedStore.events

/-- Every event the queue holds: in memory, in a delivery or in offline storage. -/
def State.held (s : State) : List EventId :=
  eventsOf s.queue ++ s.normal.events ++ s.start.events ++
    s.lifecycles.flatMap (fun l => l.2.events) ++ s.storage.events

/-! ## Shared operations -/

namespace State

/-- `consentFencePending`. -/
def fencePending (s : State) : Bool := decide (s.fencesSettled < s.consentEpoch)

/-- The check after an `await`: consent was revoked since, or is not granted. -/
def stale (s : State) (epoch : ℕ) : Bool := decide (epoch ≠ s.consentEpoch) || !s.granted

/-- A request starts. -/
def send (s : State) (ps : List Pending) : State :=
  { s with log := s.log ++ [.send (eventsOf ps)] }

/-- `clearActiveDelivery`. -/
def clearActive (s : State) (ref : ActiveRef) : State :=
  { s with activeDelivery := if s.activeDelivery = some ref then none else s.activeDelivery }

/-- `clear` is called. -/
def callClear (s : State) : State := { s with storage := s.storage.clearFallback }

/-- The transaction of `clear` is done. -/
def finishClear (s : State) (commit : Bool) : State :=
  { s with storage := s.storage.clearRecords commit }

end State

/-- What validation decides of a batch: the kept and the disposed events. -/
def sift : List Pending → List Bool → List Pending × List Pending
  | p :: ps, true :: keep => ((sift ps keep).1.cons p, (sift ps keep).2)
  | p :: ps, false :: keep => ((sift ps keep).1, (sift ps keep).2.cons p)
  | ps, _ => (ps, [])

/-- `dequeueBatch`: `keep` says which of the first events are kept and which are disposed of; the
rest stays queued. -/
def dequeueBatch (queue : List Pending) (keep : List Bool) :
    List Pending × List Pending × List Pending :=
  let taken := sift (queue.take keep.length) keep
  (taken.1, taken.2, queue.drop keep.length)

/-! ## Offline claims -/

/-- What can happen next to a claim. -/
inductive ClaimAct
  | fence (full : Bool) (ids : List RecordId)
  /-- The transaction of `claim`. -/
  | fetch (ids : List RecordId)
  /-- `claim` resolves. -/
  | examine (usable : ℕ) (keep : List Bool) (commit : Bool)
  | released (keep : List Bool) (commit : Bool)
  | acknowledged
  | cleared (commit : Bool)
  /-- A storage call throws. -/
  | threw
  deriving DecidableEq

/-- `claimOfflineEvents` after its fence. -/
def startClaim (s : State) (full : Bool) (ids : List RecordId) : State × ClaimTask :=
  if s.granted = false then (s.callClear, .clearing)
  else if full then (s, .finished false)
  else (s, .claiming s.consentEpoch (Storage.claimed s.storage.fallbackQueue ids))

def claimOfflineEvents (s : State) (full : Bool) (ids : List RecordId) : State × ClaimTask :=
  if s.fencePending then (s, .waitFence s.consentEpoch) else startClaim s full ids

/-- The usable claims are validated; invalid ones are acknowledged, the others join the queue. -/
def validateClaims (s : State) (epoch : ℕ) (usable : List Pending) (keep : List Bool)
    (commit : Bool) : State × ClaimTask :=
  let (claimedPending, disposed) := if s.granted then sift usable keep else ([], usable)
  if disposed = [] then ({ s with queue := claimedPending ++ s.queue }, .finished true)
  else
    ({ s with storage := s.storage.acknowledge (recordsOf disposed) commit },
      .acknowledging epoch claimedPending)

def claimStep (s : State) : ClaimTask → ClaimAct → Option (State × ClaimTask)
  | .waitFence fence, .fence full ids =>
    if fence ≤ s.fencesSettled then some (startClaim s full ids) else none
  | .claiming epoch claims, .fetch ids =>
    some (s, .received epoch (claims ++ Storage.claimed s.storage.records ids))
  | .received epoch claims, .examine usable keep commit =>
    if s.stale epoch then some (s.callClear, .clearing)
    else if claims = [] then some (s, .finished false)
    else if claims.drop usable = [] then some (validateClaims s epoch claims keep commit)
    else some (s, .releasing epoch (claims.take usable))
  | .releasing epoch usable, .released keep commit =>
    some (validateClaims s epoch usable keep commit)
  | .acknowledging _ claimedPending, .acknowledged =>
    some ({ s with queue := claimedPending ++ s.queue }, .finished true)
  | .clearing, .cleared commit => some (s.finishClear commit, .finished false)
  | .claiming _ _, .threw | .releasing _ _, .threw | .acknowledging _ _, .threw =>
    some (s, .finished false)
  | _, _ => none

/-! ## The normal drain -/

/-- `TransportOutcome` of one attempt. -/
inductive Reply
  | accepted
  /-- A transient error status, a network error, a timeout or an abort. -/
  | retryable
  | payloadRejected
  | permanentRejection
  deriving DecidableEq

/-- The number of delays between the attempts of `Transport.send`. -/
def retryDelays : ℕ := 7

/-- What can happen next to the normal drain. -/
inductive NormalAct
  | flush
  | resumed
  | started
  | loop (full : Bool) (ids : List RecordId) (keep : List Bool) (commit : Bool)
  | claim (a : ClaimAct)
  | claimed
  | fence (keep : List Bool) (commit : Bool)
  | disposed
  | respond (reply : Reply)
  | wake
  | returned (commit durable : Bool) (evicted : List RecordId)
  | acknowledged (durable : Bool) (evicted : List RecordId)
  | released (durable : Bool) (evicted : List RecordId)
  | stored (threw : Bool) (finalized : List EventId)
  | cleared (commit : Bool)
  deriving DecidableEq

namespace State

/-- The drain leaves its loop. -/
def leave (s : State) : State := { s with normal := .idle }

/-- The drain gives up its batch and leaves its loop. -/
def leaveBatch (s : State) : State := (s.clearActive .normal).leave

/-- The drain gives up its batch and continues its loop. -/
def nextBatch (s : State) : State := { s.clearActive .normal with normal := .looping }

/-- The drain waits at a stage of its batch. -/
def atStage (s : State) (b : Batch) (stage : BatchStage) : State :=
  { s with normal := .working b stage }

end State

/-- The next request of `deliverPreparedBatch`; an aborted signal makes what is left retryable. -/
def sendNext (s : State) (b : Batch) (work : List (List Pending))
    (delivered rejected : List Pending) : State :=
  match work with
  | [] => s.atStage b (.returned delivered rejected [])
  | batch :: rest =>
    if b.aborted then s.atStage b (.returned delivered rejected (batch :: rest).flatten)
    else (s.send batch).atStage b (.fetching (batch :: rest) 0 delivered rejected)

/-- The dequeued batch is registered as the active delivery and sent, after the acknowledgement of
what was disposed of. -/
def dequeueNormal (s : State) (keep : List Bool) (commit : Bool) : State :=
  if s.granted = false then { s with queue := [], normal := .idle }
  else
    let (prepared, disposed, rest) := dequeueBatch s.queue keep
    let s := { s with
      queue := rest
      storage := s.storage.acknowledge (recordsOf disposed) commit }
    if prepared = [] then
      { s with normal := if recordsOf disposed = [] then .looping else .disposed }
    else
      let b : Batch := ⟨s.consentEpoch, prepared, false, false⟩
      let s := { s with activeDelivery := some .normal }
      if recordsOf disposed = [] then sendNext s b [prepared] [] []
      else s.atStage b (.disposing prepared)

def loopNormal (memory : Bool) (s : State) (full : Bool) (ids : List RecordId) (keep : List Bool)
    (commit : Bool) : State :=
  if s.unloadRequested then s.leave
  else if s.queue = [] then
    if s.start ≠ .notStarted ∨ memory = false then
      let (s, c) := claimOfflineEvents s full ids
      { s with normal := .claiming c }
    else s.leave
  else if s.fencePending then { s with normal := .waitFence s.consentEpoch }
  else dequeueNormal s keep commit

/-- The drain after the release of durable retryable events: the others are persisted. -/
def persistRetryable (memory : Bool) (s : State) (b : Batch) (retryable : List Pending)
    (durable : Bool) (evicted : List RecordId) : State :=
  if b.takenOver || s.unloadRequested then s.leaveBatch
  else if s.stale b.epoch then s.callClear.atStage b (.clearing true)
  else if memory then
    let durableRetryable := eventsOf (retryable.filter fun p => p.durableRecordId.isSome)
    { s with queue := s.queue.filter fun p => decide (p.event ∉ durableRetryable) }.leaveBatch
  else
    let volatile := eventsOf (retryable.filter fun p => p.durableRecordId.isNone)
    { s with storage := s.storage.store s.consentEpoch volatile durable evicted }.atStage b
      (.storing retryable)

/-- The drain after the acknowledgement of final records. -/
def settleDelivery (memory : Bool) (s : State) (b : Batch) (retryable : List Pending)
    (durable : Bool) (evicted : List RecordId) : State :=
  if b.takenOver || s.unloadRequested then s.leaveBatch
  else if s.stale b.epoch then s.callClear.atStage b (.clearing true)
  else if retryable = [] then s.nextBatch
  else if recordsOf retryable = [] then persistRetryable memory s b retryable durable evicted
  else s.atStage b (.releasing retryable)

/-- The steps of the normal drain while it owns a batch. -/
def batchStep (memory : Bool) (s : State) (b : Batch) : BatchStage → NormalAct → Option State
  | .disposing prepared, .disposed =>
    some <|
      if b.takenOver || s.unloadRequested then s.leaveBatch
      else if s.stale b.epoch then s.nextBatch
      else sendNext s b [prepared] [] []
  | .fetching (batch :: rest) attempt delivered rejected, .respond reply =>
    some <|
      match reply with
      | .accepted => sendNext s b rest (delivered ++ batch) rejected
      | .permanentRejection => sendNext s b rest delivered (rejected ++ batch)
      | .payloadRejected =>
        if batch.length ≤ 1 then sendNext s b rest delivered (rejected ++ batch)
        else
          sendNext s b (batch.take (batch.length / 2) :: batch.drop (batch.length / 2) :: rest)
            delivered rejected
      | .retryable =>
        if attempt < retryDelays then
          s.atStage b (.sleeping (batch :: rest) attempt delivered rejected)
        else s.atStage b (.returned delivered rejected (batch :: rest).flatten)
  | .sleeping (batch :: rest) attempt delivered rejected, .wake =>
    some <|
      if b.aborted then s.atStage b (.returned delivered rejected (batch :: rest).flatten)
      else (s.send batch).atStage b (.fetching (batch :: rest) (attempt + 1) delivered rejected)
  | .returned delivered rejected retryable, .returned commit durable evicted =>
    some <|
      if b.takenOver then s.leaveBatch
      else if s.stale b.epoch then s.nextBatch
      else
        let b := { b with ownedEvents := [] }
        let s := { s with queue := retryable ++ s.queue }
        let finals := recordsOf (delivered ++ rejected)
        if finals = [] then settleDelivery memory s b retryable durable evicted
        else
          { s with storage := s.storage.acknowledge finals commit }.atStage b
            (.acknowledging retryable)
  | .acknowledging retryable, .acknowledged durable evicted =>
    some (settleDelivery memory s b retryable durable evicted)
  | .releasing retryable, .released durable evicted =>
    some (persistRetryable memory s b retryable durable evicted)
  | .storing _, .stored threw finalized =>
    some <|
      if b.takenOver || s.unloadRequested then s.leaveBatch
      else if s.stale b.epoch then
        if threw then s.leaveBatch else s.callClear.atStage b (.clearing false)
      else { s with queue := s.queue.filter fun p => decide (p.event ∉ finalized) }.leaveBatch
  | .clearing again, .cleared commit =>
    some (if again then (s.finishClear commit).nextBatch else (s.finishClear commit).leaveBatch)
  | _, _ => none

/-- The lifecycle drain has returned. -/
def State.lifecycleDone (s : State) (id : ℕ) : Bool :=
  decide (s.lifecycles.lookup id = some .finished)

/-- The start of a drain, or of what follows one of its first waits. -/
def beginNormal (s : State) : State :=
  if s.start ≠ .notStarted ∧ s.start ≠ .complete then { s with normal := .waitStart }
  else if s.unloadRequested then s.leave
  else { s with normal := .looping }

def normalStep (memory : Bool) (s : State) (a : NormalAct) : Option State :=
  match s.normal, a with
  | .idle, .flush =>
    some <|
      match s.resumeBarrier with
      | some id => if s.lifecycleDone id then beginNormal s else { s with normal := .waitResume id }
      | none => beginNormal s
  | .waitResume id, .resumed => if s.lifecycleDone id then some (beginNormal s) else none
  | .waitStart, .started =>
    if s.start = .complete then
      some (if s.unloadRequested then s.leave else { s with normal := .looping })
    else none
  | .looping, .loop full ids keep commit => some (loopNormal memory s full ids keep commit)
  | .claiming c, .claim a =>
    (claimStep s c a).map fun r => { r.1 with normal := .claiming r.2 }
  | .claiming (.finished claimed), .claimed =>
    some <|
      if s.unloadRequested = false ∧ claimed = true then { s with normal := .looping } else s.leave
  | .waitFence fence, .fence keep commit =>
    if fence ≤ s.fencesSettled then
      some (if s.unloadRequested then s.leave else dequeueNormal s keep commit)
    else none
  | .disposed, .disposed =>
    some (if s.unloadRequested then s.leave else { s with normal := .looping })
  | .working b stage, a => batchStep memory s b stage a
  | _, _ => none

/-! ## Lifecycle drains -/

/-- What can happen next to a lifecycle drain. -/
inductive LifecycleAct
  | fence (keep : List Bool) (commit durable : Bool) (evicted : List RecordId)
  | respond (reply : Reply) (commit : Bool)
  | settled (finalized : List EventId) (commit : Bool)
  | cleared (commit : Bool)
  deriving DecidableEq

def State.setLifecycle (s : State) (id : ℕ) (t : LifecycleTask) : State :=
  { s with lifecycles := s.lifecycles.map fun l => if l.1 = id then (id, t) else l }

/-- `drainLifecycleQueue` after its fence. -/
def lifecycleStart (memory : Bool) (s : State) (id : ℕ) (inherited : List EventId)
    (keep : List Bool) (commit durable : Bool) (evicted : List RecordId) : State :=
  if s.granted = false then { s with queue := [] }.setLifecycle id .finished
  else
    let (prepared, disposed, rest) := dequeueBatch s.queue keep
    let uncovered := eventsOf ((prepared ++ rest).filter fun p =>
      p.durableRecordId.isNone && decide (p.event ∉ inherited))
    let storage :=
      if memory || decide (uncovered = []) then s.storage
      else s.storage.store s.consentEpoch uncovered durable evicted
    let s := { s with
      queue := rest
      storage := storage.acknowledge (recordsOf disposed) commit }
    if prepared = [] then s.setLifecycle id (.settling s.consentEpoch [])
    else
      ({ s with activeDelivery := some (.lifecycle id) }.send prepared).setLifecycle id
        (.sending s.consentEpoch prepared)

def lifecycleStep (memory : Bool) (s : State) (id : ℕ) (t : LifecycleTask) (a : LifecycleAct) :
    Option State :=
  match t, a with
  | .waitFence fence inherited, .fence keep commit durable evicted =>
    if fence ≤ s.fencesSettled then
      some (lifecycleStart memory s id inherited keep commit durable evicted)
    else none
  | .sending epoch prepared, .respond reply commit =>
    some <|
      if s.stale epoch then
        ((s.clearActive (.lifecycle id)).callClear).setLifecycle id .clearing
      else if reply = .accepted ∨ reply = .permanentRejection then
        { s with storage := s.storage.acknowledge (recordsOf prepared) commit }.setLifecycle id
          (.settling epoch prepared)
      else { s with queue := prepared ++ s.queue }.setLifecycle id (.settling epoch [])
  | .settling epoch finals, .settled finalized commit =>
    some <|
      if s.stale epoch then s.callClear.setLifecycle id .clearing
      else
        ({ s with
          queue := s.queue.filter fun p => decide (p.event ∉ finalized)
          storage := s.storage.acknowledgeStored (eventsOf finals) commit }.clearActive
            (.lifecycle id)).setLifecycle id .finished
  | .clearing, .cleared commit =>
    some (((s.finishClear commit).clearActive (.lifecycle id)).setLifecycle id .finished)
  | _, _ => none

/-- The volatile events of a store in progress, which the lifecycle drain inherits. -/
def BatchStage.inherited : BatchStage → List EventId
  | .storing retryable => eventsOf (retryable.filter fun p => p.durableRecordId.isNone)
  | _ => []

/-- `takeOverActiveNormalDelivery`. -/
def takeOver (s : State) : State × List EventId :=
  match s.activeDelivery, s.normal with
  | some .normal, .working b stage =>
    if b.takenOver then (s, [])
    else
      ({ s with
        queue := b.ownedEvents ++ s.queue
        normal := .working { b with ownedEvents := [], aborted := true, takenOver := true } stage
        activeDelivery := none }, stage.inherited)
  | _, _ => (s, [])

def flushOnUnload (memory : Bool) (s : State) (keep : List Bool) (commit durable : Bool)
    (evicted : List RecordId) : State :=
  match s.unloadPromise with
  | some _ => s
  | none =>
    let id := s.lifecycles.length
    let (s, inherited) := takeOver s
    let s := { s with unloadRequested := true, unloadPromise := some id }
    let fenced := { s with
      lifecycles := s.lifecycles ++ [(id, .waitFence s.consentEpoch inherited)] }
    if s.fencePending then fenced
    else lifecycleStart memory fenced id inherited keep commit durable evicted

def resumeLifecycleDelivery (s : State) : State :=
  if s.unloadRequested then
    { s with
      unloadRequested := false
      unloadPromise := none
      resumeBarrier := s.unloadPromise }
  else s

/-! ## The system -/

/-- What can happen next. -/
inductive Act
  | enqueue (event : EventId)
  | start (full : Bool) (ids : List RecordId)
  | startClaim (a : ClaimAct)
  | shutdown
  | normal (a : NormalAct)
  | flushOnUnload (keep : List Bool) (commit durable : Bool) (evicted : List RecordId)
  | lifecycle (id : ℕ) (a : LifecycleAct)
  | resume
  /-- Analytics consent is withdrawn, and `revokeAnalyticsConsent` is called. -/
  | revoke
  | grant
  /-- The fence of the oldest revocation calls `clear`. -/
  | fenceCall
  | fenceClear (commit : Bool)
  | fenceSettle
  | storeFallback (evicted : List RecordId)
  /-- Records that exceed the maximum age are deleted. -/
  | expire (ids : List RecordId)
  | otherDocument (event : EventId)
  deriving DecidableEq

/-- The events that the queue held at the revocations so far. -/
def revoked (log : List Effect) : List EventId :=
  log.flatMap fun
    | .revoke held => held
    | .send _ => []

/-- The abort of the active delivery; a lifecycle drain has no further attempt to stop. -/
def State.abortActive (s : State) : State :=
  match s.activeDelivery, s.normal with
  | some .normal, .working b stage => s.atStage { b with aborted := true } stage
  | _, _ => s

def revokeAnalyticsConsent (s : State) : State :=
  { s.abortActive with
    granted := false
    consentEpoch := s.consentEpoch + 1
    queue := []
    log := s.log ++ [.revoke s.held] }

/-- The fence of the oldest revocation. -/
def fenceStep (s : State) : Act → Option State
  | .fenceCall =>
    if s.fencePending ∧ s.fence = .waiting then some { s.callClear with fence := .called } else none
  | .fenceClear commit =>
    if s.fence = .called then some { s.finishClear commit with fence := .cleared } else none
  | .fenceSettle =>
    if s.fence = .cleared then
      some { s with fence := .waiting, fencesSettled := s.fencesSettled + 1 }
    else none
  | _ => none

/-- One step, with or without a durable store. -/
def step (memory : Bool) (s : State) (a : Act) : Option State :=
  match a with
  | .enqueue event =>
    -- a message ID is drawn anew for every event
    if s.accepting = true ∧ s.unloadRequested = false ∧ s.granted = true ∧
        event ∉ revoked s.log then
      some { s with queue := s.queue ++ [⟨event, none⟩] }
    else none
  | .start full ids =>
    if s.start = .notStarted then
      let (s, c) := claimOfflineEvents s full ids
      some { s with start := .claiming c }
    else none
  | .startClaim a =>
    match s.start with
    | .claiming (.finished _) => some { s with start := .complete }
    | .claiming c => (claimStep s c a).map fun r => { r.1 with start := .claiming r.2 }
    | _ => none
  | .shutdown => some { s with accepting := false }
  | .normal a => normalStep memory s a
  | .flushOnUnload keep commit durable evicted =>
    some (flushOnUnload memory s keep commit durable evicted)
  | .lifecycle id a =>
    match s.lifecycles.lookup id with
    | some t => lifecycleStep memory s id t a
    | none => none
  | .resume => some (resumeLifecycleDelivery s)
  | .revoke => some (revokeAnalyticsConsent s)
  | .grant => some { s with granted := true }
  | .fenceCall | .fenceClear _ | .fenceSettle => fenceStep s a
  | .storeFallback evicted => some { s with storage := s.storage.storeInFallback evicted }
  | .expire ids =>
    some { s with storage := s.storage.delete (fun r => decide (r.id ∈ ids)) true }
  | .otherDocument event =>
    if event ∉ revoked s.log then
      some { s with storage := s.storage.store s.consentEpoch [event] true [] }
    else none

/-- A new queue over the records of earlier sessions. -/
def initial (records : List Record) (nextId : RecordId) : State :=
  { queue := [], accepting := true, granted := true, consentEpoch := 0, fencesSettled := 0
    fence := .waiting, unloadRequested := false, unloadPromise := none, resumeBarrier := none
    activeDelivery := none, normal := .idle, start := .notStarted, lifecycles := []
    storage := { records := records, fallbackQueue := [], failed := [], nextId := nextId }
    log := [] }

/-- The event queue as a step machine, with memory persistence or not. -/
def machine (memory : Bool) (records : List Record) (nextId : RecordId) :
    StepMachine State Act where
  init := initial records nextId
  step := step memory

end Apdl.Sdk
