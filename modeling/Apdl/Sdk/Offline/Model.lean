import Apdl.Lib.Cursor
import Apdl.Lib.StepMachine
import Mathlib.Algebra.Ring.Int.Defs
import Mathlib.Data.List.Dedup
import Mathlib.Tactic.Ring

set_option autoImplicit false

/-!
# Offline storage of the browser SDK

`OfflineStorage` keeps the events that could not be sent in an IndexedDB object store that all tabs
of an origin share, and in a queue in memory where there is no database. This file models its
methods and the interleavings of their transactions.

## Main definitions

* `State`, `Act`, `machine` — tabs that call methods, and transactions that commit or fail.

## Design

A method runs in two parts. The first one reads the clock, works on the queue in memory and returns
at the first `await`; the second one is a transaction of the database, which the database runs as a
whole or not at all. A call between its two parts is in `State.calls`, and the second parts run in
any order. Every reading of the clock is part of the action, also those inside the validation of a
record: `clock n id` is the reading of the `n`-th validation of the record `id`.

A row whose key is not a number fails `isStoredOfflineEvent` in every method and is left out; so are
the migrations of `openDB`.
-/

namespace Apdl.Sdk.Offline

/-- What the storage uses of events and of the browser. -/
structure Platform (E : Type) where
  /-- `canonicalizeTrackEvent` and `assertSerializedEventSize` at a reading of the clock. -/
  canonicalizeTrackEvent : ℤ → E → Option E
  serializedEventBytes : E → Option ℕ
  messageId : E → String
  /-- `new URL(origin)` is an HTTP(S) URL whose origin is the text itself, with nothing after it. -/
  isCanonicalOrigin : String → Bool

/-- `DeploymentStorageScope`. -/
structure Scope where
  deploymentOrigin : String
  projectId : String
  deriving DecidableEq, Repr

/-- `StoredOfflineEvent` without its `id`, which is the key of its row. -/
structure StoredOfflineEvent (E : Type) where
  schemaVersion : ℤ
  deploymentOrigin : String
  projectId : String
  storedAt : ℤ
  serializedBytes : ℤ
  claimOwner : Option String
  claimExpiresAt : Option ℤ
  data : E
  deriving DecidableEq

/-- The value of a row; `none` is a value without the fields of a record, or with others. -/
abbrev Value (E : Type) := Option (StoredOfflineEvent E)

inductive RecordDisposition
  | current
  | mismatched
  | stale
  deriving DecidableEq, Repr

/-- One `OfflineStorage`: its `claimOwner` and its scope. -/
structure Tab where
  owner : String
  scope : Scope
  deriving DecidableEq, Repr

/-- The readings of the clock inside the validations of records. -/
abbrev Clock := ℕ → ℤ → ℤ

def recordSchemaVersion : ℤ := 4

/-- `MAX_OFFLINE_EVENTS_PER_PROJECT`. -/
def maxOfflineEvents : ℕ := 1000

/-- `MAX_OFFLINE_SERIALIZED_BYTES_PER_PROJECT`. -/
def maxOfflineBytes : ℤ := 5 * 1024 * 1024

/-- `OFFLINE_LEASE_DURATION_MS`. -/
def leaseDurationMs : ℤ := 5 * 60 * 1000

def maxEventAgeMs : ℤ := 7 * 24 * 60 * 60 * 1000

def maxEventFutureSkewMs : ℤ := 5 * 60 * 1000

def maxSafeInteger : ℤ := 2 ^ 53 - 1

/-! ## Validation -/

/-- A lowercase hexadecimal digit. -/
def isHex (c : Char) : Bool := c.isDigit || decide ('a' ≤ c ∧ c ≤ 'f')

/-- `CLAIM_OWNER_PATTERN`, one class of characters for each position. -/
def claimOwnerPattern : List (Char → Bool) :=
  "lease_".toList.map (fun c d => decide (c = d)) ++ List.replicate 8 isHex ++
    [(· == '-')] ++ List.replicate 4 isHex ++ [(· == '-'), (· == '4')] ++
    List.replicate 3 isHex ++ [(· == '-'), fun c => decide (c ∈ ['8', '9', 'a', 'b'])] ++
    List.replicate 3 isHex ++ [(· == '-')] ++ List.replicate 12 isHex

/-- `CLAIM_OWNER_PATTERN.test`. -/
def matchesClaimOwner (owner : String) : Bool :=
  decide (owner.toList.length = claimOwnerPattern.length) &&
    (claimOwnerPattern.zip owner.toList).all fun p => p.1 p.2

/-- `PROJECT_ID_PATTERN.test`. -/
def isProjectId (projectId : String) : Bool :=
  decide (1 ≤ projectId.toList.length ∧ projectId.toList.length ≤ 64) &&
    projectId.toList.all fun c => c.isAlphanum

section Records

variable {E : Type} (p : Platform E)

/-- `assertDeploymentStorageScope` does not throw. -/
def isDeploymentStorageScope (origin projectId : String) : Bool :=
  isProjectId projectId && p.isCanonicalOrigin origin

def isTrackEvent (reading : ℤ) (event : E) : Bool :=
  (p.canonicalizeTrackEvent reading event).isSome

def hasCanonicalClaimState (r : StoredOfflineEvent E) : Bool :=
  match r.claimOwner, r.claimExpiresAt with
  | none, none => true
  | some owner, some expiresAt =>
    matchesClaimOwner owner && decide (expiresAt ≤ maxSafeInteger ∧ 0 < expiresAt)
  | _, _ => false

/-- `isStoredOfflineEvent`, of a record with the given id. -/
def isStoredOfflineEvent (reading id : ℤ) (r : StoredOfflineEvent E) : Bool :=
  decide (0 < id) && decide (r.schemaVersion = recordSchemaVersion) && decide (0 < r.storedAt) &&
    decide (0 < r.serializedBytes) && hasCanonicalClaimState r && isTrackEvent p reading r.data &&
    isDeploymentStorageScope p r.deploymentOrigin r.projectId &&
    decide ((p.serializedEventBytes r.data).map Int.ofNat = some r.serializedBytes)

def classifyRecord (scope : Scope) (reading now id : ℤ) : Value E → RecordDisposition
  | none => .stale
  | some r =>
    if isStoredOfflineEvent p reading id r = false then .stale
    else if now + maxEventFutureSkewMs < r.storedAt ∨ maxEventAgeMs < now - r.storedAt then .stale
    else if r.deploymentOrigin = scope.deploymentOrigin ∧ r.projectId = scope.projectId then .current
    else .mismatched

def isClaimAvailable (r : StoredOfflineEvent E) (now : ℤ) : Bool :=
  match r.claimOwner, r.claimExpiresAt with
  | none, _ => true
  | some _, some expiresAt => decide (expiresAt ≤ now)
  | some _, none => false

/-- The record is leased by `owner`, and the lease has not expired: the test of `acknowledge`. -/
def holdsLease (owner : String) (now : ℤ) (r : StoredOfflineEvent E) : Bool :=
  decide (r.claimOwner = some owner) &&
    match r.claimExpiresAt with
    | some expiresAt => decide (now < expiresAt)
    | none => false

/-- `hasActiveLease`, under any owner. -/
def hasActiveLease (now : ℤ) (r : StoredOfflineEvent E) : Bool :=
  r.claimOwner.isSome &&
    match r.claimExpiresAt with
    | some expiresAt => decide (now < expiresAt)
    | none => false

/-- `createRecord`; `reading` is the clock of the validation and `storedAt` of the record. -/
def createRecord (scope : Scope) (reading storedAt : ℤ) (event : E) :
    Option (StoredOfflineEvent E) :=
  (p.canonicalizeTrackEvent reading event).bind fun canonical =>
    (p.serializedEventBytes canonical).map fun bytes =>
      { schemaVersion := recordSchemaVersion
        deploymentOrigin := scope.deploymentOrigin
        projectId := scope.projectId
        storedAt := storedAt
        serializedBytes := bytes
        claimOwner := none
        claimExpiresAt := none
        data := canonical }

/-! ## The methods on one record -/

/-- The record under a lease of `owner`. -/
def StoredOfflineEvent.lease (r : StoredOfflineEvent E) (owner : String) (expiresAt : ℤ) :
    StoredOfflineEvent E :=
  { r with claimOwner := some owner, claimExpiresAt := some expiresAt }

/-- The record without a lease. -/
def StoredOfflineEvent.unlease (r : StoredOfflineEvent E) : StoredOfflineEvent E :=
  { r with claimOwner := none, claimExpiresAt := none }

/-- The loop bodies of `claim` and `claimFallback`: `already` claims were made before the loop. -/
def claimVisit (tab : Tab) (limit already : ℕ) (now : ℤ) (clock : Clock) (claims : List (ℤ × E))
    (id : ℤ) (v : Value E) : List (ℤ × E) × Fate (Value E) :=
  match classifyRecord p tab.scope (clock 0 id) now id v, v with
  | .current, some r =>
    if claims.length + already < limit ∧ isClaimAvailable r now = true then
      -- `readCursorId`; the queue in memory has no such check, and no id that fails it
      if 0 < id then
        (claims ++ [(id, r.data)], .update (some (r.lease tab.owner (now + leaseDurationMs))))
      else (claims, .delete)
    else (claims, .keep)
  | .current, none => (claims, .keep)
  | .mismatched, _ => (claims, .keep)
  | .stale, _ => (claims, .delete)

/-- The test of `acknowledgeFallback`. -/
def acknowledges (tab : Tab) (now : ℤ) (clock : Clock) (id : ℤ) (v : Value E) : Bool :=
  match v with
  | none => false
  | some r =>
    decide (classifyRecord p tab.scope (clock 1 id) now id v = .current) &&
      holdsLease tab.owner now r

/-- The callback of `acknowledgeInDatabase`. -/
def acknowledgeFate (tab : Tab) (now : ℤ) (clock : Clock) (id : ℤ) (v : Value E) :
    Fate (Value E) :=
  match v with
  | none => .keep
  | some r =>
    if isStoredOfflineEvent p (clock 0 id) id r = true ∧ acknowledges p tab now clock id v = true
    then .delete
    else .keep

/-- The loop body of `acknowledgeFallback`; the accumulator is the number of records that went. -/
def acknowledgeFallbackVisit (tab : Tab) (ids : List ℤ) (now : ℤ) (clock : Clock) (gone : ℕ)
    (id : ℤ) (v : Value E) : ℕ × Fate (Value E) :=
  if id ∈ ids ∧ acknowledges p tab now clock id v = true then (gone + 1, .delete)
  else (gone, .keep)

/-- The test of `releaseFallback`. -/
def releases (tab : Tab) (now : ℤ) (clock : Clock) (id : ℤ) (v : Value E) : Bool :=
  match v with
  | none => false
  | some r =>
    decide (classifyRecord p tab.scope (clock 1 id) now id v = .current) &&
      decide (r.claimOwner = some tab.owner)

/-- The callback of `releaseInDatabase`. -/
def releaseFate (tab : Tab) (now : ℤ) (clock : Clock) (id : ℤ) (v : Value E) : Fate (Value E) :=
  match v with
  | none => .keep
  | some r =>
    if isStoredOfflineEvent p (clock 0 id) id r = true ∧ releases p tab now clock id v = true
    then .update (some r.unlease)
    else .keep

/-- The loop body of `releaseFallback`. -/
def releaseFallbackVisit (tab : Tab) (ids : List ℤ) (now : ℤ) (clock : Clock) (released : ℕ)
    (id : ℤ) (v : Value E) : ℕ × Fate (Value E) :=
  match v with
  | none => (released, .keep)
  | some r =>
    if id ∈ ids ∧ releases p tab now clock id v = true then (released + 1, .update (some r.unlease))
    else (released, .keep)

/-- The callback of `acknowledgeStoredInDatabase`. -/
def acknowledgeStoredVisit (tab : Tab) (messageIds : List String) (now : ℤ) (clock : Clock)
    (gone : ℕ) (id : ℤ) (v : Value E) : ℕ × Fate (Value E) :=
  match v with
  | none => (gone, .keep)
  | some r =>
    if isStoredOfflineEvent p (clock 0 id) id r = true ∧
        classifyRecord p tab.scope (clock 1 id) now id v = .current ∧
        p.messageId r.data ∈ messageIds
    then (gone + 1, .delete)
    else (gone, .keep)

/-- The filter of `acknowledgeStored` on the queue in memory. -/
def acknowledgeStoredFallbackVisit (messageIds : List String) (gone : ℕ) (_ : ℤ) (v : Value E) :
    ℕ × Fate (Value E) :=
  match v with
  | none => (gone, .keep)
  | some r => if p.messageId r.data ∈ messageIds then (gone + 1, .delete) else (gone, .keep)

/-- The callback of `clear`, and the filter of `clearFallback`. -/
def clearVisit (tab : Tab) (now : ℤ) (clock : Clock) (u : Unit) (id : ℤ) (v : Value E) :
    Unit × Fate (Value E) :=
  if classifyRecord p tab.scope (clock 0 id) now id v = .mismatched then (u, .keep)
  else (u, .delete)

/-- `OfflineEvictionReason`. -/
inductive EvictionReason
  | countLimit
  | byteLimit
  deriving DecidableEq, Repr

/-- What the bounds have retained and evicted so far, the newest record first. -/
structure Retained (E : Type) where
  count : ℕ
  bytes : ℤ
  evicted : List (ℤ × E × EvictionReason)

/-- Nothing is retained yet. -/
def Retained.none : Retained E := ⟨0, 0, []⟩

/-- One more record exceeds a bound. -/
def Retained.exceeds (acc : Retained E) (r : StoredOfflineEvent E) : Bool :=
  decide (maxOfflineEvents ≤ acc.count) || decide (maxOfflineBytes < acc.bytes + r.serializedBytes)

/-- The loop bodies of `enforceIndexedDBBounds` and `enforceFallbackBounds`. -/
def boundsVisit (tab : Tab) (now : ℤ) (clock : Clock) (acc : Retained E) (id : ℤ) (v : Value E) :
    Retained E × Fate (Value E) :=
  match classifyRecord p tab.scope (clock 0 id) now id v, v with
  | .stale, _ => (acc, .delete)
  | .current, some r =>
    if acc.exceeds r = true ∧ hasActiveLease now r = false then
      let reason := if maxOfflineEvents ≤ acc.count then EvictionReason.countLimit else .byteLimit
      ({ acc with evicted := acc.evicted ++ [(id, r.data, reason)] }, .delete)
    else
      ({ acc with count := acc.count + 1, bytes := acc.bytes + r.serializedBytes }, .keep)
  | .current, none => (acc, .keep)
  | .mismatched, _ => (acc, .keep)

end Records

/-! ## The object store and the queue in memory -/

/-- Rows in the order of a cursor. New rows are appended with the id `next`, which then moves by
`stride`: the key generator of the database counts up, `fallbackNextId` counts down. -/
structure Shelf (E : Type) (stride : ℤ) where
  rows : List (ℤ × Value E)
  next : ℤ
  sorted : (rows.map Prod.fst).Pairwise fun a b => stride * a < stride * b
  beyond : ∀ id ∈ rows.map Prod.fst, stride * id < stride * next

/-- The object store `events`. -/
abbrev Database (E : Type) := Shelf E 1

/-- `fallbackQueue` and `fallbackNextId`. -/
abbrev Memory (E : Type) := Shelf E (-1)

namespace Shelf

variable {E : Type} {stride : ℤ}

/-- A shelf without rows. -/
def empty (next : ℤ) : Shelf E stride := ⟨[], next, List.Pairwise.nil, by simp⟩

/-- Some of the rows, with new values. -/
def withRows (s : Shelf E stride) (rows : List (ℤ × Value E))
    (h : (rows.map Prod.fst).Sublist (s.rows.map Prod.fst)) : Shelf E stride :=
  ⟨rows, s.next, s.sorted.sublist h, fun id hid => s.beyond id (h.subset hid)⟩

/-- A cursor from the first row to the last. -/
def walk {σ : Type} (s : Shelf E stride) (visit : σ → ℤ → Value E → σ × Fate (Value E)) (acc : σ) :
    σ × Shelf E stride :=
  ((Cursor.walk visit acc s.rows).1,
    s.withRows (Cursor.walk visit acc s.rows).2 (Cursor.walk_keys acc s.rows))

/-- A cursor from the last row to the first. -/
def walkBack {σ : Type} (s : Shelf E stride) (visit : σ → ℤ → Value E → σ × Fate (Value E))
    (acc : σ) : σ × Shelf E stride :=
  ((Cursor.walk visit acc s.rows.reverse).1,
    s.withRows (Cursor.walk visit acc s.rows.reverse).2.reverse
      (Cursor.walk_reverse_keys acc s.rows))

/-- A `get` of each id, with what its callback does. -/
def touch (s : Shelf E stride) (fate : ℤ → Value E → Fate (Value E)) (ids : List ℤ) :
    ℕ × Shelf E stride :=
  ((Cursor.touch fate ids s.rows).1,
    s.withRows (Cursor.touch fate ids s.rows).2 (Cursor.touch_keys ids s.rows))

lemma sorted_add (s : Shelf E stride) (r : StoredOfflineEvent E) :
    ((s.rows ++ [(s.next, some r)]).map Prod.fst).Pairwise fun a b => stride * a < stride * b := by
  rw [List.map_append, List.pairwise_append]
  refine ⟨s.sorted, List.pairwise_singleton _ _, fun a ha b hb => ?_⟩
  simp only [List.map_cons, List.map_nil, List.mem_singleton] at hb
  exact hb ▸ s.beyond a ha

lemma beyond_add (hstride : 0 < stride * stride) (s : Shelf E stride) (r : StoredOfflineEvent E) :
    ∀ id ∈ (s.rows ++ [(s.next, some r)]).map Prod.fst, stride * id < stride * (s.next + stride) := by
  intro id hid
  rw [mul_add]
  rw [List.map_append, List.mem_append] at hid
  rcases hid with hid | hid
  · have hlt := s.beyond id hid
    omega
  · simp only [List.map_cons, List.map_nil, List.mem_singleton] at hid
    rw [hid]
    omega

lemma database_stride : (0 : ℤ) < 1 * 1 := by decide

lemma memory_stride : (0 : ℤ) < -1 * -1 := by decide

/-- A new record with the next id. -/
def add (hstride : 0 < stride * stride) (s : Shelf E stride) (r : StoredOfflineEvent E) :
    Shelf E stride where
  rows := s.rows ++ [(s.next, some r)]
  next := s.next + stride
  sorted := s.sorted_add r
  beyond := beyond_add hstride s r

/-- New records, one after the other. -/
def addAll (hstride : 0 < stride * stride) (s : Shelf E stride)
    (records : List (StoredOfflineEvent E)) : Shelf E stride :=
  records.foldl (add hstride) s

end Shelf

/-! ## The methods -/

section Methods

variable {E : Type} (p : Platform E)

/-- `enforceIndexedDBBounds` and `enforceFallbackBounds`. -/
def enforceBounds {stride : ℤ} (tab : Tab) (now : ℤ) (clock : Clock) (s : Shelf E stride) :
    Retained E × Shelf E stride :=
  s.walkBack (boundsVisit p tab now clock) Retained.none

/-- `claimFallback`, and the cursor of `claim`. -/
def claimRecords {stride : ℤ} (tab : Tab) (limit already : ℕ) (now : ℤ) (clock : Clock)
    (s : Shelf E stride) : List (ℤ × E) × Shelf E stride :=
  s.walk (claimVisit p tab limit already now clock) []

def acknowledgeFallback (tab : Tab) (ids : List ℤ) (now : ℤ) (clock : Clock) (m : Memory E) :
    ℕ × Memory E :=
  m.walk (acknowledgeFallbackVisit p tab ids now clock) 0

/-- The transaction of `acknowledgeInDatabase`. -/
def acknowledgeInDatabase (tab : Tab) (ids : List ℤ) (now : ℤ) (clock : Clock) (db : Database E) :
    ℕ × Database E :=
  db.touch (acknowledgeFate p tab now clock) ids

def releaseFallback (tab : Tab) (ids : List ℤ) (now : ℤ) (clock : Clock) (m : Memory E) :
    ℕ × Memory E :=
  m.walk (releaseFallbackVisit p tab ids now clock) 0

/-- The transaction of `releaseInDatabase`. -/
def releaseInDatabase (tab : Tab) (ids : List ℤ) (now : ℤ) (clock : Clock) (db : Database E) :
    ℕ × Database E :=
  db.touch (releaseFate p tab now clock) ids

/-- The filter of `acknowledgeStored`. -/
def acknowledgeStoredFallback (messageIds : List String) (m : Memory E) : ℕ × Memory E :=
  m.walk (acknowledgeStoredFallbackVisit p messageIds) 0

/-- The transaction of `acknowledgeStoredInDatabase`. -/
def acknowledgeStoredInDatabase (tab : Tab) (messageIds : List String) (now : ℤ) (clock : Clock)
    (db : Database E) : ℕ × Database E :=
  db.walk (acknowledgeStoredVisit p tab messageIds now clock) 0

/-- `clearFallback`, and the cursor of `clear`. -/
def clearRecords {stride : ℤ} (tab : Tab) (now : ℤ) (clock : Clock) (s : Shelf E stride) :
    Shelf E stride :=
  (s.walk (clearVisit p tab now clock) ()).2

/-- `normalizeRecordIds`; `none` where it throws. -/
def normalizeRecordIds (recordIds : List ℤ) : Option (List ℤ) :=
  if ∀ id ∈ recordIds, 1 ≤ id ∧ id ≤ maxSafeInteger then some recordIds.reverse.dedup.reverse
  else none

/-- What `String.prototype.trim` strips: white space and line terminators. -/
def isTrimmed (c : Char) : Bool :=
  decide (c.toNat ∈ [0x9, 0xA, 0xB, 0xC, 0xD, 0x20, 0xA0, 0x1680, 0x2028, 0x2029, 0x202F, 0x205F,
    0x3000, 0xFEFF] ∨ (0x2000 ≤ c.toNat ∧ c.toNat ≤ 0x200A))

/-- `normalizeMessageIds`; `none` where it throws. -/
def normalizeMessageIds (messageIds : List String) : Option (List String) :=
  if ∀ id ∈ messageIds, id.toList.all isTrimmed = false then some messageIds else none

/-- `durability` of a stored event. -/
inductive Durability
  | durable
  | memory
  deriving DecidableEq, Repr

/-- `OfflineStoreResult`; the rejected events are all invalid ones. -/
structure StoreResult (E : Type) where
  stored : List (E × Durability)
  evicted : List (E × EvictionReason)
  rejected : List E

/-- The result of a store that put the candidates on a shelf from the id `first` on and then
enforced the bounds; the evicted records are reported oldest first. -/
def storeResult (stride first : ℤ) (candidates : List (StoredOfflineEvent E)) (rejected : List E)
    (durability : Durability) (evicted : List (ℤ × E × EvictionReason)) : StoreResult E where
  stored := (candidates.zipIdx.filter fun c =>
    decide (first + stride * c.2 ∉ evicted.map Prod.fst)).map fun c => (c.1.data, durability)
  evicted := (evicted.map Prod.snd).reverse
  rejected := rejected

def storeInFallback (tab : Tab) (candidates : List (StoredOfflineEvent E)) (rejected : List E)
    (now : ℤ) (clock : Clock) (m : Memory E) : StoreResult E × Memory E :=
  let bounded := enforceBounds p tab now clock (m.addAll Shelf.memory_stride candidates)
  (storeResult (-1) m.next candidates rejected .memory bounded.1.evicted, bounded.2)

/-- The transaction of `storeInDatabase`. -/
def storeInDatabase (tab : Tab) (candidates : List (StoredOfflineEvent E)) (rejected : List E)
    (deferBounds : Bool) (now : ℤ) (clock : Clock) (db : Database E) :
    StoreResult E × Database E :=
  let added := db.addAll Shelf.database_stride candidates
  if deferBounds then (storeResult 1 db.next candidates rejected .durable [], added)
  else
    let bounded := enforceBounds p tab now clock added
    (storeResult 1 db.next candidates rejected .durable bounded.1.evicted, bounded.2)

/-- The candidates and the rejected events of `store`. -/
def createRecords (scope : Scope) (clock : Clock) (events : List E) :
    List (StoredOfflineEvent E) × List E :=
  (events.zipIdx.filterMap fun e => createRecord p scope (clock 0 e.2) (clock 1 e.2) e.1,
    (events.zipIdx.filter fun e =>
      (createRecord p scope (clock 0 e.2) (clock 1 e.2) e.1).isNone).map Prod.fst)

end Methods

/-! ## Calls and transactions -/

/-- A call that has read the clock and worked on the queue in memory, with what its transaction
needs. -/
inductive Call (E : Type)
  | store (candidates : List (StoredOfflineEvent E)) (rejected : List E) (deferBounds : Bool)
  | claim (limit : ℕ) (now : ℤ) (memoryClaims : List (ℤ × E))
  | acknowledge (ids : List ℤ) (now : ℤ) (fallbackAcknowledged : ℕ)
  | acknowledgeStored (messageIds : List String) (fallbackAcknowledged : ℕ)
  | release (ids : List ℤ) (now : ℤ) (fallbackReleased : ℕ)
  | clear (now : ℤ)

/-- What a method returns. -/
inductive Result (E : Type)
  | stored (result : StoreResult E)
  | claimed (claims : List (ℤ × E))
  | acknowledged (count : ℕ)
  | released (count : ℕ)
  | cleared

/-- The storages of all tabs. -/
structure State (E : Type) where
  database : Database E
  memory : Tab → Memory E
  calls : List (Tab × Call E)
  results : List (Tab × Result E)

/-- Calls of methods, and the transactions of calls under way. -/
inductive Act (E : Type)
  | store (tab : Tab) (events : List E) (deferBounds : Bool) (clock : Clock)
  | claim (tab : Tab) (limit : ℤ) (now : ℤ) (clock : Clock)
  | acknowledge (tab : Tab) (recordIds : List ℤ) (now : ℤ) (clock : Clock)
  | acknowledgeStored (tab : Tab) (messageIds : List String)
  | release (tab : Tab) (recordIds : List ℤ) (now : ℤ) (clock : Clock)
  | clear (tab : Tab) (now : ℤ) (clock : Clock)
  /-- The transaction of the `i`-th call commits; `now` is a reading at its start. -/
  | commit (i : ℕ) (now : ℤ) (clock : Clock)
  /-- There is no database for the `i`-th call, or its transaction fails. -/
  | fail (i : ℕ) (now : ℤ) (clock : Clock)

namespace State

variable {E : Type} (p : Platform E)

/-- The queue of one tab changes. -/
def setMemory (s : State E) (tab : Tab) (m : Memory E) : State E :=
  { s with memory := Function.update s.memory tab m }

def setDatabase (s : State E) (db : Database E) : State E := { s with database := db }

/-- A call waits for its transaction. -/
def await (s : State E) (tab : Tab) (call : Call E) : State E :=
  { s with calls := s.calls ++ [(tab, call)] }

/-- A call returns. -/
def resolve (s : State E) (tab : Tab) (result : Result E) : State E :=
  { s with results := s.results ++ [(tab, result)] }

/-- The `i`-th call is taken up. -/
def take (s : State E) (i : ℕ) : State E := { s with calls := s.calls.eraseIdx i }

/-- The transaction of a call. -/
def commit (s : State E) (tab : Tab) (now : ℤ) (clock : Clock) : Call E → Option (State E)
  | .store candidates rejected deferBounds =>
    -- an id that is not a positive safe integer aborts the transaction
    if 0 < s.database.next ∧ s.database.next + candidates.length - 1 ≤ maxSafeInteger then
      let stored := storeInDatabase p tab candidates rejected deferBounds now clock s.database
      some ((s.setDatabase stored.2).resolve tab (.stored stored.1))
    else none
  | .claim limit calledAt memoryClaims =>
    let claimed := claimRecords p tab limit memoryClaims.length calledAt clock s.database
    some ((s.setDatabase claimed.2).resolve tab (.claimed (memoryClaims ++ claimed.1)))
  | .acknowledge ids calledAt fallbackAcknowledged =>
    let gone := acknowledgeInDatabase p tab ids calledAt clock s.database
    some ((s.setDatabase gone.2).resolve tab (.acknowledged (fallbackAcknowledged + gone.1)))
  | .acknowledgeStored messageIds fallbackAcknowledged =>
    let gone := acknowledgeStoredInDatabase p tab messageIds now clock s.database
    some ((s.setDatabase gone.2).resolve tab (.acknowledged (fallbackAcknowledged + gone.1)))
  | .release ids calledAt fallbackReleased =>
    let freed := releaseInDatabase p tab ids calledAt clock s.database
    some ((s.setDatabase freed.2).resolve tab (.released (fallbackReleased + freed.1)))
  | .clear calledAt =>
    some ((s.setDatabase (clearRecords p tab calledAt clock s.database)).resolve tab .cleared)

/-- A call without its transaction. -/
def fail (s : State E) (tab : Tab) (now : ℤ) (clock : Clock) : Call E → State E
  | .store candidates rejected _ =>
    let stored := storeInFallback p tab candidates rejected now clock (s.memory tab)
    (s.setMemory tab stored.2).resolve tab (.stored stored.1)
  | .claim _ _ memoryClaims => s.resolve tab (.claimed memoryClaims)
  | .acknowledge _ _ fallbackAcknowledged | .acknowledgeStored _ fallbackAcknowledged =>
    s.resolve tab (.acknowledged fallbackAcknowledged)
  | .release _ _ fallbackReleased => s.resolve tab (.released fallbackReleased)
  | .clear _ => s.resolve tab .cleared

/-- One step; `none` where the method throws or there is no such call. -/
def step (s : State E) : Act E → Option (State E)
  | .store tab events deferBounds clock =>
    let created := createRecords p tab.scope clock events
    some (if created.1 = [] then s.resolve tab (.stored ⟨[], [], created.2⟩)
      else s.await tab (.store created.1 created.2 deferBounds))
  | .claim tab limit now clock =>
    -- `assertClaimLimit`
    if 1 ≤ limit ∧ limit ≤ maxOfflineEvents then
      let claimed := claimRecords p tab limit.toNat 0 now clock (s.memory tab)
      let s := s.setMemory tab claimed.2
      some (if limit.toNat ≤ claimed.1.length then s.resolve tab (.claimed claimed.1)
        else s.await tab (.claim limit.toNat now claimed.1))
    else none
  | .acknowledge tab recordIds now clock =>
    (normalizeRecordIds recordIds).map fun ids =>
      if ids = [] then s.resolve tab (.acknowledged 0)
      else
        let gone := acknowledgeFallback p tab ids now clock (s.memory tab)
        (s.setMemory tab gone.2).await tab (.acknowledge ids now gone.1)
  | .acknowledgeStored tab messageIds =>
    (normalizeMessageIds messageIds).map fun ids =>
      if ids = [] then s.resolve tab (.acknowledged 0)
      else
        let gone := acknowledgeStoredFallback p ids (s.memory tab)
        (s.setMemory tab gone.2).await tab (.acknowledgeStored ids gone.1)
  | .release tab recordIds now clock =>
    (normalizeRecordIds recordIds).map fun ids =>
      if ids = [] then s.resolve tab (.released 0)
      else
        let freed := releaseFallback p tab ids now clock (s.memory tab)
        (s.setMemory tab freed.2).await tab (.release ids now freed.1)
  | .clear tab now clock =>
    some ((s.setMemory tab (clearRecords p tab now clock (s.memory tab))).await tab (.clear now))
  | .commit i now clock =>
    match s.calls[i]? with
    | some (tab, call) => (s.take i).commit p tab now clock call
    | none => none
  | .fail i now clock =>
    match s.calls[i]? with
    | some (tab, call) => some ((s.take i).fail p tab now clock call)
    | none => none

/-- The tabs start with empty queues over what the database holds from earlier. -/
def initial (db : Database E) : State E :=
  { database := db, memory := fun _ => Shelf.empty maxSafeInteger, calls := [], results := [] }

end State

/-- The runs of all tabs over one database. -/
def machine {E : Type} (p : Platform E) (db : Database E) : StepMachine (State E) (Act E) :=
  ⟨State.initial db, State.step p⟩

end Apdl.Sdk.Offline
