import Apdl.Lib.StepMachine
import Mathlib.Data.Rat.Floor
import Mathlib.Data.List.Dedup

set_option autoImplicit false

/-!
# Hierarchical quotas of the ingestion service

Every request to `POST /v1/events` pays up to four times: before authentication, as a request, for
its bytes and for its events. Each time a Redis script debits several token buckets at once. This
file models the bucket lists of the four stages, the script, and Redis with its clock and key
expiry.

## Main definitions

* `State.admitBuckets` — `_admit`, up to the HTTP response.

## Design

Numbers of the script are rationals, so its arithmetic is exact. A credential has one kind, as its
row in the registry has; the hash of a credential determines its kind, as SHA-256 is taken to be
free of collisions. A body that is charged is within the bound that was checked when it was read,
and a batch that is charged was validated before.
-/

namespace Apdl.Ingest.RateLimit

structure BucketLimit where
  capacity : ℕ
  refillPerSecond : ℕ
  deriving DecidableEq, Repr

structure BucketDebit where
  key : String
  limit : BucketLimit
  cost : ℕ
  deriving DecidableEq, Repr

inductive CredentialKind
  | confidential
  | browser
  deriving DecidableEq, Repr

/-! ## Limits -/

def globalRequestLimit : BucketLimit := ⟨100000, 10000⟩

def projectRequestLimit : BucketLimit := ⟨1000, 100⟩

def confidentialRequestLimit : BucketLimit := ⟨1000, 100⟩

def browserRequestLimit : BucketLimit := ⟨200, 20⟩

def ipRequestLimit : BucketLimit := ⟨500, 50⟩

def globalByteLimit : BucketLimit := ⟨100000, 10000⟩

def projectByteLimit : BucketLimit := ⟨1000, 100⟩

def confidentialByteLimit : BucketLimit := ⟨1000, 100⟩

def browserByteLimit : BucketLimit := ⟨512, 20⟩

def ipByteLimit : BucketLimit := ⟨1000, 50⟩

def globalEventLimit : BucketLimit := ⟨100000, 10000⟩

def projectEventLimit : BucketLimit := ⟨1000, 100⟩

def confidentialEventLimit : BucketLimit := ⟨1000, 100⟩

def browserEventLimit : BucketLimit := ⟨200, 20⟩

def ipEventLimit : BucketLimit := ⟨500, 50⟩

def identityEventLimit : BucketLimit := ⟨200, 20⟩

def preauthGlobalRequestLimit : BucketLimit := ⟨2000, 200⟩

def preauthIpRequestLimit : BucketLimit := ⟨100, 10⟩

def maxRequestBytes : ℕ := 512 * 1024

def maxBatchSize : ℕ := 100

def ttlSeconds (limit : BucketLimit) : ℕ :=
  max (⌈(limit.capacity : ℚ) / limit.refillPerSecond⌉.toNat * 2) 60

def byteCost (serializedBytes : ℕ) : ℕ := max 1 (⌈(serializedBytes : ℚ) / 1024⌉.toNat)

/-! ## Buckets -/

/-- Hashing and the credential registry. -/
structure Env where
  hashBucketIdentifier : String → String → String
  kindOf : String → CredentialKind
  kindOf_eq : ∀ id id',
    hashBucketIdentifier "credential" id = hashBucketIdentifier "credential" id' →
      kindOf id = kindOf id'

/-- `Principal`, as far as quotas read it. -/
structure Principal where
  credentialId : String
  projectId : String

/-- What `_identity_costs` reads of an event. -/
structure EventIds where
  /-- `anonymous_id`, if it is a string. -/
  anonymousId : Option String
  userId : String

/-- The name of a bucket after `apdl:rate:`. -/
inductive Stage
  | preauth
  | request
  | byte
  | event
  deriving DecidableEq, Repr

/-- What a bucket limits. -/
inductive Scope
  | global
  | project (id : String)
  | credential (hash : String)
  | ip (hash : String)
  | identity (hash : String)
  deriving DecidableEq, Repr

def Stage.text : Stage → String
  | .preauth => "preauth"
  | .request => "request"
  | .byte => "byte"
  | .event => "event"

def Scope.text : Scope → String
  | .global => "global"
  | .project id => "project:" ++ id
  | .credential hash => "credential:" ++ hash
  | .ip hash => "ip:" ++ hash
  | .identity hash => "identity:" ++ hash

def keyText (stage : Stage) (scope : Scope) : String :=
  "apdl:rate:" ++ stage.text ++ ":" ++ scope.text

def credentialLimit (kind : CredentialKind) (confidential browser : BucketLimit) : BucketLimit :=
  if kind = .confidential then confidential else browser

def commonBuckets (env : Env) (stage : Stage) (principal : Principal) (clientIp : String)
    (cost : ℕ) (globalLimit projectLimit confidentialLimit browserLimit ipLimit : BucketLimit) :
    List BucketDebit :=
  let credentialHash := env.hashBucketIdentifier "credential" principal.credentialId
  let ipHash := env.hashBucketIdentifier "ip" clientIp
  [⟨keyText stage .global, globalLimit, cost⟩,
    ⟨keyText stage (.project principal.projectId), projectLimit, cost⟩,
    ⟨keyText stage (.credential credentialHash),
      credentialLimit (env.kindOf principal.credentialId) confidentialLimit browserLimit, cost⟩,
    ⟨keyText stage (.ip ipHash), ipLimit, cost⟩]

/-- The hash that `_identity_costs` counts for an event. -/
def identityHash (env : Env) (projectId : String) (event : EventIds) : String :=
  let identity := match event.anonymousId with
    | some anonymousId => "anonymous_id\x00" ++ anonymousId
    | none => "user_id\x00" ++ event.userId
  env.hashBucketIdentifier "identity" (projectId ++ "\x00" ++ identity)

/-- The sorted items of `_identity_costs`. -/
def identityCosts (env : Env) (projectId : String) (events : List EventIds) : List (String × ℕ) :=
  let hashes := events.map (identityHash env projectId)
  (hashes.dedup.mergeSort fun h h' => decide (h ≤ h')).map fun hash => (hash, hashes.count hash)

/-- A call of one of the four admission functions. -/
inductive Check
  /-- `admit_pre_auth_request`. -/
  | preAuth (clientIp : String)
  /-- `admit_request`. -/
  | request (principal : Principal) (clientIp : String)
  /-- `admit_bytes`, for a body that was read. -/
  | bytes (principal : Principal) (clientIp : String)
      (serializedBytes : {n : ℕ // n ≤ maxRequestBytes})
  /-- `admit_events`, for a batch that is valid. -/
  | events (principal : Principal) (clientIp : String)
      (batch : {l : List EventIds // l ≠ [] ∧ l.length ≤ maxBatchSize})

/-- The buckets that a call debits. -/
def Check.buckets (env : Env) : Check → List BucketDebit
  | .preAuth clientIp =>
    let ipHash := env.hashBucketIdentifier "ip" clientIp
    [⟨keyText .preauth .global, preauthGlobalRequestLimit, 1⟩,
      ⟨keyText .preauth (.ip ipHash), preauthIpRequestLimit, 1⟩]
  | .request principal clientIp =>
    commonBuckets env .request principal clientIp 1 globalRequestLimit projectRequestLimit
      confidentialRequestLimit browserRequestLimit ipRequestLimit
  | .bytes principal clientIp serializedBytes =>
    commonBuckets env .byte principal clientIp (byteCost serializedBytes) globalByteLimit
      projectByteLimit confidentialByteLimit browserByteLimit ipByteLimit
  | .events principal clientIp batch =>
    commonBuckets env .event principal clientIp batch.1.length globalEventLimit projectEventLimit
      confidentialEventLimit browserEventLimit ipEventLimit ++
    (identityCosts env principal.projectId batch.1).map fun item =>
      ⟨keyText .event (.identity item.1), identityEventLimit, item.2⟩

def Check.quotaName : Check → String
  | .preAuth .. => "Pre-authentication request"
  | .request .. => "Request"
  | .bytes .. => "Byte"
  | .events .. => "Event"

/-! ## The script -/

/-- A bucket in Redis: the fields of its hash, and when the key expires. -/
structure Cell where
  tokens : ℚ
  updatedAtMs : ℕ
  expireAtMs : ℕ

/-- The keys of Redis. -/
abbrev Store := String → Option Cell

/-- `HSET` and `EXPIRE`. -/
def Store.set (store : Store) (key : String) (cell : Cell) : Store :=
  fun key' => if key' = key then some cell else store key'

/-- A key expires. -/
def Store.del (store : Store) (key : String) : Store :=
  fun key' => if key' = key then none else store key'

/-- The four numbers that `_admit` passes for a bucket, with its key. -/
structure Argument where
  key : String
  capacity : ℕ
  refillPerSecond : ℕ
  cost : ℕ
  ttlSeconds : ℕ

def BucketDebit.argument (d : BucketDebit) : Argument :=
  ⟨d.key, d.limit.capacity, d.limit.refillPerSecond, d.cost, ttlSeconds d.limit⟩

/-- The level of a bucket as the first loop of the script computes it. -/
def candidateTokens (nowMs : ℕ) (store : Store) (a : Argument) : ℚ :=
  let tokens : ℚ := (store a.key).elim a.capacity Cell.tokens
  let updatedAtMs : ℕ := (store a.key).elim nowMs Cell.updatedAtMs
  let elapsedMs : ℕ := nowMs - updatedAtMs
  min a.capacity (tokens + elapsedMs * a.refillPerSecond / 1000)

/-- What the script returns. -/
structure Reply where
  allowed : Bool
  limit : ℕ
  remaining : ℤ
  retryAfter : ℤ
  deriving DecidableEq, Repr

/-- The first loop for one bucket: `rejected_limit`, `rejected_remaining` and
`rejected_retry_after`. -/
def rejectStep (nowMs : ℕ) (store : Store) (rejected : Reply) (a : Argument) : Reply :=
  let tokens := candidateTokens nowMs store a
  if tokens < a.cost then
    let retryAfter := max ⌈((a.cost : ℚ) - tokens) / a.refillPerSecond⌉ 1
    if rejected.retryAfter < retryAfter then ⟨false, a.capacity, ⌊tokens⌋, retryAfter⟩ else rejected
  else rejected

/-- The second loop: every bucket is written, from the levels of the first loop. -/
def debitAll (nowMs : ℕ) (before : Store) (store : Store) (arguments : List Argument) : Store :=
  arguments.foldl (fun store a => store.set a.key
    ⟨candidateTokens nowMs before a - a.cost, nowMs, nowMs + a.ttlSeconds * 1000⟩) store

/-- The second loop: `minimum_limit` and `minimum_remaining`. -/
def minimumStep (nowMs : ℕ) (store : Store) (minimum : Option (ℕ × ℤ)) (a : Argument) :
    Option (ℕ × ℤ) :=
  let remaining := ⌊candidateTokens nowMs store a - a.cost⌋
  match minimum with
  | none => some (a.capacity, remaining)
  | some (limit, least) =>
    if remaining < least then some (a.capacity, remaining) else some (limit, least)

def script (nowMs : ℕ) (store : Store) (arguments : List Argument) : Store × Reply :=
  let rejected := arguments.foldl (rejectStep nowMs store) ⟨false, 0, 0, 0⟩
  if 0 < rejected.retryAfter then (store, rejected)
  else
    let minimum := arguments.foldl (minimumStep nowMs store) none
    (debitAll nowMs store store arguments,
      ⟨true, minimum.elim 0 Prod.fst, minimum.elim 0 Prod.snd, 0⟩)

/-! ## The service and Redis -/

/-- The HTTP responses of `_admit`. -/
inductive Response
  | rateLimited (message : String) (retryAfter : ℤ) (limit : ℕ) (remaining : ℤ)
  | unavailable
  deriving DecidableEq, Repr

/-- One execution of the script that debited its buckets. -/
structure Entry where
  timeUs : ℕ
  debits : List BucketDebit

/-- Redis, its clock in microseconds, and what was debited. -/
structure State where
  timeUs : ℕ
  store : Store
  log : List Entry

/-- `now_ms` of the script. -/
def nowMs (timeUs : ℕ) : ℕ := timeUs / 1000

/-- What becomes of a call of the script. -/
inductive Delivery
  | answered
  | lost
  | unreachable
  deriving DecidableEq, Repr

/-- `_admit`: what Redis is afterwards, and the response if there is one. -/
def State.admitBuckets (env : Env) (s : State) (check : Check) : Delivery → State × Option Response
  | .unreachable => (s, some .unavailable)
  | delivery =>
    let buckets := check.buckets env
    let result := script (nowMs s.timeUs) s.store (buckets.map BucketDebit.argument)
    let s' : State := { s with
      store := result.1
      log := if result.2.allowed then s.log ++ [⟨s.timeUs, buckets⟩] else s.log }
    if delivery = .lost then (s', some .unavailable)
    else if result.2.allowed then (s', none)
    else (s', some (.rateLimited (check.quotaName ++ " quota exceeded") (max result.2.retryAfter 1)
      result.2.limit (max result.2.remaining 0)))

/-- What happens next. -/
inductive Act
  /-- Time passes. -/
  | tick (us : ℕ)
  | check (check : Check) (delivery : Delivery)
  /-- A key whose time to live has passed is gone. -/
  | expire (key : String)

def State.step (env : Env) (s : State) : Act → Option State
  | .tick us => some { s with timeUs := s.timeUs + us }
  | .check check delivery => some (s.admitBuckets env check delivery).1
  | .expire key =>
    (s.store key).bind fun cell =>
      if cell.expireAtMs ≤ nowMs s.timeUs then some { s with store := s.store.del key } else none

/-- Redis without keys, at any time. -/
def machine (env : Env) (start : ℕ) : StepMachine State Act :=
  ⟨⟨start, fun _ => none, []⟩, State.step env⟩

end Apdl.Ingest.RateLimit
