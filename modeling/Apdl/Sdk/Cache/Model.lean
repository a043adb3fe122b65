import Mathlib.Algebra.Order.Ring.Unbundled.Rat
import Mathlib.Logic.Function.Basic
import Apdl.Lib.StepMachine
import Apdl.Flags.Evaluator

set_option autoImplicit false

/-!
# The JavaScript SDK's flag cache

`FlagCache`: the active flags with their sources, the keys marked invalid, and the ledger of the
highest version observed for each key. Snapshots replace the active flags as a whole, events update
one key if their version is newer.

## Main definitions

* `machine` — a cache in use, from its construction.

## Design

A map is a function to `Option`; the order of insertion only shows in the order of listings.
Versions that callers pass in are numbers that need not be integers. Listeners and the writing of
the storage read the cache and are left out: a restore takes whatever the storage may hold.
-/

namespace Apdl.Sdk.Cache

open Flags (ClientFlagConfig isIdentifier)

/-- `FlagConfigSource`. -/
inductive Source
  | memory
  | initialFetch
  | sse
  | localStorage
  | server
  deriving DecidableEq, Repr

structure FlagCache where
  flags : Text → Option ClientFlagConfig
  sources : Text → Option Source
  invalidSources : Text → Option Source
  authoritativeVersions : Text → Option ℚ
  /-- The mutation counter. -/
  version : ℕ

/-- What `parseFlagConfigResult` returns for a payload: flags it accepts, and the keys of records
that it could name and not accept. A key may be listed more than once. -/
structure ParseResult where
  flags : List ClientFlagConfig
  invalidKeys : List Text
  flags_valid : ∀ f ∈ flags, Flags.JavaScript.isFlagConfig f = true
  keys_valid : ∀ k ∈ invalidKeys, isIdentifier Text.unitLength k = true

/-- What the storage may hold: flags and a record of versions. -/
structure Persisted where
  flags : List ClientFlagConfig
  versions : List (Text × ℚ)
  versions_nodup : (versions.map Prod.fst).Nodup

def isPositiveInteger (v : ℚ) : Bool := v.isInt && decide (1 ≤ v)

namespace FlagCache

variable (c : FlagCache)

/-- A new cache. -/
def empty : FlagCache where
  flags := fun _ => none
  sources := fun _ => none
  invalidSources := fun _ => none
  authoritativeVersions := fun _ => none
  version := 0

def isNewerVersion (key : Text) (version : ℚ) : Bool :=
  isPositiveInteger version && decide ((c.authoritativeVersions key).getD 0 < version)

def upsertIfNewer (flag : ClientFlagConfig) (authoritativeVersion : ℚ) (source : Source) :
    FlagCache :=
  if (flag.version : ℚ) ≠ authoritativeVersion ∨
      c.isNewerVersion flag.key authoritativeVersion = false then c
  else
    { flags := Function.update c.flags flag.key (some flag)
      sources := Function.update c.sources flag.key (some source)
      invalidSources := Function.update c.invalidSources flag.key none
      authoritativeVersions :=
        Function.update c.authoritativeVersions flag.key (some authoritativeVersion)
      version := c.version + 1 }

def removeIfNewer (key : Text) (authoritativeVersion : ℚ) : FlagCache :=
  if c.isNewerVersion key authoritativeVersion = false then c
  else
    { flags := Function.update c.flags key none
      sources := Function.update c.sources key none
      invalidSources := Function.update c.invalidSources key none
      authoritativeVersions := Function.update c.authoritativeVersions key (some authoritativeVersion)
      version := c.version + 1 }

def markInvalidIfNewer (key : Text) (authoritativeVersion : ℚ) (source : Source) : FlagCache :=
  if c.isNewerVersion key authoritativeVersion = false then c
  else
    { flags := Function.update c.flags key none
      sources := Function.update c.sources key none
      invalidSources := Function.update c.invalidSources key (some source)
      authoritativeVersions := Function.update c.authoritativeVersions key (some authoritativeVersion)
      version := c.version + 1 }

/-! ## Whole-cache operations -/

/-- The loop of `markInvalid`. -/
def invalidate (source : Source) (c : FlagCache) (key : Text) : FlagCache :=
  { c with
    flags := Function.update c.flags key none
    sources := Function.update c.sources key none
    invalidSources := Function.update c.invalidSources key (some source) }

/-- `markInvalid`. The ledger stays as it is. -/
def markInvalid (keys : List Text) (source : Source) : FlagCache :=
  let c := keys.foldl (invalidate source) c
  { c with version := c.version + 1 }

/-- The maps that the loop of `set` fills: the ledger and the next active flags. -/
structure Next where
  authoritativeVersions : Text → Option ℚ
  flags : Text → Option ClientFlagConfig
  sources : Text → Option Source

/-- The loop of `set`. A flag that does not advance the ledger keeps the active flag that the key
had before the snapshot. -/
def setFlag (source : Source) (next : Next) (flag : ClientFlagConfig) : Next :=
  if ∃ known ∈ next.authoritativeVersions flag.key, (flag.version : ℚ) ≤ known then
    match c.flags flag.key with
    | some previous =>
      { next with
        flags := Function.update next.flags flag.key (some previous)
        sources :=
          Function.update next.sources flag.key (some ((c.sources flag.key).getD source)) }
    | none => next
  else
    { authoritativeVersions :=
        Function.update next.authoritativeVersions flag.key (some (flag.version : ℚ))
      flags := Function.update next.flags flag.key (some flag)
      sources := Function.update next.sources flag.key (some source) }

/-- The maps after the loop of `set`. -/
def nextOf (flags : List ClientFlagConfig) (source : Source) : Next :=
  flags.foldl (c.setFlag source)
    { authoritativeVersions := c.authoritativeVersions, flags := fun _ => none,
      sources := fun _ => none }

def set (flags : List ClientFlagConfig) (source : Source) (invalidKeys : List Text) : FlagCache :=
  let next := c.nextOf flags source
  { flags := next.flags
    sources := fun key => (next.flags key).map fun _ => (next.sources key).getD source
    invalidSources := invalidKeys.foldl (fun m key => Function.update m key (some source)) fun _ => none
    authoritativeVersions := next.authoritativeVersions
    version := c.version + 1 }

def clear : FlagCache := { empty with version := c.version + 1 }

/-! ## Restoring -/

/-- `parsePersistedFlags`: every version is a positive integer under an identifier, every flag is
valid and its version is the recorded one. -/
def parsePersistedFlags (p : Persisted) : Option (List ClientFlagConfig) :=
  if (p.versions.all fun kv => isIdentifier Text.unitLength kv.1 && isPositiveInteger kv.2) &&
      p.flags.all Flags.JavaScript.isFlagConfig &&
      p.flags.all fun f => decide (p.versions.lookup f.key = some (f.version : ℚ)) then
    some p.flags
  else none

/-- The loop of `restorePersisted` over the stored flags. -/
def restoreFlag (p : Persisted) (c : FlagCache) (flag : ClientFlagConfig) : FlagCache :=
  let authoritativeVersion := max (flag.version : ℚ) ((p.versions.lookup flag.key).getD 0)
  let ledger := Function.update c.authoritativeVersions flag.key (some authoritativeVersion)
  if (flag.version : ℚ) < authoritativeVersion then { c with authoritativeVersions := ledger }
  else
    { c with
      authoritativeVersions := ledger
      flags := Function.update c.flags flag.key (some flag)
      sources := Function.update c.sources flag.key (some .localStorage) }

/-- The loop of `restoreTombstoneVersions`. -/
def restoreTombstone (c : FlagCache) (kv : Text × ℚ) : FlagCache :=
  if isPositiveInteger kv.2 then
    let activeVersion : ℚ := ((c.flags kv.1).map fun f => (f.version : ℚ)).getD 0
    { c with
      authoritativeVersions :=
        Function.update c.authoritativeVersions kv.1 (some (max activeVersion kv.2)) }
  else c

/-- `restorePersisted`, with `none` for a storage that is empty or holds no such record. -/
def restorePersisted (stored : Option Persisted) : FlagCache :=
  match stored with
  | none => c
  | some p =>
    match parsePersistedFlags p with
    | none => c
    | some flags =>
      let restored := p.versions.foldl restoreTombstone
        (flags.foldl (restoreFlag p) { empty with version := c.version })
      { restored with version := restored.version + 1 }

end FlagCache

def plainFlag (key : String) (version : ℕ) : ClientFlagConfig where
  key := Text.ofString key
  enabled := true
  defaultVariant := Text.ofString "control"
  variants := [⟨Text.ofString "control", 1⟩]
  salt := []
  rules := []
  fallthrough := ⟨⟨100, Text.ofString "user_id"⟩⟩
  version := version

/-- The operations on a cache. -/
inductive Act
  | restore (stored : Option Persisted)
  | set (payload : ParseResult) (source : Source)
  | upsertIfNewer (flag : ClientFlagConfig) (authoritativeVersion : ℚ) (source : Source)
  | removeIfNewer (key : Text) (authoritativeVersion : ℚ)
  | markInvalid (keys : List Text) (source : Source)
  | markInvalidIfNewer (key : Text) (authoritativeVersion : ℚ) (source : Source)
  | clear

/-- The effect of an operation. Restoring is part of the construction: it comes before any
mutation. -/
def next (c : FlagCache) : Act → Option FlagCache
  | .restore stored => if c.version = 0 then some (c.restorePersisted stored) else none
  | .set payload source => some (c.set payload.flags source payload.invalidKeys)
  | .upsertIfNewer flag v source => some (c.upsertIfNewer flag v source)
  | .removeIfNewer key v => some (c.removeIfNewer key v)
  | .markInvalid keys source => some (c.markInvalid keys source)
  | .markInvalidIfNewer key v source => some (c.markInvalidIfNewer key v source)
  | .clear => some c.clear

/-- A cache in use, from its construction. -/
def machine : StepMachine FlagCache Act := ⟨.empty, next⟩

end Apdl.Sdk.Cache
