import Apdl.Lib.Rolling
import Apdl.Lib.Rows
import Apdl.Lib.StepMachine
import Apdl.Lib.Utf16

set_option autoImplicit false

/-!
# Mutation quotas

Every mutation of an agent first reserves one slot of a rolling hour for its project and action. This
file models `reserve_mutation` statement by statement, as transactions on
`agent_mutation_quota_reservations` that run concurrently.

## Main definitions

* `State`, `Act`, `machine` — any number of transactions on one table.

## Design

The time of a transaction is the one at which it starts, as `now()` is; it says nothing about the order
in which transactions get the lock. The lock is released when the transaction ends. A statement sees the
rows that were committed before it (`READ COMMITTED`). Reservations are deleted only with their project,
which is left out.
-/

namespace Apdl.Agents.Quota

open Text (ofString)

/-! ## Identities -/

/-- `MutationActionType`. -/
inductive ActionType
  | createExperiment
  | updateFlag
  | updateUiConfig
  | featureProposal
  | openPullRequest
  deriving DecidableEq

def ActionType.name : ActionType → String
  | .createExperiment => "create_experiment"
  | .updateFlag => "update_flag"
  | .updateUiConfig => "update_ui_config"
  | .featureProposal => "feature_proposal"
  | .openPullRequest => "open_pull_request"

def actionTypes : List ActionType :=
  [.createExperiment, .updateFlag, .updateUiConfig, .featureProposal, .openPullRequest]

/-- `ACTION_LIMITS_PER_HOUR`. -/
def limit : ActionType → ℕ
  | .createExperiment => 5
  | .updateFlag => 20
  | .updateUiConfig => 30
  | .featureProposal => 3
  | .openPullRequest => 10

def policyVersion : String := "rolling_hour@1"

/-- `WINDOW_SECONDS`, in microseconds. -/
def window : ℤ := 60 * 60 * 1000000

/-- What a reservation is for. -/
structure Identity where
  projectId : Text
  actionType : ActionType
  idempotencyKey : Text
  deriving DecidableEq

/-- A code unit that `[A-Za-z0-9]` matches. -/
def isAlphanumeric (u : CodeUnit) : Bool :=
  (decide (48 ≤ u.toNat) && decide (u.toNat ≤ 57)) || (decide (65 ≤ u.toNat) && decide (u.toNat ≤ 90)) ||
    (decide (97 ≤ u.toNat) && decide (u.toNat ≤ 122))

/-- A code point that `str.strip` removes. -/
def isSpacePoint (c : ℕ) : Bool :=
  (decide (9 ≤ c) && decide (c ≤ 13)) || (decide (28 ≤ c) && decide (c ≤ 32)) ||
    (decide (0x2000 ≤ c) && decide (c ≤ 0x200A)) ||
    [0x85, 0xA0, 0x1680, 0x2028, 0x2029, 0x202F, 0x205F, 0x3000].contains c

/-- `_validate_identity`; an error is the message of the `ValueError`. -/
def validateIdentity (projectId : Text) (actionType : String) (idempotencyKey : Text) :
    Except String Identity :=
  if ¬ (projectId.all isAlphanumeric ∧ 1 ≤ projectId.unitLength ∧ projectId.unitLength ≤ 64) then
    .error "project_id must match ^[A-Za-z0-9]\x7b1,64\x7d$"
  else
    match actionTypes.find? fun a => a.name == actionType with
    | none => .error ("Unknown mutation action_type '" ++ actionType ++ "'")
    | some action =>
      if ¬ (1 ≤ Text.length idempotencyKey ∧ Text.length idempotencyKey ≤ 256) ∨
          idempotencyKey.codePoints.all isSpacePoint then
        .error "idempotency_key must be 1 to 256 characters and not blank"
      else .ok ⟨projectId, action, idempotencyKey⟩

/-! ## The table -/

/-- A row of `agent_mutation_quota_reservations`. -/
structure Row where
  identity : Identity
  policyVersion : String
  occurredAt : ℤ
  deriving DecidableEq

/-- The row is for the project and the action. -/
def Row.isFor (row : Row) (projectId : Text) (actionType : ActionType) : Bool :=
  row.identity.projectId == projectId && row.identity.actionType == actionType

/-- `SELECT policy_version … WHERE … idempotency_key = $3`. -/
def selectExisting (rows : List Row) (identity : Identity) : Option String :=
  (rows.find? fun row => row.identity == identity).map Row.policyVersion

/-- `SELECT count(*) … WHERE … occurred_at >= now() - make_interval(secs => $4)`. -/
def selectCount (rows : List Row) (identity : Identity) (now : ℤ) : ℕ :=
  rows.countP fun row =>
    row.isFor identity.projectId identity.actionType && row.policyVersion == policyVersion &&
      decide (now - window ≤ row.occurredAt)

/-- `INSERT … ON CONFLICT … DO NOTHING`: the row, if one is inserted. -/
def insertRow (rows : List Row) (identity : Identity) (now : ℤ) : Option Row :=
  if rows.any fun row => row.identity == identity then none
  else some ⟨identity, policyVersion, now⟩

/-! ## Transactions -/

/-- `MutationQuotaReservation`. -/
structure Reservation where
  identity : Identity
  policyVersion : String
  used : ℕ
  limit : ℕ
  alreadyReserved : Bool
  deriving DecidableEq

/-- How a call ends. -/
inductive Outcome
  | reserved (reservation : Reservation)
  /-- `MutationQuotaExceededError`. -/
  | exceeded (identity : Identity) (used limit : ℕ)
  /-- `MutationQuotaUnavailableError`. -/
  | unavailable (identity : Identity)
  deriving DecidableEq

/-- The text of the error of a call. -/
def Outcome.message : Outcome → Option Text
  | .reserved _ => none
  | .exceeded identity used limit =>
    some (ofString "Mutation quota exceeded for " ++ identity.projectId ++
      ofString ("/" ++ identity.actionType.name ++ ": " ++ toString used ++ "/" ++ toString limit ++
        " reservations in the last hour"))
  | .unavailable identity =>
    some (ofString "Mutation quota store unavailable for " ++ identity.projectId ++
      ofString ("/" ++ identity.actionType.name))

/-- Where a transaction is. -/
inductive Stage
  | waiting
  | locked
  /-- It has looked for its key. -/
  | searched (existing : Option String)
  | counted (existing : Option String) (count : ℕ)
  | inserted (row : Option Row) (count : ℕ)
  | ended (outcome : Outcome)
  deriving DecidableEq

/-- The transaction has the lock. -/
def Stage.holds : Stage → Bool
  | .waiting | .ended _ => false
  | .locked | .searched _ | .counted _ _ | .inserted _ _ => true

/-- A call of `reserve_mutation`. -/
structure Transaction where
  identity : Identity
  now : ℤ
  stage : Stage
  deriving DecidableEq

/-- The table and the transactions. -/
structure State where
  rows : List Row
  transactions : List Transaction
  deriving DecidableEq

/-- A step of a transaction. -/
inductive Act
  /-- A transaction starts at a time. -/
  | begin (projectId : Text) (actionType : String) (idempotencyKey : Text) (now : ℤ)
  /-- `pg_advisory_xact_lock`. -/
  | lock (i : ℕ)
  /-- The key is looked for. -/
  | search (i : ℕ)
  | count (i : ℕ)
  /-- The result is returned, the error is raised, or the row is inserted. -/
  | decide (i : ℕ)
  | commit (i : ℕ) (lost : Bool)
  /-- The transaction fails and is rolled back. -/
  | abort (i : ℕ)
  deriving DecidableEq

/-- Replace the stage of a transaction. -/
def State.setStage (s : State) (i : ℕ) (t : Transaction) (stage : Stage) : State :=
  { s with transactions := s.transactions.set i { t with stage := stage } }

/-- The key of the advisory lock, for `hashtextextended(…, 0)`. -/
def lockKey (hashtextextended : Text → ℤ) (identity : Identity) : ℤ :=
  hashtextextended (ofString "apdl:agents:mutation-quota:" ++ identity.projectId ++ ofString ":" ++
    ofString identity.actionType.name)

/-- Some transaction has the lock. -/
def State.isLocked (hashtextextended : Text → ℤ) (s : State) (key : ℤ) : Bool :=
  s.transactions.any fun t => t.stage.holds && lockKey hashtextextended t.identity == key

/-- What follows the count. -/
def decideStage (rows : List Row) (t : Transaction) (existing : Option String) (count : ℕ) : Stage :=
  match existing with
  | some policy =>
    .ended (.reserved ⟨t.identity, policy, count, limit t.identity.actionType, true⟩)
  | none =>
    if limit t.identity.actionType ≤ count then
      .ended (.exceeded t.identity count (limit t.identity.actionType))
    else .inserted (insertRow rows t.identity t.now) count

/-- The reservation that a call returns that has inserted. -/
def reservationOf (t : Transaction) (row : Option Row) (count : ℕ) : Reservation :=
  ⟨t.identity, policyVersion, count + (if row.isSome then 1 else 0), limit t.identity.actionType,
    row.isNone⟩

def step (hashtextextended : Text → ℤ) (s : State) : Act → Option State
  | .begin projectId actionType idempotencyKey now =>
    match validateIdentity projectId actionType idempotencyKey with
    | .ok identity => some { s with transactions := s.transactions ++ [⟨identity, now, .waiting⟩] }
    | .error _ => none
  | .lock i =>
    match s.transactions[i]? with
    | some t =>
      if t.stage = .waiting ∧ ¬ s.isLocked hashtextextended (lockKey hashtextextended t.identity) then
        some (s.setStage i t .locked)
      else none
    | none => none
  | .search i =>
    match s.transactions[i]? with
    | some t =>
      if t.stage = .locked then some (s.setStage i t (.searched (selectExisting s.rows t.identity)))
      else none
    | none => none
  | .count i =>
    match s.transactions[i]? with
    | some t =>
      match t.stage with
      | .searched existing =>
        some (s.setStage i t (.counted existing (selectCount s.rows t.identity t.now)))
      | _ => none
    | none => none
  | .decide i =>
    match s.transactions[i]? with
    | some t =>
      match t.stage with
      | .counted existing count => some (s.setStage i t (decideStage s.rows t existing count))
      | _ => none
    | none => none
  | .commit i lost =>
    match s.transactions[i]? with
    | some t =>
      match t.stage with
      | .inserted row count =>
        some { (s.setStage i t (.ended (if lost then .unavailable t.identity
            else .reserved (reservationOf t row count)))) with
          rows := s.rows ++ row.toList }
      | _ => none
    | none => none
  | .abort i =>
    match s.transactions[i]? with
    | some t =>
      match t.stage with
      | .ended _ => none
      | _ => some (s.setStage i t (.ended (.unavailable t.identity)))
    | none => none

/-- Transactions on one table, which is empty at first. -/
def machine (hashtextextended : Text → ℤ) : StepMachine State Act where
  init := ⟨[], []⟩
  step := step hashtextextended

end Apdl.Agents.Quota
