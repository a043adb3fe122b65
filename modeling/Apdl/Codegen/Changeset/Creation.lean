import Apdl.Codegen.Changeset.Model
import Apdl.Lib.Rows
import Apdl.Lib.StepMachine

set_option autoImplicit false

/-!
# The creation of changesets

A changeset is created by a request, as the revert of a merged changeset, or as the retry of a failed one.
A caller gives a key, and a repeated call gets the changeset that the first one created. Each of the three
functions is one transaction of several statements, and the transactions of concurrent calls interleave.

## Main definitions

* `Db.advance` — one statement of a call; `creating` is the machine of all of them.

## Design

A statement reads what is committed. Advisory locks are held to the end of a transaction; their names are
hashed by a parameter, so two names may share a lock. An insert waits for a transaction in flight whose row
conflicts with its own. `FOR UPDATE` on a row that is only read back is left out: it makes others wait.
A statement may raise at any point for reasons that are not modelled (a lost connection, no assignment of
a model, a malformed column); the transaction is then rolled back. JSON columns are their texts.
-/

namespace Apdl.Codegen.Creation

/-! ## Rows -/

inductive RiskLevel
  | low
  | medium
  | high
  deriving DecidableEq

/-- The changeset that a revert undoes. -/
structure AuthorizedRevertControl where
  sourceChangesetId : Text
  mergeSha : Option Text := none
  deriving DecidableEq

structure ChangesetControlMetadata where
  riskLevel : RiskLevel := .high
  revert : Option AuthorizedRevertControl := none
  deriving DecidableEq

structure RepositoryTarget where
  grantId : Text
  projectId : Text
  installationId : ℕ
  repositoryId : ℕ
  repositoryFullName : Text
  deriving DecidableEq

/-- The columns of a row that no update writes. -/
structure RequestColumns where
  changesetId : Text
  projectId : Text
  idempotencyKey : Text
  idempotencyRequestSha256 : Text
  runId : Option Text
  baseBranch : Option Text
  task : Text
  repository : RepositoryTarget
  retryOfChangesetId : Option Text
  controlMetadata : ChangesetControlMetadata
  llmExecutionSnapshot : Text
  deriving DecidableEq

/-- The columns that are written later; the ones that no creation reads or writes are left out. -/
structure MutableColumns where
  status : ChangesetStatus := .queued
  mergeSha : Option Text := none
  tenantPolicySnapshot : Option Text := none
  effectiveSafetyPolicySha256 : Option Text := none
  deriving DecidableEq

/-- A row of `codegen_changesets`. -/
structure Row where
  request : RequestColumns
  current : MutableColumns
  deriving DecidableEq

/-- The unique index over the project and the key. -/
def RequestColumns.sameKey (a b : RequestColumns) : Bool :=
  a.projectId == b.projectId && a.idempotencyKey == b.idempotencyKey

/-- The unique index over the parent of a retry. -/
def RequestColumns.sameParent (a b : RequestColumns) : Bool :=
  a.retryOfChangesetId.isSome && a.retryOfChangesetId == b.retryOfChangesetId

/-- Two rows that some unique index keeps apart. -/
def RequestColumns.conflicts (a b : RequestColumns) : Bool :=
  a.changesetId == b.changesetId || a.sameKey b || a.sameParent b

/-! ## Calls -/

/-- The arguments that the three functions share. -/
structure Request where
  changesetId : Text
  projectId : Text
  idempotencyKey : Text
  idempotencyRequestSha256 : Text
  runId : Option Text
  baseBranch : Option Text
  task : Text
  repositoryTarget : RepositoryTarget
  tenantPolicySnapshot : Option Text := none
  effectiveSafetyPolicySha256 : Option Text := none
  deriving DecidableEq

/-- The id of the changeset that is retried: a segment of the path of the request, never empty. -/
abbrev ParentId : Type := { id : Text // id ≠ [] }

/-- A call of `create_changeset`, `create_revert_changeset` or `create_retry_changeset`. -/
inductive Call
  | create (r : Request)
  | revert (r : Request) (sourceChangesetId : Text)
  | retry (r : Request) (retryOfChangesetId : ParentId) (controls : ChangesetControlMetadata)
  deriving DecidableEq

/-- The shared arguments. -/
def Call.request : Call → Request
  | .create r => r
  | .revert r _ => r
  | .retry r _ _ => r

def Call.parent : Call → Option Text
  | .retry _ parent _ => some parent
  | _ => none

/-- The changeset that the call reverts. -/
def Call.source : Call → Option Text
  | .revert _ source => some source
  | _ => none

/-- What `changeset_request_sha256` hashes. -/
structure Canonical where
  projectId : Text
  runId : Option Text
  baseBranch : Option Text
  task : Text
  controls : Option ChangesetControlMetadata
  deriving DecidableEq

def Request.canonical (r : Request) (controls : ChangesetControlMetadata) : Canonical where
  projectId := r.projectId
  runId := r.runId
  baseBranch := r.baseBranch
  task := r.task
  controls := some controls

/-- Why a call fails. -/
inductive Failure
  | grant
  | retryDigest
  | revertDigest
  /-- The key is bound to a different request. -/
  | payload
  | revertAuthority
  | retryLineage
  | lineageKey
  /-- The lineage is bound to a changeset in another project. -/
  | foreignLineage
  | sourceMissing
  | sourceNotMerged
  /-- A conflict did not resolve to an existing row. -/
  | unresolved
  | refused
  | raised
  deriving DecidableEq

/-- What a call returns: the row and whether it was created, or the failure. -/
abbrev Result : Type := Except Failure (Row × Bool)

/-- `_assert_idempotency_request`, and then the row that exists. -/
def Request.existing (r : Request) (row : Row) : Result :=
  if row.request.idempotencyRequestSha256 ≠ r.idempotencyRequestSha256 then .error .payload
  else .ok (row, false)

def Call.keyRow (c : Call) (row : Row) : Result :=
  match c with
  | .create r => r.existing row
  | .revert r source =>
    -- `_assert_revert_control`
    if row.request.controlMetadata.revert.map AuthorizedRevertControl.sourceChangesetId ≠ some source
    then .error .revertAuthority
    else r.existing row
  | .retry r parent _ =>
    if row.request.retryOfChangesetId.getD [] ≠ parent then .error .retryLineage
    else r.existing row

/-- What a retry makes of the child that its parent has. -/
def Request.lineageRow (r : Request) (row : Row) : Result :=
  if row.request.idempotencyKey ≠ r.idempotencyKey then .error .lineageKey
  else r.existing row

/-- The checks before the transaction. -/
def Call.precheck (sha256 : Canonical → Text) (c : Call) : Option Failure :=
  if c.request.repositoryTarget.projectId ≠ c.request.projectId then some .grant
  else
    match c with
    | .retry r _ controls =>
      if r.idempotencyRequestSha256 ≠ sha256 (r.canonical controls) then some .retryDigest else none
    | _ => none

def Call.row (c : Call) (controls : ChangesetControlMetadata) (llmSnapshot : Text) : Row where
  request :=
    { changesetId := c.request.changesetId
      projectId := c.request.projectId
      idempotencyKey := c.request.idempotencyKey
      idempotencyRequestSha256 := c.request.idempotencyRequestSha256
      runId := c.request.runId
      baseBranch := c.request.baseBranch
      task := c.request.task
      repository := c.request.repositoryTarget
      retryOfChangesetId := c.parent
      controlMetadata := controls
      llmExecutionSnapshot := llmSnapshot }
  current :=
    { tenantPolicySnapshot := c.request.tenantPolicySnapshot
      effectiveSafetyPolicySha256 := c.request.effectiveSafetyPolicySha256 }

/-- The conflicts that an insert passes over: the clause of a retry names no index. -/
def Call.passesOver (c : Call) (row other : RequestColumns) : Bool :=
  match c with
  | .retry .. => row.conflicts other
  | _ => row.sameKey other

def keyLock (projectId key : Text) : Text :=
  Text.ofString "apdl:codegen-idempotency:" ++ projectId ++ Text.ofString ":" ++ key

def lineageLock (projectId parent : Text) : Text :=
  Text.ofString "apdl:codegen-retry:" ++ projectId ++ Text.ofString ":" ++ parent

/-! ## Transactions -/

/-- How far a transaction got. -/
inductive Phase
  | opened
  | keyLocked
  /-- Only a retry takes the second lock. -/
  | lineageLocked
  | keyRead
  /-- All is read; the row is to be inserted with these controls. -/
  | admitted (controls : ChangesetControlMetadata)
  | inserted (row : Row)
  | conflicted
  | lineageReread (row : Option Row)
  | neither
  /-- The transaction ends with this result and nothing written. -/
  | settled (result : Result)

structure InFlight where
  call : Call
  phase : Phase := .opened
  locks : List ℕ := []
  /-- The rows that are locked `FOR SHARE`. -/
  shared : List Text := []

/-- The row that a call inserted and did not commit yet. -/
def InFlight.pending (c : InFlight) : Option RequestColumns :=
  match c.phase with
  | .inserted row => some row.request
  | _ => none

/-- The committed rows, the calls in flight, and the calls that ended with what they returned. -/
structure Db where
  rows : List Row
  calls : List InFlight
  outcomes : List (Call × Result)

def Db.byKey (d : Db) (projectId key : Text) : Option Row :=
  d.rows.find? fun row => row.request.projectId == projectId && row.request.idempotencyKey == key

/-- The child of a parent in a project. -/
def Db.byParent (d : Db) (projectId parent : Text) : Option Row :=
  d.rows.find? fun row =>
    row.request.projectId == projectId && row.request.retryOfChangesetId == some parent

def Db.byId (d : Db) (changesetId : Text) : Option Row :=
  d.rows.find? fun row => row.request.changesetId == changesetId

/-- A merged changeset of a project. -/
def Row.mergedIn (row : Row) (projectId : Text) : Bool :=
  row.request.projectId == projectId && row.current.status == .merged

/-- The trigger `validate_codegen_changeset_private_controls`. -/
def Db.authorizes (d : Db) (row : RequestColumns) : Bool :=
  match row.controlMetadata.revert with
  | none => true
  | some control =>
    match d.byId control.sourceChangesetId with
    | none => false
    | some source => source.mergedIn row.projectId && source.current.mergeSha == control.mergeSha

/-- The foreign key of a retry: its parent is in the project. -/
def Db.hasParent (d : Db) (row : RequestColumns) : Bool :=
  row.retryOfChangesetId.all fun parent =>
    d.rows.any fun p => p.request.projectId == row.projectId && p.request.changesetId == parent

def RequestColumns.retriesItself (row : RequestColumns) : Bool :=
  row.retryOfChangesetId == some row.changesetId

/-- An advisory lock: the call waits while another one holds it. -/
def Db.lock (d : Db) (i : ℕ) (c : InFlight) (l : ℕ) (phase : Phase) : Option InFlight :=
  if (d.calls.eraseIdx i).any fun other => other.locks.contains l then none
  else some { c with phase := phase, locks := l :: c.locks }

def Db.readKey (d : Db) (c : InFlight) : InFlight :=
  match d.byKey c.call.request.projectId c.call.request.idempotencyKey with
  | some row => { c with phase := .settled (c.call.keyRow row) }
  | none =>
    match c.call with
    | .create _ => { c with phase := .admitted { } }
    | _ => { c with phase := .keyRead }

def Db.readSource (sha256 : Canonical → Text) (d : Db) (c : InFlight) (source : Text) : InFlight :=
  match d.byId source with
  | none => { c with phase := .settled (.error .sourceMissing) }
  | some row =>
    if row.mergedIn c.call.request.projectId then
      let controls : ChangesetControlMetadata :=
        { revert := some { sourceChangesetId := source, mergeSha := row.current.mergeSha } }
      if c.call.request.idempotencyRequestSha256 ≠ sha256 (c.call.request.canonical controls) then
        { c with phase := .settled (.error .revertDigest) }
      else { c with phase := .admitted controls, shared := source :: c.shared }
    else { c with phase := .settled (.error .sourceNotMerged) }

/-- The read of the child of a retry's parent. -/
def Db.readLineage (d : Db) (c : InFlight) (parent : Text) (controls : ChangesetControlMetadata) :
    InFlight :=
  match d.byParent c.call.request.projectId parent with
  | some row => { c with phase := .settled (c.call.request.lineageRow row) }
  | none => { c with phase := .admitted controls }

/-- The insert, with the snapshot of the project's assignments. -/
def Db.insert (d : Db) (i : ℕ) (c : InFlight) (controls : ChangesetControlMetadata)
    (llmSnapshot : Text) : Option InFlight :=
  let row := c.call.row controls llmSnapshot
  if d.authorizes row.request = false ∨ row.request.retriesItself = true then
    some { c with phase := .settled (.error .refused) }
  else if d.rows.any fun other => c.call.passesOver row.request other.request then
    some { c with phase := .conflicted }
  -- a row that is not committed yet is waited for
  else if ((d.calls.eraseIdx i).filterMap InFlight.pending).any row.request.conflicts then none
  else if (d.rows.any fun other => row.request.conflicts other.request) = true ∨
      d.hasParent row.request = false then
    some { c with phase := .settled (.error .refused) }
  else some { c with phase := .inserted row }

/-- The end of a retry that found a row when it read again. -/
def Db.rereadKey (d : Db) (c : InFlight) (lineage : Option Row) : InFlight :=
  let keyRow := d.byKey c.call.request.projectId c.call.request.idempotencyKey
  match lineage, keyRow with
  | some row, _ => { c with phase := .settled (c.call.request.lineageRow row) }
  | none, some row => { c with phase := .settled (c.call.keyRow row) }
  | none, none => { c with phase := .neither }

/-- The last read of a retry: a child of its parent in any project. -/
def Db.readForeign (d : Db) (c : InFlight) (parent : Text) : InFlight :=
  if d.rows.any fun row => row.request.retryOfChangesetId == some parent then
    { c with phase := .settled (.error .foreignLineage) }
  else { c with phase := .settled (.error .unresolved) }

/-- The next statement of a call that neither inserted nor settled. -/
def Db.advance (sha256 : Canonical → Text) (lockOf : Text → ℕ) (d : Db) (i : ℕ) (c : InFlight)
    (llmSnapshot : Text) : Option InFlight :=
  let r := c.call.request
  match c.phase, c.call with
  | .opened, _ => d.lock i c (lockOf (keyLock r.projectId r.idempotencyKey)) .keyLocked
  | .keyLocked, .retry _ parent _ => d.lock i c (lockOf (lineageLock r.projectId parent)) .lineageLocked
  | .keyLocked, _ | .lineageLocked, _ => some (d.readKey c)
  | .keyRead, .revert _ source => some (d.readSource sha256 c source)
  | .keyRead, .retry _ parent controls => some (d.readLineage c parent controls)
  | .admitted controls, _ => d.insert i c controls llmSnapshot
  | .conflicted, .retry _ parent _ =>
    some { c with phase := .lineageReread (d.byParent r.projectId parent) }
  | .conflicted, call =>
    match d.byKey r.projectId r.idempotencyKey with
    | some row => some { c with phase := .settled (call.keyRow row) }
    | none => some { c with phase := .settled (.error .unresolved) }
  | .lineageReread row, _ => some (d.rereadKey c row)
  | .neither, .retry _ parent _ => some (d.readForeign c parent)
  | _, _ => none

/-! ## The machine -/

/-- What happens. -/
inductive Action
  | start (call : Call)
  | next (i : ℕ) (llmSnapshot : Text)
  /-- A statement of the call raises. -/
  | abort (i : ℕ)
  | update (changesetId : Text) (current : MutableColumns)

/-- A call ends with a result, and its locks are released. -/
def Db.finish (d : Db) (i : ℕ) (c : InFlight) (result : Result) : Db where
  rows := d.rows
  calls := d.calls.eraseIdx i
  outcomes := d.outcomes ++ [(c.call, result)]

/-- The commit of an inserted row. -/
def Db.commit (d : Db) (i : ℕ) (c : InFlight) (row : Row) : Db :=
  { d.finish i c (.ok (row, true)) with rows := d.rows ++ [row] }

def Db.start (sha256 : Canonical → Text) (d : Db) (call : Call) : Db :=
  match call.precheck sha256 with
  | some failure => { d with outcomes := d.outcomes ++ [(call, .error failure)] }
  | none => { d with calls := d.calls ++ [{ call := call }] }

/-- The next statement of a call. -/
def Db.next (sha256 : Canonical → Text) (lockOf : Text → ℕ) (d : Db) (i : ℕ) (llmSnapshot : Text) :
    Option Db :=
  d.calls[i]?.bind fun c =>
    match c.phase with
    | .settled result => some (d.finish i c result)
    | .inserted row => some (d.commit i c row)
    | _ => (d.advance sha256 lockOf i c llmSnapshot).map fun c' => { d with calls := d.calls.set i c' }

def Row.updated (changesetId : Text) (current : MutableColumns) (row : Row) : Row :=
  if row.request.changesetId = changesetId then { row with current := current } else row

/-- An update waits for the calls that locked the row. -/
def Db.update (d : Db) (changesetId : Text) (current : MutableColumns) : Option Db :=
  if d.calls.any fun c => c.shared.contains changesetId then none
  else some { d with rows := d.rows.map (Row.updated changesetId current) }

def Db.step (sha256 : Canonical → Text) (lockOf : Text → ℕ) (d : Db) : Action → Option Db
  | .start call => some (d.start sha256 call)
  | .next i llmSnapshot => d.next sha256 lockOf i llmSnapshot
  | .abort i => d.calls[i]?.map fun c => d.finish i c (.error .raised)
  | .update changesetId current => d.update changesetId current

/-- Calls that interleave, with the other writers, over a table that starts empty. -/
def creating (sha256 : Canonical → Text) (lockOf : Text → ℕ) : StepMachine Db Action where
  init := ⟨[], [], []⟩
  step := Db.step sha256 lockOf

end Apdl.Codegen.Creation
