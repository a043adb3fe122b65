import Apdl.Lib.Rows
import Apdl.Lib.StepMachine
import Mathlib.Data.List.Sort

set_option autoImplicit false

/-!
# The migration ledger of PostgreSQL

A release is a directory of migrations. A migrator reads the ledger `apdl_schema_migrations`, plans the
migrations that are missing, and applies each of them in a transaction of its own, which takes an advisory
lock and looks at the ledger again. Migrators of any releases can run at the same time.

## Main definitions

* `Migrator`, `State`, `Act`, `machine` — any number of migrators on one ledger.

## Design

The SQL of a migration is text that is executed as a whole, in the transaction that records it. The
ledger is there, and has no rows at first. SHA-256 is a parameter. Roles, the maintenance fence and the
check that a database without ledger rows has no tables can only make a migrator fail, which it can at any
point. The records that are executed are kept beside the ledger with the migrator that executed them: the
statements are about them.
-/

namespace Apdl.Pipeline.Postgres

/-! ## Releases -/

structure File where
  name : String
  content : String
  deriving DecidableEq

structure Migration where
  version : ℕ
  name : String
  checksum : String
  /-- `path.read_text()`. -/
  sql : String
  deriving DecidableEq

/-- `AppliedMigration`: a row of the ledger. -/
structure AppliedMigration where
  version : ℕ
  name : String
  checksum : String
  deriving DecidableEq

/-- The row that records a migration. -/
def Migration.applied (m : Migration) : AppliedMigration := ⟨m.version, m.name, m.checksum⟩

/-- A character of the name after the version: `[a-z0-9_]`. -/
def isNameChar (c : Char) : Bool := ('a' ≤ c && c ≤ 'z') || ('0' ≤ c && c ≤ '9') || c == '_'

def digit (c : Char) : Option ℕ := if '0' ≤ c ∧ c ≤ '9' then some (c.toNat - 48) else none

/-- `MIGRATION_NAME.fullmatch`, and the version of the match. -/
def matchName (name : String) : Option ℕ :=
  match name.toList with
  | a :: b :: c :: '_' :: rest =>
    let body := rest.take (rest.length - 4)
    if body ≠ [] ∧ body.all isNameChar ∧ rest.drop (rest.length - 4) = ".sql".toList then do
      let a ← digit a
      let b ← digit b
      let c ← digit c
      return 100 * a + 10 * b + c
    else none
  | _ => none

/-- The loop of `discover_migrations`; an error is the message of the `MigrationError`. -/
def migrationsFrom (sha256 : String → String) : ℕ → List File → Except String (List Migration)
  | _, [] => .ok []
  | expected, file :: rest =>
    match matchName file.name with
    | none => .error ("Invalid PostgreSQL migration name: " ++ file.name)
    | some version =>
      if version ≠ expected then
        .error ("PostgreSQL migrations must be contiguous from 001; expected " ++ toString expected ++
          ", found " ++ file.name)
      else
        (migrationsFrom sha256 (expected + 1) rest).map
          (⟨version, file.name, sha256 file.content, file.content⟩ :: ·)

/-- `discover_migrations` of the `*.sql` files of a directory. -/
def discoverMigrations (sha256 : String → String) (files : List File) :
    Except String (List Migration) :=
  if files.isEmpty then .error "No PostgreSQL migrations found"
  else migrationsFrom sha256 1 (files.insertionSort fun a b => ¬ b.name < a.name)

/-- The first difference of the ledger from the files, as the message of the `MigrationError`. -/
def drift : List Migration → List AppliedMigration → Option String
  | expected :: migrations, item :: applied =>
    if item.version ≠ expected.version then
      some ("Migration ledger is not an ordered prefix: expected version " ++
        toString expected.version ++ ", found " ++ toString item.version)
    else if item.name ≠ expected.name then
      some ("Migration " ++ toString expected.version ++ " name drift: ledger=" ++ item.name ++
        ", file=" ++ expected.name)
    else if item.checksum ≠ expected.checksum then
      some ("Migration " ++ expected.name ++ " checksum drift: ledger=" ++ item.checksum ++
        ", file=" ++ expected.checksum)
    else drift migrations applied
  | _, _ => none

/-- `plan_migrations`; an error is the message of the `MigrationError`. -/
def planMigrations (migrations : List Migration) (applied : List AppliedMigration) :
    Except String (List Migration) :=
  let sequence := applied.insertionSort fun a b => a.version ≤ b.version
  if ¬ (sequence.map AppliedMigration.version).Nodup then
    .error "Migration ledger contains duplicate versions"
  else if ¬ (sequence.map AppliedMigration.name).Nodup then
    .error "Migration ledger contains duplicate names"
  else if migrations.length < sequence.length then
    .error "Migration ledger references files absent from this release"
  else
    match drift migrations sequence with
    | some message => .error message
    | none => .ok (migrations.drop sequence.length)

/-! ## Transactions -/

/-- What the transaction of `_apply_migration` finds. -/
inductive Finding
  /-- `migration_drift`: `\quit 3`. -/
  | drift
  /-- `migration_out_of_order`: `\quit 4`. -/
  | outOfOrder
  | applied
  | pending
  deriving DecidableEq

/-- The second ledger check of `_apply_migration`. -/
def checkLedger (ledger : List AppliedMigration) (m : Migration) : Finding :=
  if ledger.any fun r =>
      r.version == m.version && (r.name != m.name || r.checksum != m.checksum) then .drift
  else if !(ledger.any fun r => r.version == m.version) &&
      ledger.any fun r => decide (m.version < r.version) then .outOfOrder
  else if ledger.any fun r =>
      r.version == m.version && r.name == m.name && r.checksum == m.checksum then .applied
  else .pending

/-- The constraints of the ledger admit the row. -/
def admits (ledger : List AppliedMigration) (r : AppliedMigration) : Bool :=
  decide (1 ≤ r.version ∧ r.version ≤ 999) && (matchName r.name).isSome &&
    !(ledger.any fun q => q.version == r.version) && !(ledger.any fun q => q.name == r.name)

/-- Where a migrator is. -/
inductive Stage
  | discovered
  | applying (rest : List Migration)
  | locked (m : Migration) (rest : List Migration)
  /-- The transaction found that the migration was already applied. -/
  | skipping (m : Migration) (rest : List Migration)
  /-- The transaction has executed the SQL and inserted the row. -/
  | executing (m : Migration) (rest : List Migration)
  | finished
  | failed
  deriving DecidableEq

/-- A transaction of the migrator has the advisory lock. -/
def Stage.holds : Stage → Bool
  | .locked _ _ | .skipping _ _ | .executing _ _ => true
  | _ => false

/-- A run of `migrate`. -/
structure Migrator where
  migrations : List Migration
  stage : Stage
  deriving DecidableEq

/-- The ledger, the migrations whose SQL was executed, each with the migrator that executed it, and the
migrators. -/
structure State where
  ledger : List AppliedMigration
  executed : List (ℕ × Migration)
  migrators : List Migrator
  deriving DecidableEq

/-- What a migrator does next. -/
inductive Act
  | start (files : List File)
  | plan (i : ℕ)
  /-- It opens the next transaction, which takes the lock. -/
  | lock (i : ℕ)
  /-- The transaction looks at the ledger, and executes the SQL if it is missing. -/
  | check (i : ℕ)
  /-- The transaction commits; the migrator may not get to know. -/
  | commit (i : ℕ) (lost : Bool)
  /-- The migrator is done. -/
  | finish (i : ℕ)
  /-- The migrator fails or crashes; an open transaction is rolled back. -/
  | fail (i : ℕ)
  deriving DecidableEq

/-- Replace the stage of a migrator. -/
def State.setStage (s : State) (i : ℕ) (g : Migrator) (stage : Stage) : State :=
  { s with migrators := s.migrators.set i { g with stage := stage } }

/-- Some transaction has the advisory lock. -/
def State.isLocked (s : State) : Bool := s.migrators.any fun g => g.stage.holds

/-- What follows the second check. -/
def checkStage (ledger : List AppliedMigration) (m : Migration) (rest : List Migration) : Stage :=
  match checkLedger ledger m with
  | .drift | .outOfOrder => .failed
  | .applied => .skipping m rest
  | .pending => if admits ledger m.applied then .executing m rest else .failed

def step (sha256 : String → String) (s : State) : Act → Option State
  | .start files =>
    match discoverMigrations sha256 files with
    | .ok migrations => some { s with migrators := s.migrators ++ [⟨migrations, .discovered⟩] }
    | .error _ => none
  | .plan i =>
    match s.migrators[i]? with
    | some g =>
      if g.stage = .discovered then
        match planMigrations g.migrations s.ledger with
        | .ok pending => some (s.setStage i g (.applying pending))
        | .error _ => some (s.setStage i g .failed)
      else none
    | none => none
  | .lock i =>
    match s.migrators[i]? with
    | some g =>
      match g.stage with
      | .applying (m :: rest) => if s.isLocked then none else some (s.setStage i g (.locked m rest))
      | _ => none
    | none => none
  | .check i =>
    match s.migrators[i]? with
    | some g =>
      match g.stage with
      | .locked m rest => some (s.setStage i g (checkStage s.ledger m rest))
      | _ => none
    | none => none
  | .commit i lost =>
    match s.migrators[i]? with
    | some g =>
      match g.stage with
      | .skipping _ rest => some (s.setStage i g (if lost then .failed else .applying rest))
      | .executing m rest =>
        some { (s.setStage i g (if lost then .failed else .applying rest)) with
          ledger := s.ledger ++ [m.applied]
          executed := s.executed ++ [(i, m)] }
      | _ => none
    | none => none
  | .finish i =>
    match s.migrators[i]? with
    | some g =>
      match g.stage with
      | .applying [] => some (s.setStage i g .finished)
      | _ => none
    | none => none
  | .fail i =>
    match s.migrators[i]? with
    | some g => some (s.setStage i g .failed)
    | none => none

/-- Migrators on one ledger, which is empty at first. -/
def machine (sha256 : String → String) : StepMachine State Act where
  init := ⟨[], [], []⟩
  step := step sha256

end Apdl.Pipeline.Postgres
