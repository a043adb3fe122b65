import Apdl.Lib.Script
import Apdl.Lib.Utf16
import Mathlib.Algebra.Group.Nat.Defs
import Mathlib.Data.List.Dedup

set_option autoImplicit false

/-!
# The maintenance writer gate

The inserts of the runtime evaluate the newest row of a gate table, inside the query itself. A maintenance
run appends a row that blocks writes, kills the queries of the runtime until the server has none, executes
its mutations, and appends a row that unblocks writes. A run that fails leaves the gate closed.

## Main definitions

* `runs` — maintenance runs one after the other, each of which can be cut off.

## Design

A query of the runtime is submitted, registered, admitted or refused where it evaluates the gate, and writes
as often as it likes until it ends; a query that is killed ends at some time. The server can merge away a
row of the gate that is not the newest one. A call that raises can have had its effect or not; runs are
serialised by the owner table, which a run that crashed leaves until its own queries are gone. `rounds` of
the drain is how often the deadline allows to look again. What a run appended and how far it got since it
blocked writes are history variables: no call reads them.
-/

namespace Apdl.Pipeline.Maintenance

/-! ## The gate -/

/-- A row of `apdl_maintenance_gate` for the authority `runtime-writes`. -/
structure GateRow where
  generation : ℕ
  writesBlocked : ℕ
  deriving DecidableEq

/-- `max(generation)`; zero of no row. -/
def maxGeneration (gate : List GateRow) : ℕ := (gate.map GateRow.generation).foldl max 0

/-- `argMax(writes_blocked, generation)`; zero of no row. -/
def newestBlocked (gate : List GateRow) : ℕ :=
  ((gate.find? fun row => row.generation == maxGeneration gate).map GateRow.writesBlocked).getD 0

/-- The condition of `EVENT_INSERT_QUERY` that throws. -/
def refuses (gate : List GateRow) : Bool := gate.length == 0 || newestBlocked gate != 0

structure MaintenanceGateState where
  rowCount : ℕ
  generationCount : ℕ
  generation : ℕ
  writesBlocked : ℕ
  deriving DecidableEq

/-- What the query of `_read_maintenance_gate_state` returns. -/
def gateState (gate : List GateRow) : MaintenanceGateState where
  rowCount := gate.length
  generationCount := (gate.map GateRow.generation).dedup.length
  generation := maxGeneration gate
  writesBlocked := newestBlocked gate

/-! ## The server -/

inductive Query
  /-- The server has not registered it. -/
  | submitted
  /-- It is in `system.processes` and has not evaluated the gate. -/
  | registered
  /-- It is in `system.processes`, and the gate let it pass. -/
  | admitted
  /-- It has finished, or was refused, or was killed and can write no more. -/
  | ended
  deriving DecidableEq

/-- A query is in `system.processes`. -/
def Query.active : Query → Bool
  | .registered | .admitted => true
  | .submitted | .ended => false

/-- How far the run got that blocked writes last: its mutations, once they are planned, and those that were
executed. -/
structure Progress where
  planned : Option (List Text)
  executed : List Text
  deriving DecidableEq

/-- All mutations are executed. -/
def Progress.complete (p : Progress) : Bool := decide (p.planned = some p.executed)

/-- The state of the server, with its history. -/
structure World where
  gate : List GateRow
  /-- The queries of the runtime, in the order in which they were submitted. -/
  queries : List Query
  /-- The number of rows that the queries of the runtime have written. -/
  rows : ℕ
  /-- The generations that were ever appended. -/
  history : List ℕ
  /-- Writes were blocked, and how far that run got. -/
  progress : Option Progress
  /-- A drain has succeeded, and writes were not unblocked since. -/
  drained : Bool
  deriving DecidableEq

/-- What happens without a maintenance run. -/
inductive Drift
  | submit
  | register (index : ℕ)
  | evaluate (index : ℕ)
  | write (index : ℕ)
  | finish (index : ℕ)
  /-- A row of the gate that is not the newest one is merged away. -/
  | merge (index : ℕ)
  deriving DecidableEq

/-- What happens without a maintenance run. -/
def World.drift (w : World) : Drift → Option World
  | .submit => some { w with queries := w.queries ++ [.submitted] }
  | .register index =>
    if w.queries[index]? = some .submitted then
      some { w with queries := w.queries.set index .registered }
    else none
  | .evaluate index =>
    if w.queries[index]? = some .registered then
      some { w with queries := w.queries.set index (if refuses w.gate then .ended else .admitted) }
    else none
  | .write index =>
    if w.queries[index]? = some .admitted then some { w with rows := w.rows + 1 } else none
  | .finish index =>
    if index < w.queries.length then some { w with queries := w.queries.set index .ended } else none
  | .merge index =>
    match w.gate[index]? with
    | some row =>
      if row.generation < maxGeneration w.gate then some { w with gate := w.gate.eraseIdx index }
      else none
    | none => none

/-- The calls of a maintenance run. -/
inductive Call
  /-- `_ensure_maintenance_gate`: the table is created and its schema is checked. -/
  | ensureGate
  | readGate
  | insertGate (row : GateRow)
  /-- The deadline of the drain is set: how often it allows to look again. -/
  | startDrain
  /-- `KILL QUERY … SYNC`. -/
  | killQueries
  | countActive
  | plan
  | mutate (statement : Text)
  deriving DecidableEq

def Call.Result : Call → Type
  | .ensureGate => Unit
  | .readGate => MaintenanceGateState
  | .insertGate _ => Unit
  | .startDrain => ℕ
  | .killQueries => Unit
  | .countActive => ℕ
  | .plan => List Text
  | .mutate _ => Unit

/-- The exception of a call. -/
inductive Failure
  | raised
  deriving DecidableEq

abbrev Answer (e : Call) : Type := Except Failure e.Result

/-- What becomes of a call. -/
inductive Outcome
  | ok
  /-- The answer to `startDrain`. -/
  | rounds (n : ℕ)
  /-- The answer to `plan`. -/
  | planned (statements : List Text)
  | lost
  /-- The call has no effect. -/
  | failed
  deriving DecidableEq

/-- A row of the gate is appended. -/
def World.append (w : World) (row : GateRow) : World :=
  { w with
    gate := w.gate ++ [row]
    history := w.history ++ [row.generation]
    progress := if row.writesBlocked = 0 then w.progress else some ⟨none, []⟩
    drained := if row.writesBlocked = 0 then false else w.drained }

def World.effect (w : World) : Call → World
  | .insertGate row => w.append row
  | _ => w

/-- A call that is answered: what it returns, and what the history learns from the answer. -/
def World.answer (w : World) : (e : Call) → Outcome → Option (World × e.Result)
  | .ensureGate, .ok => some (w, ())
  | .readGate, .ok => some (w, gateState w.gate)
  | .insertGate row, .ok => some (w.append row, ())
  | .startDrain, .rounds n => some (w, n)
  | .killQueries, .ok => some (w, ())
  | .countActive, .ok =>
    let count := w.queries.countP Query.active
    some ({ w with drained := w.drained || count == 0 }, count)
  | .plan, .planned statements =>
    some ({ w with progress := w.progress.map fun p => { p with planned := some statements } },
      statements)
  | .mutate statement, .ok =>
    some ({ w with progress := w.progress.map fun p =>
      { p with executed := p.executed ++ [statement] } }, ())
  | _, _ => none

/-- What happens to a call. -/
def World.exec (e : Call) (w : World) (o : Outcome) : Option (World × Answer e) :=
  match o with
  | .lost => some (w.effect e, .error .raised)
  | .failed => some (w, .error .raised)
  | o => (w.answer e o).map fun v => (v.1, .ok v.2)

/-- The server. -/
def world : Host Call Answer World Drift Outcome where
  env := World.drift
  exec := World.exec

/-- A server whose gate table is empty. -/
def World.init : World := ⟨[], [], 0, [], none, false⟩

/-! ## The program -/

/-- An exception of the program. -/
inductive MigrationError
  | call
  | duplicateGenerations
  | invalidStateValue
  | invalidEmptyState
  | generationExhausted
  | notDurable
  | notDrained
  deriving DecidableEq

/-- Programs that wait for calls. -/
abbrev Program (α : Type) : Type := ExceptT MigrationError (Script Call Answer) α

def call (e : Call) : Program e.Result := Script.call (fun _ => MigrationError.call) e

/-- Raise unless a condition holds. -/
def require (condition : Bool) (e : MigrationError) : Program Unit :=
  if condition then pure () else throw e

/-- The query of `_read_maintenance_gate_state`. -/
def readGate : Program MaintenanceGateState := call .readGate

def readMaintenanceGateState : Program MaintenanceGateState := do
  let state ← readGate
  require (state.rowCount == state.generationCount) .duplicateGenerations
  require (decide (state.writesBlocked ≤ 1)) .invalidStateValue
  require (!(state.rowCount == 0 && (state.generation != 0 || state.writesBlocked != 0)))
    .invalidEmptyState
  pure state

def insertGate (row : GateRow) : Program Unit := call (.insertGate row)

/-- `_append_maintenance_gate_state`. -/
def appendGateState (writesBlocked : Bool) : Program Unit := do
  let before ← readMaintenanceGateState
  require (decide (before.generation < 2 ^ 64 - 1)) .generationExhausted
  let row : GateRow := ⟨before.generation + 1, writesBlocked.toNat⟩
  insertGate row
  let after ← readMaintenanceGateState
  require (after.generation == row.generation && after.writesBlocked == row.writesBlocked) .notDurable

def countActiveWriterQueries : Program ℕ := call .countActive

def killQueries : Program Unit := call .killQueries

/-- One turn of the loop of `_drain_writer_queries`: the number of queries that are left. -/
def drainTurn : Program ℕ := do
  killQueries
  countActiveWriterQueries

/-- The loop of `_drain_writer_queries`, while the deadline allows it. -/
def drainWithin : ℕ → Program Unit
  | 0 => do
    let count ← drainTurn
    if count = 0 then pure () else throw .notDrained
  | rounds + 1 => do
    let count ← drainTurn
    if count = 0 then pure () else drainWithin rounds

def startDrain : Program ℕ := call .startDrain

def drainWriterQueries : Program Unit := do
  let rounds ← startDrain
  drainWithin rounds

def mutate (statement : Text) : Program Unit := call (.mutate statement)

/-- The mutations, one after the other. -/
def mutateAll : List Text → Program Unit
  | [] => pure ()
  | statement :: statements => do
    mutate statement
    mutateAll statements

def planMutations : Program (List Text) := call .plan

/-- `_maintenance_writer_gate` around the mutations of a run. -/
def maintenance : Program Unit := do
  call .ensureGate
  appendGateState true
  drainWriterQueries
  let statements ← planMutations
  mutateAll statements
  appendGateState false

/-- Maintenance runs, one after the other. -/
def runs : StepMachine (Host.Hosted Call Answer World (Except MigrationError Unit))
    (Host.Act Drift Outcome) :=
  world.machine maintenance.run World.init

end Apdl.Pipeline.Maintenance
