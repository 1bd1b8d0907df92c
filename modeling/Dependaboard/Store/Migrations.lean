import Dependaboard.Durable.System
import Dependaboard.Store.Writer
/-!
# Store — schema migrations

Every migration of a registry is applied to a database once, oldest first,
with the versions applied recorded beside it. A call reads what is recorded
and then, for each migration that was not, takes the write lock, reads again
and applies it, in one transaction.

The processes that start together run it side by side on one database, whose
write transactions are serialised and atomic: one is open at a time, and what
it did is seen once it commits and not at all where it does not. A process
may die anywhere, its transaction with it.
-/

namespace Dependaboard

open Durable

/-- One past the largest unsigned 32-bit integer. -/
def u32Size : ℕ := 2 ^ 32

/-- One step of the schema, its version the order it is applied in. -/
structure Migration where
  version : ℕ
  name : String
  sql : String
  deriving DecidableEq, Repr

/-- Every migration, oldest first. -/
structure Registry where
  migrations : List Migration
  oldestFirst : (migrations.map Migration.version).Pairwise (· < ·)

/-- The migrations of the store, `sql` the text of the file of a name. -/
def migrations (sql : String → String) : List Migration :=
  [(1, "initial"), (2, "pull_request_constraints"), (3, "repository_merge_method"),
    (4, "projection_revision"), (5, "batches"), (6, "drop_owner_filter_index"),
    (7, "pull_request_revision"), (8, "pull_request_retirements"), (9, "running_batches"),
    (10, "batch_provenance"), (11, "batch_installation")].map fun entry =>
      ⟨entry.1, entry.2, sql entry.2⟩

/-- The registry of the store. -/
def storeRegistry (sql : String → String) : Registry where
  migrations := migrations sql
  oldestFirst := by simp [migrations]

/-- What is recorded of a migration applied. -/
structure MigrationRow where
  version : ℕ
  name : String
  appliedAt : ℕ
  deriving DecidableEq, Repr

/-! ## The call -/

/-- What a call does to its database. -/
inductive MigrationCall where
  /-- `CREATE TABLE IF NOT EXISTS schema_migrations`. -/
  | createTable
  | selectVersions
  /-- `BEGIN IMMEDIATE`. -/
  | begin
  | rollback
  /-- A transaction that is dropped rolls back. -/
  | drop
  | executeBatch (sql : String)
  | now
  | insert (row : MigrationRow)
  | commit
  deriving DecidableEq, Repr

/-- What each is answered in. -/
@[reducible] def MigrationCall.Answer : MigrationCall → Type
  | createTable => Except StoreError Unit
  | selectVersions => Except StoreError (List ℕ)
  | begin => Except StoreError Unit
  | rollback => Except StoreError Unit
  | drop => Unit
  | executeBatch _ => Except StoreError Unit
  | now => ℕ
  | insert _ => Except StoreError Unit
  | commit => Except StoreError Unit

/-- The interface of a call. -/
@[reducible] def MigrationEffects : Signature := ⟨MigrationCall, MigrationCall.Answer⟩

/-- A call. -/
abbrev MigrationM (α : Type) : Type := Prog MigrationEffects StoreError α

namespace MigrationM

/-- A failure inside a transaction drops it. -/
def inTransaction {α : Type} : Except StoreError α → MigrationM α
  | .ok a => .done a
  | .error error => Prog.ask (S := MigrationEffects) .drop fun _ => .fail error

/-- A read version is an unsigned 32-bit integer. -/
def versions (read : List ℕ) : Except StoreError (List ℕ) :=
  if read.all (· < u32Size) then .ok read else .error .integerOverflow

/-- The versions in the store's own table. One that does not fit an unsigned
32-bit integer cannot be read. -/
def recordedVersions : MigrationM (Except StoreError (List ℕ)) :=
  Prog.ask (S := MigrationEffects) .selectVersions fun answer => .done (answer.bind versions)

/-- Run one migration and record it, in the transaction that is open. -/
def apply (migration : Migration) : MigrationM Bool := do
  inTransaction (← Prog.perform (S := MigrationEffects) (.executeBatch migration.sql))
  let now ← Prog.perform (S := MigrationEffects) .now
  let appliedAt ← inTransaction (integer now)
  inTransaction (← Prog.perform (S := MigrationEffects)
    (.insert ⟨migration.version, migration.name, appliedAt⟩))
  inTransaction (← Prog.perform (S := MigrationEffects) .commit)
  return true

/-- Apply one migration in a transaction of its own, unless it has been applied
meanwhile, and whether it was. -/
def applyOne (migration : Migration) : MigrationM Bool := do
  .ofExcept (← Prog.perform (S := MigrationEffects) .begin)
  let recorded ← inTransaction (← recordedVersions)
  if migration.version ∈ recorded then
    inTransaction (← Prog.perform (S := MigrationEffects) .rollback)
    return false
  else apply migration

/-- Apply these one after another, and the versions that were. -/
def applyPending : List Migration → (applied : List ℕ) → MigrationM (List ℕ)
  | [], applied => return applied
  | migration :: rest, applied => do
    let new ← applyOne migration
    applyPending rest (if new then applied ++ [migration.version] else applied)

/-- Apply every migration the database has not seen yet. -/
def applyRegistered (migrations : List Migration) : MigrationM (List ℕ) := do
  .ofExcept (← Prog.perform (S := MigrationEffects) .createTable)
  let recorded ← .ofExcept (← recordedVersions)
  applyPending (migrations.filter fun migration => migration.version ∉ recorded) []

end MigrationM

/-! ## The database -/

/-- What a database holds: the versions recorded, if there is a table for them,
and all the rest. -/
structure Contents (C : Type) where
  rows : Option (List MigrationRow)
  rest : C

namespace Contents

variable {C : Type}

/-- The versions recorded, in order. -/
def recorded (contents : Contents C) : List ℕ :=
  (contents.rows.getD []).map MigrationRow.version

/-- With the table created, if there was none. -/
def withTable (contents : Contents C) : Contents C :=
  { contents with rows := some (contents.rows.getD []) }

end Contents

/-- The database, and the processes at it. -/
structure MigrationWorld (C : Type) where
  committed : Contents C
  /-- The write transaction that is open: whose it is, and what it sees. -/
  writing : Option (ℕ × Contents C)
  dead : ℕ → Prop
  /-- A call has returned `Ok`. -/
  returned : Prop

namespace MigrationWorld

variable {C : Type}

/-- What process `i` reads. -/
def view (w : MigrationWorld C) (i : ℕ) : Contents C :=
  match w.writing with
  | some (j, working) => if j = i then working else w.committed
  | none => w.committed

/-- Process `i` is in its transaction. -/
def Writes (w : MigrationWorld C) (i : ℕ) : Prop := ∃ working, w.writing = some (i, working)

/-- The transaction of process `i` gone on to `working`. -/
def workOn (w : MigrationWorld C) (i : ℕ) (working : Contents C) : MigrationWorld C :=
  { w with writing := some (i, working) }

/-- The transaction gone. -/
def released (w : MigrationWorld C) : MigrationWorld C := { w with writing := none }

/-- The table created, outside of any transaction. -/
def tableCreated (w : MigrationWorld C) : MigrationWorld C :=
  { w with committed := w.committed.withTable }

/-- What a transaction did, committed. -/
def commit (w : MigrationWorld C) (working : Contents C) : MigrationWorld C :=
  { w with committed := working, writing := none }

end MigrationWorld

section

variable {C : Type} (run : String → C → Option C)

/-- How a call of process `i` is answered, a failure landed or not. -/
def migrationSem (i : ℕ) (call : MigrationCall) (w : MigrationWorld C) (answer : call.Answer)
    (w' : MigrationWorld C) : Prop :=
  ¬ w.dead i ∧ match call with
  | .createTable =>
    (w.writing = none ∧ w' = w.tableCreated) ∨
      (w' = w ∧ (answer = .ok () → w.committed.rows.isSome))
  | .selectVersions => w' = w ∧
      ((∃ rows, (w.view i).rows = some rows ∧ answer = .ok (rows.map MigrationRow.version)) ∨
        ∃ error, answer = .error error)
  | .begin =>
    (answer = .ok () ∧ w.writing = none ∧ w' = w.workOn i w.committed) ∨
      ∃ error, answer = .error error ∧ w' = w
  | .rollback =>
    (w.Writes i ∧ w' = w.released) ∨ ∃ error, answer = .error error ∧ w' = w
  | .drop => (w.Writes i ∧ w' = w.released) ∨ (¬ w.Writes i ∧ w' = w)
  | .executeBatch sql => ∃ working, w.writing = some (i, working) ∧
      ((∃ rest, answer = .ok () ∧ run sql working.rest = some rest ∧
          w' = w.workOn i { working with rest := rest }) ∨
        ∃ error, answer = .error error ∧
          (w' = w.released ∨ ∃ working', w' = w.workOn i working'))
  | .now => w' = w
  | .insert row => ∃ working, w.writing = some (i, working) ∧
      ((∃ rows, answer = .ok () ∧ working.rows = some rows ∧
          row.version ∉ rows.map MigrationRow.version ∧
          w' = w.workOn i { working with rows := some (rows ++ [row]) }) ∨
        ∃ error, answer = .error error ∧
          (w' = w.released ∨ ∃ working', w' = w.workOn i working'))
  | .commit => ∃ working, w.writing = some (i, working) ∧
      (w' = w.commit working ∨ ∃ error, answer = .error error ∧ (w' = w ∨ w' = w.released))

/-- **Any number of processes at one database**, each calling with the same
registry. -/
def migrationSystem (registry : Registry) (start : Contents C) :
    System (fun _ : ℕ => MigrationEffects) StoreError (fun _ => List ℕ) (MigrationWorld C) where
  init w := w = ⟨start, none, fun _ => False, False⟩
  -- on a connection of its own, which is in no transaction
  start i p w w' := ¬ w.dead i ∧ ¬ w.Writes i ∧
    p = MigrationM.applyRegistered registry.migrations ∧ w' = w
  sem := migrationSem run
  lose _ _ _ _ := False
  finish i r w w' := ¬ w.dead i ∧ w' = { w with returned := w.returned ∨ r.isOk = true }
  env w w' := ∃ i, w' = { w with
    dead := fun j => j = i ∨ w.dead j
    writing := w.writing.filter fun writing => writing.1 ≠ i }

end

end Dependaboard
