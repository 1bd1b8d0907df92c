import Mathlib.Data.Char
import Mathlib.Data.Int.Order.Basic
import Mathlib.Data.List.Lex
import Dependaboard.Core.Batch
import Dependaboard.Relational.Query
import Dependaboard.Relational.Transaction
import Dependaboard.Store.Writer
/-!
# Store — the audit tables

The batches the workflow lists while they run and records once they have:
what each table holds, as columns, and the three writes. A batch's outcomes
are kept as JSON text, which `OutcomeCodec` writes and reads back. Every row a
reader may select decodes, which is a field of `BatchTables`, so tables a
read would fail on cannot be built.

A write is a call over its statements, each of which the database may refuse.
A start and an unlisting are one statement each; a record's statements are run
in one transaction.
-/

namespace Dependaboard

open Durable Relational

/-- How an outcome is written as JSON, and read back. -/
structure OutcomeCodec where
  toJson : TargetOutcome → String
  fromJson : String → Option TargetOutcome
  /-- What is written is read as it was. -/
  fromJson_toJson : ∀ outcome, fromJson (toJson outcome) = some outcome

/-! ## Columns -/

/-- Read an unsigned integer out of an integer column. -/
def unsigned (value : ℤ) : Except StoreError ℕ :=
  if 0 ≤ value then .ok value.toNat else .error .integerOverflow

@[simp] theorem unsigned_natCast (value : ℕ) : unsigned value = .ok value := by
  simp [unsigned]

/-- Read a column that may not be null. -/
def required : Option ℤ → Except StoreError ℤ
  | some value => .ok value
  | none => .error .nullValue

/-- Read a column that holds an enumeration's stored form. -/
def storedEnum {α : Type} (fromStr : String → Option α) (value : String) : Except StoreError α :=
  match fromStr value with
  | some a => .ok a
  | none => .error (.corruptEnum value)

/-- A row of `batches`. -/
structure BatchRow where
  batchId : String
  /-- Null on a row from before the column that nobody could attribute. -/
  installationId : Option ℤ
  action : String
  requestedBy : String
  retriedFrom : Option String
  startedAt : ℤ
  completedAt : ℤ
  succeeded : ℤ
  rejected : ℤ
  failed : ℤ
  deriving DecidableEq, Repr

/-- A row of `batch_targets`. -/
structure BatchTargetRow where
  batchId : String
  position : ℤ
  repositoryId : ℤ
  owner : String
  repo : String
  number : ℤ
  title : String
  htmlUrl : String
  headSha : Option String
  outcome : String
  deriving DecidableEq, Repr

/-- The primary key of `batch_targets`. -/
def BatchTargetRow.key (row : BatchTargetRow) : String × ℤ := (row.batchId, row.position)

/-- A row of `running_batches`. -/
structure RunningBatchRow where
  batchId : String
  installationId : Option ℤ
  action : String
  requestedBy : String
  retriedFrom : Option String
  startedAt : ℤ
  targetCount : ℤ
  deriving DecidableEq, Repr

/-- A `batches` row, without its targets. -/
def batchFromRow (row : BatchRow) : Except StoreError BatchRecord := do
  let installationId ← unsigned (← required row.installationId)
  let action ← storedEnum BulkActionKind.fromStr row.action
  let startedAt ← unsigned row.startedAt
  let completedAt ← unsigned row.completedAt
  let succeeded ← unsigned row.succeeded
  let rejected ← unsigned row.rejected
  let failed ← unsigned row.failed
  return {
    batchId := row.batchId
    installationId := installationId
    action := action
    requestedBy := row.requestedBy
    retriedFrom := row.retriedFrom
    startedAt := startedAt
    completedAt := completedAt
    succeeded := succeeded
    rejected := rejected
    failed := failed
    targets := [] }

/-- A `batch_targets` row, the target alone. -/
def batchTargetFromRow (codec : OutcomeCodec) (row : BatchTargetRow) :
    Except StoreError BatchTargetRecord := do
  let repositoryId ← unsigned row.repositoryId
  let number ← unsigned row.number
  match codec.fromJson row.outcome with
  | none => throw .json
  | some outcome =>
    return {
      repositoryId := repositoryId
      owner := row.owner
      repo := row.repo
      number := number
      title := row.title
      htmlUrl := row.htmlUrl
      headSha := row.headSha
      outcome := outcome }

/-- A `running_batches` row. -/
def runningBatchFromRow (row : RunningBatchRow) : Except StoreError RunningBatch := do
  let installationId ← unsigned (← required row.installationId)
  let action ← storedEnum BulkActionKind.fromStr row.action
  let startedAt ← unsigned row.startedAt
  let targetCount ← unsigned row.targetCount
  return {
    batchId := row.batchId
    installationId := installationId
    action := action
    requestedBy := row.requestedBy
    retriedFrom := row.retriedFrom
    startedAt := startedAt
    targetCount := targetCount }

/-- The header a finished batch is inserted as. -/
def BatchRecord.row (batch : BatchRecord) : Except StoreError BatchRow := do
  let installationId ← integer batch.installationId
  let startedAt ← integer batch.startedAt
  let completedAt ← integer batch.completedAt
  let succeeded ← integer batch.succeeded
  let rejected ← integer batch.rejected
  let failed ← integer batch.failed
  return {
    batchId := batch.batchId
    installationId := some installationId
    action := toString batch.action
    requestedBy := batch.requestedBy
    retriedFrom := batch.retriedFrom
    startedAt := startedAt
    completedAt := completedAt
    succeeded := succeeded
    rejected := rejected
    failed := failed }

/-- The row a target is inserted as, at its place in the batch. -/
def BatchTargetRecord.row (codec : OutcomeCodec) (batchId : String) (position : ℕ)
    (target : BatchTargetRecord) : Except StoreError BatchTargetRow := do
  let position ← integer position
  let repositoryId ← integer target.repositoryId
  let number ← integer target.number
  return {
    batchId := batchId
    position := position
    repositoryId := repositoryId
    owner := target.owner
    repo := target.repo
    number := number
    title := target.title
    htmlUrl := target.htmlUrl
    headSha := target.headSha
    outcome := codec.toJson target.outcome }

/-- The row a running batch is listed as. -/
def RunningBatch.row (batch : RunningBatch) : Except StoreError RunningBatchRow := do
  let installationId ← integer batch.installationId
  let startedAt ← integer batch.startedAt
  let targetCount ← integer batch.targetCount
  return {
    batchId := batch.batchId
    installationId := some installationId
    action := toString batch.action
    requestedBy := batch.requestedBy
    retriedFrom := batch.retriedFrom
    startedAt := startedAt
    targetCount := targetCount }

/-! ## The decoders invert the encoders -/

@[simp] theorem storedEnum_action (action : BulkActionKind) :
    storedEnum BulkActionKind.fromStr (toString action) = .ok action := by
  simp [storedEnum]

/-- What a header's row says of its batch. -/
theorem BatchRecord.row_ok {batch : BatchRecord} {row : BatchRow} (h : batch.row = .ok row) :
    batchFromRow row = .ok { batch with targets := [] } ∧ row.batchId = batch.batchId ∧
      row.installationId = some (batch.installationId : ℤ) ∧
      row.completedAt = batch.completedAt := by
  obtain ⟨-, h⟩ := integer_bind_ok h
  obtain ⟨-, h⟩ := integer_bind_ok h
  obtain ⟨-, h⟩ := integer_bind_ok h
  obtain ⟨-, h⟩ := integer_bind_ok h
  obtain ⟨-, h⟩ := integer_bind_ok h
  obtain ⟨-, h⟩ := integer_bind_ok h
  obtain rfl := Except.ok.inj h
  refine ⟨?_, rfl, rfl, rfl⟩
  simp only [batchFromRow, required, storedEnum_action, unsigned_natCast]
  rfl

/-- What a target's row says of it. -/
theorem BatchTargetRecord.row_ok {codec : OutcomeCodec} {batchId : String} {position : ℕ}
    {target : BatchTargetRecord} {row : BatchTargetRow}
    (h : target.row codec batchId position = .ok row) :
    batchTargetFromRow codec row = .ok target ∧ row.batchId = batchId ∧
      row.position = position := by
  obtain ⟨-, h⟩ := integer_bind_ok h
  obtain ⟨-, h⟩ := integer_bind_ok h
  obtain ⟨-, h⟩ := integer_bind_ok h
  obtain rfl := Except.ok.inj h
  refine ⟨?_, rfl, rfl⟩
  simp only [batchTargetFromRow, unsigned_natCast, codec.fromJson_toJson]
  rfl

/-- What a running batch's row says of it. -/
theorem RunningBatch.row_ok {batch : RunningBatch} {row : RunningBatchRow}
    (h : batch.row = .ok row) :
    runningBatchFromRow row = .ok batch ∧ row.batchId = batch.batchId ∧
      row.installationId = some (batch.installationId : ℤ) := by
  obtain ⟨-, h⟩ := integer_bind_ok h
  obtain ⟨-, h⟩ := integer_bind_ok h
  obtain ⟨-, h⟩ := integer_bind_ok h
  obtain rfl := Except.ok.inj h
  refine ⟨?_, rfl, rfl⟩
  simp only [runningBatchFromRow, required, storedEnum_action, unsigned_natCast]
  rfl

/-- A decoded header names its row's batch. -/
theorem batchId_of_batchFromRow {row : BatchRow} {batch : BatchRecord}
    (h : batchFromRow row = .ok batch) : batch.batchId = row.batchId := by
  obtain ⟨_, -, h⟩ := Except.bind_ok h
  obtain ⟨_, -, h⟩ := Except.bind_ok h
  obtain ⟨_, -, h⟩ := Except.bind_ok h
  obtain ⟨_, -, h⟩ := Except.bind_ok h
  obtain ⟨_, -, h⟩ := Except.bind_ok h
  obtain ⟨_, -, h⟩ := Except.bind_ok h
  obtain ⟨_, -, h⟩ := Except.bind_ok h
  obtain ⟨_, -, h⟩ := Except.bind_ok h
  obtain rfl := Except.ok.inj h
  rfl

/-- A decoded listing names its row's batch. -/
theorem batchId_of_runningBatchFromRow {row : RunningBatchRow} {batch : RunningBatch}
    (h : runningBatchFromRow row = .ok batch) : batch.batchId = row.batchId := by
  obtain ⟨_, -, h⟩ := Except.bind_ok h
  obtain ⟨_, -, h⟩ := Except.bind_ok h
  obtain ⟨_, -, h⟩ := Except.bind_ok h
  obtain ⟨_, -, h⟩ := Except.bind_ok h
  obtain ⟨_, -, h⟩ := Except.bind_ok h
  obtain rfl := Except.ok.inj h
  rfl

/-! ## The tables -/

/-- The audit tables. -/
@[ext] structure BatchTables (codec : OutcomeCodec) where
  batches : Table BatchRow String BatchRow.batchId
  targets : Table BatchTargetRow (String × ℤ) BatchTargetRow.key
  running : Table RunningBatchRow String RunningBatchRow.batchId
  /-- The foreign key. -/
  owned : ∀ row ∈ targets.rows, (batches.find? row.batchId).isSome
  /-- Every header an installation's read may select decodes. -/
  batchesRead : ∀ row ∈ batches.rows, row.installationId.isSome →
    ∃ batch, batchFromRow row = .ok batch
  targetsRead : ∀ row ∈ targets.rows, ∃ target, batchTargetFromRow codec row = .ok target
  runningRead : ∀ row ∈ running.rows, row.installationId.isSome →
    ∃ batch, runningBatchFromRow row = .ok batch

namespace BatchTables

variable {codec : OutcomeCodec}

/-- Tables just migrated. -/
def empty : BatchTables codec where
  batches := .empty
  targets := .empty
  running := .empty
  owned _ h := absurd h List.not_mem_nil
  batchesRead _ h := absurd h List.not_mem_nil
  targetsRead _ h := absurd h List.not_mem_nil
  runningRead _ h := absurd h List.not_mem_nil

/-- The batch has been recorded: its first record stands. -/
def Recorded (tables : BatchTables codec) (batchId : String) : Prop :=
  (tables.batches.find? batchId).isSome

/-- The batch is listed as running. -/
def Listed (tables : BatchTables codec) (batchId : String) : Prop :=
  (tables.running.find? batchId).isSome

instance (tables : BatchTables codec) (batchId : String) : Decidable (tables.Recorded batchId) :=
  inferInstanceAs (Decidable (_ = true))

instance (tables : BatchTables codec) (batchId : String) : Decidable (tables.Listed batchId) :=
  inferInstanceAs (Decidable (_ = true))

/-- `DELETE FROM running_batches WHERE batch_id = …`. -/
def deleteRunning (tables : BatchTables codec) (batchId : String) : BatchTables codec where
  batches := tables.batches
  targets := tables.targets
  running := tables.running.delete fun row => row.batchId = batchId
  owned := tables.owned
  batchesRead := tables.batchesRead
  targetsRead := tables.targetsRead
  runningRead row h := tables.runningRead row (Table.mem_delete.1 h).1

/-- `INSERT INTO running_batches`, at an id not yet listed. -/
def insertRunning (tables : BatchTables codec) (row : RunningBatchRow)
    (hnew : tables.running.find? row.batchId = none)
    (hread : ∃ batch, runningBatchFromRow row = .ok batch) : BatchTables codec where
  batches := tables.batches
  targets := tables.targets
  running := tables.running.insert row hnew
  owned := tables.owned
  batchesRead := tables.batchesRead
  targetsRead := tables.targetsRead
  runningRead := by
    intro other hother hsome
    rw [Table.rows_insert, List.mem_append, List.mem_singleton] at hother
    rcases hother with hother | rfl
    · exact tables.runningRead other hother hsome
    · exact hread

/-- `INSERT INTO batches`, at an id not yet recorded. -/
def insertBatch (tables : BatchTables codec) (row : BatchRow)
    (hnew : tables.batches.find? row.batchId = none)
    (hread : ∃ batch, batchFromRow row = .ok batch) : BatchTables codec where
  batches := tables.batches.insert row hnew
  targets := tables.targets
  running := tables.running
  owned := by
    intro target htarget
    have hold := tables.owned target htarget
    rw [Table.find?_insert]
    split
    · rfl
    · exact hold
  batchesRead := by
    intro other hother hsome
    rw [Table.rows_insert, List.mem_append, List.mem_singleton] at hother
    rcases hother with hother | rfl
    · exact tables.batchesRead other hother hsome
    · exact hread
  targetsRead := tables.targetsRead
  runningRead := tables.runningRead

/-- `INSERT INTO batch_targets`, at a place not yet taken, of a batch that is
recorded. -/
def insertTarget (tables : BatchTables codec) (row : BatchTargetRow)
    (hnew : tables.targets.find? row.key = none) (howned : tables.Recorded row.batchId)
    (hread : ∃ target, batchTargetFromRow codec row = .ok target) : BatchTables codec where
  batches := tables.batches
  targets := tables.targets.insert row hnew
  running := tables.running
  owned := by
    intro other hother
    rw [Table.rows_insert, List.mem_append, List.mem_singleton] at hother
    rcases hother with hother | rfl
    · exact tables.owned other hother
    · exact howned
  batchesRead := tables.batchesRead
  targetsRead := by
    intro other hother
    rw [Table.rows_insert, List.mem_append, List.mem_singleton] at hother
    rcases hother with hother | rfl
    · exact tables.targetsRead other hother
    · exact hread
  runningRead := tables.runningRead

end BatchTables

/-! ## The statements -/

/-- `SQLITE_CONSTRAINT_PRIMARYKEY`. -/
def primaryKeyCode : ℕ := 1555

/-- A row some reader's decoder accepts, so that only such a row is written. -/
abbrev Readable {ρ α : Type} (decode : ρ → Except StoreError α) : Type :=
  { row : ρ // ∃ a, decode row = .ok a }

/-- A row encoded, with what its decoder makes of it. -/
def readable {ρ α : Type} {decode : ρ → Except StoreError α} (encoded : Except StoreError ρ)
    (h : ∀ row, encoded = .ok row → ∃ a, decode row = .ok a) : Except StoreError (Readable decode) :=
  match encoded, h with
  | .error error, _ => .error error
  | .ok row, h => .ok ⟨row, h row rfl⟩

theorem readable_eq_ok {ρ α : Type} {decode : ρ → Except StoreError α}
    {encoded : Except StoreError ρ} {h : ∀ row, encoded = .ok row → ∃ a, decode row = .ok a}
    {row : Readable decode} : readable encoded h = .ok row ↔ encoded = .ok row.1 := by
  cases encoded with
  | error error => exact iff_of_false nofun nofun
  | ok encoded =>
    rw [readable, Except.ok.injEq, Except.ok.injEq]
    exact Subtype.ext_iff

theorem readable_of_eq_ok {ρ α : Type} {decode : ρ → Except StoreError α}
    {encoded : Except StoreError ρ} {h : ∀ row, encoded = .ok row → ∃ a, decode row = .ok a}
    {row : ρ} (hrow : encoded = .ok row) : readable encoded h = .ok ⟨row, h row hrow⟩ :=
  readable_eq_ok.2 hrow

/-- A statement that writes the audit tables. -/
inductive AuditWrite (codec : OutcomeCodec) where
  /-- `DELETE FROM running_batches WHERE batch_id = ?1`. -/
  | deleteRunning (batchId : String)
  /-- `INSERT INTO running_batches … ON CONFLICT(batch_id) DO NOTHING`. -/
  | insertRunning (row : Readable runningBatchFromRow)
  /-- `INSERT INTO batches … ON CONFLICT(batch_id) DO NOTHING`. -/
  | insertBatch (row : Readable batchFromRow)
  /-- `INSERT INTO batch_targets`. -/
  | insertTarget (row : Readable (batchTargetFromRow codec))

/-- The interface of the audit tables: each statement answers how many rows it
wrote or took away. -/
@[reducible] def AuditWrites (codec : OutcomeCodec) : Signature := ⟨AuditWrite codec, fun _ => ℕ⟩

/-- What each statement does to the tables. -/
def AuditWrite.step {codec : OutcomeCodec} :
    Statements (AuditWrites codec) StoreError (BatchTables codec)
  | .deleteRunning batchId, tables =>
    .ok ((tables.running.rows.filter fun row => row.batchId = batchId).length,
      tables.deleteRunning batchId)
  | .insertRunning row, tables =>
    if hnew : tables.running.find? row.1.batchId = none then
      .ok (1, tables.insertRunning row.1 hnew row.2)
    else .ok (0, tables)
  | .insertBatch row, tables =>
    if hnew : tables.batches.find? row.1.batchId = none then
      .ok (1, tables.insertBatch row.1 hnew row.2)
    else .ok (0, tables)
  | .insertTarget row, tables =>
    if howned : tables.Recorded row.1.batchId then
      if hnew : tables.targets.find? row.1.key = none then
        .ok (1, tables.insertTarget row.1 hnew howned row.2)
      else .error (.database primaryKeyCode)
    else .error (.database foreignKeyCode)

/-! ## The three writes -/

/-- A call over the audit tables. -/
abbrev AuditM (codec : OutcomeCodec) (α : Type) : Type := Prog (AuditWrites codec) StoreError α

namespace AuditM

variable {codec : OutcomeCodec}

/-- List a batch as running, once. -/
def startBatch (batch : RunningBatch) : AuditM codec Unit :=
  once (readable batch.row fun _ hrow => ⟨batch, (RunningBatch.row_ok hrow).1⟩) .insertRunning

/-- Stop listing a batch as running. -/
def unlistBatch (batchId : String) : AuditM codec Unit := once (.ok batchId) .deleteRunning

/-- Insert the targets of a batch, from `position` on. -/
def insertTargets (batchId : String) : ℕ → List BatchTargetRecord → AuditM codec Unit
  | _, [] => .done ()
  | position, target :: rest => do
    let row ← Prog.ofExcept (readable (target.row codec batchId position)
      fun _ hrow => ⟨target, (BatchTargetRecord.row_ok hrow).1⟩)
    Prog.ask (S := AuditWrites codec) (.insertTarget row) fun _ =>
      insertTargets batchId (position + 1) rest

/-- Record a finished batch: its listing goes whether or not this is the
record that stands. -/
def recordBatch (batch : BatchRecord) : AuditM codec Unit :=
  Prog.ask (S := AuditWrites codec) (.deleteRunning batch.batchId) fun _ => do
    let row ← Prog.ofExcept (readable batch.row fun _ hrow => ⟨_, (BatchRecord.row_ok hrow).1⟩)
    Prog.ask (S := AuditWrites codec) (.insertBatch row) fun inserted =>
      if inserted = 0 then .done () else insertTargets batch.batchId 0 batch.targets

end AuditM

/-- A write of the audit tables. -/
inductive BatchWrite where
  | start (batch : RunningBatch)
  | unlist (batchId : String)
  | record (batch : BatchRecord)
  deriving DecidableEq, Repr

/-- The statements of a call that the database refuses, by their place in
it. -/
abbrev Faults : Type := ℕ → Option StoreError

namespace BatchWrite

/-- The statements of each, in the order the database is asked for them. -/
def statements {codec : OutcomeCodec} : BatchWrite → AuditM codec Unit
  | start batch => AuditM.startBatch batch
  | unlist batchId => AuditM.unlistBatch batchId
  | record batch => AuditM.recordBatch batch

/-- A start and an unlisting are one statement each, which commits by itself; a
record's are kept only together. -/
def transacted : BatchWrite → Bool
  | start _ | unlist _ => false
  | record _ => true

/-- A write and what it leaves, any of its statements refused. -/
def apply {codec : OutcomeCodec} (faults : Faults) (tables : BatchTables codec)
    (write : BatchWrite) : Except StoreError Unit × BatchTables codec :=
  if write.transacted then transaction AuditWrite.step faults write.statements tables
  else autocommit AuditWrite.step faults write.statements tables

/-- What a write leaves where it succeeds. -/
def run {codec : OutcomeCodec} (faults : Faults) (tables : BatchTables codec)
    (write : BatchWrite) : Except StoreError (BatchTables codec) :=
  match write.apply faults tables with
  | (.ok (), after) => .ok after
  | (.error error, _) => .error error

end BatchWrite

namespace BatchTables

variable {codec : OutcomeCodec}

/-- The tables a start leaves. -/
def startBatch (faults : Faults) (tables : BatchTables codec) (batch : RunningBatch) :
    Except StoreError (BatchTables codec) :=
  (BatchWrite.start batch).run faults tables

/-- The tables an unlisting leaves. -/
def unlistBatch (faults : Faults) (tables : BatchTables codec) (batchId : String) :
    Except StoreError (BatchTables codec) :=
  (BatchWrite.unlist batchId).run faults tables

/-- The tables a record leaves. -/
def recordBatch (faults : Faults) (tables : BatchTables codec) (batch : BatchRecord) :
    Except StoreError (BatchTables codec) :=
  (BatchWrite.record batch).run faults tables

end BatchTables

/-! ## The reads -/

/-- What the projection holds of one batch. -/
inductive ProjectedBatch where
  | running (batch : RunningBatch)
  | finished (batch : BatchRecord)
  deriving DecidableEq, Repr

/-- The order the finished batches are listed in: text compares as its code
points do. -/
def BatchRow.order (row : BatchRow) : ℤ ×ₗ List Char := toLex (row.completedAt, row.batchId.toList)

/-- The order the running batches are listed in. -/
def RunningBatchRow.order (row : RunningBatchRow) : ℤ ×ₗ List Char :=
  toLex (row.startedAt, row.batchId.toList)

/-- The order targets are read in: by batch, then by place. -/
def BatchTargetRow.order (row : BatchTargetRow) : List Char ×ₗ ℤ :=
  toLex (row.batchId.toList, row.position)

namespace BatchTables

variable {codec : OutcomeCodec}

/-- The headers of an installation's latest batches. -/
def recentRows (tables : BatchTables codec) (installationId limit : ℕ) : List BatchRow :=
  (orderByDesc BatchRow.order
    (tables.batches.rows.filter fun row => row.installationId = some (installationId : ℤ))).take
      limit

/-- An installation's latest batches, newest first. -/
def recentBatches (tables : BatchTables codec) (installationId limit : ℕ) :
    Except StoreError (List BatchRecord) := do
  let installationId ← integer installationId
  let batches ← (tables.recentRows installationId limit).mapM batchFromRow
  if batches = [] then return []
  let selected := orderBy BatchTargetRow.order
    (tables.targets.rows.filter fun row => row.batchId ∈ batches.map BatchRecord.batchId)
  let targets ← selected.mapM fun row => do return (row.batchId, ← batchTargetFromRow codec row)
  return batches.map fun batch =>
    { batch with
      targets := (targets.filter fun entry => entry.1 = batch.batchId).map Prod.snd }

/-- An installation's running batches, newest first. -/
def runningBatches (tables : BatchTables codec) (installationId : ℕ) :
    Except StoreError (List RunningBatch) := do
  let installationId ← integer installationId
  (orderByDesc RunningBatchRow.order (tables.running.rows.filter fun row =>
    row.installationId = some (installationId : ℤ))).mapM runningBatchFromRow

/-- What the projection holds of a batch, for an installation: its record with
its targets, or its listing. -/
def getBatch (tables : BatchTables codec) (installationId : ℕ) (batchId : String) :
    Except StoreError (Option ProjectedBatch) := do
  let installationId ← integer installationId
  match tables.batches.rows.find? fun row =>
      row.batchId = batchId ∧ row.installationId = some (installationId : ℤ) with
  | some row =>
    let batch ← batchFromRow row
    let targets ← (orderBy BatchTargetRow.position
      (tables.targets.rows.filter fun row => row.batchId = batchId)).mapM
        (batchTargetFromRow codec)
    return some (.finished { batch with targets := targets })
  | none =>
    match tables.running.rows.find? fun row =>
        row.batchId = batchId ∧ row.installationId = some (installationId : ℤ) with
    | some row => return some (.running (← runningBatchFromRow row))
    | none => return none

end BatchTables

end Dependaboard
