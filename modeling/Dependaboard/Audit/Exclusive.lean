import Dependaboard.Audit.Written
import Dependaboard.Store.OutcomeJson
/-!
# Audit — a batch is running or finished

A record takes the batch's listing with it, and a start lists a batch whether
or not it has been recorded. So a batch is listed or recorded and never both,
and the three readers tell one story, in every run of the writes in which no
start lands for a batch already recorded; one that does lands the batch in
both tables.
-/

namespace Dependaboard

open Durable Relational

/-- The integers of a listing are SQLite's. -/
structure RunningBatch.Fits (batch : RunningBatch) : Prop where
  installationId : batch.installationId < i64Size
  startedAt : batch.startedAt < i64Size
  targetCount : batch.targetCount < i64Size

theorem RunningBatch.row_ok_iff {batch : RunningBatch} :
    (∃ row, batch.row = .ok row) ↔ batch.Fits := by
  constructor
  · rintro ⟨row, h⟩
    obtain ⟨h₁, h⟩ := integer_bind_ok h
    obtain ⟨h₂, h⟩ := integer_bind_ok h
    obtain ⟨h₃, -⟩ := integer_bind_ok h
    exact ⟨h₁, h₂, h₃⟩
  · rintro ⟨h₁, h₂, h₃⟩
    simp only [RunningBatch.row, integer_of_lt h₁, integer_of_lt h₂, integer_of_lt h₃]
    exact ⟨_, rfl⟩

namespace BatchTables

variable {codec : OutcomeCodec} {tables after : BatchTables codec} {faults : Faults}

theorem recorded_iff {batchId : String} :
    tables.Recorded batchId ↔ ∃ row ∈ tables.batches.rows, row.batchId = batchId := by
  simp [Recorded, Option.isSome_iff_exists, Relational.Table.find?_eq_some]

theorem listed_iff {batchId : String} :
    tables.Listed batchId ↔ ∃ row ∈ tables.running.rows, row.batchId = batchId := by
  simp [Listed, Option.isSome_iff_exists, Relational.Table.find?_eq_some]

/-- **The three readers tell one story**: no batch is in both tables, each is
answered as it is held, and none shown finished is shown running. -/
structure Agreed (tables : BatchTables codec) : Prop where
  exclusive : ∀ batchId, ¬ (tables.Recorded batchId ∧ tables.Listed batchId)
  finished : ∀ installationId batchId,
    (∃ batch, tables.getBatch installationId batchId = .ok (some (.finished batch))) ↔
      tables.RecordedFor installationId batchId
  running : ∀ installationId batchId,
    (∃ batch, tables.getBatch installationId batchId = .ok (some (.running batch))) ↔
      tables.ListedFor installationId batchId
  recent : ∀ installationId batchId,
    (∃ limit batches, tables.recentBatches installationId limit = .ok batches ∧
        ∃ batch ∈ batches, batch.batchId = batchId) ↔
      tables.RecordedFor installationId batchId
  listing : ∀ installationId batchId,
    (∃ batches, tables.runningBatches installationId = .ok batches ∧
        ∃ batch ∈ batches, batch.batchId = batchId) ↔
      tables.ListedFor installationId batchId
  apart : ∀ installationId limit finished running,
    tables.recentBatches installationId limit = .ok finished →
      tables.runningBatches installationId = .ok running →
        ∀ batch ∈ finished, ∀ other ∈ running, batch.batchId ≠ other.batchId

/-! ## What makes them agree -/

/-- No batch is in both tables, and no row is of an installation past
SQLite's integers. -/
structure Exclusive (tables : BatchTables codec) : Prop where
  exclusive : ∀ batchId, ¬ (tables.Recorded batchId ∧ tables.Listed batchId)
  recorded : ∀ installationId batchId, tables.RecordedFor installationId batchId →
    installationId < i64Size
  listed : ∀ installationId batchId, tables.ListedFor installationId batchId →
    installationId < i64Size

theorem RecordedFor.recorded {installationId : ℕ} {batchId : String}
    (h : tables.RecordedFor installationId batchId) : tables.Recorded batchId := by
  obtain ⟨row, hrow, hid, -⟩ := h
  exact recorded_iff.2 ⟨row, hrow, hid⟩

theorem ListedFor.listed {installationId : ℕ} {batchId : String}
    (h : tables.ListedFor installationId batchId) : tables.Listed batchId := by
  obtain ⟨row, hrow, hid, -⟩ := h
  exact listed_iff.2 ⟨row, hrow, hid⟩

/-- Nothing is read for an installation past SQLite's integers. -/
theorem lt_of_read {α : Type} {installationId : ℕ} {read : ℕ → Except StoreError α} {answer : α}
    (h : (integer installationId >>= read) = .ok answer) : installationId < i64Size :=
  (integer_bind_ok h).1

theorem Agreed.exclusive' (h : tables.Agreed) : tables.Exclusive where
  exclusive := h.exclusive
  recorded installationId batchId hrecorded := by
    obtain ⟨batch, hbatch⟩ := (h.finished installationId batchId).2 hrecorded
    exact lt_of_read hbatch
  listed installationId batchId hlisted := by
    obtain ⟨batch, hbatch⟩ := (h.running installationId batchId).2 hlisted
    exact lt_of_read hbatch

/-- **Tables no batch is in twice are read alike.** -/
theorem Exclusive.agreed (h : tables.Exclusive) : tables.Agreed where
  exclusive := h.exclusive
  finished installationId batchId := by
    constructor
    · rintro ⟨batch, hbatch⟩
      exact (getBatch_finished (lt_of_read hbatch)).1 ⟨batch, hbatch⟩
    · intro hrecorded
      exact (getBatch_finished (h.recorded _ _ hrecorded)).2 hrecorded
  running installationId batchId := by
    constructor
    · rintro ⟨batch, hbatch⟩
      exact ((getBatch_running (lt_of_read hbatch)).1 ⟨batch, hbatch⟩).1
    · intro hlisted
      refine (getBatch_running (h.listed _ _ hlisted)).2 ⟨hlisted, fun hrecorded => ?_⟩
      exact h.exclusive batchId ⟨hrecorded.recorded, hlisted.listed⟩
  recent installationId batchId := by
    constructor
    · rintro ⟨limit, batches, hread, hshown⟩
      exact (recentBatches_shows (lt_of_read hread)).1 ⟨limit, batches, hread, hshown⟩
    · intro hrecorded
      exact (recentBatches_shows (h.recorded _ _ hrecorded)).2 hrecorded
  listing installationId batchId := by
    constructor
    · rintro ⟨batches, hread, hshown⟩
      exact (runningBatches_shows (lt_of_read hread)).1 ⟨batches, hread, hshown⟩
    · intro hlisted
      exact (runningBatches_shows (h.listed _ _ hlisted)).2 hlisted
  apart installationId limit finished running hfinished hrunning batch hbatch other hother hsame := by
    have hrecorded := (recentBatches_shows (lt_of_read hfinished)).1
      ⟨limit, finished, hfinished, batch, hbatch, rfl⟩
    have hlisted := (runningBatches_shows (lt_of_read hrunning)).1
      ⟨running, hrunning, other, hother, rfl⟩
    rw [← hsame] at hlisted
    exact h.exclusive batch.batchId ⟨hrecorded.recorded, hlisted.listed⟩

/-! ## What a write makes of them -/

/-- A start of a batch already recorded, its statement carried out. -/
def LateStart (tables : BatchTables codec) (faults : Faults) : BatchWrite → Prop
  | .start batch => tables.Recorded batch.batchId ∧ batch.Fits ∧ faults 0 = none
  | .unlist _ | .record _ => False

/-- **A start keeps the batches apart**, of a batch not yet recorded. -/
theorem Exclusive.startBatch (h : tables.Exclusive) {batch : RunningBatch}
    (hnew : ¬ tables.Recorded batch.batchId) (hok : tables.startBatch faults batch = .ok after) :
    after.Exclusive := by
  obtain ⟨row, hrow, -, hbatches, -, hrunning⟩ := startBatch_ok hok
  obtain ⟨-, hid, hinstallation⟩ := RunningBatch.row_ok hrow
  have hrows : ∀ other ∈ after.running.rows, other ∈ tables.running.rows ∨ other = row := by
    intro other hother
    rcases hrunning with ⟨-, hrunning⟩ | ⟨-, hrunning⟩
    · exact .inl (hrunning ▸ hother)
    · rw [hrunning, List.mem_append, List.mem_singleton] at hother
      exact hother
  refine ⟨?_, ?_, ?_⟩
  · rintro id ⟨hrecorded, hlisted⟩
    rw [recorded_iff, hbatches, ← recorded_iff] at hrecorded
    obtain ⟨other, hother, rfl⟩ := listed_iff.1 hlisted
    rcases hrows other hother with hold | rfl
    · exact h.exclusive other.batchId ⟨hrecorded, listed_iff.2 ⟨other, hold, rfl⟩⟩
    · exact hnew (hid ▸ hrecorded)
  · intro installationId id hfor
    refine h.recorded installationId id ?_
    rwa [RecordedFor, hbatches] at hfor
  · rintro installationId id ⟨other, hother, hscoped⟩
    rcases hrows other hother with hold | rfl
    · exact h.listed installationId id ⟨other, hold, hscoped⟩
    · have hsame := Option.some.inj (hinstallation.symm.trans hscoped.2)
      have := (RunningBatch.row_ok_iff.1 ⟨other, hrow⟩).installationId
      omega

theorem Exclusive.deleteRunning (h : tables.Exclusive) (batchId : String) :
    (tables.deleteRunning batchId).Exclusive := by
  refine ⟨?_, h.recorded, ?_⟩
  · rintro id ⟨hrecorded, hlisted⟩
    obtain ⟨row, hrow, rfl⟩ := listed_iff.1 hlisted
    refine h.exclusive row.batchId ⟨hrecorded, listed_iff.2 ⟨row, ?_, rfl⟩⟩
    exact (Relational.Table.mem_delete.1 hrow).1
  · rintro installationId id ⟨row, hrow, hscoped⟩
    exact h.listed installationId id ⟨row, (Relational.Table.mem_delete.1 hrow).1, hscoped⟩

/-- **A record keeps the batches apart**: the listing it names goes with
it. -/
theorem Exclusive.recordBatch (h : tables.Exclusive) {batch : BatchRecord}
    (hok : tables.recordBatch faults batch = .ok after) : after.Exclusive := by
  obtain ⟨hrunning, hbatches⟩ := recordBatch_ok hok
  have hlisted : ∀ other ∈ after.running.rows,
      other ∈ tables.running.rows ∧ other.batchId ≠ batch.batchId := by
    intro other hother
    rw [hrunning, Relational.Table.mem_delete] at hother
    exact ⟨hother.1, by simpa using hother.2⟩
  have hrows : ∀ other ∈ after.batches.rows, other ∈ tables.batches.rows ∨
      other.batchId = batch.batchId ∧ batch.row = .ok other := by
    intro other hother
    rcases hbatches with ⟨-, hbatches, -⟩ | ⟨-, row, rows, hrow, hbatches, -⟩
    · exact .inl (hbatches ▸ hother)
    · rw [hbatches, List.mem_append, List.mem_singleton] at hother
      rcases hother with hold | rfl
      · exact .inl hold
      · exact .inr ⟨(BatchRecord.row_ok hrow).2.1, hrow⟩
  -- the record takes its own listing away, so nothing stands on both sides
  refine ⟨?_, ?_, ?_⟩
  · rintro id ⟨hrecorded, hlist⟩
    obtain ⟨other, hother, rfl⟩ := listed_iff.1 hlist
    obtain ⟨row, hrow, hid⟩ := recorded_iff.1 hrecorded
    obtain ⟨hold, hne⟩ := hlisted other hother
    rcases hrows row hrow with hrow | ⟨hnew, -⟩
    · exact h.exclusive other.batchId
        ⟨recorded_iff.2 ⟨row, hrow, hid⟩, listed_iff.2 ⟨other, hold, rfl⟩⟩
    · exact hne (hid.symm.trans hnew)
  · rintro installationId id ⟨row, hrow, hscoped⟩
    rcases hrows row hrow with hold | ⟨-, hnew⟩
    · exact h.recorded installationId id ⟨row, hold, hscoped⟩
    · obtain ⟨hbound, -⟩ := integer_bind_ok hnew
      have hsame := Option.some.inj ((BatchRecord.row_ok hnew).2.2.1.symm.trans hscoped.2)
      omega
  · rintro installationId id ⟨other, hother, hscoped⟩
    exact h.listed installationId id ⟨other, (hlisted other hother).1, hscoped⟩

/-- **A write keeps the batches apart**, unless it is a late start. -/
theorem Exclusive.apply (h : tables.Exclusive) {write : BatchWrite}
    (honTime : ¬ LateStart tables faults write) : (write.apply faults tables).2.Exclusive := by
  rcases apply_cases faults write tables with ⟨after, happly⟩ | ⟨error, happly⟩
  · have hrun : write.run faults tables = .ok after := run_eq_ok.2 happly
    rw [happly]
    cases write with
    | start batch =>
      obtain ⟨row, hrow, hfault, -⟩ := startBatch_ok hrun
      refine h.startBatch (fun hrecorded => ?_) hrun
      exact honTime ⟨hrecorded, RunningBatch.row_ok_iff.1 ⟨row, hrow⟩, hfault⟩
    | unlist batchId =>
      rw [unlistBatch_ok hrun]
      exact h.deleteRunning batchId
    | record batch => exact h.recordBatch hrun
  · rw [happly]
    exact h

variable (tables) in
/-- A start the database carries out succeeds. -/
theorem startBatch_of_fits {batch : RunningBatch} (hfits : batch.Fits) (hfault : faults 0 = none) :
    ∃ after, tables.startBatch faults batch = .ok after := by
  obtain ⟨row, hrow⟩ := RunningBatch.row_ok_iff.2 hfits
  have hstart : ∃ after, autocommit AuditWrite.step faults (AuditM.startBatch batch) tables
      = (.ok (), after) := by
    rw [AuditM.startBatch, readable_of_eq_ok hrow, autocommit_statement hfault, AuditWrite.step]
    split_ifs <;> exact ⟨_, rfl⟩
  obtain ⟨after, hafter⟩ := hstart
  exact ⟨after, run_eq_ok.2 hafter⟩

/-- **A late start puts the batch in both tables.** -/
theorem LateStart.both {write : BatchWrite} (h : LateStart tables faults write) :
    ∃ batchId, (write.apply faults tables).2.Recorded batchId ∧
      (write.apply faults tables).2.Listed batchId := by
  cases write with
  | unlist _ => exact h.elim
  | record _ => exact h.elim
  | start batch =>
    obtain ⟨hrecorded, hfits, hfault⟩ := h
    obtain ⟨after, hafter⟩ := startBatch_of_fits tables hfits hfault
    obtain ⟨row, hrow, -, hbatches, -, hrunning⟩ := startBatch_ok hafter
    have hleft : ((BatchWrite.start batch).apply faults tables).2 = after := by
      rw [run_eq_ok.1 hafter]
    refine ⟨batch.batchId, ?_, ?_⟩
    · rw [hleft, recorded_iff, hbatches, ← recorded_iff]
      exact hrecorded
    · rw [hleft]
      rcases hrunning with ⟨hlisted, hrunning⟩ | ⟨-, hrunning⟩
      · rwa [listed_iff, hrunning, ← listed_iff]
      · refine listed_iff.2 ⟨row, ?_, (RunningBatch.row_ok hrow).2.1⟩
        rw [hrunning]
        exact List.mem_append_right _ List.mem_cons_self

/-! ## Runs -/

/-- The tables a run of writes passes through, each write meeting the faults
it meets. -/
def passed (tables : BatchTables codec) : List (Faults × BatchWrite) → List (BatchTables codec)
  | [] => [tables]
  | (faults, write) :: rest => tables :: passed (write.apply faults tables).2 rest

/-- No write of the run is a late start. -/
def OnTime (tables : BatchTables codec) : List (Faults × BatchWrite) → Prop
  | [] => True
  | (faults, write) :: rest =>
    ¬ LateStart tables faults write ∧ OnTime (write.apply faults tables).2 rest

theorem mem_passed (tables : BatchTables codec) (writes : List (Faults × BatchWrite)) :
    tables ∈ tables.passed writes := by
  cases writes with
  | nil => exact List.mem_singleton_self _
  | cons _ _ => exact List.mem_cons_self

/-- **A batch is running or finished, never both, and the readers say which**:
in every state a run passes through, exactly when no start lands late. -/
theorem batch_running_or_finished (tables : BatchTables codec) (hagreed : tables.Agreed)
    (writes : List (Faults × BatchWrite)) :
    (∀ passed ∈ tables.passed writes, passed.Agreed) ↔ tables.OnTime writes := by
  induction writes generalizing tables with
  | nil => simpa [passed, OnTime] using hagreed
  | cons step rest ih =>
    obtain ⟨faults, write⟩ := step
    rw [passed, OnTime, List.forall_mem_cons]
    by_cases hlate : LateStart tables faults write
    · -- the very next state holds the batch twice
      obtain ⟨batchId, hboth⟩ := hlate.both
      refine iff_of_false (fun h => ?_) fun h => h.1 hlate
      exact (h.2 _ (mem_passed _ rest)).exclusive batchId hboth
    · have hnext := ((hagreed.exclusive').apply hlate).agreed
      rw [ih _ hnext]
      exact ⟨fun h => ⟨hlate, h.2⟩, fun h => ⟨hagreed, h.2⟩⟩

theorem agreed_empty : (empty : BatchTables codec).Agreed :=
  Exclusive.agreed ⟨fun _ h => absurd h.1 Bool.false_ne_true,
    fun _ _ ⟨_, h, _⟩ => absurd h List.not_mem_nil, fun _ _ ⟨_, h, _⟩ => absurd h List.not_mem_nil⟩

/-- A merge of one pull request, as it is listed when it starts. -/
def sampleStart : RunningBatch where
  batchId := "batch-1"
  installationId := 9
  action := .merge
  requestedBy := "alice"
  retriedFrom := none
  startedAt := 970
  targetCount := 1

/-- The same merge, as it is recorded. -/
def sampleFinish : BatchRecord where
  batchId := "batch-1"
  installationId := 9
  action := .merge
  requestedBy := "alice"
  retriedFrom := none
  startedAt := 970
  completedAt := 1000
  succeeded := 1
  rejected := 0
  failed := 0
  targets := [{
    repositoryId := 1
    owner := "acme"
    repo := "repo-1"
    number := 1
    title := "Bump serde from 1.0.0 to 1.1.0"
    htmlUrl := "https://github.com/acme/repo-1/pull/1"
    headSha := some "abc123"
    outcome := .succeeded "merged" (some "9f8e7d6c5b4a") }]

/-- The merge listed, recorded and unlisted, no write of it failing. -/
def sampleRun : List (Faults × BatchWrite) :=
  [(fun _ => none, .start sampleStart), (fun _ => none, .record sampleFinish),
    (fun _ => none, .unlist "batch-1")]

theorem onTime_sampleRun : (empty : BatchTables outcomeJson).OnTime sampleRun :=
  ⟨fun h => absurd h.1 Bool.false_ne_true, fun h => h, fun h => h, trivial⟩

theorem batch_running_or_finished_sample :
    (empty : BatchTables outcomeJson).OnTime sampleRun ∧
      ∀ passed ∈ (empty : BatchTables outcomeJson).passed sampleRun, passed.Agreed :=
  ⟨onTime_sampleRun, (batch_running_or_finished empty agreed_empty sampleRun).2 onTime_sampleRun⟩

/-- **A start that lands after the record leaves the batch running and
finished.** -/
theorem batch_running_and_finished :
    ¬ ∀ passed ∈ (empty : BatchTables outcomeJson).passed
        [(fun _ => none, .record sampleFinish), (fun _ => none, .start sampleStart)],
      passed.Agreed := by
  intro h
  refine (h _ (List.mem_cons_of_mem _ (List.mem_cons_of_mem _ List.mem_cons_self))).exclusive
    "batch-1" ⟨?_, ?_⟩
  · decide +kernel
  · decide +kernel

end BatchTables

end Dependaboard
