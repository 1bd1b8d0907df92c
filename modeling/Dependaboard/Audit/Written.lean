import Dependaboard.Store.Batches
/-!
# Audit — what the writes leave and the reads find

One lemma for each write of the audit tables, naming every row it added or
took away, and one for each read, naming the rows it answers with. A batch
that is recorded is read as `whole` by both readers of finished batches.
-/

namespace Dependaboard

open Durable Relational

namespace BatchTables

variable {codec : OutcomeCodec} {tables after : BatchTables codec} {faults : Faults}

/-! ## The reads -/

/-- The targets kept for a batch, in their places. -/
def targetsOf (tables : BatchTables codec) (batchId : String) :
    Except StoreError (List BatchTargetRecord) :=
  (orderBy BatchTargetRow.position
    (tables.targets.rows.filter fun row => row.batchId = batchId)).mapM (batchTargetFromRow codec)

/-- A header with its targets. -/
def whole (tables : BatchTables codec) (row : BatchRow) : Except StoreError BatchRecord := do
  let batch ← batchFromRow row
  let targets ← tables.targetsOf row.batchId
  return { batch with targets := targets }

variable (tables) in
theorem targetsOf_ok (batchId : String) : ∃ targets, tables.targetsOf batchId = .ok targets := by
  refine exists_mapM fun row hrow => ?_
  exact tables.targetsRead row (List.mem_filter.1 (mem_orderBy.1 hrow)).1

/-- Every header an installation may read is read whole. -/
theorem whole_ok {row : BatchRow} (hrow : row ∈ tables.batches.rows)
    (hinstallation : row.installationId.isSome) :
    ∃ batch, tables.whole row = .ok batch ∧ batch.batchId = row.batchId := by
  obtain ⟨header, hheader⟩ := tables.batchesRead row hrow hinstallation
  obtain ⟨targets, htargets⟩ := tables.targetsOf_ok row.batchId
  have hid : header.batchId = row.batchId := batchId_of_batchFromRow hheader
  refine ⟨{ header with targets := targets }, ?_, hid⟩
  rw [whole, hheader, Except.ok_bind, htargets]
  rfl

/-- The place of a target orders the targets of one batch. -/
theorem orderBy_order (batchId : String) :
    orderBy BatchTargetRow.order (tables.targets.rows.filter fun row => row.batchId = batchId)
      = orderBy BatchTargetRow.position
        (tables.targets.rows.filter fun row => row.batchId = batchId) := by
  have hbatch : ∀ row ∈ tables.targets.rows.filter fun row => row.batchId = batchId,
      row.batchId = batchId := fun row hrow => by simpa using (List.mem_filter.1 hrow).2
  have hplaces : ((tables.targets.rows.filter fun row => row.batchId = batchId).map
      BatchTargetRow.position).Nodup := by
    refine List.Nodup.map_on ?_ (tables.targets.unique.of_map _ |>.filter _)
    intro a ha b hb hplace
    refine Table.eq_of_key_eq (List.mem_filter.1 ha).1 (List.mem_filter.1 hb).1 ?_
    exact Prod.ext ((hbatch a ha).trans (hbatch b hb).symm) hplace
  refine eq_orderBy (perm_orderBy _) ?_
  refine (pairwise_lt_orderBy hplaces).imp_of_mem fun {a b} ha hb hlt => ?_
  rw [BatchTargetRow.order, BatchTargetRow.order, hbatch a (mem_orderBy.1 ha),
    hbatch b (mem_orderBy.1 hb)]
  exact Prod.Lex.toLex_lt_toLex.2 (.inr ⟨rfl, hlt⟩)

variable (tables) in
/-- Targets read for several batches, taken for one, are those kept for it. -/
theorem selected_filter {batchIds : List String} {batchId : String} (h : batchId ∈ batchIds) :
    (orderBy BatchTargetRow.order
        (tables.targets.rows.filter fun row => row.batchId ∈ batchIds)).filter
          (fun row => row.batchId = batchId)
      = orderBy BatchTargetRow.position
        (tables.targets.rows.filter fun row => row.batchId = batchId) := by
  have hkeys : ((tables.targets.rows.filter fun row => row.batchId ∈ batchIds).map
      BatchTargetRow.order).Nodup := by
    refine List.Nodup.map_on ?_ (tables.targets.unique.of_map _ |>.filter _)
    intro a ha b hb horder
    refine Table.eq_of_key_eq (List.mem_filter.1 ha).1 (List.mem_filter.1 hb).1 ?_
    have hpair := toLex.injective horder
    rw [Prod.mk.injEq] at hpair
    exact Prod.ext (String.toList_inj.1 hpair.1) hpair.2
  rw [filter_orderBy hkeys, List.filter_filter, ← orderBy_order]
  congr 1
  refine List.filter_congr fun row _ => ?_
  by_cases hrow : row.batchId = batchId
  · simp [hrow, h]
  · simp [hrow]

/-- Of the targets read under their batches' ids, those under one id are that
batch's. -/
theorem read_filter {selected : List BatchTargetRow} {read : List (String × BatchTargetRecord)}
    (h : (selected.mapM fun row => do return (row.batchId, ← batchTargetFromRow codec row))
      = .ok read) (batchId : String) :
    (selected.filter fun row => row.batchId = batchId).mapM (batchTargetFromRow codec)
      = .ok ((read.filter fun entry => entry.1 = batchId).map Prod.snd) := by
  have hpairs : List.Forall₂ (fun row entry => entry.1 = row.batchId ∧
      batchTargetFromRow codec row = .ok entry.2) selected read := by
    refine (mapM_eq_ok.1 h).imp fun row entry hentry => ?_
    obtain ⟨target, htarget, hentry⟩ := Except.bind_ok hentry
    obtain rfl := Except.ok.inj hentry
    exact ⟨rfl, htarget⟩
  rw [mapM_eq_ok, List.forall₂_map_right_iff]
  refine (List.rel_filter (R := fun row entry => entry.1 = row.batchId ∧
    batchTargetFromRow codec row = .ok entry.2) ?_ hpairs).imp fun _ _ hpair => hpair.2
  intro row entry hpair
  simp [hpair.1]

/-- The headers a read of an installation's latest batches selects. -/
theorem mem_recentRows {installationId limit : ℕ} {row : BatchRow}
    (h : row ∈ tables.recentRows installationId limit) :
    row ∈ tables.batches.rows ∧ row.installationId = some (installationId : ℤ) := by
  have := mem_orderByDesc.1 (List.mem_of_mem_take h)
  simpa using List.mem_filter.1 this

/-- **The latest batches are their headers, each with its targets.** -/
theorem recentBatches_eq {installationId : ℕ} (h : installationId < i64Size) (limit : ℕ) :
    tables.recentBatches installationId limit
      = (tables.recentRows installationId limit).mapM tables.whole := by
  have hdecoded : ∀ row ∈ tables.recentRows installationId limit,
      ∃ batch, batchFromRow row = .ok batch := fun row hrow =>
    tables.batchesRead row (mem_recentRows hrow).1 (by rw [(mem_recentRows hrow).2]; rfl)
  obtain ⟨batches, hbatches⟩ := exists_mapM hdecoded
  have hheaders := mapM_eq_ok.1 hbatches
  simp only [recentBatches, integer_of_lt h, Except.ok_bind, hbatches]
  split
  · rename_i hnone
    rw [hnone, List.forall₂_nil_right_iff] at hheaders
    rw [hheaders]
    rfl
  · have hdecode : ∀ row ∈ orderBy BatchTargetRow.order (tables.targets.rows.filter fun row =>
        row.batchId ∈ batches.map BatchRecord.batchId),
        ∃ entry, (do return (row.batchId, ← batchTargetFromRow codec row)) = Except.ok entry := by
      intro row hrow
      obtain ⟨target, htarget⟩ := tables.targetsRead row (List.mem_filter.1 (mem_orderBy.1 hrow)).1
      exact ⟨(row.batchId, target), by rw [htarget]; rfl⟩
    obtain ⟨read, hread⟩ := exists_mapM hdecode
    simp only [hread, Except.ok_bind]
    refine (mapM_eq_ok.2 ?_).symm
    rw [List.forall₂_map_right_iff, List.forall₂_iff_zip]
    rw [List.forall₂_iff_zip] at hheaders
    refine ⟨hheaders.1, fun {row batch} hpair => ?_⟩
    have hheader := hheaders.2 hpair
    have hselected := tables.selected_filter
      (List.mem_map_of_mem (f := BatchRecord.batchId) (List.of_mem_zip hpair).2)
    have htargets := read_filter hread batch.batchId
    rw [hselected, batchId_of_batchFromRow hheader] at htargets
    rw [whole, hheader, Except.ok_bind, targetsOf, htargets, batchId_of_batchFromRow hheader]
    rfl

/-- The row of a table at a batch's id, for an installation, is what a lookup
scoped to it finds. -/
theorem find?_scoped {ρ : Type} {id : ρ → String} {installation : ρ → Option ℤ}
    {table : Table ρ String id} {row : ρ} {batchId : String} {installationId : ℕ} :
    (table.rows.find? fun row => id row = batchId ∧ installation row = some (installationId : ℤ))
        = some row ↔
      row ∈ table.rows ∧ id row = batchId ∧ installation row = some (installationId : ℤ) := by
  constructor
  · intro h
    exact ⟨List.mem_of_find?_eq_some h, by simpa using List.find?_some h⟩
  · rintro ⟨hmem, hid, hinstallation⟩
    cases hfound : table.rows.find? fun row =>
        id row = batchId ∧ installation row = some (installationId : ℤ) with
    | none => simpa [hid, hinstallation] using List.find?_eq_none.1 hfound row hmem
    | some other =>
      have hother : id other = batchId ∧ installation other = some (installationId : ℤ) := by
        simpa using List.find?_some hfound
      rw [Table.eq_of_key_eq (List.mem_of_find?_eq_some hfound) hmem (hother.1.trans hid.symm)]

/-- The batch is recorded for the installation. -/
def RecordedFor (tables : BatchTables codec) (installationId : ℕ) (batchId : String) : Prop :=
  ∃ row ∈ tables.batches.rows,
    row.batchId = batchId ∧ row.installationId = some (installationId : ℤ)

/-- The batch is listed as running for the installation. -/
def ListedFor (tables : BatchTables codec) (installationId : ℕ) (batchId : String) : Prop :=
  ∃ row ∈ tables.running.rows,
    row.batchId = batchId ∧ row.installationId = some (installationId : ℤ)

/-- **A batch recorded for an installation is answered whole.** -/
theorem getBatch_of_recorded {installationId : ℕ} (h : installationId < i64Size) {row : BatchRow}
    (hrow : row ∈ tables.batches.rows)
    (hinstallation : row.installationId = some (installationId : ℤ)) :
    tables.getBatch installationId row.batchId
      = (tables.whole row).map fun batch => some (.finished batch) := by
  obtain ⟨header, hheader⟩ := tables.batchesRead row hrow (by rw [hinstallation]; rfl)
  obtain ⟨targets, htargets⟩ := tables.targetsOf_ok row.batchId
  have hfound := find?_scoped.2 ⟨hrow, rfl, hinstallation⟩
  simp only [getBatch, whole, integer_of_lt h, Except.ok_bind, hfound, hheader, htargets]
  rw [targetsOf] at htargets
  rw [htargets]
  rfl

/-- A batch not recorded for an installation is answered as it is listed
there. -/
theorem getBatch_of_not_recorded {installationId : ℕ} (h : installationId < i64Size)
    {batchId : String} (hnone : ¬ tables.RecordedFor installationId batchId) :
    tables.getBatch installationId batchId
      = match tables.running.rows.find? fun row =>
          row.batchId = batchId ∧ row.installationId = some (installationId : ℤ) with
        | some row => (runningBatchFromRow row).map fun batch => some (.running batch)
        | none => .ok none := by
  have hfound : (tables.batches.rows.find? fun row =>
      row.batchId = batchId ∧ row.installationId = some (installationId : ℤ)) = none := by
    rw [List.find?_eq_none]
    intro row hrow hscoped
    exact hnone ⟨row, hrow, by simpa using hscoped⟩
  simp only [getBatch, integer_of_lt h, Except.ok_bind, hfound]
  cases tables.running.rows.find? fun row =>
      row.batchId = batchId ∧ row.installationId = some (installationId : ℤ) with
  | none => rfl
  | some row => cases hrow : runningBatchFromRow row <;> simp only [hrow] <;> rfl

/-- **One batch is answered as finished exactly when it is recorded.** -/
theorem getBatch_finished {installationId : ℕ} (h : installationId < i64Size) {batchId : String} :
    (∃ batch, tables.getBatch installationId batchId = .ok (some (.finished batch))) ↔
      tables.RecordedFor installationId batchId := by
  constructor
  · rintro ⟨batch, hbatch⟩
    by_contra hnone
    rw [getBatch_of_not_recorded h hnone] at hbatch
    split at hbatch
    · cases hrow : runningBatchFromRow ‹_› <;> rw [hrow] at hbatch <;> cases hbatch
    · cases hbatch
  · rintro ⟨row, hrow, rfl, hinstallation⟩
    obtain ⟨batch, hbatch, -⟩ := whole_ok hrow (by rw [hinstallation]; rfl)
    exact ⟨batch, by rw [getBatch_of_recorded h hrow hinstallation, hbatch]; rfl⟩

/-- **One batch is answered as running exactly when it is listed**, and not
recorded. -/
theorem getBatch_running {installationId : ℕ} (h : installationId < i64Size) {batchId : String} :
    (∃ batch, tables.getBatch installationId batchId = .ok (some (.running batch))) ↔
      tables.ListedFor installationId batchId ∧ ¬ tables.RecordedFor installationId batchId := by
  constructor
  · rintro ⟨batch, hbatch⟩
    have hnone : ¬ tables.RecordedFor installationId batchId := by
      intro hrecorded
      obtain ⟨record, hrecord⟩ := (getBatch_finished h).2 hrecorded
      rw [hrecord] at hbatch
      cases hbatch
    refine ⟨?_, hnone⟩
    rw [getBatch_of_not_recorded h hnone] at hbatch
    split at hbatch
    · rename_i row hrow
      obtain ⟨hmem, hscoped⟩ := find?_scoped.1 hrow
      exact ⟨row, hmem, hscoped⟩
    · cases hbatch
  · rintro ⟨⟨row, hrow, rfl, hinstallation⟩, hnone⟩
    obtain ⟨batch, hbatch⟩ := tables.runningRead row hrow (by rw [hinstallation]; rfl)
    refine ⟨batch, ?_⟩
    rw [getBatch_of_not_recorded h hnone, find?_scoped.2 ⟨hrow, rfl, hinstallation⟩]
    simp only [hbatch]
    rfl

/-- What a read answers with carries the ids of the rows it selected. -/
theorem exists_read {ρ β : Type} {decode : ρ → Except StoreError β} {id : ρ → String}
    {id' : β → String} (hid : ∀ row b, decode row = .ok b → id' b = id row) {rows : List ρ}
    {read : List β} (h : rows.mapM decode = .ok read) (batchId : String) :
    (∃ b ∈ read, id' b = batchId) ↔ ∃ row ∈ rows, id row = batchId := by
  have hids : read.map id' = rows.map id := map_eq_map ((mapM_eq_ok.1 h).imp hid).flip
  rw [← List.mem_map, ← List.mem_map, hids]

theorem batchId_of_whole {row : BatchRow} {batch : BatchRecord}
    (h : tables.whole row = .ok batch) : batch.batchId = row.batchId := by
  obtain ⟨header, hheader, h⟩ := Except.bind_ok h
  obtain ⟨targets, -, h⟩ := Except.bind_ok h
  obtain rfl := Except.ok.inj h
  show header.batchId = row.batchId
  exact batchId_of_batchFromRow hheader

variable (tables) in
theorem recentBatches_ok {installationId : ℕ} (h : installationId < i64Size) (limit : ℕ) :
    ∃ batches, tables.recentBatches installationId limit = .ok batches := by
  rw [recentBatches_eq h]
  refine exists_mapM fun row hrow => ?_
  obtain ⟨hmem, hinstallation⟩ := mem_recentRows hrow
  obtain ⟨batch, hbatch, -⟩ := whole_ok hmem (by rw [hinstallation]; rfl)
  exact ⟨batch, hbatch⟩

/-- **A batch recorded for an installation is among its latest**, as far back
as a read goes. -/
theorem recentBatches_shows {installationId : ℕ} (h : installationId < i64Size)
    {batchId : String} :
    (∃ limit batches, tables.recentBatches installationId limit = .ok batches ∧
        ∃ batch ∈ batches, batch.batchId = batchId) ↔
      tables.RecordedFor installationId batchId := by
  constructor
  · rintro ⟨limit, batches, hread, hshown⟩
    rw [recentBatches_eq h] at hread
    obtain ⟨row, hrow, hid⟩ := (exists_read (fun _ _ => batchId_of_whole) hread batchId).1 hshown
    exact ⟨row, (mem_recentRows hrow).1, hid, (mem_recentRows hrow).2⟩
  · rintro ⟨row, hrow, hid, hinstallation⟩
    obtain ⟨batches, hread⟩ := tables.recentBatches_ok h tables.batches.rows.length
    refine ⟨_, batches, hread, ?_⟩
    rw [recentBatches_eq h] at hread
    refine (exists_read (fun _ _ => batchId_of_whole) hread batchId).2 ⟨row, ?_, hid⟩
    rw [recentRows, List.take_of_length_le]
    · rw [mem_orderByDesc, List.mem_filter]
      exact ⟨hrow, by simpa using hinstallation⟩
    · rw [(perm_orderByDesc _).length_eq]
      exact List.length_filter_le _ _

/-- **The running batches are those listed.** -/
theorem runningBatches_shows {installationId : ℕ} (h : installationId < i64Size)
    {batchId : String} :
    (∃ batches, tables.runningBatches installationId = .ok batches ∧
        ∃ batch ∈ batches, batch.batchId = batchId) ↔
      tables.ListedFor installationId batchId := by
  have hrows : ∀ row, row ∈ orderByDesc RunningBatchRow.order (tables.running.rows.filter fun row =>
      row.installationId = some (installationId : ℤ)) ↔
      row ∈ tables.running.rows ∧ row.installationId = some (installationId : ℤ) := by simp
  simp only [runningBatches, integer_of_lt h, Except.ok_bind]
  constructor
  · rintro ⟨batches, hread, hshown⟩
    obtain ⟨row, hrow, hid⟩ :=
      (exists_read (fun _ _ => batchId_of_runningBatchFromRow) hread batchId).1 hshown
    exact ⟨row, ((hrows row).1 hrow).1, hid, ((hrows row).1 hrow).2⟩
  · rintro ⟨row, hrow, hid, hinstallation⟩
    obtain ⟨batches, hread⟩ := exists_mapM fun row hrow =>
      tables.runningRead row ((hrows row).1 hrow).1 (by rw [((hrows row).1 hrow).2]; rfl)
    refine ⟨batches, hread, ?_⟩
    exact (exists_read (fun _ _ => batchId_of_runningBatchFromRow) hread batchId).2
      ⟨row, (hrows row).2 ⟨hrow, hinstallation⟩, hid⟩

/-! ## The writes -/

theorem run_eq_ok {write : BatchWrite} :
    write.run faults tables = .ok after ↔ write.apply faults tables = (.ok (), after) := by
  unfold BatchWrite.run
  rcases write.apply faults tables with ⟨_ | _, left⟩ <;> simp

/-- **A write commits whole or fails with the tables as they were.** -/
theorem apply_cases (faults : Faults) (write : BatchWrite) (tables : BatchTables codec) :
    (∃ after, write.apply faults tables = (.ok (), after)) ∨
      ∃ error, write.apply faults tables = (.error error, tables) := by
  have halone {β : Type} (checks : Except StoreError β) (op : β → AuditWrite codec) :
      (∃ after, autocommit AuditWrite.step faults (once (S := AuditWrites codec) checks op) tables
          = (.ok (), after)) ∨
        ∃ error, autocommit AuditWrite.step faults (once (S := AuditWrites codec) checks op) tables
          = (.error error, tables) := by
    rcases autocommit_once AuditWrite.step faults checks op tables with ⟨after, hrun, -⟩ | herror
    · exact .inl ⟨after, hrun⟩
    · exact .inr herror
  cases write with
  | start batch => exact halone _ _
  | unlist batchId => exact halone _ _
  | record batch =>
    rcases transaction_cases AuditWrite.step faults (AuditM.recordBatch batch) tables with
      ⟨_, after, hrun, -⟩ | herror
    · exact .inl ⟨after, hrun⟩
    · exact .inr herror

/-- **What a start leaves**: the tables as they were, where the batch is
already listed, or one more listing. -/
theorem startBatch_ok {batch : RunningBatch} (h : tables.startBatch faults batch = .ok after) :
    ∃ row, batch.row = .ok row ∧ faults 0 = none ∧ after.batches = tables.batches ∧
      after.targets = tables.targets ∧
      (tables.Listed batch.batchId ∧ after.running = tables.running ∨
        ¬ tables.Listed batch.batchId ∧ after.running.rows = tables.running.rows ++ [row]) := by
  replace h : autocommit AuditWrite.step faults (AuditM.startBatch batch) tables
    = (.ok (), after) := run_eq_ok.1 h
  unfold AuditM.startBatch at h
  generalize hread : readable batch.row _ = read at h
  cases read with
  | error error => cases h
  | ok row =>
    have hrow := readable_eq_ok.1 hread
    have hid := (RunningBatch.row_ok hrow).2.1
    cases hfault : faults 0 with
    | some error =>
      rw [autocommit_refused hfault] at h
      cases h
    | none =>
      rw [autocommit_statement hfault, AuditWrite.step] at h
      refine ⟨row.1, hrow, rfl, ?_⟩
      split_ifs at h with hnew
      · obtain rfl := (Prod.mk.inj h).2
        rw [hid] at hnew
        exact ⟨rfl, rfl, .inr ⟨by rw [Listed, hnew]; simp, rfl⟩⟩
      · obtain rfl := (Prod.mk.inj h).2
        rw [hid] at hnew
        exact ⟨rfl, rfl, .inl ⟨Option.isSome_iff_ne_none.2 hnew, rfl⟩⟩

/-- An unlisting takes the listing away. -/
theorem unlistBatch_ok {batchId : String} (h : tables.unlistBatch faults batchId = .ok after) :
    after = tables.deleteRunning batchId := by
  replace h : autocommit AuditWrite.step faults (AuditM.unlistBatch batchId) tables
    = (.ok (), after) := run_eq_ok.1 h
  unfold AuditM.unlistBatch at h
  cases hfault : faults 0 with
  | some error =>
    rw [autocommit_refused hfault] at h
    cases h
  | none =>
    rw [autocommit_statement hfault] at h
    exact (Prod.mk.inj h).2.symm

/-- What runs on a row that was encoded runs where the encoding succeeds, on
that row. -/
theorem evaluate_readable {ρ α β : Type} {decode : ρ → Except StoreError β}
    {encoded : Except StoreError ρ} {h : ∀ row, encoded = .ok row → ∃ a, decode row = .ok a}
    {k : Readable decode → AuditM codec α} {result : α × BatchTables codec} :
    evaluate AuditWrite.step (Prog.ofExcept (readable encoded h) >>= k) tables = .ok result ↔
      ∃ row : Readable decode, encoded = .ok row.1 ∧
        evaluate AuditWrite.step (k row) tables = .ok result := by
  rw [Prog.bind_eq, evaluate_bind, evaluate_ofExcept]
  generalize hread : readable encoded h = read
  cases read with
  | error error =>
    refine iff_of_false (fun hrun => by cases hrun) ?_
    rintro ⟨row, hrow, -⟩
    cases hread.symm.trans (readable_eq_ok.2 hrow)
  | ok row =>
    have hrow := readable_eq_ok.1 hread
    constructor
    · exact fun hrun => ⟨row, hrow, hrun⟩
    · rintro ⟨other, hother, hrun⟩
      obtain rfl : other = row := Subtype.ext (Except.ok.inj (hother.symm.trans hrow))
      exact hrun

/-- The first of some targets is inserted, and then the rest. -/
theorem insertTargets_cons {batchId : String} {position : ℕ} {target : BatchTargetRecord}
    {rest : List BatchTargetRecord} :
    evaluate AuditWrite.step (AuditM.insertTargets batchId position (target :: rest)) tables
        = .ok ((), after) ↔
      ∃ row : Readable (batchTargetFromRow codec), target.row codec batchId position = .ok row.1 ∧
        ∃ hnew howned, evaluate AuditWrite.step (AuditM.insertTargets batchId (position + 1) rest)
          (tables.insertTarget row.1 hnew howned row.2) = .ok ((), after) := by
  rw [AuditM.insertTargets, evaluate_readable]
  refine exists_congr fun row => and_congr_right fun _ => ?_
  simp only [evaluate_ask, AuditWrite.step, Except.bind]
  constructor
  · intro h
    split_ifs at h with howned hnew
    · exact ⟨hnew, howned, h⟩
  · rintro ⟨hnew, howned, h⟩
    rw [dif_pos howned, dif_pos hnew]
    exact h

/-- A record takes the listing away, and inserts its header and its targets
where it is the first. -/
theorem evaluate_recordBatch {batch : BatchRecord} :
    evaluate AuditWrite.step (AuditM.recordBatch batch) tables = .ok ((), after) ↔
      ∃ row : Readable batchFromRow, batch.row = .ok row.1 ∧
        (tables.Recorded batch.batchId ∧ after = tables.deleteRunning batch.batchId ∨
          ∃ hnew : tables.batches.find? row.1.batchId = none,
            evaluate AuditWrite.step (AuditM.insertTargets batch.batchId 0 batch.targets)
              ((tables.deleteRunning batch.batchId).insertBatch row.1 hnew row.2)
                = .ok ((), after)) := by
  rw [AuditM.recordBatch, evaluate_ask, AuditWrite.step, Except.bind, evaluate_readable]
  refine exists_congr fun row => and_congr_right fun hrow => ?_
  have hid : row.1.batchId = batch.batchId := (BatchRecord.row_ok hrow).2.1
  simp only [evaluate_ask, AuditWrite.step, Except.bind]
  constructor
  · intro h
    split_ifs at h with hnew
    · exact .inr ⟨hnew, h⟩
    · obtain rfl := (Prod.mk.inj (Except.ok.inj h)).2
      rw [hid] at hnew
      exact .inl ⟨Option.isSome_iff_ne_none.2 hnew, rfl⟩
  · rintro (⟨hrecorded, rfl⟩ | ⟨hnew, h⟩)
    · rw [dif_neg]
      · rfl
      · rw [hid]
        exact Option.isSome_iff_ne_none.1 hrecorded
    · have hfree : (tables.deleteRunning batch.batchId).batches.find? row.1.batchId = none := hnew
      rw [dif_pos hfree]
      exact h

/-- A record that succeeds leaves what its statements come to. -/
theorem evaluate_of_recordBatch {batch : BatchRecord}
    (h : tables.recordBatch faults batch = .ok after) :
    evaluate AuditWrite.step (AuditM.recordBatch batch) tables = .ok ((), after) :=
  transaction_ok (run_eq_ok.1 h)

/-- **What inserting a batch's targets leaves**: their rows, in order, and
every other row as it was. -/
theorem insertTargets_ok {batchId : String} {position : ℕ} {targets : List BatchTargetRecord}
    (h : evaluate AuditWrite.step (AuditM.insertTargets batchId position targets) tables
      = .ok ((), after)) :
    after.batches = tables.batches ∧ after.running = tables.running ∧
      ∃ rows, after.targets.rows = tables.targets.rows ++ rows ∧
        List.Forall₂ (fun entry row => entry.1.row codec batchId entry.2 = .ok row)
          (targets.zipIdx position) rows := by
  induction targets generalizing tables position with
  | nil =>
    obtain rfl := (Prod.mk.inj (Except.ok.inj h)).2
    exact ⟨rfl, rfl, [], by simp, .nil⟩
  | cons target rest ih =>
    obtain ⟨row, hrow, hnew, howned, hrest⟩ := insertTargets_cons.1 h
    obtain ⟨hbatches, hrunning, rows, hrows, hwritten⟩ := ih hrest
    refine ⟨hbatches, hrunning, row.1 :: rows, ?_, .cons hrow hwritten⟩
    rw [hrows, insertTarget, Table.rows_insert, List.append_assoc, List.singleton_append]

/-- **What a record leaves**: the batch no longer listed, and where it was not
yet recorded its header and its targets. -/
theorem recordBatch_ok {batch : BatchRecord} (h : tables.recordBatch faults batch = .ok after) :
    after.running = tables.running.delete (fun row => row.batchId = batch.batchId) ∧
      (tables.Recorded batch.batchId ∧ after.batches = tables.batches ∧
          after.targets = tables.targets ∨
        ¬ tables.Recorded batch.batchId ∧ ∃ row rows, batch.row = .ok row ∧
          after.batches.rows = tables.batches.rows ++ [row] ∧
          after.targets.rows = tables.targets.rows ++ rows ∧
          List.Forall₂ (fun entry row => entry.1.row codec batch.batchId entry.2 = .ok row)
            batch.targets.zipIdx rows) := by
  obtain ⟨row, hrow, ⟨hrecorded, rfl⟩ | ⟨hnew, hwritten⟩⟩ :=
    evaluate_recordBatch.1 (evaluate_of_recordBatch h)
  · exact ⟨rfl, .inl ⟨hrecorded, rfl, rfl⟩⟩
  · obtain ⟨hbatches, hrunning, rows, hrows, htargets⟩ := insertTargets_ok hwritten
    refine ⟨hrunning, .inr ⟨?_, row.1, rows, hrow, ?_, hrows, htargets⟩⟩
    · rw [Recorded, ← (BatchRecord.row_ok hrow).2.1, hnew]
      simp
    · rw [hbatches]
      rfl

end BatchTables

end Dependaboard
