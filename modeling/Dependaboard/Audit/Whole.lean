import Dependaboard.Audit.Exclusive
/-!
# Audit — a finished batch is recorded whole

A record of a batch not yet recorded puts its header and every one of its
targets where both readers find them, or leaves the tables as they were; a
record of one that is takes its listing away and nothing else.
-/

namespace Dependaboard

open Durable Relational

/-- The integers of a target are SQLite's. -/
def BatchTargetRecord.Fits (target : BatchTargetRecord) : Prop :=
  target.repositoryId < i64Size ∧ target.number < i64Size

/-- The integers of a header are SQLite's. -/
structure BatchRecord.HeaderFits (batch : BatchRecord) : Prop where
  installationId : batch.installationId < i64Size
  startedAt : batch.startedAt < i64Size
  completedAt : batch.completedAt < i64Size
  succeeded : batch.succeeded < i64Size
  rejected : batch.rejected < i64Size
  failed : batch.failed < i64Size

/-- The integers of a record are SQLite's, the places of its targets
included. -/
structure BatchRecord.Fits (batch : BatchRecord) : Prop where
  header : batch.HeaderFits
  targets : ∀ target ∈ batch.targets, target.Fits
  places : batch.targets.length ≤ i64Size

theorem BatchRecord.row_ok_iff {batch : BatchRecord} :
    (∃ row, batch.row = .ok row) ↔ batch.HeaderFits := by
  constructor
  · rintro ⟨row, h⟩
    obtain ⟨h₁, h⟩ := integer_bind_ok h
    obtain ⟨h₂, h⟩ := integer_bind_ok h
    obtain ⟨h₃, h⟩ := integer_bind_ok h
    obtain ⟨h₄, h⟩ := integer_bind_ok h
    obtain ⟨h₅, h⟩ := integer_bind_ok h
    obtain ⟨h₆, -⟩ := integer_bind_ok h
    exact ⟨h₁, h₂, h₃, h₄, h₅, h₆⟩
  · rintro ⟨h₁, h₂, h₃, h₄, h₅, h₆⟩
    simp only [BatchRecord.row, integer_of_lt h₁, integer_of_lt h₂, integer_of_lt h₃,
      integer_of_lt h₄, integer_of_lt h₅, integer_of_lt h₆]
    exact ⟨_, rfl⟩

theorem BatchTargetRecord.row_ok_iff {codec : OutcomeCodec} {batchId : String} {position : ℕ}
    {target : BatchTargetRecord} :
    (∃ row, target.row codec batchId position = .ok row) ↔ position < i64Size ∧ target.Fits := by
  constructor
  · rintro ⟨row, h⟩
    obtain ⟨h₁, h⟩ := integer_bind_ok h
    obtain ⟨h₂, h⟩ := integer_bind_ok h
    obtain ⟨h₃, -⟩ := integer_bind_ok h
    exact ⟨h₁, h₂, h₃⟩
  · rintro ⟨h₁, h₂, h₃⟩
    simp only [BatchTargetRecord.row, integer_of_lt h₁, integer_of_lt h₂, integer_of_lt h₃]
    exact ⟨_, rfl⟩

namespace BatchTables

variable {codec : OutcomeCodec} {tables after : BatchTables codec} {faults : Faults}

/-! ## What a record takes -/

/-- A batch not recorded has no targets kept. -/
theorem batchId_ne_of_not_recorded {batchId : String} (h : ¬ tables.Recorded batchId)
    {row : BatchTargetRow} (hrow : row ∈ tables.targets.rows) : row.batchId ≠ batchId := by
  rintro rfl
  exact h (tables.owned row hrow)

/-- **Targets that fit are all inserted**, at places none of the batch's
targets has yet. -/
theorem insertTargets_of_fits {batchId : String} {position : ℕ} {targets : List BatchTargetRecord}
    (hrecorded : tables.Recorded batchId)
    (hfree : ∀ row ∈ tables.targets.rows, row.batchId = batchId → row.position < position)
    (hplaces : position + targets.length ≤ i64Size) (hfits : ∀ target ∈ targets, target.Fits) :
    ∃ after, evaluate AuditWrite.step (AuditM.insertTargets batchId position targets) tables
      = .ok ((), after) := by
  induction targets generalizing tables position with
  | nil => exact ⟨tables, rfl⟩
  | cons target rest ih =>
    rw [List.forall_mem_cons] at hfits
    rw [List.length_cons] at hplaces
    obtain ⟨row, hrow⟩ : ∃ row, target.row codec batchId position = .ok row :=
      BatchTargetRecord.row_ok_iff.2 ⟨by omega, hfits.1⟩
    obtain ⟨hread, hid, hplace⟩ := BatchTargetRecord.row_ok hrow
    have hnew : tables.targets.find? row.key = none := by
      refine Table.find?_eq_none.2 fun other hother hkey => ?_
      have hsame := Prod.mk.inj hkey
      have := hfree other hother (hsame.1.trans hid)
      omega
    have howned : tables.Recorded row.batchId := hid ▸ hrecorded
    obtain ⟨after, hafter⟩ : ∃ after, evaluate AuditWrite.step
        (AuditM.insertTargets batchId (position + 1) rest)
        (tables.insertTarget row hnew howned ⟨target, hread⟩) = .ok ((), after) := by
      refine ih hrecorded (fun other hother hother' => ?_) (by omega) hfits.2
      rw [insertTarget, Table.rows_insert, List.mem_append, List.mem_singleton] at hother
      rcases hother with hold | rfl
      · have := hfree other hold hother'
        omega
      · omega
    exact ⟨after, insertTargets_cons.2 ⟨⟨row, target, hread⟩, hrow, hnew, howned, hafter⟩⟩

/-- **Inserted targets fit.** -/
theorem fits_of_insertTargets {batchId : String} {position : ℕ} {targets : List BatchTargetRecord}
    (h : evaluate AuditWrite.step (AuditM.insertTargets batchId position targets) tables
      = .ok ((), after)) :
    (∀ target ∈ targets, target.Fits) ∧ (targets ≠ [] → position + targets.length ≤ i64Size) := by
  induction targets generalizing tables position with
  | nil => exact ⟨nofun, fun hne => absurd rfl hne⟩
  | cons target rest ih =>
    obtain ⟨row, hrow, hnew, howned, hrest⟩ := insertTargets_cons.1 h
    obtain ⟨hplace, hfits⟩ := BatchTargetRecord.row_ok_iff.1 ⟨row.1, hrow⟩
    obtain ⟨hrest, hplaces⟩ := ih hrest
    refine ⟨List.forall_mem_cons.2 ⟨hfits, hrest⟩, fun _ => ?_⟩
    rw [List.length_cons]
    by_cases hnil : rest = []
    · rw [hnil, List.length_nil]
      omega
    · have := hplaces hnil
      omega

/-- **A batch not yet recorded is recorded exactly when it fits**, where no
statement is refused. -/
theorem recordBatch_ok_iff {batch : BatchRecord} (hnew : ¬ tables.Recorded batch.batchId)
    (hfault : ∀ m, faults m = none) :
    (∃ after, tables.recordBatch faults batch = .ok after) ↔ batch.Fits := by
  have hnone : tables.batches.find? batch.batchId = none := by simpa [Recorded] using hnew
  constructor
  · rintro ⟨after, h⟩
    obtain ⟨row, hrow, ⟨hrecorded, -⟩ | ⟨hfree, hwritten⟩⟩ :=
      evaluate_recordBatch.1 (evaluate_of_recordBatch h)
    · exact absurd hrecorded hnew
    · obtain ⟨htargets, hplaces⟩ := fits_of_insertTargets hwritten
      refine ⟨BatchRecord.row_ok_iff.1 ⟨row.1, hrow⟩, htargets, ?_⟩
      by_cases hnil : batch.targets = []
      · rw [hnil]
        exact Nat.zero_le _
      · have := hplaces hnil
        omega
  · intro hfits
    obtain ⟨row, hrow⟩ := BatchRecord.row_ok_iff.2 hfits.header
    obtain ⟨hread, hid, -⟩ := BatchRecord.row_ok hrow
    have hfree : tables.batches.find? row.batchId = none := hid ▸ hnone
    have hplaces := hfits.places
    obtain ⟨after, hwritten⟩ : ∃ after, evaluate AuditWrite.step
        (AuditM.insertTargets batch.batchId 0 batch.targets)
        ((tables.deleteRunning batch.batchId).insertBatch row hfree ⟨_, hread⟩)
          = .ok ((), after) := by
      refine insertTargets_of_fits ?_ ?_ (by omega) hfits.targets
      · exact recorded_iff.2 ⟨row, List.mem_append_right _ List.mem_cons_self, hid⟩
      · intro other hother hother'
        exact absurd hother' (batchId_ne_of_not_recorded hnew hother)
    have hrun := evaluate_recordBatch.2 ⟨⟨row, _, hread⟩, hrow, .inr ⟨hfree, hwritten⟩⟩
    exact ⟨after, run_eq_ok.2 (transaction_of_evaluate hfault hrun)⟩

/-! ## What the readers find -/

/-- How many of the installation's batches are listed before the batch. -/
def ahead (tables : BatchTables codec) (batch : BatchRecord) : ℕ :=
  (tables.batches.rows.filter fun row => row.installationId = some (batch.installationId : ℤ) ∧
    ((batch.completedAt : ℤ) < row.completedAt ∨
      row.completedAt = (batch.completedAt : ℤ) ∧ batch.batchId.toList < row.batchId.toList)).length

/-- **A batch just recorded is read whole.** -/
theorem whole_of_recordBatch {batch : BatchRecord} (hnew : ¬ tables.Recorded batch.batchId)
    (h : tables.recordBatch faults batch = .ok after) :
    ∃ row, batch.row = .ok row ∧ after.batches.rows = tables.batches.rows ++ [row] ∧
      after.whole row = .ok batch := by
  obtain ⟨-, ⟨hrecorded, -⟩ | ⟨-, row, rows, hrow, hbatches, htargets, hwritten⟩⟩ :=
    recordBatch_ok h
  · exact absurd hrecorded hnew
  obtain ⟨hheader, hid, -⟩ := BatchRecord.row_ok hrow
  have hold : tables.targets.rows.filter (fun other => other.batchId = batch.batchId) = [] := by
    refine List.filter_eq_nil_iff.2 fun other hother => ?_
    simpa using batchId_ne_of_not_recorded hnew hother
  -- the rows written stand in the order of the targets, each under its place
  have hsaid : List.Forall₂ (fun entry row => batchTargetFromRow codec row = .ok entry.1 ∧
      row.batchId = batch.batchId ∧ row.position = (entry.2 : ℤ)) batch.targets.zipIdx rows :=
    hwritten.imp fun entry row hrow => BatchTargetRecord.row_ok hrow
  have hmine : rows.filter (fun other => other.batchId = batch.batchId) = rows := by
    refine List.filter_eq_self.2 fun other hother => ?_
    have hids := map_eq_map (hsaid.imp fun entry row hsaid => hsaid.2.1.symm)
    have hmem : other.batchId ∈ rows.map BatchTargetRow.batchId := List.mem_map_of_mem hother
    rw [← hids] at hmem
    simpa using (List.mem_map.1 hmem).choose_spec.2.symm
  have hplaces : rows.Pairwise fun a b => a.position ≤ b.position := by
    have hpositions := map_eq_map (hsaid.imp fun entry row hsaid => hsaid.2.2.symm)
    have hascending : (batch.targets.zipIdx.map fun entry => (entry.2 : ℤ)).Pairwise (· ≤ ·) := by
      rw [← Function.comp_def (fun n : ℕ => (n : ℤ)) Prod.snd, ← List.map_map,
        List.zipIdx_map_snd, List.pairwise_map]
      refine (List.pairwise_le_range' _).imp fun hle => ?_
      exact_mod_cast hle
    rwa [hpositions, List.pairwise_map] at hascending
  have hread : rows.mapM (batchTargetFromRow codec) = .ok batch.targets := by
    rw [mapM_eq_ok, ← List.zipIdx_map_fst 0 batch.targets, List.forall₂_map_right_iff]
    exact (hsaid.imp fun entry row hsaid => hsaid.1).flip
  refine ⟨row, hrow, hbatches, ?_⟩
  rw [whole, hheader, Except.ok_bind, targetsOf, htargets, hid, List.filter_append, hold,
    List.nil_append, hmine, orderBy_of_pairwise hplaces, hread]
  rfl

/-- The latest headers are those fewer than the limit are listed before. -/
theorem mem_recentRows_iff {installationId limit : ℕ} {row : BatchRow}
    (hrow : row ∈ tables.batches.rows)
    (hinstallation : row.installationId = some (installationId : ℤ)) :
    row ∈ tables.recentRows installationId limit ↔
      (tables.batches.rows.filter fun other => other.installationId = some (installationId : ℤ) ∧
        row.order < other.order).length < limit := by
  have hkeys : ((tables.batches.rows.filter fun row =>
      row.installationId = some (installationId : ℤ)).map
        fun row => OrderDual.toDual row.order).Nodup := by
    refine List.Nodup.map_on ?_ (tables.batches.unique.of_map _ |>.filter _)
    intro a ha b hb horder
    refine Table.eq_of_key_eq (List.mem_filter.1 ha).1 (List.mem_filter.1 hb).1 ?_
    have hpair := toLex.injective (OrderDual.toDual.injective horder)
    exact String.toList_inj.1 (Prod.mk.inj hpair).2
  rw [recentRows, orderByDesc, mem_take_of_pairwise (pairwise_lt_orderBy hkeys),
    ((perm_orderBy _).filter _).length_eq, List.filter_filter, mem_orderBy, List.mem_filter]
  have hsame : ∀ other : BatchRow, (decide (OrderDual.toDual other.order < OrderDual.toDual row.order)
      && decide (other.installationId = some (installationId : ℤ)))
      = decide (other.installationId = some (installationId : ℤ) ∧ row.order < other.order) := by
    intro other
    rw [Bool.and_comm, ← Bool.decide_and]
    rfl
  simp only [hsame, hrow, hinstallation, decide_true, and_self, true_and]

/-- **A batch just recorded is among the latest**, of every read that reaches
past those listed before it. -/
theorem recentBatches_of_recordBatch {batch : BatchRecord} {limit : ℕ}
    (hnew : ¬ tables.Recorded batch.batchId)
    (h : tables.recordBatch faults batch = .ok after) (hlimit : tables.ahead batch < limit) :
    ∃ batches, after.recentBatches batch.installationId limit = .ok batches ∧ batch ∈ batches := by
  obtain ⟨row, hrow, hbatches, hwhole⟩ := whole_of_recordBatch hnew h
  obtain ⟨-, hid, hinstallation, hcompleted⟩ := BatchRecord.row_ok hrow
  have hbound := (BatchRecord.row_ok_iff.1 ⟨row, hrow⟩).installationId
  obtain ⟨batches, hread⟩ := after.recentBatches_ok hbound limit
  refine ⟨batches, hread, ?_⟩
  have hmem : row ∈ after.batches.rows := by
    rw [hbatches]
    exact List.mem_append_right _ List.mem_cons_self
  have hreached : row ∈ after.recentRows batch.installationId limit := by
    have hself : [row].filter (fun other => other.installationId
        = some (batch.installationId : ℤ) ∧ row.order < other.order) = [] := by simp
    have hahead : ∀ other : BatchRow, row.order < other.order ↔
        (batch.completedAt : ℤ) < other.completedAt ∨
          other.completedAt = (batch.completedAt : ℤ) ∧
            batch.batchId.toList < other.batchId.toList := by
      intro other
      rw [BatchRow.order, BatchRow.order, Prod.Lex.toLex_lt_toLex, hcompleted, hid, eq_comm]
    rw [mem_recentRows_iff hmem hinstallation, hbatches, List.filter_append, hself, List.append_nil]
    simp only [hahead]
    exact hlimit
  rw [recentBatches_eq hbound, mapM_eq_ok] at hread
  have hanswers : (after.recentRows batch.installationId limit).map after.whole
      = batches.map .ok := map_eq_map hread
  have hshown : after.whole row ∈ batches.map .ok := hanswers ▸ List.mem_map_of_mem hreached
  rw [hwhole, List.mem_map] at hshown
  obtain ⟨shown, hshown, hsame⟩ := hshown
  exact Except.ok.inj hsame ▸ hshown

/-- **A batch just recorded is read as it was written.** -/
theorem getBatch_of_recordBatch {batch : BatchRecord} (hnew : ¬ tables.Recorded batch.batchId)
    (h : tables.recordBatch faults batch = .ok after) :
    after.getBatch batch.installationId batch.batchId = .ok (some (.finished batch)) := by
  obtain ⟨row, hrow, hbatches, hwhole⟩ := whole_of_recordBatch hnew h
  obtain ⟨-, hid, hinstallation, -⟩ := BatchRecord.row_ok hrow
  have hbound := (BatchRecord.row_ok_iff.1 ⟨row, hrow⟩).installationId
  have hmem : row ∈ after.batches.rows := by
    rw [hbatches]
    exact List.mem_append_right _ List.mem_cons_self
  rw [← hid, getBatch_of_recorded hbound hmem hinstallation, hwhole]
  rfl

/-! ## Whole, once, or not at all -/

end BatchTables

end Dependaboard
