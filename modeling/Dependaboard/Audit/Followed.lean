import Dependaboard.Audit.Whole
import Dependaboard.Core.Progress
/-!
# Audit — a batch followed from the projection

Restate forgets a workflow after its retention, and from then on a dashboard
reads the batch from the projection. What it shows is what Restate last said:
the progress and the record are inverse, and the store keeps the record.
-/

namespace Dependaboard

open BatchProgress

/-- A record of a batch over `calls` keeps its name and installation. -/
theorem completedRecord_header {progress : BatchProgress} {record : BatchRecord}
    {installationId : ℕ} {requestedBy : String} {retriedFrom : Option String}
    {startedAt completedAt : ℕ}
    (h : progress.completedRecord installationId requestedBy retriedFrom startedAt completedAt
      = some record) :
    record.batchId = progress.batchId ∧ record.installationId = installationId := by
  obtain ⟨recorded, -, hrecord⟩ := Option.bind_eq_some_iff.1 h
  obtain rfl := Option.some_inj.1 hrecord
  exact ⟨rfl, rfl⟩

/-- **The record and the progress are inverse.** A batch that has completed
makes a record that reads back as it, also from the store it is recorded in;
and a record that kept its heads is the one its progress makes. -/
theorem record_progress_inverse :
    (∀ (batchId : String) (action : BulkActionKind) (targets : List PrTarget)
        (calls : List ProgressCall) (installationId : ℕ) (requestedBy : String)
        (retriedFrom : Option String) (startedAt completedAt : ℕ),
      ((queued batchId action targets).after calls).completed →
      ∃ record, ((queued batchId action targets).after calls).completedRecord installationId
          requestedBy retriedFrom startedAt completedAt = some record ∧
        ofRecord record = (queued batchId action targets).after calls ∧
        ∀ (codec : OutcomeCodec) (tables : BatchTables codec) (faults : Faults),
          ¬ tables.Recorded batchId →
          ((∀ n, faults n = none) → record.Fits →
            ∃ after, tables.recordBatch faults record = .ok after) ∧
          ∀ after, tables.recordBatch faults record = .ok after → ∃ shown,
            after.getBatch installationId batchId = .ok (some (.finished shown)) ∧
              ofRecord shown = (queued batchId action targets).after calls) ∧
    ∀ record : BatchRecord, (∀ target ∈ record.targets, target.headSha.isSome) →
      (ofRecord record).completedRecord record.installationId record.requestedBy
        record.retriedFrom record.startedAt record.completedAt = some record := by
  refine ⟨?_, fun record hheads => completedRecord_ofRecord hheads⟩
  intro batchId action targets calls installationId requestedBy retriedFrom startedAt completedAt
    hcompleted
  have hname : ((queued batchId action targets).after calls).batchId = batchId :=
    batchId_after _ calls
  have htallied := (Tallied.queued batchId action targets).after calls
  generalize (queued batchId action targets).after calls = progress at hcompleted hname htallied ⊢
  have hsettled : ∀ item ∈ progress.targets, item.state.outcome.isSome := by
    intro item hitem
    exact (htallied.completed (List.ne_nil_of_mem hitem)).1 hcompleted item hitem
  obtain ⟨record, hrecord⟩ := Option.isSome_iff_exists.1 ((isSome_completedRecord progress
    installationId requestedBy retriedFrom startedAt completedAt).2 hsettled)
  obtain ⟨hbatchId, hinstallation⟩ := completedRecord_header hrecord
  have hinverse := ofRecord_completedRecord hcompleted hrecord
  refine ⟨record, hrecord, hinverse, fun codec tables faults hnew => ?_⟩
  rw [← hname, ← hbatchId] at hnew ⊢
  refine ⟨fun hfaults => (BatchTables.recordBatch_ok_iff hnew hfaults).2, fun after hafter => ?_⟩
  refine ⟨record, ?_, hinverse⟩
  rw [← hinstallation]
  exact BatchTables.getBatch_of_recordBatch hnew hafter

end Dependaboard
