import Dependaboard.Core.Batch
/-!
# Dependaboard — a batch's progress, call after call

Calls land on a batch's progress in any order, late, twice, or for a pull
request it does not name. One call is one move (`ProgressCall.apply_eq`), so
what a move keeps every run of calls keeps: the tally, the targets and their
order, and each verdict. A progress that has completed is the record it makes
read back (`ofRecord_completedRecord`), and a record that kept its heads is
the record its progress makes (`completedRecord_ofRecord`).
-/

namespace Dependaboard

/-- A call on a batch's progress. -/
inductive ProgressCall where
  | start (key : PrKey)
  | record (key : PrKey) (outcome : ActionOutcome)
  | recordFailure (key : PrKey) (detail : String)
  deriving DecidableEq, Repr

namespace ProgressCall

/-- The pull request the call is about. -/
def key : ProgressCall → PrKey
  | start key | record key _ | recordFailure key _ => key

/-- The state the call moves it to. -/
def state : ProgressCall → TargetProgressState
  | start _ => .running
  | record _ (.succeeded detail mergeSha) => .succeeded detail mergeSha
  | record _ (.rejected reason) => .rejected reason
  | recordFailure _ detail => .failed detail

/-- The call made. -/
def apply (progress : BatchProgress) : ProgressCall → BatchProgress
  | start key => progress.start key
  | record key outcome => progress.record key outcome
  | recordFailure key detail => progress.recordFailure key detail

/-- **A call is one move.** -/
theorem apply_eq (call : ProgressCall) (progress : BatchProgress) :
    call.apply progress = progress.setState call.key call.state := by
  cases call with
  | start key => rfl
  | record key outcome => cases outcome <;> rfl
  | recordFailure key detail => rfl

end ProgressCall

/-- A pull request the batch does not name is not moved. -/
theorem moveTarget_eq_none {key : PrKey} {state : TargetProgressState}
    {targets : List TargetProgress} (h : ∀ item ∈ targets, item.target.key ≠ key) :
    moveTarget key state targets = none := by
  induction targets with
  | nil => rfl
  | cons item rest ih =>
    obtain ⟨hitem, hrest⟩ := List.forall_mem_cons.1 h
    rw [moveTarget, if_neg hitem, ih hrest]
    rfl

namespace BatchProgress

/-- Where a batch stands after some calls. -/
def after (progress : BatchProgress) (calls : List ProgressCall) : BatchProgress :=
  calls.foldl ProgressCall.apply progress

/-- The targets GitHub, or the guard, said no to, each with the reason, in
batch order. -/
def rejectedTargets (progress : BatchProgress) : List (PrTarget × RejectReason) :=
  progress.targets.filterMap fun item =>
    match item.state with
    | .rejected reason => some (item.target, reason)
    | _ => none

/-! ## One call -/

/-- A call for a pull request the batch does not name changes nothing. -/
theorem apply_of_unknown {progress : BatchProgress} {call : ProgressCall}
    (h : ∀ item ∈ progress.targets, item.target.key ≠ call.key) :
    call.apply progress = progress := by
  rw [call.apply_eq, setState, moveTarget_eq_none h]

/-- **A call changes the first target under its key, or nothing.** -/
theorem apply_cases (progress : BatchProgress) (call : ProgressCall) :
    call.apply progress = progress ∨
      ∃ before item after, progress.targets = before ++ item :: after ∧
        (∀ other ∈ before, other.target.key ≠ call.key) ∧ item.target.key = call.key ∧
        item.state.outcome = none ∧
        (call.apply progress).targets
          = before ++ { item with state := call.state } :: after := by
  rw [call.apply_eq]
  cases hmove : moveTarget call.key call.state progress.targets with
  | none =>
    left
    rw [setState, hmove]
  | some moved =>
    obtain ⟨before, item, after, htargets, hbefore, hkey, hnone, rfl⟩ := moveTarget_eq_some hmove
    refine .inr ⟨before, item, after, htargets, hbefore, hkey, hnone, ?_⟩
    rw [setState_targets, hmove, Option.getD_some]

/-! ## A run of calls -/

/-- **The tally counts the states throughout.** -/
theorem Tallied.after {progress : BatchProgress} (h : progress.Tallied)
    (calls : List ProgressCall) : (progress.after calls).Tallied := by
  induction calls generalizing progress with
  | nil => exact h
  | cons call calls ih =>
    refine ih ?_
    rw [call.apply_eq]
    exact h.setState call.key call.state

/-- **A run only advances a batch.** -/
theorem advances_after (progress : BatchProgress) (calls : List ProgressCall) :
    Advances progress (progress.after calls) := by
  induction calls generalizing progress with
  | nil => exact Advances.refl progress
  | cons call calls ih =>
    have hstep := advances_setState progress call.key call.state
    rw [← call.apply_eq] at hstep
    exact hstep.trans (ih (call.apply progress))

/-- Calls leave a batch its name. -/
theorem batchId_after (progress : BatchProgress) (calls : List ProgressCall) :
    (progress.after calls).batchId = progress.batchId := by
  induction calls generalizing progress with
  | nil => rfl
  | cons call calls ih =>
    have hstep := (setState_header progress call.key call.state).1
    rw [← call.apply_eq] at hstep
    exact (ih (call.apply progress)).trans hstep

/-- What comes after a batch is of the same targets, in their order. -/
theorem Advances.targets_eq {before after : BatchProgress} (h : Advances before after) :
    after.targets.map TargetProgress.target = before.targets.map TargetProgress.target := by
  have hsame : List.Forall₂ (fun a b : PrTarget => a = b)
      (before.targets.map TargetProgress.target) (after.targets.map TargetProgress.target) := by
    rw [List.forall₂_map_left_iff, List.forall₂_map_right_iff]
    exact h.keeps.imp fun _ _ hkeeps => hkeeps.1.symm
  exact (List.forall₂_eq_eq_eq ▸ hsame).symm

/-- What comes after a batch has each of its verdicts where it was. -/
theorem Advances.verdict {before after : BatchProgress} (h : Advances before after) {i : ℕ}
    {item : TargetProgress} (hitem : before.targets[i]? = some item)
    (hsettled : item.state.outcome.isSome) : after.targets[i]? = some item := by
  obtain ⟨hlength, hkeeps⟩ := List.forall₂_iff_get.1 h.keeps
  obtain ⟨hi, rfl⟩ := List.getElem?_eq_some_iff.1 hitem
  obtain ⟨verdict, hverdict⟩ := Option.isSome_iff_exists.1 hsettled
  obtain ⟨htarget, hstate⟩ := hkeeps i hi (hlength ▸ hi)
  have hsame : after.targets[i] = before.targets[i] := by
    have := hstate verdict hverdict
    cases ha : after.targets[i]
    cases hb : before.targets[i]
    simp_all
  rw [List.getElem?_eq_getElem (hlength ▸ hi), hsame]

/-! ## Records -/

/-- A record is kept exactly of a batch whose targets have all settled. -/
theorem isSome_completedRecord (progress : BatchProgress) (installationId : ℕ)
    (requestedBy : String) (retriedFrom : Option String) (startedAt completedAt : ℕ) :
    (progress.completedRecord installationId requestedBy retriedFrom startedAt
      completedAt).isSome ↔ ∀ item ∈ progress.targets, item.state.outcome.isSome := by
  constructor
  · intro hsome item hitem
    rw [Option.isSome_iff_ne_none]
    intro hnone
    rw [completedRecord_eq_none hitem hnone] at hsome
    cases hsome
  · intro hall
    have hmap : progress.targets.mapM (fun item => item.state.outcome.map item.target.recorded)
        = some (progress.targets.map fun item =>
            item.target.recorded (item.state.outcome.getD (.failed ""))) := by
      refine mapM_eq_some_map fun item hitem => ?_
      obtain ⟨verdict, hverdict⟩ := Option.isSome_iff_exists.1 (hall item hitem)
      rw [hverdict, Option.map_some, Option.getD_some]
    rw [completedRecord, hmap]
    rfl

/-- A progress that has not miscounted a batch of `targets`. -/
structure Accounts (targets : List PrTarget) (progress : BatchProgress) : Prop where
  succeeded : progress.succeeded = progress.targets.countP (·.state.isSucceeded)
  rejected : progress.rejected = progress.targets.countP (·.state.isRejected)
  failed : progress.failed = progress.targets.countP (·.state.isFailed)
  settled : progress.settled ≤ targets.length
  /-- The targets are those of the batch, in its order. -/
  same : progress.targets.map TargetProgress.target = targets
  /-- A verdict stands through whatever comes later. -/
  final : ∀ (later : List ProgressCall) (i : ℕ) (item : TargetProgress),
    progress.targets[i]? = some item → item.state.outcome.isSome →
      (progress.after later).targets[i]? = some item
  /-- A call for a pull request the batch does not name changes nothing. -/
  unknown : ∀ call : ProgressCall, (∀ target ∈ targets, target.key ≠ call.key) →
    call.apply progress = progress
  /-- A call changes the first target under its key, or nothing. -/
  first : ∀ call : ProgressCall, call.apply progress = progress ∨
    ∃ before item after, progress.targets = before ++ item :: after ∧
      (∀ other ∈ before, other.target.key ≠ call.key) ∧ item.target.key = call.key ∧
      item.state.outcome = none ∧
      (call.apply progress).targets = before ++ { item with state := call.state } :: after
  /-- The flag is up when every target has settled. -/
  completed : targets ≠ [] →
    (progress.completed ↔ ∀ item ∈ progress.targets, item.state.outcome.isSome)
  /-- The flag is up when there is a record to keep. -/
  recorded : targets ≠ [] →
    ∀ installationId requestedBy retriedFrom startedAt completedAt,
      progress.completed ↔ (progress.completedRecord installationId requestedBy retriedFrom
        startedAt completedAt).isSome

/-- **Batch progress never miscounts**, however calls land on a batch: late,
twice, or for a pull request it does not name. -/
theorem accounts_after (batchId : String) (action : BulkActionKind) (targets : List PrTarget)
    (calls : List ProgressCall) :
    Accounts targets ((queued batchId action targets).after calls) := by
  have htallied := (Tallied.queued batchId action targets).after calls
  have htargets : ((queued batchId action targets).after calls).targets.map TargetProgress.target
      = targets := by
    rw [(advances_after (queued batchId action targets) calls).targets_eq, queued, List.map_map]
    exact List.map_id targets
  generalize (queued batchId action targets).after calls = progress at htallied htargets ⊢
  have hlength : progress.targets.length = targets.length := by
    rw [← htargets, List.length_map]
  have hcompleted (hne : targets ≠ []) :
      progress.completed ↔ ∀ item ∈ progress.targets, item.state.outcome.isSome := by
    refine htallied.completed fun hnil => hne ?_
    rw [hnil] at hlength
    exact List.length_eq_zero_iff.1 hlength.symm
  refine ⟨htallied.succeeded, htallied.rejected, htallied.failed, ?_, htargets, ?_, ?_, ?_,
    hcompleted, ?_⟩
  · rw [htallied.settled_eq, ← hlength]
    exact List.countP_le_length
  · exact fun later i item hitem hsettled => (advances_after progress later).verdict hitem hsettled
  · refine fun call hunknown => apply_of_unknown fun item hitem => hunknown item.target ?_
    rw [← htargets]
    exact List.mem_map_of_mem hitem
  · exact apply_cases progress
  · exact fun hne _ _ _ _ _ => (hcompleted hne).trans (isSome_completedRecord ..).symm

end BatchProgress

/-! ## There and back -/

/-- One target of a finished batch: settled by its verdict, at the head it was
sent against, if the record kept it. -/
def BatchTargetRecord.progress (target : BatchTargetRecord) : TargetProgress where
  target := {
    repositoryId := target.repositoryId
    owner := target.owner
    repo := target.repo
    number := target.number
    expectedSha := target.headSha.getD ""
    title := target.title
    htmlUrl := target.htmlUrl }
  state := .ofOutcome target.outcome

/-- A finished batch as Restate's last word on it: its targets at the heads
they were sent against. -/
def BatchProgress.ofRecord (record : BatchRecord) : BatchProgress where
  batchId := record.batchId
  action := record.action
  targets := record.targets.map BatchTargetRecord.progress
  completed := true
  succeeded := record.succeeded
  rejected := record.rejected
  failed := record.failed

/-- A target at its verdict is what is recorded of it, read back. -/
theorem progress_recorded {item : TargetProgress} {verdict : TargetOutcome}
    (h : item.state.outcome = some verdict) : (item.target.recorded verdict).progress = item := by
  obtain ⟨target, state⟩ := item
  obtain rfl := TargetProgressState.eq_ofOutcome h
  rfl

/-- A target recorded with its head is recorded so again. -/
theorem recorded_progress {target : BatchTargetRecord} (h : target.headSha.isSome) :
    target.progress.state.outcome.map target.progress.target.recorded = some target := by
  obtain ⟨sha, hsha⟩ := Option.isSome_iff_exists.1 h
  obtain ⟨repositoryId, owner, repo, number, title, htmlUrl, headSha, verdict⟩ := target
  dsimp only at hsha
  subst hsha
  simp [BatchTargetRecord.progress, PrTarget.recorded]

namespace BatchProgress

theorem map_progress {targets : List TargetProgress} {recorded : List BatchTargetRecord}
    (h : targets.mapM (fun item => item.state.outcome.map item.target.recorded) = some recorded) :
    recorded.map BatchTargetRecord.progress = targets := by
  induction targets generalizing recorded with
  | nil =>
    cases h
    rfl
  | cons item rest ih =>
    rw [List.mapM_cons] at h
    obtain ⟨first, hfirst, h⟩ := Option.bind_eq_some_iff.1 h
    obtain ⟨others, hothers, h⟩ := Option.bind_eq_some_iff.1 h
    obtain ⟨verdict, hverdict, rfl⟩ := Option.map_eq_some_iff.1 hfirst
    obtain rfl := Option.some_inj.1 h
    rw [List.map_cons, progress_recorded hverdict, ih hothers]

/-- **A completed batch is the record it makes, read back.** -/
theorem ofRecord_completedRecord {progress : BatchProgress} {record : BatchRecord}
    {installationId : ℕ} {requestedBy : String} {retriedFrom : Option String}
    {startedAt completedAt : ℕ} (hcompleted : progress.completed)
    (h : progress.completedRecord installationId requestedBy retriedFrom startedAt completedAt
      = some record) : ofRecord record = progress := by
  obtain ⟨recorded, hrecorded, hrecord⟩ := Option.bind_eq_some_iff.1 h
  obtain rfl := Option.some_inj.1 hrecord
  obtain ⟨batchId, action, targets, completed, succeeded, rejected, failed⟩ := progress
  dsimp only at hrecorded hcompleted
  subst hcompleted
  have htargets := map_progress hrecorded
  subst htargets
  rfl

/-- **A record that kept its heads is the record its progress makes.** -/
theorem completedRecord_ofRecord {record : BatchRecord}
    (h : ∀ target ∈ record.targets, target.headSha.isSome) :
    (ofRecord record).completedRecord record.installationId record.requestedBy record.retriedFrom
      record.startedAt record.completedAt = some record := by
  have hmap : (ofRecord record).targets.mapM
      (fun item => item.state.outcome.map item.target.recorded) = some record.targets := by
    rw [ofRecord, List.mapM_map, ← List.map_id record.targets, List.mapM_map]
    exact mapM_eq_some_map fun target htarget => recorded_progress (h target htarget)
  rw [completedRecord, hmap]
  rfl

end BatchProgress

end Dependaboard
