import Dependaboard.Core.Batch
import Dependaboard.Durable.Prog
import Dependaboard.Service.Rounds
/-!
# Service — the bulk action workflow

One workflow for each batch: it lists the batch as running, drives every
target to its verdict, records the finished batch, and takes the listing
away itself where it ends without a record. The progress is the caller's:
a failure while the targets are driven leaves it behind as it stood, and it
is what decides the clean-up.
-/

namespace Dependaboard

open Durable

/-- How many pull requests one round sends to GitHub at once. -/
def maxConcurrent : ℕ+ := ⟨3, by decide⟩

/-- What a round sends for each of its targets. -/
inductive RoundKind where
  | merge
  | updateBranch
  deriving DecidableEq, Repr

/-- The calls a bulk action asks for. A publication cannot fail. -/
inductive BulkCall where
  | now (step : String)
  | publish (progress : BatchProgress)
  | startBatch (batch : RunningBatch)
  | round (kind : RoundKind) (targets : List PrTarget)
  | rebase (target : PrTarget)
  | pause
  | unlistBatch
  | recordBatch (record : BatchRecord)
  deriving DecidableEq, Repr

/-- What each call is answered in. A round is answered by what landed, in the
order it did, each with the target's place in the round, and then by how the
round ended. -/
@[reducible] def BulkCall.Answer : BulkCall → Type
  | now _ => Except HandlerError ℕ
  | publish _ => Unit
  | startBatch _ => Except HandlerError Unit
  | round _ targets =>
    List (Fin targets.length × Except String ActionOutcome) × Except String Unit
  | rebase _ => Except String ActionOutcome
  | pause => Except String Unit
  | unlistBatch => Except HandlerError Unit
  | recordBatch _ => Except HandlerError Unit

/-- The interface of a bulk action. -/
@[reducible] def BulkEffects : Signature := ⟨BulkCall, BulkCall.Answer⟩

/-- The workflow. -/
abbrev BulkM (α : Type) : Type := Prog BulkEffects HandlerError α

/-- The driving of its targets, which fails with the progress as it
stood. -/
abbrev DriveM (α : Type) : Type := Prog BulkEffects (HandlerError × BatchProgress) α

/-- The caller is told where the batch stands. -/
def publish (progress : BatchProgress) : DriveM Unit :=
  Prog.ask (S := BulkEffects) (.publish progress) fun _ => .done ()

/-- How a target's action ended: with an outcome, or for good without. -/
def verdictOf : Except String ActionOutcome → TargetOutcome
  | .ok (.succeeded detail mergeSha) => .succeeded detail mergeSha
  | .ok (.rejected reason) => .rejected reason
  | .error message => .failed message

/-- Record how one target's action ended. -/
def settle (progress : BatchProgress) (target : PrTarget)
    (outcome : Except String ActionOutcome) : BatchProgress :=
  match outcome with
  | .ok outcome => progress.record target.key outcome
  | .error message => progress.recordFailure target.key message

/-- Mark every target of a round as running. -/
def startRound (progress : BatchProgress) (round : List PrTarget) : BatchProgress :=
  round.foldl (fun progress target => progress.start target.key) progress

/-- What lands of a round, each outcome published as it does. -/
def landRound (round : List PrTarget) :
    List (Fin round.length × Except String ActionOutcome) → BatchProgress → DriveM BatchProgress
  | [], progress => .done progress
  | (index, outcome) :: rest, progress => do
    let progress := settle progress (round.get index) outcome
    publish progress
    landRound round rest progress

/-- One round: started and published together, then sent. -/
def runRound (kind : RoundKind) (round : List PrTarget) (progress : BatchProgress) :
    DriveM BatchProgress := do
  let progress := startRound progress round
  publish progress
  Prog.ask (S := BulkEffects) (.round kind round) fun answer => do
    let progress ← landRound round answer.1 progress
    match answer.2 with
    | .ok () => return progress
    | .error message => .fail (.terminal message, progress)

/-- The rounds in turn: the next is sent once all of one has been answered. -/
def runRounds (kind : RoundKind) : List (List PrTarget) → BatchProgress → DriveM BatchProgress
  | [], progress => .done progress
  | round :: rest, progress => do
    let progress ← runRound kind round progress
    runRounds kind rest progress

/-- The rebases one at a time, with a pause after each but the one that
completes the batch. -/
def runRebases : List PrTarget → BatchProgress → DriveM BatchProgress
  | [], progress => .done progress
  | target :: rest, progress => do
    let progress := progress.start target.key
    publish progress
    Prog.ask (S := BulkEffects) (.rebase target) fun outcome => do
      let progress := settle progress target outcome
      publish progress
      if progress.completed then runRebases rest progress
      else Prog.ask (S := BulkEffects) .pause fun
        | .ok () => runRebases rest progress
        | .error message => .fail (.terminal message, progress)

/-- Every target sent and settled, as the batch's action has it. -/
def driveTargets (request : BulkRequest) (progress : BatchProgress) : DriveM BatchProgress :=
  match request.action with
  | .merge => runRounds .merge (planMergeRounds request.targets maxConcurrent) progress
  | .updateBranch => runRounds .updateBranch (chunks maxConcurrent request.targets) progress
  | .rebase => runRebases request.targets progress

/-- The batch of settled targets, recorded. -/
def finish (installationId : ℕ) (request : BulkRequest) (startedAt : ℕ)
    (progress : BatchProgress) : DriveM BatchProgress :=
  Prog.ask (S := BulkEffects) (.now "batch-finish-clock") fun
    | .error error => .fail (error, progress)
    | .ok completedAt =>
      match progress.completedRecord installationId request.userId request.retriedFrom startedAt
          completedAt with
      | none => .fail
          (.terminal "every target was attempted, yet the batch is not complete", progress)
      | some record => Prog.ask (S := BulkEffects) (.recordBatch record) fun
        | .error error => .fail (error, progress)
        | .ok () => .done progress

/-- Run the batch's targets and record the finished batch. -/
def drive (installationId : ℕ) (request : BulkRequest) (startedAt : ℕ)
    (progress : BatchProgress) : DriveM BatchProgress := do
  let progress ← driveTargets request progress
  finish installationId request startedAt progress

/-- The batch as it is listed while it runs. -/
def BulkRequest.running (request : BulkRequest) (batchId : String)
    (installationId startedAt : ℕ) : RunningBatch where
  batchId := batchId
  installationId := installationId
  action := request.action
  requestedBy := request.userId
  retriedFrom := request.retriedFrom
  startedAt := startedAt
  targetCount := request.targets.length

/-- **Run a batch to its end.** A listing that fails is done without; a batch
that ends in error before it completed is taken off the list. -/
def runBulkAction (batchId : String) (installationId : ℕ) (request : BulkRequest) :
    BulkM BatchProgress :=
  Prog.ask (S := BulkEffects) (.now "batch-start-clock") fun
    | .error error => .fail error
    | .ok startedAt => do
      let progress := BatchProgress.queued batchId request.action request.targets
      Prog.ask (S := BulkEffects) (.publish progress) fun _ =>
        Prog.ask (S := BulkEffects)
          (.startBatch (request.running batchId installationId startedAt)) fun _ => do
            match ← (drive installationId request startedAt progress).outcome with
            | .ok progress => return progress
            | .error (error, progress) =>
              if progress.completed then .fail error
              else Prog.ask (S := BulkEffects) .unlistBatch fun _ => .fail error

/-- `BulkAction.run`: a request that may not run as the batch it is keyed by
is refused before anything is asked for. -/
def BulkAction.run (validBatchId : String → Bool) (batchId : String) (installationId : ℕ)
    (request : BulkRequest) : BulkM BatchProgress :=
  match request.validate validBatchId batchId with
  | .error invalid => .fail (.terminal (toString invalid))
  | .ok () => runBulkAction batchId installationId request

end Dependaboard
