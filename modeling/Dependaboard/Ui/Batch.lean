import Dependaboard.Core.Progress
import Dependaboard.Durable.Prog
import Dependaboard.Store.Batches
import Dependaboard.Ui.Fault
import Dependaboard.Web.Api
/-!
# Ui — a batch from its submission to its end

The dashboard submits a batch, or takes up one it knows by id alone, and
asks Restate where it stands once an interval until it completes. The server
is reached through a gateway whose every call may fail; what the dashboard
knows of the batch is reported with each change, and that Restate has it is
said once, with the receipt.

The polls go on for as long as the batch does, so a follow is of as many of
them as it has fuel for.
-/

namespace Dependaboard

open Durable

namespace Ui

/-- How many times a submission is tried. -/
def submitAttempts : ℕ := 5

/-- The interval between two polls, in seconds. -/
def pollInterval : ℕ := 1

/-- How long a batch known by id alone may go without a word from Restate, in
seconds. -/
def attachTimeout : ℕ := 30

/-- That time, in answered polls. -/
def attachLimit : ℕ := attachTimeout / pollInterval

/-- What the projection said of a batch followed by id alone. -/
inductive Listing where
  | unasked
  | unreadable
  | unlisted
  | running (batch : RunningBatch)
  deriving DecidableEq, Repr

/-- What the dashboard knows of the batch it follows. -/
structure Followed where
  batchId : String
  /-- Where the batch stands. -/
  progress : Option BatchProgress
  /-- `progress` is Restate's word, not the dashboard's own. -/
  heard : Bool
  /-- When `progress` last changed, or the follow began. -/
  since : ℕ
  /-- Why the last poll was not answered. -/
  trouble : Option Fault
  listing : Listing
  deriving DecidableEq, Repr

namespace Followed

/-- A batch the dashboard has just queued, by its own snapshot. -/
def queued (batchId : String) (action : BulkActionKind) (targets : List PrTarget) (now : ℕ) :
    Followed where
  batchId := batchId
  progress := some (.queued batchId action targets)
  heard := false
  since := now
  trouble := none
  listing := .unasked

/-- A batch the dashboard knows by id alone. -/
def attaching (batchId : String) (now : ℕ) : Followed where
  batchId := batchId
  progress := none
  heard := false
  since := now
  trouble := none
  listing := .unasked

/-- The batch has run to the end, as far as the dashboard has heard. -/
def completed (followed : Followed) : Bool := followed.progress.any BatchProgress.completed

/-- The last poll was refused the credentials. -/
def signedOut (followed : Followed) : Bool := followed.trouble = some .signedOut

/-- Take `progress` as Restate's latest word, and whether it is news. -/
def hear (followed : Followed) (progress : BatchProgress) (now : ℕ) : Followed × Bool :=
  if followed.heard ∧ followed.progress = some progress then (followed, false)
  else ({ followed with progress := some progress, heard := true, since := now }, true)

/-- Drop the targets `keys` name from the dashboard's own snapshot. -/
def leaveOut (followed : Followed) (keys : List PrKey) : Followed :=
  if followed.heard then followed
  else { followed with
    progress := followed.progress.map fun progress =>
      { progress with targets := progress.targets.filter fun item => item.target.key ∉ keys } }

/-- The targets the dashboard queued that `progress` does not run. -/
def leftOutOf (followed : Followed) (progress : BatchProgress) : List PrKey :=
  match followed.progress.filter fun _ => !followed.heard with
  | none => []
  | some queued => (queued.targets.map fun item => item.target.key).filter fun key =>
      !progress.targets.any fun item => item.target.key = key

/-- Note how the last poll went, and whether that is news. -/
def answered (followed : Followed) (trouble : Option Fault) : Followed × Bool :=
  if followed.trouble = trouble then (followed, false)
  else ({ followed with trouble := trouble }, true)

end Followed

/-- How a follow ends; what is not an end is waited out. -/
inductive BatchOutcome where
  | completed (progress : BatchProgress)
  /-- Restate never accepted the batch. -/
  | notSubmitted (fault : Fault)
  /-- Restate never had progress for it. -/
  | unknown
  | signedOut
  deriving DecidableEq, Repr

/-- The follow that has ended, if it has: refused, or at the batch's end. -/
def Followed.ended (followed : Followed) : Option BatchOutcome :=
  if followed.signedOut then some .signedOut
  else (followed.progress.filter BatchProgress.completed).map .completed

/-! ## The gateway -/

/-- What a follow does to the server, to the clock and to the dashboard. -/
inductive FollowCall where
  | submit
  | projected
  | progress
  | tick
  | now
  | report (followed : Followed)
  | accepted (receipt : BatchReceipt)
  deriving DecidableEq, Repr

/-- What each is answered in. -/
@[reducible] def FollowCall.Answer : FollowCall → Type
  | submit => Except Fault BatchReceipt
  | projected => Except Fault (Option ProjectedBatch)
  | progress => Except Fault (Option BatchProgress)
  | tick => Unit
  | now => ℕ
  | report _ => Unit
  | accepted _ => Unit

/-- The interface of a follow. -/
@[reducible] def FollowEffects : Signature := ⟨FollowCall, FollowCall.Answer⟩

/-- The follow has been seen for as long as it was watched. -/
inductive Unfinished where
  | outOfFuel
  deriving DecidableEq, Repr

/-- A follow. -/
abbrev FollowM (α : Type) : Type := Prog FollowEffects Unfinished α

/-- Report what is known, if it is news, and go on. -/
def reportIf {α : Type} (news : Bool) (followed : Followed) (next : FollowM α) : FollowM α :=
  if news then Prog.ask (S := FollowEffects) (.report followed) fun _ => next else next

/-- Go on unless the follow has ended. -/
def unlessEnded (followed : Followed) (next : FollowM BatchOutcome) : FollowM BatchOutcome :=
  match followed.ended with
  | some outcome => .done outcome
  | none => next

/-! ## The polls -/

/-- Poll until the batch completes: a batch not `known` to Restate is given up
at the poll that makes `attachLimit` of them answered with nothing. -/
def poll : (fuel : ℕ) → Followed → (known : Bool) → (emptyPolls : ℕ) → FollowM BatchOutcome
  | 0, _, _, _ => .fail .outOfFuel
  | fuel + 1, followed, known, emptyPolls =>
    Prog.ask (S := FollowEffects) .tick fun _ =>
      Prog.ask (S := FollowEffects) .progress fun
        | .ok (some progress) =>
          let (followed, changed) := followed.answered none
          Prog.ask (S := FollowEffects) .now fun now =>
            let (followed, news) := followed.hear progress now
            reportIf (changed || news) followed
              (unlessEnded followed (poll fuel followed true emptyPolls))
        | .ok none =>
          let (followed, changed) := followed.answered none
          let emptyPolls := if known then emptyPolls else emptyPolls + 1
          if !known ∧ emptyPolls = attachLimit then .done .unknown
          else reportIf changed followed
            (unlessEnded followed (poll fuel followed known emptyPolls))
        | .error fault =>
          let (followed, changed) := followed.answered (some fault)
          reportIf changed followed
            (unlessEnded followed (poll fuel followed known emptyPolls))

/-! ## The submission -/

/-- How Restate came to have the batch. -/
inductive Taken where
  /-- The first submission was answered. -/
  | accepted (receipt : BatchReceipt)
  /-- Restate already had it: where it stands, if it has started. -/
  | already (progress : Option BatchProgress)
  deriving DecidableEq, Repr

/-- Whether a batch that failed to be submitted was taken all the same. -/
def askTaken (next : FollowM (Except Fault Taken)) : FollowM (Except Fault Taken) :=
  Prog.ask (S := FollowEffects) .progress fun
    | .ok (some progress) => .done (.ok (.already (some progress)))
    | .error .signedOut => .done (.error .signedOut)
    | _ => next

/-- One attempt, and what is next where it finds nothing out. -/
def attemptOnce (attempt : ℕ) (next : Fault → FollowM (Except Fault Taken)) :
    FollowM (Except Fault Taken) :=
  Prog.ask (S := FollowEffects) .submit fun
    | .ok receipt =>
      if attempt = 1 then .done (.ok (.accepted receipt))
      else Prog.ask (S := FollowEffects) .progress fun answer =>
        .done (.ok (.already answer.toOption.join))
    | .error .signedOut => .done (.error .signedOut)
    | .error error => askTaken (next error)

/-- Get the batch accepted, at an attempt with `left` more after it. -/
def submitFrom : (left attempt : ℕ) → FollowM (Except Fault Taken)
  | 0, attempt => attemptOnce attempt fun error => .done (.error error)
  | left + 1, attempt => attemptOnce attempt fun _ =>
      Prog.ask (S := FollowEffects) .tick fun _ => submitFrom left (attempt + 1)

/-- Get the batch accepted, or give up with the last fault. -/
def submit : FollowM (Except Fault Taken) := submitFrom (submitAttempts - 1) 1

/-! ## The follow -/

/-- Go on with a batch that Restate already had, unless it is at its end. -/
def pollUnlessCompleted (fuel : ℕ) (followed : Followed) : FollowM BatchOutcome :=
  match followed.progress.filter BatchProgress.completed with
  | some progress => .done (.completed progress)
  | none => poll fuel followed true 0

/-- Submit a batch and follow it until it completes or cannot be
submitted. -/
def runBatch (fuel : ℕ) (followed : Followed) : FollowM BatchOutcome := do
  match ← submit with
  | .ok (.accepted receipt) =>
    let left := if receipt.leftOut = [] then followed else followed.leaveOut receipt.leftOut
    reportIf (receipt.leftOut ≠ []) left <|
      Prog.ask (S := FollowEffects) (.accepted receipt) fun _ => poll fuel left true 0
  | .ok (.already none) =>
    Prog.ask (S := FollowEffects) (.accepted ⟨[]⟩) fun _ => pollUnlessCompleted fuel followed
  | .ok (.already (some progress)) =>
    -- against the dashboard's own snapshot, before Restate's word replaces it
    let receipt : BatchReceipt := ⟨followed.leftOutOf progress⟩
    Prog.ask (S := FollowEffects) .now fun now =>
      let (followed, news) := followed.hear progress now
      reportIf news followed <|
        Prog.ask (S := FollowEffects) (.accepted receipt) fun _ => pollUnlessCompleted fuel followed
  | .error fault => return .notSubmitted fault

/-- Follow a batch known by id alone until it completes or Restate proves
never to have had it, the projection asked first. -/
def followBatch (fuel : ℕ) (followed : Followed) : FollowM BatchOutcome :=
  Prog.ask (S := FollowEffects) .projected fun
    | .ok (some (.finished record)) =>
      let progress := BatchProgress.ofRecord record
      Prog.ask (S := FollowEffects) .now fun now =>
        reportIf true (followed.hear progress now).1 (.done (.completed progress))
    | .ok (some (.running listing)) =>
      let followed := { followed with listing := .running listing }
      reportIf true followed (poll fuel followed true 0)
    | .ok none =>
      let followed := { followed with listing := .unlisted }
      reportIf true followed (poll fuel followed false 0)
    | .error fault =>
      let followed := ({ followed with listing := .unreadable }.answered (some fault)).1
      reportIf true followed <|
        if followed.signedOut then .done .signedOut else poll fuel followed false 0

end Ui

end Dependaboard
