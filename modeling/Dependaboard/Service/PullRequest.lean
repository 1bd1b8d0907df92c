import Dependaboard.Core.PrState
import Dependaboard.Durable.Prog
import Dependaboard.Service.Step
/-!
# Service — the pull request object

One object for each Dependabot pull request, owning its snapshot, its trail
and every mutation made on its behalf. Its five handlers are programs over
the calls they ask of the runtime, GitHub and the store.
-/

namespace Dependaboard

open Durable

/-- What `PullRequest.closed` did. -/
inductive ClosedOutcome where
  | retired
  | kept
  deriving DecidableEq, Repr

/-- What one `PullRequest.sync` did. -/
inductive SyncOutcome where
  | debounced
  | synced (headSha : String)
  | deleted
  deriving DecidableEq, Repr

/-- The calls a handler asks for. State writes and one-way sends cannot
fail; everything else may. -/
inductive PullRequestCall where
  | now (step : String)
  | state
  | setState (state : PrState)
  | clearState
  | scheduleSync (key : PrKey) (request : SyncRequest) (after : Option ℕ)
  | fetchSnapshot (request : SyncRequest) (knownResource : Bool)
  | merge (request : MergeRequest) (mergeMethod : Option MergeMethod)
  | postCommand (request : CommandRequest)
  | updateBranch (request : UpdateBranchRequest)
  | upsertProjection (snapshot : PrRecord)
  | deleteProjection (step : String) (key : PrKey)
  | repositoryMergeMethod (repositoryId : ℕ)
  deriving DecidableEq, Repr

/-- What each call is answered in. -/
@[reducible] def PullRequestCall.Answer : PullRequestCall → Type
  | now _ => Except HandlerError ℕ
  | state => Except HandlerError (Option PrState)
  | setState _ => Unit
  | clearState => Unit
  | scheduleSync _ _ _ => Unit
  | fetchSnapshot _ _ => Except HandlerError (Settled (Option PrRecord))
  | merge _ _ => Except HandlerError (Settled Merged)
  | postCommand _ => Except HandlerError (Settled String)
  | updateBranch _ => Except HandlerError (Settled String)
  | upsertProjection _ => Except HandlerError Unit
  | deleteProjection _ _ => Except HandlerError Unit
  | repositoryMergeMethod _ => Except HandlerError (Option MergeMethod)

/-- The interface of a pull request's handlers. -/
@[reducible] def PullRequestEffects : Signature := ⟨PullRequestCall, PullRequestCall.Answer⟩

/-- A handler of the object. -/
abbrev PullRequestM (α : Type) : Type := Prog PullRequestEffects HandlerError α

namespace PullRequestM

/-- The clock, read in a journaled step of the handler, so that a retry reads
the time its first attempt did. -/
def now (step : String) : PullRequestM ℕ :=
  Prog.ask (S := PullRequestEffects) (.now step) Prog.ofExcept

/-- The object's own state; none before its first sync, and after it is
cleared. -/
def state : PullRequestM (Option PrState) :=
  Prog.ask (S := PullRequestEffects) .state Prog.ofExcept

/-- State is kept by the runtime with the object's key, and writing it cannot
fail. -/
def setState (state : PrState) : PullRequestM Unit :=
  Prog.ask (S := PullRequestEffects) (.setState state) Prog.done

/-- Everything kept for the object is forgotten: a late sync starts from
nothing. -/
def clearState : PullRequestM Unit :=
  Prog.ask (S := PullRequestEffects) .clearState Prog.done

/-- A sync the object sends itself, at once or after some seconds; a send
cannot fail. -/
def scheduleSync (key : PrKey) (request : SyncRequest) (after : Option ℕ) : PullRequestM Unit :=
  Prog.ask (S := PullRequestEffects) (.scheduleSync key request after) Prog.done

/-- GitHub's pull request. `knownResource` says the object has read it before,
so that a 404 is the pull request's absence rather than the installation's
lost access. -/
def fetchSnapshot (request : SyncRequest) (knownResource : Bool) :
    PullRequestM (Settled (Option PrRecord)) :=
  Prog.ask (S := PullRequestEffects) (.fetchSnapshot request knownResource) Prog.ofExcept

/-- The merge, in the repository's method where the projection names one. -/
def merge (request : MergeRequest) (mergeMethod : Option MergeMethod) :
    PullRequestM (Settled Merged) :=
  Prog.ask (S := PullRequestEffects) (.merge request mergeMethod) Prog.ofExcept

/-- The `@dependabot` comment, posted as the user whose token the deployment
has. -/
def postCommand (request : CommandRequest) : PullRequestM (Settled String) :=
  Prog.ask (S := PullRequestEffects) (.postCommand request) Prog.ofExcept

/-- The head brought up to date with its base, expecting the head the user
saw. -/
def updateBranch (request : UpdateBranchRequest) : PullRequestM (Settled String) :=
  Prog.ask (S := PullRequestEffects) (.updateBranch request) Prog.ofExcept

/-- The projection's row is written before the object's state, and a failure
fails the handler, to be retried. -/
def upsertProjection (snapshot : PrRecord) : PullRequestM Unit :=
  Prog.ask (S := PullRequestEffects) (.upsertProjection snapshot) Prog.ofExcept

/-- The row goes in a journaled step of its own, under the name its caller
gives. -/
def deleteProjection (step : String) (key : PrKey) : PullRequestM Unit :=
  Prog.ask (S := PullRequestEffects) (.deleteProjection step key) Prog.ofExcept

/-- The method recorded with the repository's row; the deployment's own stands
in where there is none. -/
def repositoryMergeMethod (repositoryId : ℕ) : PullRequestM (Option MergeMethod) :=
  Prog.ask (S := PullRequestEffects) (.repositoryMergeMethod repositoryId) Prog.ofExcept

end PullRequestM

/-! ## Guards -/

/-- A sync is put off while the last one is younger than the debounce. A clock
that went back makes the difference zero, which is young. -/
def shouldDebounceSync (bypassDebounce : Bool) (lastSyncedAt : Option ℕ) (now debounce : ℕ) :
    Bool :=
  !bypassDebounce && lastSyncedAt.any fun last => now - last < debounce

/-- Whether `closed` retires the pull request, or a sweep's fence finds it
synced since the sweep's listing started. -/
def closedRetires (state : Option PrState) (request : ClosedRequest) : Bool :=
  match request.syncedBefore with
  | none => true
  | some syncedBefore =>
    !((state.bind (·.lastSyncedAt)).any fun last => syncedBefore ≤ last)

/-- The owner and the name are compared with the ids: a repository renamed
since the target was taken no longer matches. -/
def targetMatchesSnapshot (target : PrTarget) (snapshot : PrRecord) : Bool :=
  target.repositoryId = snapshot.repositoryId
    ∧ target.owner = snapshot.owner
    ∧ target.repo = snapshot.repo
    ∧ target.number = snapshot.number

/-- Check a mutation's target against the object's snapshot. -/
def guardTarget (snapshot : Option PrRecord) (target : PrTarget) : Except RejectReason Unit :=
  match snapshot.filter (targetMatchesSnapshot target) with
  | none => .error .notFound
  | some snapshot =>
    if snapshot.headSha ≠ target.expectedSha then
      .error (.staleSha target.expectedSha snapshot.headSha)
    else .ok ()

/-- `guardTarget` for a command, which also needs a user to be posted
under. -/
def guardCommand (canPostCommands : Bool) (snapshot : Option PrRecord) (target : PrTarget) :
    Except RejectReason Unit :=
  if !canPostCommands then .error .noUserToken else guardTarget snapshot target

/-- The line an outcome leaves in the object's trail. -/
def outcomeDetail : ActionOutcome → String
  | .succeeded detail _ => detail
  | .rejected reason => toString reason

/-- A snapshot read for `request` is of the pull request asked for, its `id`
the text of its key: every read the client makes is one
(`snapshotOf_fetchSnapshot`). -/
def SnapshotOf (request : SyncRequest) (snapshot : PrRecord) : Prop :=
  snapshot.key = requestKey request ∧ snapshot.id = toString snapshot.key

/-- What the read says of the pull request: `none` for one GitHub no longer
serves, or that is not Dependabot's. -/
def eligibleSnapshot : Settled (Option PrRecord) → Except HandlerError (Option PrRecord)
  | .rejected .notFound _ => .ok none
  | fetched => readResult fetched

/-- A snapshot is what was read. -/
theorem eligibleSnapshot_some {fetched : Settled (Option PrRecord)} {snapshot : PrRecord}
    (h : eligibleSnapshot fetched = .ok (some snapshot)) : fetched = .ok (some snapshot) := by
  unfold eligibleSnapshot at h
  split at h
  · cases h
  · cases fetched with
    | ok value => exact congrArg Settled.ok (Except.ok.inj h)
    | rejected reason response => cases h
    | fatal response => cases h
    | staleSha expected actual => cases h

/-- The state a sync leaves once its snapshot is written through. -/
def PrState.synced (state : PrState) (request : SyncRequest) (snapshot : PrRecord) : PrState :=
  let state := { state with snapshot := some snapshot, lastSyncedAt := some snapshot.syncedAt }
  let state := state.pushHistory
    ⟨snapshot.syncedAt, "sync", "canonical snapshot at " ++ shortSha snapshot.headSha⟩
  match request.completionId with
  | some completionId => state.completeSync completionId
  | none => state

section Synced

variable (state : PrState) (request : SyncRequest) (snapshot : PrRecord)

@[simp] theorem PrState.synced_snapshot :
    (state.synced request snapshot).snapshot = some snapshot := by
  unfold PrState.synced
  cases request.completionId <;> rfl

@[simp] theorem PrState.synced_lastSyncedAt :
    (state.synced request snapshot).lastSyncedAt = some snapshot.syncedAt := by
  unfold PrState.synced
  cases request.completionId <;> rfl

@[simp] theorem PrState.synced_syncPending :
    (state.synced request snapshot).syncPending = state.syncPending := by
  unfold PrState.synced
  cases request.completionId <;> rfl

end Synced

/-! ## Handlers -/

open PullRequestM

/-- Debounce, then read the canonical snapshot and write it through: the
row first, then the object's own state. -/
def runSync (request : SyncRequest) (debounce : ℕ) : PullRequestM SyncOutcome := do
  let now ← now "sync-clock"
  let held ← state
  let state := held.getD default
  if shouldDebounceSync request.bypassDebounce state.lastSyncedAt now debounce then
    if !state.syncPending then
      setState { state with syncPending := true }
      scheduleSync (requestKey request) request (some debounce)
    return .debounced
  let state := { state with syncPending := false }
  setState state
  let fetched ← fetchSnapshot request state.snapshot.isSome
  let snapshot ← Prog.ofExcept (eligibleSnapshot fetched)
  match snapshot with
  | none =>
    deleteProjection "delete-ineligible-pr-projection" (requestKey request)
    clearState
    return .deleted
  | some snapshot =>
    upsertProjection snapshot
    setState (state.synced request snapshot)
    return .synced snapshot.headSha

/-- Retire the row and the state together, unless a sweep's fence finds the
pull request synced since. -/
def runClosed (key : String) (request : ClosedRequest) : PullRequestM ClosedOutcome := do
  let key ← Prog.ofExcept ((PrKey.parse key).mapError .terminal)
  let state ← state
  if !closedRetires state request then
    return .kept
  deleteProjection "delete-closed-pr-projection" key
  clearState
  return .retired

/-- Guard the target, then merge with the method the repository's row
resolved. -/
def runMerge (request : MergeRequest) : PullRequestM ActionOutcome := do
  let held ← state
  let state := held.getD default
  match guardTarget state.snapshot request.target with
  | .error reason => return .rejected reason
  | .ok () =>
    let mergeMethod ← repositoryMergeMethod request.target.repositoryId
    let result ← PullRequestM.merge request mergeMethod
    let outcome ← Prog.ofExcept (mergeResult result)
    let state ←
      if outcome.isSucceeded then do
        deleteProjection "delete-merged-pr-projection" request.target.key
        Prog.done { state with snapshot := none }
      else Prog.done state
    let logAt ← now "merge-log-clock"
    setState (state.pushHistory ⟨logAt, "merge", outcomeDetail outcome⟩)
    return outcome

/-- Guard the command and post it, logging the outcome under its own
name. -/
def runCommand (canPostCommands : Bool) (request : CommandRequest) :
    PullRequestM ActionOutcome := do
  let held ← state
  let state := held.getD default
  match guardCommand canPostCommands state.snapshot request.target with
  | .error reason => return .rejected reason
  | .ok () =>
    let result ← PullRequestM.postCommand request
    let outcome ← Prog.ofExcept (actionResult result)
    let logAt ← now "command-log-clock"
    setState (state.pushHistory ⟨logAt, toString request.command, outcomeDetail outcome⟩)
    return outcome

/-- Guard the target, then ask GitHub to update the branch; an update that
landed asks for a follow-up sync. -/
def runUpdateBranch (request : UpdateBranchRequest) : PullRequestM ActionOutcome := do
  let held ← state
  let state := held.getD default
  match guardTarget state.snapshot request.target with
  | .error reason => return .rejected reason
  | .ok () =>
    let result ← PullRequestM.updateBranch request
    let outcome ← Prog.ofExcept (actionResult result)
    let logAt ← now "update-branch-log-clock"
    setState (state.pushHistory ⟨logAt, "update_branch", outcomeDetail outcome⟩)
    if outcome.isSucceeded then
      let sync : SyncRequest :=
        { repositoryId := request.target.repositoryId, owner := request.target.owner,
          repo := request.target.repo, number := request.target.number,
          bypassDebounce := false, completionId := none }
      scheduleSync (requestKey sync) sync none
    return outcome

/-! ## Invocations -/

/-- The object as it is deployed: its key, whether a user is configured to
post commands under, and the debounce its syncs run with. -/
structure PullRequestObject where
  key : PrKey
  valid : key.Valid
  canPostCommands : Bool
  debounce : ℕ
  deriving Repr

/-- A handler called with its request. -/
inductive Invocation where
  | sync (request : SyncRequest)
  | closed (request : ClosedRequest)
  | merge (request : MergeRequest)
  | command (request : CommandRequest)
  | updateBranch (request : UpdateBranchRequest)
  deriving DecidableEq, Repr

/-- What a handler answers. -/
inductive HandlerAnswer where
  | sync (outcome : SyncOutcome)
  | closed (outcome : ClosedOutcome)
  | action (outcome : ActionOutcome)
  deriving DecidableEq, Repr

/-- The handler an invocation runs. -/
def Invocation.handler (object : PullRequestObject) : Invocation → PullRequestM HandlerAnswer
  | sync request => do return .sync (← runSync request object.debounce)
  | closed request => do return .closed (← runClosed (toString object.key) request)
  | merge request => do return .action (← runMerge request)
  | command request => do return .action (← runCommand object.canPostCommands request)
  | updateBranch request => do return .action (← runUpdateBranch request)

section Handler

variable (object : PullRequestObject)

theorem Invocation.handler_sync (request : SyncRequest) : (sync request).handler object
    = (runSync request object.debounce).bind fun outcome => .done (.sync outcome) := rfl

theorem Invocation.handler_closed (request : ClosedRequest) : (closed request).handler object
    = (runClosed (toString object.key) request).bind fun outcome => .done (.closed outcome) := rfl

theorem Invocation.handler_merge (request : MergeRequest) : (merge request).handler object
    = (runMerge request).bind fun outcome => .done (.action outcome) := rfl

theorem Invocation.handler_command (request : CommandRequest) : (command request).handler object
    = (runCommand object.canPostCommands request).bind fun outcome => .done (.action outcome) := rfl

theorem Invocation.handler_updateBranch (request : UpdateBranchRequest) :
    (updateBranch request).handler object
      = (runUpdateBranch request).bind fun outcome => .done (.action outcome) := rfl

end Handler

/-- The invocation is addressed to the object of `key`; a close names no
pull request but the object it is sent to. -/
def Invocation.Addresses (key : PrKey) : Invocation → Prop
  | sync request => requestKey request = key
  | closed _ => True
  | merge request => request.target.key = key
  | command request => request.target.key = key
  | updateBranch request => request.target.key = key

end Dependaboard
