import Dependaboard.Durable.Prog
import Dependaboard.Service.PullRequest
import Dependaboard.Store.Prune
/-!
# Service — the sweeps

The handlers that prune: a repository's reconcile, an installation's sync
and its purge. Each prunes once and then drains the retirement outbox
whole: read what is pending, tell each pull request's object it is gone,
acknowledge through the last one read.
-/

namespace Dependaboard

open Durable

/-- Proof that a prune landed, which a drain takes. -/
structure Pruned where
  deriving DecidableEq, Repr

/-- Which repository a reconcile is for. -/
structure Addressed where
  repositoryId : ℕ
  owner : String
  repo : String
  deriving DecidableEq, Repr

/-- The calls a sweep asks for. Its one-way sends cannot fail. -/
inductive SweepCall where
  | now (step : String)
  | listPullRequests (addressed : Addressed)
  | syncPullRequest (key : PrKey) (request : SyncRequest)
  | listRepositories
  | prune (prune : Prune)
  | reconcileRepository (repository : RepoRecord)
  | pendingRetirements
  | closePullRequest (key : PrKey) (request : ClosedRequest)
  | acknowledgeRetirements (through : ℕ)
  deriving Repr

/-- What each call is answered in. -/
@[reducible] def SweepCall.Answer : SweepCall → Type
  | now _ => Except HandlerError ℕ
  | listPullRequests _ => Except HandlerError (List SyncRequest)
  | syncPullRequest _ _ => Except HandlerError Unit
  | listRepositories => Except HandlerError (List RepoRecord)
  | prune _ => Except HandlerError Pruned
  | reconcileRepository _ => Unit
  | pendingRetirements => Except HandlerError (List Retirement)
  | closePullRequest _ _ => Unit
  | acknowledgeRetirements _ => Except HandlerError Unit

/-- The interface of the sweeps. -/
@[reducible] def SweepEffects : Signature := ⟨SweepCall, SweepCall.Answer⟩

/-- A handler that sweeps. -/
abbrev SweepM (α : Type) : Type := Prog SweepEffects HandlerError α

namespace SweepM

/-- The clock of the sweep's fence, journaled: a retry prunes by the time the
listing started, not by its own. -/
def now (step : String) : SweepM ℕ :=
  Prog.ask (S := SweepEffects) (.now step) Prog.ofExcept

/-- The repository's open Dependabot pull requests, as GitHub lists them;
incomplete is an error. -/
def listPullRequests (addressed : Addressed) : SweepM (List SyncRequest) :=
  Prog.ask (S := SweepEffects) (.listPullRequests addressed) Prog.ofExcept

/-- A call to the object, waited on; its failure is the sweep's to note. -/
def syncPullRequest (key : PrKey) (request : SyncRequest) : SweepM (Except HandlerError Unit) :=
  Prog.ask (S := SweepEffects) (.syncPullRequest key request) Prog.done

/-- The installation's repositories, as GitHub lists them; incomplete is an
error. -/
def listRepositories : SweepM (List RepoRecord) :=
  Prog.ask (S := SweepEffects) .listRepositories Prog.ofExcept

/-- One prune, which is one transaction of the store's. -/
def prune (prune : Prune) : SweepM Pruned :=
  Prog.ask (S := SweepEffects) (.prune prune) Prog.ofExcept

/-- What the listing does not have is pruned, if nothing newer than the fence
says otherwise. -/
def retainPullRequests (repositoryId : ℕ) (live : List ℕ) (syncedBefore : ℕ) : SweepM Pruned :=
  prune (.retainPrs repositoryId live syncedBefore)

/-- The listing's repositories are written and the others pruned, in one
transaction. -/
def replaceRepositories (installationId : ℕ) (repositories : List RepoRecord)
    (syncedBefore : ℕ) : SweepM Pruned :=
  prune (.replaceInstallationRepos installationId repositories syncedBefore)

/-- The installation is gone from GitHub, so no fence spares a row of it. -/
def purgeProjection (installationId : ℕ) : SweepM Pruned :=
  prune (.purgeInstallation installationId)

/-- A repository's reconcile is sent one way: the installation's sweep does
not wait for it. -/
def reconcileRepository (repository : RepoRecord) : SweepM Unit :=
  Prog.ask (S := SweepEffects) (.reconcileRepository repository) Prog.done

/-- What the outbox holds, in the order it was queued. -/
def pendingRetirements : SweepM (List Retirement) :=
  Prog.ask (S := SweepEffects) .pendingRetirements Prog.ofExcept

/-- A retirement is delivered as a `closed` message to the pull request's
object. -/
def closePullRequest (key : PrKey) (request : ClosedRequest) : SweepM Unit :=
  Prog.ask (S := SweepEffects) (.closePullRequest key request) Prog.done

/-- What was sent leaves the outbox, after the sends: a crash between repeats
them and loses none. -/
def acknowledgeRetirements (through : ℕ) : SweepM Unit :=
  Prog.ask (S := SweepEffects) (.acknowledgeRetirements through) Prog.ofExcept

end SweepM

open SweepM

/-- Tell every pull request the projection has pruned and not yet told that
it is gone, then forget them. -/
def retirePending (_pruned : Pruned) : SweepM ℕ := do
  let pending ← pendingRetirements
  match pending.getLast? with
  | none => return 0
  | some last =>
    Prog.forEach pending fun retirement =>
      closePullRequest retirement.key ⟨retirement.syncedBefore⟩
    acknowledgeRetirements last.id
    return pending.length

/-- Sync each listed pull request, collecting the keys that failed. -/
def syncListed : List SyncRequest → SweepM (List PrKey)
  | [] => Prog.done []
  | request :: rest => do
    let answer ← syncPullRequest (requestKey request) request
    let failed ← syncListed rest
    match answer with
    | .ok () => return failed
    | .error _ => return requestKey request :: failed

/-- Read the fence, sync every listed pull request, prune the projection
down to the listing under that fence, then drain. -/
def runRepoReconcile (addressed : Addressed) : SweepM ℕ := do
  let reconcileStart ← now "repo-reconcile-clock"
  let pulls ← listPullRequests addressed
  let failed ← syncListed pulls
  let live := pulls.map (·.number)
  let pruned ← retainPullRequests addressed.repositoryId live reconcileStart
  let _ ← retirePending pruned
  if failed = [] then
    return pulls.length
  let keys := ", ".intercalate (failed.map toString)
  .fail (.terminal
    (toString failed.length ++ " of " ++ toString pulls.length
      ++ " pull request syncs failed while reconciling repository "
      ++ toString addressed.repositoryId ++ ": " ++ keys))

/-- Read the fence, make the projection match the installation's listing
under it, drain, then fan a reconcile out to each repository. -/
def runInstallationSync (installationId : ℕ) : SweepM ℕ := do
  let reconcileStart ← now "installation-reconcile-clock"
  let repositories ← listRepositories
  let pruned ← replaceRepositories installationId repositories reconcileStart
  let _ ← retirePending pruned
  Prog.forEach repositories reconcileRepository
  return repositories.length

/-- Purge the installation's projection, then drain. -/
def runInstallationPurge (installationId : ℕ) : SweepM ℕ := do
  let pruned ← purgeProjection installationId
  retirePending pruned

end Dependaboard
