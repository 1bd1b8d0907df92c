import Dependaboard.Durable.Asks
import Dependaboard.Service.PullRequest
/-!
# The pull request — what a handler may ask for

`Invocation.Asked` is the calls each handler may come to ask for, whatever it
is answered: a mutation of its own request alone, a trailing sync of its own
object, the row of its own key. `asks_handler` is that there are no others.
-/

namespace Dependaboard

open Durable Prog

/-- The calls a handler may ask for. Every handler may read the clock and the
state, and write the state. -/
def Invocation.Asked (object : PullRequestObject) : Invocation → PullRequestCall → Prop
  | _, .now _ => True
  | _, .state => True
  | _, .setState _ => True
  | _, .clearState => True
  | .sync request, .scheduleSync key other after =>
    key = requestKey request ∧ other = request ∧ after = some object.debounce
  | .sync request, .fetchSnapshot other _ => other = request
  | .sync _, .upsertProjection _ => True
  | .sync request, .deleteProjection _ key => key = requestKey request
  | .closed _, .deleteProjection _ key => PrKey.parse (toString object.key) = .ok key
  | .merge request, .repositoryMergeMethod repositoryId =>
    repositoryId = request.target.repositoryId
  | .merge request, .merge other _ => other = request
  | .merge request, .deleteProjection _ key => key = request.target.key
  | .command request, .postCommand other => other = request
  | .updateBranch request, .updateBranch other => other = request
  | .updateBranch request, .scheduleSync key other after =>
    key = request.target.key ∧ requestKey other = key ∧ after = none
  | _, _ => False

section Handlers

variable {object : PullRequestObject} {α : Type}

/-- The log a handler leaves is asked for by any. -/
theorem asks_log {invocation : Invocation} {step : String} {state : PrState}
    {entry : ℕ → ActionLog} {rest : PullRequestM α}
    (hrest : rest.Asks (invocation.Asked object)) :
    ((PullRequestM.now step).bind fun now =>
      (PullRequestM.setState (state.pushHistory (entry now))).bind fun _ => rest).Asks
        (invocation.Asked object) := by
  refine asks_try ?_ fun _ => ⟨?_, fun _ => hrest⟩
  · cases invocation <;> trivial
  · cases invocation <;> trivial

theorem asks_runSync (request : SyncRequest) :
    (runSync request object.debounce).Asks (Invocation.Asked object (.sync request)) := by
  refine asks_try trivial fun now => asks_try trivial fun held => ?_
  dsimp only
  split
  · split
    · exact ⟨trivial, fun _ => ⟨⟨rfl, rfl, rfl⟩, fun _ => trivial⟩⟩
    · trivial
  · refine ⟨trivial, fun _ => asks_try rfl fun fetched => (asks_ofExcept _).bind fun snapshot => ?_⟩
    cases snapshot with
    | none => exact asks_try rfl fun _ => ⟨trivial, fun _ => trivial⟩
    | some snapshot => exact asks_try trivial fun _ => ⟨trivial, fun _ => trivial⟩

theorem asks_runClosed (request : ClosedRequest) :
    (runClosed (toString object.key) request).Asks
      (Invocation.Asked object (.closed request)) := by
  unfold runClosed
  cases hparse : PrKey.parse (toString object.key) with
  | error error => trivial
  | ok key =>
    refine asks_try trivial fun held => ?_
    split
    · trivial
    · exact asks_try hparse fun _ => ⟨trivial, fun _ => trivial⟩

theorem asks_runMerge (request : MergeRequest) :
    (runMerge request).Asks (Invocation.Asked object (.merge request)) := by
  refine asks_try trivial fun held => ?_
  dsimp only
  split
  · trivial
  refine asks_try rfl fun method => asks_try rfl fun result =>
    (asks_ofExcept _).bind fun outcome => ?_
  split
  · exact asks_try rfl fun _ => asks_log trivial
  · exact asks_log trivial

theorem asks_runCommand (request : CommandRequest) :
    (runCommand object.canPostCommands request).Asks
      (Invocation.Asked object (.command request)) := by
  refine asks_try trivial fun held => ?_
  dsimp only
  split
  · trivial
  exact asks_try rfl fun result => (asks_ofExcept _).bind fun outcome => asks_log trivial

theorem asks_runUpdateBranch (request : UpdateBranchRequest) :
    (runUpdateBranch request).Asks (Invocation.Asked object (.updateBranch request)) := by
  refine asks_try trivial fun held => ?_
  dsimp only
  split
  · trivial
  refine asks_try rfl fun result => (asks_ofExcept _).bind fun outcome => asks_log ?_
  split
  · exact ⟨⟨rfl, rfl, rfl⟩, fun _ => trivial⟩
  · trivial

/-- **A handler asks for nothing else.** -/
theorem asks_handler (invocation : Invocation) :
    (invocation.handler object).Asks (invocation.Asked object) := by
  cases invocation with
  | sync request => exact (asks_runSync request).bind fun _ => trivial
  | closed request =>
    rw [Invocation.handler_closed]
    exact (asks_runClosed request).bind fun _ => trivial
  | merge request => exact (asks_runMerge request).bind fun _ => trivial
  | command request => exact (asks_runCommand request).bind fun _ => trivial
  | updateBranch request => exact (asks_runUpdateBranch request).bind fun _ => trivial

end Handlers

end Dependaboard
