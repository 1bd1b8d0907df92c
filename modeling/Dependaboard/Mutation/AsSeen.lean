import Dependaboard.Bulk.Course
import Dependaboard.Mutation.Attempt
import Dependaboard.PullRequest.Asked
import Dependaboard.Web.Forwarded
/-!
# Mutations — GitHub is written to as the user saw it

What a browser submits comes to a write at GitHub by four programs in turn:
the edge resolves it, the workflow sends its rounds, an object's handler
guards its target, an attempt verifies it. Each is read for what it may ask
of the next, whatever it is answered and wherever it stops, and
`batch_writes_as_seen` is the four in one: a write is of a pull request
submitted, as the projection had it, at the head the browser saw.
-/

namespace Dependaboard

open Durable Prog GithubExchange ProjectionReader

/-! ## What the edge asks of the workflow -/

section Edge

variable {validBatchId : String → Bool} {store : Store} {installationId : ℕ}
  {user batchId id : String} {action : BulkActionKind} {targets : List SubmittedTarget}
  {retriedFrom : Option String} {request : BulkRequest}

/-- **A batch carries rows of the installation**, each against the head the
browser saw. -/
theorem reaches_submitBatchIn {es : List (Exchange SubmitEffects)}
    (h : (submitBatchIn validBatchId installationId user batchId action targets
      retriedFrom).Reaches es (.runBatch id request))
    (hreads : ∀ e ∈ es, ReadsFrom store e) :
    id = batchId ∧ request.action = action ∧ request.userId = user ∧
      ∀ target ∈ request.targets, ∃ submitted ∈ targets, ∃ row,
        store.projected installationId submitted.key = .row row ∧
          target = submitted.resolved row := by
  dsimp only [submitBatchIn] at h
  split at h
  · exact absurd h not_reaches_fail
  rcases reaches_ask.1 h with ⟨-, hop⟩ | ⟨answer, rest, rfl, hrest⟩
  · cases hop
  cases answer with
  | error error => exact absurd hrest not_reaches_fail
  | ok projected =>
  obtain rfl : projected = getPrs store installationId _ :=
    hreads _ List.mem_cons_self
  rw [projectedPrs_getPrs] at hrest
  cases hforeign : (targets.map SubmittedTarget.key).find? fun key =>
      store.projected installationId key = .foreign with
  | some key =>
    rw [hforeign] at hrest
    exact absurd hrest not_reaches_fail
  | none =>
  have hown : ∀ target ∈ targets, store.projected installationId target.key ≠ .foreign := by
    simpa using List.find?_eq_none.1 hforeign
  rw [hforeign] at hrest
  simp only [List.map_map, Function.comp_def, resolveTargets_eq] at hrest
  split at hrest
  · exact absurd hrest not_reaches_fail
  rcases reaches_ask.1 hrest with ⟨-, hop⟩ | ⟨answer, after, rfl, hafter⟩
  · cases hop
    refine ⟨rfl, rfl, rfl, fun target htarget => ?_⟩
    obtain ⟨submitted, hsubmitted, hresolved⟩ := List.mem_filterMap.1 htarget
    obtain ⟨row, hrow, rfl⟩ := Option.map_eq_some_iff.1 hresolved
    refine ⟨submitted, hsubmitted, row, ?_, rfl⟩
    rw [store.projected_of_ne_foreign (hown submitted hsubmitted), hrow]
    rfl
  · cases answer with
    | error error => exact absurd hafter not_reaches_fail
    | ok _ => exact absurd hafter not_reaches_done

end Edge

/-! ## What the workflow asks of the objects -/

/-- What a round sends a target's object. -/
def RoundKind.invocation (batchId : String) (target : PrTarget) : RoundKind → Invocation
  | merge => .merge ⟨batchId, target⟩
  | updateBranch => .updateBranch ⟨batchId, target⟩

/-- The handlers a call of the workflow invokes, each on the object of its
target. -/
def BulkCall.invokes (batchId userId : String) : BulkCall → List (PrKey × Invocation)
  | .round kind targets => targets.map fun target => (target.key, kind.invocation batchId target)
  | .rebase target => [(target.key, .command ⟨batchId, target, userId, .rebase⟩)]
  | _ => []

/-- The call is for targets of the batch, and for its action. -/
def BulkCall.Within (request : BulkRequest) : BulkCall → Prop
  | .round kind targets => request.action = kind.action ∧ targets ⊆ request.targets
  | .rebase target => request.action = .rebase ∧ target ∈ request.targets
  | _ => True

section Workflow

variable {request : BulkRequest}

theorem asks_landRound (round : List PrTarget)
    (landed : List (Fin round.length × Except String ActionOutcome)) (progress : BatchProgress) :
    (landRound round landed progress).Asks (BulkCall.Within request) := by
  induction landed generalizing progress with
  | nil => trivial
  | cons landed rest ih => exact ⟨trivial, fun _ => ih _⟩

theorem asks_runRounds {kind : RoundKind} {rounds : List (List PrTarget)} (progress : BatchProgress)
    (haction : request.action = kind.action) (h : ∀ round ∈ rounds, round ⊆ request.targets) :
    (runRounds kind rounds progress).Asks (BulkCall.Within request) := by
  induction rounds generalizing progress with
  | nil => trivial
  | cons round rest ih =>
    have hround : (runRound kind round progress).Asks (BulkCall.Within request) := by
      refine ⟨trivial, fun _ => ⟨⟨haction, h round List.mem_cons_self⟩, fun answer => ?_⟩⟩
      refine (asks_landRound round _ _).bind fun progress => ?_
      split <;> trivial
    exact hround.bind fun progress => ih progress fun other hother =>
      h other (List.mem_cons_of_mem round hother)

theorem asks_runRebases {targets : List PrTarget} (progress : BatchProgress)
    (haction : request.action = .rebase) (h : targets ⊆ request.targets) :
    (runRebases targets progress).Asks (BulkCall.Within request) := by
  induction targets generalizing progress with
  | nil => trivial
  | cons target rest ih =>
    have hrest : rest ⊆ request.targets := fun other hother => h (List.mem_cons_of_mem target hother)
    refine ⟨trivial, fun _ => ⟨⟨haction, h List.mem_cons_self⟩, fun outcome => ⟨trivial, fun _ => ?_⟩⟩⟩
    dsimp only
    split
    · exact ih _ hrest
    · refine ⟨trivial, fun paused => ?_⟩
      cases paused with
      | ok _ => exact ih _ hrest
      | error message => trivial

/-- The rounds are of the batch's targets. -/
theorem asks_driveTargets (progress : BatchProgress) :
    (driveTargets request progress).Asks (BulkCall.Within request) := by
  unfold driveTargets
  cases haction : request.action with
  | merge =>
    refine asks_runRounds progress haction fun round hround target htarget => ?_
    exact (planMergeRounds_flatten request.targets maxConcurrent).mem_iff.1
      (List.mem_flatten.2 ⟨round, hround, htarget⟩)
  | updateBranch =>
    refine asks_runRounds progress haction fun round hround target htarget => ?_
    rw [← flatten_chunks maxConcurrent request.targets]
    exact List.mem_flatten.2 ⟨round, hround, htarget⟩
  | rebase => exact asks_runRebases progress haction (List.Subset.refl _)

/-- **The workflow sends nothing but its targets' actions.** -/
theorem asks_runBulkAction (batchId : String) (installationId : ℕ) :
    (runBulkAction batchId installationId request).Asks (BulkCall.Within request) := by
  refine ⟨trivial, fun started => ?_⟩
  cases started with
  | error error => trivial
  | ok startedAt =>
  refine ⟨trivial, fun _ => ⟨trivial, fun _ => ?_⟩⟩
  refine Asks.bind (Asks.outcome ((asks_driveTargets _).bind fun progress => ?_)) fun ended => ?_
  · refine ⟨trivial, fun completed => ?_⟩
    cases completed with
    | error error => trivial
    | ok completedAt =>
      dsimp only
      split
      · trivial
      · refine ⟨trivial, fun recorded => ?_⟩
        cases recorded <;> trivial
  · split
    · trivial
    · split
      · trivial
      · exact ⟨trivial, fun _ => trivial⟩

end Workflow

/-! ## What an object asks of GitHub -/

/-- The mutation a handler's call asks for. -/
def PullRequestCall.mutation? : PullRequestCall → Option Mutation
  | .merge request mergeMethod => some (.merge request mergeMethod)
  | .postCommand request => some (.command request)
  | .updateBranch request => some (.updateBranch request)
  | _ => none

/-- The invocation a mutation is carried out for. -/
def Mutation.invocation : Mutation → Invocation
  | merge request _ => .merge request
  | command request => .command request
  | updateBranch request => .updateBranch request

/-- A call that asks for no mutation. -/
def Unmutating (call : PullRequestCall) : Prop := call.mutation? = none

/-- **What stands behind a mutation asked for**: no other before it, and the
guard over the object's state. -/
structure Guarded (es : List (Exchange PullRequestEffects)) (mutation : Mutation) : Prop where
  first : ∀ e ∈ es, Unmutating e.1
  guard : ∃ held, ⟨.state, .ok held⟩ ∈ es ∧
    guardTarget (held.getD default).snapshot mutation.target = .ok ()

section Object

variable {object : PullRequestObject} {es : List (Exchange PullRequestEffects)}
  {op : PullRequestCall} {mutation : Mutation} {α : Type}

/-- What asks for no mutation has not got to one. -/
theorem not_reaches_mutation {p : PullRequestM α} (h : p.Asks Unmutating) (hop : p.Reaches es op)
    (hmutation : op.mutation? = some mutation) : False := by
  have hnone : op.mutation? = none := h.reaches hop
  rw [hmutation] at hnone
  cases hnone

theorem unmutating_log {step : String} {state : PrState} {entry : ℕ → ActionLog}
    {rest : PullRequestM α} (hrest : rest.Asks Unmutating) :
    ((PullRequestM.now step).bind fun now =>
      (PullRequestM.setState (state.pushHistory (entry now))).bind fun _ => rest).Asks
        Unmutating :=
  asks_try rfl fun _ => ⟨rfl, fun _ => hrest⟩

/-- The object's state is read before anything else. -/
theorem reaches_state {f : Option PrState → PullRequestM α}
    (h : (PullRequestM.state.bind f).Reaches es op) (hmutation : op.mutation? = some mutation) :
    ∃ held rest, es = ⟨.state, .ok held⟩ :: rest ∧ (f held).Reaches rest op := by
  rcases reaches_ask.1 h with ⟨-, rfl⟩ | ⟨answer, rest, rfl, hrest⟩
  · cases hmutation
  · obtain ⟨held, rfl, hheld⟩ := reaches_ofExcept_bind.1 hrest
    exact ⟨held, rest, rfl, hheld⟩

theorem guarded_runMerge {request : MergeRequest} (h : (runMerge request).Reaches es op)
    (hmutation : op.mutation? = some mutation) : Guarded es mutation := by
  obtain ⟨held, rest, rfl, hheld⟩ := reaches_state h hmutation
  dsimp only at hheld
  split at hheld
  · exact absurd hheld not_reaches_done
  rename_i hguard
  rcases reaches_ask.1 hheld with ⟨-, rfl⟩ | ⟨answer, rest, rfl, hrest⟩
  · cases hmutation
  obtain ⟨method, rfl, hmethod⟩ := reaches_ofExcept_bind.1 hrest
  rcases reaches_ask.1 hmethod with ⟨rfl, rfl⟩ | ⟨result, rest, rfl, hafter⟩
  · cases hmutation
    refine ⟨?_, held, List.mem_cons_self, hguard⟩
    simp [Unmutating, PullRequestCall.mutation?]
  -- past the merge only its outcome is recorded
  · refine (not_reaches_mutation ?_ hafter hmutation).elim
    refine (asks_ofExcept _).bind fun result => (asks_ofExcept _).bind fun outcome => ?_
    split
    · exact asks_try rfl fun _ => unmutating_log trivial
    · exact unmutating_log trivial

theorem guarded_runCommand {canPostCommands : Bool} {request : CommandRequest}
    (h : (runCommand canPostCommands request).Reaches es op)
    (hmutation : op.mutation? = some mutation) : Guarded es mutation := by
  obtain ⟨held, rest, rfl, hheld⟩ := reaches_state h hmutation
  dsimp only at hheld
  split at hheld
  · exact absurd hheld not_reaches_done
  rename_i hguard
  rcases reaches_ask.1 hheld with ⟨rfl, rfl⟩ | ⟨result, rest, rfl, hafter⟩
  · cases hmutation
    refine ⟨?_, held, List.mem_cons_self, ?_⟩
    · simp [Unmutating, PullRequestCall.mutation?]
    · unfold guardCommand at hguard
      split at hguard
      · cases hguard
      · exact hguard
  · refine (not_reaches_mutation ?_ hafter hmutation).elim
    exact (asks_ofExcept _).bind fun result => (asks_ofExcept _).bind fun outcome =>
      unmutating_log trivial

theorem guarded_runUpdateBranch {request : UpdateBranchRequest}
    (h : (runUpdateBranch request).Reaches es op) (hmutation : op.mutation? = some mutation) :
    Guarded es mutation := by
  obtain ⟨held, rest, rfl, hheld⟩ := reaches_state h hmutation
  dsimp only at hheld
  split at hheld
  · exact absurd hheld not_reaches_done
  rename_i hguard
  rcases reaches_ask.1 hheld with ⟨rfl, rfl⟩ | ⟨result, rest, rfl, hafter⟩
  · cases hmutation
    refine ⟨?_, held, List.mem_cons_self, hguard⟩
    simp [Unmutating, PullRequestCall.mutation?]
  · refine (not_reaches_mutation ?_ hafter hmutation).elim
    refine (asks_ofExcept _).bind fun result => (asks_ofExcept _).bind fun outcome =>
      unmutating_log ?_
    split
    · exact ⟨rfl, fun _ => trivial⟩
    · trivial

/-- A mutation is asked for by its own invocation alone. -/
theorem invocation_of_asked {invocation : Invocation} (h : invocation.Asked object op)
    (hmutation : op.mutation? = some mutation) : invocation = mutation.invocation := by
  cases op with
  | merge request method =>
    obtain rfl := Option.some.inj hmutation
    cases invocation with
    | merge own => exact congrArg Invocation.merge (show request = own from h).symm
    | _ => exact False.elim h
  | postCommand request =>
    obtain rfl := Option.some.inj hmutation
    cases invocation with
    | command own => exact congrArg Invocation.command (show request = own from h).symm
    | _ => exact False.elim h
  | updateBranch request =>
    obtain rfl := Option.some.inj hmutation
    cases invocation with
    | updateBranch own => exact congrArg Invocation.updateBranch (show request = own from h).symm
    | _ => exact False.elim h
  | _ => cases hmutation

/-- **An object asks for a mutation only past its guard.** -/
theorem guarded_handler {invocation : Invocation}
    (h : (invocation.handler object).Reaches es op) (hmutation : op.mutation? = some mutation) :
    invocation = mutation.invocation ∧ Guarded es mutation := by
  have hwithin {β : Type} {p : PullRequestM β} {f : β → HandlerAnswer}
      (h : (p.bind fun b => .done (f b)).Reaches es op) : p.Reaches es op := by
    rcases reaches_bind.1 h with hwithin | ⟨b, first, rest, -, -, hdone⟩
    · exact hwithin
    · exact absurd hdone not_reaches_done
  have hown : invocation = mutation.invocation :=
    invocation_of_asked ((asks_handler invocation).reaches h) hmutation
  cases invocation with
  | sync request => cases mutation <;> cases hown
  | closed request => cases mutation <;> cases hown
  | merge request => exact ⟨hown, guarded_runMerge (hwithin h) hmutation⟩
  | command request => exact ⟨hown, guarded_runCommand (hwithin h) hmutation⟩
  | updateBranch request => exact ⟨hown, guarded_runUpdateBranch (hwithin h) hmutation⟩

end Object

/-! ## What an attempt asks for -/

/-- The write a mutation sends. -/
def Mutation.call (config : GithubConfig) : Mutation → GithubCall
  | merge request mergeMethod =>
    .putMerge (request.target.path "/pulls/" "/merge") request.target.expectedSha
      (mergeMethod.getD config.mergeMethod)
  | command request => .postComment (commentsPath request.target) (commandBody request)
  | updateBranch request =>
    .putUpdateBranch (request.target.path "/pulls/" "/update-branch") request.target.expectedSha

/-- A request that writes nothing but `call`. -/
def WritesOnly (call : GithubCall) (request : Request) : Prop :=
  request.call.writes → request.call = call

section Attempt

variable {call : GithubCall} {stage : Stage} {α A T : Type}

theorem asks_liftExcept (r : Except GithubError α) :
    (GithubM.liftExcept r).Asks (WritesOnly call) := by
  cases r <;> trivial

theorem asks_sendRead {read : GithubCall} (hreads : read.writes = false) :
    (GithubM.send stage read).Asks (WritesOnly call) := by
  refine ⟨fun hwrites => ?_, fun reply => ?_⟩
  · rw [hreads] at hwrites
    cases hwrites
  · cases reply <;> trivial

theorem asks_sendOwn : (GithubM.send stage call).Asks (WritesOnly call) := by
  refine ⟨fun _ => rfl, fun reply => ?_⟩
  cases reply <;> trivial

theorem asks_installationToken (forceRefresh : Bool) :
    (installationToken stage forceRefresh).Asks (WritesOnly call) := by
  refine (asks_sendRead rfl).bind fun response => (asks_liftExcept _).bind fun signed => ?_
  cases signed <;> trivial

theorem asks_installationRequest {sent : GithubCall}
    (h : (GithubM.send stage sent).Asks (WritesOnly call)) :
    (installationRequest stage sent).Asks (WritesOnly call) := by
  refine (asks_installationToken false).bind fun _ => h.bind fun response => ?_
  split
  · exact (asks_installationToken true).bind fun _ => h
  · trivial

theorem asks_installationJson {read : GithubCall} (hreads : read.writes = false) :
    (installationJson stage read).Asks (WritesOnly call) :=
  (asks_installationRequest (asks_sendRead hreads)).bind fun _ => asks_liftExcept _

theorem asks_findCommentWithMarker (path marker : String) (fuel page : ℕ) :
    (findCommentWithMarker stage path marker fuel page).Asks (WritesOnly call) := by
  induction fuel generalizing page with
  | zero => trivial
  | succ fuel ih =>
    refine (asks_installationJson rfl).bind fun comments => ?_
    split
    · trivial
    · split
      · trivial
      · exact ih _

/-- A verified mutation writes what its write step does. -/
theorem asks_verifiedMutation {operation : Operation} {target : PrTarget}
    {alreadyApplied : GithubPull → Option A} {mutate : GithubM (Write T A)}
    {confirm : GithubM (Option A)} (hmutate : mutate.Asks (WritesOnly call))
    (hconfirm : confirm.Asks (WritesOnly call)) :
    (verifiedMutation operation target alreadyApplied mutate confirm).Asks (WritesOnly call) := by
  have hreadBack (unconfirmed : GithubError) :
      (readBack confirm unconfirmed : GithubM (MutationOutcome T A)).Asks (WritesOnly call) := by
    refine hconfirm.catching.bind fun found => ?_
    split <;> trivial
  refine (asks_installationJson rfl).bind fun pull => ?_
  split
  · trivial
  · refine (asks_liftExcept _).bind fun _ => hmutate.catching.bind fun write => ?_
    split
    · split
      · trivial
      · exact hreadBack _
      · trivial
    · trivial
    · exact hreadBack _
    · trivial

theorem asks_confirmOnPull {target : PrTarget} {landed : GithubPull → Option A} :
    (confirmOnPull target landed).Asks (WritesOnly call) :=
  (asks_installationJson rfl).bind fun _ => trivial

/-- **An attempt writes its mutation and nothing else.** -/
theorem asks_attempt (mutation : Mutation) (config : GithubConfig) (fuel : ℕ) :
    (mutation.attempt config fuel).Asks (WritesOnly (mutation.call config)) := by
  have hwrite {A : Type} : (sendWrite (A := A) (mutation.call config)).Asks
      (WritesOnly (mutation.call config)) :=
    (asks_installationRequest asks_sendOwn).bind fun _ => trivial
  rw [Mutation.attempt_eq]
  split
  · trivial
  refine (asks_verifiedMutation ?_ ?_).bind fun outcome => asks_liftExcept _
  · cases mutation with
    | merge request mergeMethod => exact hwrite
    | updateBranch request => exact hwrite
    | command request =>
      refine (asks_findCommentWithMarker _ _ fuel 1).bind fun found => ?_
      cases found with
      | some commentId => trivial
      | none =>
        exact ((asks_liftExcept _).bind fun _ => asks_sendOwn).bind fun _ => trivial
  · cases mutation with
    | merge request mergeMethod => exact asks_confirmOnPull
    | updateBranch request => exact asks_confirmOnPull
    | command request => exact (asks_findCommentWithMarker _ _ fuel 1).bind fun _ => trivial

end Attempt

/-! ## The four in one -/

/-- A batch as a browser submits it. -/
structure Submission where
  user : String
  batchId : String
  action : BulkActionKind
  targets : List SubmittedTarget
  retriedFrom : Option String

/-- The action a mutation carries out. -/
def Mutation.action : Mutation → BulkActionKind
  | merge _ _ => .merge
  | command _ => .rebase
  | updateBranch _ => .updateBranch

/-- **How a submission comes to an exchange with GitHub**, with where each of
the four programs stood. -/
structure BatchExchange (validBatchId : String → Bool) (store : Store) (installationId : ℕ)
    (config : GithubConfig) (submission : Submission) where
  /-- What the edge exchanged before it sent the batch. -/
  edge : List (Exchange SubmitEffects)
  id : String
  request : BulkRequest
  submitted : (submitBatchIn validBatchId installationId submission.user submission.batchId
    submission.action submission.targets submission.retriedFrom).Reaches edge (.runBatch id request)
  reads : ∀ e ∈ edge, ReadsFrom store e
  /-- What the workflow exchanged before it called the objects. -/
  workflow : List (Exchange BulkEffects)
  round : BulkCall
  sent : (BulkAction.run validBatchId id installationId request).Reaches workflow round
  object : PullRequestObject
  invocation : Invocation
  invoked : (object.key, invocation) ∈ round.invokes id request.userId
  /-- What the handler exchanged before it asked for its mutation. -/
  handler : List (Exchange PullRequestEffects)
  call : PullRequestCall
  asked : (invocation.handler object).Reaches handler call
  mutation : Mutation
  mutates : call.mutation? = some mutation
  /-- What an attempt at it exchanged. -/
  attempt : List GithubExchange
  fuel : ℕ
  result : Except Halt mutation.Done
  attempted : (mutation.attempt config fuel).Exchanges attempt result
  exchange : GithubExchange
  exchanged : exchange ∈ attempt

section Batch

variable {validBatchId : String → Bool} {store : Store} {installationId : ℕ} {config : GithubConfig}
  {submission : Submission}

/-- A call of the workflow invokes its batch's action on one of its targets'
objects. -/
theorem BulkCall.Within.invokes {request : BulkRequest} {round : BulkCall}
    (h : round.Within request) {batchId userId : String} {key : PrKey} {mutation : Mutation}
    (hinvoked : (key, mutation.invocation) ∈ round.invokes batchId userId) :
    mutation.target ∈ request.targets ∧ mutation.target.key = key ∧
      request.action = mutation.action := by
  cases round with
  | round kind targets =>
    obtain ⟨haction, hsubset⟩ := h
    obtain ⟨target, htarget, heq⟩ := List.mem_map.1 hinvoked
    obtain ⟨rfl, hinvocation⟩ := Prod.mk.inj heq
    cases kind with
    | merge =>
      cases mutation with
      | merge request method => cases hinvocation; exact ⟨hsubset htarget, rfl, haction⟩
      | command request => cases hinvocation
      | updateBranch request => cases hinvocation
    | updateBranch =>
      cases mutation with
      | merge request method => cases hinvocation
      | command request => cases hinvocation
      | updateBranch request => cases hinvocation; exact ⟨hsubset htarget, rfl, haction⟩
  | rebase target =>
    obtain ⟨haction, htarget⟩ := h
    obtain ⟨rfl, hinvocation⟩ := Prod.mk.inj (List.mem_singleton.1 hinvoked)
    cases mutation with
    | merge request method => cases hinvocation
    | command request => cases hinvocation; exact ⟨htarget, rfl, haction⟩
    | updateBranch request => cases hinvocation
  | now _ | publish _ | startBatch _ | pause | unlistBatch | recordBatch _ =>
    exact absurd hinvoked List.not_mem_nil

/-- A write of an attempt follows a read of the open Dependabot pull request
at the expected head. -/
theorem write_verified {mutation : Mutation} {fuel : ℕ} {es : List GithubExchange}
    {r : Except Halt mutation.Done} (h : (mutation.attempt config fuel).Exchanges es r)
    {e : GithubExchange} (he : e ∈ es) (hwrites : e.writes) :
    ∃ read ∈ es, stage read = .verify ∧ ∃ pull, pull? read = some pull ∧ pull.state = "open" ∧
      pull.login = dependabotLogin ∧ pull.headSha = mutation.target.expectedSha := by
  obtain ⟨vs, ms, cs, rfl, hsound⟩ := Mutation.sound_attempt h
  have hms : e ∈ ms := by
    by_contra hnot
    have hother : e ∈ vs ++ cs := by
      simp only [List.mem_append] at he ⊢
      tauto
    have := hsound.quiet e hother
    rw [hwrites] at this
    cases this
  obtain ⟨read, hread, pull, hpull⟩ := hsound.verified (List.ne_nil_of_mem hms)
  exact ⟨read, by simp [hread], hsound.verify read hread, pull, hpull⟩

/-- **GitHub is written to as the user saw it.** Whatever a submission comes
to, a write of it is its action on a pull request submitted, one the
projection held for the installation and as it held it; the object held that
pull request at the head the browser saw, and had asked for no mutation
since; and GitHub, asked in the same attempt, showed it open, Dependabot's,
and at that head. -/
theorem batch_writes_as_seen
    (w : BatchExchange validBatchId store installationId config submission)
    (hwrites : w.exchange.writes) :
    ∃ submitted ∈ submission.targets, ∃ row,
      store.projected installationId submitted.key = .row row ∧ w.object.key = submitted.key ∧
      w.mutation.target = submitted.resolved row ∧ w.mutation.action = submission.action ∧
      w.exchange.1.call = w.mutation.call config ∧
      (∃ held, ⟨.state, .ok held⟩ ∈ w.handler ∧
        guardTarget (held.getD default).snapshot (submitted.resolved row) = .ok ()) ∧
      (∀ e ∈ w.handler, Unmutating e.1) ∧
      ∃ read ∈ w.attempt, stage read = .verify ∧ ∃ pull, pull? read = some pull ∧
        pull.state = "open" ∧ pull.login = dependabotLogin ∧
        pull.headSha = submitted.expectedSha := by
  obtain ⟨-, haction, -, htargets⟩ := reaches_submitBatchIn w.submitted w.reads
  have hround : w.round.Within w.request := by
    have hsent := w.sent
    unfold BulkAction.run at hsent
    split at hsent
    · exact absurd hsent not_reaches_fail
    · exact (asks_runBulkAction w.id installationId).reaches hsent
  obtain ⟨hown, hguarded⟩ := guarded_handler w.asked w.mutates
  obtain ⟨htarget, hkey, hmutation⟩ := hround.invokes (hown ▸ w.invoked)
  obtain ⟨submitted, hsubmitted, row, hrow, hresolved⟩ := htargets _ htarget
  obtain ⟨held, hheld, hguard⟩ := hguarded.guard
  rw [hresolved] at hguard hkey
  refine ⟨submitted, hsubmitted, row, hrow, ?_, hresolved, hmutation ▸ haction, ?_,
    ⟨held, hheld, hguard⟩, hguarded.first, ?_⟩
  · rw [← hkey]
    exact key_resolved (Store.row?_of_projected hrow)
  · exact (asks_attempt w.mutation config w.fuel).exchanges w.attempted _ w.exchanged hwrites
  · have hverified := write_verified w.attempted w.exchanged hwrites
    rwa [hresolved] at hverified

end Batch

/-! ## A sample

The first of the submitted pull requests, merged. -/

/-- The target the batch has for it. -/
def sampleSeen : PrTarget :=
  ⟨1, "acme", "api", 3, "abc123", "Bump serde from 1.0.0 to 1.1.0",
    "https://github.com/acme/api/pull/1"⟩

/-- The batch the edge sends. -/
def sampleBatch : BulkRequest :=
  ⟨.merge, [sampleSeen, { sampleSeen with number := 9, expectedSha := "fed321" }], "dashboard", none⟩

/-- What the workflow exchanges before its first round. -/
def sampleFirstRound : List (Exchange BulkEffects) :=
  let progress := BatchProgress.queued "batch-1" .merge sampleBatch.targets
  [⟨.now "batch-start-clock", .ok 0⟩, ⟨.publish progress, ()⟩,
    ⟨.startBatch (sampleBatch.running "batch-1" 9 0), .ok ()⟩,
    ⟨.publish (startRound progress [sampleSeen]), ()⟩]

/-- What the merge exchanges with GitHub. -/
def sampleMergeAttempt : List GithubExchange :=
  [⟨⟨.verify, .installationToken false⟩, .ok (.answered (.ok ()))⟩,
    ⟨⟨.verify, .getPull "/repos/acme/api/pulls/3"⟩,
      .ok (.answered ⟨"open", dependabotLogin, "abc123", false, none⟩)⟩,
    ⟨⟨.mutate, .installationToken false⟩, .ok (.answered (.ok ()))⟩,
    ⟨⟨.mutate, .putMerge "/repos/acme/api/pulls/3/merge" "abc123" .squash⟩,
      .ok (.answered ⟨true, "merged", some "fedcba9"⟩)⟩]

theorem batch_writes_as_seen_sample : ∃ submitted ∈ sampleSubmission,
    submitted.key = ⟨1, 3⟩ ∧ submitted.expectedSha = "abc123" := by
  let w : BatchExchange (fun id => id == "batch-1") sampleProjection 9
      ⟨none, "dashboard", .squash⟩ ⟨"dashboard", "batch-1", .merge, sampleSubmission, none⟩ :=
    { edge := [⟨.getPrs 9 [⟨1, 3⟩, ⟨1, 4⟩, ⟨1, 9⟩],
        .ok [.row (samplePr 3 30), .absent, .row (samplePr 9 20)]⟩]
      id := "batch-1"
      request := sampleBatch
      submitted := .later .here
      reads := List.forall_mem_singleton.2 (List.forall_mem_cons.1 readsFrom_sampleForwarding).1
      workflow := sampleFirstRound
      round := .round .merge [sampleSeen]
      sent := .later (.later (.later (.later .here)))
      object := ⟨⟨1, 3⟩, by decide, true, 15⟩
      invocation := .merge ⟨"batch-1", sampleSeen⟩
      invoked := List.mem_singleton.2 rfl
      handler := [⟨.state, .ok (some { (default : PrState) with snapshot := some (samplePr 3 30) })⟩,
        ⟨.repositoryMergeMethod 1, .ok none⟩]
      call := .merge ⟨"batch-1", sampleSeen⟩ none
      asked := .later (.later .here)
      mutation := .merge ⟨"batch-1", sampleSeen⟩ none
      mutates := rfl
      attempt := sampleMergeAttempt
      fuel := 0
      result := .ok ⟨"merged", some "fedcba9"⟩
      attempted := .ask (.ask (.ask (.ask (.done _))))
      exchange := ⟨⟨.mutate, .putMerge "/repos/acme/api/pulls/3/merge" "abc123" .squash⟩,
        .ok (.answered ⟨true, "merged", some "fedcba9"⟩)⟩
      exchanged := by simp [sampleMergeAttempt] }
  obtain ⟨submitted, hsubmitted, row, -, hkey, htarget, -⟩ := batch_writes_as_seen w rfl
  exact ⟨submitted, hsubmitted, hkey.symm, congrArg PrTarget.expectedSha htarget.symm⟩

end Dependaboard
