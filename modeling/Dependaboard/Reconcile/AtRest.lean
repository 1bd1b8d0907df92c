import Dependaboard.Durable.Refine
import Dependaboard.PullRequest.Asked
import Dependaboard.PullRequest.Debounce
import Dependaboard.PullRequest.Reopened
import Dependaboard.Reconcile.Complete
/-!
# Reconcile — one pull request while GitHub is at rest

From some moment on nothing of a repository changes at GitHub. The object of
one of its pull requests goes on serving whatever it is sent, any number of
sweeps run beside it, and the rest of the projection changes as it likes.
Before that moment anything may have happened: the row may be missing or
stale, events may wait behind a trailing sync, and closes of earlier sweeps
may still be on their way.

The object's clock, state and trailing syncs are `DebounceWorld`'s, and
`restView` is that its run is one of `debounceSystem`'s.
-/

namespace Dependaboard

open Durable Paging

/-- **GitHub at rest** around one object's pull request. -/
structure AtRest (object : PullRequestObject) where
  /-- The moment from which nothing changes. -/
  since : ℕ
  /-- The repository's open pull requests, in the order GitHub lists them. -/
  pulls : List PullListItem
  one : (pulls.map (·.number)).Nodup
  /-- What a read of the pull request may answer with while it is open. -/
  Shows : PrRecord → Prop

namespace AtRest

variable {object : PullRequestObject} (g : AtRest object)

/-- The pull request is open, and Dependabot's. -/
def Open : Prop :=
  ∃ pull ∈ g.pulls, pull.login = dependabotLogin ∧ pull.number = object.key.number

/-- The pull requests at every moment a page of them is read. -/
def steady : OpenPulls where
  moments _ := g.pulls
  nodup _ := g.one.of_map _
  asked p := p
  ordered := monotone_id
  one _ := g.one

/-- What a listing of the repository may return. -/
def Listed (owner repo : String) (pulls : List SyncRequest) : Prop :=
  ∃ send fuel, g.steady.Answers owner repo send ∧
    listDependabotPrs send owner repo object.key.repositoryId fuel 1 [] = some (.ok pulls)

/-- What a read of the pull request may settle on: its snapshot while it is
open, stamped no earlier than the rest began. -/
def Says (request : SyncRequest) : Settled (Option PrRecord) → Prop
  | .ok (some snapshot) =>
    g.Open ∧ SnapshotOf request snapshot ∧ g.Shows snapshot ∧ g.since ≤ snapshot.syncedAt
  | .ok none => ¬ g.Open
  | .rejected .notFound _ => ¬ g.Open
  | _ => True

end AtRest

/-- One object and the projection around it. -/
structure RestWorld where
  /-- The object's clock, its state and its trailing syncs. -/
  beat : DebounceWorld
  store : Store
  /-- The closes ever sent to the object. -/
  closes : List ClosedRequest
  /-- Whether the handler that holds the object is a sync. -/
  syncing : Bool
  /-- Whether a sync of the object has ended without an error. -/
  ended : Bool
  /-- Whether a sync has failed since the last that read GitHub. -/
  failed : Bool
  /-- The repository each sweep reconciles. -/
  reconciling : ℕ → Option ℕ
  /-- Whether a reconcile of the object's repository has succeeded. -/
  swept : Bool

namespace RestWorld

/-- The handler that holds the object is a sync, or not. -/
def serve (w : RestWorld) (delivery : Delivery) (syncing : Bool) : RestWorld :=
  { w with beat := { w.beat with serving := some delivery }, syncing := syncing }

/-- A handler that ended in `result` gives the object up. -/
def release (w : RestWorld) (result : Except HandlerError HandlerAnswer) : RestWorld :=
  { w with
    beat := w.beat.release result
    syncing := false
    ended := match result with
      | .ok (.sync _) => true
      | _ => w.ended
    failed := match result with
      | .ok (.sync (.synced _)) | .ok (.sync .deleted) => false
      | .error _ => w.failed || w.syncing
      | _ => w.failed }

/-- A sweep that ended in `result` is over. -/
def sweepOver (w : RestWorld) (key : PrKey) (slot : ℕ) (result : Except HandlerError ℕ) :
    RestWorld :=
  { w with
    swept := match result with
      | .ok _ => w.swept || w.reconciling slot = some key.repositoryId
      | .error _ => w.swept }

/-- A sweep begins, of a repository or of the installation. -/
def sweepBegins (w : RestWorld) (slot : ℕ) (repository : Option ℕ) : RestWorld :=
  { w with reconciling := Function.update w.reconciling slot repository }

end RestWorld

open RestWorld

/-- The invocation is a sync. -/
def Invocation.isSync : Invocation → Bool
  | sync _ => true
  | _ => false

variable {object : PullRequestObject}

/-- What a handler's call is answered with, and does to the projection,
beyond what it does to the object. -/
def restAnswers (g : AtRest object) :
    (call : PullRequestCall) → RestWorld → call.Answer → RestWorld → Prop
  | .fetchSnapshot request _, w, answer, w' =>
    w' = w ∧ ∀ settled, answer = .ok settled → g.Says request settled
  | .merge _ _, w, answer, w' =>
    -- a merge that lands is a change
    w' = w ∧ (g.Open → ∀ merged, answer ≠ .ok (.ok merged))
  | .upsertProjection snapshot, w, answer, w' =>
    (∃ error, answer = .error error ∧ w' = w) ∨
      ∃ store', w.store.upsertPr snapshot = .ok store' ∧ answer = .ok () ∧
        w' = { w with store := store' }
  | .deleteProjection _ key, w, answer, w' =>
    (∃ error, answer = .error error ∧ w' = w) ∨
      answer = .ok () ∧ w' = { w with store := w.store.deletePr key }
  | .now _, w, _, w' => w' = w
  | .state, w, _, w' => w' = w
  | .setState _, w, _, w' => w' = w
  | .clearState, w, _, w' => w' = w
  | .scheduleSync _ _ _, w, _, w' => w' = w
  | .postCommand _, w, _, w' => w' = w
  | .updateBranch _, w, _, w' => w' = w
  | .repositoryMergeMethod _, w, _, w' => w' = w

/-- How a handler's call is answered. -/
def restSem (g : AtRest object) (call : PullRequestCall) (w : RestWorld) (answer : call.Answer)
    (w' : RestWorld) : Prop :=
  ∃ beat', debounceSem call w.beat answer beat' ∧
    restAnswers g call { w with beat := beat' } answer w'

/-- How a sweep's call is answered. A sync waited on answers once one of the
object has ended so; the repository is installed, and listed as it is. -/
def restSweep (g : AtRest object) :
    (call : SweepCall) → RestWorld → call.Answer → RestWorld → Prop
  | .now _, w, answer, w' => w' = w ∧ ∀ at_, answer = .ok at_ → at_ = w.beat.clock
  | .listPullRequests addressed, w, answer, w' =>
    w' = w ∧ ∀ pulls, answer = .ok pulls → addressed.repositoryId = object.key.repositoryId →
      g.Listed addressed.owner addressed.repo pulls
  | .syncPullRequest key _, w, answer, w' =>
    w' = w ∧ (key = object.key → answer = .ok () → w.ended)
  | .listRepositories, w, answer, w' =>
    w' = w ∧ ∀ repositories, answer = .ok repositories →
      object.key.repositoryId ∈ repositories.map (·.repositoryId)
  | .prune prune, w, answer, w' =>
    (∃ error, answer = .error error ∧ w' = w) ∨
      ∃ pruned store', prune.run w.store = .ok (pruned, store') ∧ answer = .ok {} ∧
        w' = { w with store := store' }
  | .reconcileRepository _, w, _, w' => w' = w
  | .pendingRetirements, w, answer, w' =>
    w' = w ∧ ∀ pending, answer = .ok pending → pending = w.store.pendingRetirements
  | .closePullRequest key request, w, _, w' =>
    w' = if key = object.key then { w with closes := w.closes ++ [request] } else w
  | .acknowledgeRetirements through, w, answer, w' =>
    (∃ error, answer = .error error ∧ w' = w) ∨
      ∃ store', w.store.acknowledgeRetirements through = .ok store' ∧ answer = .ok () ∧
        w' = { w with store := store' }

/-- The fence of a close is one read before the rest began. -/
def Fenced (since : ℕ) (fence : Option ℕ) : Prop := ∃ f, fence = some f ∧ f ≤ since

/-- **One object among any number of sweeps, GitHub at rest.** The object may
have any state it comes to in any run before; nothing is running; what is
still to be told an open pull request's object carries a fence from before,
so no close a webhook sent before it was reopened is still on its way; and the
row of one that is not open is from before. -/
def restSystem (g : AtRest object) :
    System reopenEffects HandlerError ReopenAnswer RestWorld where
  init w := (∃ slots, (debounceSystem object).Reach ⟨w.beat, slots⟩ ∧ slots () = none) ∧
    g.since ≤ w.beat.clock ∧
    (g.Open → ∀ request ∈ w.closes, Fenced g.since request.syncedBefore) ∧
    (g.Open → ∀ retirement ∈ w.store.pendingRetirements, retirement.key = object.key →
      Fenced g.since retirement.syncedBefore) ∧
    (¬ g.Open → ∀ row, w.store.row? object.key = some row → row.syncedAt < g.since) ∧
    w.ended = false ∧ w.swept = false
  start
    | none, handler, w, w' => w.beat.serving = none ∧
      ((∃ invocation : Invocation, invocation.Addresses object.key ∧
          (∀ request, invocation = .closed request → request ∈ w.closes) ∧
          handler = invocation.handler object ∧ w' = w.serve .event invocation.isSync) ∨
        ∃ sync ∈ w.beat.trailing, sync.due ≤ w.beat.clock ∧
          handler = (Invocation.sync sync.request).handler object ∧
          w' = w.serve (.trailing sync) true)
    | some slot, handler, w, w' =>
      (∃ addressed, handler = runRepoReconcile addressed ∧
          w' = w.sweepBegins slot (some addressed.repositoryId)) ∨
        ∃ installationId, handler = runInstallationSync installationId ∧
          w' = w.sweepBegins slot none
  sem
    | none, call, w, answer, w' => restSem g call w answer w'
    | some _, call, w, answer, w' => restSweep g call w answer w'
  lose
    | none, _, _, _ => False
    | some _, call, w, w' => ∃ answer, restSweep g call w answer w'
  finish
    | none, result, w, w' => w' = w.release result
    | some slot, result, w, w' => w' = w.sweepOver object.key slot result
  env w w' := (∃ n, w' = { w with beat := w.beat.wait n }) ∨
    ∃ store', store'.row? object.key = w.store.row? object.key ∧
      store'.retirements = w.store.retirements ∧ w' = { w with store := store' }

/-! ## The object's run is the debounce's -/

/-- The object's side of a state. -/
def restView (s : System.State reopenEffects HandlerError ReopenAnswer RestWorld) :
    System.State (fun _ : Unit => PullRequestEffects) HandlerError (fun _ => HandlerAnswer)
      DebounceWorld :=
  ⟨s.world.beat, fun _ => s.slots none⟩

/-- The object's slot changing is the view's changing. -/
theorem restView_update (beat : DebounceWorld) (w : RestWorld)
    (slots : (i : Option ℕ) → Option (Prog (reopenEffects i) HandlerError (ReopenAnswer i)))
    (x : Option (PullRequestM HandlerAnswer)) (hbeat : w.beat = beat) :
    restView ⟨w, Function.update slots none x⟩
      = ⟨beat, Function.update (restView ⟨w, slots⟩).slots () x⟩ := by
  subst hbeat
  refine congrArg (System.State.mk w.beat) (funext fun _ => ?_)
  simp

/-- A sweep's slot changing is nothing to the view. -/
theorem restView_update_some (w w' : RestWorld) (hbeat : w'.beat = w.beat)
    (slots : (i : Option ℕ) → Option (Prog (reopenEffects i) HandlerError (ReopenAnswer i)))
    (slot : ℕ) (x : Option (SweepM ℕ)) :
    restView ⟨w', Function.update slots (some slot) x⟩ = restView ⟨w, slots⟩ := by
  simp [restView, hbeat]

/-- What a call does to the projection leaves the object. -/
theorem restAnswers_beat {g : AtRest object} {call : PullRequestCall} {w w' : RestWorld}
    {answer : call.Answer} (h : restAnswers g call w answer w') : w'.beat = w.beat := by
  cases call with
  | fetchSnapshot request known => rw [h.1]
  | merge request method => rw [h.1]
  | upsertProjection snapshot =>
    rcases h with ⟨_, -, rfl⟩ | ⟨_, -, -, rfl⟩ <;> rfl
  | deleteProjection step key =>
    rcases h with ⟨_, -, rfl⟩ | ⟨-, rfl⟩ <;> rfl
  | now _ | state | setState _ | clearState | scheduleSync _ _ _ | postCommand _
  | updateBranch _ | repositoryMergeMethod _ => rw [show w' = w from h]

/-- Nor does a sweep touch the object. -/
theorem restSweep_beat {g : AtRest object} {call : SweepCall} {w w' : RestWorld}
    {answer : call.Answer} (h : restSweep g call w answer w') : w'.beat = w.beat := by
  cases call with
  | prune prune => rcases h with ⟨_, -, rfl⟩ | ⟨_, _, -, -, rfl⟩ <;> rfl
  | acknowledgeRetirements through => rcases h with ⟨_, -, rfl⟩ | ⟨_, -, -, rfl⟩ <;> rfl
  | closePullRequest key request =>
    rw [show w' = _ from h]
    split <;> rfl
  | reconcileRepository repository => rw [show w' = w from h]
  | now _ | listPullRequests _ | syncPullRequest _ _ | listRepositories | pendingRetirements =>
    rw [h.1]

/-- **A step of this system is a step of the debounce's, or none of its
business.** -/
theorem step_restView {g : AtRest object}
    (s t : System.State reopenEffects HandlerError ReopenAnswer RestWorld)
    (h : (restSystem g).Step s t) :
    restView t = restView s ∨ (debounceSystem object).Step (restView s) (restView t) := by
  obtain ⟨w, slots⟩ := s
  cases h with
  | @start i handler w' hidle hstart =>
    cases i with
    | none =>
      refine .inr ?_
      obtain ⟨hserving, ⟨invocation, hkey, -, rfl, rfl⟩ | ⟨sync, hsync, hdue, rfl, rfl⟩⟩ := hstart
      · rw [restView_update _ (w.serve .event invocation.isSync) slots _ rfl]
        exact .start hidle ⟨hserving, .inl ⟨invocation, hkey, rfl, rfl⟩⟩
      · rw [restView_update _ (w.serve (.trailing sync) true) slots _ rfl]
        exact .start hidle ⟨hserving, .inr ⟨sync, hsync, hdue, rfl, rfl⟩⟩
    | some slot =>
      rcases hstart with ⟨addressed, rfl, rfl⟩ | ⟨installationId, rfl, rfl⟩
      · exact .inl (restView_update_some w _ rfl slots slot _)
      · exact .inl (restView_update_some w _ rfl slots slot _)
  | @answer i call k answer w' hslot hsem =>
    cases i with
    | none =>
      obtain ⟨beat', hbeat, hanswers⟩ := hsem
      refine .inr ?_
      rw [restView_update beat' w' slots _ (restAnswers_beat hanswers)]
      exact .answer hslot hbeat
    | some slot => exact .inl (restView_update_some w w' (restSweep_beat hsem) slots slot _)
  | @lose i call k w' hslot hlose =>
    cases i with
    | none => exact hlose.elim
    | some slot =>
      obtain ⟨answer, hsem⟩ := hlose
      exact .inl (by simp [restView, restSweep_beat hsem])
  | @done i a w' hslot hfinish =>
    cases i with
    | none =>
      obtain rfl := hfinish
      refine .inr ?_
      rw [restView_update _ (w.release (.ok a)) slots none rfl]
      exact .done hslot rfl
    | some slot =>
      obtain rfl := hfinish
      exact .inl (restView_update_some w _ rfl slots slot _)
  | @fail i error w' hslot hfinish =>
    cases i with
    | none =>
      obtain rfl := hfinish
      refine .inr ?_
      rw [restView_update _ (w.release (.error error)) slots none rfl]
      exact .fail hslot rfl
    | some slot =>
      obtain rfl := hfinish
      exact .inl (restView_update_some w _ rfl slots slot _)
  | @env w' henv =>
    rcases henv with ⟨n, rfl⟩ | ⟨store', -, -, rfl⟩
    · exact .inr (.env ⟨n, rfl⟩)
    · exact .inl rfl

/-- **What is known of the object**: what the debounce promises, and that its
trailing syncs are its own. -/
structure DebounceKnown (object : PullRequestObject) (w : DebounceWorld) : Prop where
  inv : DebounceInv object.debounce w
  own : ∀ sync ∈ w.trailing, requestKey sync.request = object.key

/-- A trailing sync asked for is the object's. -/
def AsksOwn (object : PullRequestObject) (call : PullRequestCall) : Prop :=
  ∀ key request after, call = .scheduleSync key request (some after) →
    requestKey request = object.key

/-- **No handler asks for a trailing sync of another object.** -/
theorem asksOwn_handler {invocation : Invocation} (h : invocation.Addresses object.key) :
    (invocation.handler object).Asks (AsksOwn object) := by
  refine (asks_handler invocation).mono fun call hasked => ?_
  rintro key request after rfl
  cases invocation with
  | sync own =>
    obtain ⟨-, rfl, -⟩ := hasked
    exact h
  | updateBranch own =>
    obtain ⟨-, -, hafter⟩ := hasked
    cases hafter
  | closed _ | merge _ | command _ => exact hasked.elim

/-- A trailing sync is the object's own. -/
theorem debounce_own
    {s : System.State (fun _ : Unit => PullRequestEffects) HandlerError (fun _ => HandlerAnswer)
      DebounceWorld} (hs : (debounceSystem object).Reach s) :
    ∀ sync ∈ s.world.trailing, requestKey sync.request = object.key := by
  refine (hs.of_asks (fun _ => AsksOwn object)
    (fun w => ∀ sync ∈ w.trailing, requestKey sync.request = object.key) ?_ ?_ ?_ ?_ ?_ ?_).1
  · rintro w ⟨-, -, htrailing, -⟩ sync hsync
    rw [htrailing] at hsync
    cases hsync
  · rintro w _ hw ⟨n, rfl⟩
    exact hw
  · rintro _ handler w _ hw ⟨-, ⟨invocation, hkey, rfl, rfl⟩ | ⟨sync, hsync, -, rfl, rfl⟩⟩
    · exact ⟨hw, asksOwn_handler hkey⟩
    · exact ⟨hw, asksOwn_handler (hw sync hsync)⟩
  · intro _ call w answer w' hown hw hsem
    cases call with
    | scheduleSync key request after =>
      obtain rfl := hsem
      cases after with
      | none => exact hw
      | some after =>
        intro sync hsync
        rcases List.mem_append.1 hsync with hold | hnew
        · exact hw sync hold
        · obtain rfl := List.mem_singleton.1 hnew
          exact hown key request after rfl
    | fetchSnapshot request known => obtain ⟨⟨n, rfl⟩, -⟩ := hsem; exact hw
    | now step | state => obtain ⟨rfl, -⟩ := hsem; exact hw
    | setState _ | clearState | merge _ _ | postCommand _ | updateBranch _ | upsertProjection _
    | deleteProjection _ _ | repositoryMergeMethod _ => obtain rfl := hsem; exact hw
  · exact fun _ _ _ _ _ _ h => h.elim
  · rintro _ result w _ hw rfl sync hsync
    refine hw sync ?_
    change sync ∈ w.remaining at hsync
    unfold DebounceWorld.remaining at hsync
    split at hsync
    · exact List.mem_of_mem_erase hsync
    · exact hsync

/-- **What is known of the object holds here.** -/
theorem rest_debounced {g : AtRest object}
    {s : System.State reopenEffects HandlerError ReopenAnswer RestWorld}
    (hs : (restSystem g).Reach s) :
    (debounceSystem object).Reach (restView s) ∧ DebounceKnown object s.world.beat := by
  have hview : (debounceSystem object).Reach (restView s) := by
    refine hs.view restView (fun w hw => ?_) step_restView
    obtain ⟨⟨slots, hreach, hidle⟩, -⟩ := hw
    have hslots : slots = fun _ => none := funext fun _ => hidle
    rwa [hslots] at hreach
  exact ⟨hview, ((debounceOutline_valid object).reach hview).inv, debounce_own hview⟩

end Dependaboard
