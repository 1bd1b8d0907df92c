import Dependaboard.Retirement.Fence
/-!
# The pull request — the row first, then the state

One object under any sequence of its five handlers, whatever GitHub answers
and wherever an effect fails. The row is never ahead of the object: whenever
there is one it is the object's snapshot. And a handler that fails, or that
its guard turns away, leaves what the object holds as it was.

`ObjectWorld.reached` is the account of the calls that reached GitHub or the
store.
-/

namespace Dependaboard

open Durable

/-- One object, and the store its row is in. -/
structure ObjectWorld where
  /-- The object's durable state. -/
  object : Option PrState
  store : Store
  /-- The calls that reached GitHub or the store, in order. -/
  reached : List PullRequestCall

namespace ObjectWorld

/-- What the object stands for. -/
def held (w : ObjectWorld) : PrState := w.object.getD default

/-- A call reaches GitHub or the store. -/
def reach (w : ObjectWorld) (call : PullRequestCall) : ObjectWorld :=
  { w with reached := w.reached ++ [call] }

/-- **Whenever there is a row, it is the object's snapshot.** -/
def RowIsSnapshot (key : PrKey) (w : ObjectWorld) : Prop :=
  ∀ row, w.store.row? key = some row → w.held.snapshot = some row

end ObjectWorld

/-- How the calls of a handler are answered. Any may fail; a store step that
reports a failure has not landed; GitHub answers a mutation as it likes. -/
def handlerSem : (call : PullRequestCall) → ObjectWorld → call.Answer → ObjectWorld → Prop
  | .now _, w, _, w' => w' = w
  | .state, w, answer, w' =>
    w' = w ∧ ((∃ error, answer = .error error) ∨ answer = .ok w.object)
  | .setState state, w, _, w' => w' = { w with object := some state }
  | .clearState, w, _, w' => w' = { w with object := none }
  | .scheduleSync _ _ _, w, _, w' => w' = w
  | call@(.fetchSnapshot request _), w, answer, w' =>
    w' = w.reach call ∧
      ∀ snapshot, answer = .ok (.ok (some snapshot)) → SnapshotOf request snapshot
  | call@(.merge _ _), w, _, w' => w' = w.reach call
  | call@(.postCommand _), w, _, w' => w' = w.reach call
  | call@(.updateBranch _), w, _, w' => w' = w.reach call
  | call@(.repositoryMergeMethod _), w, _, w' => w' = w.reach call
  | call@(.upsertProjection snapshot), w, answer, w' =>
    (∃ error, answer = .error error ∧ w' = w.reach call) ∨
      ∃ store', w.store.upsertPr snapshot = .ok store' ∧ answer = .ok () ∧
        w' = { w.reach call with store := store' }
  | call@(.deleteProjection _ key), w, answer, w' =>
    (∃ error, answer = .error error ∧ w' = w.reach call) ∨
      answer = .ok () ∧ w' = { w.reach call with store := w.store.deletePr key }

/-- A handler run from one world to another. -/
abbrev HandlerRuns {α : Type} (p : PullRequestM α) (w : ObjectWorld) (r : Except HandlerError α)
    (w' : ObjectWorld) : Prop := Prog.Runs handlerSem p w r w'

/-- A run goes on from a call answered. -/
theorem HandlerRuns.answer {α : Type} (call : PullRequestCall) (a : call.Answer)
    {k : call.Answer → PullRequestM α} {w w' w'' : ObjectWorld} {r : Except HandlerError α}
    (hsem : handlerSem call w a w') (hrest : HandlerRuns (k a) w' r w'') :
    HandlerRuns (Prog.ask (S := PullRequestEffects) call k) w r w'' := .ask hsem hrest

/-- **Any sequence of handlers of one object**, from a projection that holds
no row of it. Between them the rest of the projection may change. -/
inductive ObjectReach (object : PullRequestObject) : ObjectWorld → Prop
  | init {w : ObjectWorld} : w.object = none → w.store.row? object.key = none →
      ObjectReach object w
  | run {w w' : ObjectWorld} {invocation : Invocation} {r : Except HandlerError HandlerAnswer} :
      ObjectReach object w → invocation.Addresses object.key →
      HandlerRuns (invocation.handler object) w r w' → ObjectReach object w'
  | others {w : ObjectWorld} {store' : Store} : ObjectReach object w →
      store'.row? object.key = w.store.row? object.key →
      ObjectReach object { w with store := store' }

/-! ## What each call does -/

section Calls

variable {α : Type} {post : Except HandlerError α → ObjectWorld → Prop} {w : ObjectWorld}

theorem wp_now {step : String} {f : ℕ → PullRequestM α} :
    ((PullRequestM.now step).bind f).wp handlerSem post w ↔
      (∀ error, post (.error error) w) ∧ ∀ now, (f now).wp handlerSem post w := by
  constructor
  · exact fun h => ⟨fun error => h (.error error) w rfl, fun now => h (.ok now) w rfl⟩
  · rintro ⟨hfail, hk⟩ (error | now) _ rfl
    · exact hfail error
    · exact hk now

theorem wp_state {f : Option PrState → PullRequestM α} :
    (PullRequestM.state.bind f).wp handlerSem post w ↔
      (∀ error, post (.error error) w) ∧ (f w.object).wp handlerSem post w := by
  constructor
  · exact fun h => ⟨fun error => h (.error error) w ⟨rfl, .inl ⟨error, rfl⟩⟩,
      h (.ok w.object) w ⟨rfl, .inr rfl⟩⟩
  · rintro ⟨hfail, hk⟩ _ _ ⟨rfl, ⟨error, rfl⟩ | rfl⟩
    · exact hfail error
    · exact hk

theorem wp_setState {state : PrState} {f : Unit → PullRequestM α} :
    ((PullRequestM.setState state).bind f).wp handlerSem post w ↔
      (f ()).wp handlerSem post { w with object := some state } :=
  ⟨fun h => h () _ rfl, fun h _ _ hset => hset ▸ h⟩

theorem wp_clearState {f : Unit → PullRequestM α} :
    (PullRequestM.clearState.bind f).wp handlerSem post w ↔
      (f ()).wp handlerSem post { w with object := none } :=
  ⟨fun h => h () _ rfl, fun h _ _ hset => hset ▸ h⟩

theorem wp_scheduleSync {key : PrKey} {request : SyncRequest} {after : Option ℕ}
    {f : Unit → PullRequestM α} :
    ((PullRequestM.scheduleSync key request after).bind f).wp handlerSem post w ↔
      (f ()).wp handlerSem post w :=
  ⟨fun h => h () _ rfl, fun h _ _ hset => hset ▸ h⟩

theorem wp_fetchSnapshot {request : SyncRequest} {known : Bool}
    {f : Settled (Option PrRecord) → PullRequestM α} :
    ((PullRequestM.fetchSnapshot request known).bind f).wp handlerSem post w ↔
      (∀ error, post (.error error) (w.reach (.fetchSnapshot request known))) ∧
        ∀ fetched, (∀ snapshot, fetched = .ok (some snapshot) → SnapshotOf request snapshot) →
          (f fetched).wp handlerSem post (w.reach (.fetchSnapshot request known)) := by
  constructor
  · refine fun h => ⟨fun error => h (.error error) _ ⟨rfl, fun _ heq => ?_⟩, fun fetched hof => ?_⟩
    · cases heq
    · exact h (.ok fetched) _ ⟨rfl, fun snapshot heq => hof snapshot (Except.ok.inj heq)⟩
  · rintro ⟨hfail, hk⟩ (error | fetched) _ ⟨rfl, hof⟩
    · exact hfail error
    · exact hk fetched fun snapshot heq => hof snapshot (congrArg Except.ok heq)

/-- A call that may fail and does nothing to the object or its row. -/
theorem wp_reached {β : Type} (call : PullRequestCall) (answered : call.Answer → Except HandlerError β)
    (hany : Function.Surjective answered)
    (hsem : ∀ w answer w', handlerSem call w answer w' ↔ w' = w.reach call)
    {f : β → PullRequestM α} :
    ((Prog.ask (S := PullRequestEffects) call fun answer => Prog.ofExcept (answered answer)).bind
        f).wp handlerSem post w ↔
      (∀ error, post (.error error) (w.reach call)) ∧
        ∀ result, (f result).wp handlerSem post (w.reach call) := by
  constructor
  · intro h
    refine ⟨fun error => ?_, fun result => ?_⟩
    · obtain ⟨answer, hanswer⟩ := hany (.error error)
      simpa [hanswer] using h answer _ ((hsem _ _ _).2 rfl)
    · obtain ⟨answer, hanswer⟩ := hany (.ok result)
      simpa [hanswer] using h answer _ ((hsem _ _ _).2 rfl)
  · rintro ⟨hfail, hk⟩ answer w' hcall
    obtain rfl := (hsem _ _ _).1 hcall
    cases hanswer : answered answer with
    | error error => simpa [hanswer] using hfail error
    | ok result => simpa [hanswer] using hk result

theorem wp_merge {request : MergeRequest} {mergeMethod : Option MergeMethod}
    {f : Settled Merged → PullRequestM α} :
    ((PullRequestM.merge request mergeMethod).bind f).wp handlerSem post w ↔
      (∀ error, post (.error error) (w.reach (.merge request mergeMethod))) ∧
        ∀ result, (f result).wp handlerSem post (w.reach (.merge request mergeMethod)) :=
  wp_reached (.merge request mergeMethod) id Function.surjective_id fun _ _ _ => Iff.rfl

theorem wp_postCommand {request : CommandRequest} {f : Settled String → PullRequestM α} :
    ((PullRequestM.postCommand request).bind f).wp handlerSem post w ↔
      (∀ error, post (.error error) (w.reach (.postCommand request))) ∧
        ∀ result, (f result).wp handlerSem post (w.reach (.postCommand request)) :=
  wp_reached (.postCommand request) id Function.surjective_id fun _ _ _ => Iff.rfl

theorem wp_updateBranch {request : UpdateBranchRequest} {f : Settled String → PullRequestM α} :
    ((PullRequestM.updateBranch request).bind f).wp handlerSem post w ↔
      (∀ error, post (.error error) (w.reach (.updateBranch request))) ∧
        ∀ result, (f result).wp handlerSem post (w.reach (.updateBranch request)) :=
  wp_reached (.updateBranch request) id Function.surjective_id fun _ _ _ => Iff.rfl

theorem wp_repositoryMergeMethod {repositoryId : ℕ} {f : Option MergeMethod → PullRequestM α} :
    ((PullRequestM.repositoryMergeMethod repositoryId).bind f).wp handlerSem post w ↔
      (∀ error, post (.error error) (w.reach (.repositoryMergeMethod repositoryId))) ∧
        ∀ method, (f method).wp handlerSem post (w.reach (.repositoryMergeMethod repositoryId)) :=
  wp_reached (.repositoryMergeMethod repositoryId) id Function.surjective_id fun _ _ _ => Iff.rfl

theorem wp_upsertProjection {snapshot : PrRecord} {f : Unit → PullRequestM α} :
    ((PullRequestM.upsertProjection snapshot).bind f).wp handlerSem post w ↔
      (∀ error, post (.error error) (w.reach (.upsertProjection snapshot))) ∧
        ∀ store', w.store.upsertPr snapshot = .ok store' → (f ()).wp handlerSem post
          { w.reach (.upsertProjection snapshot) with store := store' } := by
  constructor
  · exact fun h => ⟨fun error => h (.error error) _ (.inl ⟨error, rfl, rfl⟩),
      fun store' hupsert => h (.ok ()) _ (.inr ⟨store', hupsert, rfl, rfl⟩)⟩
  · rintro ⟨hfail, hk⟩ _ _ (⟨error, rfl, rfl⟩ | ⟨store', hupsert, rfl, rfl⟩)
    · exact hfail error
    · exact hk store' hupsert

theorem wp_deleteProjection {step : String} {key : PrKey} {f : Unit → PullRequestM α} :
    ((PullRequestM.deleteProjection step key).bind f).wp handlerSem post w ↔
      (∀ error, post (.error error) (w.reach (.deleteProjection step key))) ∧
        (f ()).wp handlerSem post
          { w.reach (.deleteProjection step key) with store := w.store.deletePr key } := by
  constructor
  · exact fun h => ⟨fun error => h (.error error) _ (.inl ⟨error, rfl, rfl⟩),
      h (.ok ()) _ (.inr ⟨rfl, rfl⟩)⟩
  · rintro ⟨hfail, hk⟩ _ _ (⟨error, rfl, rfl⟩ | ⟨rfl, rfl⟩)
    · exact hfail error
    · exact hk

end Calls

/-! ## What each handler leaves -/

namespace ObjectWorld

variable {key : PrKey} {w w' : ObjectWorld}

/-- A state with the snapshot it had, beside a row that is what it was. -/
theorem RowIsSnapshot.of_same (h : w.RowIsSnapshot key)
    (hrow : w'.store.row? key = w.store.row? key) (hsnapshot : w'.held.snapshot = w.held.snapshot) :
    w'.RowIsSnapshot key :=
  fun row hfound => hsnapshot.trans (h row (hrow.symm.trans hfound))

/-- No row is no row ahead. -/
theorem RowIsSnapshot.of_none (hrow : w'.store.row? key = none) : w'.RowIsSnapshot key :=
  fun _ hfound => absurd (hrow.symm.trans hfound) (Option.some_ne_none _).symm

end ObjectWorld

open ObjectWorld

/-- What a sync leaves of `w`, wherever it ends. -/
structure SyncLeaves {α : Type} (key : PrKey) (w : ObjectWorld) (r : Except HandlerError α)
    (w' : ObjectWorld) : Prop where
  row : w'.RowIsSnapshot key
  failed : ∀ error, r = .error error → w'.held = w.held ∨
    w'.held = { w.held with syncPending := false }

/-- The action was settled and logged: row and snapshot are what they were,
and the trail has one entry more. -/
structure Logged (key : PrKey) (w : ObjectWorld) (outcome : ActionOutcome) (w' : ObjectWorld) :
    Prop where
  row : w'.store.row? key = w.store.row? key
  snapshot : w'.held.snapshot = w.held.snapshot
  history : ∃ entry : ActionLog, entry.detail = outcomeDetail outcome ∧
    w'.held.history = keepLast (retainedHistory - 1) w.held.history ++ [entry]

/-- The merge is done: neither row nor snapshot is left, and the trail has
one entry more. -/
structure MergeDone (key : PrKey) (w : ObjectWorld) (w' : ObjectWorld) : Prop where
  row : w'.store.row? key = none
  snapshot : w'.held.snapshot = none
  history : ∃ entry : ActionLog,
    w'.held.history = keepLast (retainedHistory - 1) w.held.history ++ [entry]

/-- What an action guarded by `guard` leaves of `w`, wherever it ends. -/
structure ActionLeaves (key : PrKey) (guard : Except RejectReason Unit) (w : ObjectWorld)
    (r : Except HandlerError ActionOutcome) (w' : ObjectWorld) : Prop where
  row : w'.RowIsSnapshot key
  failed : ∀ error, r = .error error → w'.held = w.held
  guarded : ∀ reason, guard = .error reason → w' = w
  rejected : ∀ reason, guard = .ok () → r = .ok (.rejected reason) →
    Logged key w (.rejected reason) w'

section Handlers

variable {key : PrKey} {w : ObjectWorld}

/-- **A sync writes the row before the state**, and one that fails has at
most cleared the mark of a trailing sync. -/
theorem wp_runSync {request : SyncRequest} (hkey : requestKey request = key)
    (hw : w.RowIsSnapshot key) (debounce : ℕ) :
    (runSync request debounce).wp handlerSem (SyncLeaves key w) w := by
  subst hkey
  have hsame : ∀ error, SyncLeaves (α := SyncOutcome) (requestKey request) w (.error error) w :=
    fun error => ⟨hw, fun _ _ => .inl rfl⟩
  unfold runSync
  simp only [Prog.bind_eq, wp_now, wp_state]
  refine ⟨hsame, fun now => ⟨hsame, ?_⟩⟩
  split
  · -- coalesced: the snapshot is the one it was
    split
    · exact wp_setState.2 (wp_scheduleSync.2 ⟨hw.of_same rfl rfl, nofun⟩)
    · exact ⟨hw, nofun⟩
  · refine wp_setState.2 (wp_fetchSnapshot.2 ⟨fun error => ?_, fun fetched hof => ?_⟩)
    · exact ⟨hw.of_same rfl rfl, fun _ _ => .inr rfl⟩
    · cases heligible : eligibleSnapshot fetched with
      | error error => exact ⟨hw.of_same rfl rfl, fun _ _ => .inr rfl⟩
      | ok snapshot =>
        cases snapshot with
        | none =>
          refine wp_deleteProjection.2 ⟨fun error => ?_, wp_clearState.2 ⟨.of_none ?_, nofun⟩⟩
          · exact ⟨hw.of_same rfl rfl, fun _ _ => .inr rfl⟩
          · exact (Store.row?_deletePr _ _ _).trans (if_pos rfl)
        | some snapshot =>
          obtain ⟨hkey, hid⟩ := hof snapshot (eligibleSnapshot_some heligible)
          refine wp_upsertProjection.2 ⟨fun error => ?_, fun store' hupsert => ?_⟩
          · exact ⟨hw.of_same rfl rfl, fun _ _ => .inr rfl⟩
          · refine wp_setState.2 ⟨fun row hrow => ?_, nofun⟩
            have hwritten : store'.row? (requestKey request) = some snapshot :=
              hkey ▸ Store.row?_upsertPr hupsert hid
            obtain rfl : snapshot = row := Option.some.inj (hwritten.symm.trans hrow)
            exact PrState.synced_snapshot _ _ _

/-- **A close that fails leaves the object as it was.** -/
theorem wp_runClosed {text : String} (hparse : PrKey.parse text = .ok key)
    (hw : w.RowIsSnapshot key) (request : ClosedRequest) :
    (runClosed text request).wp handlerSem
      (fun r w' => w'.RowIsSnapshot key ∧ ∀ error, r = .error error → w'.held = w.held) w := by
  unfold runClosed
  rw [hparse]
  refine wp_state.2 ⟨fun error => ⟨hw, fun _ _ => rfl⟩, ?_⟩
  split
  · exact ⟨hw, fun _ _ => rfl⟩
  · refine wp_deleteProjection.2 ⟨fun error => ⟨hw.of_same rfl rfl, fun _ _ => rfl⟩, ?_⟩
    have hnone : (w.store.deletePr key).row? key = none :=
      (Store.row?_deletePr _ _ _).trans (if_pos rfl)
    exact wp_clearState.2 ⟨.of_none hnone, fun error h => by cases h⟩

/-- The state could not be read. -/
theorem ActionLeaves.unread {guard : Except RejectReason Unit} (hw : w.RowIsSnapshot key)
    (error : HandlerError) : ActionLeaves key guard w (.error error) w where
  row := hw
  failed _ _ := rfl
  guarded _ _ := rfl
  rejected reason _ h := by cases h

/-- The guard turned the target away. -/
theorem ActionLeaves.of_guard {guard : Except RejectReason Unit} {reason : RejectReason}
    (hguard : guard = .error reason) (hw : w.RowIsSnapshot key) :
    ActionLeaves key guard w (.ok (.rejected reason)) w where
  row := hw
  failed _ _ := rfl
  guarded _ _ := rfl
  rejected reason hok := by
    rw [hok] at hguard
    cases hguard

/-- An action that failed past its guard. -/
theorem ActionLeaves.of_error {guard : Except RejectReason Unit} {w' : ObjectWorld}
    (hguard : guard = .ok ()) (hrow : w'.RowIsSnapshot key) (hheld : w'.held = w.held)
    (error : HandlerError) : ActionLeaves key guard w (.error error) w' where
  row := hrow
  failed _ _ := hheld
  guarded reason herror := by
    rw [hguard] at herror
    cases herror
  rejected reason _ h := by cases h

/-- An action GitHub carried out. -/
theorem ActionLeaves.of_succeeded {guard : Except RejectReason Unit} {w' : ObjectWorld}
    (hguard : guard = .ok ()) (hrow : w'.RowIsSnapshot key) {detail : String}
    {sha : Option String} : ActionLeaves key guard w (.ok (.succeeded detail sha)) w' where
  row := hrow
  failed _ h := by cases h
  guarded reason herror := by
    rw [hguard] at herror
    cases herror
  rejected reason _ h := by cases h

/-- A line pushed on the trail is an action logged. -/
theorem Logged.of_push {w' : ObjectWorld} {logAt : ℕ} {action : String} {outcome : ActionOutcome}
    (hrow : w'.store.row? key = w.store.row? key)
    (hobject : w'.object = some (w.held.pushHistory ⟨logAt, action, outcomeDetail outcome⟩)) :
    Logged key w outcome w' := by
  have hheld : w'.held = w.held.pushHistory ⟨logAt, action, outcomeDetail outcome⟩ := by
    rw [ObjectWorld.held, hobject]
    rfl
  refine ⟨hrow, by rw [hheld]; rfl, ⟨logAt, action, outcomeDetail outcome⟩, rfl, ?_⟩
  rw [hheld]
  exact PrState.pushHistory_history _ _

/-- An action that was logged. -/
theorem Logged.leaves {guard : Except RejectReason Unit} {w' : ObjectWorld}
    {outcome : ActionOutcome} (h : Logged key w outcome w') (hguard : guard = .ok ())
    (hw : w.RowIsSnapshot key) : ActionLeaves key guard w (.ok outcome) w' where
  row := hw.of_same h.row h.snapshot
  failed error herror := by cases herror
  guarded reason herror := by
    rw [hguard] at herror
    cases herror
  rejected reason _ hrejected := by
    cases hrejected
    exact h

/-- The line a handler logs of an action that settled, and its answer. -/
theorem wp_log {α : Type} {post : Except HandlerError α → ObjectWorld → Prop} {step action : String}
    {outcome : ActionOutcome} {state : PrState} {w' : ObjectWorld} {rest : PullRequestM α}
    (hfail : ∀ error, post (.error error) w')
    (hk : ∀ logAt, rest.wp handlerSem post
      { w' with object := some (state.pushHistory ⟨logAt, action, outcomeDetail outcome⟩) }) :
    ((PullRequestM.now step).bind fun logAt =>
      (PullRequestM.setState (state.pushHistory ⟨logAt, action, outcomeDetail outcome⟩)).bind
        fun _ => rest).wp handlerSem post w' :=
  wp_now.2 ⟨hfail, fun logAt => wp_setState.2 (hk logAt)⟩

/-- **A command is guarded, posted and logged.** -/
theorem wp_runCommand (canPostCommands : Bool) (hw : w.RowIsSnapshot key)
    (request : CommandRequest) :
    (runCommand canPostCommands request).wp handlerSem
      (ActionLeaves key (guardCommand canPostCommands w.held.snapshot request.target) w) w := by
  unfold runCommand
  simp only [Prog.bind_eq, wp_state]
  refine ⟨.unread hw, ?_⟩
  cases hguard : guardCommand canPostCommands (w.object.getD default).snapshot request.target with
  | error reason => exact .of_guard hguard hw
  | ok _ =>
    have hfail : ∀ error, ActionLeaves key
        (guardCommand canPostCommands w.held.snapshot request.target) w (.error error)
        (w.reach (.postCommand request)) := .of_error hguard (hw.of_same rfl rfl) rfl
    refine wp_postCommand.2 ⟨hfail, fun result => ?_⟩
    cases hresult : actionResult result with
    | error error => exact hfail error
    | ok outcome =>
      refine wp_log hfail fun logAt => ?_
      refine Logged.leaves ?_ hguard hw
      exact .of_push rfl rfl

/-- **A branch update is guarded, asked for and logged**; one that landed
asks for a sync as well. -/
theorem wp_runUpdateBranch (hw : w.RowIsSnapshot key) (request : UpdateBranchRequest) :
    (runUpdateBranch request).wp handlerSem
      (ActionLeaves key (guardTarget w.held.snapshot request.target) w) w := by
  unfold runUpdateBranch
  simp only [Prog.bind_eq, wp_state]
  refine ⟨.unread hw, ?_⟩
  cases hguard : guardTarget (w.object.getD default).snapshot request.target with
  | error reason => exact .of_guard hguard hw
  | ok _ =>
    have hfail : ∀ error, ActionLeaves key (guardTarget w.held.snapshot request.target) w
        (.error error) (w.reach (.updateBranch request)) := .of_error hguard (hw.of_same rfl rfl) rfl
    refine wp_updateBranch.2 ⟨hfail, fun result => ?_⟩
    cases hresult : actionResult result with
    | error error => exact hfail error
    | ok outcome =>
      refine wp_log hfail fun logAt => ?_
      split
      · refine wp_scheduleSync.2 (Logged.leaves ?_ hguard hw)
        exact .of_push rfl rfl
      · refine Logged.leaves ?_ hguard hw
        exact .of_push rfl rfl

/-- **A merge drops the row before the snapshot.** -/
theorem wp_runMerge {request : MergeRequest} (hkey : request.target.key = key)
    (hw : w.RowIsSnapshot key) :
    (runMerge request).wp handlerSem (fun r w' =>
      ActionLeaves key (guardTarget w.held.snapshot request.target) w r w' ∧
        ∀ detail sha, r = .ok (.succeeded detail sha) → MergeDone key w w') w := by
  unfold runMerge
  simp only [Prog.bind_eq, wp_state]
  refine ⟨fun error => ⟨.unread hw error, fun _ _ h => by cases h⟩, ?_⟩
  cases hguard : guardTarget (w.object.getD default).snapshot request.target with
  | error reason => exact ⟨.of_guard hguard hw, fun _ _ h => by cases h⟩
  | ok _ =>
    -- until the row is deleted a failure leaves the snapshot and its row
    have hfail : ∀ w', w'.RowIsSnapshot key → w'.held = w.held → ∀ error,
        ActionLeaves key (guardTarget w.held.snapshot request.target) w (.error error) w' ∧
          ∀ detail sha, Except.error error = .ok (ActionOutcome.succeeded detail sha) →
            MergeDone key w w' :=
      fun w' hrow hheld error => ⟨.of_error hguard hrow hheld error, fun _ _ h => by cases h⟩
    refine wp_repositoryMergeMethod.2 ⟨hfail _ (hw.of_same rfl rfl) rfl, fun mergeMethod => ?_⟩
    refine wp_merge.2 ⟨hfail _ (hw.of_same rfl rfl) rfl, fun result => ?_⟩
    cases hresult : mergeResult result with
    | error error => exact hfail (w.reach _ |>.reach _) (hw.of_same rfl rfl) rfl error
    | ok outcome =>
      cases outcome with
      | succeeded detail sha =>
        have hgone : ∀ w' : ObjectWorld, w'.store = w.store.deletePr request.target.key →
            w'.store.row? key = none := by
          intro w' hstore
          rw [hstore, hkey, Store.row?_deletePr, if_pos rfl]
        refine wp_deleteProjection.2 ⟨hfail _ (hw.of_same rfl rfl) rfl, ?_⟩
        refine wp_log (hfail _ (.of_none (hgone _ rfl)) rfl) fun logAt => ?_
        refine ⟨ActionLeaves.of_succeeded hguard (.of_none (hgone _ rfl)), fun _ _ _ => ?_⟩
        exact ⟨hgone _ rfl, rfl, _, PrState.pushHistory_history _ _⟩
      | rejected reason =>
        refine wp_log (hfail _ (hw.of_same rfl rfl) rfl) fun logAt => ⟨?_, fun _ _ h => by cases h⟩
        refine Logged.leaves ?_ hguard hw
        exact .of_push rfl rfl

end Handlers

/-! ## Every sequence of handlers -/

/-- The check an action's target is put to; a sync and a close have none. -/
def Invocation.guard (object : PullRequestObject) (snapshot : Option PrRecord) :
    Invocation → Except RejectReason Unit
  | sync _ => .ok ()
  | closed _ => .ok ()
  | merge request => guardTarget snapshot request.target
  | command request => guardCommand object.canPostCommands snapshot request.target
  | updateBranch request => guardTarget snapshot request.target

/-- **What any handler leaves of `w`**, wherever it ends: a row only where it
is the object's snapshot; what it held, if it failed, but for the mark a
sync clears; everything as it was, if its guard turned the target away;
neither row nor snapshot after a merge; and both, after an action GitHub
rejected. -/
structure Leaves (object : PullRequestObject) (w : ObjectWorld) (invocation : Invocation)
    (r : Except HandlerError HandlerAnswer) (w' : ObjectWorld) : Prop where
  row : w'.RowIsSnapshot object.key
  failed : ∀ error, r = .error error → w'.held = w.held ∨
    (∃ request, invocation = .sync request) ∧ w'.held = { w.held with syncPending := false }
  guarded : ∀ reason, invocation.guard object w.held.snapshot = .error reason → w' = w
  merged : ∀ request detail sha, invocation = .merge request →
    r = .ok (.action (.succeeded detail sha)) → MergeDone object.key w w'
  rejected : ∀ reason, invocation.guard object w.held.snapshot = .ok () →
    r = .ok (.action (.rejected reason)) → Logged object.key w (.rejected reason) w'

/-- An action's handler answers its outcome. -/
theorem wp_action {object : PullRequestObject} {w : ObjectWorld} {invocation : Invocation}
    {handler : PullRequestM ActionOutcome}
    (h : handler.wp handlerSem (fun r w' =>
      ActionLeaves object.key (invocation.guard object w.held.snapshot) w r w' ∧
        ∀ request detail sha, invocation = .merge request → r = .ok (.succeeded detail sha) →
          MergeDone object.key w w') w) :
    (handler.bind fun outcome => .done (.action outcome)).wp handlerSem
      (Leaves object w invocation) w := by
  refine Prog.wp_bind.2 (Prog.wp_mono h fun r w' ⟨hleaves, hmerged⟩ => ?_)
  cases r with
  | ok outcome =>
    refine ⟨hleaves.row, fun _ h => (by cases h), hleaves.guarded, fun request detail sha hrequest hok =>
      ?_, fun reason hguard hok => ?_⟩
    · cases hok
      exact hmerged request detail sha hrequest rfl
    · cases hok
      exact hleaves.rejected reason hguard rfl
  | error error =>
    exact ⟨hleaves.row, fun _ _ => .inl (hleaves.failed error rfl), hleaves.guarded,
      fun _ _ _ _ h => (by cases h), fun _ _ h => by cases h⟩

/-- **One handler**, whichever it is. -/
theorem wp_handler {object : PullRequestObject} {w : ObjectWorld}
    (hw : w.RowIsSnapshot object.key) {invocation : Invocation}
    (haddressed : invocation.Addresses object.key) :
    (invocation.handler object).wp handlerSem (Leaves object w invocation) w := by
  -- each handler leaves the row the snapshot, and says how it may have failed
  cases invocation with
  | sync request =>
    rw [Invocation.handler_sync]
    refine Prog.wp_bind.2 (Prog.wp_mono (wp_runSync haddressed hw _) fun r w' hleaves => ?_)
    cases r with
    | ok outcome =>
      exact ⟨hleaves.row, fun _ h => (by cases h), fun _ h => (by cases h),
        fun _ _ _ h => (by cases h), fun _ _ h => by cases h⟩
    | error error =>
      exact ⟨hleaves.row, fun _ _ => (hleaves.failed error rfl).imp_right fun h => ⟨⟨_, rfl⟩, h⟩,
        fun _ h => (by cases h), fun _ _ _ h => (by cases h), fun _ _ h => by cases h⟩
  | closed request =>
    have hparse := PrKey.parse_toString object.valid
    rw [Invocation.handler_closed]
    generalize toString object.key = text at hparse ⊢
    refine Prog.wp_bind.2 (Prog.wp_mono (wp_runClosed hparse hw request) ?_)
    rintro r w' ⟨hrow, hfailed⟩
    cases r with
    | ok outcome =>
      exact ⟨hrow, fun _ h => (by cases h), fun _ h => (by cases h), fun _ _ _ h => (by cases h),
        fun _ _ h => by cases h⟩
    | error error =>
      exact ⟨hrow, fun _ _ => .inl (hfailed error rfl), fun _ h => (by cases h),
        fun _ _ _ h => (by cases h), fun _ _ h => by cases h⟩
  | merge request =>
    rw [Invocation.handler_merge]
    refine wp_action (Prog.wp_mono (wp_runMerge haddressed hw) ?_)
    rintro r w' ⟨hleaves, hmerged⟩
    exact ⟨hleaves, fun _ detail sha _ hok => hmerged detail sha hok⟩
  | command request =>
    rw [Invocation.handler_command]
    refine wp_action (Prog.wp_mono (wp_runCommand _ hw request) fun r w' hleaves => ?_)
    exact ⟨hleaves, fun _ _ _ h => by cases h⟩
  | updateBranch request =>
    rw [Invocation.handler_updateBranch]
    refine wp_action (Prog.wp_mono (wp_runUpdateBranch hw request) fun r w' hleaves => ?_)
    exact ⟨hleaves, fun _ _ _ h => by cases h⟩

/-- Between handlers the row is the object's snapshot. -/
theorem ObjectReach.rowIsSnapshot {object : PullRequestObject} {w : ObjectWorld}
    (h : ObjectReach object w) : w.RowIsSnapshot object.key := by
  induction h with
  | init hobject hrow => exact .of_none hrow
  | run _ haddressed hruns ih => exact (hruns.of_wp (wp_handler ih haddressed)).row
  | others _ hrow ih => exact ih.of_same hrow rfl

/-- **The row is never ahead of the object, and a handler that fails leaves
the object as it was.** After any sequence of handlers a row is the object's
snapshot; and whatever handler runs next, it leaves what `Leaves` says. -/
theorem row_is_snapshot {object : PullRequestObject} {w : ObjectWorld}
    (h : ObjectReach object w) :
    (∀ row, w.store.row? object.key = some row →
        ∃ state, w.object = some state ∧ state.snapshot = some row) ∧
      ∀ invocation r w', invocation.Addresses object.key →
        HandlerRuns (invocation.handler object) w r w' → Leaves object w invocation r w' := by
  have hrow := h.rowIsSnapshot
  refine ⟨fun row hfound => ?_, fun invocation r w' haddressed hruns =>
    hruns.of_wp (wp_handler hrow haddressed)⟩
  have hheld := hrow row hfound
  unfold ObjectWorld.held at hheld
  cases hobject : w.object with
  | none =>
    rw [hobject] at hheld
    cases hheld
  | some state =>
    rw [hobject] at hheld
    exact ⟨state, rfl, hheld⟩

/-- The object of pull request `1#1`. -/
def sampleObject : PullRequestObject := ⟨⟨1, 1⟩, by decide, true, 15⟩

/-- A sync of it. -/
def sampleSync : SyncRequest := ⟨1, "acme", "api", 1, false, none⟩

/-- The world before, the repository in the table. -/
def sampleFresh : ObjectWorld := ⟨none, Store.empty.writeRepository sampleRepo, []⟩

/-- The world once it is synced at 30. -/
def sampleCurrent : ObjectWorld :=
  ⟨some ((default : PrState).synced sampleSync (sampleRow 30)), sampleStore 30,
    [.fetchSnapshot sampleSync false, .upsertProjection (sampleRow 30)]⟩

theorem sampleCurrent_reach : ObjectReach sampleObject sampleCurrent := by
  have hruns : HandlerRuns ((Invocation.sync sampleSync).handler sampleObject) sampleFresh
      (.ok (.sync (.synced "abcdef0123"))) sampleCurrent := by
    refine HandlerRuns.answer (.now "sync-clock") (.ok 30) rfl ?_
    refine HandlerRuns.answer .state (.ok none) ⟨rfl, .inr rfl⟩ ?_
    refine HandlerRuns.answer (.setState default) () rfl ?_
    refine HandlerRuns.answer (.fetchSnapshot sampleSync false) (.ok (.ok (some (sampleRow 30))))
      ⟨rfl, fun snapshot h => ?_⟩ ?_
    · cases h
      exact ⟨rfl, rfl⟩
    · refine HandlerRuns.answer (.upsertProjection (sampleRow 30)) (.ok ())
        (.inr ⟨sampleStore 30, rfl, rfl, rfl⟩) ?_
      exact HandlerRuns.answer (.setState ((default : PrState).synced sampleSync (sampleRow 30))) () rfl
        (.done _ _)
  exact ObjectReach.run (.init rfl rfl) (show (Invocation.sync sampleSync).Addresses ⟨1, 1⟩ from rfl) hruns

/-- A merge of it aimed at another head. -/
def sampleStale : MergeRequest := ⟨"batch", ⟨1, "acme", "api", 1, "moved", "", ""⟩⟩

/-- The pull request's row is its snapshot, and a merge aimed at another
head leaves it so. -/
theorem row_is_snapshot_sample :
    (∃ state, sampleCurrent.object = some state ∧ state.snapshot = some (sampleRow 30)) ∧
      ∀ r w', HandlerRuns ((Invocation.merge sampleStale).handler sampleObject) sampleCurrent r w' →
        w' = sampleCurrent := by
  obtain ⟨hrow, hleaves⟩ := row_is_snapshot sampleCurrent_reach
  refine ⟨hrow (sampleRow 30) rfl, fun r w' hruns => ?_⟩
  exact (hleaves (.merge sampleStale) r w' rfl hruns).guarded (.staleSha "moved" "abcdef0123") rfl

end Dependaboard
