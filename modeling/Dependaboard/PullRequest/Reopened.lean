import Dependaboard.Retirement.Outbox
/-!
# The pull request — syncs, sweeps and closes that arrive late

One pull request's object, exclusive as the runtime keeps it, among any
number of repository sweeps. A sweep may prune the object's row under its
fence; the close its drain then sends may be delivered long after, again,
or in another order, and by then the pull request may have been synced
anew. The clocks are not compared: the fence and the stamps are whatever
was read.

`ReopenWorld.wronged` is the account of what must not happen: the fence of
every prune or close that took the row or the state of a pull request last
synced at or after it.
-/

namespace Dependaboard

open Durable

/-- A close on its way to the object, with the outbox rows it was sent
for. -/
structure CloseMessage where
  request : ClosedRequest
  rows : List Retirement
  deriving DecidableEq

/-- What the object's handler is running. -/
inductive Serving where
  | sync
  | closed (message : CloseMessage)

/-- The fence of the close being served, if one is. -/
def Serving.fence : Serving → Option ℕ
  | sync => none
  | closed message => message.request.syncedBefore

/-- One object, the store and outbox its row is in, and the closes on their
way to it. -/
structure ReopenWorld where
  outbox : OutboxWorld Unit
  /-- The object's durable state. -/
  object : Option PrState
  /-- The handler that holds the object, `none` while it is idle. -/
  serving : Option Serving
  /-- The stamp of the last snapshot a sync wrote through. -/
  lastSync : Option ℕ
  /-- Every close ever sent to the object. -/
  messages : List CloseMessage
  /-- The closes whose delivery is not done. -/
  inflight : List CloseMessage
  /-- The outbox rows whose close has been delivered. -/
  delivered : List Retirement
  /-- The fences that cost a pull request synced since its row or state. -/
  wronged : List ℕ

namespace ReopenWorld

/-- The row of the pull request. -/
def row (key : PrKey) (w : ReopenWorld) : Option PrRecord := w.outbox.store.row? key

/-- What the object stands for. -/
def held (w : ReopenWorld) : PrState := w.object.getD default

/-- What taking something (`took`) under a fence costs: the fence, when the
last sync is at or after it. -/
def cost (w : ReopenWorld) (fence : Option ℕ) (took : Bool) : List ℕ :=
  match fence with
  | some f => if took && w.lastSync.any (f ≤ ·) then [f] else []
  | none => []

/-- The world with another store, its outbox the same. -/
def withStore (w : ReopenWorld) (store' : Store) : ReopenWorld :=
  { w with outbox := { w.outbox with store := store' } }

/-- The object's handler drops the row. -/
def dropRow (w : ReopenWorld) (key : PrKey) (store' : Store) : ReopenWorld :=
  { w.withStore store' with
    wronged := w.wronged ++ w.cost (w.serving.bind Serving.fence) (w.row key).isSome }

/-- The object's handler forgets its state. -/
def forget (w : ReopenWorld) : ReopenWorld :=
  { w with
    object := none
    wronged := w.wronged ++ w.cost (w.serving.bind Serving.fence) (w.held ≠ default) }

/-- The close a slot's drain sends the object. -/
def message (w : ReopenWorld) (slot : ℕ) (key : PrKey) (request : ClosedRequest) :
    CloseMessage :=
  ⟨request, w.outbox.asking ((), slot) key request⟩

/-- What a sweep's call does beyond the outbox: a close sent to the object is
on its way, and a prune that takes its row is accounted for. -/
def swept (w : ReopenWorld) (key : PrKey) (slot : ℕ) (call : SweepCall)
    (outbox' : OutboxWorld Unit) : ReopenWorld :=
  match call with
  | .closePullRequest other request =>
    if other = key then
      { w with
        outbox := outbox'
        messages := w.messages ++ [w.message slot key request]
        inflight := w.inflight ++ [w.message slot key request] }
    else { w with outbox := outbox' }
  | .prune prune =>
    { w with
      outbox := outbox'
      wronged := w.wronged ++
        w.cost prune.fence ((w.row key).isSome && (outbox'.store.row? key).isNone) }
  | _ => { w with outbox := outbox' }

end ReopenWorld

open ReopenWorld

/-- The object's slot speaks the pull request's interface, every other slot
the sweeps'. -/
@[reducible] def reopenEffects : Option ℕ → Signature
  | none => PullRequestEffects
  | some _ => SweepEffects

/-- The object's slot ends as its handlers do, a sweep with its count. -/
@[reducible] def ReopenAnswer : Option ℕ → Type
  | none => HandlerAnswer
  | some _ => ℕ

/-- How the calls of the object's handlers are answered. A store step that
reports a failure has not landed; a snapshot fetched is one of the pull
request asked for. -/
def objectSem (key : PrKey) : (call : PullRequestCall) → ReopenWorld → call.Answer →
    ReopenWorld → Prop
  | .state, w, answer, w' =>
    w' = w ∧ ((∃ error, answer = .error error) ∨ answer = .ok w.object)
  | .setState state, w, _, w' => w' = { w with object := some state }
  | .clearState, w, _, w' => w' = w.forget
  | .fetchSnapshot request _, w, answer, w' =>
    w' = w ∧ ∀ snapshot, answer = .ok (.ok (some snapshot)) → SnapshotOf request snapshot
  | .upsertProjection snapshot, w, answer, w' =>
    (∃ error, answer = .error error ∧ w' = w) ∨
      ∃ store', w.outbox.store.upsertPr snapshot = .ok store' ∧ answer = .ok () ∧
        w' = { w.withStore store' with lastSync := some snapshot.syncedAt }
  | .deleteProjection _ other, w, answer, w' =>
    (∃ error, answer = .error error ∧ w' = w) ∨
      answer = .ok () ∧ w' = w.dropRow key (w.outbox.store.deletePr other)
  | .now _, w, _, w' => w' = w
  | .scheduleSync _ _ _, w, _, w' => w' = w
  | .merge _ _, w, _, w' => w' = w
  | .postCommand _, w, _, w' => w' = w
  | .updateBranch _, w, _, w' => w' = w
  | .repositoryMergeMethod _, w, _, w' => w' = w

/-- The prunes a repository's sweep makes. -/
def SweepCall.OfRepository : SweepCall → Prop
  | .prune (.retainPrs _ _ _) => True
  | .prune _ => False
  | _ => True

/-- **One object among any number of repository sweeps.** A sync of the
object may be asked for at any time; any close ever sent it may be
delivered at any time, and once more. A close whose handler fails is still
to be delivered. -/
def reopenSystem (object : PullRequestObject) :
    System reopenEffects HandlerError ReopenAnswer ReopenWorld where
  init w := w.outbox.queued = [] ∧ w.outbox.sent = [] ∧ w.outbox.told = [] ∧
    w.outbox.unread = [] ∧ (∀ slot, w.outbox.reads slot = []) ∧ w.row object.key = none ∧
    w.object = none ∧ w.serving = none ∧ w.lastSync = none ∧ w.messages = [] ∧
    w.inflight = [] ∧ w.delivered = [] ∧ w.wronged = []
  start
    | none, handler, w, w' => w.serving = none ∧
      ((∃ request, requestKey request = object.key ∧
          handler = (Invocation.sync request).handler object ∧
          w' = { w with serving := some .sync }) ∨
        ∃ message ∈ w.messages,
          handler = (Invocation.closed message.request).handler object ∧
          w' = { w with serving := some (.closed message) })
    | some _, handler, w, w' => (∃ addressed, handler = runRepoReconcile addressed) ∧ w' = w
  sem
    | none, call, w, answer, w' => objectSem object.key call w answer w'
    | some slot, call, w, answer, w' => call.OfRepository ∧ ∃ outbox',
      outboxSem (fun _ _ => True) ((), slot) call w.outbox answer outbox' ∧
        w' = w.swept object.key slot call outbox'
  lose
    | none, _, _, _ => False
    | some slot, call, w, w' => call.OfRepository ∧ ∃ outbox',
      outboxLose (fun _ _ => True) ((), slot) call w.outbox outbox' ∧
        w' = w.swept object.key slot call outbox'
  finish
    | none, result, w, w' =>
      w' = { w with serving := none } ∨
        ∃ message answer, w.serving = some (.closed message) ∧ result = .ok answer ∧
          w' = { w with
            serving := none
            inflight := w.inflight.erase message
            delivered := w.delivered ++ message.rows }
    | some _, _, w, w' => w' = w
  env w w' := ∃ store', store'.retirements = w.outbox.store.retirements ∧
    store'.row? object.key = w.row object.key ∧ w' = w.withStore store'

/-! ## The outbox under this system is the outbox -/

/-- The sweeps' side of a state: the outbox, and what each sweep is
running. -/
def outboxView (s : System.State reopenEffects HandlerError ReopenAnswer ReopenWorld) :
    System.State (fun _ : Unit × ℕ => SweepEffects) HandlerError (fun _ => ℕ) (OutboxWorld Unit) :=
  ⟨s.world.outbox, fun slot => s.slots (some slot.2)⟩

/-- What a handler of the object does to the store leaves the outbox. -/
theorem objectSem_outbox {key : PrKey} {call : PullRequestCall} {w w' : ReopenWorld}
    {answer : call.Answer} (h : objectSem key call w answer w') :
    ∃ store', store'.retirements = w.outbox.store.retirements ∧
      w'.outbox = { w.outbox with store := store' } := by
  cases call with
  | upsertProjection snapshot =>
    rcases h with ⟨error, -, rfl⟩ | ⟨store', hupsert, -, rfl⟩
    · exact ⟨_, rfl, rfl⟩
    · obtain ⟨hrepo, rfl⟩ := Store.upsertPr_ok hupsert
      exact ⟨w.outbox.store.writePullRequest snapshot hrepo, rfl, rfl⟩
  | deleteProjection step other =>
    rcases h with ⟨error, -, rfl⟩ | ⟨-, rfl⟩
    · exact ⟨_, rfl, rfl⟩
    · exact ⟨w.outbox.store.deletePr other, rfl, rfl⟩
  | state => obtain ⟨rfl, -⟩ := h; exact ⟨_, rfl, rfl⟩
  | fetchSnapshot request known => obtain ⟨rfl, -⟩ := h; exact ⟨_, rfl, rfl⟩
  | clearState => obtain rfl := h; exact ⟨_, rfl, rfl⟩
  | setState state => obtain rfl := h; exact ⟨_, rfl, rfl⟩
  | now _ | scheduleSync _ _ _ | merge _ _ | postCommand _ | updateBranch _
  | repositoryMergeMethod _ => obtain rfl := h; exact ⟨_, rfl, rfl⟩

theorem swept_outbox (w : ReopenWorld) (key : PrKey) (slot : ℕ) (call : SweepCall)
    (outbox' : OutboxWorld Unit) : (w.swept key slot call outbox').outbox = outbox' := by
  unfold swept
  split
  · split <;> rfl
  · rfl
  · rfl

/-- A sweep's slot changing is the same slot changing in the view. -/
theorem outboxView_update (w : ReopenWorld)
    (slots : (i : Option ℕ) → Option (Prog (reopenEffects i) HandlerError (ReopenAnswer i)))
    (slot : ℕ) (x : Option (SweepM ℕ)) :
    outboxView ⟨w, Function.update slots (some slot) x⟩
      = ⟨w.outbox, Function.update (outboxView ⟨w, slots⟩).slots ((), slot) x⟩ := by
  have hslots : (outboxView ⟨w, Function.update slots (some slot) x⟩).slots
      = Function.update (outboxView ⟨w, slots⟩).slots ((), slot) x := by
    funext other
    by_cases h : other.2 = slot
    · obtain rfl : other = ((), slot) := Prod.ext rfl h
      simp [outboxView]
    · have hne : other ≠ ((), slot) := fun heq => h (heq ▸ rfl)
      simp [outboxView, hne, h]
  exact congrArg (System.State.mk w.outbox) hslots

/-- **A step of this system is a step of the outbox's, or none of its
business.** -/
theorem step_outboxView {object : PullRequestObject}
    {s t : System.State reopenEffects HandlerError ReopenAnswer ReopenWorld}
    (h : (reopenSystem object).Step s t) :
    outboxView t = outboxView s ∨
      (outboxSystem fun _ _ => True).Step (outboxView s) (outboxView t) := by
  obtain ⟨w, slots⟩ := s
  have hstore : ∀ {w' : ReopenWorld} {store' : Store},
      store'.retirements = w.outbox.store.retirements →
      w'.outbox = { w.outbox with store := store' } →
      (outboxSystem fun _ _ => True).Step (outboxView ⟨w, slots⟩) (outboxView ⟨w', slots⟩) := by
    intro w' store' hsame heq
    exact .env ⟨store', hsame, heq⟩
  -- the object's own steps move the outbox only through the store, as its environment may
  cases h with
  | @start i handler w' hidle hstart =>
    cases i with
    | none =>
      obtain ⟨-, ⟨request, -, -, rfl⟩ | ⟨message, -, -, rfl⟩⟩ := hstart <;> exact .inl rfl
    | some slot =>
      obtain ⟨⟨addressed, rfl⟩, rfl⟩ := hstart
      refine .inr ?_
      rw [outboxView_update]
      exact .start hidle ⟨.repoReconcile addressed, rfl⟩
  | @answer i call k answer w' hslot hsem =>
    cases i with
    | none =>
      obtain ⟨store', hsame, heq⟩ := objectSem_outbox hsem
      exact .inr (hstore hsame heq)
    | some slot =>
      obtain ⟨-, outbox', hsem, rfl⟩ := hsem
      refine .inr ?_
      rw [outboxView_update, swept_outbox]
      exact .answer hslot hsem
  | @lose i call k w' hslot hlose =>
    cases i with
    | none => exact hlose.elim
    | some slot =>
      obtain ⟨-, outbox', hlose, rfl⟩ := hlose
      have hview : (outboxView ⟨w, slots⟩).slots ((), slot) = some (.ask call k) := hslot
      have hlost : (outboxSystem fun _ _ => True).Step (outboxView ⟨w, slots⟩)
          ⟨outbox', (outboxView ⟨w, slots⟩).slots⟩ := .lose hview hlose
      rw [← swept_outbox w object.key slot call outbox'] at hlost
      exact .inr hlost
  | @done i a w' hslot hfinish =>
    cases i with
    | none =>
      rcases hfinish with rfl | ⟨message, answer, -, -, rfl⟩ <;> exact .inl rfl
    | some slot =>
      obtain rfl := hfinish
      refine .inr ?_
      rw [outboxView_update]
      exact .done hslot rfl
  | @fail i e w' hslot hfinish =>
    cases i with
    | none =>
      rcases hfinish with rfl | ⟨message, answer, -, -, rfl⟩ <;> exact .inl rfl
    | some slot =>
      obtain rfl := hfinish
      refine .inr ?_
      rw [outboxView_update]
      exact .fail hslot rfl
  | @env w' henv =>
    obtain ⟨store', hsame, -, rfl⟩ := henv
    exact .inr (hstore hsame rfl)

/-- **The outbox loses nothing here either.** -/
theorem reopen_lossless {object : PullRequestObject}
    {s : System.State reopenEffects HandlerError ReopenAnswer ReopenWorld}
    (hs : (reopenSystem object).Reach s) : Lossless s.world.outbox := by
  have hview : (outboxSystem fun _ _ => True).Reach (outboxView s) := by
    induction hs with
    | init hw =>
      obtain ⟨hqueued, hsent, htold, hunread, -⟩ := hw
      exact .init ⟨hqueued, hsent, htold, hunread⟩
    | step _ hst ih =>
      rcases step_outboxView hst with heq | hstep
      · rwa [heq]
      · exact ih.step hstep
  have hvalid : (outboxOutline fun (_ : Unit) _ => True).Valid :=
    outboxOutline_valid fun _ _ _ _ _ other _ => .inl (Subsingleton.elim other ())
  exact (hvalid.reach hview).inv

end Dependaboard
