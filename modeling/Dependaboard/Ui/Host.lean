import Dependaboard.Durable.Asks
import Dependaboard.Ui.Concluded
/-!
# Ui — one batch is followed at a time

A batch comes to be followed by being confirmed, by a link to it, or in place of
one whose rejected targets it retries, and each takes the page over from
whatever was followed before, whose task is cancelled. `one_follow` is that no
two follows ever report into one page: in every order of the user's doing, of
answers, and of refreshes that come back late, what the page shows and what it
says is of the batch that took it over last.
-/

namespace Dependaboard

namespace Ui

open Durable Prog

/-- What a task follows: a batch it queues, or one known by its id alone. -/
inductive Following where
  | queued (batchId : String) (pending : PendingAction) (now : ℕ)
  | attached (batchId : String) (now : ℕ)
  deriving DecidableEq, Repr

namespace Following

/-- A batch is followed by its id, whether this page queued it or
took it up. -/
def batchId : Following → String
  | queued batchId _ _ => batchId
  | attached batchId _ => batchId

/-- What is known as the follow begins. -/
def opened : Following → Followed
  | queued batchId pending now => .queued batchId pending.action pending.targets now
  | attached batchId now => .attaching batchId now

/-- The batch whose rejected targets it retries. -/
def retriedFrom : Following → Option String
  | queued _ pending _ => pending.retriedFrom
  | attached _ _ => none

/-- What the task runs. -/
def task (fuel : ℕ) : Following → PageM Unit
  | queued batchId pending now => runToEnd fuel pending (opened (queued batchId pending now))
  | attached batchId now => followToEnd fuel (opened (attached batchId now))

@[simp] theorem opened_batchId (following : Following) :
    following.opened.batchId = following.batchId := by
  cases following <;> rfl

end Following

/-- Something that happened on the page. -/
inductive HostEvent where
  /-- A follow took over from what was shown. -/
  | took (task : ℕ) (following : Following) (shown : Option Followed)
  /-- A task's doing, over what was shown. -/
  | did (task : ℕ) (call : PageCall) (shown : Option Followed)
  /-- What a retry that came back has to say. -/
  | said (notice : Notice)
  /-- A retry was refused the credentials. -/
  | refused
  deriving DecidableEq, Repr

/-- Where a followed batch lands. -/
structure BatchHost where
  followed : Option Followed
  /-- The task following it. -/
  follower : Option ℕ
  /-- The drawer is showing. -/
  drawerOpen : Bool
  /-- The finished batch whose rejected targets are being refreshed. -/
  retrying : Option BatchProgress
  /-- What each task was begun to follow. -/
  begun : ℕ → Option Following
  log : List HostEvent

namespace BatchHost

/-- A task goes on only while the batch it was spawned for is the one
followed. -/
def follows (host : BatchHost) (batchId : String) : Bool :=
  host.followed.any fun followed => followed.batchId = batchId

/-- A follow in place of whatever was followed before. -/
def takeOver (host : BatchHost) (task : ℕ) (following : Following) : BatchHost :=
  { host with
    followed := some following.opened
    follower := some task
    drawerOpen := true
    begun := Function.update host.begun task (some following)
    log := host.log ++ [.took task following host.followed] }

/-- A notice shown to the user, in the order they are shown. -/
def say (host : BatchHost) (notice : Notice) : BatchHost :=
  { host with log := host.log ++ [.said notice] }

/-- A completion may have nothing to say. -/
def sayAny (host : BatchHost) : Option Notice → BatchHost
  | some notice => host.say notice
  | none => host

/-- What becomes of a retry whose targets are refreshed: what is said, and the
batch to queue. A retry that comes back to another batch stands down. -/
def queueRetry (host : BatchHost) (batchId : String) :
    Except SignedOut Refreshed → BatchHost × Option PendingAction
  | .error _ =>
    let host := host.say (.error ("The retry was given up: " ++ signedOutMessage))
    ({ host with log := host.log ++ [.refused] }, none)
  | .ok refreshed =>
    let host := host.sayAny ((leftOutNotice "the retry" refreshed.leftOut).map .warning)
    match refreshed.retry with
    | none => (host, none)
    | some retry =>
      if host.follows batchId then (host, some retry)
      else (host.say (.info "The retry stood down: another batch was queued while its targets were being refreshed."), none)

/-- What a task's call shows in place of what was shown. -/
def shownAfter (shown : Option Followed) : PageCall → Option Followed
  | .follow update => some update
  | .standDown => none
  | _ => shown

/-- The page after a task's call. -/
def after (host : BatchHost) (task : ℕ) (call : PageCall) : BatchHost :=
  { host with
    followed := shownAfter host.followed call
    log := host.log ++ [.did task call host.followed] }

/-- What a call is answered with, over what is shown. -/
def Answers (shown : Option Followed) (call : PageCall) (a : call.Answer) : Prop :=
  match call, a with
  | .following, answer => answer = shown
  | _, _ => True

/-- How a call of a task is answered: of the one that follows. Taking over
cancels the task before, and a task the UI framework has cancelled is not
polled again, so no call of it is made; the first conjunct stands for that,
and a task cancelled keeps its slot without ever moving. -/
def sem (task : ℕ) (call : PageCall) (host : BatchHost) (a : call.Answer) (host' : BatchHost) :
    Prop :=
  host.follower = some task ∧ Answers host.followed call a ∧ host' = host.after task call

/-- **How a follow begins**: what it follows, and the page it takes over. -/
inductive Begins (host : BatchHost) : Following → BatchHost → Prop
  | confirmed (batchId : String) (pending : PendingAction) (now : ℕ) :
      pending.retriedFrom = none → Begins host (.queued batchId pending now) host
  /-- Following the batch already followed changes nothing. -/
  | linked (batchId : String) (now : ℕ) :
      host.follows batchId = false → Begins host (.attached batchId now) host
  | retried {finished : BatchProgress} {answer : PrTarget → RefreshAnswer} {asked : List PrTarget}
      {result : Except SignedOut Refreshed} {retry : PendingAction} (batchId : String) (now : ℕ) :
      host.retrying = some finished → RefreshRejected answer finished asked result →
      (host.queueRetry finished.batchId result).2 = some retry →
      Begins host (.queued batchId retry now)
        { (host.queueRetry finished.batchId result).1 with retrying := none }

/-- What else may happen to the page. -/
inductive Happens (host : BatchHost) : BatchHost → Prop
  | toggled (drawerOpen : Bool) : Happens host { host with drawerOpen }
  /-- A second ask while the first is in flight does nothing. -/
  | asked {followed : Followed} {finished : BatchProgress} : host.retrying = none →
      host.followed = some followed → followed.progress = some finished →
      Happens host { host with retrying := some finished }
  | ended {finished : BatchProgress} {answer : PrTarget → RefreshAnswer} {asked : List PrTarget}
      {result : Except SignedOut Refreshed} : host.retrying = some finished →
      RefreshRejected answer finished asked result →
      (host.queueRetry finished.batchId result).2 = none →
      Happens host { (host.queueRetry finished.batchId result).1 with retrying := none }

end BatchHost

/-- The page's tasks, one begun at each takeover. -/
def hostSystem : System (fun _ : ℕ => PageEffects) Unfinished (fun _ => Unit) BatchHost where
  init host := host.followed = none ∧ host.follower = none ∧ host.retrying = none ∧
    (∀ task, host.begun task = none) ∧ host.log = []
  start task p host host' := host.begun task = none ∧ ∃ following fuel before,
    host.Begins following before ∧ p = following.task fuel ∧ host' = before.takeOver task following
  sem task call host a host' := BatchHost.sem task call host a host'
  lose _ _ _ _ := False
  finish _ _ host host' := host' = host
  env host host' := host.Happens host'

/-! ## What is said, and over what -/

/-- What a follow may say of a batch, over what is shown of it. -/
inductive NoticeOf (following : Following) (shown : Followed) : Notice → Prop
  | leftOut {batchId notice : String} {pending : PendingAction} {now : ℕ} {receipt : BatchReceipt} :
      following = .queued batchId pending now →
      leftOutNotice "the batch" (pending.leftOut receipt) = some notice →
      NoticeOf following shown (.warning notice)
  /-- The batch shown is at its end. -/
  | completed {progress : BatchProgress} : shown.progress = some progress → progress.completed →
      NoticeOf following shown (completion progress)
  | notSubmitted (fault : Fault) : NoticeOf following shown (.error (notSubmittedNotice fault))
  /-- The batch shown is the one named. -/
  | unknown : NoticeOf following shown (.warning (unknownNotice shown))

/-- What is shown is of the batch followed. -/
def Following.ShownBy (following : Following) (shown : Option Followed) (P : Followed → Prop) : Prop :=
  ∃ followed, shown = some followed ∧ followed.batchId = following.batchId ∧ P followed

/-- **A call a follow may make**, over what is shown. -/
def Following.Right (following : Following) (shown : Option Followed) : PageCall → Prop
  | .announce notice => following.ShownBy shown fun followed => NoticeOf following followed notice
  | .reload => following.ShownBy shown fun followed => followed.completed
  | .follow update => following.ShownBy shown fun _ => update.batchId = following.batchId
  | .deselect rows => following.ShownBy shown fun _ =>
      ∃ batchId pending now, following = .queued batchId pending now ∧ rows = pending.rows
  | .standDown => following.ShownBy shown fun _ => True
  | .gateway _ | .following | .signedOut => True

/-- What happened is as it should be: a retry took over from the batch it
retries, a task's doing was right. -/
def HostEvent.Right (begun : ℕ → Option Following) : HostEvent → Prop
  | .took task following shown => begun task = some following ∧
      ∀ retried ∈ following.retriedFrom, ∃ followed ∈ shown, followed.batchId = retried
  | .did task call shown => ∃ following, begun task = some following ∧ following.Right shown call
  | .said _ | .refused => True

/-- Each does what it does from its taking over to the next. -/
def InTurn (current : Option ℕ) : List HostEvent → Prop
  | [] => True
  | .took task _ _ :: rest => InTurn (some task) rest
  | .did task _ _ :: rest => current = some task ∧ InTurn current rest
  | .said _ :: rest | .refused :: rest => InTurn current rest

/-- Who took over last. -/
def lastTook (current : Option ℕ) : List HostEvent → Option ℕ
  | [] => current
  | .took task _ _ :: rest => lastTook (some task) rest
  | .did _ _ _ :: rest | .said _ :: rest | .refused :: rest => lastTook current rest

/-- The task an event is a reading of, if it is one. -/
def HostEvent.took? : HostEvent → Option ℕ
  | .took task _ _ => some task
  | _ => none

theorem lastTook_append (current : Option ℕ) (log log' : List HostEvent) :
    lastTook current (log ++ log') = lastTook (lastTook current log) log' := by
  induction log generalizing current with
  | nil => rfl
  | cons event rest ih => cases event <;> exact ih _

theorem inTurn_append {current : Option ℕ} {log log' : List HostEvent} :
    InTurn current (log ++ log') ↔ InTurn current log ∧ InTurn (lastTook current log) log' := by
  induction log generalizing current with
  | nil => simp [InTurn, lastTook]
  | cons event rest ih =>
    cases event with
    | did task call shown => simp only [List.cons_append, InTurn, lastTook, ih, and_assoc]
    | _ => exact ih

/-- What was right stays right. -/
theorem HostEvent.Right.mono {begun begun' : ℕ → Option Following} {event : HostEvent}
    (h : event.Right begun)
    (hmono : ∀ task following, begun task = some following → begun' task = some following) :
    event.Right begun' := by
  cases event with
  | took task following shown => exact ⟨hmono _ _ h.1, h.2⟩
  | did task call shown =>
    obtain ⟨following, hbegun, hright⟩ := h
    exact ⟨following, hmono _ _ hbegun, hright⟩
  | _ => trivial

namespace BatchHost

variable {task : ℕ} {host u v w : BatchHost}

/-- **What every reachable page keeps.** -/
structure Kept (host : BatchHost) : Prop where
  /-- What is shown is of the batch the follower follows. -/
  shown : ∀ followed, host.followed = some followed → ∃ task following,
    host.follower = some task ∧ host.begun task = some following ∧
      followed.batchId = following.batchId
  right : ∀ event ∈ host.log, event.Right host.begun
  inTurn : InTurn none host.log
  follower : lastTook none host.log = host.follower
  /-- No task takes over twice. -/
  once : (host.log.filterMap HostEvent.took?).Nodup

theorem Kept.begun_of_took (h : host.Kept) (htook : task ∈ host.log.filterMap HostEvent.took?) :
    host.begun task ≠ none := by
  obtain ⟨event, hevent, hsome⟩ := List.mem_filterMap.1 htook
  cases event with
  | took task' following shown =>
    obtain rfl : task' = task := Option.some.inj hsome
    rw [(h.right _ hevent).1]
    exact nofun
  | _ => cases hsome

theorem begun_takeOver {other : ℕ} {following following' : Following}
    (hfresh : host.begun task = none) (hother : host.begun other = some following') :
    (host.takeOver task following).begun other = some following' := by
  refine (Function.update_of_ne ?_ _ _).trans hother
  rintro rfl
  rw [hfresh] at hother
  cases hother

/-- A retry has come back to the page and said what it has to say. -/
def Remarks (u v : BatchHost) : Prop :=
  ∃ remarks, (∀ event ∈ remarks, (∃ notice, event = .said notice) ∨ event = .refused) ∧
    v = { u with log := u.log ++ remarks }

theorem Remarks.refl (host : BatchHost) : Remarks host host :=
  ⟨[], fun _ hevent => absurd hevent List.not_mem_nil, by rw [List.append_nil]⟩

theorem Remarks.trans (h : Remarks u v) (h' : Remarks v w) : Remarks u w := by
  obtain ⟨remarks, hremarks, rfl⟩ := h
  obtain ⟨remarks', hremarks', rfl⟩ := h'
  exact ⟨remarks ++ remarks', List.forall_mem_append.2 ⟨hremarks, hremarks'⟩,
    by rw [List.append_assoc]⟩

theorem remarks_say (host : BatchHost) (notice : Notice) : Remarks host (host.say notice) :=
  ⟨[.said notice], List.forall_mem_singleton.2 (.inl ⟨notice, rfl⟩), rfl⟩

theorem remarks_sayAny (host : BatchHost) (notice : Option Notice) :
    Remarks host (host.sayAny notice) := by
  cases notice with
  | none => exact .refl host
  | some notice => exact remarks_say host notice

/-- **A retry that comes back** says what it has to say and leaves the follow as
it is; what it queues is in place of the batch it retries. -/
theorem queueRetry_remarks (host : BatchHost) (batchId : String)
    (refreshed : Except SignedOut Refreshed) : Remarks host (host.queueRetry batchId refreshed).1 ∧
      ∀ retry, (host.queueRetry batchId refreshed).2 = some retry → host.follows batchId ∧
        ∃ answered, refreshed = .ok answered ∧ retry.retriedFrom = some answered.batchId := by
  cases refreshed with
  | error _ =>
    exact ⟨(remarks_say host _).trans ⟨[.refused], List.forall_mem_singleton.2 (.inr rfl), rfl⟩, nofun⟩
  | ok refreshed =>
    have hnoticed := remarks_sayAny host
      ((leftOutNotice "the retry" refreshed.leftOut).map Notice.warning)
    have hfollowed {v : BatchHost} (h : Remarks host v) : v.follows batchId = host.follows batchId := by
      obtain ⟨remarks, -, rfl⟩ := h
      rfl
    simp only [queueRetry, Refreshed.retry]
    by_cases hrows : refreshed.rows = []
    · simp only [if_pos hrows]
      exact ⟨hnoticed, nofun⟩
    · simp only [if_neg hrows, hfollowed hnoticed]
      split
      · rename_i hfollows
        exact ⟨hnoticed, fun retry hretry =>
          ⟨hfollows, refreshed, rfl, congrArg PendingAction.retriedFrom (Option.some.inj hretry).symm⟩⟩
      · exact ⟨hnoticed.trans (remarks_say _ _), nofun⟩

/-- What a retry says is nobody's follow. -/
theorem Kept.remarks (h : u.Kept) (hremarks : Remarks u v) : v.Kept := by
  obtain ⟨remarks, hremarks, rfl⟩ := hremarks
  have hright : ∀ event ∈ remarks, event.Right u.begun := by
    intro event hevent
    obtain ⟨notice, rfl⟩ | rfl := hremarks event hevent <;> trivial
  have hquiet (current : Option ℕ) : InTurn current remarks ∧ lastTook current remarks = current ∧
      remarks.filterMap HostEvent.took? = [] := by
    clear hright
    induction remarks with
    | nil => exact ⟨trivial, rfl, rfl⟩
    | cons event rest ih =>
      obtain ⟨hevent, hrest⟩ := List.forall_mem_cons.1 hremarks
      obtain ⟨notice, rfl⟩ | rfl := hevent <;> exact ih hrest
  obtain ⟨hturn, hlast, hnone⟩ := hquiet (lastTook none u.log)
  refine ⟨h.shown, List.forall_mem_append.2 ⟨h.right, hright⟩, inTurn_append.2 ⟨h.inTurn, hturn⟩,
    ?_, ?_⟩
  · rw [lastTook_append, hlast]
    exact h.follower
  · rw [List.filterMap_append, hnone, List.append_nil]
    exact h.once

/-- What else a page keeps is nothing to its follows. -/
theorem Kept.aside (h : host.Kept) (drawerOpen : Bool) (retrying : Option BatchProgress) :
    Kept { host with drawerOpen, retrying } :=
  ⟨h.shown, h.right, h.inTurn, h.follower, h.once⟩

/-- **A takeover** by a task that has not been begun. -/
theorem Kept.takeOver {following : Following} (h : host.Kept) (hfresh : host.begun task = none)
    (hretried : ∀ retried ∈ following.retriedFrom,
      ∃ followed ∈ host.followed, followed.batchId = retried) :
    (host.takeOver task following).Kept := by
  have hbegun : (host.takeOver task following).begun task = some following :=
    Function.update_self ..
  refine ⟨?_, List.forall_mem_append.2 ⟨fun event hevent => ?_, List.forall_mem_singleton.2 ?_⟩,
    inTurn_append.2 ⟨h.inTurn, trivial⟩, ?_, ?_⟩
  · rintro _ ⟨⟩
    exact ⟨task, following, rfl, hbegun, following.opened_batchId⟩
  · exact (h.right event hevent).mono fun other f hother => begun_takeOver hfresh hother
  · exact ⟨hbegun, hretried⟩
  · exact lastTook_append _ _ _
  · have htook : (host.takeOver task following).log.filterMap HostEvent.took? =
        host.log.filterMap HostEvent.took? ++ [task] := List.filterMap_append
    rw [htook]
    refine List.nodup_append.2 ⟨h.once, List.nodup_singleton _, fun other hother other' hother' => ?_⟩
    rintro rfl
    obtain rfl := List.mem_singleton.1 hother'
    exact h.begun_of_took hother hfresh

/-- **A call of the follower**, right over what is shown. -/
theorem Kept.after {call : PageCall} (h : host.Kept) (hfollower : host.follower = some task)
    (hright : HostEvent.Right host.begun (.did task call host.followed)) :
    (host.after task call).Kept := by
  refine ⟨fun followed hfollowed => ?_, List.forall_mem_append.2 ⟨h.right,
    List.forall_mem_singleton.2 hright⟩, inTurn_append.2 ⟨h.inTurn, ?_, trivial⟩, ?_, ?_⟩
  · cases call with
    | follow update =>
      obtain ⟨following, hbegun, _, -, -, hupdate⟩ := hright
      obtain rfl : update = followed := Option.some.inj hfollowed
      exact ⟨task, following, hfollower, hbegun, hupdate⟩
    | standDown => cases hfollowed
    | _ => exact h.shown followed hfollowed
  · exact h.follower.trans hfollower
  · exact (lastTook_append _ _ _).trans h.follower
  · have htook : (host.after task call).log.filterMap HostEvent.took? =
        host.log.filterMap HostEvent.took? := List.filterMap_append.trans (List.append_nil _)
    exact htook ▸ h.once

/-- **What a task may rely on**: nothing begun is forgotten, and while it still
follows, what is shown is its own to change. -/
structure Others (task : ℕ) (u v : BatchHost) : Prop where
  begun : ∀ other following, u.begun other = some following → v.begun other = some following
  mine : u.begun task ≠ none → v.follower = some task →
    u.follower = some task ∧ v.followed = u.followed

theorem Others.refl (task : ℕ) (host : BatchHost) : Others task host host :=
  ⟨fun _ _ => id, fun _ hfollower => ⟨hfollower, rfl⟩⟩

theorem Others.trans (h : Others task u v) (h' : Others task v w) : Others task u w := by
  refine ⟨fun other following hbegun => h'.begun other following (h.begun other following hbegun),
    fun hbegun hfollower => ?_⟩
  obtain ⟨following, hfollowing⟩ := Option.ne_none_iff_exists'.1 hbegun
  obtain ⟨hmiddle, hsame⟩ := h'.mine (by simp [h.begun task following hfollowing]) hfollower
  obtain ⟨hfirst, hsame'⟩ := h.mine hbegun hmiddle
  exact ⟨hfirst, hsame.trans hsame'⟩

theorem others_takeOver {other : ℕ} {following : Following} (hfresh : host.begun task = none)
    (hother : other ≠ task) : Others other host (host.takeOver task following) :=
  ⟨fun _ _ hbegun => begun_takeOver hfresh hbegun,
    fun _ hfollower => absurd (Option.some.inj hfollower).symm hother⟩

theorem others_after {other : ℕ} {call : PageCall} (hfollower : host.follower = some task)
    (hother : other ≠ task) : Others other host (host.after task call) :=
  ⟨fun _ _ => id, fun _ hfollows =>
    absurd (Option.some.inj (hfollower.symm.trans hfollows)).symm hother⟩

theorem Others.of_remarks (task : ℕ) (h : Remarks u v) : Others task u v := by
  obtain ⟨remarks, -, rfl⟩ := h
  exact ⟨fun _ _ => id, fun _ hfollower => ⟨hfollower, rfl⟩⟩

end BatchHost

open BatchHost

variable {task : ℕ} {following : Following} {shown : Option Followed} {u v w : BatchHost}

/-- What each of the page's tasks keeps, and what it may count on the others
for. -/
def hostOutline : Outline hostSystem where
  inv := BatchHost.Kept
  rely := Others
  rely_refl := Others.refl
  rely_trans := Others.trans

/-- The task was begun for `following`, and while it follows `shown` is what is
shown. -/
structure BatchHost.Shows (task : ℕ) (following : Following) (shown : Option Followed)
    (host : BatchHost) : Prop where
  begun : host.begun task = some following
  shown : host.follower = some task → host.followed = shown

theorem BatchHost.Shows.others (h : u.Shows task following shown) (hothers : Others task u v) :
    v.Shows task following shown := by
  refine ⟨hothers.begun task following h.begun, fun hfollower => ?_⟩
  obtain ⟨hfollows, hsame⟩ := hothers.mine (by simp [h.begun]) hfollower
  exact hsame.trans (h.shown hfollows)

/-- **The rule of one call.** -/
theorem safe_call {γ : Type} {call : PageCall} {k : call.Answer → PageM γ}
    {post : Except Unfinished γ → BatchHost → Prop} (h : w.Shows task following shown)
    (hright : following.Right shown call)
    (hk : ∀ a v, Answers shown call a → v.Shows task following (shownAfter shown call) →
      hostOutline.Safe task (k a) post v) :
    hostOutline.Safe task (.ask (S := PageEffects) call k) post w := by
  refine .ask (P := fun w => w.Shows task following shown) h
    (fun u v hu hothers _ => hu.others hothers) (fun _ _ => id) (fun _ _ _ => trivial) ?_
  rintro u a v hu hkept ⟨hfollower, hanswers, rfl⟩
  have hshown := hu.shown hfollower
  refine ⟨⟨hkept.after hfollower ⟨following, hu.begun, hshown ▸ hright⟩,
    fun other hother => others_after hfollower hother⟩, hk a _ (hshown ▸ hanswers)
      ⟨hu.begun, fun _ => congrArg (shownAfter · call) hshown⟩⟩

/-- A call that shows nothing. -/
def FollowCall.Quiet : FollowCall → Prop
  | .report _ | .accepted _ => False
  | _ => True

/-- What a follow may come to know: it is of its own batch. -/
def Following.Own (following : Following) (followed : Followed) : Prop :=
  followed.batchId = following.batchId

/-- **A follow that is safe on a page** that shows `shown`, and ends with what
`post` says of its result and of what is shown then. -/
def SafeFollow {α : Type} (task : ℕ) (following : Following) (account : BatchReceipt → PageM Unit)
    (p : FollowM α) (post : α → Option Followed → Prop) (shown : Option Followed) : Prop :=
  ∀ (σ : Type) (keep : Followed → σ → σ) (kept : σ) (w : BatchHost), w.Shows task following shown →
    hostOutline.Safe task (p.handled (sinks keep account) kept)
      (fun result v => match result with
        | .ok (a, _) => ∃ shown, v.Shows task following shown ∧ post a shown
        | .error _ => True) w

namespace SafeFollow

variable {α β : Type} {account : BatchReceipt → PageM Unit} {post : α → Option Followed → Prop}

theorem done {a : α} (h : post a shown) : SafeFollow task following account (.done a) post shown :=
  fun _ _ _ _ hw _ hothers _ => ⟨shown, hw.others hothers, h⟩

theorem fail {error : Unfinished} : SafeFollow task following account (.fail error) post shown :=
  fun _ _ _ _ _ _ _ _ => trivial

/-- What is asked of the server and the clock shows nothing. -/
theorem gateway {call : FollowCall} {k : call.Answer → FollowM α}
    (hcall : call.Quiet)
    (h : ∀ a, SafeFollow task following account (k a) post shown) :
    SafeFollow task following account (.ask (S := FollowEffects) call k) post shown := by
  intro σ keep kept w hw
  cases call with
  | report update => exact hcall.elim
  | accepted receipt => exact hcall.elim
  | _ => exact safe_call hw trivial fun a v _ hv => h a σ keep kept v hv

/-- A report is shown. -/
theorem report {update : Followed} {k : Unit → FollowM α}
    (hshown : following.ShownBy shown fun _ => following.Own update)
    (h : SafeFollow task following account (k ()) post (some update)) :
    SafeFollow task following account (.ask (S := FollowEffects) (.report update) k) post shown :=
  fun σ keep kept _ hw => safe_call hw hshown fun _ v _ hv => h σ keep (keep update kept) v hv

theorem accepted {receipt : BatchReceipt} {k : Unit → FollowM α}
    (haccount : ∀ w : BatchHost, w.Shows task following shown →
      hostOutline.Safe task (account receipt) (fun result v => match result with
        | .ok _ => v.Shows task following shown
        | .error _ => True) w)
    (h : SafeFollow task following account (k ()) post shown) :
    SafeFollow task following account (.ask (S := FollowEffects) (.accepted receipt) k) post
      shown := by
  intro σ keep kept w hw
  change hostOutline.Safe task (((account receipt).bind fun _ => .done ((), kept)).bind fun answer =>
    (k answer.1).handled (sinks keep account) answer.2) _ w
  refine .bind (.bind ((haccount w hw).mono fun result v _ hv => ?_))
  cases result with
  | ok _ => exact fun u hothers _ => h σ keep kept u (BatchHost.Shows.others hv hothers)
  | error error => exact trivial

theorem mono {p : FollowM α} {post' : α → Option Followed → Prop}
    (h : SafeFollow task following account p post shown)
    (himp : ∀ a shown, post a shown → post' a shown) :
    SafeFollow task following account p post' shown := by
  refine fun σ keep kept w hw => (h σ keep kept w hw).mono fun result v _ hv => ?_
  cases result with
  | ok answer =>
    obtain ⟨shown, hshows, hpost⟩ := hv
    exact ⟨shown, hshows, himp _ _ hpost⟩
  | error error => exact trivial

/-- The rule of sequencing. -/
theorem bind {p : FollowM α} {f : α → FollowM β} {post : β → Option Followed → Prop}
    (h : SafeFollow task following account p
      (fun a shown => SafeFollow task following account (f a) post shown) shown) :
    SafeFollow task following account (p.bind f) post shown := by
  intro σ keep kept w hw
  rw [handled_bind]
  refine .bind ((h σ keep kept w hw).mono fun result v _ hv => ?_)
  cases result with
  | ok answer =>
    obtain ⟨shown, hshows, hf⟩ := hv
    exact hf σ keep answer.2 v hshows
  | error error => exact trivial

/-- A report, where there is news. -/
theorem reportIf {news : Bool} {update : Followed} {next : FollowM α}
    (hshown : following.ShownBy shown fun _ => following.Own update)
    (hsame : news = false → shown = some update)
    (h : SafeFollow task following account next post (some update)) :
    SafeFollow task following account (Ui.reportIf news update next) post shown := by
  cases news with
  | true => exact report hshown h
  | false => exact hsame rfl ▸ h

end SafeFollow

/-! ## The follow -/

/-- How a follow ends, over what is shown: at the end of its batch, or still
showing it. -/
def Following.Ends (following : Following) (outcome : BatchOutcome) (shown : Option Followed) : Prop :=
  match outcome with
  | .completed progress => following.ShownBy shown fun followed =>
      followed.progress = some progress ∧ progress.completed
  | _ => following.ShownBy shown fun _ => True

theorem Following.Own.shownBy {followed : Followed} (h : following.Own followed) {P : Followed → Prop}
    (hP : P followed) : following.ShownBy (some followed) P := ⟨followed, rfl, h, hP⟩

variable {account : BatchReceipt → PageM Unit}

theorem safe_unlessEnded {followed : Followed} {next : FollowM BatchOutcome}
    (hown : following.Own followed)
    (h : SafeFollow task following account next following.Ends (some followed)) :
    SafeFollow task following account (unlessEnded followed next) following.Ends (some followed) := by
  unfold unlessEnded
  split
  · rename_i outcome hended
    refine .done ?_
    unfold Followed.ended at hended
    split at hended
    · obtain rfl := Option.some.inj hended
      exact hown.shownBy trivial
    · obtain ⟨progress, hfilter, rfl⟩ := Option.map_eq_some_iff.1 hended
      obtain ⟨hprogress, hcompleted⟩ := Option.filter_eq_some_iff.1 hfilter
      exact hown.shownBy ⟨hprogress, hcompleted⟩
  · exact h

/-- What is answered is noted of the batch followed. -/
theorem own_answered {followed : Followed} (hown : following.Own followed) (trouble : Option Fault) :
    following.Own (followed.answered trouble).1 ∧
      ((followed.answered trouble).2 = false → (followed.answered trouble).1 = followed) := by
  unfold Followed.answered
  split
  · exact ⟨hown, fun _ => rfl⟩
  · exact ⟨hown, nofun⟩

theorem own_hear {followed : Followed} (hown : following.Own followed) (progress : BatchProgress)
    (now : ℕ) : following.Own (followed.hear progress now).1 ∧
      ((followed.hear progress now).2 = false → (followed.hear progress now).1 = followed) := by
  unfold Followed.hear
  split
  · exact ⟨hown, fun _ => rfl⟩
  · exact ⟨hown, nofun⟩

theorem hear_progress (followed : Followed) (progress : BatchProgress) (now : ℕ) :
    (followed.hear progress now).1.progress = some progress := by
  unfold Followed.hear
  split
  · rename_i hheard
    exact hheard.2
  · rfl

/-- **The polls** show what they hear, and end as what is shown ends. -/
theorem safe_poll (fuel : ℕ) {followed : Followed} {known : Bool} {emptyPolls : ℕ}
    (hown : following.Own followed) :
    SafeFollow task following account (poll fuel followed known emptyPolls) following.Ends
      (some followed) := by
  induction fuel generalizing followed known emptyPolls with
  | zero => exact .fail
  | succ fuel ih =>
    refine .gateway trivial fun _ => .gateway trivial fun answer => ?_
    -- what is shown is what was known before the answer
    have hnext {news : Bool} {known : Bool} {emptyPolls : ℕ} {update : Followed}
        (hupdate : following.Own update) (hsame : news = false → update = followed) :
        SafeFollow task following account
          (Ui.reportIf news update (unlessEnded update (poll fuel update known emptyPolls)))
          following.Ends (some followed) :=
      .reportIf (hown.shownBy hupdate) (fun hnews => congrArg some (hsame hnews).symm)
        (safe_unlessEnded hupdate (ih hupdate))
    rcases answer with fault | _ | progress
    · obtain ⟨hanswered, hsame⟩ := own_answered hown (some fault)
      exact hnext hanswered hsame
    · obtain ⟨hanswered, hsame⟩ := own_answered hown none
      simp only
      generalize (if known then emptyPolls else emptyPolls + 1) = counted
      split
      · exact .done (hown.shownBy trivial)
      · exact hnext hanswered hsame
    · obtain ⟨hanswered, hsame⟩ := own_answered hown none
      refine .gateway trivial fun now => ?_
      obtain ⟨hheard, hsame'⟩ := own_hear hanswered progress now
      refine hnext hheard fun hnews => ?_
      obtain ⟨hchanged, hnews⟩ := Bool.or_eq_false_iff.1 hnews
      exact (hsame' hnews).trans (hsame hchanged)

/-- A program that shows nothing leaves what is shown. -/
theorem SafeFollow.of_asks {α : Type} {p : FollowM α} (h : p.Asks FollowCall.Quiet) :
    SafeFollow task following account p (fun _ v => v = shown) shown := by
  induction p with
  | done a => exact .done rfl
  | fail e => exact .fail
  | ask op k ih => exact .gateway h.1 fun a => ih a (h.2 a)

theorem asks_attemptOnce {attempt : ℕ} {next : Fault → FollowM (Except Fault Taken)}
    (hnext : ∀ fault, (next fault).Asks FollowCall.Quiet) :
    (attemptOnce attempt next).Asks FollowCall.Quiet := by
  refine ⟨trivial, fun answer => ?_⟩
  have htaken (fault : Fault) : (askTaken (next fault)).Asks FollowCall.Quiet := by
    refine ⟨trivial, fun answer => ?_⟩
    simp only
    split
    · trivial
    · trivial
    · exact hnext fault
  rcases answer with fault | receipt
  · cases fault with
    | signedOut => trivial
    | _ => exact htaken _
  · simp only
    split
    · trivial
    · exact ⟨trivial, fun _ => trivial⟩

theorem asks_submitFrom (left attempt : ℕ) : (submitFrom left attempt).Asks FollowCall.Quiet := by
  induction left generalizing attempt with
  | zero => exact asks_attemptOnce fun _ => trivial
  | succ left ih => exact asks_attemptOnce fun _ => ⟨trivial, fun _ => ih (attempt + 1)⟩

/-- Accounting for a batch over what is shown of it. -/
theorem safe_accountFor {batchId : String} {pending : PendingAction} {now : ℕ} {followed : Followed}
    (hown : (Following.queued batchId pending now).Own followed) (receipt : BatchReceipt)
    (h : w.Shows task (.queued batchId pending now) (some followed)) :
    hostOutline.Safe task (accountFor pending receipt) (fun result v => match result with
      | .ok _ => v.Shows task (.queued batchId pending now) (some followed)
      | .error _ => True) w := by
  refine safe_call h (hown.shownBy ⟨batchId, pending, now, rfl, rfl⟩) fun _ u _ hu => ?_
  split
  · rename_i notice hnotice
    exact safe_call hu (hown.shownBy (.leftOut rfl hnotice)) fun _ v _ hv t hothers _ =>
      hv.others hothers
  · exact fun v hothers _ => hu.others hothers

theorem safe_pollUnlessCompleted (fuel : ℕ) {followed : Followed} (hown : following.Own followed) :
    SafeFollow task following account (pollUnlessCompleted fuel followed) following.Ends
      (some followed) := by
  unfold pollUnlessCompleted
  split
  · rename_i progress hfilter
    obtain ⟨hprogress, hcompleted⟩ := Option.filter_eq_some_iff.1 hfilter
    exact .done (hown.shownBy ⟨hprogress, hcompleted⟩)
  · exact safe_poll fuel hown

theorem safe_runBatch (fuel : ℕ) {batchId : String} {pending : PendingAction} {now : ℕ}
    {followed : Followed} (hown : (Following.queued batchId pending now).Own followed) :
    SafeFollow task (.queued batchId pending now) (accountFor pending) (runBatch fuel followed)
      (Following.queued batchId pending now).Ends (some followed) := by
  have haccount (receipt : BatchReceipt) {followed : Followed}
      (hown : (Following.queued batchId pending now).Own followed) (w : BatchHost) :=
    @safe_accountFor task w _ _ _ _ hown receipt
  have hpolled {followed : Followed} (hown : (Following.queued batchId pending now).Own followed)
      (receipt : BatchReceipt) :
      SafeFollow task (.queued batchId pending now) (accountFor pending)
        (ask (S := FollowEffects) (.accepted receipt) fun _ => pollUnlessCompleted fuel followed)
        (Following.queued batchId pending now).Ends (some followed) :=
    .accepted (haccount receipt hown) (safe_pollUnlessCompleted fuel hown)
  have hsubmit : SafeFollow task (.queued batchId pending now) (accountFor pending) _
      (fun _ v => v = some followed) (some followed) :=
    .of_asks (asks_submitFrom (submitAttempts - 1) 1)
  refine .bind (hsubmit.mono ?_)
  rintro taken _ rfl
  rcases taken with fault | receipt | _ | progress
  · exact .done (hown.shownBy trivial)
  · have hleft : (Following.queued batchId pending now).Own (followed.leaveOut receipt.leftOut) := by
      unfold Followed.leaveOut
      split <;> exact hown
    simp only
    split
    · rename_i hnone
      exact .reportIf (hown.shownBy hown) (fun _ => rfl)
        (.accepted (haccount receipt hown) (safe_poll fuel hown))
    · rename_i hsome
      refine .reportIf (hown.shownBy hleft) (fun hnews => ?_)
        (.accepted (haccount receipt hleft) (safe_poll fuel hleft))
      exact absurd (not_not.1 (of_decide_eq_false hnews)) hsome
  · exact hpolled hown ⟨[]⟩
  · refine .gateway trivial fun now => ?_
    obtain ⟨hheard, hsame⟩ := own_hear hown progress now
    exact .reportIf (hown.shownBy hheard) (fun hnews => congrArg some (hsame hnews).symm)
      (hpolled hheard _)

theorem safe_followBatch (fuel : ℕ) {followed : Followed} (hown : following.Own followed) :
    SafeFollow task following account (followBatch fuel followed) following.Ends (some followed) := by
  refine .gateway trivial fun answer => ?_
  have hreport {update : Followed} {next : FollowM BatchOutcome} (hupdate : following.Own update)
      (h : SafeFollow task following account next following.Ends (some update)) :
      SafeFollow task following account (Ui.reportIf true update next) following.Ends
        (some followed) := .reportIf (hown.shownBy hupdate) nofun h
  rcases answer with fault | _ | ⟨listing⟩ | ⟨record⟩
  · have hunread : following.Own { followed with listing := .unreadable } := hown
    obtain ⟨hanswered, -⟩ := own_answered hunread (some fault)
    refine hreport hanswered ?_
    split
    · exact .done (hanswered.shownBy trivial)
    · exact safe_poll fuel hanswered
  · exact hreport hown (safe_poll fuel hown)
  · exact hreport hown (safe_poll fuel hown)
  · refine .gateway trivial fun now => ?_
    obtain ⟨hheard, -⟩ := own_hear hown (BatchProgress.ofRecord record) now
    exact hreport hheard (.done (hheard.shownBy ⟨hear_progress followed _ now, rfl⟩))

/-- **How the follow ended is said** over what is shown. -/
theorem safe_conclude {outcome : BatchOutcome} (h : w.Shows task following shown)
    (hends : following.Ends outcome shown) :
    hostOutline.Safe task (conclude outcome) (fun _ _ => True) w := by
  cases outcome with
  | completed progress =>
    obtain ⟨followed, rfl, hown, hprogress, hcompleted⟩ := hends
    refine safe_call h (Following.Own.shownBy hown (.completed hprogress hcompleted)) fun _ u _ hu => ?_
    refine safe_call hu (Following.Own.shownBy hown ?_) fun _ _ _ _ _ _ _ => trivial
    simp [Followed.completed, hprogress, hcompleted]
  | notSubmitted fault =>
    obtain ⟨followed, rfl, hown, -⟩ := hends
    refine safe_call h (Following.Own.shownBy hown (.notSubmitted fault)) fun _ u _ hu => ?_
    refine safe_call hu (Following.Own.shownBy hown trivial) fun _ v _ hv => ?_
    split
    · exact safe_call hv trivial fun _ _ _ _ _ _ _ => trivial
    · exact fun _ _ _ => trivial
  | unknown =>
    obtain ⟨followed, rfl, hown, -⟩ := hends
    refine safe_call h trivial fun answer u hanswer hu => ?_
    obtain rfl : answer = some followed := hanswer
    refine safe_call hu (Following.Own.shownBy hown .unknown) fun _ v _ hv => ?_
    exact safe_call hv (Following.Own.shownBy hown trivial) fun _ _ _ _ _ _ _ => trivial
  | signedOut => exact safe_call h trivial fun _ _ _ _ _ _ _ => trivial

/-- **A follow, whole.** -/
theorem safe_task (fuel : ℕ) (h : w.Shows task following (some following.opened)) :
    hostOutline.Safe task (following.task fuel) (fun _ _ => True) w := by
  have hown : following.Own following.opened := following.opened_batchId
  cases following with
  | queued batchId pending now =>
    refine .bind ((safe_runBatch fuel hown Unit _ () w h).mono fun result v _ hv => ?_)
    cases result with
    | error error => trivial
    | ok answer =>
      obtain ⟨shown, hshows, hends⟩ := hv
      exact safe_conclude hshows hends
  | attached batchId now =>
    have hfollow : SafeFollow task (.attached batchId now) (fun _ => .done ())
        (followBatch fuel (Following.attached batchId now).opened)
        (Following.attached batchId now).Ends (some (Following.attached batchId now).opened) :=
      safe_followBatch fuel hown
    refine .bind ((hfollow Bool _ false w h).mono fun result v _ hv => ?_)
    cases result with
    | error error => trivial
    | ok answer =>
      obtain ⟨outcome, seenRunning⟩ := answer
      obtain ⟨shown, hshows, hends⟩ := hv
      cases outcome with
      | completed progress =>
        cases seenRunning with
        | false => exact fun _ _ _ => trivial
        | true => exact safe_conclude hshows hends
      | _ => exact safe_conclude hshows hends

/-- The page a follow takes over: a retry's is still the batch it retries. -/
theorem BatchHost.Begins.before {host before : BatchHost} (h : host.Begins following before)
    (hkept : host.Kept) : before.Kept ∧ (∀ task, Others task host before) ∧
      before.begun = host.begun ∧ ∀ retried ∈ following.retriedFrom,
        ∃ followed ∈ before.followed, followed.batchId = retried := by
  cases h with
  | confirmed batchId pending now hnone =>
    refine ⟨hkept, fun task => .refl task host, rfl, fun retried hretried => ?_⟩
    rw [Following.retriedFrom, hnone] at hretried
    cases hretried
  | linked batchId now _ =>
    exact ⟨hkept, fun task => .refl task host, rfl, nofun⟩
  | @retried finished answer asked result retry batchId now _ hrefreshed hretry =>
    obtain ⟨hremarks, hfollowed⟩ := queueRetry_remarks host finished.batchId result
    obtain ⟨hfollows, answered, hanswered, hfrom⟩ := hfollowed retry hretry
    have hothers (task : ℕ) := Others.of_remarks task hremarks
    have hkept := hkept.remarks hremarks
    obtain ⟨remarks, -, hafter⟩ := hremarks
    refine ⟨hkept.aside _ none, fun task => ⟨(hothers task).begun, (hothers task).mine⟩, ?_, ?_⟩
    · rw [hafter]
    · intro retried hretried
      rw [Following.retriedFrom, hfrom] at hretried
      obtain rfl := Option.some.inj hretried
      rw [hafter]
      obtain ⟨followed, hsome, hsame⟩ := (Option.any_eq_true ..).1 hfollows
      refine ⟨followed, hsome, (of_decide_eq_true hsame).trans ?_⟩
      obtain ⟨gathered, -, hresult⟩ := hrefreshed
      rw [hanswered] at hresult
      cases gathered with
      | error _ => cases hresult
      | ok landed =>
        obtain rfl := Except.ok.inj hresult
        rfl

theorem hostOutline_valid : hostOutline.Valid where
  init := by
    rintro host ⟨hfollowed, hfollower, -, -, hlog⟩
    refine ⟨fun followed hsome => ?_, ?_, ?_, ?_, ?_⟩
    · rw [hfollowed] at hsome
      cases hsome
    all_goals rw [hlog]
    · exact fun _ hevent => absurd hevent List.not_mem_nil
    · trivial
    · exact hfollower.symm
    · exact List.nodup_nil
  env := by
    intro host host' hkept hhappens
    cases hhappens with
    | toggled drawerOpen =>
      exact ⟨hkept.aside drawerOpen host.retrying, fun task => ⟨fun _ _ => id, fun _ h => ⟨h, rfl⟩⟩⟩
    | asked _ _ _ =>
      exact ⟨hkept.aside host.drawerOpen _, fun task => ⟨fun _ _ => id, fun _ h => ⟨h, rfl⟩⟩⟩
    | @ended finished _ _ result _ _ _ =>
      obtain ⟨hremarks, -⟩ := queueRetry_remarks host finished.batchId result
      exact ⟨(hkept.remarks hremarks).aside _ none, fun task =>
        ⟨(Others.of_remarks task hremarks).begun, (Others.of_remarks task hremarks).mine⟩⟩
  start := by
    rintro task _ host _ hkept ⟨hfresh, following, fuel, before, hbegins, rfl, rfl⟩
    obtain ⟨hbefore, hothers, hbegun, hretried⟩ := hbegins.before hkept
    have hfresh : before.begun task = none := hbegun ▸ hfresh
    refine ⟨⟨hbefore.takeOver hfresh hretried, fun other hother =>
      (hothers other).trans (others_takeOver hfresh hother)⟩, (safe_task fuel ⟨?_, fun _ => rfl⟩).mono ?_⟩
    · exact Function.update_self ..
    · rintro _ u hkept - _ rfl
      exact ⟨hkept, fun other _ => .refl other _⟩

/-- **One batch is followed at a time**, whatever is confirmed, linked to or
retried, and whatever is answered however late. What the page shows is of the
batch its follower follows. Each follow does what it does from its taking over
to the next takeover and never again, and all of it over its own batch: it shows
it, says of it what is shown, and reloads the page only over its end. A retry
takes over only from the batch it retries. -/
theorem one_follow {s : System.State (fun _ : ℕ => PageEffects) Unfinished (fun _ => Unit) BatchHost}
    (hs : hostSystem.Reach s) :
    (∀ followed, s.world.followed = some followed → ∃ task following,
      s.world.follower = some task ∧ s.world.begun task = some following ∧
        followed.batchId = following.batchId) ∧
      InTurn none s.world.log ∧ (s.world.log.filterMap HostEvent.took?).Nodup ∧
        ∀ event ∈ s.world.log, event.Right s.world.begun := by
  have hkept := (hostOutline_valid.reach hs).inv
  exact ⟨hkept.shown, hkept.inTurn, hkept.once, hkept.right⟩

/-! ### A link taken while a batch is submitted -/

/-- A merge of nothing, confirmed from the drawer. -/
def samplePending : PendingAction := ⟨.merge, [], none⟩

/-- The follow of a batch being submitted gives way to the link's. -/
theorem sampleHost_reach : ∃ s, hostSystem.Reach s ∧ s.world.follower = some 1 ∧
    s.world.followed.map Followed.batchId = some "batch-2" ∧
    s.world.log.filterMap HostEvent.took? = [0, 1] ∧ s.world.log.length = 5 := by
  have h₀ : hostSystem.Reach ⟨⟨none, none, false, none, fun _ => none, []⟩, fun _ => none⟩ :=
    .init ⟨rfl, rfl, rfl, fun _ => rfl, rfl⟩
  have h₁ := h₀.start 0 _ rfl ⟨rfl, .queued "batch-1" samplePending 100, 9, _, .confirmed _ _ _ rfl,
    rfl, rfl⟩
  have h₂ := h₁.answer 0 (.gateway .submit) (.error .unreachable) rfl ⟨rfl, trivial, rfl⟩
  have h₃ := h₂.start 1 _ rfl ⟨rfl, .attached "batch-2" 101, 9, _, .linked _ _ (by decide), rfl, rfl⟩
  have h₄ := h₃.answer 1 (.gateway .projected) (.ok none) rfl ⟨rfl, trivial, rfl⟩
  have h₅ := h₄.answer 1 (.follow { Followed.attaching "batch-2" 101 with listing := .unlisted }) () rfl
    ⟨rfl, trivial, rfl⟩
  exact ⟨_, h₅, rfl, rfl, rfl, rfl⟩

/-- The page is the link's. -/
theorem one_follow_sample : ∃ s, hostSystem.Reach s ∧
    s.world.followed.map Followed.batchId = some "batch-2" ∧ InTurn none s.world.log := by
  obtain ⟨s, hreach, -, hfollowed, -⟩ := sampleHost_reach
  exact ⟨s, hreach, hfollowed, (one_follow hreach).2.1⟩

end Ui

end Dependaboard
