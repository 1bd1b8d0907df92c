import Dependaboard.Durable.Journal
import Dependaboard.Service.FanOut
/-!
# Deliveries — told once to everyone concerned

GitHub delivers at least once, under an id the edge hands on; the runtime folds
what it is sent again under an id into the invocation it accepted, and lives by
its journal. From there a delivery is dispatched, and a commit's change of status
is fanned out by its repository's object, any number of them at a time, while
the projection moves. `delivery_told` is that each delivery is told once to each
pull request it concerns, in every order of steps, handlers dying and being run
again included.

Every message is known by the delivery it comes of. `DeliveryCourse` is where
one delivery stands, whatever becomes of the others.
-/

namespace Dependaboard

open Durable

/-- What works on deliveries: the dispatcher's invocation for each, and the
object of each repository. -/
inductive DeliveryWorker where
  | dispatcher (deliveryId : String)
  | repository (repositoryId : ℕ)
  deriving DecidableEq, Repr

/-- What each ends with: the dispatcher its message, if any; a fan-out how
many it told. -/
@[reducible] def DeliveryWorker.Result : DeliveryWorker → Type
  | dispatcher _ => Option Sent
  | repository _ => ℕ

/-- The deliveries taken in and what came of each, with the projection its
fan-out reads. -/
structure DeliveryWorld where
  /-- The deliveries accepted, by their ids. -/
  accepted : String → Option WebhookEvent
  /-- How the dispatcher has ended. -/
  dispatched : String → Option (Except HandlerError (Option Sent))
  /-- Every message sent, with the delivery it comes of. -/
  sent : List (String × Sent)
  /-- The commits not taken up, by the repositories they are sent to. -/
  waiting : List (String × ℕ × SyncShaRequest)
  /-- What each repository's object is working on. -/
  working : ℕ → Option (String × SyncShaRequest)
  /-- What the projection answered for a delivery. -/
  read : String → Option (List PrRecord)
  /-- Why a fan-out failed for good. -/
  failed : String → Option HandlerError
  /-- The projection. -/
  rows : List PrRecord

/-- Where one delivery stands. -/
structure DeliveryView where
  accepted : Option WebhookEvent
  sent : List Sent
  waiting : List (ℕ × SyncShaRequest)
  working : ℕ → Option SyncShaRequest
  read : Option (List PrRecord)
  failed : Option HandlerError

/-- What an object has at work of a delivery. -/
def workOf (d : String) (job : Option (String × SyncShaRequest)) : Option SyncShaRequest :=
  job.bind fun job => if job.1 = d then some job.2 else none

/-- What a message leaves for an object to take up. -/
def Sent.handed : Sent → List (ℕ × SyncShaRequest)
  | .syncSha repositoryId request => [(repositoryId, request)]
  | _ => []

namespace DeliveryWorld

/-- A delivery as the world has it. -/
def view (w : DeliveryWorld) (d : String) : DeliveryView where
  accepted := w.accepted d
  sent := (w.sent.filter fun message => message.1 = d).map Prod.snd
  waiting := (w.waiting.filter fun message => message.1 = d).map Prod.snd
  working r := workOf d (w.working r)
  read := w.read d
  failed := w.failed d

/-- A message is sent that comes of a delivery. -/
def post (w : DeliveryWorld) (d : String) (message : Sent) : DeliveryWorld :=
  { w with
    sent := w.sent ++ [(d, message)]
    waiting := w.waiting ++ message.handed.map fun handed => (d, handed) }

/-- The delivery a worker works on. -/
def origin (w : DeliveryWorld) : DeliveryWorker → Option String
  | .dispatcher d => some d
  | .repository r => (w.working r).map Prod.fst

/-- How an effect of a worker is answered. -/
def sem (i : DeliveryWorker) (call : DeliveryCall) (w : DeliveryWorld) (a : call.Answer)
    (w' : DeliveryWorld) : Prop :=
  match call, a with
  | .pullRequestsAt repositoryId sha, answer =>
    (∃ error, answer = .error error ∧ w' = w) ∨ ∃ d rows, w.origin i = some d ∧ answer = .ok rows ∧
      rows = w.rows.filter (fun row => row.repositoryId = repositoryId ∧ row.headSha = sha) ∧
      w' = { w with read := Function.update w.read d (some rows) }
  | .send message, () => ∃ d, w.origin i = some d ∧ w' = w.post d message

/-- What a worker may begin. -/
def start (own : ℕ) : (i : DeliveryWorker) → DeliveryM i.Result → DeliveryWorld → DeliveryWorld → Prop
  | .dispatcher d, p, w, w' => ∃ event, w.accepted d = none ∧ p = dispatchDelivery own event ∧
      w' = { w with accepted := Function.update w.accepted d (some event) }
  | .repository r, p, w, w' => ∃ d request before after, w.working r = none ∧
      w.waiting = before ++ (d, r, request) :: after ∧ p = runSyncSha request ∧
      w' = { w with
        waiting := before ++ after
        working := Function.update w.working r (some (d, request)) }

/-- How a worker's end is noted. -/
def finish : (i : DeliveryWorker) → Except HandlerError i.Result → DeliveryWorld → DeliveryWorld → Prop
  | .dispatcher d, result, w, w' =>
    w' = { w with dispatched := Function.update w.dispatched d (some result) }
  | .repository r, .ok _, w, w' => w' = { w with working := Function.update w.working r none }
  | .repository r, .error error, w, w' => ∃ job, w.working r = some job ∧
      w' = { w with
        working := Function.update w.working r none
        failed := Function.update w.failed job.1 (some error) }

end DeliveryWorld

/-- The deliveries of a deployment. A read may be answered and its answer lost;
a send is in the journal or was not made. -/
def deliverySystem (own : ℕ) :
    System (fun _ : DeliveryWorker => DeliveryEffects) HandlerError DeliveryWorker.Result
      DeliveryWorld where
  init w := (∀ d, w.accepted d = none ∧ w.dispatched d = none ∧ w.read d = none ∧ w.failed d = none) ∧
    w.sent = [] ∧ w.waiting = [] ∧ ∀ r, w.working r = none
  start := DeliveryWorld.start own
  sem i call w a w' := DeliveryWorld.sem i call w a w'
  lose _ call w w' := (∃ repositoryId sha, call = .pullRequestsAt repositoryId sha) ∧ w' = w
  finish := DeliveryWorld.finish
  env w w' := ∃ rows, w' = { w with rows }

/-! ## The course of a delivery -/

/-- A row at the commit, as far as the row is right. -/
def PrRecord.At (row : PrRecord) (request : SyncShaRequest) : Prop :=
  row.repositoryId = request.repositoryId ∧ row.headSha = request.sha

/-- Whom a commit's change is to be told to, by what was read. -/
def planned (request : SyncShaRequest) (read : Option (List PrRecord)) : List ℕ :=
  (read.map (toldNumbers request)).getD []

namespace DeliveryView

/-- Accepted, and nothing sent of it. -/
def fresh (event : WebhookEvent) : DeliveryView := ⟨some event, [], [], fun _ => none, none, none⟩

/-- Its message waits for its repository. -/
def queued (event : WebhookEvent) (request : SyncShaRequest) : DeliveryView :=
  ⟨some event, [.syncSha request.repositoryId request], [(request.repositoryId, request)],
    fun _ => none, none, none⟩

/-- With its repository's object, some told. -/
def fanning (event : WebhookEvent) (request : SyncShaRequest) (read : Option (List PrRecord))
    (told : List ℕ) : DeliveryView :=
  ⟨some event, .syncSha request.repositoryId request :: told.map request.tell, [],
    Function.update (fun _ => none) request.repositoryId (some request), read, none⟩

/-- Done with. -/
def ended (event : WebhookEvent) (sent : List Sent) (read : Option (List PrRecord))
    (failed : Option HandlerError) : DeliveryView :=
  ⟨some event, sent, [], fun _ => none, read, failed⟩

end DeliveryView

/-- **Where a delivery may stand.** -/
inductive DeliveryCourse (own : ℕ) : DeliveryView → Prop
  | unknown : DeliveryCourse own ⟨none, [], [], fun _ => none, none, none⟩
  | fresh (event : WebhookEvent) : DeliveryCourse own (.fresh event)
  /-- Its one message is sent, and is nobody's here to take up. -/
  | passed {event : WebhookEvent} {message : Sent} :
      dispatch own event = .ok (some message) → message.handed = [] →
      DeliveryCourse own (.ended event [message] none none)
  | queued {event : WebhookEvent} {request : SyncShaRequest} :
      dispatch own event = .ok (some (.syncSha request.repositoryId request)) →
      DeliveryCourse own (.queued event request)
  | fanning {event : WebhookEvent} {request : SyncShaRequest} {read : Option (List PrRecord)}
      {told : List ℕ} : dispatch own event = .ok (some (.syncSha request.repositoryId request)) →
      (∀ rows ∈ read, ∀ row ∈ rows, row.At request) → told <+: planned request read →
      DeliveryCourse own (.fanning event request read told)
  | failed {event : WebhookEvent} {request : SyncShaRequest} (error : HandlerError) :
      dispatch own event = .ok (some (.syncSha request.repositoryId request)) →
      DeliveryCourse own (.ended event [.syncSha request.repositoryId request] none (some error))
  | told {event : WebhookEvent} {request : SyncShaRequest} {rows : List PrRecord} :
      dispatch own event = .ok (some (.syncSha request.repositoryId request)) →
      (∀ row ∈ rows, row.At request) →
      DeliveryCourse own (.ended event (.syncSha request.repositoryId request ::
        (toldNumbers request rows).map request.tell) (some rows) none)

namespace DeliveryCourse

variable {own : ℕ} {view : DeliveryView}

/-- One object works on a delivery. -/
theorem working_unique (h : DeliveryCourse own view) {r r' : ℕ} {request request' : SyncShaRequest}
    (hr : view.working r = some request) (hr' : view.working r' = some request') : r = r' := by
  cases h with
  | fanning =>
    simp only [DeliveryView.fanning, Function.update_apply] at hr hr'
    split_ifs at hr hr' with hleft hright
    exact hleft.trans hright.symm
  | _ => cases hr

/-- A delivery that waits is its one message's. -/
theorem eq_queued (h : DeliveryCourse own view) (hwaiting : view.waiting ≠ []) :
    ∃ event request, view = .queued event request ∧
      dispatch own event = .ok (some (.syncSha request.repositoryId request)) := by
  cases h with
  | queued hdispatch => exact ⟨_, _, rfl, hdispatch⟩
  | _ => exact absurd rfl hwaiting

/-- A delivery nobody accepted has come to nothing. -/
theorem eq_unknown (h : DeliveryCourse own view) (hnone : view.accepted = none) :
    view = ⟨none, [], [], fun _ => none, none, none⟩ := by
  cases h with
  | unknown => rfl
  | _ => cases hnone

end DeliveryCourse

/-- What a delivery sends is addressed by the repository it names. -/
theorem handed_of_dispatch {own : ℕ} {event : WebhookEvent} {message : Sent}
    (h : dispatch own event = .ok (some message)) :
    message.handed = [] ∨ ∃ request, message = .syncSha request.repositoryId request := by
  unfold dispatch at h
  cases hroute : routeWebhook own event with
  | error rejection =>
    rw [hroute] at h
    cases h
  | ok route =>
    rw [hroute] at h
    cases route with
    | syncSha request =>
      cases h
      exact .inr ⟨request, rfl⟩
    | ignore => cases h
    | _ =>
      cases h
      exact .inl rfl

/-! ## What an effect does -/

namespace DeliveryWorld

variable {own : ℕ} {d d' : String} {u v w : DeliveryWorld}

theorem view_post_of_ne {message : Sent} (h : d' ≠ d) : (w.post d message).view d' = w.view d' := by
  simp [view, post, List.filter_map, Function.comp_def, h.symm]

theorem view_post_self {message : Sent} : (w.post d message).view d =
    { w.view d with
      sent := (w.view d).sent ++ [message]
      waiting := (w.view d).waiting ++ message.handed } := by
  simp [view, post, List.filter_map, Function.comp_def]

/-- The object that works on a delivery, as the delivery has it. -/
theorem working_view {r : ℕ} {request : SyncShaRequest} (h : w.working r = some (d, request)) :
    (w.view d).working r = some request := by simp [view, workOf, h]

/-- What an object takes up or is done with is nothing to another delivery. -/
theorem workOf_update {r : ℕ} {job : Option (String × SyncShaRequest)} (hd : d' ≠ d)
    (hold : ∀ old ∈ w.working r, old.1 = d) (hnew : ∀ new ∈ job, new.1 = d) (r' : ℕ) :
    workOf d' (Function.update w.working r job r') = workOf d' (w.working r') := by
  have hnone (job : Option (String × SyncShaRequest)) (h : ∀ old ∈ job, old.1 = d) :
      workOf d' job = none := by
    cases job with
    | none => rfl
    | some job => exact if_neg fun heq => hd (heq.symm.trans (h job rfl))
  by_cases hr : r' = r
  · subst hr
    rw [Function.update_self, hnone _ hold, hnone _ hnew]
  · rw [Function.update_of_ne hr]

/-- How the dispatcher ends: what it routed to is sent. -/
structure Ended (own : ℕ) (d : String) (result : Except HandlerError (Option Sent))
    (w : DeliveryWorld) : Prop where
  outcome : ∃ event, w.accepted d = some event ∧ result = dispatch own event
  sent : ∀ message, result = .ok (some message) → (w.view d).sent ≠ []

/-- **What every reachable world keeps.** -/
structure Kept (own : ℕ) (w : DeliveryWorld) : Prop where
  course : ∀ d, DeliveryCourse own (w.view d)
  dispatched : ∀ d result, w.dispatched d = some result → w.Ended own d result

/-- What is a worker's alone: the delivery it has not sent, or the one it is
at work on. -/
def Undisturbed (i : DeliveryWorker) (u v : DeliveryWorld) : Prop :=
  match i with
  | .dispatcher d => ∀ event, u.view d = .fresh event → v.view d = .fresh event
  | .repository r => ∀ job, u.working r = some job → v.working r = some job ∧ v.view job.1 = u.view job.1

/-- **What a worker may rely on**: nothing accepted is forgotten and nothing
sent is unsent, and what is its own is left alone. -/
structure Others (i : DeliveryWorker) (u v : DeliveryWorld) : Prop where
  accepted : ∀ d event, u.accepted d = some event → v.accepted d = some event
  sent : ∀ d, (u.view d).sent <+: (v.view d).sent
  undisturbed : Undisturbed i u v

theorem Others.refl (i : DeliveryWorker) (w : DeliveryWorld) : Others i w w := by
  refine ⟨fun _ _ => id, fun _ => List.prefix_rfl, ?_⟩
  cases i with
  | dispatcher d => exact fun _ => id
  | repository r => exact fun _ hjob => ⟨hjob, rfl⟩

theorem Others.trans {i : DeliveryWorker} (h : Others i u v) (h' : Others i v w) : Others i u w := by
  refine ⟨fun d event hd => h'.accepted d event (h.accepted d event hd),
    fun d => (h.sent d).trans (h'.sent d), ?_⟩
  cases i with
  | dispatcher d => exact fun event hevent => h'.undisturbed event (h.undisturbed event hevent)
  | repository r =>
    intro job hjob
    obtain ⟨hworking, hview⟩ := h.undisturbed job hjob
    obtain ⟨hworking', hview'⟩ := h'.undisturbed job hworking
    exact ⟨hworking', hview'.trans hview⟩

theorem Ended.others {i : DeliveryWorker} {result : Except HandlerError (Option Sent)}
    (h : u.Ended own d result) (hothers : Others i u v) : v.Ended own d result := by
  obtain ⟨event, haccepted, hresult⟩ := h.outcome
  exact ⟨⟨event, hothers.accepted d event haccepted, hresult⟩, fun message hmessage hnil =>
    h.sent message hmessage (List.prefix_nil.1 (hnil ▸ hothers.sent d))⟩

/-- One delivery moves, by a worker's doing. -/
structure Moved (i : DeliveryWorker) (d : String) (u v : DeliveryWorld) : Prop where
  others : ∀ d', d' ≠ d → v.view d' = u.view d'
  working : ∀ r, .repository r ≠ i → v.working r = u.working r
  accepted : ∀ event, u.accepted d = some event → v.accepted d = some event
  sent : (u.view d).sent <+: (v.view d).sent
  dispatched : v.dispatched = u.dispatched

/-- The delivery is nobody's but the worker's. -/
structure Alone (i : DeliveryWorker) (d : String) (w : DeliveryWorld) : Prop where
  fresh : ∀ event, w.view d = .fresh event → i = .dispatcher d
  working : ∀ r request, w.working r = some (d, request) → i = .repository r

theorem Moved.accepted_mono {i : DeliveryWorker} (h : Moved i d u v) (d' : String)
    (event : WebhookEvent) (hevent : u.accepted d' = some event) : v.accepted d' = some event := by
  by_cases hd : d' = d
  · subst hd
    exact h.accepted event hevent
  · have hview : (v.view d').accepted = (u.view d').accepted := by rw [h.others d' hd]
    exact hview.trans hevent

theorem Moved.sent_mono {i : DeliveryWorker} (h : Moved i d u v) (d' : String) :
    (u.view d').sent <+: (v.view d').sent := by
  by_cases hd : d' = d
  · exact hd ▸ h.sent
  · simp only [h.others d' hd, List.prefix_rfl]

/-- **A delivery moved by the worker whose it is disturbs nobody.** -/
theorem Moved.relied {i j : DeliveryWorker} (h : Moved i d u v) (halone : Alone i d u)
    (hj : j ≠ i) : Others j u v := by
  refine ⟨h.accepted_mono, h.sent_mono, ?_⟩
  cases j with
  | dispatcher d' =>
    intro event hevent
    by_cases hd : d' = d
    · subst hd
      exact absurd (halone.fresh event hevent).symm hj
    · rw [h.others d' hd, hevent]
  | repository r =>
    rintro ⟨d', request⟩ hjob
    refine ⟨(h.working r hj).trans hjob, h.others d' fun hd => ?_⟩
    subst hd
    exact absurd (halone.working r request hjob).symm hj

end DeliveryWorld

open DeliveryWorld

variable {own : ℕ} {i : DeliveryWorker} {d : String} {r : ℕ} {u v w : DeliveryWorld}

/-- What each worker keeps, and what it may count on the others for. -/
def deliveryOutline (own : ℕ) : Outline (deliverySystem own) where
  inv := Kept own
  rely := Others
  rely_refl := Others.refl
  rely_trans := Others.trans

/-- What moves one delivery keeps the rest. -/
theorem keeps_moved (hkept : Kept own u) (hmoved : Moved i d u v) (halone : Alone i d u)
    (hcourse : DeliveryCourse own (v.view d)) : (deliveryOutline own).Keeps i u v := by
  refine ⟨⟨fun d' => ?_, fun d' result hresult => ?_⟩, fun j hj => hmoved.relied halone hj⟩
  · by_cases hd : d' = d
    · exact hd ▸ hcourse
    · rw [hmoved.others d' hd]
      exact hkept.course d'
  · rw [hmoved.dispatched] at hresult
    obtain ⟨⟨event, haccepted, houtcome⟩, hsent⟩ := hkept.dispatched d' result hresult
    exact ⟨⟨event, hmoved.accepted_mono d' event haccepted, houtcome⟩, fun message hmessage hnil =>
      hsent message hmessage (List.prefix_nil.1 (hnil ▸ hmoved.sent_mono d'))⟩

/-! ## The dispatcher -/

/-- The send of a delivery nothing was sent of. -/
theorem keeps_sent {event : WebhookEvent} {message : Sent} (hkept : Kept own u)
    (hfresh : u.view d = .fresh event) (hdispatch : dispatch own event = .ok (some message)) :
    (deliveryOutline own).Keeps (.dispatcher d) u (u.post d message) := by
  refine keeps_moved hkept ⟨fun d' hd => view_post_of_ne hd, fun _ _ => rfl, fun _ => id, ?_, rfl⟩
    ⟨fun _ _ => rfl, fun r request hworking => ?_⟩ ?_
  · rw [view_post_self]
    exact List.prefix_append _ _
  · have hview := working_view hworking
    rw [hfresh] at hview
    cases hview
  · rw [view_post_self, hfresh]
    rcases handed_of_dispatch hdispatch with hhanded | ⟨request, rfl⟩
    · rw [hhanded]
      exact .passed hdispatch hhanded
    · exact .queued hdispatch

theorem safe_dispatch {event : WebhookEvent} (h : w.view d = .fresh event) :
    (deliveryOutline own).Safe (.dispatcher d) (dispatchDelivery own event)
      (fun result w => w.Ended own d result) w := by
  have haccepted {u : DeliveryWorld} (hu : u.view d = .fresh event) : u.accepted d = some event :=
    congrArg DeliveryView.accepted hu
  unfold dispatchDelivery
  cases hdispatch : dispatch own event with
  | error error =>
    exact fun v hothers _ => Ended.others ⟨⟨event, haccepted h, hdispatch.symm⟩, nofun⟩ hothers
  | ok sent =>
    cases sent with
    | none =>
      exact fun v hothers _ => Ended.others ⟨⟨event, haccepted h, hdispatch.symm⟩, nofun⟩ hothers
    | some message =>
      refine .ask (P := fun w => w.view d = .fresh event) h
        (fun u v hu hothers _ => hothers.undisturbed event hu) (fun u v hlose => ?_)
        (fun _ _ _ => trivial) fun u _ v hu hkept hsem => ?_
      · obtain ⟨⟨_, _, hcall⟩, -⟩ := hlose
        cases hcall
      · obtain ⟨d', horigin, rfl⟩ := hsem
        obtain rfl : d = d' := Option.some.inj horigin
        have hended : (u.post d message).Ended own d (.ok (some message)) := by
          refine ⟨⟨event, haccepted (u := u) hu, hdispatch.symm⟩, fun _ _ => ?_⟩
          rw [view_post_self]
          exact List.append_ne_nil_of_right_ne_nil _ (List.cons_ne_nil _ _)
        exact ⟨keeps_sent hkept hu hdispatch, fun t hothers _ => hended.others hothers⟩

/-! ## The fan-out -/

/-- The object is at work on a delivery, and has told some. -/
structure FansOut (own : ℕ) (d : String) (event : WebhookEvent) (request : SyncShaRequest)
    (read : Option (List PrRecord)) (told : List ℕ) (w : DeliveryWorld) : Prop where
  dispatched : dispatch own event = .ok (some (.syncSha request.repositoryId request))
  working : w.working request.repositoryId = some (d, request)
  view : w.view d = .fanning event request read told
  atCommit : ∀ rows ∈ read, ∀ row ∈ rows, row.At request

namespace FansOut

variable {event : WebhookEvent} {request : SyncShaRequest} {read : Option (List PrRecord)}
  {told : List ℕ}

theorem others (h : FansOut own d event request read told u)
    (hothers : Others (.repository request.repositoryId) u v) :
    FansOut own d event request read told v := by
  obtain ⟨hworking, hview⟩ := hothers.undisturbed _ h.working
  exact ⟨h.dispatched, hworking, hview.trans h.view, h.atCommit⟩

/-- The delivery is the object's. -/
theorem alone (h : FansOut own d event request read told w) (hkept : Kept own w) :
    Alone (.repository request.repositoryId) d w := by
  refine ⟨fun event hfresh => ?_, fun r request' hworking => ?_⟩
  · cases h.view.symm.trans hfresh
  · exact congrArg DeliveryWorker.repository
      ((hkept.course d).working_unique (working_view h.working) (working_view hworking))

/-- **The answer to its read.** -/
theorem answered (rows : List PrRecord) (h : FansOut own d event request none [] w)
    (hkept : Kept own w) (hrows : ∀ row ∈ rows, row.At request) :
    (deliveryOutline own).Keeps (.repository request.repositoryId) w
        { w with read := Function.update w.read d (some rows) } ∧
      FansOut own d event request (some rows) []
        { w with read := Function.update w.read d (some rows) } := by
  have hview : DeliveryWorld.view { w with read := Function.update w.read d (some rows) } d =
      .fanning event request (some rows) [] := by
    have hself : DeliveryWorld.view { w with read := Function.update w.read d (some rows) } d =
        { w.view d with read := some rows } := by simp [DeliveryWorld.view]
    rw [hself, h.view]
    rfl
  have hatCommit : ∀ rows' ∈ some rows, ∀ row ∈ rows', row.At request := by
    simpa using hrows
  refine ⟨keeps_moved hkept ⟨fun d' hd => ?_, fun _ _ => rfl, fun _ => id, ?_, rfl⟩ (h.alone hkept)
    ?_, h.dispatched, h.working, hview, hatCommit⟩
  · simp [DeliveryWorld.view, Function.update_of_ne hd]
  · rw [hview, h.view]
    exact List.prefix_rfl
  · rw [hview]
    exact .fanning h.dispatched hatCommit List.nil_prefix

/-- **One more told.** -/
theorem tells {rows : List PrRecord} {number : ℕ} {rest : List ℕ}
    (h : FansOut own d event request (some rows) told w) (hkept : Kept own w)
    (hplan : told ++ number :: rest = toldNumbers request rows) :
    (deliveryOutline own).Keeps (.repository request.repositoryId) w (w.post d (request.tell number)) ∧
      FansOut own d event request (some rows) (told ++ [number]) (w.post d (request.tell number)) := by
  have hview : (w.post d (request.tell number)).view d =
      .fanning event request (some rows) (told ++ [number]) := by
    rw [view_post_self, h.view]
    simp [DeliveryView.fanning, SyncShaRequest.tell, Sent.handed]
  refine ⟨keeps_moved hkept ⟨fun d' hd => view_post_of_ne hd, fun _ _ => rfl, fun _ => id, ?_, rfl⟩
    (h.alone hkept) ?_, h.dispatched, h.working, hview, h.atCommit⟩
  · rw [view_post_self]
    exact List.prefix_append _ _
  · rw [hview]
    refine .fanning h.dispatched h.atCommit ⟨rest, ?_⟩
    simpa [planned] using hplan

/-- Nobody works on a delivery its object is done with. -/
theorem nobody (h : FansOut own d event request read told w) (r : ℕ) :
    workOf d (Function.update w.working request.repositoryId none r) = none := by
  by_cases hr : r = request.repositoryId
  · rw [hr, Function.update_self]
    rfl
  · rw [Function.update_of_ne hr]
    have hview : (w.view d).working r =
        Function.update (fun _ => none) request.repositoryId (some request) r :=
      congrFun (congrArg DeliveryView.working h.view) r
    exact hview.trans (Function.update_of_ne hr _ _)

/-- **The object is done with the delivery**, with what failed noted. -/
theorem finished (failures : String → Option HandlerError)
    (h : FansOut own d event request read told w) (hkept : Kept own w)
    (hfailures : ∀ d', d' ≠ d → failures d' = w.failed d')
    (hcourse : DeliveryCourse own (.ended event
      (.syncSha request.repositoryId request :: told.map request.tell) read (failures d))) :
    (deliveryOutline own).Keeps (.repository request.repositoryId) w
      { w with
        working := Function.update w.working request.repositoryId none
        failed := failures } := by
  refine keeps_moved hkept ⟨fun d' hd => ?_, fun r hr => ?_, fun _ => id, List.prefix_rfl, rfl⟩
    (h.alone hkept) ?_
  · have hold : ∀ old ∈ w.working request.repositoryId, old.1 = d := by
      rw [h.working]
      rintro _ ⟨⟩
      rfl
    have hnone : ∀ new ∈ (none : Option (String × SyncShaRequest)), new.1 = d := nofun
    simp only [DeliveryWorld.view, hfailures d' hd, workOf_update hd hold hnone]
  · refine Function.update_of_ne ?_ _ _
    rintro rfl
    exact hr rfl
  · have hview : DeliveryWorld.view { w with
          working := Function.update w.working request.repositoryId none
          failed := failures } d =
        { w.view d with working := fun _ => none, failed := failures d } := by
      simp only [DeliveryWorld.view, h.nobody]
    rw [hview, h.view]
    exact hcourse

end FansOut

/-- How the fan-out ends: all are told, or nobody. -/
def FanOutEnds (own : ℕ) (d : String) (event : WebhookEvent) (request : SyncShaRequest)
    (result : Except HandlerError ℕ) (w : DeliveryWorld) : Prop :=
  match result with
  | .ok _ => ∃ rows, FansOut own d event request (some rows) (toldNumbers request rows) w
  | .error _ => FansOut own d event request none [] w

/-- Everyone is told, one after the other. -/
theorem safe_tellEach {event : WebhookEvent} {request : SyncShaRequest} {rows : List PrRecord}
    (h : FansOut own d event request (some rows) [] w) :
    (deliveryOutline own).Safe (.repository request.repositoryId)
      (Prog.forEach (toldNumbers request rows) fun number => sendMessage (request.tell number))
      (fun result w => result = .ok () ∧
        FansOut own d event request (some rows) (toldNumbers request rows) w) w := by
  refine .forEach (fun rest w => ∃ told, told ++ rest = toldNumbers request rows ∧
    FansOut own d event request (some rows) told w) ?_ ?_ ?_ ⟨[], rfl, h⟩
  · rintro w - ⟨told, htold, hw⟩
    obtain rfl : told = toldNumbers request rows := by simpa using htold
    exact ⟨rfl, hw⟩
  · rintro rest u v ⟨told, htold, hu⟩ hothers -
    exact ⟨told, htold, hu.others hothers⟩
  · rintro number rest u ⟨told, htold, hu⟩
    refine .ask (P := FansOut own d event request (some rows) told) hu
      (fun _ _ hu hothers _ => hu.others hothers) (fun _ _ hlose => ?_) (fun _ _ _ => trivial) ?_
    · obtain ⟨⟨_, _, hcall⟩, -⟩ := hlose
      cases hcall
    · intro u _ v hu hkept hsem
      obtain ⟨d', horigin, rfl⟩ := hsem
      obtain rfl : d = d' := by simpa [origin, hu.working] using horigin
      obtain ⟨hkeeps, htells⟩ := hu.tells hkept htold
      exact ⟨hkeeps, fun t hothers _ => ⟨told ++ [number], by simpa using htold,
        htells.others hothers⟩⟩

/-- **The fan-out** tells everyone, or nobody where its read fails. -/
theorem safe_runSyncSha {event : WebhookEvent} {request : SyncShaRequest}
    (h : FansOut own d event request none [] w) :
    (deliveryOutline own).Safe (.repository request.repositoryId) (runSyncSha request)
      (FanOutEnds own d event request) w := by
  intro u hothers hkept
  have hu := h.others hothers
  refine ⟨trivial, fun answer v hsem => ?_, fun v hlose => ?_⟩
  · obtain ⟨error, rfl, rfl⟩ | ⟨d', rows, horigin, rfl, hrows, rfl⟩ := hsem
    · exact ⟨⟨hkept, fun j _ => .refl j v⟩, fun t hothers _ => hu.others hothers⟩
    · obtain rfl : d = d' := by simpa [origin, hu.working] using horigin
      obtain ⟨hkeeps, hanswered⟩ := hu.answered rows hkept fun row hrow => by
        rw [hrows] at hrow
        simpa [PrRecord.At] using (List.mem_filter.1 hrow).2
      refine ⟨hkeeps, ?_⟩
      change (deliveryOutline own).Safe _ ((Prog.forEach _ _).bind _) _ _
      refine .bind ((safe_tellEach hanswered).mono fun result t _ ht => ?_)
      obtain ⟨rfl, ht⟩ := ht
      exact fun a hothers _ => ⟨rows, ht.others hothers⟩
  · obtain ⟨-, rfl⟩ := hlose
    exact ⟨⟨hkept, fun j _ => .refl j v⟩, .refl _ v⟩

/-- How a worker's program ends. -/
theorem handover_fanOut {event : WebhookEvent} {request : SyncShaRequest}
    {result : Except HandlerError ℕ} (hkept : Kept own w)
    (h : FanOutEnds own d event request result w) :
    (deliveryOutline own).handover (.repository request.repositoryId) result w := by
  cases result with
  | ok _ =>
    rintro v rfl
    obtain ⟨rows, hw⟩ := h
    have hfailed : w.failed d = none := congrArg DeliveryView.failed hw.view
    refine hw.finished w.failed hkept (fun _ _ => rfl) ?_
    rw [hfailed]
    exact .told hw.dispatched (hw.atCommit rows rfl)
  | error error =>
    rintro v ⟨job, hjob, rfl⟩
    have hw : FansOut own d event request none [] w := h
    obtain rfl : (d, request) = job := Option.some.inj (hw.working.symm.trans hjob)
    refine hw.finished _ hkept (fun d' hd => Function.update_of_ne hd _ _) ?_
    rw [Function.update_self]
    exact .failed error hw.dispatched

theorem handover_dispatch {result : Except HandlerError (Option Sent)} (hkept : Kept own w)
    (h : w.Ended own d result) : (deliveryOutline own).handover (.dispatcher d) result w := by
  rintro v rfl
  refine ⟨⟨hkept.course, fun d' other hother => ?_⟩, fun j _ => ⟨fun _ _ => id,
    fun _ => List.prefix_rfl, ?_⟩⟩
  · by_cases hd : d' = d
    · subst hd
      obtain rfl : result = other := by simpa using hother
      exact ⟨h.outcome, h.sent⟩
    · simp only [Function.update_of_ne hd] at hother
      obtain ⟨houtcome, hsent⟩ := hkept.dispatched d' other hother
      exact ⟨houtcome, hsent⟩
  · cases j with
    | dispatcher d' => exact fun _ => id
    | repository r => exact fun _ hjob => ⟨hjob, rfl⟩

/-! ## What is begun -/

/-- A delivery accepted. -/
theorem accepted (event : WebhookEvent) (hkept : Kept own w) (hnone : w.accepted d = none) :
    (deliveryOutline own).Keeps (.dispatcher d) w
        { w with accepted := Function.update w.accepted d (some event) } ∧
      DeliveryWorld.view { w with accepted := Function.update w.accepted d (some event) } d =
        .fresh event := by
  have hunknown := (hkept.course d).eq_unknown hnone
  have hview : DeliveryWorld.view { w with accepted := Function.update w.accepted d (some event) } d =
      .fresh event := by
    have hself : DeliveryWorld.view
        { w with accepted := Function.update w.accepted d (some event) } d =
          { w.view d with accepted := some event } := by simp [DeliveryWorld.view]
    rw [hself, hunknown]
    rfl
  refine ⟨keeps_moved (d := d) hkept ⟨fun d' hd => ?_, fun _ _ => rfl, fun event hevent => ?_,
    List.prefix_rfl, rfl⟩ ⟨fun event hfresh => ?_, fun r request hworking => ?_⟩ ?_, hview⟩
  · simp [DeliveryWorld.view, Function.update_of_ne hd]
  · rw [hnone] at hevent
    cases hevent
  · cases hunknown.symm.trans hfresh
  · have hworking := working_view hworking
    rw [hunknown] at hworking
    cases hworking
  · rw [hview]
    exact .fresh event

/-- A commit waits once, with its repository. -/
theorem waiting_once {request : SyncShaRequest} {before after : List (String × ℕ × SyncShaRequest)}
    (hkept : Kept own w) (hwaiting : w.waiting = before ++ (d, r, request) :: after) :
    r = request.repositoryId ∧ (before ++ after).filter (fun message => message.1 = d) = [] ∧
      ∃ event, w.view d = .queued event request ∧
        dispatch own event = .ok (some (.syncSha request.repositoryId request)) := by
  have hmine : (w.view d).waiting =
      (before.filter fun message => message.1 = d).map Prod.snd ++
        (r, request) :: (after.filter fun message => message.1 = d).map Prod.snd := by
    simp [DeliveryWorld.view, hwaiting]
  obtain ⟨event, request', hqueued, hdispatch⟩ := (hkept.course d).eq_queued (by simp [hmine])
  have hone := hmine.symm.trans (congrArg DeliveryView.waiting hqueued)
  obtain ⟨hbefore, hjob⟩ | ⟨-, hnil⟩ := List.append_eq_singleton_iff.1 hone
  · obtain ⟨hmessage, hafter⟩ := List.cons.inj hjob
    obtain ⟨rfl, rfl⟩ := Prod.mk.inj hmessage
    rw [List.map_eq_nil_iff] at hbefore hafter
    exact ⟨rfl, by rw [List.filter_append, hbefore, hafter, List.nil_append], event, hqueued,
      hdispatch⟩
  · cases hnil

/-- A commit taken up by its repository's object. -/
theorem takenUp {event : WebhookEvent} {request : SyncShaRequest}
    {before after : List (String × ℕ × SyncShaRequest)} (hkept : Kept own w)
    (hidle : w.working request.repositoryId = none)
    (hwaiting : w.waiting = before ++ (d, request.repositoryId, request) :: after)
    (hothers : (before ++ after).filter (fun message => message.1 = d) = [])
    (hqueued : w.view d = .queued event request)
    (hdispatch : dispatch own event = .ok (some (.syncSha request.repositoryId request))) :
    (deliveryOutline own).Keeps (.repository request.repositoryId) w
        { w with
          waiting := before ++ after
          working := Function.update w.working request.repositoryId (some (d, request)) } ∧
      FansOut own d event request none []
        { w with
          waiting := before ++ after
          working := Function.update w.working request.repositoryId (some (d, request)) } := by
  have hview : DeliveryWorld.view { w with
        waiting := before ++ after
        working := Function.update w.working request.repositoryId (some (d, request)) } d =
      .fanning event request none [] := by
    have hworking (r : ℕ) : workOf d
        (Function.update w.working request.repositoryId (some (d, request)) r) =
          Function.update (fun _ => none) request.repositoryId (some request) r := by
      by_cases hr : r = request.repositoryId
      · subst hr
        simp [workOf]
      · rw [Function.update_of_ne hr, Function.update_of_ne hr]
        exact congrFun (congrArg DeliveryView.working hqueued) r
    have hself : DeliveryWorld.view { w with
          waiting := before ++ after
          working := Function.update w.working request.repositoryId (some (d, request)) } d =
        { w.view d with
          waiting := []
          working := Function.update (fun _ => none) request.repositoryId (some request) } := by
      simp only [DeliveryWorld.view, hothers, hworking, List.map_nil]
    rw [hself, hqueued]
    rfl
  refine ⟨keeps_moved (d := d) hkept ⟨fun d' hd => ?_, fun r hr => ?_, fun _ => id,
    List.prefix_rfl, rfl⟩ ⟨fun event hfresh => ?_, fun r request' hworking => ?_⟩ ?_,
    hdispatch, Function.update_self .., hview, nofun⟩
  · have hold : ∀ old ∈ w.working request.repositoryId, old.1 = d := by
      rw [hidle]
      exact nofun
    have hnew : ∀ new ∈ some (d, request), new.1 = d := by
      rintro _ ⟨⟩
      rfl
    simp [DeliveryWorld.view, hwaiting, hd.symm, workOf_update hd hold hnew]
  · refine Function.update_of_ne ?_ _ _
    rintro rfl
    exact hr rfl
  · cases hqueued.symm.trans hfresh
  · have hworking := working_view hworking
    rw [hqueued] at hworking
    cases hworking
  · rw [hview]
    exact .fanning hdispatch nofun List.nil_prefix

theorem deliveryOutline_valid (own : ℕ) : (deliveryOutline own).Valid where
  init := by
    rintro w ⟨hnothing, hsent, hwaiting, hworking⟩
    refine ⟨fun d => ?_, fun d result hresult => ?_⟩
    · obtain ⟨haccepted, -, hread, hfailed⟩ := hnothing d
      have hview : w.view d = ⟨none, [], [], fun _ => none, none, none⟩ := by
        simp only [DeliveryWorld.view, haccepted, hsent, hwaiting, hworking, hread, hfailed]
        rfl
      rw [hview]
      exact .unknown
    · rw [(hnothing d).2.1] at hresult
      cases hresult
  env := by
    rintro w _ hkept ⟨rows, rfl⟩
    refine ⟨⟨hkept.course, fun d result hresult => ?_⟩, fun i => ⟨fun _ _ => id,
      fun _ => List.prefix_rfl, ?_⟩⟩
    · obtain ⟨houtcome, hsent⟩ := hkept.dispatched d result hresult
      exact ⟨houtcome, hsent⟩
    · cases i with
      | dispatcher d => exact fun _ => id
      | repository r => exact fun _ hjob => ⟨hjob, rfl⟩
  start := by
    intro i p w w' hkept hstart
    cases i with
    | dispatcher d =>
      obtain ⟨event, hnone, rfl, rfl⟩ := hstart
      obtain ⟨hkeeps, hfresh⟩ := accepted event hkept hnone
      exact ⟨hkeeps, (safe_dispatch hfresh).mono fun result u hu => handover_dispatch hu⟩
    | repository r =>
      obtain ⟨d, request, before, after, hidle, hwaiting, rfl, rfl⟩ := hstart
      obtain ⟨rfl, hothers, event, hqueued, hdispatch⟩ := waiting_once hkept hwaiting
      obtain ⟨hkeeps, hfans⟩ := takenUp hkept hidle hwaiting hothers hqueued hdispatch
      exact ⟨hkeeps, (safe_runSyncSha hfans).mono fun result u hu => handover_fanOut hu⟩

/-! ## What is told of a delivery -/

/-- Everything that is to be sent of a delivery, by what was read of the
projection. -/
def concerned (own : ℕ) (event : WebhookEvent) (read : Option (List PrRecord)) : List Sent :=
  match dispatch own event with
  | .ok (some (.syncSha repositoryId request)) =>
    .syncSha repositoryId request :: (planned request read).map request.tell
  | .ok (some message) => [message]
  | _ => []

/-- A delivery nobody is at work on, or is to take up. -/
structure DeliveryWorld.Settled (d : String) (w : DeliveryWorld) : Prop where
  dispatched : (w.dispatched d).isSome
  waiting : (w.view d).waiting = []
  working : ∀ r, (w.view d).working r = none

/-- What is told of a delivery, however far it has got. -/
structure DeliveryWorld.Told (own : ℕ) (d : String) (event : WebhookEvent) (w : DeliveryWorld) :
    Prop where
  /-- Only those concerned, and in turn. -/
  sent : (w.view d).sent <+: concerned own event (w.read d)
  /-- Nobody twice. -/
  once : (w.view d).sent.Nodup
  /-- What was read is at the commit. -/
  atCommit : ∀ rows ∈ w.read d, ∃ request, dispatch own event =
    .ok (some (.syncSha request.repositoryId request)) ∧ ∀ row ∈ rows, row.At request
  /-- Everyone, in the end. -/
  settled : w.Settled d → w.failed d = none → (w.view d).sent = concerned own event (w.read d) ∧
    ∀ repositoryId request, dispatch own event = .ok (some (.syncSha repositoryId request)) →
      (w.read d).isSome
  /-- Nobody, by a fan-out that failed. -/
  failed : (w.failed d).isSome → (w.view d).sent = concerned own event none

theorem concerned_of_syncSha {event : WebhookEvent} {request : SyncShaRequest}
    (h : dispatch own event = .ok (some (.syncSha request.repositoryId request)))
    (read : Option (List PrRecord)) : concerned own event read =
      .syncSha request.repositoryId request :: (planned request read).map request.tell := by
  rw [concerned, h]

theorem concerned_of_passed {event : WebhookEvent} {message : Sent}
    (h : dispatch own event = .ok (some message)) (hhanded : message.handed = [])
    (read : Option (List PrRecord)) : concerned own event read = [message] := by
  rw [concerned, h]
  cases message with
  | syncSha repositoryId request => cases hhanded
  | _ => rfl

theorem nodup_planned (request : SyncShaRequest) (read : Option (List PrRecord)) :
    (planned request read).Nodup := by
  cases read with
  | none => exact List.nodup_nil
  | some rows => exact nodup_toldNumbers request rows

/-- Nobody concerned is concerned twice. -/
theorem nodup_concerned (own : ℕ) (event : WebhookEvent) (read : Option (List PrRecord)) :
    (concerned own event read).Nodup := by
  unfold concerned
  split
  · rename_i repositoryId request _
    refine List.nodup_cons.2 ⟨fun hmem => ?_, (nodup_planned request read).map request.tell_injective⟩
    obtain ⟨number, -, htell⟩ := List.mem_map.1 hmem
    cases htell
  · exact List.nodup_singleton _
  · exact List.nodup_nil

namespace DeliveryCourse

variable {view : DeliveryView} {event : WebhookEvent}

theorem sent_prefix (h : DeliveryCourse own view) (haccepted : view.accepted = some event) :
    view.sent <+: concerned own event view.read := by
  cases h with
  | unknown => cases haccepted
  | fresh => exact List.nil_prefix
  | passed hdispatch hhanded =>
    cases haccepted
    rw [concerned_of_passed hdispatch hhanded]
    exact List.prefix_rfl
  | queued hdispatch =>
    cases haccepted
    rw [concerned_of_syncSha hdispatch]
    exact List.prefix_rfl
  | fanning hdispatch _ htold =>
    cases haccepted
    rw [concerned_of_syncSha hdispatch]
    exact List.cons_prefix_cons.2 ⟨rfl, htold.map _⟩
  | failed _ hdispatch =>
    cases haccepted
    rw [concerned_of_syncSha hdispatch]
    exact List.prefix_rfl
  | told hdispatch _ =>
    cases haccepted
    rw [concerned_of_syncSha hdispatch]
    exact List.prefix_rfl

theorem atCommit (h : DeliveryCourse own view) (haccepted : view.accepted = some event) :
    ∀ rows ∈ view.read, ∃ request, dispatch own event =
      .ok (some (.syncSha request.repositoryId request)) ∧ ∀ row ∈ rows, row.At request := by
  cases h with
  | fanning hdispatch hrows _ =>
    cases haccepted
    exact fun rows hread => ⟨_, hdispatch, hrows rows hread⟩
  | told hdispatch hrows =>
    cases haccepted
    rintro _ ⟨⟩
    exact ⟨_, hdispatch, hrows⟩
  | _ => exact nofun

/-- Once nobody is at work on it and nothing failed, everyone concerned is
told. -/
theorem settled (h : DeliveryCourse own view) (haccepted : view.accepted = some event)
    (hwaiting : view.waiting = []) (hworking : ∀ r, view.working r = none)
    (hfailed : view.failed = none)
    (hsent : ∀ message, dispatch own event = .ok (some message) → view.sent ≠ []) :
    view.sent = concerned own event view.read ∧ ∀ repositoryId request,
      dispatch own event = .ok (some (.syncSha repositoryId request)) → view.read.isSome := by
  cases h with
  | unknown => cases haccepted
  | fresh =>
    cases haccepted
    have hnone (message : Sent) : dispatch own event ≠ .ok (some message) :=
      fun hdispatch => hsent message hdispatch rfl
    refine ⟨?_, fun _ _ hdispatch => absurd hdispatch (hnone _)⟩
    unfold concerned
    split
    · rename_i hdispatch
      exact absurd hdispatch (hnone _)
    · rename_i hdispatch
      exact absurd hdispatch (hnone _)
    · rfl
  | passed hdispatch hhanded =>
    cases haccepted
    refine ⟨(concerned_of_passed hdispatch hhanded none).symm, fun repositoryId request hother => ?_⟩
    obtain rfl := Option.some.inj (Except.ok.inj (hdispatch.symm.trans hother))
    cases hhanded
  | queued => cases hwaiting
  | @fanning _ request _ _ =>
    have hnone : Function.update (fun _ => none) request.repositoryId (some request)
        request.repositoryId = none := hworking request.repositoryId
    rw [Function.update_self] at hnone
    cases hnone
  | failed => cases hfailed
  | told hdispatch _ =>
    cases haccepted
    exact ⟨(concerned_of_syncSha hdispatch (some _)).symm, fun _ _ _ => rfl⟩

theorem failed_nobody (h : DeliveryCourse own view) (haccepted : view.accepted = some event)
    (hfailed : view.failed.isSome) : view.sent = concerned own event none := by
  cases h with
  | failed _ hdispatch =>
    cases haccepted
    exact (concerned_of_syncSha hdispatch none).symm
  | _ => cases hfailed

end DeliveryCourse

theorem told_of_kept {event : WebhookEvent} (hkept : Kept own w)
    (haccepted : w.accepted d = some event) : w.Told own d event := by
  have hcourse := hkept.course d
  have hsent := hcourse.sent_prefix haccepted
  refine ⟨hsent, hsent.sublist.nodup (nodup_concerned own event _), hcourse.atCommit haccepted,
    fun hsettled hfailed => ?_, hcourse.failed_nobody haccepted⟩
  obtain ⟨result, hresult⟩ := Option.isSome_iff_exists.1 hsettled.dispatched
  have hended := hkept.dispatched d result hresult
  obtain ⟨other, hother, houtcome⟩ := hended.outcome
  obtain rfl : event = other := Option.some.inj (haccepted.symm.trans hother)
  exact hcourse.settled haccepted hsettled.waiting hsettled.working hfailed
    fun message hdispatch => hended.sent message (houtcome.trans hdispatch)

/-- **A delivery is told once to everyone it concerns.** -/
theorem delivery_told {s : Journaled.State (fun _ : DeliveryWorker => DeliveryEffects) HandlerError
      DeliveryWorker.Result DeliveryWorld} (hs : Journaled.Reach (deliverySystem own) s) (d : String) :
    (s.world.accepted d = none → (s.world.view d).sent = []) ∧
      (∀ event, s.world.accepted d = some event → s.world.Told own d event) ∧
        ∀ event result, s.world.accepted d = some event → s.world.dispatched d = some result →
          result = dispatch own event := by
  have hkept : Kept own s.world := Journaled.reach_inv (deliveryOutline_valid own) hs
  refine ⟨fun hnone => ?_, fun event => told_of_kept hkept, fun event result hevent hresult => ?_⟩
  · rw [(hkept.course d).eq_unknown hnone]
  · obtain ⟨other, hother, houtcome⟩ := (hkept.dispatched d result hresult).outcome
    obtain rfl : event = other := Option.some.inj (hevent.symm.trans hother)
    exact houtcome

/-! ### A check completed on a commit -/

/-- GitHub names pull request 12 of the commit. -/
def sampleCheckRun : WebhookEvent :=
  ⟨.checkRun, some "completed", some 1, some 7, some "acme", some "api", none, some "abc123", [12]⟩

/-- The projection has pull request 9 at it. -/
def sampleAtHead : PrRecord :=
  ⟨"7#9", 7, "acme", "api", 9, "Bump serde", "https://github.com/acme/api/pull/9", none, none,
    none, [], .unknown, "abc123", .pending, .unknown, [], 1, 1, 1⟩

/-- What the dispatcher sends of it to the repository's object. -/
def sampleShaRequest : SyncShaRequest := ⟨7, "acme", "api", "abc123", [12]⟩

/-- The fan-out dies with one of the two told, and is run again. -/
theorem sampleDelivery_reach : ∃ s, Journaled.Reach (deliverySystem 1) s ∧
    s.world.accepted "guid" = some sampleCheckRun ∧
    (s.world.view "guid").sent =
      [.syncSha 7 sampleShaRequest, sampleShaRequest.tell 9, sampleShaRequest.tell 12] ∧
    s.world.Settled "guid" ∧ s.world.failed "guid" = none := by
  have h₀ : Journaled.Reach (deliverySystem 1) ⟨⟨fun _ => none, fun _ => none, [], [], fun _ => none,
      fun _ => none, fun _ => none, [sampleAtHead]⟩, fun _ => none⟩ :=
    .init ⟨fun _ => ⟨rfl, rfl, rfl, rfl⟩, rfl, rfl, fun _ => rfl⟩
  have h₁ := h₀.invoke (.dispatcher "guid") _ rfl ⟨sampleCheckRun, rfl, rfl, rfl⟩
  have h₂ := h₁.answer (.dispatcher "guid") (.send (.syncSha 7 sampleShaRequest)) () rfl
    ⟨"guid", rfl, rfl⟩
  have h₃ := h₂.done (.dispatcher "guid") (some (.syncSha 7 sampleShaRequest)) rfl rfl
  have h₄ := h₃.invoke (.repository 7) _ rfl ⟨"guid", sampleShaRequest, [], [], rfl, rfl, rfl, rfl⟩
  have h₅ := h₄.answer (.repository 7) (.pullRequestsAt 7 "abc123") (.ok [sampleAtHead]) rfl
    (.inr ⟨"guid", [sampleAtHead], rfl, rfl, rfl, rfl⟩)
  have h₆ := h₅.answer (.repository 7) (.send (sampleShaRequest.tell 9)) () rfl ⟨"guid", rfl, rfl⟩
  have h₇ := h₆.step (.crash (i := .repository 7) rfl)
  have h₈ := h₇.step (.rerun (i := .repository 7) rfl (.cons (.cons (.nil _))))
  have h₉ := h₈.answer (.repository 7) (.send (sampleShaRequest.tell 12)) () rfl ⟨"guid", rfl, rfl⟩
  have h₁₀ := h₉.done (.repository 7) (2 : ℕ) rfl rfl
  refine ⟨_, h₁₀, rfl, rfl, ⟨rfl, rfl, fun r => ?_⟩, rfl⟩
  by_cases hr : r = 7
  · subst hr
    rfl
  · simp [DeliveryWorld.view, DeliveryWorld.post, workOf]

/-- The two are told, each once, and nobody else. -/
theorem delivery_told_sample : ∃ s, Journaled.Reach (deliverySystem 1) s ∧
    (s.world.view "guid").sent =
      [.syncSha 7 sampleShaRequest, sampleShaRequest.tell 9, sampleShaRequest.tell 12] ∧
    (s.world.view "guid").sent = concerned 1 sampleCheckRun (s.world.read "guid") := by
  obtain ⟨s, hreach, haccepted, hsent, hsettled, hfailed⟩ := sampleDelivery_reach
  exact ⟨s, hreach, hsent,
    (((delivery_told hreach "guid").2.1 sampleCheckRun haccepted).settled hsettled hfailed).1⟩

end Dependaboard
