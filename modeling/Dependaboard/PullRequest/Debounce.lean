import Dependaboard.Durable.System
import Dependaboard.PullRequest.RowFirst
/-!
# The pull request — what the debounce promises

One object under any mix of its handlers, a clock that moves on by itself,
and the trailing syncs the object sent itself, each delivered once and no
earlier than it was due. The mark `syncPending` stands for a trailing sync on its way.

What the mark promises is `Promised`: a trailing sync due a whole window
after the last sync. It is why a trailing sync delivered while the mark is
set either reads GitHub or leaves another behind it.

The clock and the object's state can always be read when a sync starts;
every other call may fail.
-/

namespace Dependaboard

open Durable

/-- A sync the object sent itself, and when it may be delivered. -/
structure Trailing where
  request : SyncRequest
  due : ℕ
  deriving DecidableEq

/-- What started the handler that holds the object. -/
inductive Delivery where
  | event
  | trailing (sync : Trailing)

/-- An event answered `Debounced`: how many reads of GitHub had begun, and
how often the state had been cleared. -/
structure Coalesced where
  fetches : ℕ
  clears : ℕ

/-- One object, the clock, and the trailing syncs not delivered yet. One is
delivered once its handler has ended. -/
structure DebounceWorld where
  clock : ℕ
  /-- The object's durable state. -/
  object : Option PrState
  /-- What the handler that holds the object was started by. -/
  serving : Option Delivery
  trailing : List Trailing
  /-- How many reads of GitHub have begun. -/
  fetches : ℕ
  /-- How often the state has been cleared. -/
  clears : ℕ
  /-- Every event answered `Debounced`. -/
  coalesced : List Coalesced

namespace DebounceWorld

/-- What the object stands for. -/
def held (w : DebounceWorld) : PrState := w.object.getD default

/-- The clock moves on. -/
def wait (w : DebounceWorld) (n : ℕ) : DebounceWorld := { w with clock := w.clock + n }

/-- The trailing syncs on their way once the one being served is
delivered. -/
def remaining (w : DebounceWorld) : List Trailing :=
  match w.serving with
  | some (.trailing sync) => w.trailing.erase sync
  | _ => w.trailing

/-- A handler that ended in `result` gives the object up. -/
def release (w : DebounceWorld) (result : Except HandlerError HandlerAnswer) : DebounceWorld :=
  { w with
    serving := none
    trailing := w.remaining
    coalesced := match result with
      | .ok (.sync .debounced) => w.coalesced ++ [⟨w.fetches, w.clears⟩]
      | _ => w.coalesced }

/-- **What the mark promises**: a trailing sync on its way, due a whole
window after the last sync. -/
def Promised (debounce : ℕ) (w : DebounceWorld) : Prop :=
  ∃ last, w.held.lastSyncedAt = some last ∧ ∃ sync ∈ w.trailing, last + debounce ≤ sync.due

/-- The mark is set only where its promise is kept. -/
def Marked (debounce : ℕ) (w : DebounceWorld) : Prop := w.held.syncPending → w.Promised debounce

end DebounceWorld

open DebounceWorld

/-- How the calls of a handler are answered. A snapshot is stamped while
GitHub is read, and a read has begun however it ends. -/
def debounceSem : (call : PullRequestCall) → DebounceWorld → call.Answer → DebounceWorld → Prop
  | .now step, w, answer, w' =>
    w' = w ∧ (answer = .ok w.clock ∨ step ≠ "sync-clock" ∧ ∃ error, answer = .error error)
  | .state, w, answer, w' => w' = w ∧ answer = .ok w.object
  | .setState state, w, _, w' => w' = { w with object := some state }
  | .clearState, w, _, w' => w' = { w with object := none, clears := w.clears + 1 }
  | .scheduleSync _ request after, w, _, w' => w' = match after with
    | some after => { w with trailing := w.trailing ++ [⟨request, w.clock + after⟩] }
    | none => w
  | .fetchSnapshot _ _, w, answer, w' =>
    (∃ n, w' = { w.wait n with fetches := w.fetches + 1 }) ∧
      ∀ snapshot, answer = .ok (.ok (some snapshot)) → snapshot.syncedAt ≤ w'.clock
  | .merge _ _, w, _, w' => w' = w
  | .postCommand _, w, _, w' => w' = w
  | .updateBranch _, w, _, w' => w' = w
  | .upsertProjection _, w, _, w' => w' = w
  | .deleteProjection _ _, w, _, w' => w' = w
  | .repositoryMergeMethod _, w, _, w' => w' = w

/-- **One object and its trailing syncs.** Any event may arrive while the
object is idle; a trailing sync once it is due. -/
def debounceSystem (object : PullRequestObject) :
    System (fun _ : Unit => PullRequestEffects) HandlerError (fun _ => HandlerAnswer)
      DebounceWorld where
  init w := w.object = none ∧ w.serving = none ∧ w.trailing = [] ∧ w.coalesced = []
  start _ handler w w' := w.serving = none ∧
    ((∃ invocation : Invocation, invocation.Addresses object.key ∧
        handler = invocation.handler object ∧ w' = { w with serving := some .event }) ∨
      ∃ sync ∈ w.trailing, sync.due ≤ w.clock ∧
        handler = (Invocation.sync sync.request).handler object ∧
        w' = { w with serving := some (.trailing sync) })
  sem _ := debounceSem
  lose _ _ _ _ := False
  finish _ result w w' := w' = w.release result
  env w w' := ∃ n, w' = w.wait n

/-- The event is behind it: GitHub has been read since, the state has been
cleared since, or a trailing sync is on its way. -/
def Coalesced.Covered (event : Coalesced) (w : DebounceWorld) : Prop :=
  event.fetches < w.fetches ∨ event.clears < w.clears ∨ w.trailing ≠ []

/-- What every reachable world keeps. -/
structure DebounceInv (debounce : ℕ) (w : DebounceWorld) : Prop where
  stamped : ∀ last, w.held.lastSyncedAt = some last → last ≤ w.clock
  counted : ∀ event ∈ w.coalesced, event.fetches ≤ w.fetches ∧ event.clears ≤ w.clears
  covered : ∀ event ∈ w.coalesced, event.Covered w
  due : ∀ sync, w.serving = some (.trailing sync) → sync.due ≤ w.clock
  idle : w.serving = none → w.Marked debounce

/-- The outline: time passes, and the mark is set only where its promise is
kept, but for the moment before the trailing sync is sent. -/
def debounceOutline (object : PullRequestObject) : Outline (debounceSystem object) where
  inv := DebounceInv object.debounce
  rely _ w w' := ∃ n, w' = w.wait n
  rely_refl _ w := ⟨0, rfl⟩
  rely_trans := by
    rintro _ u _ _ ⟨n, rfl⟩ ⟨m, rfl⟩
    exact ⟨n + m, by simp only [wait, Nat.add_assoc]⟩
  shows _ call w := (∀ key request after, call ≠ .scheduleSync key request after) →
    w.Marked object.debounce

variable {object : PullRequestObject} {debounce : ℕ} {delivery : Delivery} {u v w : DebounceWorld}

namespace DebounceInv

/-- Time passing breaks nothing. -/
theorem wait (h : DebounceInv debounce w) (n : ℕ) : DebounceInv debounce (w.wait n) where
  stamped last hlast := (h.stamped last hlast).trans (Nat.le_add_right _ _)
  counted := h.counted
  covered := h.covered
  due sync hsync := (h.due sync hsync).trans (Nat.le_add_right _ _)
  idle := h.idle

theorem setState (h : DebounceInv debounce w) (hserving : w.serving ≠ none) {state : PrState}
    (hstamped : ∀ last, state.lastSyncedAt = some last → last ≤ w.clock) :
    DebounceInv debounce { w with object := some state } :=
  ⟨hstamped, h.counted, h.covered, h.due, fun hidle => absurd hidle hserving⟩

/-- A clear is behind every event before it. -/
theorem clear (h : DebounceInv debounce w) :
    DebounceInv debounce { w with object := none, clears := w.clears + 1 } where
  stamped _ hlast := absurd hlast.symm (Option.some_ne_none _)
  counted event hevent := ⟨(h.counted event hevent).1, Nat.le_succ_of_le (h.counted event hevent).2⟩
  covered event hevent := .inr (.inl (Nat.lt_succ_of_le (h.counted event hevent).2))
  due := h.due
  idle _ hpending := by cases hpending

theorem schedule (h : DebounceInv debounce w) (hserving : w.serving ≠ none) (sync : Trailing) :
    DebounceInv debounce { w with trailing := w.trailing ++ [sync] } where
  stamped := h.stamped
  counted := h.counted
  covered _ _ := .inr (.inr (List.append_ne_nil_of_right_ne_nil _ (List.cons_ne_nil _ _)))
  due := h.due
  idle hidle := absurd hidle hserving

/-- A read of GitHub is behind every event before it. -/
theorem fetch (h : DebounceInv debounce w) (n : ℕ) :
    DebounceInv debounce { w.wait n with fetches := w.fetches + 1 } where
  stamped := (h.wait n).stamped
  counted event hevent := ⟨Nat.le_succ_of_le (h.counted event hevent).1, (h.counted event hevent).2⟩
  covered event hevent := .inl (Nat.lt_succ_of_le (h.counted event hevent).1)
  due := (h.wait n).due
  idle := h.idle

end DebounceInv

/-! ## Calls -/

/-- What a handler may assert between its calls. -/
structure Lasting (object : PullRequestObject) (P : DebounceWorld → Prop) : Prop where
  busy : ∀ w, P w → w.serving ≠ none
  wait : ∀ w n, P w → P (w.wait n)

/-- The object serves `delivery`, holds `held`, and keeps its promise. -/
structure At (object : PullRequestObject) (delivery : Delivery) (held : Option PrState)
    (w : DebounceWorld) : Prop where
  serving : w.serving = some delivery
  holds : w.object = held
  marked : w.Marked object.debounce

theorem At.lasting (delivery : Delivery) (held : Option PrState) :
    Lasting object (At object delivery held) where
  busy w hw := by rw [hw.serving]; exact Option.some_ne_none _
  wait w n hw := ⟨hw.serving, hw.holds, hw.marked⟩

namespace Debounced

variable {α : Type} {post : Except HandlerError α → DebounceWorld → Prop}

/-- **The rule of a handler's call**: from one assertion to another, the
mark's promise kept where the call is asked for. -/
theorem safe_ask {call : PullRequestCall} {k : call.Answer → PullRequestM α}
    {P : DebounceWorld → Prop} {Q : call.Answer → DebounceWorld → Prop} (hP : P w)
    (hlasting : Lasting object P)
    (hmarked : ∀ u, P u → (∀ key request after, call ≠ .scheduleSync key request after) →
      u.Marked object.debounce)
    (hstep : ∀ u answer v, P u → DebounceInv object.debounce u → debounceSem call u answer v →
      DebounceInv object.debounce v ∧ Q answer v)
    (hk : ∀ answer v, Q answer v → (debounceOutline object).Safe () (k answer) post v) :
    (debounceOutline object).Safe () (Prog.ask (S := PullRequestEffects) call k) post w := by
  refine Outline.Safe.ask hP ?_ (fun _ _ => id) (fun u hu _ => hmarked u hu) ?_
  · rintro u _ hu ⟨n, rfl⟩ -
    exact hlasting.wait u n hu
  · intro u answer v hu hinv hsem
    obtain ⟨hv, hQ⟩ := hstep u answer v hu hinv hsem
    exact ⟨⟨hv, fun j hj => absurd (Subsingleton.elim j ()) hj⟩, hk answer v hQ⟩

/-- A call the object does not see. -/
theorem safe_quiet {call : PullRequestCall} {k : call.Answer → PullRequestM α}
    {held : Option PrState} (hw : At object delivery held w)
    (hquiet : ∀ u answer v, debounceSem call u answer v → v = u)
    (hk : ∀ answer v, At object delivery held v →
      (debounceOutline object).Safe () (k answer) post v) :
    (debounceOutline object).Safe () (Prog.ask (S := PullRequestEffects) call k) post w := by
  refine safe_ask (Q := fun _ => At object delivery held) hw (At.lasting _ _)
    (fun _ hu _ => hu.marked) (fun u answer v hu hinv hsem => ?_) hk
  obtain rfl := hquiet u answer v hsem
  exact ⟨hinv, hu⟩

/-- The object's own state, read. -/
theorem safe_state {P : DebounceWorld → Prop} {held : Option PrState}
    {f : Option PrState → PullRequestM α} (hP : P w) (hlasting : Lasting object P)
    (hmarked : ∀ u, P u → u.Marked object.debounce) (hholds : ∀ u, P u → u.object = held)
    (hk : ∀ v, P v → (debounceOutline object).Safe () (f held) post v) :
    (debounceOutline object).Safe () (PullRequestM.state.bind f) post w := by
  refine safe_ask (Q := fun answer v => answer = .ok held ∧ P v) hP hlasting
    (fun u hu _ => hmarked u hu) ?_ ?_
  · rintro u answer v hu hinv ⟨rfl, rfl⟩
    exact ⟨hinv, congrArg Except.ok (hholds _ hu), hu⟩
  · rintro answer v ⟨rfl, hv⟩
    exact hk v hv

/-- A state written with the same mark and stamp. -/
theorem safe_setState {held : Option PrState} {state : PrState} {f : Unit → PullRequestM α}
    (hw : At object delivery held w)
    (hpending : state.syncPending → (held.getD default).syncPending)
    (hlast : state.lastSyncedAt = (held.getD default).lastSyncedAt)
    (hk : ∀ v, At object delivery (some state) v →
      (debounceOutline object).Safe () (f ()) post v) :
    (debounceOutline object).Safe () ((PullRequestM.setState state).bind f) post w := by
  refine safe_ask (Q := fun _ => At object delivery (some state)) hw (At.lasting _ _)
    (fun _ hu _ => hu.marked) ?_ fun _ => hk
  rintro u answer v ⟨hserving, rfl, hmarked⟩ hinv rfl
  have hbusy : u.serving ≠ none := by rw [hserving]; exact Option.some_ne_none _
  refine ⟨hinv.setState hbusy fun last h => hinv.stamped last (hlast.symm.trans h), hserving, rfl,
    fun h => ?_⟩
  obtain ⟨last, hheld, hsync⟩ := hmarked (hpending h)
  exact ⟨last, hlast.trans hheld, hsync⟩

/-- The state forgotten. -/
theorem safe_clearState {held : Option PrState} {f : Unit → PullRequestM α}
    (hw : At object delivery held w)
    (hk : ∀ v, At object delivery none v → (debounceOutline object).Safe () (f ()) post v) :
    (debounceOutline object).Safe () (PullRequestM.clearState.bind f) post w := by
  refine safe_ask (Q := fun _ => At object delivery none) hw (At.lasting _ _)
    (fun _ hu _ => hu.marked) ?_ fun _ => hk
  rintro u answer v hu hinv rfl
  exact ⟨hinv.clear, hu.serving, rfl, fun h => by cases h⟩

end Debounced

/-! ## The sync -/

/-- A sync started by `delivery` has read the clock at `now`: no earlier
than a trailing sync it is the delivery of was due. -/
structure Dated (object : PullRequestObject) (delivery : Delivery) (now : ℕ)
    (held : Option PrState) (w : DebounceWorld) : Prop where
  at_ : At object delivery held w
  past : now ≤ w.clock
  due : ∀ sync, delivery = .trailing sync → sync.due ≤ now

/-- The mark is set, and its trailing sync is to be sent next. -/
structure Marking (delivery : Delivery) (now last : ℕ) (w : DebounceWorld) : Prop where
  serving : w.serving = some delivery
  last : w.held.lastSyncedAt = some last
  past : now ≤ w.clock
  due : ∀ sync, delivery = .trailing sync → sync.due ≤ now

/-- The event is coalesced behind a trailing sync that is not this one. -/
structure Behind (object : PullRequestObject) (delivery : Delivery) (w : DebounceWorld) :
    Prop where
  serving : w.serving = some delivery
  another : ∃ last, w.held.lastSyncedAt = some last ∧
    ∃ sync ∈ w.trailing, last + object.debounce ≤ sync.due ∧ delivery ≠ .trailing sync

/-- A read of GitHub has begun, behind every event answered so far, and the
mark is clear. -/
structure Fetched (delivery : Delivery) (w : DebounceWorld) : Prop where
  serving : w.serving = some delivery
  clear : w.held.syncPending = false
  behind : ∀ event ∈ w.coalesced, event.fetches < w.fetches

theorem Dated.lasting (delivery : Delivery) (now : ℕ) (held : Option PrState) :
    Lasting object (Dated object delivery now held) where
  busy w hw := (At.lasting delivery held).busy w hw.at_
  wait w n hw := ⟨(At.lasting delivery held).wait w n hw.at_,
    hw.past.trans (Nat.le_add_right _ _), hw.due⟩

theorem Marking.lasting (delivery : Delivery) (now last : ℕ) :
    Lasting object (Marking delivery now last) where
  busy w hw := by rw [hw.serving]; exact Option.some_ne_none _
  wait w n hw := ⟨hw.serving, hw.last, hw.past.trans (Nat.le_add_right _ _), hw.due⟩

theorem Fetched.lasting (object : PullRequestObject) (delivery : Delivery) :
    Lasting object (Fetched delivery) where
  busy w hw := by rw [hw.serving]; exact Option.some_ne_none _
  wait w n hw := ⟨hw.serving, hw.clear, hw.behind⟩

/-- GitHub has been read, and the clock has passed `bound`. -/
structure FetchedPast (delivery : Delivery) (bound : ℕ) (w : DebounceWorld) : Prop where
  fetched : Fetched delivery w
  bound : bound ≤ w.clock

theorem FetchedPast.lasting (delivery : Delivery) (bound : ℕ) :
    Lasting object (FetchedPast delivery bound) where
  busy w hw := (Fetched.lasting object delivery).busy w hw.fetched
  wait w n hw := ⟨(Fetched.lasting object delivery).wait w n hw.fetched,
    hw.bound.trans (Nat.le_add_right _ _)⟩

/-- A clear mark promises nothing. -/
theorem Fetched.marked (h : Fetched delivery w) : w.Marked debounce := by
  intro hpending
  rw [h.clear] at hpending
  cases hpending

/-- What a sync leaves: an event coalesced behind another trailing sync, or
a read of GitHub begun. -/
def SyncEnds (object : PullRequestObject) (delivery : Delivery)
    (r : Except HandlerError SyncOutcome) (w : DebounceWorld) : Prop :=
  r = .ok .debounced ∧ Behind object delivery w ∨ r ≠ .ok .debounced ∧ Fetched delivery w

/-- Time passing leaves it so. -/
theorem SyncEnds.wait {r : Except HandlerError SyncOutcome} (h : SyncEnds object delivery r w)
    (n : ℕ) : SyncEnds object delivery r (w.wait n) := by
  rcases h with ⟨hr, hserving, hanother⟩ | ⟨hr, hfetched⟩
  · exact .inl ⟨hr, hserving, hanother⟩
  · exact .inr ⟨hr, (Fetched.lasting object delivery).wait w n hfetched⟩

/-- What the debounce window is. -/
theorem lt_of_debounced {bypass : Bool} {held : Option ℕ} {now debounce : ℕ}
    (h : shouldDebounceSync bypass held now debounce) :
    ∃ last, held = some last ∧ now < last + debounce := by
  unfold shouldDebounceSync at h
  cases held with
  | none => simp at h
  | some last =>
    simp only [Option.any_some, Bool.and_eq_true, decide_eq_true_eq] at h
    exact ⟨last, rfl, by omega⟩

namespace Debounced

/-- A call the object does not see, GitHub read before it. -/
theorem safe_after {α : Type} {call : PullRequestCall} {k : call.Answer → PullRequestM α}
    {post : Except HandlerError α → DebounceWorld → Prop} {bound : ℕ}
    (hw : FetchedPast delivery bound w)
    (hquiet : ∀ u answer v, debounceSem call u answer v → v = u)
    (hk : ∀ answer v, FetchedPast delivery bound v →
      (debounceOutline object).Safe () (k answer) post v) :
    (debounceOutline object).Safe () (Prog.ask (S := PullRequestEffects) call k) post w := by
  refine safe_ask (Q := fun _ => FetchedPast delivery bound) hw (FetchedPast.lasting delivery bound)
    (fun _ hu _ => hu.fetched.marked) (fun u answer v hu hinv hsem => ?_) hk
  obtain rfl := hquiet u answer v hsem
  exact ⟨hinv, hu⟩

/-- A sync that fails once GitHub has been read. -/
theorem safe_failed (error : HandlerError) (hw : Fetched delivery w) :
    (debounceOutline object).Safe () (.fail error : PullRequestM SyncOutcome)
      (SyncEnds object delivery) w := by
  rintro u ⟨n, rfl⟩ -
  exact SyncEnds.wait (.inr ⟨fun h => (by cases h), hw⟩) n

/-- A sync that ends once GitHub has been read. -/
theorem safe_ended {outcome : SyncOutcome} (houtcome : outcome ≠ .debounced)
    (hw : Fetched delivery w) :
    (debounceOutline object).Safe () (.done outcome : PullRequestM SyncOutcome)
      (SyncEnds object delivery) w := by
  rintro u ⟨n, rfl⟩ -
  exact SyncEnds.wait (.inr ⟨fun h => houtcome (Except.ok.inj h), hw⟩) n

/-- The trailing sync sent, the event is behind it. -/
theorem safe_scheduleSync {now last : ℕ} {key : PrKey} {request : SyncRequest}
    (hw : Marking delivery now last w) (hlate : now < last + object.debounce) :
    (debounceOutline object).Safe ()
      ((PullRequestM.scheduleSync key request (some object.debounce)).bind fun _ =>
        .done .debounced) (SyncEnds object delivery) w := by
  refine safe_ask (Q := fun _ => Behind object delivery) hw (Marking.lasting delivery now last)
    (fun _ _ hcall => absurd rfl (hcall key request (some object.debounce))) ?_ ?_
  · rintro u answer v ⟨hserving, hlast, hpast, hdue⟩ hinv rfl
    have hbusy : u.serving ≠ none := by rw [hserving]; exact Option.some_ne_none _
    have hstamped := hinv.stamped last hlast
    refine ⟨hinv.schedule hbusy _, hserving, last, hlast, _,
      List.mem_append_right _ (List.mem_singleton.2 rfl), ?_, ?_⟩
    · exact Nat.add_le_add_right hstamped _
    · -- a sync due by now is not due a whole window from now
      rintro rfl
      have := hdue _ rfl
      simp only at this
      omega
  · rintro answer v hv u ⟨n, rfl⟩ -
    exact SyncEnds.wait (.inl ⟨rfl, hv⟩) n

/-- **An event inside the window is coalesced** behind a trailing sync: the
one the mark stands for, or one sent now. -/
theorem safe_coalesce {now : ℕ} {held : Option PrState} {request : SyncRequest}
    (hw : Dated object delivery now held w)
    (hdebounced : shouldDebounceSync request.bypassDebounce (held.getD default).lastSyncedAt now
      object.debounce) :
    (debounceOutline object).Safe ()
      (if !(held.getD default).syncPending then
        (PullRequestM.setState { held.getD default with syncPending := true }).bind fun _ =>
          (PullRequestM.scheduleSync (requestKey request) request (some object.debounce)).bind
            fun _ => .done .debounced
      else .done .debounced) (SyncEnds object delivery) w := by
  obtain ⟨last, hlast, hlate⟩ := lt_of_debounced hdebounced
  split
  · refine safe_ask (Q := fun _ => Marking delivery now last) hw (Dated.lasting delivery now held)
      (fun _ hu _ => hu.at_.marked) ?_ fun _ v hv => safe_scheduleSync hv hlate
    rintro u answer v ⟨⟨hserving, rfl, -⟩, hpast, hdue⟩ hinv rfl
    have hbusy : u.serving ≠ none := by rw [hserving]; exact Option.some_ne_none _
    exact ⟨hinv.setState hbusy hinv.stamped, hserving, hlast, hpast, hdue⟩
  · rename_i hpending
    rintro u ⟨n, rfl⟩ -
    have hlasting : Lasting object (Dated object delivery now held) := Dated.lasting _ _ _
    obtain ⟨⟨hserving, rfl, hmarked⟩, -, hdue⟩ := hlasting.wait w n hw
    obtain ⟨last', hlast', sync, hsync, hwindow⟩ := hmarked (by simpa [DebounceWorld.held] using hpending)
    obtain rfl : last = last' := Option.some.inj (hlast.symm.trans hlast')
    refine .inl ⟨rfl, hserving, last, hlast, sync, hsync, hwindow, fun hsame => ?_⟩
    have := hdue sync hsame
    omega

/-- **A sync outside the window clears the mark and reads GitHub.** -/
theorem safe_read {now : ℕ} {held : Option PrState} {request : SyncRequest}
    (hw : Dated object delivery now held w) :
    (debounceOutline object).Safe ()
      ((PullRequestM.setState { held.getD default with syncPending := false }).bind fun _ =>
        (PullRequestM.fetchSnapshot request (held.getD default).snapshot.isSome).bind fun fetched =>
          (Prog.ofExcept (eligibleSnapshot fetched)).bind fun snapshot =>
            match snapshot with
            | none =>
              (PullRequestM.deleteProjection "delete-ineligible-pr-projection"
                (requestKey request)).bind fun _ =>
                PullRequestM.clearState.bind fun _ => .done .deleted
            | some snapshot =>
              (PullRequestM.upsertProjection snapshot).bind fun _ =>
                (PullRequestM.setState (({ held.getD default with syncPending := false } :
                  PrState).synced request snapshot)).bind
                    fun _ => .done (.synced snapshot.headSha))
      (SyncEnds object delivery) w := by
  refine safe_setState hw.at_ (fun h => by cases h) rfl fun w₁ hw₁ => ?_
  refine safe_ask (Q := fun answer v => Fetched delivery v ∧ ∀ snapshot,
    answer = .ok (.ok (some snapshot)) → snapshot.syncedAt ≤ v.clock) hw₁ (At.lasting _ _)
    (fun _ hu _ => hu.marked) ?_ ?_
  · rintro u answer v ⟨hserving, hholds, -⟩ hinv ⟨⟨n, rfl⟩, hstamped⟩
    -- the state stands as it was set, the mark cleared, when GitHub answers
    have hclear : u.held.syncPending = false := by rw [DebounceWorld.held, hholds]; rfl
    exact ⟨hinv.fetch n, ⟨hserving, hclear,
      fun event hevent => Nat.lt_succ_of_le (hinv.counted event hevent).1⟩, hstamped⟩
  · rintro answer w₂ ⟨hw₂, hstamped⟩
    cases answer with
    | error error => exact safe_failed error hw₂
    | ok fetched =>
      simp only [Prog.ofExcept_ok, Prog.done_bind]
      cases heligible : eligibleSnapshot fetched with
      | error error => exact safe_failed error hw₂
      | ok snapshot =>
        cases snapshot with
        | none =>
          -- no longer eligible: the row goes first, then the state
          have hpast : FetchedPast delivery 0 w₂ := ⟨hw₂, Nat.zero_le _⟩
          refine safe_after hpast (fun _ _ _ h => h) fun answer w₃ hw₃ => ?_
          cases answer with
          | error error => exact safe_failed error hw₃.fetched
          | ok _ =>
            refine safe_ask (Q := fun _ => Fetched delivery) hw₃.fetched
              (Fetched.lasting object delivery) (fun _ hu _ => hu.marked) ?_
              fun _ w₄ hw₄ => safe_ended (by simp) hw₄
            rintro u answer v hu hinv rfl
            exact ⟨hinv.clear, hu.serving, rfl, hu.behind⟩
        | some snapshot =>
          -- the snapshot is stamped no later than the clock it is kept under
          have hbound := hstamped snapshot (congrArg Except.ok (eligibleSnapshot_some heligible))
          refine safe_after ⟨hw₂, hbound⟩ (fun _ _ _ h => h) fun answer w₃ hw₃ => ?_
          cases answer with
          | error error => exact safe_failed error hw₃.fetched
          | ok _ =>
            refine safe_ask (Q := fun _ => Fetched delivery) hw₃ (FetchedPast.lasting delivery _)
              (fun _ hu _ => hu.fetched.marked) ?_ fun _ w₄ hw₄ => safe_ended (by simp) hw₄
            rintro u answer v ⟨hu, hpast⟩ hinv rfl
            refine ⟨hinv.setState ((Fetched.lasting object delivery).busy u hu) fun last hlast => ?_,
              hu.serving, ?_, hu.behind⟩
            · rw [PrState.synced_lastSyncedAt] at hlast
              exact Option.some.inj hlast ▸ hpast
            · exact PrState.synced_syncPending _ _ _

/-- **A sync ends behind a trailing sync, or behind a read of GitHub.** -/
theorem safe_runSync {held : Option PrState} {request : SyncRequest}
    (hw : At object delivery held w) : (debounceOutline object).Safe ()
      (runSync request object.debounce) (SyncEnds object delivery) w := by
  unfold runSync
  refine safe_ask (Q := fun answer v => ∃ now, answer = .ok now ∧ Dated object delivery now held v)
    hw (At.lasting delivery held) (fun _ hu _ => hu.marked) ?_ ?_
  · rintro u answer v hu hinv ⟨rfl, rfl | ⟨hstep, -⟩⟩
    · exact ⟨hinv, _, rfl, hu, le_rfl, fun sync hsync => hinv.due sync (hsync ▸ hu.serving)⟩
    · exact absurd rfl hstep
  · rintro answer v ⟨now, rfl, hv⟩
    refine safe_state hv (Dated.lasting delivery now held) (fun _ hu => hu.at_.marked)
      (fun _ hu => hu.at_.holds) fun v₁ hv₁ => ?_
    dsimp only
    split
    · exact safe_coalesce hv₁ ‹_›
    · exact safe_read hv₁

/-! ## The other handlers -/

/-- A handler that ends where the mark's promise is kept. -/
theorem safe_done {α : Type} (a : α) {held : Option PrState} (hw : At object delivery held w) :
    (debounceOutline object).Safe () (.done a) (fun _ u => ∃ held, At object delivery held u) w := by
  rintro u ⟨n, rfl⟩ -
  exact ⟨held, (At.lasting _ _).wait w n hw⟩

theorem safe_fail {α : Type} (error : HandlerError) {held : Option PrState}
    (hw : At object delivery held w) : (debounceOutline object).Safe ()
      (.fail error : PullRequestM α) (fun _ u => ∃ held, At object delivery held u) w := by
  rintro u ⟨n, rfl⟩ -
  exact ⟨held, (At.lasting _ _).wait w n hw⟩

/-- A call the object does not see, whose failure is the handler's. -/
theorem safe_try {α β : Type} (call : PullRequestCall) {held : Option PrState}
    (answered : call.Answer → Except HandlerError β) {f : β → PullRequestM α}
    (hw : At object delivery held w) (hquiet : ∀ u answer v, debounceSem call u answer v → v = u)
    (hk : ∀ b v, At object delivery held v → (debounceOutline object).Safe () (f b)
      (fun _ u => ∃ held, At object delivery held u) v) :
    (debounceOutline object).Safe ()
      (Prog.ask (S := PullRequestEffects) call fun answer => (Prog.ofExcept (answered answer)).bind f)
      (fun _ u => ∃ held, At object delivery held u) w := by
  refine safe_quiet hw hquiet fun answer v hv => ?_
  cases answered answer with
  | ok b => exact hk b v hv
  | error error => exact safe_fail error hv

theorem safe_now {α : Type} {step : String} {held : Option PrState} {f : ℕ → PullRequestM α}
    (hw : At object delivery held w)
    (hk : ∀ now v, At object delivery held v → (debounceOutline object).Safe () (f now)
      (fun _ u => ∃ held, At object delivery held u) v) :
    (debounceOutline object).Safe () ((PullRequestM.now step).bind f)
      (fun _ u => ∃ held, At object delivery held u) w :=
  safe_try (.now step) id hw (fun _ _ _ h => h.1) hk

/-- The log a handler leaves, and its answer. -/
theorem safe_log {α : Type} {step : String} {held : Option PrState} {state : PrState}
    {entry : ℕ → ActionLog} {rest : PullRequestM α} (hw : At object delivery held w)
    (hpending : state.syncPending = (held.getD default).syncPending)
    (hlast : state.lastSyncedAt = (held.getD default).lastSyncedAt)
    (hrest : ∀ now v, At object delivery (some (state.pushHistory (entry now))) v →
      (debounceOutline object).Safe () rest (fun _ u => ∃ held, At object delivery held u) v) :
    (debounceOutline object).Safe () ((PullRequestM.now step).bind fun now =>
      (PullRequestM.setState (state.pushHistory (entry now))).bind fun _ => rest)
      (fun _ u => ∃ held, At object delivery held u) w :=
  safe_now hw fun now _ hv =>
    safe_setState hv (fun h => hpending ▸ h) hlast fun _ hu => hrest now _ hu

theorem safe_runClosed {text : String} {request : ClosedRequest} {held : Option PrState}
    (hw : At object delivery held w) : (debounceOutline object).Safe () (runClosed text request)
      (fun _ u => ∃ held, At object delivery held u) w := by
  unfold runClosed
  cases (PrKey.parse text).mapError HandlerError.terminal with
  | error error => exact safe_fail error hw
  | ok key =>
    refine safe_state hw (At.lasting _ _) (fun _ hu => hu.marked) (fun _ hu => hu.holds)
      fun v hv => ?_
    split
    · exact safe_done ClosedOutcome.kept hv
    · refine safe_try (.deleteProjection _ key) id hv (fun _ _ _ h => h) fun _ v₁ hv₁ => ?_
      exact safe_clearState hv₁ fun v₂ hv₂ => safe_done ClosedOutcome.retired hv₂

theorem safe_runMerge {request : MergeRequest} {held : Option PrState}
    (hw : At object delivery held w) : (debounceOutline object).Safe () (runMerge request)
      (fun _ u => ∃ held, At object delivery held u) w := by
  unfold runMerge
  refine safe_state hw (At.lasting _ _) (fun _ hu => hu.marked) (fun _ hu => hu.holds)
    fun v hv => ?_
  dsimp only
  split
  · exact safe_done _ hv
  · refine safe_try (.repositoryMergeMethod _) id hv (fun _ _ _ h => h) fun mergeMethod v₁ hv₁ => ?_
    refine safe_try (.merge request _) id hv₁ (fun _ _ _ h => h) fun result v₂ hv₂ => ?_
    cases mergeResult result with
    | error error => exact safe_fail error hv₂
    | ok outcome =>
      simp only [Prog.ofExcept_ok, Prog.bind_eq, Prog.done_bind]
      split
      · refine safe_try (.deleteProjection _ _) id hv₂ (fun _ _ _ h => h) fun _ v₃ hv₃ => ?_
        exact safe_log hv₃ rfl rfl fun _ v₄ hv₄ => safe_done outcome hv₄
      · exact safe_log hv₂ rfl rfl fun _ v₄ hv₄ => safe_done outcome hv₄

theorem safe_runCommand {canPostCommands : Bool} {request : CommandRequest}
    {held : Option PrState} (hw : At object delivery held w) : (debounceOutline object).Safe ()
      (runCommand canPostCommands request) (fun _ u => ∃ held, At object delivery held u) w := by
  unfold runCommand
  refine safe_state hw (At.lasting _ _) (fun _ hu => hu.marked) (fun _ hu => hu.holds)
    fun v hv => ?_
  dsimp only
  split
  · exact safe_done _ hv
  · refine safe_try (.postCommand request) id hv (fun _ _ _ h => h) fun result v₁ hv₁ => ?_
    cases actionResult result with
    | error error => exact safe_fail error hv₁
    | ok outcome =>
      exact safe_log hv₁ rfl rfl fun _ v₂ hv₂ => safe_done outcome hv₂

theorem safe_runUpdateBranch {request : UpdateBranchRequest} {held : Option PrState}
    (hw : At object delivery held w) : (debounceOutline object).Safe () (runUpdateBranch request)
      (fun _ u => ∃ held, At object delivery held u) w := by
  unfold runUpdateBranch
  refine safe_state hw (At.lasting _ _) (fun _ hu => hu.marked) (fun _ hu => hu.holds)
    fun v hv => ?_
  dsimp only
  split
  · exact safe_done _ hv
  · refine safe_try (.updateBranch request) id hv (fun _ _ _ h => h) fun result v₁ hv₁ => ?_
    cases actionResult result with
    | error error => exact safe_fail error hv₁
    | ok outcome =>
      refine safe_log hv₁ rfl rfl fun _ v₂ hv₂ => ?_
      split
      · -- the follow-up sync is an event like any other
        refine safe_quiet hv₂ (fun _ _ _ h => h) fun _ v₃ hv₃ => ?_
        exact safe_done outcome hv₃
      · exact safe_done outcome hv₂

end Debounced

/-! ## Their ends -/

/-- A trailing sync that is not the one served stays on its way. -/
theorem DebounceWorld.mem_remaining {sync : Trailing} (hsync : sync ∈ w.trailing)
    (hserving : w.serving ≠ some (.trailing sync)) : sync ∈ w.remaining := by
  unfold remaining
  split
  · rename_i served hserved
    refine (List.mem_erase_of_ne ?_).2 hsync
    rintro rfl
    exact hserving hserved
  · exact hsync

/-- What the object promises once given up it promised before. -/
theorem DebounceWorld.Marked.of_release {result : Except HandlerError HandlerAnswer}
    (h : (w.release result).Marked debounce) : w.Marked debounce := by
  intro hpending
  obtain ⟨last, hlast, sync, hsync, hdue⟩ := h hpending
  refine ⟨last, hlast, sync, ?_, hdue⟩
  change sync ∈ w.remaining at hsync
  unfold remaining at hsync
  split at hsync
  · exact List.mem_of_mem_erase hsync
  · exact hsync

/-- A handler that ended otherwise than by coalescing adds no event. -/
theorem DebounceWorld.coalesced_release {result : Except HandlerError HandlerAnswer}
    (h : result ≠ .ok (.sync .debounced)) : (w.release result).coalesced = w.coalesced := by
  unfold release
  dsimp only
  split
  · exact absurd rfl h
  · rfl

/-- **An object given up with its events covered and its promise kept.** -/
theorem DebounceInv.release (h : DebounceInv debounce w)
    {result : Except HandlerError HandlerAnswer}
    (hcovered : ∀ event ∈ (w.release result).coalesced, event.Covered (w.release result))
    (hmarked : (w.release result).Marked debounce) :
    DebounceInv debounce (w.release result) where
  stamped := h.stamped
  counted event hevent := by
    unfold DebounceWorld.release at hevent
    dsimp only at hevent
    split at hevent
    · rcases List.mem_append.1 hevent with hold | hnew
      · exact h.counted event hold
      · obtain rfl := List.mem_singleton.1 hnew
        exact ⟨le_rfl, le_rfl⟩
    · exact h.counted event hevent
  covered := hcovered
  due _ hserving := by cases hserving
  idle _ := hmarked

/-- An event's own handler gives the object up with nothing delivered. -/
theorem At.release {held : Option PrState} (hinv : DebounceInv object.debounce w)
    (hw : At object .event held w) {result : Except HandlerError HandlerAnswer}
    (hresult : result ≠ .ok (.sync .debounced)) :
    DebounceInv object.debounce (w.release result) := by
  have hremaining : w.remaining = w.trailing := by rw [remaining, hw.serving]
  refine hinv.release ?_ fun hpending => ?_
  · rw [coalesced_release hresult]
    intro event hevent
    show event.fetches < w.fetches ∨ event.clears < w.clears ∨ w.remaining ≠ []
    rw [hremaining]
    exact hinv.covered event hevent
  · obtain ⟨last, hlast, sync, hsync, hdue⟩ := hw.marked hpending
    exact ⟨last, hlast, sync, show sync ∈ w.remaining from hremaining ▸ hsync, hdue⟩

/-- **A sync gives the object up** with another trailing sync on its way, or
with GitHub read since every event. -/
theorem SyncEnds.release {result : Except HandlerError SyncOutcome}
    (hinv : DebounceInv object.debounce w) (hw : SyncEnds object delivery result w) :
    DebounceInv object.debounce (w.release (result.map .sync)) := by
  rcases hw with ⟨rfl, hserving, last, hlast, sync, hsync, hdue, hother⟩ |
    ⟨hresult, hserving, hclear, hbehind⟩
  · have hmem : sync ∈ w.remaining := by
      refine mem_remaining hsync ?_
      rw [hserving]
      exact fun h => hother (Option.some.inj h)
    refine hinv.release (fun event _ => .inr (.inr (List.ne_nil_of_mem hmem))) fun _ => ?_
    exact ⟨last, hlast, sync, hmem, hdue⟩
  · have hnot : result.map HandlerAnswer.sync ≠ .ok (.sync .debounced) := by
      cases result with
      | ok outcome =>
        intro h
        cases h
        exact hresult rfl
      | error error => exact fun h => by cases h
    refine hinv.release ?_ fun hpending => ?_
    · rw [coalesced_release hnot]
      exact fun event hevent => .inl (hbehind event hevent)
    · exact absurd (hclear.symm.trans hpending) Bool.false_ne_true

/-- A handler that is no sync hands over what it leaves. -/
theorem At.handover {α : Type} {handler : PullRequestM α}
    {answer : α → HandlerAnswer} (hanswer : ∀ a, answer a ≠ .sync .debounced)
    (h : (debounceOutline object).Safe () handler (fun _ u => ∃ held, At object .event held u) w) :
    (debounceOutline object).Safe () (handler.bind fun a => .done (answer a))
      ((debounceOutline object).handover ()) w := by
  have hgive : ∀ u result, DebounceInv object.debounce u → (∃ held, At object .event held u) →
      result ≠ .ok (.sync .debounced) → (debounceOutline object).handover () result u := by
    rintro u result hinv ⟨_, hu⟩ hresult _ rfl
    exact ⟨At.release hinv hu hresult, fun j hj => absurd (Subsingleton.elim j ()) hj⟩
  refine .bind (h.mono fun r u hinv hu => ?_)
  cases r with
  | ok a =>
    rintro _ ⟨n, rfl⟩ hinv'
    obtain ⟨held, hu⟩ := hu
    refine hgive _ _ hinv' ⟨held, (At.lasting _ _).wait u n hu⟩ fun h => hanswer a ?_
    exact Except.ok.inj h
  | error error => exact hgive u _ hinv hu fun h => by cases h

/-- A sync hands over what it leaves. -/
theorem handover_runSync {held : Option PrState} {request : SyncRequest}
    (hw : At object delivery held w) : (debounceOutline object).Safe ()
      ((Invocation.sync request).handler object) ((debounceOutline object).handover ()) w := by
  rw [Invocation.handler_sync]
  refine .bind ((Debounced.safe_runSync hw).mono fun r u hinv hu => ?_)
  cases r with
  | ok outcome =>
    rintro _ ⟨n, rfl⟩ hinv' _ rfl
    exact ⟨SyncEnds.release hinv' (hu.wait n), fun j hj => absurd (Subsingleton.elim j ()) hj⟩
  | error error =>
    rintro _ rfl
    exact ⟨SyncEnds.release hinv hu, fun j hj => absurd (Subsingleton.elim j ()) hj⟩

/-- **The outline of the debounce holds.** -/
theorem debounceOutline_valid (object : PullRequestObject) : (debounceOutline object).Valid where
  init w hw := by
    obtain ⟨hobject, hserving, -, hcoalesced⟩ := hw
    have hheld : w.held = default := by rw [held, hobject]; rfl
    refine ⟨fun last hlast => ?_, ?_, ?_, ?_, fun _ hpending => ?_⟩
    · rw [hheld] at hlast
      exact absurd hlast.symm (Option.some_ne_none _)
    · simp [hcoalesced]
    · simp [hcoalesced]
    · simp [hserving]
    · rw [hheld] at hpending
      exact absurd hpending Bool.false_ne_true
  env w _ hw henv := by
    obtain ⟨n, rfl⟩ := henv
    exact ⟨hw.wait n, fun _ => ⟨n, rfl⟩⟩
  start _ handler w w' hw hstart := by
    have hkeeps : DebounceInv object.debounce w' → (debounceOutline object).Keeps () w w' :=
      fun h => ⟨h, fun j hj => absurd (Subsingleton.elim j ()) hj⟩
    obtain ⟨hidle, ⟨invocation, -, rfl, rfl⟩ | ⟨sync, hsync, hdue, rfl, rfl⟩⟩ := hstart
    · have hat : At object .event w.object { w with serving := some .event } :=
        ⟨rfl, rfl, hw.idle hidle⟩
      refine ⟨hkeeps ⟨hw.stamped, hw.counted, hw.covered, fun _ h => (by cases h),
        fun h => (by cases h)⟩, ?_⟩
      cases invocation with
      | sync request => exact handover_runSync hat
      | closed request =>
        rw [Invocation.handler_closed]
        generalize toString object.key = text
        exact At.handover (fun _ h => by cases h) (Debounced.safe_runClosed hat)
      | merge request => exact At.handover (fun _ h => by cases h) (Debounced.safe_runMerge hat)
      | command request =>
        exact At.handover (fun _ h => by cases h) (Debounced.safe_runCommand hat)
      | updateBranch request =>
        exact At.handover (fun _ h => by cases h) (Debounced.safe_runUpdateBranch hat)
    · have hat : At object (.trailing sync) w.object { w with serving := some (.trailing sync) } :=
        ⟨rfl, rfl, hw.idle hidle⟩
      refine ⟨hkeeps ⟨hw.stamped, hw.counted, hw.covered, fun other h => ?_, fun h => (by cases h)⟩,
        handover_runSync hat⟩
      cases h
      exact hdue

/-- No handler runs in an idle object. -/
theorem DebounceWorld.serving_of_idle
    {s : System.State (fun _ : Unit => PullRequestEffects) HandlerError (fun _ => HandlerAnswer)
      DebounceWorld} (hs : (debounceSystem object).Reach s) :
    s.slots () = none → s.world.serving = none := by
  induction hs with
  | init hw => exact fun _ => hw.2.1
  | step _ hst ih =>
    cases hst with
    | start => intro hidle; simp at hidle
    | answer => intro hidle; simp at hidle
    | lose _ hlose => exact hlose.elim
    | done _ hfinish => obtain rfl := hfinish; exact fun _ => rfl
    | fail _ hfinish => obtain rfl := hfinish; exact fun _ => rfl
    | env henv => obtain ⟨n, rfl⟩ := henv; exact ih

/-- **Debouncing loses no event.** Wherever a run has got to, but for the
moment between the mark and the sync it stands for: while the mark is set, a
trailing sync is on its way. And every event answered `Debounced` has GitHub
read since, the state cleared since, or a trailing sync on its way. -/
theorem debounce_loses_no_event
    {s : System.State (fun _ : Unit => PullRequestEffects) HandlerError (fun _ => HandlerAnswer)
      DebounceWorld} (hs : (debounceSystem object).Reach s) :
    ((∀ key request after k, s.slots () ≠ some (.ask (.scheduleSync key request after) k)) →
        s.world.held.syncPending → s.world.trailing ≠ []) ∧
      ∀ event ∈ s.world.coalesced, event.Covered s.world := by
  have hholds := (debounceOutline_valid object).reach hs
  have hinv : DebounceInv object.debounce s.world := hholds.inv
  refine ⟨fun hsending hpending => ?_, hinv.covered⟩
  have hmarked : s.world.Marked object.debounce := by
    cases hslot : s.slots () with
    | none => exact hinv.idle (DebounceWorld.serving_of_idle hs hslot)
    | some handler =>
      cases handler with
      | done answer =>
        have hkeeps := hholds.safe () _ hslot s.world ⟨0, rfl⟩ hinv (s.world.release (.ok answer)) rfl
        exact DebounceWorld.Marked.of_release (hkeeps.inv.idle rfl)
      | fail error =>
        have hkeeps :=
          hholds.safe () _ hslot s.world ⟨0, rfl⟩ hinv (s.world.release (.error error)) rfl
        exact DebounceWorld.Marked.of_release (hkeeps.inv.idle rfl)
      | ask call k =>
        refine hholds.shows hslot fun key request after hcall => ?_
        subst hcall
        exact hsending key request after k hslot
  obtain ⟨-, -, sync, hsync, -⟩ := hmarked hpending
  exact List.ne_nil_of_mem hsync

/-! ## An event behind a sync

The pull request is synced at 30; an event at 30 is coalesced behind a
trailing sync due at 45. -/

/-- The world before. -/
def sampleStill : DebounceWorld := ⟨30, none, none, [], 0, 0, []⟩

/-- The world with the event coalesced. -/
def sampleStorm : DebounceWorld :=
  ⟨30, some { (default : PrState).synced sampleSync (sampleRow 30) with syncPending := true }, none,
    [⟨sampleSync, 45⟩], 1, 0, [⟨1, 0⟩]⟩

theorem sampleStorm_reach : ∃ slots, (debounceSystem sampleObject).Reach ⟨sampleStorm, slots⟩ ∧
    slots () = none := by
  have h₀ : (debounceSystem sampleObject).Reach ⟨sampleStill, fun _ => none⟩ :=
    .init ⟨rfl, rfl, rfl, rfl⟩
  have h₁ := h₀.start () ((Invocation.sync sampleSync).handler sampleObject) rfl
    ⟨rfl, .inl ⟨.sync sampleSync, rfl, rfl, rfl⟩⟩
  have h₂ := h₁.answer () (.now "sync-clock") (.ok 30) rfl ⟨rfl, .inl rfl⟩
  have h₃ := h₂.answer () .state (.ok none) rfl ⟨rfl, rfl⟩
  have h₄ := h₃.answer () (.setState default) () rfl rfl
  have h₅ := h₄.answer () (.fetchSnapshot sampleSync false) (.ok (.ok (some (sampleRow 30)))) rfl
    ⟨⟨0, rfl⟩, fun snapshot h => by cases h; decide⟩
  have h₆ := h₅.answer () (.upsertProjection (sampleRow 30)) (.ok ()) rfl rfl
  have h₇ := h₆.answer () (.setState ((default : PrState).synced sampleSync (sampleRow 30))) ()
    rfl rfl
  have h₈ := h₇.done () rfl rfl
  have h₉ := h₈.start () ((Invocation.sync sampleSync).handler sampleObject) rfl
    ⟨rfl, .inl ⟨.sync sampleSync, rfl, rfl, rfl⟩⟩
  have h₁₀ := h₉.answer () (.now "sync-clock") (.ok 30) rfl ⟨rfl, .inl rfl⟩
  have h₁₁ := h₁₀.answer () .state
    (.ok (some ((default : PrState).synced sampleSync (sampleRow 30)))) rfl ⟨rfl, rfl⟩
  have h₁₂ := h₁₁.answer () (.setState
    { (default : PrState).synced sampleSync (sampleRow 30) with syncPending := true }) () rfl rfl
  have h₁₃ := h₁₂.answer () (.scheduleSync ⟨1, 1⟩ sampleSync (some 15)) () rfl rfl
  have h₁₄ := h₁₃.done () rfl rfl
  exact ⟨_, h₁₄, rfl⟩

/-- The mark stands for the trailing sync, and the event waits for it. -/
theorem debounce_loses_no_event_sample :
    sampleStorm.held.syncPending ∧ sampleStorm.trailing ≠ [] ∧
      ∀ event ∈ sampleStorm.coalesced, event.Covered sampleStorm := by
  obtain ⟨slots, hreach, hidle⟩ := sampleStorm_reach
  obtain ⟨hpromise, hcovered⟩ := debounce_loses_no_event hreach
  have hquiet : ∀ key request after k,
      slots () ≠ some (.ask (.scheduleSync key request after) k) := by
    intro key request after k
    rw [hidle]
    exact (Option.some_ne_none _).symm
  exact ⟨rfl, hpromise hquiet rfl, hcovered⟩

end Dependaboard
