import Dependaboard.Core.PrState
import Dependaboard.Durable.Exchange
import Dependaboard.Ui.Batch
/-!
# Ui — a manual sync of one pull request

The dashboard asks Restate for a sync and is handed the id its completion
will be recorded under; it polls the pull request's state until the id is
there, and reads the row back. A fault is waited out, but for the refusal of
the credentials, which ends the sync.
-/

namespace Dependaboard

open Durable

namespace Ui

/-- How long a manual sync is waited for, in seconds. -/
def syncTimeout : ℕ := 60

/-- That time, in polls. -/
def syncPolls : ℕ := syncTimeout / pollInterval

/-- Why a sync did not yield the row. -/
inductive SyncFailure where
  /-- Restate was not asked. -/
  | notQueued (fault : Fault)
  /-- Restate took the sync, and the last poll after it failed. -/
  | unconfirmed (fault : Fault)
  /-- Restate took the sync, and it was not seen to complete in time. -/
  | timedOut
  deriving DecidableEq, Repr

/-- The server refused the credentials. -/
def SyncFailure.signedOut : SyncFailure → Bool
  | notQueued .signedOut | unconfirmed .signedOut => true
  | _ => false

instance : ToString SyncFailure where
  toString
    | .notQueued fault | .unconfirmed fault => toString fault
    | .timedOut => "the sync did not complete within " ++ toString syncTimeout ++ " seconds"

/-! ## The gateway -/

/-- What a sync asks of the server and the clock, and what it says of
itself. -/
inductive SyncCall where
  | request
  | status
  | projection
  | tick
  /-- Restate has taken the sync. -/
  | queued
  deriving DecidableEq, Repr

/-- What each is answered in. -/
@[reducible] def SyncCall.Answer : SyncCall → Type
  | request => Except Fault String
  | status => Except Fault (Option PrState)
  | projection => Except Fault (Option PrRecord)
  | tick => Unit
  | queued => Unit

/-- The interface of a manual sync. -/
@[reducible] def SyncEffects : Signature := ⟨SyncCall, SyncCall.Answer⟩

/-- A manual sync. -/
abbrev SyncM (α : Type) : Type := Prog SyncEffects SyncFailure α

/-- The completion of a sync is recorded in the pull request's state. -/
def syncIdCompleted (state : Option PrState) (completionId : String) : Bool :=
  state.any fun state => state.completedSyncIds.any (· = completionId)

/-- The polls left to a sync, the fault of the last one, if it failed. -/
def pollSync (completionId : String) : (left : ℕ) → (lastFault : Option Fault) →
    SyncM (Option PrRecord)
  | 0, lastFault => .fail (lastFault.elim .timedOut .unconfirmed)
  | left + 1, _ =>
    let waitedOut (fault : Fault) : SyncM (Option PrRecord) :=
      if fault = .signedOut then .fail (.unconfirmed fault)
      else pollSync completionId left (some fault)
    Prog.ask (S := SyncEffects) .tick fun _ =>
      Prog.ask (S := SyncEffects) .status fun
        | .ok state =>
          if syncIdCompleted state completionId then
            Prog.ask (S := SyncEffects) .projection fun
              | .ok row => .done row
              | .error fault => waitedOut fault
          else
            Prog.ask (S := SyncEffects) .projection fun
              | .ok none => .done none
              | .ok (some _) => pollSync completionId left none
              | .error fault => waitedOut fault
        | .error fault => waitedOut fault

/-- Queue a sync and follow it to its end: the row read back, or `none` where
the pull request is no longer in the dashboard. -/
def syncPr : SyncM (Option PrRecord) :=
  Prog.ask (S := SyncEffects) .request fun
    | .ok completionId =>
      Prog.ask (S := SyncEffects) .queued fun _ => pollSync completionId syncPolls none
    | .error fault => .fail (.notQueued fault)

/-! ## Whatever the server answers -/

/-- A call of a sync's, and its answer. -/
abbrev SyncExchange : Type := Exchange SyncEffects

namespace SyncExchange

/-- Restate took the sync. -/
def Accepts : SyncExchange → Prop
  | ⟨.request, .ok _⟩ => True
  | _ => False

/-- The credentials were refused. -/
def Refuses : SyncExchange → Prop
  | ⟨.request, answer⟩ => answer = .error .signedOut
  | ⟨.status, answer⟩ => answer = .error .signedOut
  | ⟨.projection, answer⟩ => answer = .error .signedOut
  | _ => False

end SyncExchange

/-- How often a sync makes a call. -/
def calls (call : SyncCall) (es : List SyncExchange) : ℕ := es.countP fun e => e.1 = call

/-- **What a sync does by any script of answers.** -/
structure SyncKept (es : List SyncExchange) : Prop where
  /-- It is said to be queued once, if it was. -/
  queued : (∃ e ∈ es, e.Accepts) ∧ calls .queued es = 1 ∨
    (∀ e ∈ es, ¬e.Accepts) ∧ calls .queued es = 0
  request : calls .request es = 1
  polls : calls .status es ≤ syncPolls
  /-- No call is made once the credentials are refused. -/
  refused : es.Pairwise fun e _ => ¬e.Refuses

/-- What the polls left to a sync do. -/
structure Polled (left : ℕ) (es : List SyncExchange) : Prop where
  unqueued : calls .queued es = 0
  unasked : calls .request es = 0
  polls : calls .status es ≤ left
  refused : es.Pairwise fun e _ => ¬e.Refuses

theorem Polled.nil (left : ℕ) : Polled left [] := ⟨rfl, rfl, Nat.zero_le _, .nil⟩

/-- One more poll, whose status was asked. -/
theorem Polled.cons {left : ℕ} {es : List SyncExchange} (h : Polled left es)
    {answer : Except Fault (Option PrState)}
    (hanswer : answer = .error .signedOut → es = []) :
    Polled (left + 1) (⟨.tick, ()⟩ :: ⟨.status, answer⟩ :: es) where
  unqueued := by simpa [calls] using h.unqueued
  unasked := by simpa [calls] using h.unasked
  polls := by simpa [calls] using h.polls
  refused := by
    refine .cons (fun _ _ => id) (.cons (fun e he hrefuses => ?_) h.refused)
    rw [hanswer hrefuses] at he
    cases he

/-- The row read. -/
theorem Polled.projection {left : ℕ} {es : List SyncExchange} (h : Polled left es)
    {answer : Except Fault (Option PrRecord)} (hanswer : answer = .error .signedOut → es = []) :
    Polled left (⟨.projection, answer⟩ :: es) where
  unqueued := by simpa [calls] using h.unqueued
  unasked := by simpa [calls] using h.unasked
  polls := by simpa [calls] using h.polls
  refused := by
    refine .cons (fun e he hrefuses => ?_) h.refused
    rw [hanswer hrefuses] at he
    cases he

theorem polled_pollSync {completionId : String} {left : ℕ} {lastFault : Option Fault}
    {es : List SyncExchange} {r : Except SyncFailure (Option PrRecord)}
    (h : (pollSync completionId left lastFault).Exchanges es r) : Polled left es := by
  induction left generalizing lastFault es with
  | zero =>
    obtain ⟨rfl, -⟩ := Prog.exchanges_fail.1 h
    exact .nil 0
  | succ left ih =>
    -- a fault is the last word, or is waited out
    have hwaited {fault : Fault} {es : List SyncExchange}
        (h : (if fault = .signedOut then .fail (.unconfirmed fault)
          else pollSync completionId left (some fault) : SyncM (Option PrRecord)).Exchanges es r) :
        Polled left es ∧ (fault = .signedOut → es = []) := by
      split at h
      · obtain ⟨rfl, -⟩ := Prog.exchanges_fail.1 h
        exact ⟨.nil left, fun _ => rfl⟩
      · rename_i hfault
        exact ⟨ih h, fun h => absurd h hfault⟩
    obtain ⟨_, _, rfl, hticked⟩ := Prog.exchanges_ask.1 h
    obtain ⟨answer, es, rfl, hasked⟩ := Prog.exchanges_ask.1 hticked
    cases answer with
    | error fault =>
      obtain ⟨hrest, hlast⟩ := hwaited hasked
      exact hrest.cons fun h => hlast (Except.error.inj h)
    | ok state =>
      refine Polled.cons ?_ nofun
      dsimp only at hasked
      split at hasked
      · obtain ⟨answer, rest, rfl, hread⟩ := Prog.exchanges_ask.1 hasked
        cases answer with
        | error fault =>
          obtain ⟨hrest, hlast⟩ := hwaited hread
          exact hrest.projection fun h => hlast (Except.error.inj h)
        | ok row =>
          obtain ⟨rfl, -⟩ := Prog.exchanges_done.1 hread
          exact (Polled.nil left).projection nofun
      · obtain ⟨answer, rest, rfl, hread⟩ := Prog.exchanges_ask.1 hasked
        match answer, hread with
        | .error fault, hread =>
          obtain ⟨hrest, hlast⟩ := hwaited hread
          exact hrest.projection fun h => hlast (Except.error.inj h)
        | .ok none, hread =>
          obtain ⟨rfl, -⟩ := Prog.exchanges_done.1 hread
          exact (Polled.nil left).projection nofun
        | .ok (some row), hread => exact (ih hread).projection nofun

/-- **A sync is said to be queued once if it was, polls no longer than it
waits, and asks nothing once it is refused.** -/
theorem kept_syncPr {es : List SyncExchange} {r : Except SyncFailure (Option PrRecord)}
    (h : syncPr.Exchanges es r) : SyncKept es := by
  obtain ⟨answer, rest, rfl, hasked⟩ := Prog.exchanges_ask.1 h
  cases answer with
  | error fault =>
    obtain ⟨rfl, -⟩ := Prog.exchanges_fail.1 hasked
    exact ⟨.inr ⟨by simp [SyncExchange.Accepts], rfl⟩, rfl, Nat.zero_le _, List.pairwise_singleton ..⟩
  | ok completionId =>
    obtain ⟨_, rest, rfl, hqueued⟩ := Prog.exchanges_ask.1 hasked
    have hpolled := polled_pollSync hqueued
    refine ⟨.inl ⟨⟨_, List.mem_cons_self, trivial⟩, ?_⟩, ?_, ?_, ?_⟩
    · simpa [calls] using hpolled.unqueued
    · simpa [calls] using hpolled.unasked
    · simpa [calls] using hpolled.polls
    · exact .cons (fun _ _ => nofun) (.cons (fun _ _ => id) hpolled.refused)

end Ui

end Dependaboard
