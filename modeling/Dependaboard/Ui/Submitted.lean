import Mathlib.Data.List.Chain
import Dependaboard.Ui.Course
/-!
# Ui — a submission is told the truth about once

A batch is submitted a bounded number of times and never again once it is
known to be taken, its receipt is handed over once, and a refusal of the
credentials ends all there is to ask. The one place a refusal is not heard
is the ask behind a submission that was answered after a first that was not:
`told_once_iff` is that everything holds exactly where that ask is not
refused.
-/

namespace Dependaboard

namespace Ui

open Durable Prog

/-! ## What an exchange says -/

namespace FollowExchange

/-- What a submission was answered. -/
def submission? : FollowExchange → Option (Except Fault BatchReceipt)
  | ⟨.submit, answer⟩ => some answer
  | _ => none

/-- Where Restate said the batch stands. -/
def told? : FollowExchange → Option BatchProgress
  | ⟨.progress, .ok progress⟩ => progress
  | _ => none

/-- The receipt handed over. -/
def receipt? : FollowExchange → Option BatchReceipt
  | ⟨.accepted receipt, _⟩ => some receipt
  | _ => none

/-- It shows that Restate has the batch. -/
def Took : FollowExchange → Prop
  | ⟨.submit, answer⟩ => ∃ receipt, answer = .ok receipt
  | ⟨.progress, answer⟩ => ∃ progress, answer = .ok (some progress)
  | _ => False

/-- It was refused the credentials. -/
def Refuses : FollowExchange → Prop
  | ⟨.submit, answer⟩ => answer = .error .signedOut
  | ⟨.progress, answer⟩ => answer = .error .signedOut
  | ⟨.projected, answer⟩ => answer = .error .signedOut
  | _ => False

/-- It is a call of the gateway's, not a word to the dashboard. -/
def OnGateway : FollowExchange → Prop
  | ⟨.report _, _⟩ => False
  | ⟨.accepted _, _⟩ => False
  | _ => True

/-- It reads the clock, or reports. -/
def Aside : FollowExchange → Prop
  | ⟨.now, _⟩ => True
  | ⟨.report _, _⟩ => True
  | _ => False

end FollowExchange

open FollowExchange

/-- The targets of a batch that `progress` does not run. -/
def notRun (targets : List PrTarget) (progress : BatchProgress) : List PrKey :=
  (targets.map PrTarget.key).filter fun key =>
    key ∉ progress.targets.map fun item => item.target.key

/-- **The receipt that is owed**: the first submission's own where it was
answered; else the targets that the first word Restate gave before it does
not have, none where it gave none. -/
def ReceiptOwed (targets : List PrTarget) (es : List FollowExchange) (receipt : BatchReceipt) :
    Prop :=
  match (es.filterMap submission?).head? with
  | some (.ok own) => receipt = own
  | _ => receipt.leftOut =
      ((es.takeWhile fun e => (receipt? e).isNone).filterMap told?).head?.elim [] (notRun targets)

/-- **A submission is told the truth about once.** -/
structure ToldOnce (targets : List PrTarget) (es : List FollowExchange)
    (r : Except Unfinished BatchOutcome) : Prop where
  attempts : (es.filterMap submission?).length ≤ submitAttempts
  taken : es.Pairwise fun e e' => Took e → submission? e' = none
  notSubmitted : ∀ fault, r = .ok (.notSubmitted fault) → es.filterMap receipt? = []
  accepted : (∀ fault, r ≠ .ok (.notSubmitted fault)) →
    ∃ receipt, es.filterMap receipt? = [receipt] ∧ ReceiptOwed targets es receipt
  refused : es.Pairwise fun e e' => Refuses e → ¬ OnGateway e'
  signedOut : (∃ e ∈ es, Refuses e) → r = .ok (.notSubmitted .signedOut) ∨ r = .ok .signedOut

/-- A submission was answered, and the ask behind it refused. -/
def AskedInVain (e e' : FollowExchange) : Prop :=
  (∃ receipt, e = ⟨.submit, .ok receipt⟩) ∧ e' = ⟨.progress, .error .signedOut⟩

/-! ## The polls -/

/-- What the polls of a batch that was taken are. -/
structure Follows (es : List FollowExchange) (r : Except Unfinished BatchOutcome) : Prop where
  submissions : ∀ e ∈ es, submission? e = none
  receipts : ∀ e ∈ es, receipt? e = none
  refused : es.Pairwise fun e e' => Refuses e → ¬ OnGateway e'
  signedOut : (∃ e ∈ es, Refuses e) → r = .ok .signedOut
  asked : r = .ok .signedOut → ∃ e ∈ es, OnGateway e
  taken : ∀ fault, r ≠ .ok (.notSubmitted fault)

/-- What a poll and its report exchange. -/
theorem mem_turn {poll : Poll} {news : Bool} {followed : Followed} {e : FollowExchange}
    (he : e ∈ poll.exchanges ++ reports news followed) :
    submission? e = none ∧ receipt? e = none ∧ (Refuses e → poll = .failed .signedOut) := by
  have hreports : e ∈ reports news followed → e = ⟨.report followed, ()⟩ := by
    cases news <;> simp [reports]
  rcases List.mem_append.1 he with he | he
  · cases poll <;> simp only [Poll.exchanges, List.mem_cons, List.not_mem_nil, or_false] at he
    · rcases he with rfl | rfl | rfl <;> exact ⟨rfl, rfl, by rintro ⟨⟩⟩
    · rcases he with rfl | rfl <;> exact ⟨rfl, rfl, by rintro ⟨⟩⟩
    · rcases he with rfl | rfl
      · exact ⟨rfl, rfl, by rintro ⟨⟩⟩
      · exact ⟨rfl, rfl, fun h => by rw [Except.error.inj h]⟩
  · rw [hreports he]
    exact ⟨rfl, rfl, by rintro ⟨⟩⟩

/-- Nothing is asked in a poll after its refusal. -/
theorem pairwise_turn (poll : Poll) (news : Bool) (followed : Followed) :
    (poll.exchanges ++ reports news followed).Pairwise
      fun e e' => Refuses e → ¬ OnGateway e' := by
  cases poll <;> cases news <;> simp [Poll.exchanges, reports, Refuses, OnGateway]

/-- A poll that was refused ends the follow. -/
theorem ended_of_refused (followed : Followed) :
    (followed.polled (.failed .signedOut)).1.ended = some .signedOut := by
  have htrouble : (followed.answered (some .signedOut)).1.trouble = some .signedOut := by
    unfold Followed.answered
    split
    · assumption
    · rfl
  simp [Followed.polled, Followed.ended, Followed.signedOut, htrouble]

theorem onGateway_mem_turn (poll : Poll) (rest : List FollowExchange) :
    ∃ e ∈ poll.exchanges ++ rest, OnGateway e := by
  cases poll <;> exact ⟨⟨.tick, ()⟩, by simp [Poll.exchanges], trivial⟩

/-- How a follow that ended, ended. -/
theorem ended_cases {followed : Followed} {outcome : BatchOutcome}
    (h : followed.ended = some outcome) :
    followed.trouble = some .signedOut ∧ outcome = .signedOut ∨
      followed.trouble ≠ some .signedOut ∧ ∃ progress, followed.progress = some progress ∧
        progress.completed = true ∧ outcome = .completed progress := by
  unfold Followed.ended Followed.signedOut at h
  by_cases hsigned : followed.trouble = some .signedOut
  · rw [if_pos (decide_eq_true hsigned)] at h
    exact .inl ⟨hsigned, (Option.some.inj h).symm⟩
  · rw [if_neg (by simpa using hsigned), Option.map_eq_some_iff] at h
    obtain ⟨progress, hprogress, rfl⟩ := h
    obtain ⟨hprogress, hcompleted⟩ := Option.filter_eq_some_iff.1 hprogress
    exact .inr ⟨hsigned, progress, hprogress, hcompleted, rfl⟩

/-- **The polls of a batch that was taken.** -/
theorem PollCourse.follows {followed : Followed} {known : Bool} {emptyPolls : ℕ}
    {polls : List Poll} {es : List FollowExchange} {r : Except Unfinished BatchOutcome}
    (h : PollCourse followed known emptyPolls polls es r) : Follows es r := by
  induction h with
  | outOfFuel =>
    exact ⟨by simp, by simp, .nil, by simp, nofun, nofun⟩
  | @gaveUp followed known emptyPolls poll hgives =>
    obtain ⟨rfl, -, -⟩ := hgives
    refine ⟨?_, ?_, ?_, ?_, nofun, nofun⟩ <;>
      simp [Poll.exchanges, submission?, receipt?, Refuses, OnGateway]
  | @ended followed known emptyPolls poll outcome _ hended =>
    refine ⟨fun e he => (mem_turn he).1, fun e he => (mem_turn he).2.1, pairwise_turn _ _ _, ?_,
      fun _ => onGateway_mem_turn poll _, ?_⟩
    · rintro ⟨e, he, hrefuses⟩
      obtain rfl := (mem_turn he).2.2 hrefuses
      rw [ended_of_refused] at hended
      rw [Option.some.inj hended]
    · rintro fault ⟨⟩
      rcases ended_cases hended with ⟨-, h⟩ | ⟨-, _, -, -, h⟩ <;> cases h
  | @next followed known emptyPolls poll polls es r _ hended _ ih =>
    -- a turn that goes on was not refused, or it would have ended there
    have hheard : ∀ e ∈ poll.exchanges ++ reports (followed.polled poll).2 (followed.polled poll).1,
        ¬ Refuses e := fun e he hrefuses => by
      obtain rfl := (mem_turn he).2.2 hrefuses
      rw [ended_of_refused] at hended
      cases hended
    refine ⟨List.forall_mem_append.2 ⟨fun e he => (mem_turn he).1, ih.submissions⟩,
      List.forall_mem_append.2 ⟨fun e he => (mem_turn he).2.1, ih.receipts⟩,
      List.pairwise_append.2 ⟨pairwise_turn _ _ _, ih.refused,
        fun e he _ _ hrefuses => absurd hrefuses (hheard e he)⟩, ?_, fun _ => ?_, ih.taken⟩
    · rintro ⟨e, he, hrefuses⟩
      rcases List.mem_append.1 he with he | he
      · exact absurd hrefuses (hheard e he)
      · exact ih.signedOut ⟨e, he, hrefuses⟩
    · rw [List.append_assoc]
      exact onGateway_mem_turn poll _

/-! ## The submission -/

/-- An ask that found nothing out shows nothing and is not refused. -/
theorem Inconclusive.quiet {answer : Except Fault (Option BatchProgress)}
    (h : Inconclusive answer) : told? ⟨.progress, answer⟩ = none ∧
      ¬ Took ⟨.progress, answer⟩ ∧ ¬ Refuses ⟨.progress, answer⟩ := by
  rcases h with rfl | ⟨fault, rfl, hfault⟩
  · exact ⟨rfl, by simp [Took], by simp [Refuses]⟩
  · exact ⟨rfl, by simp [Took], by simpa [Refuses] using hfault⟩

/-- What a submission is, with `left` attempts more after its own. -/
structure Submission (left attempt : ℕ) (es : List FollowExchange) (taken : Except Fault Taken) :
    Prop where
  attempts : (es.filterMap submission?).length ≤ left + 1
  shown : es.Pairwise fun e e' => Took e → submission? e' = none
  receipts : ∀ e ∈ es, receipt? e = none
  refused : es.Pairwise fun e e' => Refuses e → ¬ OnGateway e'
  /-- A refusal fails it, but for an ask in vain. -/
  inVain : es.IsChain (fun e e' => ¬ AskedInVain e e') ↔
    ((∃ e ∈ es, Refuses e) → ∃ fault, taken = .error fault)
  failed : (∃ e ∈ es, Refuses e) → ∀ fault, taken = .error fault → fault = .signedOut
  accepted : ∀ receipt, taken = .ok (.accepted receipt) → es = [⟨.submit, .ok receipt⟩]
  already : ∀ progress, taken = .ok (.already progress) → es.filterMap told? = progress.toList ∧
    (attempt = 1 → ∃ fault, (es.filterMap submission?).head? = some (.error fault))

/-- **A submission tried again** is the attempt and what comes of the next. -/
theorem Submission.again {left attempt : ℕ} {fault : Fault}
    {answer : Except Fault (Option BatchProgress)} {es : List FollowExchange}
    {taken : Except Fault Taken} (hfault : fault ≠ .signedOut) (hanswer : Inconclusive answer)
    (h : Submission left (attempt + 1) es taken)
    (hnext : ∀ receipt, taken ≠ .ok (.accepted receipt)) :
    Submission (left + 1) attempt
      (⟨.submit, .error fault⟩ :: ⟨.progress, answer⟩ :: ⟨.tick, ()⟩ :: es) taken := by
  obtain ⟨htold, htook, hrefuses⟩ := hanswer.quiet
  have hfailed : ¬ Refuses ⟨.submit, .error fault⟩ := by simpa [Refuses] using hfault
  have hrest : (∃ e ∈ (⟨.submit, .error fault⟩ :: ⟨.progress, answer⟩ :: ⟨.tick, ()⟩ :: es :
      List FollowExchange), Refuses e) ↔ ∃ e ∈ es, Refuses e := by
    simp [hfailed, hrefuses, Refuses.eq_def ⟨.tick, ()⟩]
  refine ⟨?_, ?_, ?_, ?_, ?_, fun hrefused => h.failed (hrest.1 hrefused),
    fun receipt hreceipt => absurd hreceipt (hnext receipt), ?_⟩
  · exact Nat.succ_le_succ h.attempts
  · refine .cons (fun e _ hshown => ?_) (.cons (fun e _ hshown => absurd hshown htook)
      (.cons (fun e _ hshown => hshown.elim) h.shown))
    obtain ⟨_, hshown⟩ := hshown
    cases hshown
  · exact List.forall_mem_cons.2 ⟨rfl, List.forall_mem_cons.2 ⟨rfl,
      List.forall_mem_cons.2 ⟨rfl, h.receipts⟩⟩⟩
  · exact .cons (fun e _ hrefused => absurd hrefused hfailed)
      (.cons (fun e _ hrefused => absurd hrefused hrefuses)
        (.cons (fun e _ hrefused => hrefused.elim) h.refused))
  · rw [hrest, ← h.inVain]
    cases es <;> simp [AskedInVain]
  · intro progress hprogress
    refine ⟨?_, fun _ => ⟨fault, rfl⟩⟩
    rw [List.filterMap_cons_none rfl, List.filterMap_cons_none htold, List.filterMap_cons_none rfl]
    exact (h.already progress hprogress).1

/-- Only the first attempt's receipt is the submission's. -/
theorem SubmitCourse.first {left attempt : ℕ} {es : List FollowExchange} {receipt : BatchReceipt}
    (h : SubmitCourse left attempt es (.ok (.accepted receipt))) : attempt ≤ 1 := by
  generalize htaken : (.ok (.accepted receipt) : Except Fault Taken) = taken at h
  induction h with
  | accepted => exact Nat.le_refl 1
  | again _ _ _ ih => exact (Nat.le_succ _).trans (ih htaken)
  | _ => cases htaken

/-- A submission is known to be taken where it succeeds, and only there. -/
theorem SubmitCourse.took_iff {left attempt : ℕ} {es : List FollowExchange}
    {taken : Except Fault Taken} (h : SubmitCourse left attempt es taken) :
    (∃ e ∈ es, Took e) ↔ ∃ t, taken = .ok t := by
  induction h with
  | accepted => exact iff_of_true ⟨_, List.mem_cons_self, _, rfl⟩ ⟨_, rfl⟩
  | folded _ => exact iff_of_true ⟨_, List.mem_cons_self, _, rfl⟩ ⟨_, rfl⟩
  | refused => simp [Took]
  | found _ => simp [Took]
  | askRefused _ => simp [Took]
  | gaveUp _ hanswer => simpa [Took] using hanswer.quiet.2.1
  | again _ hanswer _ ih =>
    rw [← ih]
    simpa [Took.eq_def ⟨.submit, _⟩, Took.eq_def ⟨.tick, ()⟩] using fun htook =>
      absurd htook hanswer.quiet.2.1

/-- **What a submission is.** -/
theorem SubmitCourse.submission {left attempt : ℕ} {es : List FollowExchange}
    {taken : Except Fault Taken} (h : SubmitCourse left attempt es taken) (hattempt : 1 ≤ attempt) :
    Submission left attempt es taken := by
  -- by how the submission went; `again` is one more turn before a shorter one
  induction h with
  | accepted =>
    exact ⟨Nat.le_add_left 1 _, by simp, by simp [receipt?], by simp, by simp [Refuses],
      by simp [Refuses], fun receipt hreceipt => by rw [Taken.accepted.inj (Except.ok.inj hreceipt)],
      nofun⟩
  | @folded left attempt receipt answer hlate =>
    refine ⟨Nat.le_add_left 1 _, by simp [submission?], by simp [receipt?], by simp [Refuses],
      by simp [AskedInVain, Refuses], fun _ => nofun, nofun,
      fun progress hprogress => ⟨?_, fun hfirst => absurd hfirst hlate⟩⟩
    obtain rfl := Taken.already.inj (Except.ok.inj hprogress)
    rcases answer with fault | progress
    · rfl
    · cases progress <;> rfl
  | refused =>
    exact ⟨Nat.le_add_left 1 _, by simp, by simp [receipt?], by simp, by simp,
      fun _ fault hfault => (Except.error.inj hfault).symm, nofun, nofun⟩
  | @found left attempt fault progress hfault =>
    refine ⟨Nat.le_add_left 1 _, by simp [submission?], by simp [receipt?],
      by simp [Refuses, hfault], by simp [AskedInVain, Refuses, hfault], fun _ => nofun, nofun,
      fun progress hprogress => ⟨?_, fun _ => ⟨fault, rfl⟩⟩⟩
    obtain rfl := Taken.already.inj (Except.ok.inj hprogress)
    rfl
  | @askRefused left attempt fault hfault =>
    exact ⟨Nat.le_add_left 1 _, by simp [submission?], by simp [receipt?],
      by simp [Refuses, hfault], by simp [AskedInVain],
      fun _ fault hfault => (Except.error.inj hfault).symm, nofun, nofun⟩
  | @gaveUp attempt fault answer hfault hanswer =>
    obtain ⟨-, -, hrefuses⟩ := hanswer.quiet
    have hquiet : ¬ ∃ e ∈ ([⟨.submit, .error fault⟩, ⟨.progress, answer⟩] : List FollowExchange),
        Refuses e := by simpa [Refuses, hfault] using hrefuses
    exact ⟨Nat.le_add_left 1 _, by simp [submission?], by simp [receipt?],
      by simp [Refuses, hfault], iff_of_true (by simp [AskedInVain]) fun h => absurd h hquiet,
      fun h => absurd h hquiet, nofun, nofun⟩
  | again hfault hanswer hcourse ih =>
    refine (ih (Nat.le_add_left 1 _)).again hfault hanswer fun receipt hreceipt => ?_
    subst hreceipt
    have := hcourse.first
    omega

/-! ## The whole of it -/

/-- What Restate does not run of a batch just queued. -/
theorem leftOutOf_queued (batchId : String) (action : BulkActionKind) (targets : List PrTarget)
    (began : ℕ) (progress : BatchProgress) :
    (Followed.queued batchId action targets began).leftOutOf progress = notRun targets progress := by
  have hkeys : (BatchProgress.queued batchId action targets).targets.map
      (fun item => item.target.key) = targets.map PrTarget.key := by
    simp [BatchProgress.queued]
  simp only [Followed.leftOutOf, Followed.queued, Option.filter_some, Bool.not_false, if_true,
    hkeys, notRun]
  refine List.filter_congr fun key _ => ?_
  rw [Bool.eq_iff_iff]
  simp

/-- A batch at its end is done with; another is polled. -/
theorem follows_pollUnlessCompleted {fuel : ℕ} {followed : Followed} {es : List FollowExchange}
    {r : Except Unfinished BatchOutcome}
    (h : (pollUnlessCompleted fuel followed).Exchanges es r) : Follows es r := by
  unfold pollUnlessCompleted at h
  split at h
  · obtain ⟨rfl, rfl⟩ := exchanges_done.1 h
    exact ⟨by simp, by simp, .nil, by simp, nofun, nofun⟩
  · obtain ⟨polls, hcourse⟩ := exchanges_poll h
    exact hcourse.follows

theorem aside_of_mem_reports {news : Bool} {followed : Followed} {e : FollowExchange}
    (h : e ∈ reports news followed) : Aside e := by
  cases news with
  | false => cases h
  | true =>
    obtain rfl := List.mem_singleton.1 h
    trivial

/-- **A run is its submission**, which fails it, **or its submission, the
receipt and the polls.** -/
theorem exchanges_runBatch {fuel : ℕ} {batchId : String} {action : BulkActionKind}
    {targets : List PrTarget} {began : ℕ} {es : List FollowExchange}
    {r : Except Unfinished BatchOutcome}
    (h : (runBatch fuel (.queued batchId action targets began)).Exchanges es r) :
    ∃ first taken, SubmitCourse (submitAttempts - 1) 1 first taken ∧
      ((∃ fault, taken = .error fault ∧ es = first ∧ r = .ok (.notSubmitted fault)) ∨
        ∃ middle receipt tail, es = first ++ (middle ++ ⟨.accepted receipt, ()⟩ :: tail) ∧
          (∀ e ∈ middle, Aside e) ∧ Follows tail r ∧
          (taken = .ok (.accepted receipt) ∨ ∃ progress, taken = .ok (.already progress) ∧
            receipt.leftOut = progress.elim [] (notRun targets))) := by
  rcases exchanges_bind.1 h with ⟨cause, rfl, hfail⟩ | ⟨taken, first, rest, rfl, hfirst, hrest⟩
  · obtain ⟨taken, hr, -⟩ := exchanges_submitFrom hfail
    cases hr
  obtain ⟨_, htaken, hcourse⟩ := exchanges_submitFrom hfirst
  obtain rfl := Except.ok.inj htaken
  refine ⟨first, taken, hcourse, ?_⟩
  -- not taken, taken with its own receipt, or found already there with or without progress
  match taken with
  | .error fault =>
    obtain ⟨rfl, rfl⟩ := exchanges_done.1 hrest
    exact .inl ⟨fault, rfl, List.append_nil _, rfl⟩
  | .ok (.accepted receipt) =>
    obtain ⟨rest, rfl, haccepted⟩ := exchanges_reportIf.1 hrest
    obtain ⟨_, tail, rfl, htail⟩ := exchanges_ask.1 haccepted
    obtain ⟨polls, hpolls⟩ := exchanges_poll htail
    exact .inr ⟨_, receipt, tail, rfl, fun e he => aside_of_mem_reports he, hpolls.follows, .inl rfl⟩
  | .ok (.already none) =>
    obtain ⟨_, tail, rfl, htail⟩ := exchanges_ask.1 hrest
    exact .inr ⟨[], ⟨[]⟩, tail, rfl, List.forall_mem_nil _, follows_pollUnlessCompleted htail,
      .inr ⟨none, rfl, rfl⟩⟩
  | .ok (.already (some progress)) =>
    obtain ⟨now, rest, rfl, hheard⟩ := exchanges_ask.1 hrest
    obtain ⟨rest, rfl, haccepted⟩ := exchanges_reportIf.1 hheard
    obtain ⟨_, tail, rfl, htail⟩ := exchanges_ask.1 haccepted
    refine .inr ⟨⟨.now, now⟩ :: reports _ _, _, tail, rfl,
      List.forall_mem_cons.2 ⟨trivial, fun e he => aside_of_mem_reports he⟩,
      follows_pollUnlessCompleted htail, .inr ⟨some progress, rfl, ?_⟩⟩
    exact leftOutOf_queued batchId action targets began progress

/-- A word aside is no submission, no receipt, nothing told, refuses
nothing and asks nothing in vain. -/
theorem aside_quiet {e : FollowExchange} (h : Aside e) : submission? e = none ∧
    receipt? e = none ∧ told? e = none ∧ ¬ Refuses e := by
  obtain ⟨_ | _ | _ | _ | _ | _ | _, answer⟩ := e
  case now => exact ⟨rfl, rfl, rfl, nofun⟩
  case report => exact ⟨rfl, rfl, rfl, nofun⟩
  all_goals exact h.elim

/-- What stands between a submission and its polls, the receipt at its
end. -/
structure Handover (es : List FollowExchange) (receipt : BatchReceipt) : Prop where
  submissions : ∀ e ∈ es, submission? e = none
  receipts : es.filterMap receipt? = [receipt]
  told : es.filterMap told? = []
  quiet : ∀ e ∈ es, ¬ Refuses e

theorem handover {middle : List FollowExchange} (h : ∀ e ∈ middle, Aside e)
    (receipt : BatchReceipt) : Handover (middle ++ [⟨.accepted receipt, ()⟩]) receipt where
  submissions := List.forall_mem_append.2 ⟨fun e he => (aside_quiet (h e he)).1, by simp [submission?]⟩
  receipts := by
    rw [List.filterMap_append, List.filterMap_eq_nil_iff.2 fun e he => (aside_quiet (h e he)).2.1]
    rfl
  told := by
    rw [List.filterMap_append, List.filterMap_eq_nil_iff.2 fun e he => (aside_quiet (h e he)).2.2.1]
    rfl
  quiet := List.forall_mem_append.2 ⟨fun e he => (aside_quiet (h e he)).2.2.2, by simp [Refuses]⟩

/-- No ask is in vain where nothing is submitted. -/
theorem isChain_of_not_submitted {es : List FollowExchange}
    (h : ∀ e ∈ es, submission? e = none) : es.IsChain fun e e' => ¬ AskedInVain e e' := by
  refine (List.pairwise_of_forall_mem_list fun e he e' _ => ?_).isChain
  rintro ⟨⟨receipt, rfl⟩, -⟩
  cases h _ he

/-- **The asks in vain of a run are its submission's.** -/
theorem isChain_append_handover {first middle tail : List FollowExchange} {receipt : BatchReceipt}
    (hmiddle : Handover middle receipt) (htail : ∀ e ∈ tail, submission? e = none) :
    (first ++ (middle ++ tail)).IsChain (fun e e' => ¬ AskedInVain e e') ↔
      first.IsChain fun e e' => ¬ AskedInVain e e' := by
  rw [List.isChain_append]
  refine ⟨And.left, fun hfirst => ⟨hfirst, isChain_of_not_submitted
    (List.forall_mem_append.2 ⟨hmiddle.submissions, htail⟩), fun e _ e' he' => ?_⟩⟩
  rintro ⟨-, rfl⟩
  -- the run goes on with the handover, which is not empty and refuses nothing
  have hne : middle ≠ [] := by
    rintro rfl
    cases hmiddle.receipts
  rw [List.head?_append_of_ne_nil _ hne] at he'
  exact hmiddle.quiet _ (List.mem_of_mem_head? he') rfl

/-- **The receipt handed over is the one owed.** -/
theorem receiptOwed {left : ℕ} {targets : List PrTarget} {first middle tail : List FollowExchange}
    {taken : Taken} {receipt : BatchReceipt} (hfirst : Submission left 1 first (.ok taken))
    (hmiddle : ∀ e ∈ middle, Aside e) (htaken : taken = .accepted receipt ∨
      ∃ progress, taken = .already progress ∧
        receipt.leftOut = progress.elim [] (notRun targets)) :
    ReceiptOwed targets (first ++ (middle ++ ⟨.accepted receipt, ()⟩ :: tail)) receipt := by
  unfold ReceiptOwed
  rcases htaken with rfl | ⟨progress, rfl, hleft⟩
  · rw [hfirst.accepted receipt rfl]
    rfl
  · obtain ⟨htold, hhead⟩ := hfirst.already progress rfl
    obtain ⟨fault, hhead⟩ := hhead rfl
    rw [List.filterMap_append, List.head?_append, hhead, Option.some_or]
    have hbefore : ∀ e ∈ first ++ middle, (receipt? e).isNone := List.forall_mem_append.2
      ⟨fun e he => by rw [hfirst.receipts e he]; rfl,
        fun e he => by rw [(aside_quiet (hmiddle e he)).2.1]; rfl⟩
    rw [← List.append_assoc, List.takeWhile_append_of_pos hbefore, List.filterMap_append,
      List.filterMap_append, htold,
      List.filterMap_eq_nil_iff.2 fun e he => (aside_quiet (hmiddle e he)).2.2.1]
    simpa [receipt?] using hleft

/-- **A submission is told the truth about once exactly where no ask behind an
answered submission is refused.** -/
theorem told_once_iff {fuel : ℕ} {batchId : String} {action : BulkActionKind}
    {targets : List PrTarget} {began : ℕ} {es : List FollowExchange}
    {r : Except Unfinished BatchOutcome}
    (h : (runBatch fuel (.queued batchId action targets began)).Exchanges es r) :
    ToldOnce targets es r ↔ es.IsChain fun e e' => ¬ AskedInVain e e' := by
  obtain ⟨first, taken, hcourse, hrest⟩ := exchanges_runBatch h
  have hfirst := hcourse.submission (Nat.le_refl 1)
  rcases hrest with ⟨fault, rfl, rfl, rfl⟩ | ⟨middle, receipt, tail, rfl, hmiddle, htail, htaken⟩
  · exact iff_of_true ⟨hfirst.attempts, hfirst.shown,
      fun _ _ => List.filterMap_eq_nil_iff.2 hfirst.receipts, fun hnot => absurd rfl (hnot fault),
      hfirst.refused, fun hrefused => .inl (by rw [hfirst.failed hrefused fault rfl])⟩
      (hfirst.inVain.2 fun _ => ⟨fault, rfl⟩)
  obtain ⟨taken, rfl⟩ : ∃ t, taken = .ok t := by
    rcases htaken with rfl | ⟨_, rfl, -⟩ <;> exact ⟨_, rfl⟩
  have hhandover := handover hmiddle receipt
  have howed : ReceiptOwed targets (first ++ (middle ++ ⟨.accepted receipt, ()⟩ :: tail)) receipt :=
    receiptOwed hfirst hmiddle (by simpa using htaken)
  rw [List.append_cons] at howed ⊢
  rw [isChain_append_handover hhandover htail.submissions, hfirst.inVain]
  constructor
  · rintro htold ⟨e, he, hrefuses⟩
    -- a refusal of the submission that did not fail it is followed by a poll
    rcases htold.signedOut ⟨e, List.mem_append_left _ he, hrefuses⟩ with hr | hr
    · exact absurd hr (htail.taken _)
    · obtain ⟨e', he', hasked⟩ := htail.asked hr
      exact absurd hasked ((List.pairwise_append.1 htold.refused).2.2 e he e'
        (List.mem_append_right _ he') hrefuses)
  · intro hvain
    have hheard : ∀ e ∈ first, ¬ Refuses e := fun e he hrefuses => by
      obtain ⟨_, hfailed⟩ := hvain ⟨e, he, hrefuses⟩
      cases hfailed
    have hrest : ∀ e ∈ middle ++ [⟨.accepted receipt, ()⟩] ++ tail, submission? e = none :=
      List.forall_mem_append.2 ⟨hhandover.submissions, htail.submissions⟩
    refine ⟨?_, ?_, fun fault hr => absurd hr (htail.taken fault), fun _ => ⟨receipt, ?_, howed⟩,
      ?_, ?_⟩
    · rw [List.filterMap_append, List.filterMap_eq_nil_iff.2 hrest, List.append_nil]
      exact hfirst.attempts
    · exact List.pairwise_append.2 ⟨hfirst.shown,
        List.pairwise_of_forall_mem_list fun e _ e' he' _ => hrest e' he',
        fun e _ e' he' _ => hrest e' he'⟩
    · rw [List.filterMap_append, List.filterMap_append, List.filterMap_eq_nil_iff.2 hfirst.receipts,
        List.filterMap_eq_nil_iff.2 htail.receipts, hhandover.receipts]
      rfl
    · exact List.pairwise_append.2 ⟨hfirst.refused, List.pairwise_append.2
        ⟨List.pairwise_of_forall_mem_list fun e he _ _ h => absurd h (hhandover.quiet e he),
          htail.refused, fun e he _ _ h => absurd h (hhandover.quiet e he)⟩,
        fun e he _ _ h => absurd h (hheard e he)⟩
    · rintro ⟨e, he, hrefuses⟩
      rcases List.mem_append.1 he with he | he
      · exact absurd hrefuses (hheard e he)
      rcases List.mem_append.1 he with he | he
      · exact absurd hrefuses (hhandover.quiet e he)
      · exact .inr (htail.signedOut ⟨e, he, hrefuses⟩)

/-! ## A sample -/

/-- A merge of one pull request, just queued. -/
def sampleTargets : List PrTarget :=
  [⟨7, "acme", "api", 9, "abc123", "Bump serde", "https://github.com/acme/api/pull/9"⟩]

/-- What is known of it. -/
def sampleQueued : Followed := .queued "batch-1" .merge sampleTargets 100

/-- Its submission, refused. -/
def sampleRefused : List FollowExchange := [⟨.submit, .error .signedOut⟩]

theorem told_once_iff_sample : ToldOnce sampleTargets sampleRefused (.ok (.notSubmitted .signedOut))
    ↔ sampleRefused.IsChain fun e e' => ¬ AskedInVain e e' :=
  @told_once_iff 0 "batch-1" .merge sampleTargets 100 sampleRefused _ (.ask (.done _))

/-- Its first submission lost, its second answered, and the ask behind that
refused: the batch is polled all the same, and refused again. -/
def sampleLate : List FollowExchange :=
  [⟨.submit, .error .unreachable⟩, ⟨.progress, .ok none⟩, ⟨.tick, ()⟩, ⟨.submit, .ok ⟨[]⟩⟩,
    ⟨.progress, .error .signedOut⟩, ⟨.accepted ⟨[]⟩, ()⟩, ⟨.tick, ()⟩,
    ⟨.progress, .error .signedOut⟩,
    ⟨.report { sampleQueued with trouble := some .signedOut }, ()⟩]

/-- **A refusal of the ask behind a later submission is asked past.** -/
theorem refusal_asked_past : (runBatch 1 sampleQueued).Exchanges sampleLate (.ok .signedOut) ∧
    ¬ ToldOnce sampleTargets sampleLate (.ok .signedOut) := by
  refine ⟨.ask (.ask (.ask (.ask (.ask (.ask (.ask (.ask (.ask (.done _))))))))),
    fun htold => ?_⟩
  have hrefused := htold.refused
  simp [sampleLate, Refuses, OnGateway] at hrefused

end Ui

end Dependaboard
