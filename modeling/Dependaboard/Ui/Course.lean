import Dependaboard.Durable.Exchange
import Dependaboard.Ui.Batch
/-!
# Ui — the course of a follow

The ways a submission and the polls after it may go, by what they were
answered. `PollCourse` and `SubmitCourse` have every one of them, and
`exchanges_poll` and `exchanges_submit` are that there is no other; what is
proved of a follow is read off them.
-/

namespace Dependaboard

namespace Ui

open Durable Prog

/-- A call of a follow and its answer. -/
abbrev FollowExchange : Type := Exchange FollowEffects

/-- What is reported, if it is news. -/
def reports (news : Bool) (followed : Followed) : List FollowExchange :=
  if news then [⟨.report followed, ()⟩] else []

theorem exchanges_reportIf {α : Type} {news : Bool} {followed : Followed} {next : FollowM α}
    {es : List FollowExchange} {r : Except Unfinished α} :
    (reportIf news followed next).Exchanges es r ↔
      ∃ rest, es = reports news followed ++ rest ∧ next.Exchanges rest r := by
  cases news with
  | false => simp [reportIf, reports]
  | true =>
    rw [reportIf, if_pos rfl, exchanges_ask]
    constructor
    · rintro ⟨⟨⟩, rest, rfl, hrest⟩
      exact ⟨rest, rfl, hrest⟩
    · rintro ⟨rest, rfl, hrest⟩
      exact ⟨(), rest, rfl, hrest⟩

/-! ## The polls -/

/-- A poll, by its answer. -/
inductive Poll where
  /-- Where the batch stands, and the time it was heard. -/
  | heard (progress : BatchProgress) (now : ℕ)
  | nothing
  | failed (fault : Fault)
  deriving DecidableEq, Repr

namespace Poll

/-- What the poll exchanges. -/
def exchanges : Poll → List FollowExchange
  | heard progress now => [⟨.tick, ()⟩, ⟨.progress, .ok (some progress)⟩, ⟨.now, now⟩]
  | nothing => [⟨.tick, ()⟩, ⟨.progress, .ok none⟩]
  | failed fault => [⟨.tick, ()⟩, ⟨.progress, .error fault⟩]

/-- Where it said the batch stands. -/
def progress? : Poll → Option BatchProgress
  | heard progress _ => some progress
  | nothing | failed _ => none

/-- Why it was not answered. -/
def fault? : Poll → Option Fault
  | failed fault => some fault
  | heard _ _ | nothing => none

/-- The polls answered with nothing, with this one, of a batch Restate is not
known to have. -/
def counted (known : Bool) (emptyPolls : ℕ) : Poll → ℕ
  | nothing => if known then emptyPolls else emptyPolls + 1
  | heard _ _ | failed _ => emptyPolls

/-- The batch is given up at this poll. -/
def GivesUp (known : Bool) (emptyPolls : ℕ) (poll : Poll) : Prop :=
  poll = nothing ∧ known = false ∧ emptyPolls + 1 = attachLimit

end Poll

/-- What is known after a poll, and whether it is news. -/
def Followed.polled (followed : Followed) : Poll → Followed × Bool
  | .heard progress now =>
    let answered := followed.answered none
    let heard := answered.1.hear progress now
    (heard.1, answered.2 || heard.2)
  | .nothing => followed.answered none
  | .failed fault => followed.answered (some fault)

/-- **The ways the polls may go.** -/
inductive PollCourse : Followed → (known : Bool) → (emptyPolls : ℕ) → List Poll →
    List FollowExchange → Except Unfinished BatchOutcome → Prop
  /-- It was watched no longer. -/
  | outOfFuel {followed known emptyPolls} :
      PollCourse followed known emptyPolls [] [] (.error .outOfFuel)
  | gaveUp {followed known emptyPolls poll} : poll.GivesUp known emptyPolls →
      PollCourse followed known emptyPolls [poll] poll.exchanges (.ok .unknown)
  | ended {followed known emptyPolls poll outcome} : ¬ poll.GivesUp known emptyPolls →
      (followed.polled poll).1.ended = some outcome →
      PollCourse followed known emptyPolls [poll]
        (poll.exchanges ++ reports (followed.polled poll).2 (followed.polled poll).1) (.ok outcome)
  | next {followed known emptyPolls poll polls es r} : ¬ poll.GivesUp known emptyPolls →
      (followed.polled poll).1.ended = none →
      PollCourse (followed.polled poll).1 (poll.progress?.isSome || known)
        (poll.counted known emptyPolls) polls es r →
      PollCourse followed known emptyPolls (poll :: polls)
        (poll.exchanges ++ reports (followed.polled poll).2 (followed.polled poll).1 ++ es) r

/-- A poll that is not given up on is reported, and is the last or not. -/
theorem exchanges_turn {fuel : ℕ} {followed : Followed} {known : Bool} {emptyPolls : ℕ}
    (last : Poll) {es : List FollowExchange} {r : Except Unfinished BatchOutcome}
    (hgoes : ¬ last.GivesUp known emptyPolls)
    (h : (reportIf (followed.polled last).2 (followed.polled last).1
      (unlessEnded (followed.polled last).1 (poll fuel (followed.polled last).1
        (last.progress?.isSome || known) (last.counted known emptyPolls)))).Exchanges es r)
    (hnext : ∀ {followed known emptyPolls rest}, (poll fuel followed known emptyPolls).Exchanges
      rest r → ∃ polls, PollCourse followed known emptyPolls polls rest r) :
    ∃ polls, PollCourse followed known emptyPolls polls (last.exchanges ++ es) r := by
  obtain ⟨rest, rfl, hrest⟩ := exchanges_reportIf.1 h
  unfold unlessEnded at hrest
  cases hended : (followed.polled last).1.ended with
  | some outcome =>
    rw [hended] at hrest
    obtain ⟨rfl, rfl⟩ := exchanges_done.1 hrest
    rw [List.append_nil]
    exact ⟨_, .ended hgoes hended⟩
  | none =>
    rw [hended] at hrest
    obtain ⟨polls, hcourse⟩ := hnext hrest
    rw [← List.append_assoc]
    exact ⟨_, .next hgoes hended hcourse⟩

/-- **The polls take one of these ways.** -/
theorem exchanges_poll {fuel : ℕ} {followed : Followed} {known : Bool} {emptyPolls : ℕ}
    {es : List FollowExchange} {r : Except Unfinished BatchOutcome}
    (h : (poll fuel followed known emptyPolls).Exchanges es r) :
    ∃ polls, PollCourse followed known emptyPolls polls es r := by
  induction fuel generalizing followed known emptyPolls es with
  | zero =>
    obtain ⟨rfl, rfl⟩ := exchanges_fail.1 h
    exact ⟨[], .outOfFuel⟩
  | succ fuel ih =>
    obtain ⟨_, rest, rfl, hticked⟩ := exchanges_ask.1 h
    obtain ⟨answer, rest, rfl, hturn⟩ := exchanges_ask.1 hticked
    match answer with
    | .ok (some progress) =>
      obtain ⟨now, rest, rfl, hheard⟩ := exchanges_ask.1 hturn
      exact exchanges_turn (.heard progress now) (fun hgives => nomatch hgives.1) hheard ih
    | .ok none =>
      by_cases hgives : Poll.nothing.GivesUp known emptyPolls
      · obtain ⟨-, rfl, hlimit⟩ := hgives
        have hdone : (done .unknown : FollowM BatchOutcome).Exchanges rest r := by
          simpa [hlimit] using hturn
        obtain ⟨rfl, rfl⟩ := exchanges_done.1 hdone
        exact ⟨_, .gaveUp ⟨rfl, rfl, hlimit⟩⟩
      · have hgoes : ¬ ((!known) = true ∧
            (if known then emptyPolls else emptyPolls + 1) = attachLimit) := by
          rintro ⟨hknown, hlimit⟩
          rw [Bool.not_eq_true'] at hknown
          exact hgives ⟨rfl, hknown, by simpa [hknown] using hlimit⟩
        simp only [if_neg hgoes] at hturn
        exact exchanges_turn .nothing hgives hturn ih
    | .error fault =>
      exact exchanges_turn (.failed fault) (fun hgives => nomatch hgives.1) hturn ih

/-! ## The submission -/

/-- The ask whether a batch was taken found nothing out. -/
def Inconclusive (answer : Except Fault (Option BatchProgress)) : Prop :=
  answer = .ok none ∨ ∃ fault, answer = .error fault ∧ fault ≠ .signedOut

/-- **The ways a submission may go**, from an attempt with `left` more after
it. -/
inductive SubmitCourse : (left attempt : ℕ) → List FollowExchange → Except Fault Taken → Prop
  | accepted {left receipt} :
      SubmitCourse left 1 [⟨.submit, .ok receipt⟩] (.ok (.accepted receipt))
  /-- Its receipt is of a resolution that never ran. -/
  | folded {left attempt receipt answer} : attempt ≠ 1 →
      SubmitCourse left attempt [⟨.submit, .ok receipt⟩, ⟨.progress, answer⟩]
        (.ok (.already answer.toOption.join))
  | refused {left attempt} :
      SubmitCourse left attempt [⟨.submit, .error .signedOut⟩] (.error .signedOut)
  | found {left attempt fault progress} : fault ≠ .signedOut →
      SubmitCourse left attempt [⟨.submit, .error fault⟩, ⟨.progress, .ok (some progress)⟩]
        (.ok (.already (some progress)))
  | askRefused {left attempt fault} : fault ≠ .signedOut →
      SubmitCourse left attempt [⟨.submit, .error fault⟩, ⟨.progress, .error .signedOut⟩]
        (.error .signedOut)
  | gaveUp {attempt fault answer} : fault ≠ .signedOut → Inconclusive answer →
      SubmitCourse 0 attempt [⟨.submit, .error fault⟩, ⟨.progress, answer⟩] (.error fault)
  | again {left attempt fault answer es r} : fault ≠ .signedOut → Inconclusive answer →
      SubmitCourse left (attempt + 1) es r →
      SubmitCourse (left + 1) attempt
        (⟨.submit, .error fault⟩ :: ⟨.progress, answer⟩ :: ⟨.tick, ()⟩ :: es) r

/-- The ask whether a failed submission was taken answers it, refuses it, or
leaves it to what is next. -/
theorem exchanges_askTaken {next : FollowM (Except Fault Taken)} {es : List FollowExchange}
    {r : Except Unfinished (Except Fault Taken)} (h : (askTaken next).Exchanges es r) :
    ∃ answer rest, es = ⟨.progress, answer⟩ :: rest ∧
      ((∃ progress, answer = .ok (some progress) ∧ rest = [] ∧
          r = .ok (.ok (.already (some progress)))) ∨
        (answer = .error .signedOut ∧ rest = [] ∧ r = .ok (.error .signedOut)) ∨
        Inconclusive answer ∧ next.Exchanges rest r) := by
  obtain ⟨answer, rest, rfl, hrest⟩ := exchanges_ask.1 h
  refine ⟨answer, rest, rfl, ?_⟩
  match answer with
  | .ok (some progress) =>
    obtain ⟨rfl, rfl⟩ := exchanges_done.1 hrest
    exact .inl ⟨progress, rfl, rfl, rfl⟩
  | .ok none => exact .inr (.inr ⟨.inl rfl, hrest⟩)
  | .error .signedOut =>
    obtain ⟨rfl, rfl⟩ := exchanges_done.1 hrest
    exact .inr (.inl ⟨rfl, rfl, rfl⟩)
  | .error (.refused message) => exact .inr (.inr ⟨.inr ⟨_, rfl, nofun⟩, hrest⟩)
  | .error .unreachable => exact .inr (.inr ⟨.inr ⟨_, rfl, nofun⟩, hrest⟩)

/-- One attempt ends the submission, or finds nothing out and leaves it to what
is next. -/
theorem exchanges_attemptOnce {left attempt : ℕ} {next : Fault → FollowM (Except Fault Taken)}
    {es : List FollowExchange} {r : Except Unfinished (Except Fault Taken)}
    (h : (attemptOnce attempt next).Exchanges es r) :
    (∃ taken, r = .ok taken ∧ SubmitCourse left attempt es taken) ∨
      ∃ fault answer rest, fault ≠ .signedOut ∧ Inconclusive answer ∧
        es = ⟨.submit, .error fault⟩ :: ⟨.progress, answer⟩ :: rest ∧
        (next fault).Exchanges rest r := by
  obtain ⟨answer, rest, rfl, hrest⟩ := exchanges_ask.1 h
  -- every fault but the refusal is asked behind
  have hfailed (fault : Fault) (hfault : fault ≠ .signedOut)
      (hask : (askTaken (next fault)).Exchanges rest r) :
      (∃ taken, r = .ok taken ∧
          SubmitCourse left attempt (⟨.submit, .error fault⟩ :: rest) taken) ∨
        ∃ cause answer after, cause ≠ .signedOut ∧ Inconclusive answer ∧
          (⟨.submit, .error fault⟩ :: rest : List FollowExchange)
            = ⟨.submit, .error cause⟩ :: ⟨.progress, answer⟩ :: after ∧
          (next cause).Exchanges after r := by
    obtain ⟨answer, after, rfl, ⟨progress, rfl, rfl, rfl⟩ | ⟨rfl, rfl, rfl⟩ | ⟨hanswer, hnext⟩⟩ :=
      exchanges_askTaken hask
    · exact .inl ⟨_, rfl, .found hfault⟩
    · exact .inl ⟨_, rfl, .askRefused hfault⟩
    · exact .inr ⟨fault, answer, after, hfault, hanswer, rfl, hnext⟩
  match answer with
  | .ok receipt =>
    by_cases hfirst : attempt = 1
    · subst hfirst
      obtain ⟨rfl, rfl⟩ := exchanges_done.1 hrest
      exact .inl ⟨_, rfl, .accepted⟩
    · simp only [if_neg hfirst] at hrest
      obtain ⟨answer, rest, rfl, hdone⟩ := exchanges_ask.1 hrest
      obtain ⟨rfl, rfl⟩ := exchanges_done.1 hdone
      exact .inl ⟨_, rfl, .folded hfirst⟩
  | .error .signedOut =>
    obtain ⟨rfl, rfl⟩ := exchanges_done.1 hrest
    exact .inl ⟨_, rfl, .refused⟩
  | .error (.refused message) => exact hfailed _ nofun hrest
  | .error .unreachable => exact hfailed _ nofun hrest

/-- **A submission takes one of these ways**, and always ends. -/
theorem exchanges_submitFrom {left attempt : ℕ} {es : List FollowExchange}
    {r : Except Unfinished (Except Fault Taken)}
    (h : (submitFrom left attempt).Exchanges es r) :
    ∃ taken, r = .ok taken ∧ SubmitCourse left attempt es taken := by
  induction left generalizing attempt es with
  | zero =>
    rcases exchanges_attemptOnce h with hended | ⟨fault, answer, rest, hfault, hanswer, rfl, hnext⟩
    · exact hended
    · obtain ⟨rfl, rfl⟩ := exchanges_done.1 hnext
      exact ⟨_, rfl, .gaveUp hfault hanswer⟩
  | succ left ih =>
    rcases exchanges_attemptOnce h with hended | ⟨fault, answer, rest, hfault, hanswer, rfl, hnext⟩
    · exact hended
    · obtain ⟨_, rest, rfl, hagain⟩ := exchanges_ask.1 hnext
      obtain ⟨taken, rfl, hcourse⟩ := ih hagain
      exact ⟨taken, rfl, .again hfault hanswer hcourse⟩

end Ui

end Dependaboard
