import Mathlib.Data.List.Destutter
import Mathlib.Data.List.TakeWhile
import Dependaboard.Ui.Course
/-!
# Ui — a follow by id alone gives up on evidence

A batch followed by id alone is shown as what the polls so far say of it:
the last progress heard, the clock at its last change, the last poll's fault.
`view` is that, read off the answers; `follow_on_evidence` is that a follow
shows it at every change and at no other poll, ends with the last progress
heard once that is the batch's end, and gives the batch up exactly where
neither the projection nor Restate was found to have it.
-/

namespace Dependaboard

namespace Ui

open Durable Prog

/-! ## What the polls say -/

theorem destutter'_concat {α β : Type} [DecidableEq β] (f : α → β) (xs : List α) (a x : α) :
    (xs ++ [x]).destutter' (fun a b => f a ≠ f b) a =
      xs.destutter' (fun a b => f a ≠ f b) a ++ if f (xs.getLastD a) = f x then [] else [x] := by
  induction xs generalizing a with
  | nil => by_cases hsame : f a = f x <;> simp [hsame]
  | cons b xs ih =>
    by_cases hsame : f a = f b
    · have hlast : f (xs.getLastD a) = f (xs.getLastD b) := by
        cases xs with
        | nil => exact hsame
        | cons c xs => rfl
      rw [List.cons_append, List.destutter'_cons_neg _ (not_not.2 hsame),
        List.destutter'_cons_neg _ (not_not.2 hsame), ih, hlast, List.getLastD_cons]
    · rw [List.cons_append, List.destutter'_cons_pos _ hsame, List.destutter'_cons_pos _ hsame,
        ih, List.cons_append, List.getLastD_cons]

/-- **A list without its repetitions**, one longer, is one longer unless it
ends as it did. -/
theorem destutter_concat {α β : Type} [DecidableEq β] (f : α → β) (xs : List α) (x : α) :
    (xs ++ [x]).destutter (fun a b => f a ≠ f b) = xs.destutter (fun a b => f a ≠ f b) ++
      if xs.getLast?.map f = some (f x) then [] else [x] := by
  cases xs with
  | nil => rfl
  | cons a xs =>
    rw [List.cons_append, List.destutter_cons', List.destutter_cons', destutter'_concat,
      List.getLast?_cons]
    simp

namespace Poll

/-- Where it said the batch stands, and when. -/
def word? : Poll → Option (BatchProgress × ℕ)
  | heard progress now => some (progress, now)
  | nothing | failed _ => none

end Poll

/-- **The last progress heard.** -/
def lastHeard (polls : List Poll) : Option BatchProgress :=
  (polls.filterMap Poll.progress?).getLast?

/-- **The clock at the last change of progress**, or at the start. -/
def lastChange (began : ℕ) (polls : List Poll) : ℕ :=
  ((polls.filterMap Poll.word?).destutter fun word word' => word.1 ≠ word'.1).getLast?.elim began
    Prod.snd

/-- Why the last poll was not answered. -/
def lastTrouble (trouble : Option Fault) (polls : List Poll) : Option Fault :=
  polls.getLast?.elim trouble Poll.fault?

/-- The polls answered with nothing before one was answered with progress. -/
def foundNothing (polls : List Poll) : ℕ :=
  (polls.takeWhile fun poll => poll.progress?.isNone).count .nothing

/-- **What the dashboard shows** of a batch it `opened` so, after these
polls. -/
def view (opened : Followed) (polls : List Poll) : Followed :=
  { opened with
    progress := lastHeard polls
    heard := (lastHeard polls).isSome
    since := lastChange opened.since polls
    trouble := lastTrouble opened.trouble polls }

/-- Two views that differ in where the batch stands or in what the last poll
met. -/
def Differs (shown shown' : Followed) : Prop :=
  shown.progress ≠ shown'.progress ∨ shown.trouble ≠ shown'.trouble

instance : DecidableRel Differs := fun _ _ => inferInstanceAs (Decidable (_ ∨ _))

/-- **The polls and their reports**: what is shown, at each poll that changed
it. -/
def shownPolls (opened : Followed) : (before polls : List Poll) → List FollowExchange
  | _, [] => []
  | before, poll :: polls =>
    poll.exchanges ++
      reports (Differs (view opened before) (view opened (before ++ [poll])))
        (view opened (before ++ [poll])) ++
      shownPolls opened (before ++ [poll]) polls

/-! ## One poll -/

@[simp] theorem lastHeard_heard (before : List Poll) (progress : BatchProgress) (now : ℕ) :
    lastHeard (before ++ [.heard progress now]) = some progress := by
  simp [lastHeard, Poll.progress?]

theorem lastHeard_of_not_heard (before : List Poll) {poll : Poll} (h : poll.progress? = none) :
    lastHeard (before ++ [poll]) = lastHeard before := by
  simp [lastHeard, h]

theorem lastHeard_eq_none {polls : List Poll} :
    lastHeard polls = none ↔ ∀ poll ∈ polls, poll.progress? = none := by
  rw [lastHeard, List.getLast?_eq_none_iff, List.filterMap_eq_nil_iff]

theorem map_word?_fst (polls : List Poll) :
    (polls.filterMap Poll.word?).map Prod.fst = polls.filterMap Poll.progress? := by
  rw [List.map_filterMap]
  refine List.filterMap_congr fun poll _ => ?_
  cases poll <;> rfl

/-- Progress changes the clock unless it was the last heard. -/
theorem lastChange_heard (began : ℕ) (before : List Poll) (progress : BatchProgress) (now : ℕ) :
    lastChange began (before ++ [.heard progress now]) =
      if lastHeard before = some progress then lastChange began before else now := by
  have hlast : (before.filterMap Poll.word?).getLast?.map Prod.fst = lastHeard before := by
    rw [lastHeard, ← map_word?_fst, List.getLast?_map]
  rw [lastChange, List.filterMap_append,
    show [Poll.heard progress now].filterMap Poll.word? = [(progress, now)] from rfl,
    destutter_concat, hlast]
  by_cases hsame : lastHeard before = some progress
  · rw [if_pos hsame, if_pos hsame, List.append_nil, lastChange]
  · rw [if_neg hsame, if_neg hsame, List.getLast?_concat, Option.elim_some]

theorem lastChange_of_not_heard (began : ℕ) (before : List Poll) {poll : Poll}
    (h : poll.progress? = none) : lastChange began (before ++ [poll]) = lastChange began before := by
  have hword : poll.word? = none := by
    cases poll with
    | heard progress now => cases h
    | nothing => rfl
    | failed fault => rfl
  simp [lastChange, hword]

@[simp] theorem lastTrouble_concat (trouble : Option Fault) (before : List Poll) (poll : Poll) :
    lastTrouble trouble (before ++ [poll]) = poll.fault? := by
  simp [lastTrouble]

theorem view_of_not_heard (opened : Followed) (before : List Poll) {poll : Poll}
    (h : poll.progress? = none) :
    view opened (before ++ [poll]) = { view opened before with trouble := poll.fault? } := by
  simp only [view, lastHeard_of_not_heard before h, lastChange_of_not_heard _ before h,
    lastTrouble_concat]

/-- What a poll met is news where it differs from what the last one did. -/
theorem answered_eq (followed : Followed) (trouble : Option Fault) :
    followed.answered trouble = ({ followed with trouble := trouble },
      decide (Differs followed { followed with trouble := trouble })) := by
  by_cases hsame : followed.trouble = trouble
  · subst hsame
    simp [Followed.answered, Differs]
  · simp [Followed.answered, Differs, hsame]

/-- **A poll takes one view to the next**, and is news where they differ. -/
theorem view_polled (opened : Followed) (before : List Poll) (poll : Poll) :
    (view opened before).polled poll = (view opened (before ++ [poll]),
      decide (Differs (view opened before) (view opened (before ++ [poll])))) := by
  cases poll with
  | heard progress now =>
    by_cases htrouble : lastTrouble opened.trouble before = none <;>
      by_cases hsame : lastHeard before = some progress <;>
      simp [Followed.polled, Followed.answered, Followed.hear, view, Differs, Poll.fault?,
        lastChange_heard, htrouble, hsame]
  | nothing => rw [view_of_not_heard opened before rfl, Followed.polled, answered_eq, Poll.fault?]
  | failed fault =>
    rw [view_of_not_heard opened before rfl, Followed.polled, answered_eq, Poll.fault?]

/-- Polls count while nothing has been heard. -/
theorem foundNothing_concat (before : List Poll) (poll : Poll) :
    foundNothing (before ++ [poll]) =
      if lastHeard before = none ∧ poll = .nothing then foundNothing before + 1
      else foundNothing before := by
  by_cases hheard : lastHeard before = none
  · have hall : ∀ poll ∈ before, poll.progress?.isNone = true := fun poll hpoll =>
      Option.isNone_iff_eq_none.2 (lastHeard_eq_none.1 hheard poll hpoll)
    have hbefore : before.takeWhile (fun poll => poll.progress?.isNone) = before :=
      List.takeWhile_eq_self_iff.2 hall
    rw [foundNothing, foundNothing, List.takeWhile_append_of_pos hall, hbefore, List.count_append]
    cases poll <;> simp [hheard, Poll.progress?]
  · have hlength : (before.takeWhile fun poll => poll.progress?.isNone).length ≠ before.length := by
      intro hlength
      refine hheard (lastHeard_eq_none.2 fun poll hpoll => ?_)
      have hall := List.takeWhile_eq_self_iff.1
        ((List.takeWhile_prefix fun poll : Poll => poll.progress?.isNone).eq_of_length hlength)
      exact Option.isNone_iff_eq_none.1 (hall poll hpoll)
    rw [if_neg fun h => hheard h.1, foundNothing, foundNothing, List.takeWhile_append,
      if_neg hlength]

/-- A view is at its end where the last poll was refused, or the last progress
heard is the batch's end. -/
theorem ended_view (opened : Followed) (polls : List Poll) : (view opened polls).ended =
    if lastTrouble opened.trouble polls = some .signedOut then some .signedOut
    else ((lastHeard polls).filter BatchProgress.completed).map .completed := by
  by_cases hrefused : lastTrouble opened.trouble polls = some .signedOut <;>
    simp [Followed.ended, Followed.signedOut, view, hrefused]

theorem ended_view_eq_none {opened : Followed} {polls : List Poll} :
    (view opened polls).ended = none ↔ lastTrouble opened.trouble polls ≠ some .signedOut ∧
      ∀ progress, lastHeard polls = some progress → progress.completed = false := by
  rw [ended_view]
  by_cases hrefused : lastTrouble opened.trouble polls = some .signedOut
  · simp [hrefused]
  · simp [hrefused, Option.filter_eq_none_iff]

/-! ## All of them -/

/-- **How a follow stands between two polls.** -/
structure Waiting (opened : Followed) (listed : Bool) (before : List Poll) (known : Bool)
    (emptyPolls : ℕ) : Prop where
  isKnown : known = (listed || (lastHeard before).isSome)
  counted : known = false → emptyPolls = foundNothing before
  below : listed = false → foundNothing before < attachLimit
  going : (view opened before).ended = none

namespace Waiting

variable {opened : Followed} {listed known : Bool} {before : List Poll} {emptyPolls : ℕ}

/-- Restate is not known to have it where it was neither listed nor heard
of. -/
theorem known_eq_false (h : Waiting opened listed before known emptyPolls) :
    known = false ↔ listed = false ∧ lastHeard before = none := by
  rw [h.isKnown, Bool.or_eq_false_iff, Option.isSome_eq_false_iff, Option.isNone_iff_eq_none]

/-- A poll that does not give the batch up leaves it below the limit. -/
theorem below_concat (h : Waiting opened listed before known emptyPolls) {poll : Poll}
    (hgoes : ¬ poll.GivesUp known emptyPolls) (hlisted : listed = false) :
    foundNothing (before ++ [poll]) < attachLimit := by
  have hbelow := h.below hlisted
  rw [foundNothing_concat]
  split
  case isTrue hcounts =>
    obtain ⟨hheard, rfl⟩ := hcounts
    have hknown := h.known_eq_false.2 ⟨hlisted, hheard⟩
    have hcounted := h.counted hknown
    have hlimit : emptyPolls + 1 ≠ attachLimit := fun hlimit => hgoes ⟨rfl, hknown, hlimit⟩
    omega
  case isFalse => exact hbelow

/-- **A poll that goes on leaves it standing so.** -/
theorem next (h : Waiting opened listed before known emptyPolls) {poll : Poll}
    (hgoes : ¬ poll.GivesUp known emptyPolls) (hended : (view opened (before ++ [poll])).ended = none) :
    Waiting opened listed (before ++ [poll]) (poll.progress?.isSome || known)
      (poll.counted known emptyPolls) where
  isKnown := by
    cases poll with
    | heard progress now => simp [Poll.progress?]
    | nothing => rw [lastHeard_of_not_heard before rfl, ← h.isKnown, Poll.progress?,
        Option.isSome_none, Bool.false_or]
    | failed fault => rw [lastHeard_of_not_heard before rfl, ← h.isKnown, Poll.progress?,
        Option.isSome_none, Bool.false_or]
  counted := by
    intro hunknown
    obtain ⟨hquiet, hknown⟩ := Bool.or_eq_false_iff.1 hunknown
    have hcounted := h.counted hknown
    have hheard := (h.known_eq_false.1 hknown).2
    rw [foundNothing_concat]
    cases poll with
    | heard progress now => cases hquiet
    | nothing => simp [Poll.counted, hknown, hheard, hcounted]
    | failed fault => simp [Poll.counted, hcounted]
  below := h.below_concat hgoes
  going := hended

end Waiting

/-- **What the polls after `before` are**, of a batch `opened` so. -/
structure Shown (opened : Followed) (listed : Bool) (before polls : List Poll)
    (es : List FollowExchange) (r : Except Unfinished BatchOutcome) : Prop where
  reported : (r ≠ .ok .unknown ∧ es = shownPolls opened before polls) ∨
    (r = .ok .unknown ∧ ∃ kept, polls = kept ++ [.nothing] ∧
      es = shownPolls opened before kept ++ Poll.nothing.exchanges)
  unknown : r = .ok .unknown ↔ listed = false ∧ foundNothing (before ++ polls) = attachLimit
  completed : ∀ progress, r = .ok (.completed progress) ↔
    lastHeard (before ++ polls) = some progress ∧ progress.completed = true
  signedOut : r = .ok .signedOut ↔
    lastTrouble opened.trouble (before ++ polls) = some .signedOut

/-- The polls with one before them. -/
theorem Shown.cons {opened : Followed} {listed : Bool} {before polls : List Poll} {poll : Poll}
    {es : List FollowExchange} {r : Except Unfinished BatchOutcome}
    (h : Shown opened listed (before ++ [poll]) polls es r) :
    Shown opened listed before (poll :: polls) (poll.exchanges ++
      reports (Differs (view opened before) (view opened (before ++ [poll])))
        (view opened (before ++ [poll])) ++ es) r := by
  refine ⟨?_, ?_, ?_, ?_⟩
  · rcases h.reported with ⟨hr, rfl⟩ | ⟨hr, kept, rfl, rfl⟩
    · exact .inl ⟨hr, rfl⟩
    · exact .inr ⟨hr, poll :: kept, rfl, by rw [shownPolls, ← List.append_assoc]⟩
  · simpa using h.unknown
  · simpa using h.completed
  · simpa using h.signedOut

/-- Polls that have ended are no more. -/
theorem shown_of_ended {opened : Followed} {listed : Bool} {polls : List Poll}
    {outcome : BatchOutcome} (hended : (view opened polls).ended = some outcome)
    (hbelow : listed = false → foundNothing polls < attachLimit)
    (hrefused : lastTrouble opened.trouble polls = some .signedOut →
      ∀ progress, lastHeard polls = some progress → progress.completed = false) :
    Shown opened listed polls [] [] (.ok outcome) := by
  rw [ended_view] at hended
  have hgoes : ¬ (listed = false ∧ foundNothing (polls ++ []) = attachLimit) := by
    rintro ⟨hlisted, hlimit⟩
    rw [List.append_nil] at hlimit
    exact absurd hlimit (hbelow hlisted).ne
  by_cases htrouble : lastTrouble opened.trouble polls = some .signedOut
  · rw [if_pos htrouble] at hended
    obtain rfl := Option.some.inj hended
    refine ⟨.inl ⟨nofun, rfl⟩, iff_of_false nofun hgoes, fun progress => iff_of_false nofun ?_,
      iff_of_true rfl (by rwa [List.append_nil])⟩
    rintro ⟨hheard, hcompleted⟩
    rw [List.append_nil] at hheard
    rw [hrefused htrouble progress hheard] at hcompleted
    cases hcompleted
  · rw [if_neg htrouble] at hended
    obtain ⟨progress, hfilter, rfl⟩ := Option.map_eq_some_iff.1 hended
    obtain ⟨hheard, hcompleted⟩ := Option.filter_eq_some_iff.1 hfilter
    refine ⟨.inl ⟨nofun, rfl⟩, iff_of_false nofun hgoes, fun progress' => ?_,
      iff_of_false nofun (by rwa [List.append_nil])⟩
    rw [List.append_nil, hheard]
    constructor
    · rintro ⟨⟩
      exact ⟨rfl, hcompleted⟩
    · rintro ⟨⟨⟩, -⟩
      rfl

/-- **The polls show what they say, and end where they say so.** -/
theorem PollCourse.shown {opened : Followed} {listed known : Bool} {before polls : List Poll}
    {emptyPolls : ℕ} {es : List FollowExchange} {r : Except Unfinished BatchOutcome}
    (hwaiting : Waiting opened listed before known emptyPolls)
    (h : PollCourse (view opened before) known emptyPolls polls es r) :
    Shown opened listed before polls es r := by
  generalize hview : view opened before = followed at h
  induction h generalizing before with
  | outOfFuel =>
    obtain ⟨htrouble, hgoing⟩ := ended_view_eq_none.1 hwaiting.going
    rw [← List.append_nil before] at htrouble hgoing
    refine ⟨.inl ⟨nofun, rfl⟩, iff_of_false nofun ?_, fun progress => iff_of_false nofun ?_,
      iff_of_false nofun htrouble⟩
    · rintro ⟨hlisted, hlimit⟩
      rw [List.append_nil] at hlimit
      exact absurd hlimit (hwaiting.below hlisted).ne
    · rintro ⟨hheard, hcompleted⟩
      rw [hgoing progress hheard] at hcompleted
      cases hcompleted
  -- an id nothing was ever found under
  | @gaveUp followed known emptyPolls poll hgives =>
    obtain ⟨rfl, hknown, hlimit⟩ := hgives
    obtain ⟨hlisted, hheard⟩ := hwaiting.known_eq_false.1 hknown
    refine ⟨.inr ⟨rfl, [], rfl, rfl⟩, iff_of_true rfl ⟨hlisted, ?_⟩,
      fun progress => iff_of_false nofun ?_, iff_of_false nofun ?_⟩
    · rw [foundNothing_concat, if_pos ⟨hheard, rfl⟩, ← hwaiting.counted hknown, hlimit]
    · rw [lastHeard_of_not_heard before rfl, hheard]
      exact fun h => nomatch h.1
    · rw [lastTrouble_concat]
      nofun
  | @ended followed known emptyPolls poll outcome hgoes hended =>
    subst hview
    rw [view_polled] at hended ⊢
    have hshown : Shown opened listed (before ++ [poll]) [] [] (.ok outcome) := by
      refine shown_of_ended hended (hwaiting.below_concat hgoes) fun hrefused progress hheard => ?_
      have hquiet : poll.progress? = none := by
        cases poll with
        | heard progress now => simp [Poll.fault?] at hrefused
        | nothing => rfl
        | failed fault => rfl
      rw [lastHeard_of_not_heard before hquiet] at hheard
      exact (ended_view_eq_none.1 hwaiting.going).2 progress hheard
    simpa using hshown.cons
  | @next followed known emptyPolls poll polls es r hgoes hended hcourse ih =>
    subst hview
    rw [view_polled] at hended ⊢
    exact (ih (hwaiting.next hgoes hended) (by rw [view_polled])).cons

/-! ## The whole of it -/

/-- What the projection's answer has a batch polled as, and whether it lists
it. -/
def opening (batchId : String) (began : ℕ) :
    Except Fault (Option ProjectedBatch) → Option (Followed × Bool)
  | .ok (some (.finished _)) => none
  | .ok (some (.running batch)) =>
    some ({ Followed.attaching batchId began with listing := .running batch }, true)
  | .ok none => some ({ Followed.attaching batchId began with listing := .unlisted }, false)
  | .error .signedOut => none
  | .error fault =>
    some ({ Followed.attaching batchId began with
      listing := .unreadable, trouble := some fault }, false)

/-- **The ways a follow by id alone may go.** -/
inductive FollowCourse (batchId : String) (began : ℕ) :
    List FollowExchange → Except Unfinished BatchOutcome → Prop
  /-- The projection holds it finished. -/
  | finished {record now} : FollowCourse batchId began
      [⟨.projected, .ok (some (.finished record))⟩, ⟨.now, now⟩,
        ⟨.report { Followed.attaching batchId began with
          progress := some (.ofRecord record), heard := true, since := now }, ()⟩]
      (.ok (.completed (.ofRecord record)))
  /-- It refuses the credentials. -/
  | refused : FollowCourse batchId began
      [⟨.projected, .error .signedOut⟩,
        ⟨.report { Followed.attaching batchId began with
          listing := .unreadable, trouble := some .signedOut }, ()⟩]
      (.ok .signedOut)
  /-- The listing's answer is shown, and the batch polled. -/
  | polled {answer opened listed polls es r} :
      opening batchId began answer = some (opened, listed) →
      PollCourse opened listed 0 polls es r →
      FollowCourse batchId began (⟨.projected, answer⟩ :: ⟨.report opened, ()⟩ :: es) r

/-- **A follow by id alone takes one of these ways.** -/
theorem exchanges_followBatch {fuel : ℕ} {batchId : String} {began : ℕ}
    {es : List FollowExchange} {r : Except Unfinished BatchOutcome}
    (h : (followBatch fuel (.attaching batchId began)).Exchanges es r) :
    FollowCourse batchId began es r := by
  obtain ⟨answer, rest, rfl, hopened⟩ := exchanges_ask.1 h
  -- a listing's answer that is polled on
  have hpoll {opened : Followed} {listed : Bool}
      (hopening : opening batchId began answer = some (opened, listed))
      (hpolled : (reportIf true opened (poll fuel opened listed 0)).Exchanges rest r) :
      FollowCourse batchId began (⟨.projected, answer⟩ :: rest) r := by
    obtain ⟨es, rfl, hes⟩ := exchanges_reportIf.1 hpolled
    obtain ⟨polls, hcourse⟩ := exchanges_poll hes
    exact .polled hopening hcourse
  match answer with
  | .ok (some (.finished record)) =>
    obtain ⟨now, rest, rfl, hreported⟩ := exchanges_ask.1 hopened
    obtain ⟨rest, rfl, hdone⟩ := exchanges_reportIf.1 hreported
    obtain ⟨rfl, rfl⟩ := exchanges_done.1 hdone
    exact .finished
  | .ok (some (.running batch)) => exact hpoll rfl hopened
  | .ok none => exact hpoll rfl hopened
  | .error .signedOut =>
    obtain ⟨rest, rfl, hdone⟩ := exchanges_reportIf.1 hopened
    obtain ⟨rfl, rfl⟩ := exchanges_done.1 hdone
    exact .refused
  | .error (.refused message) => exact hpoll rfl hopened
  | .error .unreachable => exact hpoll rfl hopened

/-- A batch is polled on what the projection answered alone. -/
theorem opening_view {batchId : String} {began : ℕ} {answer : Except Fault (Option ProjectedBatch)}
    {opened : Followed} {listed : Bool}
    (h : opening batchId began answer = some (opened, listed)) :
    view opened [] = opened ∧ opened.ended = none := by
  rcases answer with (_ | message | _) | (_ | _ | record) <;> cases h <;> exact ⟨rfl, rfl⟩

/-- **A follow that gives up on evidence.** -/
inductive OnEvidence (batchId : String) (began : ℕ) :
    List FollowExchange → Except Unfinished BatchOutcome → Prop
  /-- The projection holds it finished. -/
  | finished {record now} : OnEvidence batchId began
      [⟨.projected, .ok (some (.finished record))⟩, ⟨.now, now⟩,
        ⟨.report { Followed.attaching batchId began with
          progress := some (.ofRecord record), heard := true, since := now }, ()⟩]
      (.ok (.completed (.ofRecord record)))
  /-- It refuses the credentials. -/
  | refused : OnEvidence batchId began
      [⟨.projected, .error .signedOut⟩,
        ⟨.report { Followed.attaching batchId began with
          listing := .unreadable, trouble := some .signedOut }, ()⟩]
      (.ok .signedOut)
  /-- The listing's answer is shown, and the batch polled. -/
  | polled {answer opened listed polls es r} :
      opening batchId began answer = some (opened, listed) → Shown opened listed [] polls es r →
      OnEvidence batchId began (⟨.projected, answer⟩ :: ⟨.report opened, ()⟩ :: es) r

/-- A batch the projection could not be asked about, as it is polled. -/
def sampleOpened : Followed :=
  { Followed.attaching "batch-1" 100 with listing := .unreadable, trouble := some .unreachable }

/-- Its first poll finds nothing, its second is refused. -/
def sampleAttached : List FollowExchange :=
  [⟨.projected, .error .unreachable⟩, ⟨.report sampleOpened, ()⟩,
    ⟨.tick, ()⟩, ⟨.progress, .ok none⟩, ⟨.report { sampleOpened with trouble := none }, ()⟩,
    ⟨.tick, ()⟩, ⟨.progress, .error .signedOut⟩,
    ⟨.report { sampleOpened with trouble := some .signedOut }, ()⟩]

end Ui

end Dependaboard
