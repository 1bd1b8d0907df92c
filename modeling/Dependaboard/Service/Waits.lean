import Dependaboard.Durable.Exchange
import Dependaboard.Service.Step
/-!
# Service — a step that waits for GitHub

A step is attempted until an attempt settles; one that is rate limited is
slept over, until the moment it was told, and made again. How a step's
attempts and sleeps follow one another is `StepCourse`, and
`runGithubStep_waits` is what is read off it.
-/

namespace Dependaboard

open Durable Prog

/-! ## The step -/

/-- What a step asks of Restate. -/
inductive StepOp where
  /-- Run the call once and journal what came of it. -/
  | attempt
  /-- Sleep until a moment, in seconds. -/
  | sleepUntil (until_ : ℕ)
  deriving DecidableEq, Repr

/-- A step's effects; each may fail, with the message of a terminal error. -/
@[reducible] def StepEffects (α : Type) : Signature :=
  ⟨StepOp, fun
    | .attempt => Except String (Attempt α)
    | .sleepUntil _ => Except String Unit⟩

variable {α : Type} {name : String}

/-- What a step fails with that is rate limited past its last wait. -/
def keptRateLimiting (name : String) (until_ : ℕ) (response : GithubErrorResponse) : HandlerError :=
  .terminal ("GitHub kept rate limiting " ++ name ++ " after " ++ toString maxRateLimitWaits
    ++ " waits; last reset at " ++ toString until_ ++ ": " ++ response.message)

/-- Attempt a step once, and go on as told where it is rate limited. -/
def attemptStep (onRateLimited : ℕ → GithubErrorResponse →
    Prog (StepEffects α) HandlerError (Settled α)) : Prog (StepEffects α) HandlerError (Settled α) :=
  .ask .attempt fun
    | .error cause => .fail (.terminal cause)
    | .ok (.settled settled) => .done settled
    | .ok (.rateLimited until_ response) => onRateLimited until_ response

/-- The step's loop, with so many waits left to it. -/
def runGithubStepFrom (name : String) :
    (waitsLeft : ℕ) → Prog (StepEffects α) HandlerError (Settled α)
  | 0 => attemptStep fun until_ response => .fail (keptRateLimiting name until_ response)
  | waitsLeft + 1 => attemptStep fun until_ _ => .ask (.sleepUntil until_) fun
    | .error cause => .fail (.terminal cause)
    | .ok () => runGithubStepFrom name waitsLeft

/-- Run a GitHub call as a journaled step until it settles. -/
def runGithubStep (name : String) : Prog (StepEffects α) HandlerError (Settled α) :=
  runGithubStepFrom name maxRateLimitWaits

/-! ## Its course -/

/-- An attempt, as it was answered. -/
def attempted (answer : Except String (Attempt α)) : Exchange (StepEffects α) := ⟨.attempt, answer⟩

/-- A sleep, as it ended. -/
def slept (until_ : ℕ) (answer : Except String Unit) : Exchange (StepEffects α) :=
  ⟨.sleepUntil until_, answer⟩

/-- How a step with so many waits left goes, by what its attempts and sleeps
are answered. -/
inductive StepCourse (name : String) :
    ℕ → List (Exchange (StepEffects α)) → Except HandlerError (Settled α) → Prop
  | settled {left settled} : StepCourse name left [attempted (.ok (.settled settled))] (.ok settled)
  | attemptFailed {left cause} :
      StepCourse name left [attempted (.error cause)] (.error (.terminal cause))
  /-- The attempt after the last wait is rate limited. -/
  | spent {until_ response} : StepCourse name 0 [attempted (.ok (.rateLimited until_ response))]
      (.error (keptRateLimiting name until_ response))
  | sleepFailed {left until_ response cause} : StepCourse name (left + 1)
      [attempted (.ok (.rateLimited until_ response)), slept until_ (.error cause)]
      (.error (.terminal cause))
  | waited {left until_ response es r} : StepCourse name left es r →
      StepCourse name (left + 1)
        (attempted (.ok (.rateLimited until_ response)) :: slept until_ (.ok ()) :: es) r

/-- A step's first attempt ends it, or is rate limited and followed on. -/
theorem exchanges_attemptStep
    {onRateLimited : ℕ → GithubErrorResponse → Prog (StepEffects α) HandlerError (Settled α)}
    {left : ℕ} {es : List (Exchange (StepEffects α))} {r : Except HandlerError (Settled α)}
    (h : (attemptStep onRateLimited).Exchanges es r) :
    StepCourse name left es r ∨ ∃ until_ response rest,
      es = attempted (.ok (.rateLimited until_ response)) :: rest ∧
        (onRateLimited until_ response).Exchanges rest r := by
  obtain ⟨answer, rest, rfl, hrest⟩ := exchanges_ask.1 h
  match answer, hrest with
  | .error cause, hrest =>
    obtain ⟨rfl, rfl⟩ := exchanges_fail.1 hrest
    exact .inl .attemptFailed
  | .ok (.settled settled), hrest =>
    obtain ⟨rfl, rfl⟩ := exchanges_done.1 hrest
    exact .inl .settled
  | .ok (.rateLimited until_ response), hrest => exact .inr ⟨until_, response, rest, rfl, hrest⟩

/-- **What a step exchanges is its course.** -/
theorem exchanges_runGithubStepFrom {left : ℕ} {es : List (Exchange (StepEffects α))}
    {r : Except HandlerError (Settled α)} (h : (runGithubStepFrom name left).Exchanges es r) :
    StepCourse name left es r := by
  -- on the waits left
  induction left generalizing es with
  | zero =>
    rcases exchanges_attemptStep h with hend | ⟨until_, response, rest, rfl, hrest⟩
    · exact hend
    · obtain ⟨rfl, rfl⟩ := exchanges_fail.1 hrest
      exact .spent
  | succ left ih =>
    rcases exchanges_attemptStep h with hend | ⟨until_, response, rest, rfl, hrest⟩
    · exact hend
    · obtain ⟨woken, later, rfl, hlater⟩ := exchanges_ask.1 hrest
      cases woken with
      | error cause =>
        obtain ⟨rfl, rfl⟩ := exchanges_fail.1 hlater
        exact .sleepFailed
      | ok _ => exact .waited (ih hlater)

/-! ## What is read off it -/

/-- The answer an exchange gave an attempt. -/
def attemptOf : Exchange (StepEffects α) → Option (Except String (Attempt α))
  | ⟨.attempt, answer⟩ => some answer
  | ⟨.sleepUntil _, _⟩ => none

/-- The moment an exchange slept until. -/
def sleepOf : Exchange (StepEffects α) → Option ℕ
  | ⟨.attempt, _⟩ => none
  | ⟨.sleepUntil until_, _⟩ => some until_

/-- The moment an attempt was told to wait for. -/
def advertised : Except String (Attempt α) → Option ℕ
  | .ok (.rateLimited until_ _) => some until_
  | _ => none

/-- What an attempt settled on. -/
def settledOn : Except String (Attempt α) → Option (Settled α)
  | .ok (.settled settled) => some settled
  | _ => none

/-- The attempts of a run, as they were answered, in order. -/
def attempts (es : List (Exchange (StepEffects α))) : List (Except String (Attempt α)) :=
  es.filterMap attemptOf

/-- The moments a run slept until, in order. -/
def sleeps (es : List (Exchange (StepEffects α))) : List ℕ := es.filterMap sleepOf

@[simp] theorem slept_ne_attempted {until_ : ℕ} {woken : Except String Unit}
    {answer : Except String (Attempt α)} : slept until_ woken ≠ attempted answer := by
  intro h
  cases h

@[simp] theorem attempted_ne_slept {until_ : ℕ} {woken : Except String Unit}
    {answer : Except String (Attempt α)} : attempted answer ≠ slept until_ woken :=
  slept_ne_attempted.symm

@[simp] theorem attempted_inj {answer answer' : Except String (Attempt α)} :
    attempted answer = attempted answer' ↔ answer = answer' := by
  constructor
  · intro h
    cases h
    rfl
  · rintro rfl
    rfl

@[simp] theorem slept_inj {until_ until_' : ℕ} {woken woken' : Except String Unit} :
    (slept until_ woken : Exchange (StepEffects α)) = slept until_' woken' ↔
      until_ = until_' ∧ woken = woken' := by
  constructor
  · intro h
    cases h
    exact ⟨rfl, rfl⟩
  · rintro ⟨rfl, rfl⟩
    rfl

@[simp] theorem attempts_nil : attempts ([] : List (Exchange (StepEffects α))) = [] := rfl

@[simp] theorem sleeps_nil : sleeps ([] : List (Exchange (StepEffects α))) = [] := rfl

section Cons

variable (answer : Except String (Attempt α)) (until_ : ℕ) (woken : Except String Unit)
  (es : List (Exchange (StepEffects α)))

@[simp] theorem attempts_attempted : attempts (attempted answer :: es) = answer :: attempts es :=
  rfl

@[simp] theorem attempts_slept : attempts (slept until_ woken :: es) = attempts es := rfl

@[simp] theorem sleeps_attempted : sleeps (attempted answer :: es) = sleeps es := rfl

@[simp] theorem sleeps_slept : sleeps (slept until_ woken :: es) = until_ :: sleeps es := rfl

end Cons

namespace StepCourse

variable {left : ℕ} {es : List (Exchange (StepEffects α))} {r : Except HandlerError (Settled α)}

theorem sleeps_length_le (h : StepCourse name left es r) : (sleeps es).length ≤ left := by
  induction h with
  | settled => simp
  | attemptFailed => simp
  | spent => simp
  | sleepFailed => simp
  | waited _ ih =>
    simp only [sleeps_attempted, sleeps_slept, List.length_cons]
    omega

theorem attempts_length_le (h : StepCourse name left es r) :
    (attempts es).length ≤ (sleeps es).length + 1 := by
  induction h with
  | settled => simp
  | attemptFailed => simp
  | spent => simp
  | sleepFailed => simp
  | waited _ ih =>
    simp only [attempts_attempted, attempts_slept, sleeps_attempted, sleeps_slept,
      List.length_cons]
    omega

/-- It sleeps over each wait it is told, but for the one past the last. -/
theorem sleeps_eq (h : StepCourse name left es r) :
    sleeps es = ((attempts es).filterMap advertised).take left := by
  induction h with
  | settled => simp [advertised]
  | attemptFailed => simp [advertised]
  | spent => simp
  | sleepFailed => simp [advertised]
  | waited _ ih => simp [advertised, ih]

/-- Each sleep follows the attempt that told of it. -/
theorem told (h : StepCourse name left es r) {before after : List (Exchange (StepEffects α))}
    {until_ : ℕ} {woken : Except String Unit} (hes : es = before ++ slept until_ woken :: after) :
    ∃ earlier response,
      before = earlier ++ [attempted (.ok (.rateLimited until_ response))] := by
  induction h generalizing before with
  | settled => simp [List.singleton_eq_append_iff] at hes
  | attemptFailed => simp [List.singleton_eq_append_iff] at hes
  | spent => simp [List.singleton_eq_append_iff] at hes
  | @sleepFailed _ told response _ =>
    match before, hes with
    | [], hes => simp at hes
    | [first], hes =>
      simp only [List.singleton_append, List.cons.injEq, slept_inj] at hes
      obtain ⟨rfl, ⟨rfl, -⟩, -⟩ := hes
      exact ⟨[], response, rfl⟩
    | _ :: _ :: rest, hes => simp at hes
  | @waited _ told response _ _ _ ih =>
    match before, hes with
    | [], hes => simp at hes
    | [first], hes =>
      simp only [List.singleton_append, List.cons.injEq, slept_inj] at hes
      obtain ⟨rfl, ⟨rfl, -⟩, -⟩ := hes
      exact ⟨[], response, rfl⟩
    | first :: second :: rest, hes =>
      simp only [List.cons_append, List.cons.injEq] at hes
      obtain ⟨-, -, hrest⟩ := hes
      obtain ⟨earlier, response, rfl⟩ := ih hrest
      exact ⟨first :: second :: earlier, response, rfl⟩

/-- Nothing follows an attempt that settled. -/
theorem eq_nil_of_settled (h : StepCourse name left es r)
    {before after : List (Exchange (StepEffects α))} {settled : Settled α}
    (hes : es = before ++ attempted (.ok (.settled settled)) :: after) : after = [] := by
  induction h generalizing before with
  | settled =>
    match before, hes with
    | [], hes => exact (List.cons.inj hes).2.symm
    | _ :: rest, hes => simp at hes
  | attemptFailed => simp [List.singleton_eq_append_iff] at hes
  | spent => simp [List.singleton_eq_append_iff] at hes
  | sleepFailed =>
    match before, hes with
    | [], hes => simp at hes
    | [_], hes => simp at hes
    | _ :: _ :: rest, hes => simp at hes
  | waited _ ih =>
    match before, hes with
    | [], hes => simp at hes
    | [_], hes => simp at hes
    | _ :: _ :: rest, hes =>
      simp only [List.cons_append, List.cons.injEq] at hes
      exact ih hes.2.2

/-- It returns what its first settled attempt did. -/
theorem ok_iff (h : StepCourse name left es r) (settled : Settled α) :
    r = .ok settled ↔ (attempts es).findSome? settledOn = some settled := by
  induction h with
  | settled => simp [settledOn]
  | attemptFailed => simp [settledOn]
  | spent => simp [settledOn]
  | sleepFailed => simp [settledOn]
  | waited _ ih =>
    rw [ih, attempts_attempted, attempts_slept, List.findSome?_cons_of_isNone rfl]

/-- It fails where an attempt or a sleep did, and where the attempt after
its last wait is still rate limited. -/
theorem failed_iff (h : StepCourse name left es r) :
    (∃ message, r = .error (.terminal message)) ↔
      (∃ cause, .error cause ∈ attempts es) ∨ (∃ until_ cause, slept until_ (.error cause) ∈ es) ∨
        ∃ until_ response, (attempts es)[left]? = some (.ok (.rateLimited until_ response)) := by
  induction h with
  | @settled left => cases left <;> simp
  | attemptFailed => simp
  | spent => simp [keptRateLimiting]
  | sleepFailed => simp
  | waited _ ih => simp [ih]

theorem ended (h : StepCourse name left es r) :
    (∃ settled, r = .ok settled) ∨ ∃ message, r = .error (.terminal message) := by
  induction h with
  | settled => exact .inl ⟨_, rfl⟩
  | attemptFailed => exact .inr ⟨_, rfl⟩
  | spent => exact .inr ⟨_, rfl⟩
  | sleepFailed => exact .inr ⟨_, rfl⟩
  | waited _ ih => exact ih

end StepCourse

/-! ## The step waits as it is told -/

/-- **A run of a step waits as told and no more.** -/
structure WaitsAsTold (es : List (Exchange (StepEffects α)))
    (r : Except HandlerError (Settled α)) : Prop where
  sleeps_le : (sleeps es).length ≤ maxRateLimitWaits
  attempts_le : (attempts es).length ≤ (sleeps es).length + 1
  /-- It sleeps until the moments it is told, in order, but for the one it
  is told after its last wait. -/
  sleeps_eq : sleeps es = ((attempts es).filterMap advertised).take maxRateLimitWaits
  /-- Each sleep comes right after the attempt that told of it. -/
  told : ∀ before after until_ woken, es = before ++ slept until_ woken :: after →
    ∃ earlier response, before = earlier ++ [attempted (.ok (.rateLimited until_ response))]
  /-- What it returns is what the first settled attempt settled on. -/
  ok_iff : ∀ settled, r = .ok settled ↔ (attempts es).findSome? settledOn = some settled
  /-- Nothing is done after a settled attempt. -/
  last : ∀ before after settled,
    es = before ++ attempted (.ok (.settled settled)) :: after → after = []
  /-- What it does not return from, it fails terminally. -/
  ended : (∃ settled, r = .ok settled) ∨ ∃ message, r = .error (.terminal message)
  failed_iff : (∃ message, r = .error (.terminal message)) ↔
    (∃ cause, .error cause ∈ attempts es) ∨ (∃ until_ cause, slept until_ (.error cause) ∈ es) ∨
      ∃ until_ response,
        (attempts es)[maxRateLimitWaits]? = some (.ok (.rateLimited until_ response))

/-- **Whatever its attempts and sleeps are answered, in whatever order, a
step ends, and waits as it was told.** -/
theorem runGithubStep_waits (name : String) :
    (∀ answer : List (Exchange (StepEffects α)) → (op : StepOp) → (StepEffects α).Ans op,
      ∃ es r, (runGithubStep name).played answer [] = (es, r) ∧
        (runGithubStep name).Exchanges es r) ∧
    ∀ (es : List (Exchange (StepEffects α))) (r : Except HandlerError (Settled α)),
      (runGithubStep name).Exchanges es r → WaitsAsTold es r := by
  refine ⟨fun answer => ⟨_, _, rfl, exchanges_played _ answer []⟩, fun es r h => ?_⟩
  have hcourse : StepCourse name maxRateLimitWaits es r := exchanges_runGithubStepFrom h
  exact ⟨hcourse.sleeps_length_le, hcourse.attempts_length_le, hcourse.sleeps_eq,
    fun _ _ _ _ => hcourse.told, hcourse.ok_iff, fun _ _ _ => hcourse.eq_nil_of_settled,
    hcourse.ended, hcourse.failed_iff⟩

end Dependaboard
