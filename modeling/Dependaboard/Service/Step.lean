import Dependaboard.Github.Error
/-!
# Service — a GitHub call as a journaled step

What one attempt of a call journals, how a failure is classified, and what
a handler makes of a call that settled. A transient failure is not
journaled: it fails the attempt, and the step's policy runs it again.
-/

namespace Dependaboard

/-- A call once every wait and retry has been honoured. -/
inductive Settled (α : Type) where
  | ok (value : α)
  | rejected (reason : RejectReason) (response : GithubErrorResponse)
  | fatal (response : GithubErrorResponse)
  | staleSha (expected actual : String)
  deriving DecidableEq, Repr

/-- What one attempt journals: how its answer was read, so that a replay reads
the entry and not the answer again. -/
inductive Attempt (α : Type) where
  | settled (settled : Settled α)
  | rateLimited (until_ : ℕ) (response : GithubErrorResponse)
  deriving DecidableEq, Repr

/-- What a failed answer means for the caller. -/
inductive Classification where
  | retryable
  | rateLimited (until_ : ℕ)
  | rejected (reason : RejectReason)
  | fatal
  deriving DecidableEq, Repr

/-- The wait of a rate limit that names none. -/
def defaultRateLimitWaitSeconds : ℕ := 60

/-- How many rate-limit waits in a row a step honours. -/
def maxRateLimitWaits : ℕ := 3

/-- Addition that stops at the largest unsigned 64-bit integer. -/
def saturatingAdd (a b : ℕ) : ℕ := min (a + b) (u64Size - 1)

/-- GitHub asked to back off, so the wait is its own to name. -/
def isRateLimited (response : GithubErrorResponse) : Bool :=
  let message := asciiLowercase response.message
  response.rateLimitRemaining == some 0
    || response.retryAfterSeconds.isSome
    || containsText message "secondary rate limit"
    || containsText message "rate limit exceeded"
    || response.status == 429

/-- When the wait it asked for ends. -/
def rateLimitDeadline (response : GithubErrorResponse) (now : ℕ) : ℕ :=
  match response.retryAfterSeconds, response.rateLimitReset with
  | some after, _ => saturatingAdd now after
  | none, some reset => reset
  | none, none => saturatingAdd now defaultRateLimitWaitSeconds

/-- **What a failed answer is taken for.** -/
def classifyGithubError (response : GithubErrorResponse) (operation : Operation)
    (knownResource : Bool) (now : ℕ) : Classification :=
  let message := asciiLowercase response.message
  if isRateLimited response then .rateLimited (rateLimitDeadline response now)
  else if 500 ≤ response.status then .retryable
  else if operation = .merge ∧ response.status = 405
      ∧ containsText message "base branch was modified" then .retryable
  else match response.status, operation with
    | 404, _ => if knownResource then .rejected .notFound else .fatal
    | 403, .comment => .rejected .forbidden
    | 403, .merge | 403, .updateBranch =>
      if knownResource then .rejected .forbidden else .fatal
    | 405, .merge =>
      if containsText message "merge method" then .rejected .mergeMethodDisallowed
      else .rejected .notMergeable
    | 409, .merge | 422, .merge => .rejected .notMergeable
    | 422, .updateBranch => .rejected .notMergeable
    | _, _ => .fatal

/-- What an attempt journals of a call's result, or how it fails. -/
def journalGithubResult {α : Type} (result : Except GithubError α) (operation : Operation)
    (knownResource : Bool) (now : ℕ) : Except HandlerError (Attempt α) :=
  match result with
  | .ok value => .ok (.settled (.ok value))
  | .error (.http response verified) =>
    match classifyGithubError response operation (knownResource || verified) now with
    | .retryable => .error (.retryable ("transient GitHub failure: " ++ response.message))
    | .rateLimited until_ => .ok (.rateLimited until_ response)
    | .rejected reason => .ok (.settled (.rejected reason response))
    | .fatal => .ok (.settled (.fatal response))
  | .error (.staleSha expected actual) => .ok (.settled (.staleSha expected actual))
  | .error error@(.transport _) | .error error@(.ambiguous _ _) | .error error@(.shifted _ _) =>
    .error (.retryable ("transient GitHub failure: " ++ toString error))
  | .error error@(.protocol _) | .error error@(.config _) => .error (.terminal (toString error))

/-- A read that settled, for a handler. -/
def readResult {α : Type} : Settled α → Except HandlerError α
  | .ok value => .ok value
  | .rejected reason _ => .error (.terminal (toString reason))
  | .fatal response => .error (.terminal
      ("GitHub read failed with HTTP " ++ toString response.status ++ ": " ++ response.message))
  | .staleSha _ _ => .error (.terminal "unexpected stale SHA while reading GitHub")

/-- A mutation that settled, for a handler: a rejection is an outcome too,
and only a fatal answer fails. -/
def settledOutcome {α : Type} (result : Settled α) (succeeded : α → ActionOutcome) :
    Except HandlerError ActionOutcome :=
  match result with
  | .ok value => .ok (succeeded value)
  | .staleSha expected actual => .ok (.rejected (.staleSha expected actual))
  | .rejected reason _ => .ok (.rejected reason)
  | .fatal response => .error (.terminal
      ("GitHub mutation failed with HTTP " ++ toString response.status ++ ": "
        ++ response.message))

/-- The outcome of a comment or a branch update. -/
def actionResult (result : Settled String) : Except HandlerError ActionOutcome :=
  settledOutcome result fun detail => .succeeded detail none

/-- The outcome of a merge. -/
def mergeResult (result : Settled Merged) : Except HandlerError ActionOutcome :=
  settledOutcome result fun merged => .succeeded merged.detail merged.sha

/-- A mutation's outcome is a success exactly when the call settled in
one. -/
theorem settledOutcome_succeeded {α : Type} {result : Settled α} {succeeded : α → ActionOutcome}
    {outcome : ActionOutcome} (hsucceeded : ∀ value, (succeeded value).isSucceeded)
    (h : settledOutcome result succeeded = .ok outcome) :
    outcome.isSucceeded ↔ ∃ value, result = .ok value := by
  cases result with
  | ok value =>
    cases h
    exact ⟨fun _ => ⟨value, rfl⟩, fun _ => hsucceeded value⟩
  | staleSha expected actual => cases h; simp [ActionOutcome.isSucceeded]
  | rejected reason response => cases h; simp [ActionOutcome.isSucceeded]
  | fatal response => cases h

end Dependaboard
