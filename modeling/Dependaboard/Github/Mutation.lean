import Dependaboard.Github.Wire
/-!
# GitHub — the verified mutations

A merge, a command and a branch update, each a write sent past the same
checks: fetch, verify, mutate, confirm. Each is a replay of itself when its
step is tried again, and finds what an earlier attempt did in its own way.
-/

namespace Dependaboard

open Durable GithubM

/-- What the mutate step of a verified mutation did. -/
inductive Write (T A : Type) where
  /-- The write went out; GitHub's raw answer. -/
  | sent (response : Response T)
  /-- An earlier attempt already did the work, so nothing was sent. -/
  | alreadyApplied (applied : A)

/-- How a verified mutation ended: by an answer of GitHub's that was read, or
known to have happened without one. -/
inductive MutationOutcome (T A : Type) where
  /-- GitHub answered and the client read the answer. -/
  | answered (answer : T)
  /-- The work is known to have happened without a readable answer. -/
  | applied (applied : A)

/-- What the mutation did, read out of GitHub's answer where there is one. -/
def MutationOutcome.intoApplied {T A : Type} (outcome : MutationOutcome T A)
    (answered : T → Except GithubError A) : Except GithubError A :=
  match outcome with
  | .answered answer => answered answer
  | .applied done => .ok done

/-- The text of a target's rejection as gone. -/
def closedOrForeign : String := "pull request is closed or is not owned by Dependabot"

/-- The checks between the verify read and the write: the pull request is
open, Dependabot's, and at the head the caller last saw. -/
def checkTarget (target : PrTarget) (pull : GithubPull) : Except GithubError Unit :=
  if pull.state ≠ "open" ∨ pull.login ≠ dependabotLogin then .error (notFound closedOrForeign)
  else if pull.headSha ≠ target.expectedSha then
    .error (.staleSha target.expectedSha pull.headSha)
  else .ok ()

/-- What a lost or unreadable answer comes to: the mutation succeeds with
what the read-back says of it, or fails as `unconfirmed`. -/
def readBack {T A : Type} (confirm : GithubM (Option A)) (unconfirmed : GithubError) :
    GithubM (MutationOutcome T A) := do
  match ← confirm.result with
  | .ok (some applied) => return .applied applied
  | .ok none => throw unconfirmed
  | .error _ => throw unconfirmed

/-- **One GitHub write against a verified pull request**: fetch, verify,
mutate, confirm. -/
def verifiedMutation {T A : Type} (operation : Operation) (target : PrTarget)
    (alreadyApplied : GithubPull → Option A) (mutate : GithubM (Write T A))
    (confirm : GithubM (Option A)) : GithubM (MutationOutcome T A) := do
  let pull ← fetchTarget .verify target
  match alreadyApplied pull with
  | some applied => return .applied applied
  | none =>
    liftExcept (checkTarget target pull)
    match ← mutate.result with
    | .ok (.sent response) =>
      match (parseResponse response).mapError knownHttp with
      | .ok answer => return .answered answer
      | .error (.protocol unreadable) => readBack confirm (.ambiguous operation unreadable)
      | .error error => throw error
    | .ok (.alreadyApplied applied) => return .applied applied
    | .error (.transport cause) => readBack confirm (.transport cause)
    | .error error => throw error

/-- Send a write as the App. -/
def sendWrite {A : Type} (call : GithubCall) : GithubM (Write call.Payload A) := do
  return .sent (← installationRequest .mutate call)

/-- The read-back of a write whose effect shows on the pull request. -/
def confirmOnPull {A : Type} (target : PrTarget) (landed : GithubPull → Option A) :
    GithubM (Option A) := do
  let pull ← fetchTarget .confirm target
  return landed pull

/-- Where a target's writes go: under its pull request or its issue. -/
def PrTarget.path (target : PrTarget) (under leaf : String) : String :=
  "/repos/" ++ target.owner ++ "/" ++ target.repo ++ under ++ toString target.number ++ leaf

/-- A merge seen on the pull request rather than in GitHub's answer. -/
def mergedAs (detail : String) (pull : GithubPull) : Option Merged :=
  if pull.merged then some ⟨detail, pull.mergeCommitSha⟩ else none

/-- What a merge makes of GitHub's answer. -/
def mergeAnswer (answer : MergeResult) : Except GithubError Merged :=
  if answer.merged then .ok ⟨answer.message, answer.sha⟩
  else .error (.http (.plain 409 answer.message) true)

/-- Merge the target as the App. -/
def merge (config : GithubConfig) (request : MergeRequest) (mergeMethod : Option MergeMethod) :
    GithubM Merged := do
  let target := request.target
  let path := target.path "/pulls/" "/merge"
  let outcome ← verifiedMutation .merge target (mergedAs "already merged")
    (sendWrite (.putMerge path target.expectedSha (mergeMethod.getD config.mergeMethod)))
    (confirmOnPull target (mergedAs "merged (confirmed after an ambiguous response)"))
  liftExcept (outcome.intoApplied mergeAnswer)

/-- What the comments of a batch are marked with. -/
def batchMarker (batchId : String) : String := "<!-- dependaboard-batch:" ++ batchId ++ " -->"

/-- The comment a command is posted as. -/
def commandBody (request : CommandRequest) : String :=
  "@dependabot " ++ toString request.command ++ "\n\n— via dependabot-dashboard ("
    ++ request.userId ++ ")\n" ++ batchMarker request.batchId

/-- Where a target's comments are. -/
def commentsPath (target : PrTarget) : String := target.path "/issues/" "/comments"

/-- Post the comment unless the batch's is there. -/
def sendComment (config : GithubConfig) (fuel : ℕ) (request : CommandRequest) :
    GithubM (Write IssueComment String) := do
  let path := commentsPath request.target
  match ← findCommentWithMarker .mutate path (batchMarker request.batchId) fuel 1 with
  | some commentId =>
    return .alreadyApplied ("command already accepted as comment #" ++ toString commentId)
  | none =>
    return .sent (← userRequest config .mutate request.userId
      (.postComment path (commandBody request)))

/-- The read-back of a command: whether the batch's comment is there. -/
def confirmComment (fuel : ℕ) (request : CommandRequest) : GithubM (Option String) := do
  let found ← findCommentWithMarker .confirm (commentsPath request.target)
    (batchMarker request.batchId) fuel 1
  return found.map fun commentId =>
    "command accepted as comment #" ++ toString commentId
      ++ " (confirmed after an ambiguous response)"

/-- Post the command as the user, once per batch. -/
def postCommand (config : GithubConfig) (fuel : ℕ) (request : CommandRequest) :
    GithubM String := do
  if config.userPat.isNone then
    throw noUserToken
  else
    let outcome ← verifiedMutation .comment request.target (fun _ => none)
      (sendComment config fuel request) (confirmComment fuel request)
    liftExcept (outcome.intoApplied fun comment =>
      .ok ("GitHub accepted comment #" ++ toString comment.id))

/-- Update the target's branch from its base as the App. -/
def updateBranch (request : UpdateBranchRequest) : GithubM String := do
  let target := request.target
  let path := target.path "/pulls/" "/update-branch"
  let outcome ← verifiedMutation .updateBranch target (fun _ => none)
    (sendWrite (.putUpdateBranch path target.expectedSha))
    (confirmOnPull target fun pull =>
      if pull.headSha ≠ target.expectedSha then
        some "branch updated (confirmed after an ambiguous response)"
      else none)
  liftExcept (outcome.intoApplied .ok)

end Dependaboard
