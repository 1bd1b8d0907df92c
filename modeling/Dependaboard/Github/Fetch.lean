import Dependaboard.Durable.Translate
import Dependaboard.Github.Snapshot
/-!
# GitHub — a pull request read whole

One GraphQL query answers for a pull request and the commit listed last; the
head is read by its SHA where that is another, and the pages of its checks
past the first hundred one by one. A failure inside an answer that succeeded
is the status REST would have answered with.
-/

namespace Dependaboard

open Durable

/-! ## The wire -/

/-- The account a pull request is by. -/
structure Actor where
  typename : String
  login : String
  deriving DecidableEq, Repr

/-- The login as REST reports it, a bot's with its suffix. -/
def Actor.restLogin (actor : Actor) : String :=
  if actor.typename = "Bot" then actor.login ++ "[bot]" else actor.login

/-- The edge GitHub puts between a pull request and a commit of it. -/
structure PullRequestCommit where
  commit : HeadCommit
  deriving DecidableEq, Repr

/-- A pull request, whatever its state or author. -/
structure FetchedPull extends PullRequestNode where
  state : String
  /-- Absent when the account no longer exists. -/
  author : Option Actor
  headRefOid : String
  commits : Connection PullRequestCommit
  deriving DecidableEq, Repr

namespace FetchedPull

/-- The only kind the dashboard projects. -/
def isOpenDependabotPull (pull : FetchedPull) : Bool :=
  pull.state = "OPEN" && pull.author.any fun author => author.restLogin = dependabotLogin

/-- The last commit GitHub lists, by date. -/
def lastListedCommit (pull : FetchedPull) : Option HeadCommit :=
  pull.commits.nodes.head?.map PullRequestCommit.commit

end FetchedPull

/-- The repository asked of; its pull request is null where the number names
none. -/
structure SnapshotRepository where
  pullRequest : Option FetchedPull
  deriving DecidableEq, Repr

/-- The query's data; the repository is null where GitHub does not show it. -/
structure SnapshotData where
  repository : Option SnapshotRepository
  deriving DecidableEq, Repr

/-- One of the errors an answer comes with, which may stand beside data. -/
structure GraphqlError where
  /-- GitHub's class of the error; none of an execution that failed. -/
  kind : Option String
  message : String
  deriving DecidableEq, Repr

/-- An answer of GitHub's GraphQL: data, errors, or some of both. -/
structure GraphqlResponse (T : Type) where
  data : Option T
  errors : List GraphqlError

/-- The headers GitHub tells its rate limit by, any of which may
be missing. -/
structure RateLimitHeaders where
  remaining : Option ℕ
  reset : Option ℕ
  retryAfter : Option ℕ
  deriving DecidableEq, Repr

/-- A failed answer that carried these headers. -/
def RateLimitHeaders.error (headers : RateLimitHeaders) (status : ℕ) (message : String)
    (documentationUrl : Option String) : GithubErrorResponse :=
  ⟨status, message, documentationUrl, headers.remaining, headers.reset, headers.retryAfter⟩

/-- The status REST would have answered with. -/
def errorStatus : Option String → ℕ
  | none => 502
  | some kind =>
    if kind = "NOT_FOUND" then 404
    else if kind = "FORBIDDEN" ∨ kind = "INSUFFICIENT_SCOPES" then 403
    else if kind = "RATE_LIMITED" then 429
    else if kind = "SERVICE_UNAVAILABLE" then 503
    else 422

/-- The errors of one answer: the first that has a class says the status,
and every message is kept. -/
def errorResponse (errors : List GraphqlError) (headers : RateLimitHeaders) :
    GithubErrorResponse :=
  headers.error (errorStatus (errors.findSome? GraphqlError.kind))
    ("; ".intercalate (errors.map GraphqlError.message)) none

/-- How a query sent as the installation is answered. -/
inductive GraphqlReply (T : Type) where
  /-- It could not be sent, or its answer was lost. -/
  | failed (error : GithubError)
  | refused (response : GithubErrorResponse)
  | unreadable (cause : String)
  | answered (headers : RateLimitHeaders) (answer : GraphqlResponse T)

/-- The data of an answer, its errors read first. -/
def graphqlQuery {T : Type} : GraphqlReply T → Except GithubError T
  | .failed error => .error error
  | .refused response => .error (.http response false)
  | .unreadable cause => .error (.protocol (.body cause))
  | .answered headers answer =>
    match answer.errors with
    | [] =>
      match answer.data with
      | some data => .ok data
      | none => .error (.protocol (.missing "data"))
    | errors => .error (.http (errorResponse errors headers) false)

/-! ## The read -/

/-- What a read asks for. -/
inductive FetchCall where
  | snapshot (owner repo : String) (number : ℕ)
  | headCommit (owner repo sha : String)
  | page (query : PageQuery)
  | unixSeconds
  deriving DecidableEq, Repr

/-- What each is answered in. -/
@[reducible] def FetchCall.Answer : FetchCall → Type
  | snapshot _ _ _ => GraphqlReply SnapshotData
  | headCommit _ _ _ => GraphqlReply (CommitData HeadCommit)
  | page query => GraphqlReply (CommitData query.Payload)
  | unixSeconds => ℕ

/-- The interface of a read. -/
@[reducible] def FetchEffects : Signature := ⟨FetchCall, FetchCall.Answer⟩

/-- A read of a pull request. -/
abbrev FetchM (α : Type) : Type := Prog FetchEffects Halt α

/-- A page of a commit's checks is a query like another. -/
def pageReading : PageEffects.Reading FetchEffects where
  op := .page
  ans _ := graphqlQuery

/-- What is left of a result of the client. -/
def FetchM.ofExcept {α : Type} : Except GithubError α → FetchM α
  | .ok value => .done value
  | .error error => .fail (.error error)

/-- The pull request, as the first query answers for it. -/
def fetchPullRequestNode (request : SyncRequest) : FetchM FetchedPull :=
  Prog.ask (S := FetchEffects) (.snapshot request.owner request.repo request.number) fun reply => do
    let data ← FetchM.ofExcept (graphqlQuery reply)
    match data.repository.bind SnapshotRepository.pullRequest with
    | some pull => return pull
    | none => .fail (.error (.protocol (.missing "pull request")))

/-- The commit at a SHA, asked for where the pull request's own answer lists
another last. -/
def headBySha (request : SyncRequest) (sha : String) : FetchM HeadCommit :=
  Prog.ask (S := FetchEffects) (.headCommit request.owner request.repo sha) fun reply => do
    let data ← FetchM.ofExcept (graphqlQuery reply)
    match data.intoCommit with
    | some commit => return commit
    | none => .fail (.error (.protocol (.missing "head commit")))

/-- The head: the commit listed last, unless that is another. -/
def fetchHeadCommit (request : SyncRequest) (pull : FetchedPull) : FetchM HeadCommit :=
  match pull.lastListedCommit with
  | some listed => if listed.oid = pull.headRefOid then .done listed
    else headBySha request pull.headRefOid
  | none => headBySha request pull.headRefOid

/-- `fetch_snapshot`: nothing of a pull request the dashboard does not
project, else its record. -/
def GithubClient.fetchSnapshot (readers : SnapshotReaders) (fuel : ℕ) (request : SyncRequest) :
    FetchM (Option PrRecord) := do
  let pull ← fetchPullRequestNode request
  if !pull.isOpenDependabotPull then return none
  let head ← fetchHeadCommit request pull
  let signals ← (checkSignals fuel request head.toCommit).translate pageReading
  Prog.ask (S := FetchEffects) .unixSeconds fun now => do
    let record ← FetchM.ofExcept
      (projectSnapshot readers request pull.toPullRequestNode head signals now)
    return some record

end Dependaboard
