import Dependaboard.Durable.Prog
import Dependaboard.Github.Listing
/-!
# GitHub — the requests of the client

What the client asks GitHub and how it reads the answers, up to the scan
for a comment. A request made as the App is preceded by its token and made
once more, with a fresh one, when it is answered 401.
-/

namespace Dependaboard

open Durable

/-- A pull request as the client reads it to verify a mutation's target. -/
structure GithubPull where
  state : String
  login : String
  headSha : String
  merged : Bool
  mergeCommitSha : Option String
  deriving DecidableEq, Repr

/-- A comment as GitHub lists it; the command is found by its marker in the
body. -/
structure IssueComment where
  id : ℕ
  body : String
  deriving DecidableEq, Repr

/-- GitHub's answer to a merge. -/
structure MergeResult where
  merged : Bool
  message : String
  sha : Option String
  deriving DecidableEq, Repr

/-- An answer that came: a failure, a success whose body cannot be read, or
one that was read. -/
inductive Response (α : Type) where
  | refused (response : GithubErrorResponse)
  | unreadable (source : ProtocolError)
  | answered (value : α)

/-- An answer, or why none came. -/
abbrev Reply (α : Type) : Type := Except String (Response α)

/-- What the client asks. -/
inductive GithubCall where
  /-- The App's installation token, a cached one unless `forceRefresh`. -/
  | installationToken (forceRefresh : Bool)
  | getPull (path : String)
  | listComments (path : String) (page : ℕ)
  | putMerge (path sha : String) (mergeMethod : MergeMethod)
  | postComment (path body : String)
  | putUpdateBranch (path expectedHeadSha : String)
  deriving DecidableEq, Repr

/-- What a readable answer holds. The token's holds the token, or why the App
could not sign for one. -/
@[reducible] def GithubCall.Payload : GithubCall → Type
  | installationToken _ => Except String Unit
  | getPull _ => GithubPull
  | listComments _ _ => List IssueComment
  | putMerge _ _ _ => MergeResult
  | postComment _ _ => IssueComment
  | putUpdateBranch _ _ => String

/-- The call changes GitHub, so that making it twice may do a thing twice. -/
def GithubCall.writes : GithubCall → Bool
  | putMerge _ _ _ => true
  | postComment _ _ => true
  | putUpdateBranch _ _ => true
  | _ => false

/-- Which step of a mutation a call is made in. -/
inductive Stage where
  | verify
  | mutate
  | confirm
  deriving DecidableEq, Repr

/-- A call, and the step that makes it. -/
structure Request where
  stage : Stage
  call : GithubCall
  deriving DecidableEq, Repr

/-- The interface of the client. -/
@[reducible] def GithubEffects : Signature := ⟨Request, fun request => Reply request.call.Payload⟩

/-- How a call of the client ends without a value. -/
inductive Halt where
  | error (cause : GithubError)
  /-- A scan did not come to its end. -/
  | outOfFuel

/-- The failure, where there is one to match on. -/
def Halt.error? : Halt → Option GithubError
  | .error cause => some cause
  | .outOfFuel => none

/-- A call of the client. -/
abbrev GithubM (α : Type) : Type := Prog GithubEffects Halt α

/-- The client's configuration, as its requests read it. -/
structure GithubConfig where
  userPat : Option String
  dashboardUser : String
  mergeMethod : MergeMethod
  deriving DecidableEq, Repr

namespace GithubM

/-- Fail with an error of the client. -/
def throw {α : Type} (error : GithubError) : GithubM α := .fail (.error error)

/-- End in a result computed elsewhere. -/
def liftExcept {α : Type} : Except GithubError α → GithubM α
  | .ok value => .done value
  | .error error => throw error

/-- The result of a call, for a caller that matches on it. -/
def result {α : Type} (call : GithubM α) : GithubM (Except GithubError α) :=
  call.catching Halt.error?

/-- Send one request; one that is not answered is a transport failure. -/
def send (stage : Stage) (call : GithubCall) : GithubM (Response call.Payload) :=
  Prog.ask (S := GithubEffects) ⟨stage, call⟩ fun
    | .error cause => throw (.transport cause)
    | .ok response => .done response

end GithubM

open GithubM

/-- The status is 401, on which the client asks once more under a fresh
token. -/
def Response.unauthorized {α : Type} : Response α → Bool
  | .refused response => response.status = 401
  | _ => false

/-- Read an answer. -/
def parseResponse {α : Type} : Response α → Except GithubError α
  | .refused response => .error (.http response false)
  | .unreadable source => .error (.protocol source)
  | .answered value => .ok value

/-- The token the App speaks with. -/
def installationToken (stage : Stage) (forceRefresh : Bool) : GithubM Unit := do
  let response ← send stage (.installationToken forceRefresh)
  match ← liftExcept (parseResponse response) with
  | .ok () => return ()
  | .error message => throw (.config ("cannot sign GitHub App JWT: " ++ message))

/-- Send one request as the installation, refreshing the token once on a
401. -/
def installationRequest (stage : Stage) (call : GithubCall) :
    GithubM (Response call.Payload) := do
  installationToken stage false
  let response ← send stage call
  if response.unauthorized then
    installationToken stage true
    send stage call
  else
    return response

/-- Send one and read its answer. -/
def installationJson (stage : Stage) (call : GithubCall) : GithubM call.Payload := do
  let response ← installationRequest stage call
  liftExcept (parseResponse response)

/-- The refusal a command meets where no user identity is configured. -/
def noUserToken : GithubError :=
  .config "no GitHub user token is configured; set GITHUB_USER_PAT to post @dependabot commands"

/-- The token `user` speaks with: the one identity a deployment
configures. -/
def userToken (config : GithubConfig) (user : String) : Except GithubError String :=
  match config.userPat with
  | none => .error noUserToken
  | some token =>
    if user = config.dashboardUser then .ok token
    else .error (.config ("no GitHub user token is configured for " ++ user))

/-- Send one request as the user. -/
def userRequest (config : GithubConfig) (stage : Stage) (user : String) (call : GithubCall) :
    GithubM (Response call.Payload) := do
  let _token ← liftExcept (userToken config user)
  send stage call

/-- Read the pull request a mutation targets. -/
def fetchTarget (stage : Stage) (target : PrTarget) : GithubM GithubPull :=
  installationJson stage (.getPull
    ("/repos/" ++ target.owner ++ "/" ++ target.repo ++ "/pulls/" ++ toString target.number))

/-- Look for a comment with the marker from `page` on, page after page until
one is short. -/
def findCommentWithMarker (stage : Stage) (path marker : String) :
    (fuel page : ℕ) → GithubM (Option ℕ)
  | 0, _ => .fail .outOfFuel
  | fuel + 1, page => do
    let comments ← installationJson stage (.listComments path page)
    match comments.find? fun comment => containsText comment.body marker with
    | some comment => return some comment.id
    | none =>
      if comments.length < listingPageSize then return none
      else findCommentWithMarker stage path marker fuel (page + 1)

end Dependaboard
