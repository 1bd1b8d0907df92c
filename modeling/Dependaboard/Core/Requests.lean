import Dependaboard.Core.Records
/-!
# Dependaboard — requests and outcomes

What a pull request's object is asked for, and how an action on it ends:
done, or refused for good with the reason.
-/

namespace Dependaboard

/-- The characters that fill exactly the first `n` bytes, if some do. -/
def bytePrefix : ℕ → List Char → Option (List Char)
  | 0, _ => some []
  | _ + 1, [] => none
  | n + 1, c :: rest =>
    if c.utf8Size ≤ n + 1 then (bytePrefix (n + 1 - c.utf8Size) rest).map (c :: ·) else none

/-- How a commit is named in passing: its first seven bytes, or all of a
value they cannot be cut from. -/
def shortSha (value : String) : String :=
  match bytePrefix 7 value.toList with
  | some chars => String.ofList chars
  | none => value

/-- What is asked of `PullRequest.sync`. -/
structure SyncRequest where
  repositoryId : ℕ
  owner : String
  repo : String
  number : ℕ
  bypassDebounce : Bool
  completionId : Option String
  deriving DecidableEq, Repr

/-- The key of the object a sync addresses. -/
def requestKey (request : SyncRequest) : PrKey := ⟨request.repositoryId, request.number⟩

/-- What is asked of `DashboardIngress.sync_pull_request`: a refresh, reported
under its completion id. -/
structure ManualSyncRequest where
  repositoryId : ℕ
  owner : String
  repo : String
  number : ℕ
  completionId : String
  deriving DecidableEq, Repr

/-- What a deployment offers, by the credentials its service has. -/
structure Capabilities where
  rebaseEnabled : Bool
  deriving DecidableEq, Repr

/-- What is asked of `PullRequest.closed`: the fence of the sweep behind it,
or none for a close that is unconditional. -/
structure ClosedRequest where
  syncedBefore : Option ℕ
  deriving DecidableEq, Repr

/-- A pull request an action is aimed at, with the head the user saw. -/
structure PrTarget where
  repositoryId : ℕ
  owner : String
  repo : String
  number : ℕ
  expectedSha : String
  title : String
  htmlUrl : String
  deriving DecidableEq, Repr

/-- The object a target's mutation is sent to. -/
def PrTarget.key (target : PrTarget) : PrKey := ⟨target.repositoryId, target.number⟩

/-- What is asked of `PullRequest.merge`. -/
structure MergeRequest where
  batchId : String
  target : PrTarget
  deriving DecidableEq, Repr

/-- The commands Dependabot is given. -/
inductive DependabotCommand where
  | rebase
  deriving DecidableEq, Repr

instance : ToString DependabotCommand where
  toString
    | .rebase => "rebase"

/-- What is asked of `PullRequest.command`. -/
structure CommandRequest where
  batchId : String
  target : PrTarget
  userId : String
  command : DependabotCommand
  deriving DecidableEq, Repr

/-- What is asked of `PullRequest.update_branch`. -/
structure UpdateBranchRequest where
  batchId : String
  target : PrTarget
  deriving DecidableEq, Repr

/-- Why an action was refused for good. -/
inductive RejectReason where
  | staleSha (expected actual : String)
  | notMergeable
  | mergeMethodDisallowed
  | forbidden
  | notFound
  | noUserToken
  deriving DecidableEq, Repr

instance : ToString RejectReason where
  toString
    | .staleSha expected actual =>
      "head moved from " ++ shortSha expected ++ " to " ++ shortSha actual
    | .notMergeable => "GitHub reports this pull request is not mergeable"
    | .mergeMethodDisallowed => "the repository disallows this merge method"
    | .forbidden => "the configured identity is not allowed to perform this action"
    | .notFound => "the pull request was closed or no longer exists"
    | .noUserToken => "no GitHub user token is configured for @dependabot commands"

/-- How one target's action ended once GitHub had its say: done, or refused
for good. A merge names its commit, which is not the head it was asked
under. -/
inductive ActionOutcome where
  | succeeded (detail : String) (mergeSha : Option String)
  | rejected (reason : RejectReason)
  deriving DecidableEq, Repr

/-- GitHub did it. -/
def ActionOutcome.isSucceeded : ActionOutcome → Bool
  | .succeeded _ _ => true
  | .rejected _ => false

/-- How a handler fails: for good, or to be tried again. -/
inductive HandlerError where
  | terminal (message : String)
  | retryable (message : String)
  deriving DecidableEq, Repr

end Dependaboard
