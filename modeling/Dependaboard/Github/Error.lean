import Dependaboard.Core.Requests
import Dependaboard.Core.Text
/-!
# GitHub — what a call can fail with

The failures of the client, each with the words it is reported in, and what
a mutation is known by.
-/

namespace Dependaboard

/-- What a call does to GitHub. -/
inductive Operation where
  | read
  | merge
  | comment
  | updateBranch
  deriving DecidableEq, Repr

instance : ToString Operation where
  toString
    | .read => "read"
    | .merge => "merge"
    | .comment => "comment"
    | .updateBranch => "update_branch"

/-- An answer that is not a success. -/
structure GithubErrorResponse where
  status : ℕ
  message : String
  documentationUrl : Option String
  rateLimitRemaining : Option ℕ
  rateLimitReset : Option ℕ
  retryAfterSeconds : Option ℕ
  deriving DecidableEq, Repr

/-- A status and a message, with no header that says more. -/
def GithubErrorResponse.plain (status : ℕ) (message : String) : GithubErrorResponse :=
  ⟨status, message, none, none, none, none⟩

/-- Why a successful answer could not be read. -/
inductive ProtocolError where
  | body (cause : String)
  | timestamp (cause : String)
  | timestampBeforeEpoch
  | missing (part : String)
  deriving DecidableEq, Repr

instance : ToString ProtocolError where
  toString
    | .body cause => "invalid GitHub response: " ++ cause
    | .timestamp cause => "invalid GitHub timestamp: " ++ cause
    | .timestampBeforeEpoch => "GitHub returned a timestamp before 1970"
    | .missing part => "GitHub GraphQL answer is missing its " ++ part

/-- What a call fails with: no answer, an answer that refuses it or cannot be
read, or what the client itself found wrong. -/
inductive GithubError where
  /-- The request never completed, or its answer was lost. -/
  | transport (cause : String)
  /-- GitHub answered with a failure; `knownResource` when the client had
  already read the resource. -/
  | http (response : GithubErrorResponse) (knownResource : Bool)
  | protocol (source : ProtocolError)
  /-- A mutation's answer could not be read, and reading back did not show
  it applied. -/
  | ambiguous (operation : Operation) (source : ProtocolError)
  | config (message : String)
  | staleSha (expected actual : String)
  /-- A paged listing moved under its own pages. -/
  | shifted (listing detail : String)
  deriving DecidableEq, Repr

instance : ToString GithubError where
  toString
    | .transport cause => "GitHub transport failed: " ++ cause
    | .http response _ =>
      "GitHub returned HTTP " ++ toString response.status ++ ": " ++ response.message
    | .protocol source => "GitHub protocol error: " ++ toString source
    | .ambiguous operation source =>
      "ambiguous GitHub " ++ toString operation ++ " response: " ++ toString source
    | .config message => "GitHub configuration error: " ++ message
    | .staleSha expected actual =>
      "pull request head changed from " ++ expected ++ " to " ++ actual
    | .shifted listing detail =>
      "GitHub " ++ listing ++ " listing shifted while it was being paged: " ++ detail

/-- A 404 on a resource the client has read. -/
def notFound (message : String) : GithubError := .http (.plain 404 message) true

/-- Mark a failure as coming from a resource the client has read. -/
def knownHttp : GithubError → GithubError
  | .http response _ => .http response true
  | error => error

/-- What a merge did: the words for it, and the commit it made. -/
structure Merged where
  detail : String
  sha : Option String
  deriving DecidableEq, Repr

end Dependaboard
