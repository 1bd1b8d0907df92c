import Mathlib.Data.Nat.Notation
/-!
# Dependaboard — webhook deliveries

What the web edge reduces a GitHub delivery to, and the dispatcher routes
by. The kinds routed are named once for both; a kind that is not keeps
GitHub's word for it.
-/

namespace Dependaboard

/-- The kind of a delivery, named once for the web edge and the service behind
it: a kind that is not routed keeps its word. -/
inductive DeliveryKind where
  | pullRequest
  | checkSuite
  | checkRun
  | status
  | installation
  | installationRepositories
  /-- A kind that is not routed. -/
  | other (kind : String)
  deriving DecidableEq, Repr

namespace DeliveryKind

/-- GitHub's word for the kind, which is also what crosses the wire. -/
def asStr : DeliveryKind → String
  | pullRequest => "pull_request"
  | checkSuite => "check_suite"
  | checkRun => "check_run"
  | status => "status"
  | installation => "installation"
  | installationRepositories => "installation_repositories"
  | other kind => kind

/-- The one table of routed kinds. -/
def routed : String → Option DeliveryKind
  | "pull_request" => some pullRequest
  | "check_suite" => some checkSuite
  | "check_run" => some checkRun
  | "status" => some status
  | "installation" => some installation
  | "installation_repositories" => some installationRepositories
  | _ => none

/-- The kind a word names; a word that is not routed is a kind of its own. -/
def ofStr (value : String) : DeliveryKind := (routed value).getD (other value)

instance : ToString DeliveryKind := ⟨asStr⟩

end DeliveryKind

/-- The routing fields of a delivery. -/
structure WebhookEvent where
  event : DeliveryKind
  action : Option String
  installationId : Option ℕ
  repositoryId : Option ℕ
  owner : Option String
  repo : Option String
  number : Option ℕ
  sha : Option String
  pullRequests : List ℕ
  deriving DecidableEq, Repr

end Dependaboard
