import Dependaboard.Core.Delivery
import Dependaboard.Core.Requests
/-!
# Service — the webhook dispatcher

Where a delivery goes is decided before anything is sent: to a pull
request's object, to a repository's, to the installation's, or nowhere. A
delivery of another installation, and one without the fields its object is
addressed by, is refused.
-/

namespace Dependaboard

/-- What is asked of `RepoSync.sync_sha`. -/
structure SyncShaRequest where
  repositoryId : ℕ
  owner : String
  repo : String
  sha : String
  pullRequests : List ℕ
  deriving DecidableEq, Repr

/-- What becomes of the installation's chain, or of its rows. -/
inductive InstallationLifecycleAction where
  | start
  | syncNow
  | pause
  | purge
  deriving DecidableEq, Repr

/-- Where a delivery goes, decided before anything is sent. -/
inductive WebhookRoute where
  | closePullRequest (key : PrKey)
  | syncPullRequest (request : SyncRequest)
  | syncSha (request : SyncShaRequest)
  | installation (installationId : ℕ) (action : InstallationLifecycleAction)
  /-- An action, or a kind, with no arm. -/
  | ignore
  deriving DecidableEq, Repr

/-- Why a delivery can never be routed. -/
inductive WebhookRejection where
  | foreignInstallation (expected actual : ℕ)
  | missingFields (kind : String) (fields : List String)
  deriving DecidableEq, Repr

instance : ToString WebhookRejection where
  toString
    | .foreignInstallation expected actual => "webhook installation " ++ toString actual
        ++ " does not match configured installation " ++ toString expected
    | .missingFields kind fields =>
      kind ++ " webhook is missing " ++ ", ".intercalate fields

/-- A rejection names every field the delivery lacks, in the order they are
asked for. -/
def missingFields (kind : String) (fields : List (String × Bool)) : WebhookRejection :=
  .missingFields kind (fields.filterMap fun field => if field.2 then some field.1 else none)

/-- The actions after which the row may differ. `closed` retires
it instead. -/
def pullRequestActionRequestsSync : Option String → Bool
  | some "opened" | some "reopened" | some "synchronize" | some "edited" | some "labeled"
  | some "unlabeled" => true
  | _ => false

/-- A new installation is swept at once; its chain starts with the worker. The
others move the chain itself. -/
def installationLifecycleAction : Option String → Option InstallationLifecycleAction
  | some "created" => some .syncNow
  | some "unsuspend" => some .start
  | some "suspend" => some .pause
  | some "deleted" => some .purge
  | _ => none

/-- The action is read only once every field is there: an incomplete delivery
is rejected whatever it is of. -/
def routePullRequest (event : WebhookEvent) : Except WebhookRejection WebhookRoute :=
  match event.repositoryId, event.owner, event.repo, event.number with
  | some repositoryId, some owner, some repo, some number =>
    .ok <|
      if event.action = some "closed" then .closePullRequest ⟨repositoryId, number⟩
      else if pullRequestActionRequestsSync event.action then
        .syncPullRequest {
          repositoryId := repositoryId
          owner := owner
          repo := repo
          number := number
          bypassDebounce := false
          completionId := none }
      else .ignore
  | _, _, _, _ =>
    .error <| missingFields "pull_request"
      [("repository_id", event.repositoryId.isNone), ("owner", event.owner.isNone),
        ("repo", event.repo.isNone), ("number", event.number.isNone)]

/-- A check or a status is of a commit; which pull requests it concerns is the
repository object's to find. -/
def routeSha (event : WebhookEvent) : Except WebhookRejection WebhookRoute :=
  match event.repositoryId, event.owner, event.repo, event.sha with
  | some repositoryId, some owner, some repo, some sha =>
    .ok <| .syncSha {
      repositoryId := repositoryId
      owner := owner
      repo := repo
      sha := sha
      pullRequests := event.pullRequests }
  | _, _, _, _ =>
    .error <| missingFields "commit"
      [("repository_id", event.repositoryId.isNone), ("owner", event.owner.isNone),
        ("repo", event.repo.isNone), ("sha", event.sha.isNone)]

/-- An installation's delivery needs nothing but the installation. -/
def routeInstallation (event : WebhookEvent) : Except WebhookRejection WebhookRoute :=
  match event.installationId with
  | none => .error <| missingFields "installation" [("installation_id", true)]
  | some installationId =>
    .ok <| match installationLifecycleAction event.action with
      | some action => .installation installationId action
      | none => .ignore

/-- The route of a delivery of a known kind: every check action is forwarded,
and only these are kept. -/
def routeKind (event : WebhookEvent) : Except WebhookRejection WebhookRoute :=
  match event.event with
  | .pullRequest => routePullRequest event
  | .checkSuite => if event.action = some "completed" then routeSha event else .ok .ignore
  | .checkRun =>
    if event.action = some "created" ∨ event.action = some "completed" then routeSha event
    else .ok .ignore
  | .status => routeSha event
  | .installation => routeInstallation event
  | .installationRepositories =>
    .ok <| match event.installationId with
      | some installationId => .installation installationId .syncNow
      | none => .ignore
  | .other _ => .ok .ignore

/-- Where a delivery goes, at the service of an installation. -/
def routeWebhook (installationId : ℕ) (event : WebhookEvent) :
    Except WebhookRejection WebhookRoute :=
  match event.installationId.filter (· ≠ installationId) with
  | some actual => .error (.foreignInstallation installationId actual)
  | none => routeKind event

/-! ## What a delivery is routed by -/

/-- The fields of a repository's delivery are there. -/
structure WebhookEvent.OfRepository (event : WebhookEvent) : Prop where
  repositoryId : event.repositoryId.isSome
  owner : event.owner.isSome
  repo : event.repo.isSome

/-- **The fields a delivery's kind is addressed by are there.** -/
def WebhookEvent.Addressed (event : WebhookEvent) : Prop :=
  match event.event with
  | .pullRequest => event.OfRepository ∧ event.number.isSome
  | .checkSuite | .checkRun | .status => event.OfRepository ∧ event.sha.isSome
  | .installation => event.installationId.isSome
  | .installationRepositories | .other _ => True

theorem routePullRequest_ok {event : WebhookEvent} (h : event.OfRepository)
    (hnumber : event.number.isSome) : ∃ route, routePullRequest event = .ok route := by
  obtain ⟨hrepository, howner, hrepo⟩ := h
  obtain ⟨repositoryId, hrepository⟩ := Option.isSome_iff_exists.1 hrepository
  obtain ⟨owner, howner⟩ := Option.isSome_iff_exists.1 howner
  obtain ⟨repo, hrepo⟩ := Option.isSome_iff_exists.1 hrepo
  obtain ⟨number, hnumber⟩ := Option.isSome_iff_exists.1 hnumber
  rw [routePullRequest, hrepository, howner, hrepo, hnumber]
  exact ⟨_, rfl⟩

theorem routeSha_ok {event : WebhookEvent} (h : event.OfRepository) (hsha : event.sha.isSome) :
    ∃ route, routeSha event = .ok route := by
  obtain ⟨hrepository, howner, hrepo⟩ := h
  obtain ⟨repositoryId, hrepository⟩ := Option.isSome_iff_exists.1 hrepository
  obtain ⟨owner, howner⟩ := Option.isSome_iff_exists.1 howner
  obtain ⟨repo, hrepo⟩ := Option.isSome_iff_exists.1 hrepo
  obtain ⟨sha, hsha⟩ := Option.isSome_iff_exists.1 hsha
  rw [routeSha, hrepository, howner, hrepo, hsha]
  exact ⟨_, rfl⟩

/-- **A delivery that is addressed is routed.** -/
theorem routeKind_ok {event : WebhookEvent} (h : event.Addressed) :
    ∃ route, routeKind event = .ok route := by
  unfold WebhookEvent.Addressed at h
  unfold routeKind
  cases hkind : event.event with
  | pullRequest =>
    rw [hkind] at h
    exact routePullRequest_ok h.1 h.2
  | checkSuite =>
    rw [hkind] at h
    by_cases haction : event.action = some "completed"
    · simpa only [if_pos haction] using routeSha_ok h.1 h.2
    · exact ⟨.ignore, if_neg haction⟩
  | checkRun =>
    rw [hkind] at h
    by_cases haction : event.action = some "created" ∨ event.action = some "completed"
    · simpa only [if_pos haction] using routeSha_ok h.1 h.2
    · exact ⟨.ignore, if_neg haction⟩
  | status =>
    rw [hkind] at h
    exact routeSha_ok h.1 h.2
  | installation =>
    rw [hkind] at h
    obtain ⟨installationId, hinstallation⟩ := Option.isSome_iff_exists.1 h
    simp only [routeInstallation, hinstallation]
    exact ⟨_, rfl⟩
  | installationRepositories => exact ⟨_, rfl⟩
  | other kind => exact ⟨.ignore, rfl⟩

/-- The delivery is of an installation that is not the service's. -/
def WebhookEvent.Foreign (own : ℕ) (event : WebhookEvent) : Prop :=
  ∃ actual, event.installationId = some actual ∧ actual ≠ own

theorem routeWebhook_of_foreign {own actual : ℕ} {event : WebhookEvent}
    (h : event.installationId = some actual) (hforeign : actual ≠ own) :
    routeWebhook own event = .error (.foreignInstallation own actual) := by
  have hfilter : event.installationId.filter (· ≠ own) = some actual :=
    Option.filter_eq_some_iff.2 ⟨h, by simpa using hforeign⟩
  rw [routeWebhook, hfilter]

theorem routeWebhook_of_not_foreign {own : ℕ} {event : WebhookEvent} (h : ¬ event.Foreign own) :
    routeWebhook own event = routeKind event := by
  have hfilter : event.installationId.filter (· ≠ own) = none := by
    refine Option.filter_eq_none_iff.2 fun actual hactual hforeign => h ⟨actual, hactual, ?_⟩
    simpa using hforeign
  rw [routeWebhook, hfilter]

/-! ## What is sent -/

/-- What a route sends: a message to an object, under the object's key. -/
inductive Sent where
  | closed (key : PrKey) (request : ClosedRequest)
  | sync (key : PrKey) (request : SyncRequest)
  | syncSha (repositoryId : ℕ) (request : SyncShaRequest)
  | lifecycle (installationId : ℕ) (action : InstallationLifecycleAction)
  deriving DecidableEq, Repr

/-- One message at most, one way, keyed by the object it is for. -/
def sendWebhookRoute : WebhookRoute → Option Sent
  | .closePullRequest key => some (.closed key ⟨none⟩)
  | .syncPullRequest request => some (.sync (requestKey request) request)
  | .syncSha request => some (.syncSha request.repositoryId request)
  | .installation installationId action => some (.lifecycle installationId action)
  | .ignore => none

/-- **The dispatcher**: a rejection is its failure, for good. -/
def dispatch (installationId : ℕ) (event : WebhookEvent) : Except HandlerError (Option Sent) :=
  match routeWebhook installationId event with
  | .ok route => .ok (sendWebhookRoute route)
  | .error rejection => .error (.terminal (toString rejection))

end Dependaboard
