import Dependaboard.Service.Ingress
/-!
# Web — the webhook edge

A verified delivery is reduced to the fields it is routed by and forwarded,
or acknowledged where no kind of ours names it. The edge and the dispatcher
each hold a table of kinds; `edge_agrees` is that the two are one: what is
forwarded lacks no field the dispatcher asks for, and what is acknowledged
the dispatcher would have ignored.

How a payload is read is left open: the readers are a parameter, and what is
proved holds of any.
-/

namespace Dependaboard

/-! ## Deliveries -/

/-- The repository a delivery names. -/
structure RepositoryMeta where
  id : ℕ
  owner : String
  name : String
  deriving DecidableEq, Repr

/-- What the envelope was probed for: the kind is the word of the event
header. -/
structure EnvelopeMeta where
  kind : String
  action : Option String
  installationId : Option ℕ
  repository : Option RepositoryMeta
  deriving DecidableEq, Repr

/-- A verified delivery: what every payload names, and the text the kind's own
fields are read from. -/
structure Envelope where
  «meta» : EnvelopeMeta
  payload : String
  deriving DecidableEq, Repr

/-- A commit by its SHA, all that is routed by. -/
structure CommitRef where
  sha : String
  deriving DecidableEq, Repr

/-- The pull request of an event, and the head it was sent for. -/
structure PullRequestRef where
  number : ℕ
  head : CommitRef
  deriving DecidableEq, Repr

/-- What of a `pull_request` payload is read; the rest of it is GitHub's
business. -/
structure PullRequestRouting where
  pullRequest : PullRequestRef
  deriving DecidableEq, Repr

/-- A pull request GitHub names beside a check, by its number. -/
structure CheckPullRequest where
  number : ℕ
  deriving DecidableEq, Repr

/-- A check, with the pull requests it belongs to. -/
structure CheckRouting where
  headSha : String
  pullRequests : List CheckPullRequest
  deriving DecidableEq, Repr

/-- The commit a check is of, with whom GitHub names at it. -/
def CheckRouting.intoRouting (check : CheckRouting) : String × List ℕ :=
  (check.headSha, check.pullRequests.map CheckPullRequest.number)

/-- What of a `check_run` payload is read. -/
structure CheckRunRouting where
  checkRun : CheckRouting
  deriving DecidableEq, Repr

/-- What of a `check_suite` payload is read. -/
structure CheckSuiteRouting where
  checkSuite : CheckRouting
  deriving DecidableEq, Repr

/-- A status names its commit and no pull request. -/
structure StatusRouting where
  sha : String
  deriving DecidableEq, Repr

/-- How the payloads of the kinds that carry routing fields are read. -/
structure Payloads where
  pullRequest : Envelope → Except String PullRequestRouting
  checkRun : Envelope → Except String CheckRunRouting
  checkSuite : Envelope → Except String CheckSuiteRouting
  status : Envelope → Except String StatusRouting

/-! ## The edge -/

/-- What the edge does with a verified delivery. -/
inductive Disposition where
  | forward (event : WebhookEvent)
  | acknowledge
  deriving DecidableEq, Repr

/-- Why a verified delivery cannot be forwarded. -/
inductive RoutingError where
  | missingInstallation
  | missingRepository
  | payload (cause : String)
  deriving DecidableEq, Repr

instance : ToString RoutingError where
  toString
    | .missingInstallation => "GitHub installation webhook is missing an installation id"
    | .missingRepository => "GitHub repository webhook is missing its repository"
    | .payload cause => "GitHub webhook payload is missing routing fields: " ++ cause

/-- The fields a kind is routed by: a pull request's number, a commit, the pull
requests a check belongs to, and the repository. -/
structure RoutingFields where
  number : Option ℕ
  sha : Option String
  pullRequests : List ℕ
  repository : Option RepositoryMeta
  deriving DecidableEq, Repr

/-- The event a delivery is forwarded as. -/
def RoutingFields.event (fields : RoutingFields) («meta» : EnvelopeMeta) (kind : DeliveryKind) :
    WebhookEvent where
  event := kind
  action := meta.action
  installationId := meta.installationId
  repositoryId := fields.repository.map RepositoryMeta.id
  owner := fields.repository.map RepositoryMeta.owner
  repo := fields.repository.map RepositoryMeta.name
  number := fields.number
  sha := fields.sha
  pullRequests := fields.pullRequests

section

variable (payloads : Payloads)

/-- GitHub sends the repository with every event of one, so a payload without
it is refused, not ignored. -/
def repositoryRequired (envelope : Envelope) : Except RoutingError RepositoryMeta :=
  match envelope.meta.repository with
  | some repository => .ok repository
  | none => .error .missingRepository

/-- The fields of a delivery of a kind, or none where the kind is not
routed. -/
def routingFields (envelope : Envelope) :
    DeliveryKind → Except RoutingError (Option RoutingFields)
  | .installation | .installationRepositories =>
    if envelope.meta.installationId.isNone then .error .missingInstallation
    else .ok (some ⟨none, none, [], envelope.meta.repository⟩)
  | .pullRequest => do
    let payload ← (payloads.pullRequest envelope).mapError .payload
    let repository ← repositoryRequired envelope
    return some ⟨some payload.pullRequest.number, some payload.pullRequest.head.sha, [],
      some repository⟩
  | .checkRun => do
    let payload ← (payloads.checkRun envelope).mapError .payload
    let repository ← repositoryRequired envelope
    let (sha, numbers) := payload.checkRun.intoRouting
    return some ⟨none, some sha, numbers, some repository⟩
  | .checkSuite => do
    let payload ← (payloads.checkSuite envelope).mapError .payload
    let repository ← repositoryRequired envelope
    let (sha, numbers) := payload.checkSuite.intoRouting
    return some ⟨none, some sha, numbers, some repository⟩
  | .status => do
    let payload ← (payloads.status envelope).mapError .payload
    let repository ← repositoryRequired envelope
    return some ⟨none, some payload.sha, [], some repository⟩
  | .other _ => .ok none

/-- What the edge does with a verified delivery. -/
def routeDelivery (envelope : Envelope) : Except RoutingError Disposition := do
  let kind := DeliveryKind.ofStr envelope.meta.kind
  match ← routingFields payloads envelope kind with
  | none => return .acknowledge
  | some fields => return .forward (fields.event envelope.meta kind)

/-! ## The two tables -/

variable {payloads} {envelope : Envelope}

/-- Where a repository is required, what is read of it is there. -/
theorem ofRepository_event {fields : RoutingFields} {kind : DeliveryKind}
    (h : fields.repository.isSome) : (fields.event envelope.meta kind).OfRepository :=
  ⟨by simpa [RoutingFields.event] using h, by simpa [RoutingFields.event] using h,
    by simpa [RoutingFields.event] using h⟩

/-- **The fields read off a payload are those its kind is addressed by.** -/
theorem addressed_of_routingFields {kind : DeliveryKind} {fields : RoutingFields}
    (h : routingFields payloads envelope kind = .ok (some fields)) :
    (fields.event envelope.meta kind).Addressed := by
  cases kind with
  | pullRequest =>
    obtain ⟨payload, -, h⟩ := Except.bind_ok h
    obtain ⟨repository, -, h⟩ := Except.bind_ok h
    obtain rfl := Option.some.inj (Except.ok.inj h)
    exact ⟨ofRepository_event rfl, rfl⟩
  | checkSuite | checkRun | status =>
    obtain ⟨payload, -, h⟩ := Except.bind_ok h
    obtain ⟨repository, -, h⟩ := Except.bind_ok h
    obtain rfl := Option.some.inj (Except.ok.inj h)
    exact ⟨ofRepository_event rfl, rfl⟩
  | installation =>
    simp only [routingFields] at h
    split at h
    · cases h
    · rename_i hinstallation
      exact Option.isSome_iff_ne_none.2 fun hnone => hinstallation (Option.isNone_iff_eq_none.2 hnone)
  | installationRepositories => trivial
  | other word => trivial

/-- What is forwarded is an event of the delivery's kind and installation. -/
theorem routeDelivery_forward {event : WebhookEvent}
    (h : routeDelivery payloads envelope = .ok (.forward event)) :
    ∃ fields, routingFields payloads envelope (.ofStr envelope.meta.kind) = .ok (some fields) ∧
      event = fields.event envelope.meta (.ofStr envelope.meta.kind) := by
  obtain ⟨fields?, hfields, h⟩ := Except.bind_ok h
  cases fields? with
  | none => cases Except.ok.inj h
  | some fields => exact ⟨fields, hfields, (Disposition.forward.inj (Except.ok.inj h)).symm⟩

/-- Only a kind that is not routed is acknowledged. -/
theorem routeDelivery_acknowledge (h : routeDelivery payloads envelope = .ok .acknowledge) :
    ∃ word, DeliveryKind.ofStr envelope.meta.kind = .other word := by
  obtain ⟨fields?, hfields, h⟩ := Except.bind_ok h
  cases fields? with
  | some fields => cases Except.ok.inj h
  | none =>
    cases hkind : DeliveryKind.ofStr envelope.meta.kind with
    | other word => exact ⟨word, rfl⟩
    | installation | installationRepositories =>
      rw [hkind] at hfields
      simp only [routingFields] at hfields
      split at hfields <;> cases hfields
    | pullRequest | checkSuite | checkRun | status =>
      rw [hkind] at hfields
      obtain ⟨payload, -, hfields⟩ := Except.bind_ok hfields
      obtain ⟨repository, -, hfields⟩ := Except.bind_ok hfields
      cases hfields

variable (payloads)

/-- **The edge and the dispatcher of installation `own` agree.** -/
structure Agree (own : ℕ) : Prop where
  /-- What is forwarded is routed, or refused as another installation's. -/
  forwarded : ∀ envelope event, routeDelivery payloads envelope = .ok (.forward event) →
    (∃ route, routeWebhook own event = .ok route) ∨
      ∃ actual, event.installationId = some actual ∧ actual ≠ own ∧
        routeWebhook own event = .error (.foreignInstallation own actual)
  /-- What is acknowledged would have been ignored. -/
  acknowledged : ∀ envelope, routeDelivery payloads envelope = .ok .acknowledge →
    ∀ event : WebhookEvent, event.event = .ofStr envelope.meta.kind → ¬ event.Foreign own →
      routeWebhook own event = .ok .ignore
  /-- Another installation's event is never routed. -/
  foreign : ∀ event : WebhookEvent, event.Foreign own → ∀ route, routeWebhook own event ≠ .ok route

/-- **The two tables are one.** -/
theorem edge_agrees (own : ℕ) : Agree payloads own where
  forwarded envelope event h := by
    obtain ⟨fields, hfields, rfl⟩ := routeDelivery_forward h
    by_cases hforeign : (fields.event envelope.meta (.ofStr envelope.meta.kind)).Foreign own
    · obtain ⟨actual, hactual, hne⟩ := hforeign
      exact .inr ⟨actual, hactual, hne, routeWebhook_of_foreign hactual hne⟩
    · rw [routeWebhook_of_not_foreign hforeign]
      exact .inl (routeKind_ok (addressed_of_routingFields hfields))
  acknowledged envelope h event hkind hforeign := by
    obtain ⟨word, hword⟩ := routeDelivery_acknowledge h
    rw [routeWebhook_of_not_foreign hforeign, routeKind, hkind, hword]
  foreign event hforeign route h := by
    obtain ⟨actual, hactual, hne⟩ := hforeign
    rw [routeWebhook_of_foreign hactual hne] at h
    cases h

end

end Dependaboard
