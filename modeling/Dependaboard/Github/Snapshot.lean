import Dependaboard.Core.Dashboard
import Dependaboard.Github.Checks
import Dependaboard.Github.Metadata
/-!
# GitHub — the record of a pull request

What GitHub answers about a pull request and its head, projected to the record
the dashboard keeps of it. A pull request that updates one dependency says it
in the record's own fields beside the list; a group leaves them empty.
-/

namespace Dependaboard

/-- A label by its name, which is all of it the dashboard filters by. -/
structure Label where
  name : String
  deriving DecidableEq, Repr

/-- A pull request, as the record is read off it. -/
structure PullRequestNode where
  title : String
  url : String
  createdAt : String
  updatedAt : String
  mergeStateStatus : Option String
  labels : Option (Connection Label)
  deriving DecidableEq, Repr

/-- GitHub's `mergeStateStatus` in the words of its `mergeable_state`. -/
def PullRequestNode.mergeableState (pull : PullRequestNode) : Option String :=
  pull.mergeStateStatus.map asciiLowercase

/-- A head commit with its message. -/
structure HeadCommit extends Commit where
  message : String
  deriving DecidableEq, Repr

/-- The readers of what GitHub answers. -/
structure SnapshotReaders extends MetadataReaders where
  /-- An RFC 3339 timestamp in Unix seconds, or why it is none. -/
  rfc3339 : String → Except String ℤ

/-- A timestamp, from 1970 on: the columns hold no sign. -/
def parseTimestamp (readers : SnapshotReaders) (value : String) : Except GithubError ℕ :=
  match readers.rfc3339 value with
  | .error cause => .error (.protocol (.timestamp cause))
  | .ok timestamp =>
    if 0 ≤ timestamp then .ok timestamp.toNat else .error (.protocol .timestampBeforeEpoch)

/-- The record of a request's pull request, of what was read of it, its head
and the signals of its head's checks. -/
def projectSnapshot (readers : SnapshotReaders) (request : SyncRequest) (pull : PullRequestNode)
    (head : HeadCommit) (signals : List CheckSignal) (syncedAt : ℕ) :
    Except GithubError PrRecord := do
  let mergeable := (pull.mergeableState.map Mergeable.fromGithubState).getD .unknown
  let labels := (pull.labels.map fun labels => labels.nodes.map Label.name).getD []
  let dependencies := parseDependabotMetadata readers.toMetadataReaders head.message pull.title
  let (dependency, fromVersion, toVersion) := match dependencies with
    | [dependency] => (some dependency.name, dependency.fromVersion, dependency.toVersion)
    | _ => (none, none, none)
  return {
    id := toString (requestKey request)
    repositoryId := request.repositoryId
    owner := request.owner
    repo := request.repo
    number := request.number
    title := pull.title
    htmlUrl := pull.url
    dependency := dependency
    fromVersion := fromVersion
    toVersion := toVersion
    dependencies := dependencies
    updateType := highestUpdateType dependencies
    headSha := head.oid
    checkStatus := rollupChecks signals
    mergeable := mergeable
    labels := labels
    createdAt := ← parseTimestamp readers pull.createdAt
    updatedAt := ← parseTimestamp readers pull.updatedAt
    syncedAt := syncedAt }

/-! ## What a record says -/

/-- What a record says beside its list is what the list says. -/
structure PrRecord.Projected (pr : PrRecord) : Prop where
  id : pr.id = toString pr.key
  /-- **A dependency is named beside the list exactly where there is one.** -/
  dependency : ∀ name, pr.dependency = some name ↔
    ∃ update, pr.dependencies = [update] ∧ update.name = name
  /-- No dependency's update is worse than the record's. -/
  updateType : ∀ update ∈ pr.dependencies, update.updateType.rank ≤ pr.updateType.rank

section Projection

variable {readers : SnapshotReaders} {request : SyncRequest} {pull : PullRequestNode}
variable {head : HeadCommit} {signals : List CheckSignal} {syncedAt : ℕ}

/-- **Every record says so**, of however many dependencies. -/
theorem projectSnapshot_projected {pr : PrRecord}
    (h : projectSnapshot readers request pull head signals syncedAt = .ok pr) :
    pr.Projected := by
  unfold projectSnapshot at h
  obtain ⟨createdAt, -, h⟩ := Except.bind_ok h
  obtain ⟨updatedAt, -, h⟩ := Except.bind_ok h
  obtain rfl := Except.ok.inj h
  refine ⟨rfl, fun name => ?_, (highestUpdateType_spec _).1⟩
  -- one dependency is named, and no other number of them
  rcases parseDependabotMetadata readers.toMetadataReaders head.message pull.title with
    _ | ⟨dependency, _ | ⟨other, rest⟩⟩
  · simp
  · simp
  · simp

/-- Only a timestamp that cannot be read keeps a record from being projected. -/
theorem projectSnapshot_error {error : GithubError}
    (h : projectSnapshot readers request pull head signals syncedAt = .error error) :
    parseTimestamp readers pull.createdAt = .error error ∨
      parseTimestamp readers pull.updatedAt = .error error := by
  unfold projectSnapshot at h
  rcases Except.bind_error h with hcreated | ⟨_, -, h⟩
  · exact .inl hcreated
  · rcases Except.bind_error h with hupdated | ⟨_, -, h⟩
    · exact .inr hupdated
    · cases h

end Projection

end Dependaboard
