import Dependaboard.Core.Records
import Dependaboard.Core.Text
/-!
# Dependaboard — what the dashboard asks for and is shown

The filter the dashboard narrows its pull requests by, the page it asks for
and the cursor that continues it, and the answers: a page of rows with its
total, and the counts that frame them.
-/

namespace Dependaboard

instance : ToString UpdateType where
  toString
    | .major => "major"
    | .minor => "minor"
    | .patch => "patch"
    | .unknown => "unknown"

/-- A kind by its column's word; a word that is none is a row that cannot be
read. -/
def UpdateType.fromStr : String → Option UpdateType
  | "major" => some .major
  | "minor" => some .minor
  | "patch" => some .patch
  | "unknown" => some .unknown
  | _ => none

@[simp] theorem UpdateType.fromStr_toString (updateType : UpdateType) :
    UpdateType.fromStr (toString updateType) = some updateType := by
  cases updateType <;> decide

instance : ToString CheckStatus where
  toString
    | .success => "success"
    | .failure => "failure"
    | .pending => "pending"
    | .none => "none"

/-- A status by its column's word; a word that is none is a row that cannot be
read. -/
def CheckStatus.fromStr : String → Option CheckStatus
  | "success" => some .success
  | "failure" => some .failure
  | "pending" => some .pending
  | "none" => some .none
  | _ => Option.none

@[simp] theorem CheckStatus.fromStr_toString (status : CheckStatus) :
    CheckStatus.fromStr (toString status) = some status := by
  cases status <;> decide

instance : ToString Mergeable where
  toString
    | .clean => "clean"
    | .dirty => "dirty"
    | .blocked => "blocked"
    | .behind => "behind"
    | .unstable => "unstable"
    | .draft => "draft"
    | .hasHooks => "has_hooks"
    | .unknown => "unknown"

namespace Mergeable

/-- Every state there is. -/
def all : List Mergeable :=
  [.clean, .dirty, .blocked, .behind, .unstable, .draft, .hasHooks, .unknown]

/-- The branch conflicts with its base. -/
def isConflicting (state : Mergeable) : Bool := state = .dirty

/-- GitHub's `mergeable_state`; what is not one of them is `unknown`. -/
def fromGithubState : String → Mergeable
  | "clean" => clean
  | "dirty" => dirty
  | "blocked" => blocked
  | "behind" => behind
  | "unstable" => unstable
  | "draft" => draft
  | "has_hooks" => hasHooks
  | _ => unknown

theorem fromGithubState_toString (state : Mergeable) :
    fromGithubState (toString state) = state := by
  cases state <;> rfl

/-- What GitHub says is kept as it said it. -/
theorem toString_fromGithubState {value : String} (h : fromGithubState value ≠ unknown) :
    toString (fromGithubState value) = value := by
  revert h
  unfold fromGithubState
  split <;> intro h <;> first | rfl | exact absurd rfl h

end Mergeable

/-- How long a row is fresh after it was synced, in seconds. -/
def staleAfter : ℕ := 45 * 60

/-- The row was last synced longer ago than it is fresh. -/
def PrRecord.isStale (row : PrRecord) (now : ℕ) : Bool := staleAfter < now - row.syncedAt

/-! ## What is asked for -/

/-- What the dashboard narrows the pull requests by. -/
structure PrFilter where
  query : Option String
  repos : List String
  updateTypes : List UpdateType
  checkStatuses : List CheckStatus
  labels : List String
  /-- One dependency by name, in any case. -/
  dependency : Option String
  needsAttention : Bool
  deriving DecidableEq, Repr

instance : Inhabited PrFilter := ⟨⟨none, [], [], [], [], none, false⟩⟩

/-- Where a page ends: its last row's place in the order, which another row's
leaving does not move. -/
structure PageCursor where
  updatedAt : ℕ
  id : String
  deriving DecidableEq, Repr

/-- How a cursor is written as text, and read back. -/
structure CursorCodec where
  encode : PageCursor → String
  decode : String → Option PageCursor
  /-- What is written is read as it was. -/
  decode_encode : ∀ cursor, cursor.updatedAt < u64Size → decode (encode cursor) = some cursor

/-- One page of an answer. -/
structure Page where
  limit : ℕ
  after : Option String
  deriving DecidableEq, Repr

/-- The most rows one page holds, whatever the browser asks for. -/
def maxPageSize : ℕ := 100

/-- The limit a page is held to. -/
def Page.normalizedLimit (page : Page) : ℕ := max 1 (min page.limit maxPageSize)

/-! ## What is shown -/

/-- A label and how many pull requests carry it. -/
structure LabelFacet where
  label : String
  count : ℕ
  deriving DecidableEq, Repr

/-- A repository and how many of its pull requests there are. -/
structure RepoFacet where
  repository : RepoRecord
  count : ℕ
  deriving DecidableEq, Repr

/-- The counts that frame the rows. A closed set's counts are a map, which
answers for the values it has. -/
structure FacetCounts where
  checks : CheckStatus → Option ℕ
  updateTypes : UpdateType → Option ℕ
  /-- By falling count, then by name in any case. -/
  labels : List LabelFacet
  /-- Every repository, by owner and then name, in any case. -/
  repositories : List RepoFacet

/-- How many pull requests have the status; none where it has no count. -/
def FacetCounts.checkCount (facets : FacetCounts) (status : CheckStatus) : ℕ :=
  (facets.checks status).getD 0

/-- How many pull requests are of the type; none where it has no count. -/
def FacetCounts.updateTypeCount (facets : FacetCounts) (updateType : UpdateType) : ℕ :=
  (facets.updateTypes updateType).getD 0

/-- One page of the rows a filter matches, and how many it matches in all. -/
structure DashboardPage where
  rows : List PrRecord
  total : ℕ
  nextCursor : Option String
  deriving DecidableEq, Repr

/-- What the dashboard shows around the rows. -/
structure DashboardSummary where
  facets : FacetCounts
  /-- When the newest row was synced. -/
  lastSyncedAt : Option ℕ

end Dependaboard
