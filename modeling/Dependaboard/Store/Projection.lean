import Dependaboard.Core.Records
import Dependaboard.Relational.Table
/-!
# Store — the projection's tables

The repositories, the pull requests that hang off them, the retirement
outbox and the two revision counters the triggers keep. The constraints of
the schema are fields: keys are unique, a pull request's repository is in
the table, and its `id` is the text of its key, so a store that breaks one
cannot be built.

Each write is the effect of its statement, triggers and cascade included.
-/

namespace Dependaboard

open Relational

/-- Where the read model stands: a counter every row change moves, and one
only a pull request's row moves. -/
structure ProjectionRevision where
  projection : ℕ
  pullRequests : ℕ
  deriving DecidableEq, Repr

/-- The triggers of `n` pull request rows changing. -/
def ProjectionRevision.pullRequestRows (revision : ProjectionRevision) (n : ℕ) :
    ProjectionRevision :=
  ⟨revision.projection + n, revision.pullRequests + n⟩

/-- The triggers of `n` repository rows changing. -/
def ProjectionRevision.repositoryRows (revision : ProjectionRevision) (n : ℕ) :
    ProjectionRevision :=
  ⟨revision.projection + n, revision.pullRequests⟩

/-- A record as the projection writes it, its `id` derived from its key. -/
def PrRecord.derived (pr : PrRecord) : PrRecord := { pr with id := toString pr.key }

@[simp] theorem PrRecord.derived_key (pr : PrRecord) : pr.derived.key = pr.key := by
  simp only [PrRecord.key, PrRecord.derived]

theorem PrRecord.derived_id (pr : PrRecord) : pr.derived.id = toString pr.key := rfl

/-- A record whose `id` is already its key's text is written as it is. -/
theorem PrRecord.derived_of_id {pr : PrRecord} (h : pr.id = toString pr.key) :
    pr.derived = pr := by
  cases pr
  simp only [PrRecord.derived] at h ⊢
  rw [← h]

/-- The projection. -/
@[ext] structure Store where
  repositories : Table RepoRecord ℕ RepoRecord.repositoryId
  pullRequests : Table PrRecord PrKey PrRecord.key
  retirements : Numbered Retirement Retirement.id
  revision : ProjectionRevision
  /-- The foreign key. -/
  owned : ∀ row ∈ pullRequests.rows, (repositories.find? row.repositoryId).isSome
  /-- The primary key, as text. -/
  named : ∀ row ∈ pullRequests.rows, row.id = toString row.key

namespace Store

/-- A projection just migrated. -/
def empty : Store where
  repositories := .empty
  pullRequests := .empty
  retirements := .empty
  revision := ⟨0, 0⟩
  owned _ hrow := absurd hrow List.not_mem_nil
  named _ hrow := absurd hrow List.not_mem_nil

/-- The row of a pull request, looked up by its key. -/
def row? (store : Store) (key : PrKey) : Option PrRecord := store.pullRequests.find? key

/-- The row of a repository. -/
def repository? (store : Store) (repositoryId : ℕ) : Option RepoRecord :=
  store.repositories.find? repositoryId

/-- `INSERT … ON CONFLICT(repository_id) DO UPDATE` on `repositories`. -/
def writeRepository (store : Store) (repo : RepoRecord) : Store where
  repositories := store.repositories.upsert repo
  pullRequests := store.pullRequests
  retirements := store.retirements
  revision := store.revision.repositoryRows 1
  owned := by
    intro row hrow
    by_cases h : row.repositoryId = repo.repositoryId
    · rw [h, Table.find?_upsert_self]; rfl
    · rw [Table.find?_upsert_of_ne h]; exact store.owned row hrow
  named := store.named

/-- `INSERT … ON CONFLICT(id) DO UPDATE` on `pull_requests`, its repository
in the table. -/
def writePullRequest (store : Store) (pr : PrRecord)
    (h : (store.repository? pr.repositoryId).isSome) : Store where
  repositories := store.repositories
  pullRequests := store.pullRequests.upsert pr.derived
  retirements := store.retirements
  revision := store.revision.pullRequestRows 1
  owned := by
    intro row hrow
    rcases Table.mem_upsert.1 hrow with ⟨hrow, -⟩ | rfl
    · exact store.owned row hrow
    · exact h
  named := by
    intro row hrow
    rcases Table.mem_upsert.1 hrow with ⟨hrow, -⟩ | rfl
    · exact store.named row hrow
    · rw [PrRecord.derived_key, PrRecord.derived_id]

/-- `DELETE FROM pull_requests WHERE …`. -/
def deletePullRequests (store : Store) (p : PrRecord → Bool) : Store where
  repositories := store.repositories
  pullRequests := store.pullRequests.delete p
  retirements := store.retirements
  revision := store.revision.pullRequestRows (store.pullRequests.rows.filter p).length
  owned row hrow := store.owned row (Table.mem_delete.1 hrow).1
  named row hrow := store.named row (Table.mem_delete.1 hrow).1

/-- The row hangs off a repository `predicate` selects: the subquery of the
prune, and what the foreign key cascades to. -/
def hangsOff (store : Store) (predicate : RepoRecord → Bool) (row : PrRecord) : Bool :=
  (store.repository? row.repositoryId).any predicate

/-- `DELETE FROM repositories WHERE …`, cascading to the pull requests. -/
def deleteRepositories (store : Store) (predicate : RepoRecord → Bool) : Store where
  repositories := store.repositories.delete predicate
  pullRequests := store.pullRequests.delete (store.hangsOff predicate)
  retirements := store.retirements
  revision := (store.revision.pullRequestRows
      (store.pullRequests.rows.filter (store.hangsOff predicate)).length).repositoryRows
    (store.repositories.rows.filter predicate).length
  owned := by
    intro row hrow
    obtain ⟨hmem, hkept⟩ := Table.mem_delete.1 hrow
    obtain ⟨repo, hrepo⟩ := Option.isSome_iff_exists.1 (store.owned row hmem)
    have hnot : predicate repo = false := by
      simpa [hangsOff, repository?, hrepo] using hkept
    simp [Table.find?_delete, hrepo, hnot]
  named row hrow := store.named row (Table.mem_delete.1 hrow).1

/-- `INSERT INTO pull_request_retirements`. -/
def insertRetirement (store : Store) (key : PrKey) (syncedBefore : Option ℕ) : Store where
  repositories := store.repositories
  pullRequests := store.pullRequests
  retirements := store.retirements.insert (fun id => ⟨id, key, syncedBefore⟩) fun _ => rfl
  revision := store.revision
  owned := store.owned
  named := store.named

/-- `DELETE FROM pull_request_retirements WHERE id <= …`. -/
def deleteRetirements (store : Store) (through : ℕ) : Store where
  repositories := store.repositories
  pullRequests := store.pullRequests
  retirements := store.retirements.removeThrough through
  revision := store.revision
  owned := store.owned
  named := store.named

/-- The rows `keys` are queued in: one each, in order, numbered on from the
last number given. -/
def queuedRows (store : Store) (keys : List PrKey) (syncedBefore : Option ℕ) : List Retirement :=
  (keys.zipIdx (store.retirements.last + 1)).map fun entry => ⟨entry.2, entry.1, syncedBefore⟩

/-- One retirement for each key, in order. -/
def insertRetirements (store : Store) (keys : List PrKey) (syncedBefore : Option ℕ) : Store :=
  keys.foldl (fun store key => store.insertRetirement key syncedBefore) store

/-! ## What the writes leave alone -/

@[simp] theorem deletePullRequests_pullRequests (store : Store) (p : PrRecord → Bool) :
    (store.deletePullRequests p).pullRequests = store.pullRequests.delete p := rfl

@[simp] theorem insertRetirements_pullRequests (store : Store) (keys : List PrKey)
    (fence : Option ℕ) :
    (store.insertRetirements keys fence).pullRequests = store.pullRequests := by
  induction keys generalizing store with
  | nil => rfl
  | cons key keys ih => exact ih (store.insertRetirement key fence)

/-! ## What the writes do -/

/-- A row written is the row read, its `id` derived. -/
@[simp] theorem row?_writePullRequest_self (store : Store) (pr : PrRecord)
    (h : (store.repository? pr.repositoryId).isSome) :
    (store.writePullRequest pr h).row? pr.key = some pr.derived := by
  have := Table.find?_upsert_self store.pullRequests pr.derived
  rwa [PrRecord.derived_key] at this

theorem row?_deletePullRequests (store : Store) (p : PrRecord → Bool) (key : PrKey) :
    (store.deletePullRequests p).row? key = (store.row? key).filter fun row => !p row :=
  Table.find?_delete store.pullRequests p key

/-- The rows that outlive a repository delete. -/
theorem deleteRepositories_pullRequests (store : Store) (predicate : RepoRecord → Bool) :
    (store.deleteRepositories predicate).pullRequests
      = store.pullRequests.delete (store.hangsOff predicate) := rfl

/-- **What a queue of keys adds to the outbox.** -/
theorem rows_insertRetirements (store : Store) (keys : List PrKey) (fence : Option ℕ) :
    (store.insertRetirements keys fence).retirements.rows
      = store.retirements.rows ++ store.queuedRows keys fence := by
  induction keys generalizing store with
  | nil => simp [insertRetirements, queuedRows]
  | cons key keys ih =>
    have := ih (store.insertRetirement key fence)
    simpa [insertRetirements, insertRetirement, queuedRows] using this

theorem last_insertRetirements (store : Store) (keys : List PrKey) (fence : Option ℕ) :
    (store.insertRetirements keys fence).retirements.last
      = store.retirements.last + keys.length := by
  induction keys generalizing store with
  | nil => rfl
  | cons key keys ih =>
    have := ih (store.insertRetirement key fence)
    simp only [insertRetirements, List.foldl_cons, List.length_cons] at this ⊢
    rw [this, insertRetirement, Numbered.last_insert]
    omega

end Store

end Dependaboard
