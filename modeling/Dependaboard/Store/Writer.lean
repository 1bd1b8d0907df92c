import Dependaboard.Store.Projection
import Mathlib.Data.List.Sort
import Mathlib.Data.List.Find
/-!
# Store — the writer's calls

What a handler may ask of the projection, each call with the bounds it
checks before it binds a parameter: an integer past SQLite's is refused
before anything is written, and a call that fails leaves the store as it
was. The prunes run their statements in one transaction and queue what they
removed in it.
-/

namespace Dependaboard

open Relational

/-- One past the largest integer SQLite holds. -/
def i64Size : ℕ := 2 ^ 63

/-- Why a call failed; the database's own refusals keep its codes. -/
inductive StoreError where
  /-- The database refused, with its extended code. -/
  | database (code : ℕ)
  /-- A column that may not be null is. -/
  | nullValue
  | json
  | cursor
  | corruptEnum (value : String)
  | integerOverflow
  deriving DecidableEq, Repr

/-- `SQLITE_CONSTRAINT_FOREIGNKEY`. -/
def foreignKeyCode : ℕ := 787

/-- Bind an integer, in SQLite's range. -/
def integer (value : ℕ) : Except StoreError ℕ :=
  if value < i64Size then .ok value else .error .integerOverflow

theorem integer_ok {value bound : ℕ} (h : integer value = .ok bound) : bound = value := by
  unfold integer at h
  split at h
  · exact (Except.ok.inj h).symm
  · cases h

theorem lt_of_integer_ok {value bound : ℕ} (h : integer value = .ok bound) : value < i64Size := by
  unfold integer at h
  split at h
  · assumption
  · cases h

/-- What goes on from a bound integer goes on from the integer itself. -/
theorem integer_bind_ok {α : Type} {value : ℕ} {next : ℕ → Except StoreError α} {result : α}
    (h : (integer value >>= next) = .ok result) : value < i64Size ∧ next value = .ok result := by
  obtain ⟨bound, hbound, hnext⟩ := Except.bind_ok h
  obtain rfl := integer_ok hbound
  exact ⟨lt_of_integer_ok hbound, hnext⟩

theorem integer_of_lt {value : ℕ} (h : value < i64Size) : integer value = .ok value := if_pos h

namespace Store

/-! ## Rows -/

/-- The row is refused before anything is written where an integer does not
fit, and where its repository is not held: the foreign key is the
database's. -/
def upsertPr (store : Store) (pr : PrRecord) : Except StoreError Store := do
  let _ ← integer pr.repositoryId
  let _ ← integer pr.number
  let _ ← integer pr.createdAt
  let _ ← integer pr.updatedAt
  let _ ← integer pr.syncedAt
  if h : (store.repository? pr.repositoryId).isSome then
    return store.writePullRequest pr h
  else
    throw (.database foreignKeyCode)

/-- Rows are found by their `id`, the text of the key. -/
def getPr (store : Store) (key : PrKey) : Option PrRecord :=
  store.pullRequests.rows.find? fun row => row.id = toString key

/-- A row that is not there is deleted as well as one that is. -/
def deletePr (store : Store) (key : PrKey) : Store :=
  store.deletePullRequests fun row => row.id = toString key

/-- A repository may move to another installation, so its `installation_id` is
rewritten with the rest. -/
def upsertRepo (store : Store) (repo : RepoRecord) : Except StoreError Store := do
  let _ ← integer repo.repositoryId
  let _ ← integer repo.installationId
  let _ ← integer repo.syncedAt
  return store.writeRepository repo

/-- An id past an SQLite integer cannot be asked for, let alone found. -/
def getRepo (store : Store) (repositoryId : ℕ) : Except StoreError (Option RepoRecord) := do
  let repositoryId ← integer repositoryId
  return store.repository? repositoryId

theorem upsertPr_ok {store store' : Store} {pr : PrRecord} (h : store.upsertPr pr = .ok store') :
    ∃ hrepo, store' = store.writePullRequest pr hrepo := by
  obtain ⟨_, -, h⟩ := Except.bind_ok h
  obtain ⟨_, -, h⟩ := Except.bind_ok h
  obtain ⟨_, -, h⟩ := Except.bind_ok h
  obtain ⟨_, -, h⟩ := Except.bind_ok h
  obtain ⟨_, -, h⟩ := Except.bind_ok h
  split at h
  · exact ⟨‹_›, (Except.ok.inj h).symm⟩
  · cases h

/-- **A row upserted is the row read**, where its `id` is already its key's
text. -/
theorem row?_upsertPr {store store' : Store} {pr : PrRecord} (h : store.upsertPr pr = .ok store')
    (hid : pr.id = toString pr.key) : store'.row? pr.key = some pr := by
  obtain ⟨hrepo, rfl⟩ := upsertPr_ok h
  rw [row?_writePullRequest_self, PrRecord.derived_of_id hid]

theorem upsertRepo_ok {store store' : Store} {repo : RepoRecord}
    (h : store.upsertRepo repo = .ok store') : store' = store.writeRepository repo := by
  obtain ⟨_, -, h⟩ := Except.bind_ok h
  obtain ⟨_, -, h⟩ := Except.bind_ok h
  obtain ⟨_, -, h⟩ := Except.bind_ok h
  exact (Except.ok.inj h).symm

/-- A row is stored under a key's text exactly when the key is its own. -/
theorem id_eq_iff {store : Store} {row : PrRecord} (hrow : row ∈ store.pullRequests.rows)
    (key : PrKey) : row.id = toString key ↔ row.key = key := by
  rw [store.named row hrow]
  exact ⟨PrKey.toString_injective, fun h => h ▸ rfl⟩

/-- Two rows of one text are one row. -/
theorem eq_of_id_eq {store : Store} {a b : PrRecord} (ha : a ∈ store.pullRequests.rows)
    (hb : b ∈ store.pullRequests.rows) (h : a.id = b.id) : a = b := by
  rw [store.named a ha, store.named b hb] at h
  exact Table.eq_of_key_eq ha hb (PrKey.toString_injective h)

/-- The row read by its `id` is the row at the key. -/
theorem getPr_eq (store : Store) (key : PrKey) : store.getPr key = store.row? key := by
  unfold getPr row? Table.find?
  exact List.find?_congr fun row hrow => by simp [id_eq_iff hrow key]

/-- **A delete takes the row at its key and no other.** -/
theorem row?_deletePr (store : Store) (key other : PrKey) :
    (store.deletePr key).row? other = if other = key then none else store.row? other := by
  rw [deletePr, row?_deletePullRequests]
  cases hrow : store.row? other with
  | none => simp
  | some row =>
    obtain ⟨hmem, hkey⟩ := Table.find?_eq_some.1 hrow
    simp only [Option.filter_some, Bool.not_eq_true', decide_eq_false_iff_not,
      id_eq_iff hmem key, hkey]
    by_cases h : other = key <;> simp [h]

/-! ## The retirement outbox -/

/-- The keys of deleted rows, in key order. -/
def deletedPrKeys (rows : List PrRecord) : List PrKey :=
  (rows.map PrRecord.key).insertionSort fun a b =>
    a.repositoryId < b.repositoryId ∨ a.repositoryId = b.repositoryId ∧ a.number ≤ b.number

@[simp] theorem mem_deletedPrKeys {rows : List PrRecord} {key : PrKey} :
    key ∈ deletedPrKeys rows ↔ ∃ row ∈ rows, row.key = key := by
  rw [deletedPrKeys, (List.perm_insertionSort _ _).mem_iff, List.mem_map]

/-- Queue `keys` under their fence, one row each, in order. -/
def queueRetirements (store : Store) (keys : List PrKey) (syncedBefore : Option ℕ) :
    Except StoreError Store := do
  let fence ← syncedBefore.mapM integer
  keys.foldlM (fun store key => do
    let repositoryId ← integer key.repositoryId
    let number ← integer key.number
    return store.insertRetirement ⟨repositoryId, number⟩ fence) store

/-- The outbox in the order its ids were given out. -/
def pendingRetirements (store : Store) : List Retirement := store.retirements.rows

/-- Everything up to the last row read is let go; what was queued since keeps
its place. -/
def acknowledgeRetirements (store : Store) (through : ℕ) : Except StoreError Store := do
  let through ← integer through
  return store.deleteRetirements through

theorem acknowledgeRetirements_ok {store store' : Store} {through : ℕ}
    (h : store.acknowledgeRetirements through = .ok store') :
    store' = store.deleteRetirements through := by
  obtain ⟨bound, hbound, h⟩ := Except.bind_ok h
  rw [← integer_ok hbound]
  exact (Except.ok.inj h).symm

theorem mapM_integer_ok {fence bound : Option ℕ} (h : fence.mapM integer = .ok bound) :
    bound = fence := by
  cases fence with
  | none => exact (Except.ok.inj h).symm
  | some value =>
    obtain ⟨n, hn, h⟩ := Except.bind_ok (f := fun n => .ok (some n)) h
    rw [← integer_ok hn]
    exact (Except.ok.inj h).symm

theorem foldlM_insertRetirement_ok {store store' : Store} {keys : List PrKey}
    {fence : Option ℕ}
    (h : keys.foldlM (fun store key => do
      let repositoryId ← integer key.repositoryId
      let number ← integer key.number
      return store.insertRetirement ⟨repositoryId, number⟩ fence) store = .ok store') :
    store' = store.insertRetirements keys fence := by
  induction keys generalizing store with
  | nil => exact (Except.ok.inj h).symm
  | cons key keys ih =>
    obtain ⟨next, hnext, h⟩ := Except.bind_ok h
    obtain ⟨-, hnext⟩ := integer_bind_ok hnext
    obtain ⟨-, hnext⟩ := integer_bind_ok hnext
    obtain rfl := Except.ok.inj hnext
    exact ih h

/-- **A queue that lands has queued every key under the fence.** -/
theorem queueRetirements_ok {store store' : Store} {keys : List PrKey} {fence : Option ℕ}
    (h : store.queueRetirements keys fence = .ok store') :
    store' = store.insertRetirements keys fence := by
  obtain ⟨bound, hbound, hfold⟩ := Except.bind_ok h
  obtain rfl := mapM_integer_ok hbound
  exact foldlM_insertRetirement_ok hfold

end Store

end Dependaboard
