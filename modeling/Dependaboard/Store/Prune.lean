import Dependaboard.Store.Writer
/-!
# Store — the three prunes

The pull requests a repository's listing no longer shows, the repositories
an installation's listing no longer shows, an installation lost whole. Each
removes rows and queues their keys in one transaction. `Prune` is the three
as one, `Prune.dooms` which rows each takes, and `Prune.run_ok` what any of
them that succeeds has done.
-/

namespace Dependaboard

open Relational

namespace Store

/-- Prune one repository's pull requests down to `live`. -/
def retainPrsOn (store : Store) (repositoryId : ℕ) (live : List ℕ) (syncedBefore : ℕ) :
    Except StoreError (List PrKey × Store) := do
  let repository ← integer repositoryId
  let fence ← integer syncedBefore
  let live ← live.mapM integer
  let doomed (row : PrRecord) : Bool :=
    row.repositoryId = repository ∧ row.syncedAt < fence ∧ row.number ∉ live
  let pruned := deletedPrKeys (store.pullRequests.rows.filter doomed)
  let store ← (store.deletePullRequests doomed).queueRetirements pruned (some syncedBefore)
  return (pruned, store)

/-- Drop the repositories `predicate` selects, reporting the pull requests
that went with them. -/
def deleteRepositoriesWhere (store : Store) (predicate : RepoRecord → Bool)
    (syncedBefore : Option ℕ) : Except StoreError (List PrKey × Store) := do
  let doomed := store.hangsOff predicate
  let cascaded := deletedPrKeys (store.pullRequests.rows.filter doomed)
  let store := (store.deletePullRequests doomed).deleteRepositories predicate
  let store ← store.queueRetirements cascaded syncedBefore
  return (cascaded, store)

/-- Drop the installation's repositories that are not in `live` and were
synced before the fence. -/
def retainReposOn (store : Store) (installationId : ℕ) (live : List ℕ) (syncedBefore : ℕ) :
    Except StoreError (List PrKey × Store) := do
  let installation ← integer installationId
  let fence ← integer syncedBefore
  let live ← live.mapM integer
  store.deleteRepositoriesWhere
    (fun repo => repo.installationId = installation ∧ repo.syncedAt < fence ∧
      repo.repositoryId ∉ live)
    (some syncedBefore)

/-- The prune behind a repository's listing, in one transaction. -/
def retainPrs (store : Store) (repositoryId : ℕ) (live : List ℕ) (syncedBefore : ℕ) :
    Except StoreError (List PrKey × Store) :=
  store.retainPrsOn repositoryId live syncedBefore

/-- The repositories a listing names are written, each by its own stamp, and
then the others pruned, all in one transaction. -/
def replaceInstallationRepos (store : Store) (installationId : ℕ) (repos : List RepoRecord)
    (syncedBefore : ℕ) : Except StoreError (List PrKey × Store) := do
  let store ← repos.foldlM upsertRepo store
  store.retainReposOn installationId (repos.map (·.repositoryId)) syncedBefore

/-- Every repository of the installation goes, whatever its stamp, and its
pull requests are retired without a fence. -/
def purgeInstallation (store : Store) (installationId : ℕ) :
    Except StoreError (List PrKey × Store) := do
  let installation ← integer installationId
  store.deleteRepositoriesWhere (fun repo => repo.installationId = installation) none

end Store

/-- A prune a handler may make. -/
inductive Prune where
  | retainPrs (repositoryId : ℕ) (live : List ℕ) (syncedBefore : ℕ)
  | replaceInstallationRepos (installationId : ℕ) (repos : List RepoRecord) (syncedBefore : ℕ)
  | purgeInstallation (installationId : ℕ)
  deriving Repr

namespace Prune

/-- The call the prune is. -/
def run : Prune → Store → Except StoreError (List PrKey × Store)
  | retainPrs repositoryId live syncedBefore, store =>
    store.retainPrs repositoryId live syncedBefore
  | replaceInstallationRepos installationId repos syncedBefore, store =>
    store.replaceInstallationRepos installationId repos syncedBefore
  | purgeInstallation installationId, store => store.purgeInstallation installationId

/-- The fence it records with what it retires; a purge has none, since nothing
can reopen what it takes. -/
def fence : Prune → Option ℕ
  | retainPrs _ _ syncedBefore => some syncedBefore
  | replaceInstallationRepos _ _ syncedBefore => some syncedBefore
  | purgeInstallation _ => none

/-- Whether the prune drops a repository; `retain_prs` drops none. -/
def drops : Prune → RepoRecord → Bool
  | retainPrs _ _ _, _ => false
  | replaceInstallationRepos installationId repos syncedBefore, repo =>
    repo.installationId = installationId ∧ repo.syncedAt < syncedBefore ∧
      repo.repositoryId ∉ repos.map (·.repositoryId)
  | purgeInstallation installationId, repo => repo.installationId = installationId

/-- Whether the prune takes a row of the store it runs on: by the row's own
stamp, or with the repository it hangs off. -/
def dooms (store : Store) : Prune → PrRecord → Bool
  | retainPrs repositoryId live syncedBefore, row =>
    row.repositoryId = repositoryId ∧ row.syncedAt < syncedBefore ∧ row.number ∉ live
  | prune, row => store.hangsOff prune.drops row

/-- **What a prune that succeeded has done**: the doomed rows are gone, their
keys reported, and each queued under the fence, in order, numbered on. -/
structure Landed (prune : Prune) (store : Store) (pruned : List PrKey) (store' : Store) :
    Prop where
  keys : pruned = Store.deletedPrKeys (store.pullRequests.rows.filter (prune.dooms store))
  rows : store'.pullRequests = store.pullRequests.delete (prune.dooms store)
  queued : store'.retirements.rows
    = store.retirements.rows ++ store.queuedRows pruned prune.fence
  last : store'.retirements.last = store.retirements.last + pruned.length

end Prune

namespace Store

theorem mapM_integers_ok {values bounds : List ℕ} (h : values.mapM integer = .ok bounds) :
    bounds = values := by
  induction values generalizing bounds with
  | nil => exact (Except.ok.inj h).symm
  | cons value values ih =>
    rw [List.mapM_cons] at h
    obtain ⟨bound, hbound, h⟩ := Except.bind_ok h
    obtain ⟨rest, hrest, h⟩ := Except.bind_ok h
    rw [← integer_ok hbound, ← ih hrest]
    exact (Except.ok.inj h).symm

theorem mapM_integers_of_lt {values : List ℕ} (h : ∀ value ∈ values, value < i64Size) :
    values.mapM integer = .ok values := by
  induction values with
  | nil => rfl
  | cons value values ih =>
    obtain ⟨hvalue, hrest⟩ := List.forall_mem_cons.1 h
    rw [List.mapM_cons, integer_of_lt hvalue, ih hrest]
    rfl

theorem retainPrs_landed {store store' : Store} {repositoryId syncedBefore : ℕ}
    {live : List ℕ} {pruned : List PrKey}
    (h : store.retainPrs repositoryId live syncedBefore = .ok (pruned, store')) :
    (Prune.retainPrs repositoryId live syncedBefore).Landed store pruned store' := by
  obtain ⟨-, h₁⟩ := integer_bind_ok h
  obtain ⟨-, h₂⟩ := integer_bind_ok h₁
  obtain ⟨_, hlive, h₃⟩ := Except.bind_ok h₂
  obtain ⟨_, hqueue, h₄⟩ := Except.bind_ok h₃
  cases mapM_integers_ok hlive
  cases queueRetirements_ok hqueue
  cases h₄
  exact ⟨rfl, insertRetirements_pullRequests _ _ _, rows_insertRetirements _ _ _,
    last_insertRetirements _ _ _⟩

/-- The pull requests went first, so the cascade finds none left. -/
theorem deletePullRequests_deleteRepositories (store : Store) (predicate : RepoRecord → Bool) :
    ((store.deletePullRequests (store.hangsOff predicate)).deleteRepositories
      predicate).pullRequests = store.pullRequests.delete (store.hangsOff predicate) := by
  refine Table.ext ?_
  have hsame : ∀ row, (store.deletePullRequests (store.hangsOff predicate)).hangsOff predicate row
      = store.hangsOff predicate row := fun _ => rfl
  simp only [deleteRepositories_pullRequests, deletePullRequests_pullRequests, Table.delete,
    List.filter_filter, hsame, Bool.and_self]

/-- A repository delete that landed took every row hanging off what it
selected. -/
theorem deleteRepositoriesWhere_landed {prune : Prune} {store store' : Store}
    {pruned : List PrKey} (hdooms : prune.dooms store = store.hangsOff prune.drops)
    (h : store.deleteRepositoriesWhere prune.drops prune.fence = .ok (pruned, store')) :
    prune.Landed store pruned store' := by
  obtain ⟨_, hqueue, h₁⟩ := Except.bind_ok h
  cases queueRetirements_ok hqueue
  cases h₁
  refine ⟨by rw [hdooms], ?_, rows_insertRetirements _ _ _, last_insertRetirements _ _ _⟩
  rw [insertRetirements_pullRequests, deletePullRequests_deleteRepositories, hdooms]

theorem purgeInstallation_landed {store store' : Store} {installationId : ℕ}
    {pruned : List PrKey}
    (h : store.purgeInstallation installationId = .ok (pruned, store')) :
    (Prune.purgeInstallation installationId).Landed store pruned store' := by
  obtain ⟨-, h₁⟩ := integer_bind_ok h
  exact deleteRepositoriesWhere_landed rfl h₁

/-- Writing repositories leaves the pull requests, the outbox, and every
repository that is not among them. -/
theorem foldlM_upsertRepo_ok {repos : List RepoRecord} {store store' : Store}
    (h : repos.foldlM upsertRepo store = .ok store') :
    store'.pullRequests = store.pullRequests ∧ store'.retirements = store.retirements ∧
      ∀ repositoryId, repositoryId ∉ repos.map (·.repositoryId) →
        store'.repository? repositoryId = store.repository? repositoryId := by
  induction repos generalizing store with
  | nil => cases h; exact ⟨rfl, rfl, fun _ _ => rfl⟩
  | cons repo repos ih =>
    obtain ⟨_, hupsert, h₁⟩ := Except.bind_ok h
    cases upsertRepo_ok hupsert
    obtain ⟨hrows, houtbox, hkept⟩ := ih h₁
    refine ⟨hrows, houtbox, fun repositoryId hnot => ?_⟩
    obtain ⟨hne, hnot⟩ : repositoryId ≠ repo.repositoryId ∧
        repositoryId ∉ repos.map (·.repositoryId) := by simpa using hnot
    rw [hkept repositoryId hnot]
    exact Table.find?_upsert_of_ne hne

/-- The repositories just written are live, so what a replacement takes it
takes from the store as it found it. -/
theorem hangsOff_replace {repos : List RepoRecord} {store store' : Store}
    (h : repos.foldlM upsertRepo store = .ok store') (installationId syncedBefore : ℕ) :
    store'.hangsOff (Prune.replaceInstallationRepos installationId repos syncedBefore).drops
      = store.hangsOff (Prune.replaceInstallationRepos installationId repos syncedBefore).drops := by
  funext row
  obtain ⟨-, -, hkept⟩ := foldlM_upsertRepo_ok h
  by_cases hlive : row.repositoryId ∈ repos.map (·.repositoryId)
  · have hspared : ∀ s : Store, s.hangsOff
        (Prune.replaceInstallationRepos installationId repos syncedBefore).drops row = false := by
      intro s
      cases hrepo : s.repository? row.repositoryId with
      | none => simp [hangsOff, hrepo]
      | some repo =>
        have hid : repo.repositoryId = row.repositoryId := (Table.find?_eq_some.1 hrepo).2
        simp [hangsOff, hrepo, Prune.drops, hid, hlive]
    rw [hspared store', hspared store]
  · simp only [hangsOff, hkept _ hlive]

theorem replaceInstallationRepos_landed {store store' : Store} {installationId syncedBefore : ℕ}
    {repos : List RepoRecord} {pruned : List PrKey}
    (h : store.replaceInstallationRepos installationId repos syncedBefore
      = .ok (pruned, store')) :
    (Prune.replaceInstallationRepos installationId repos syncedBefore).Landed store pruned
      store' := by
  obtain ⟨written, hwritten, h₁⟩ := Except.bind_ok h
  obtain ⟨-, h₂⟩ := integer_bind_ok h₁
  obtain ⟨-, h₃⟩ := integer_bind_ok h₂
  obtain ⟨_, hlive, h₄⟩ := Except.bind_ok h₃
  cases mapM_integers_ok hlive
  obtain ⟨hrows, houtbox, -⟩ := foldlM_upsertRepo_ok hwritten
  have hlanded : (Prune.replaceInstallationRepos installationId repos syncedBefore).Landed written
      pruned store' := deleteRepositoriesWhere_landed rfl h₄
  obtain ⟨hkeys, hdeleted, hqueued, hlast⟩ := hlanded
  have hdooms : Prune.dooms written (.replaceInstallationRepos installationId repos syncedBefore)
      = Prune.dooms store (.replaceInstallationRepos installationId repos syncedBefore) :=
    hangsOff_replace hwritten installationId syncedBefore
  rw [hdooms, hrows] at hkeys hdeleted
  rw [Store.queuedRows, houtbox] at hqueued
  rw [houtbox] at hlast
  exact ⟨hkeys, hdeleted, hqueued, hlast⟩

end Store

namespace Prune

/-- **A prune that succeeds has landed**, whichever it is. -/
theorem run_ok {prune : Prune} {store store' : Store} {pruned : List PrKey}
    (h : prune.run store = .ok (pruned, store')) : prune.Landed store pruned store' := by
  cases prune with
  | retainPrs repositoryId live syncedBefore => exact Store.retainPrs_landed h
  | replaceInstallationRepos installationId repos syncedBefore =>
    exact Store.replaceInstallationRepos_landed h
  | purgeInstallation installationId => exact Store.purgeInstallation_landed h

namespace Landed

variable {prune : Prune} {store store' : Store} {pruned : List PrKey}

/-- The keys reported are those of the rows that went. -/
theorem mem_pruned (h : prune.Landed store pruned store') {key : PrKey} :
    key ∈ pruned ↔ ∃ row ∈ store.pullRequests.rows, prune.dooms store row ∧ row.key = key := by
  rw [h.keys, Store.mem_deletedPrKeys]
  simp [and_assoc]

/-- The outbox after is the outbox before and the rows just queued. -/
theorem mem_retirements (h : prune.Landed store pruned store') {retirement : Retirement} :
    retirement ∈ store'.retirements.rows ↔ retirement ∈ store.retirements.rows ∨
      retirement ∈ store.queuedRows pruned prune.fence := by
  rw [h.queued, List.mem_append]

/-- A row queued is a pruned key's, under the prune's fence, numbered past
every older one and no further than the last. -/
theorem of_mem_queuedRows (h : prune.Landed store pruned store') {retirement : Retirement}
    (hmem : retirement ∈ store.queuedRows pruned prune.fence) :
    retirement.key ∈ pruned ∧ retirement.syncedBefore = prune.fence ∧
      store.retirements.last < retirement.id ∧
      retirement.id ≤ store'.retirements.last := by
  obtain ⟨⟨key, id⟩, hkey, rfl⟩ := List.mem_map.1 hmem
  have hlow : store.retirements.last + 1 ≤ id := List.le_snd_of_mem_zipIdx hkey
  have hhigh : id < store.retirements.last + 1 + pruned.length :=
    List.snd_lt_add_of_mem_zipIdx hkey
  have hlast := h.last
  exact ⟨List.fst_mem_of_mem_zipIdx hkey, rfl, Nat.lt_of_succ_le hlow, by simp only; omega⟩

end Landed

/-- Every pruned key is queued. -/
theorem exists_queuedRow (prune : Prune) (store : Store) {pruned : List PrKey} {key : PrKey}
    (hkey : key ∈ pruned) : ∃ retirement ∈ store.queuedRows pruned prune.fence,
      retirement.key = key := by
  obtain ⟨i, hi, rfl⟩ := List.mem_iff_getElem.1 hkey
  refine ⟨⟨store.retirements.last + 1 + i, pruned[i], prune.fence⟩, ?_, rfl⟩
  exact List.mem_map.2 ⟨(pruned[i], store.retirements.last + 1 + i),
    List.mk_add_mem_zipIdx_iff_getElem?.2 (List.getElem?_eq_getElem hi), rfl⟩

end Prune

end Dependaboard
