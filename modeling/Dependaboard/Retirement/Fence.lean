import Dependaboard.Service.PullRequest
import Dependaboard.Store.Prune
/-!
# Retirement — the prune's guard and the object's

A prune decides by the stamps in the store which rows go, and records its
fence; the object decides by its own stamp, later, whether the close that
carries the fence retires it. Where every row carries its object's stamp
the two agree on a row that goes by its own stamp. A row that goes with its
repository goes by the repository's stamp, and there they may part:
`Prune.FenceCovers` is where they do not.
-/

namespace Dependaboard

/-- Every row carries the stamp its object holds. -/
def Stamped (store : Store) (objects : PrKey → Option PrState) : Prop :=
  ∀ row ∈ store.pullRequests.rows, (objects row.key).bind (·.lastSyncedAt) = some row.syncedAt

/-- An object stamped `synced` is retired by a close exactly when the fence
is past its stamp. -/
theorem closedRetires_iff {state : Option PrState} {synced : ℕ}
    (h : state.bind (·.lastSyncedAt) = some synced) (fence : Option ℕ) :
    closedRetires state ⟨fence⟩ ↔ ∀ f, fence = some f → synced < f := by
  cases fence with
  | none => simp [closedRetires]
  | some f => simp [closedRetires, h]

namespace Prune

/-- **Every pull request the prune took is retired by the close it queued**:
each of its keys has a retirement queued, and its object, as it stands,
answers that close by retiring. -/
def RetiresPruned (store : Store) (objects : PrKey → Option PrState) (pruned : List PrKey)
    (store' : Store) : Prop :=
  ∀ key ∈ pruned, ∃ retirement ∈ store'.retirements.rows,
    store.retirements.last < retirement.id ∧ retirement.key = key ∧
      closedRetires (objects key) ⟨retirement.syncedBefore⟩

/-- No row synced at or after the fence is gone. -/
def SparesFresh (prune : Prune) (store store' : Store) : Prop :=
  ∀ row ∈ store.pullRequests.rows, row ∉ store'.pullRequests.rows →
    ∀ f, prune.fence = some f → row.syncedAt < f

/-- No repository a replacement drops has a pull request synced at or after
the fence. The other prunes ask for nothing. -/
def FenceCovers (store : Store) : Prune → Prop
  | replaceInstallationRepos installationId repos syncedBefore =>
    ∀ repo ∈ store.repositories.rows,
      (replaceInstallationRepos installationId repos syncedBefore).drops repo →
        ∀ row ∈ store.pullRequests.rows, row.repositoryId = repo.repositoryId →
          row.syncedAt < syncedBefore
  | _ => True

/-- A row goes with a repository exactly when one the predicate selects is
the one it hangs off. -/
theorem hangsOff_iff {store : Store} {predicate : RepoRecord → Bool} {row : PrRecord} :
    store.hangsOff predicate row ↔ ∃ repo ∈ store.repositories.rows,
      predicate repo ∧ row.repositoryId = repo.repositoryId := by
  simp only [Store.hangsOff, Store.repository?, Option.any_eq_true]
  constructor
  · rintro ⟨repo, hfind, hselected⟩
    obtain ⟨hmem, hid⟩ := Relational.Table.find?_eq_some.1 hfind
    exact ⟨repo, hmem, hselected, hid.symm⟩
  · rintro ⟨repo, hmem, hselected, hid⟩
    exact ⟨repo, Relational.Table.find?_eq_some.2 ⟨hmem, hid.symm⟩, hselected⟩

/-- **The doomed rows are older than the fence** exactly where the fence
covers the repositories dropped. -/
theorem dooms_older_iff (prune : Prune) (store : Store) :
    (∀ row ∈ store.pullRequests.rows, prune.dooms store row →
      ∀ f, prune.fence = some f → row.syncedAt < f) ↔ prune.FenceCovers store := by
  cases prune with
  | retainPrs repositoryId live syncedBefore =>
    simp only [FenceCovers, iff_true]
    intro row _ hdoomed f hf
    simp only [dooms, fence, decide_eq_true_eq, Option.some.injEq] at hdoomed hf
    exact hf ▸ hdoomed.2.1
  | replaceInstallationRepos installationId repos syncedBefore =>
    constructor
    · intro h repo hrepo hdrops row hrow hid
      exact h row hrow (hangsOff_iff.2 ⟨repo, hrepo, hdrops, hid⟩) syncedBefore rfl
    · intro h row hrow hdoomed f hf
      obtain ⟨repo, hrepo, hdrops, hid⟩ := hangsOff_iff.1 hdoomed
      obtain rfl := Option.some.inj hf
      exact h repo hrepo hdrops row hrow hid
  | purgeInstallation installationId => simp [FenceCovers, fence]

variable {prune : Prune} {store store' : Store} {pruned : List PrKey}
  {objects : PrKey → Option PrState}

/-- A row is gone after a prune that landed exactly when it was doomed. -/
theorem Landed.notMem_iff (h : prune.Landed store pruned store') {row : PrRecord}
    (hrow : row ∈ store.pullRequests.rows) :
    row ∉ store'.pullRequests.rows ↔ prune.dooms store row := by
  rw [h.rows, Relational.Table.mem_delete]
  simp [hrow]

/-- The closes a prune queued retire what it took exactly when every doomed
row is older than the fence. -/
theorem Landed.retiresPruned_iff (h : prune.Landed store pruned store')
    (hstamped : Stamped store objects) :
    RetiresPruned store objects pruned store' ↔
      ∀ row ∈ store.pullRequests.rows, prune.dooms store row →
        ∀ f, prune.fence = some f → row.syncedAt < f := by
  constructor
  · intro hretires row hrow hdoomed
    obtain ⟨retirement, hmem, hnew, hkey, hcloses⟩ :=
      hretires row.key (h.mem_pruned.2 ⟨row, hrow, hdoomed, rfl⟩)
    rcases h.mem_retirements.1 hmem with hold | hqueued
    · have := store.retirements.le_last retirement hold
      omega
    · rw [(h.of_mem_queuedRows hqueued).2.1] at hcloses
      exact (closedRetires_iff (hstamped row hrow) prune.fence).1 hcloses
  · intro holder key hkey
    obtain ⟨row, hrow, hdoomed, rfl⟩ := h.mem_pruned.1 hkey
    obtain ⟨retirement, hqueued, hretirement⟩ := exists_queuedRow prune store hkey
    obtain ⟨-, hfence, hnew, -⟩ := h.of_mem_queuedRows hqueued
    refine ⟨retirement, h.mem_retirements.2 (.inr hqueued), hnew, hretirement, ?_⟩
    rw [hfence]
    exact (closedRetires_iff (hstamped row hrow) prune.fence).2 (holder row hrow hdoomed)

/-- **A prune retires what it deletes, and spares what was synced at or after
its fence, exactly when the fence covers the repositories it drops.** -/
theorem retires_pruned_iff_fenceCovers (hstamped : Stamped store objects)
    (hrun : prune.run store = .ok (pruned, store')) :
    (RetiresPruned store objects pruned store' ↔ prune.FenceCovers store) ∧
      (prune.SparesFresh store store' ↔ prune.FenceCovers store) := by
  have hlanded := run_ok hrun
  have holder := dooms_older_iff prune store
  refine ⟨(hlanded.retiresPruned_iff hstamped).trans holder, Iff.trans ?_ holder⟩
  constructor
  · exact fun h row hrow hdoomed => h row hrow ((hlanded.notMem_iff hrow).2 hdoomed)
  · exact fun h row hrow hgone => h row hrow ((hlanded.notMem_iff hrow).1 hgone)

end Prune

open Prune

/-! ## A repository stamped behind its pull request

Repository 1 of installation 9 was last listed at 10, and its pull request
`1#1` synced at 30. A listing fenced at 20 that no longer shows the
repository drops it, and the pull request with it; the close it queues
finds the object synced at 30, past the fence, and keeps it. -/

/-- The repository. -/
def sampleRepo : RepoRecord := ⟨1, 9, "acme", "api", none, 10⟩

/-- The pull request's row, synced at `syncedAt`. -/
def sampleRow (syncedAt : ℕ) : PrRecord :=
  ⟨"1#1", 1, "acme", "api", 1, "Bump serde", "https://github.com/acme/api/pull/1", none, none,
    none, [], .unknown, "abcdef0123", .none, .unknown, [], 1, 1, syncedAt⟩

/-- The projection that holds the two. -/
def sampleStore (syncedAt : ℕ) : Store :=
  (Store.empty.writeRepository sampleRepo).writePullRequest (sampleRow syncedAt) rfl

/-- The objects behind it: each holds what the projection holds. -/
def sampleObjects (syncedAt : ℕ) (key : PrKey) : Option PrState :=
  ((sampleStore syncedAt).row? key).map fun row =>
    { (default : PrState) with snapshot := some row, lastSyncedAt := some row.syncedAt }

theorem sampleStore_stamped (syncedAt : ℕ) :
    Stamped (sampleStore syncedAt) (sampleObjects syncedAt) := by
  intro row hrow
  have hfind : (sampleStore syncedAt).row? row.key = some row :=
    Relational.Table.find?_eq_some.2 ⟨hrow, rfl⟩
  simp [sampleObjects, hfind]

/-- The replacement that drops the repository. -/
def sampleReplace : Prune := .replaceInstallationRepos 9 [] 20

/-- What it leaves. -/
def sampleReplaced (syncedAt : ℕ) : Store :=
  (((sampleStore syncedAt).deletePullRequests
    ((sampleStore syncedAt).hangsOff sampleReplace.drops)).deleteRepositories
      sampleReplace.drops).insertRetirements [⟨1, 1⟩] (some 20)

theorem sampleReplace_run (syncedAt : ℕ) :
    sampleReplace.run (sampleStore syncedAt) = .ok ([⟨1, 1⟩], sampleReplaced syncedAt) := rfl

/-- A pull request synced before the fence goes with its repository, and its
object with it. -/
theorem retires_pruned_iff_fenceCovers_sample :
    (RetiresPruned (sampleStore 15) (sampleObjects 15) [⟨1, 1⟩] (sampleReplaced 15) ↔
        sampleReplace.FenceCovers (sampleStore 15)) ∧
      (sampleReplace.SparesFresh (sampleStore 15) (sampleReplaced 15) ↔
        sampleReplace.FenceCovers (sampleStore 15)) :=
  retires_pruned_iff_fenceCovers (sampleStore_stamped 15) (sampleReplace_run 15)

/-- **One synced past the fence goes with its repository, and its object
stays.** -/
theorem replaceInstallationRepos_keeps_object :
    ¬ (∀ (prune : Prune) (store store' : Store) (objects : PrKey → Option PrState)
        (pruned : List PrKey), Stamped store objects → prune.run store = .ok (pruned, store') →
          RetiresPruned store objects pruned store') ∧
      ¬ (∀ (prune : Prune) (store store' : Store) (pruned : List PrKey),
        prune.run store = .ok (pruned, store') → prune.SparesFresh store store') := by
  constructor
  · intro h
    obtain ⟨retirement, hmem, -, -, hcloses⟩ :=
      h sampleReplace _ _ _ _ (sampleStore_stamped 30) (sampleReplace_run 30) ⟨1, 1⟩ (by simp)
    obtain rfl : retirement = ⟨1, ⟨1, 1⟩, some 20⟩ := List.mem_singleton.1 hmem
    exact absurd hcloses (by decide)
  · intro h
    have := h sampleReplace _ _ _ (sampleReplace_run 30) (sampleRow 30) (List.mem_singleton.2 rfl)
      List.not_mem_nil 20 rfl
    exact absurd this (by decide)

end Dependaboard
