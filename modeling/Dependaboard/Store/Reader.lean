import Mathlib.Logic.Function.Basic
import Dependaboard.Relational.Query
import Dependaboard.Store.Filter
import Dependaboard.Store.Batches
/-!
# Store — the dashboard's reads

What the web app asks of the projection, each read held to one installation:
the rows of some keys, a page of the rows a filter matches, and the counts
that frame them. A pull request says nothing of installations; the repository
it hangs off does.
-/

namespace Dependaboard

open Relational

/-- Entries collected into a map, the last of a key standing. -/
def collect {κ ν : Type} [DecidableEq κ] (entries : List (κ × ν)) : κ → Option ν :=
  entries.foldl (fun map entry => Function.update map entry.1 (some entry.2)) fun _ => none

/-- **What a map collected of entries under distinct keys holds.** -/
theorem collect_eq_some {κ ν : Type} [DecidableEq κ] {entries : List (κ × ν)}
    (h : (entries.map Prod.fst).Nodup) (k : κ) (v : ν) :
    collect entries k = some v ↔ (k, v) ∈ entries := by
  induction entries using List.reverseRecOn with
  | nil => simp [collect]
  | append_singleton entries last ih =>
    have hlast : collect (entries ++ [last])
        = Function.update (collect entries) last.1 (some last.2) := by
      simp [collect, List.foldl_append]
    rw [List.map_append, List.nodup_append] at h
    obtain ⟨hentries, -, hfresh⟩ := h
    rw [hlast, List.mem_append, List.mem_singleton]
    by_cases hk : k = last.1
    · subst hk
      have hnot : (last.1, v) ∉ entries := fun hmem =>
        hfresh _ (List.mem_map_of_mem hmem) _ (List.mem_singleton_self _) rfl
      simp [hnot, Prod.ext_iff, eq_comm]
    · rw [Function.update_of_ne hk, ih hentries]
      simp [Prod.ext_iff, hk]

/-- What the projection holds for a key, for an installation. -/
inductive ProjectedPr where
  | row (row : PrRecord)
  | absent
  /-- A row of another installation's. -/
  | foreign
  deriving DecidableEq, Repr

/-- The order the dashboard lists its rows in, from the last. -/
def PrRecord.order (row : PrRecord) : ℕ ×ₗ List Char := toLex (row.updatedAt, row.id.toList)

/-- The order labels rank in: by falling count, then by name in any case; a
tie of both stands as its groups did, by name. -/
def LabelFacet.order (facet : LabelFacet) : ℕᵒᵈ ×ₗ List Char ×ₗ List Char :=
  toLex (OrderDual.toDual facet.count,
    toLex ((asciiLowercase facet.label).toList, facet.label.toList))

/-- The order repositories are listed in: by owner, then by name, in any case;
a tie of both stands as it was found, by id. -/
def RepoRecord.order (repo : RepoRecord) : List Char ×ₗ List Char ×ₗ ℕ :=
  toLex ((asciiLowercase repo.owner).toList,
    toLex ((asciiLowercase repo.repo).toList, repo.repositoryId))

/-- A dimension of the filter that is counted, not merely applied. -/
inductive Facet where
  | checks
  | updateTypes
  | labels
  | repositories
  deriving DecidableEq, Repr

/-- The filter with the facet's own dimension dropped. -/
def withoutFacet (filter : PrFilter) : Facet → PrFilter
  | .checks => { filter with checkStatuses := [] }
  | .updateTypes => { filter with updateTypes := [] }
  | .labels => { filter with labels := [] }
  | .repositories => { filter with repos := [] }

/-- The clause a facet counts within. -/
def facetScope (filter : PrFilter) (facet : Facet) (now installationId : ℕ) :
    Except StoreError ScopedFilter :=
  ScopedFilter.new (withoutFacet filter facet) none now installationId

namespace ProjectionReader

/-- Every pull request with the installation of the repository it hangs
off. -/
def selectPr (store : Store) : List (PrRecord × ℕ) :=
  store.pullRequests.rows.filterMap fun row =>
    (store.repository? row.repositoryId).map fun repo => (row, repo.installationId)

/-! ## Keys -/

/-- What the projection holds for each key, in the keys' order. -/
def getPrs (store : Store) (installationId : ℕ) (keys : List PrKey) : List ProjectedPr :=
  if keys = [] then [] else
    let rows := (selectPr store).filter fun entry => entry.1.id ∈ keys.map toString
    let found := collect (rows.map fun entry => (entry.1.id, entry))
    keys.map fun key =>
      match found (toString key) with
      | none => .absent
      | some (row, owner) => if owner = installationId then .row row else .foreign

/-- What it holds for one key. -/
def getPr (store : Store) (installationId : ℕ) (key : PrKey) : Option ProjectedPr :=
  (getPrs store installationId [key]).head?

/-! ## Pages -/

/-- The rows a clause selects. -/
def selected (store : Store) (scope : ScopedFilter) : List PrRecord :=
  store.pullRequests.rows.filter (scope.selects store)

/-- The rows a clause selects, from the last, up to a limit. -/
def pageRows (store : Store) (scope : ScopedFilter) (limit : ℕ) :
    Except StoreError (List PrRecord) := do
  let (place, scope) := scope.bind (.integer (← integer limit))
  let rows := orderByDesc (fun entry => entry.1.order)
    ((selectPr store).filter fun entry => scope.selects store entry.1)
  return (rows.map Prod.fst).take ((integerAt scope.params place).getD 0)

/-- The cursor a page continues, where it continues one. -/
def cursorAfter (codec : CursorCodec) : Option String → Except StoreError (Option PageCursor)
  | none => .ok none
  | some text =>
    match codec.decode text with
    | none => .error .cursor
    | some cursor => .ok (some cursor)

/-- One page of the rows a filter matches, from the last, and how many it
matches in all. -/
def listPrs (codec : CursorCodec) (store : Store) (now installationId : ℕ) (filter : PrFilter)
    (page : Page) : Except StoreError DashboardPage := do
  let scope ← ScopedFilter.new filter none now installationId
  let total := (selected store scope).length
  let cursor ← cursorAfter codec page.after
  let scope ← ScopedFilter.new filter cursor now installationId
  let limit := page.normalizedLimit
  -- one row more tells the page there is another after it
  let found ← pageRows store scope (limit + 1)
  let hasMore := limit < found.length
  let rows := found.take limit
  let nextCursor := if hasMore then
      rows.getLast?.map fun row => codec.encode ⟨row.updatedAt, row.id⟩
    else none
  return ⟨rows, total, nextCursor⟩

/-! ## Counts -/

/-- Counts of a column that holds an enumeration, by its values. -/
def enumCounts {α : Type} [DecidableEq α] (fromStr : String → Option α)
    (groups : List (String × ℕ)) : Except StoreError (α → Option ℕ) := do
  let entries ← groups.mapM fun group => do return (← storedEnum fromStr group.1, group.2)
  return collect entries

/-- Every repository of the installation, with how many of its pull requests
the clause selects. -/
def repositoryFacets (store : Store) (installationId : ℕ) (scope : ScopedFilter) :
    Except StoreError (List RepoFacet) := do
  let (listed, scope) := scope.bind (.integer (← integer installationId))
  let matching := groupCounts PrRecord.repositoryId (selected store scope)
  let repositories := orderBy RepoRecord.order (store.repositories.rows.filter fun repo =>
    integerAt scope.params listed = some repo.installationId)
  return repositories.map fun repo =>
    ⟨repo, ((matching.find? fun group => group.1 = repo.repositoryId).map Prod.snd).getD 0⟩

/-- The counts of every facet. -/
def facetCounts (store : Store) (installationId : ℕ) (filter : PrFilter) (now : ℕ) :
    Except StoreError FacetCounts := do
  let checksScope ← facetScope filter .checks now installationId
  let checks ← enumCounts CheckStatus.fromStr
    (groupCounts (fun row => toString row.checkStatus) (selected store checksScope))
  let typesScope ← facetScope filter .updateTypes now installationId
  let updateTypes ← enumCounts UpdateType.fromStr
    (groupCounts (fun row => toString row.updateType) (selected store typesScope))
  let labelsScope ← facetScope filter .labels now installationId
  let labels := orderBy LabelFacet.order
    ((groupCounts id ((selected store labelsScope).flatMap PrRecord.labels)).map fun group =>
      ⟨group.1, group.2⟩)
  let reposScope ← facetScope filter .repositories now installationId
  let repositories ← repositoryFacets store installationId reposScope
  return ⟨checks, updateTypes, labels, repositories⟩

/-- The counts that frame a filter's rows, and when the installation's newest
row was synced, whatever the filter. -/
def dashboardSummary (store : Store) (now installationId : ℕ) (filter : PrFilter) :
    Except StoreError DashboardSummary := do
  let facets ← facetCounts store installationId filter now
  let scope ← ScopedFilter.new default none now installationId
  return ⟨facets, ((selected store scope).map PrRecord.syncedAt).max?⟩

end ProjectionReader

end Dependaboard
