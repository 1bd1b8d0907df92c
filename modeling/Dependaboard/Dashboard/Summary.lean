import Dependaboard.Dashboard.Pages
/-!
# Dashboard — the summary, read off the rows

Each facet is a query of its own, grouped its own way, within the filter less
one dimension. `dashboardSummary_eq` says what they come to together: counts
of the rows that filter matches, of the installation.
-/

namespace Dependaboard

open Relational

namespace ProjectionReader

variable {codec : CursorCodec} {store : Store} {filter : PrFilter} {now installationId : ℕ}

/-- How many rows have each of the values they have. -/
def countsOf {α : Type} [DecidableEq α] (f : PrRecord → α) (rows : List PrRecord) (value : α) :
    Option ℕ :=
  if value ∈ rows.map f then some (rows.countP fun row => f row = value) else none

theorem countsOf_getD {α : Type} [DecidableEq α] (f : PrRecord → α) (rows : List PrRecord)
    (value : α) : (countsOf f rows value).getD 0 = rows.countP fun row => f row = value := by
  refine getD_eq_countP (g := f) (fun value count => ?_) value
  rw [mem_groupCounts, countsOf]
  split <;> simp_all

/-- **A column counted is its values counted**, an enumeration written out in
distinct texts. -/
theorem enumCounts_eq {α : Type} [DecidableEq α] [ToString α] {fromStr : String → Option α}
    (hread : ∀ a, fromStr (toString a) = some a) (f : PrRecord → α) (rows : List PrRecord) :
    enumCounts fromStr (groupCounts (fun row => toString (f row)) rows)
      = .ok (countsOf f rows) := by
  have hinj {a b : α} (h : toString a = toString b) : a = b :=
    Option.some.inj ((hread a).symm.trans (h ▸ hread b))
  have hvalues : (rows.map fun row => toString (f row)).dedup
      = (rows.map f).dedup.map toString := by
    have hmap : (rows.map fun row => toString (f row)) = (rows.map f).map toString := by simp
    rw [hmap, List.dedup_map_of_injective fun _ _ => hinj]
  have hgroups : groupCounts (fun row => toString (f row)) rows
      = (groupCounts f rows).map fun group => (toString group.1, group.2) := by
    simp only [groupCounts, hvalues, List.map_map, Function.comp_def]
    refine List.map_congr_left fun value _ => ?_
    congr 1
    exact List.countP_congr fun row _ => by
      simp only [decide_eq_true_eq]
      exact ⟨hinj, fun h => h ▸ rfl⟩
  have hentries : (groupCounts (fun row => toString (f row)) rows).mapM
      (fun group : String × ℕ => do return (← storedEnum fromStr group.1, group.2))
      = .ok (groupCounts f rows) := by
    rw [hgroups, mapM_eq_ok, List.forall₂_map_left_iff, List.forall₂_same]
    rintro ⟨value, count⟩ -
    simp only [storedEnum, hread]
    rfl
  rw [enumCounts, hentries, Except.ok_bind]
  refine congrArg Except.ok (funext fun value => Option.ext fun count => ?_)
  rw [collect_eq_some nodup_groupCounts, mem_groupCounts, countsOf]
  split <;> simp_all

/-- **The facet of repositories**: the installation's, in order, each with how
many of the rows the clause selects are its. -/
theorem repositoryFacets_eq (hinstallation : installationId < i64Size) {scope : ScopedFilter}
    (hselects : ∀ store more row, ScopedFilter.selects store
      { scope with params := scope.params ++ more } row
        = ScopedFilter.meaning filter none now installationId store row) (store : Store) :
    repositoryFacets store installationId scope
      = .ok ((orderBy RepoRecord.order (store.repositories.rows.filter fun repo =>
          installationId = repo.installationId)).map fun repo =>
        ⟨repo, (store.matching filter now installationId).countP fun row =>
          row.repositoryId = repo.repositoryId⟩) := by
  have hplace : integerAt (scope.params ++ [.integer installationId]) (scope.params.length + 1)
      = some installationId := by
    rw [integerAt, Nat.add_sub_cancel, List.getElem?_append_right (Nat.le_refl _)]
    simp
  have hselected : selected store { scope with params := scope.params ++ [.integer installationId] }
      = store.matching filter now installationId := by
    refine List.filter_congr fun row _ => ?_
    rw [hselects, ScopedFilter.meaning, PrRecord.follows, Option.all_none, Bool.and_true]
  rw [repositoryFacets, integer_of_lt hinstallation, Except.ok_bind]
  simp only [ScopedFilter.bind, hselected, hplace, Option.some_inj]
  refine congrArg Except.ok (List.map_congr_left fun repo _ => ?_)
  rw [← getD_find?_groups]
  rfl

/-- The summary of the rows: every facet counts those the filter matches less
the facet's own dimension, of the installation. -/
def summaryOf (store : Store) (now installationId : ℕ) (filter : PrFilter) : DashboardSummary where
  facets := {
    checks := countsOf PrRecord.checkStatus
      (store.matching (withoutFacet filter .checks) now installationId)
    updateTypes := countsOf PrRecord.updateType
      (store.matching (withoutFacet filter .updateTypes) now installationId)
    labels := orderBy LabelFacet.order ((groupCounts id
      ((store.matching (withoutFacet filter .labels) now installationId).flatMap
        PrRecord.labels)).map fun group => ⟨group.1, group.2⟩)
    repositories := (orderBy RepoRecord.order (store.repositories.rows.filter fun repo =>
        installationId = repo.installationId)).map fun repo =>
      ⟨repo, (store.matching (withoutFacet filter .repositories) now installationId).countP
        fun row => row.repositoryId = repo.repositoryId⟩ }
  lastSyncedAt := ((store.matching default now installationId).map PrRecord.syncedAt).max?

/-- **What a summary is**: the one read off the rows. -/
theorem dashboardSummary_eq (store : Store)
    (hfits : ScopedFilter.Fits filter none now installationId) :
    dashboardSummary store now installationId filter
      = .ok (summaryOf store now installationId filter) := by
  have hscope (facet : Facet) := ScopedFilter.new_ok
    (⟨by cases facet <;> exact hfits.attention, hfits.cursor, hfits.installation⟩ :
      ScopedFilter.Fits (withoutFacet filter facet) none now installationId)
  obtain ⟨checks, hchecks, hchecked⟩ := hscope .checks
  obtain ⟨types, htypes, htyped⟩ := hscope .updateTypes
  obtain ⟨labels, hlabels, hlabelled⟩ := hscope .labels
  obtain ⟨repos, hrepos, hhanging⟩ := hscope .repositories
  obtain ⟨all, hall, hevery⟩ := ScopedFilter.new_ok
    (⟨fun h => absurd h Bool.false_ne_true, hfits.cursor, hfits.installation⟩ :
      ScopedFilter.Fits default none now installationId)
  have hfacets : facetCounts store installationId filter now
      = .ok (summaryOf store now installationId filter).facets := by
    rw [facetCounts, facetScope, hchecks, Except.ok_bind, selected_eq hchecked,
      enumCounts_eq CheckStatus.fromStr_toString, Except.ok_bind, facetScope, htypes,
      Except.ok_bind, selected_eq htyped, enumCounts_eq UpdateType.fromStr_toString,
      Except.ok_bind, facetScope, hlabels, Except.ok_bind]
    simp only [selected_eq hlabelled]
    rw [facetScope, hrepos, Except.ok_bind, repositoryFacets_eq hfits.installation hhanging]
    rfl
  rw [dashboardSummary, hfacets, Except.ok_bind, hall, Except.ok_bind, selected_eq hevery]
  rfl

theorem dashboardSummary_error (store : Store)
    (hfits : ¬ ScopedFilter.Fits filter none now installationId) :
    dashboardSummary store now installationId filter = .error .integerOverflow := by
  have hscope : ¬ ScopedFilter.Fits (withoutFacet filter .checks) none now installationId :=
    fun h => hfits ⟨h.attention, h.cursor, h.installation⟩
  rw [dashboardSummary, facetCounts, facetScope, ScopedFilter.new_error hscope]
  rfl

end ProjectionReader

end Dependaboard
