import Dependaboard.Dashboard.Facets
/-!
# Dashboard — the repository facet against the repository filter

The facet counts a repository's rows by its id; the filter it sets names a
repository by the text of its owner and name, which nothing keeps apart. Two
repositories of an installation may carry one text, as when one is deleted
and another made in its place, and choosing either lists the rows of both:
`repository_facet_agrees_iff`.
-/

namespace Dependaboard

open Relational

/-- The text a repository is chosen by. -/
def RepoRecord.fullName (repo : RepoRecord) : String := repo.owner ++ "/" ++ repo.repo

/-- The filter with one repository chosen, by its text, and no other. -/
def PrFilter.choosingRepo (filter : PrFilter) (repo : RepoRecord) : PrFilter :=
  { filter with repos := [repo.fullName] }

/-- The row hangs off a repository of the text. -/
def Store.hangsOffNamed (store : Store) (name : String) (row : PrRecord) : Bool :=
  store.repositories.rows.any fun repo =>
    repo.repositoryId = row.repositoryId ∧ repo.fullName = name

/-- **Choosing a repository narrows the rows by its text.** -/
theorem PrFilter.matches_choosingRepo (filter : PrFilter) (repo : RepoRecord) (store : Store)
    (now : ℕ) (row : PrRecord) : (filter.choosingRepo repo).matches store now row
      = ((withoutFacet filter .repositories).matches store now row &&
          store.hangsOffNamed repo.fullName row) := by
  have hchosen : [Clause.repos [repo.fullName]].all (Clause.holds store row)
      = store.hangsOffNamed repo.fullName row := by
    rw [List.all_cons, List.all_nil, Bool.and_true, Clause.holds, Store.hangsOffNamed]
    simp only [List.mem_singleton]
    rfl
  simp only [PrFilter.matches, clauses, choosingRepo, withoutFacet, List.all_append,
    List.cons_ne_nil, if_false, hchosen, if_true, List.all_nil, Bool.and_true]
  ac_rfl

/-- No repository of the installation with a match has the text of another of
the installation's. -/
def Store.NamesApart (store : Store) (filter : PrFilter) (now installationId : ℕ) : Prop :=
  ∀ row ∈ store.matching (withoutFacet filter .repositories) now installationId,
    ∀ repo ∈ store.repositories.rows, repo.installationId = installationId →
      store.hangsOffNamed repo.fullName row → row.repositoryId = repo.repositoryId

namespace ProjectionReader

variable {codec : CursorCodec} {store : Store} {filter : PrFilter} {now installationId : ℕ}

/-- **The repository facet agrees with the repository filter**: the summary
lists the installation's repositories, each once, each with the total of the
listing that chooses it, and the counts make up the total of the listing that
chooses none. -/
structure RepositoryFacetAgrees (codec : CursorCodec) (store : Store) (now installationId : ℕ)
    (filter : PrFilter) (summary : DashboardSummary) : Prop where
  given : dashboardSummary store now installationId filter = .ok summary
  listed : (summary.facets.repositories.map RepoFacet.repository).Perm
    (store.repositories.rows.filter fun repo => repo.installationId = installationId)
  counted : ∀ facet ∈ summary.facets.repositories, Reports codec store now installationId
    (filter.choosingRepo facet.repository) facet.count
  summed : Reports codec store now installationId { filter with repos := [] }
    (summary.facets.repositories.map RepoFacet.count).sum

theorem Reports.eq {total total' : ℕ} (h : Reports codec store now installationId filter total)
    (h' : Reports codec store now installationId filter total') : total = total' := by
  obtain ⟨page, hpage⟩ := h.given 0
  rw [← h.total _ _ hpage, h'.total _ _ hpage]

/-- A repository's count is the total of choosing it exactly when no match of
another repository carries its text. -/
theorem countP_eq_matching_iff (repo : RepoRecord) (hrepo : repo ∈ store.repositories.rows) :
    (store.matching (withoutFacet filter .repositories) now installationId).countP
        (fun row => row.repositoryId = repo.repositoryId)
      = (store.matching (filter.choosingRepo repo) now installationId).length ↔
    ∀ row ∈ store.matching (withoutFacet filter .repositories) now installationId,
      store.hangsOffNamed repo.fullName row → row.repositoryId = repo.repositoryId := by
  have hchosen : store.matching (filter.choosingRepo repo) now installationId
      = (store.matching (withoutFacet filter .repositories) now installationId).filter
        (store.hangsOffNamed repo.fullName) := by
    rw [Store.matching, Store.matching, List.filter_filter]
    congr 1
    funext row
    rw [PrFilter.matches_choosingRepo, Bool.and_right_comm, Bool.and_comm]
  have hown (row : PrRecord) (h : row.repositoryId = repo.repositoryId) :
      store.hangsOffNamed repo.fullName row = true :=
    List.any_eq_true.2 ⟨repo, hrepo, by simp [h]⟩
  have hcount : (store.matching (withoutFacet filter .repositories) now installationId).countP
        (fun row => row.repositoryId = repo.repositoryId)
      = ((store.matching (withoutFacet filter .repositories) now installationId).filter
        (store.hangsOffNamed repo.fullName)).countP
          fun row => row.repositoryId = repo.repositoryId := by
    rw [List.countP_filter]
    refine List.countP_congr fun row _ => ?_
    simpa using fun h => hown row h
  rw [hchosen, hcount, List.countP_eq_length]
  simp only [List.mem_filter, and_imp, decide_eq_true_eq]

/-- Every match of an installation hangs off one of its repositories. -/
theorem repositoryId_mem {row : PrRecord}
    (hrow : row ∈ store.matching filter now installationId) :
    row.repositoryId ∈ (store.repositories.rows.filter fun repo =>
      installationId = repo.installationId).map RepoRecord.repositoryId := by
  have hboth := (List.mem_filter.1 hrow).2
  obtain ⟨repo, hrepo, howns⟩ := List.any_eq_true.1 (Bool.and_eq_true_iff.1 hboth).2
  obtain ⟨hid, hinstallation⟩ := of_decide_eq_true howns
  exact List.mem_map.2 ⟨repo, List.mem_filter.2 ⟨hrepo, decide_eq_true hinstallation.symm⟩, hid⟩

/-- The repositories of a summary are the installation's, each once. -/
theorem listed_repositories (store : Store) (now installationId : ℕ) (filter : PrFilter) :
    ((summaryOf store now installationId filter).facets.repositories.map
      RepoFacet.repository).Perm
        (store.repositories.rows.filter fun repo => repo.installationId = installationId) := by
  have hrepos : (summaryOf store now installationId filter).facets.repositories.map
      RepoFacet.repository = orderBy RepoRecord.order (store.repositories.rows.filter fun repo =>
        installationId = repo.installationId) := by
    simp [summaryOf, Function.comp_def]
  have hsame : (store.repositories.rows.filter fun repo => repo.installationId = installationId)
      = store.repositories.rows.filter fun repo => installationId = repo.installationId :=
    List.filter_congr fun repo _ => by simp [eq_comm]
  rw [hrepos, hsame]
  exact perm_orderBy _

/-- The counts of a summary's repositories make up the total without a
repository chosen. -/
theorem sum_repositories (store : Store) (now installationId : ℕ) (filter : PrFilter) :
    ((summaryOf store now installationId filter).facets.repositories.map RepoFacet.count).sum
      = (store.matching { filter with repos := [] } now installationId).length := by
  have hperm := (@perm_orderBy _ _ _ RepoRecord.order (store.repositories.rows.filter fun repo =>
    installationId = repo.installationId)).map RepoRecord.repositoryId
  have hkeys := hperm.nodup_iff.2 (store.repositories.nodup_map_filter _)
  have hall : (store.matching (withoutFacet filter .repositories) now installationId).countP
      (fun row => row.repositoryId ∈ (orderBy RepoRecord.order (store.repositories.rows.filter
        fun repo => installationId = repo.installationId)).map RepoRecord.repositoryId)
      = (store.matching (withoutFacet filter .repositories) now installationId).length :=
    List.countP_eq_length.2 fun row hrow => decide_eq_true
      (hperm.mem_iff.2 (repositoryId_mem hrow))
  have hsum := (sum_countP hkeys).trans hall
  rw [List.map_map] at hsum
  exact (congrArg List.sum List.map_map).trans hsum

/-- A facet that agrees has its names apart. -/
theorem RepositoryFacetAgrees.namesApart {summary : DashboardSummary}
    (h : RepositoryFacetAgrees codec store now installationId filter summary)
    (hfits : ScopedFilter.Fits filter none now installationId) :
    store.NamesApart filter now installationId := by
  obtain rfl : summaryOf store now installationId filter = summary :=
    Except.ok.inj ((dashboardSummary_eq store hfits).symm.trans h.given)
  intro row hrow repo hrepo hinstallation hnamed
  have hfacet : (⟨repo, (store.matching (withoutFacet filter .repositories) now
      installationId).countP fun row => row.repositoryId = repo.repositoryId⟩ : RepoFacet)
      ∈ (summaryOf store now installationId filter).facets.repositories :=
    List.mem_map.2 ⟨repo, mem_orderBy.2 (List.mem_filter.2
      ⟨hrepo, decide_eq_true hinstallation.symm⟩), rfl⟩
  have hcount := (h.counted _ hfacet).eq (reports_matching codec store
    (⟨hfits.attention, hfits.cursor, hfits.installation⟩ :
      ScopedFilter.Fits (filter.choosingRepo repo) none now installationId))
  exact (countP_eq_matching_iff repo hrepo).1 hcount row hrow hnamed

/-- **The repository facet agrees with the repository filter exactly when no
repository with a match shares its text** with another of the installation's;
what SQLite has no integer for is refused. -/
theorem repository_facet_agrees_iff (codec : CursorCodec) (store : Store) (filter : PrFilter)
    (now installationId : ℕ) :
    (ScopedFilter.Fits filter none now installationId →
      ((∃ summary, RepositoryFacetAgrees codec store now installationId filter summary) ↔
        store.NamesApart filter now installationId)) ∧
    (¬ ScopedFilter.Fits filter none now installationId →
      dashboardSummary store now installationId filter = .error .integerOverflow) := by
  refine ⟨fun hfits => ⟨fun ⟨summary, h⟩ => h.namesApart hfits, fun hapart => ?_⟩,
    dashboardSummary_error store⟩
  refine ⟨_, dashboardSummary_eq store hfits,
    listed_repositories store now installationId filter, fun facet hfacet => ?_, ?_⟩
  · obtain ⟨repo, hrepo, rfl⟩ := List.mem_map.1 hfacet
    obtain ⟨hrepo, hinstallation⟩ := List.mem_filter.1 (mem_orderBy.1 hrepo)
    have hcount := (countP_eq_matching_iff repo hrepo).2 fun row hrow hnamed =>
      hapart row hrow repo hrepo (of_decide_eq_true hinstallation).symm hnamed
    rw [hcount]
    exact reports_matching codec store ⟨hfits.attention, hfits.cursor, hfits.installation⟩
  · rw [sum_repositories]
    exact reports_matching codec store ⟨hfits.attention, hfits.cursor, hfits.installation⟩

/-- A repository deleted and another made in its place, both of one text, a
pull request of the first. -/
def sampleRecreated : Store where
  repositories := ⟨[⟨1, 9, "acme", "api", none, 900⟩, ⟨2, 9, "acme", "api", none, 900⟩], by decide⟩
  pullRequests := ⟨[samplePr 9 20], by decide⟩
  retirements := .empty
  revision := ⟨3, 1⟩
  owned := by decide
  named := by decide +kernel

/-- **The second repository is counted without the row it lists.** -/
theorem repository_facet_disagrees : ¬ ∃ summary,
    RepositoryFacetAgrees cursorJson sampleRecreated 1000 9 default summary := by
  rintro ⟨summary, h⟩
  have hapart := h.namesApart ⟨by decide, by decide, by decide⟩
  have hid := hapart (samplePr 9 20) (by decide +kernel) ⟨2, 9, "acme", "api", none, 900⟩
    (by decide) rfl (by decide +kernel)
  exact absurd hid (by decide)

end ProjectionReader

end Dependaboard
