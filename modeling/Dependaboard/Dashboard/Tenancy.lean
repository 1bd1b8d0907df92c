import Dependaboard.Audit.Written
import Dependaboard.Dashboard.Summary
import Dependaboard.Store.Keyed
/-!
# Dashboard — one installation's reads are its own

Two states that agree on an installation's repositories, on the pull requests
under them and on its batches answer it alike, whatever else they hold. A row
of the installation is matched alike in both, since its repository is one row
of both; the orders and the groups are of the matched rows alone.
-/

namespace Dependaboard

open Relational

/-! ## Agreement -/

/-- The two projections hold the same of an installation. -/
structure Store.AgreesFor (store store' : Store) (installationId : ℕ) : Prop where
  repositories : ∀ repo, repo.installationId = installationId →
    (repo ∈ store.repositories.rows ↔ repo ∈ store'.repositories.rows)
  pullRequests : ∀ repo ∈ store.repositories.rows, repo.installationId = installationId →
    ∀ row, row.repositoryId = repo.repositoryId →
      (row ∈ store.pullRequests.rows ↔ row ∈ store'.pullRequests.rows)

/-- The two sets of audit tables hold the same of an installation. -/
structure BatchTables.AgreesFor {codec : OutcomeCodec} (tables tables' : BatchTables codec)
    (installationId : ℕ) : Prop where
  batches : ∀ row, row.installationId = some (installationId : ℤ) →
    (row ∈ tables.batches.rows ↔ row ∈ tables'.batches.rows)
  targets : ∀ batch ∈ tables.batches.rows, batch.installationId = some (installationId : ℤ) →
    ∀ row, row.batchId = batch.batchId →
      (row ∈ tables.targets.rows ↔ row ∈ tables'.targets.rows)
  running : ∀ row, row.installationId = some (installationId : ℤ) →
    (row ∈ tables.running.rows ↔ row ∈ tables'.running.rows)

/-! ## The projection -/

namespace Store

variable {store store' : Store} {installationId : ℕ}

/-- The rows an installation owns hang off its repositories. -/
theorem owns_iff {row : PrRecord} : store.owns installationId row = true ↔
    ∃ repo ∈ store.repositories.rows, repo.installationId = installationId ∧
      row.repositoryId = repo.repositoryId := by
  simp only [owns, List.any_eq_true, decide_eq_true_eq]
  constructor
  · rintro ⟨repo, hrepo, hid, hinst⟩
    exact ⟨repo, hrepo, hinst, hid.symm⟩
  · rintro ⟨repo, hrepo, hinst, hid⟩
    exact ⟨repo, hrepo, hid.symm, hinst⟩

/-- What an owned row's repository is asked is asked of one row. -/
theorem any_repository {row : PrRecord} {repo : RepoRecord}
    (hrepo : repo ∈ store.repositories.rows) (hid : row.repositoryId = repo.repositoryId)
    (p : RepoRecord → Prop) [DecidablePred p] :
    (store.repositories.rows.any fun other => other.repositoryId = row.repositoryId ∧ p other)
      = decide (p repo) := by
  rw [hid]
  exact Table.any_key hrepo p

namespace AgreesFor

theorem symm (h : store.AgreesFor store' installationId) :
    store'.AgreesFor store installationId where
  repositories repo hrepo := (h.repositories repo hrepo).symm
  pullRequests repo hrepo hinstallation row hrow :=
    (h.pullRequests repo ((h.repositories repo hinstallation).2 hrepo) hinstallation row hrow).symm

/-- **An owned row is matched alike in both.** -/
theorem matches_eq (h : store.AgreesFor store' installationId) (filter : PrFilter) (now : ℕ)
    {row : PrRecord} (hrow : store.owns installationId row = true) :
    filter.matches store now row = filter.matches store' now row := by
  obtain ⟨repo, hrepo, hinstallation, hid⟩ := owns_iff.1 hrow
  have hrepo' := (h.repositories repo hinstallation).1 hrepo
  have hclause (clause : BoundClause) :
      Clause.holds store row clause = Clause.holds store' row clause := by
    -- the row's repository is one row of both tables
    cases clause with
    | repos names =>
      rw [Clause.holds, Clause.holds, any_repository hrepo hid, any_repository hrepo' hid]
    | installation id =>
      rw [Clause.holds, Clause.holds, any_repository hrepo hid, any_repository hrepo' hid]
    | _ => rfl
  rw [PrFilter.matches, PrFilter.matches, funext hclause]

/-- A match of the one is a match of the other. -/
theorem mem_matching (h : store.AgreesFor store' installationId) {filter : PrFilter} {now : ℕ}
    {row : PrRecord} (hrow : row ∈ store.matching filter now installationId) :
    row ∈ store'.matching filter now installationId := by
  obtain ⟨hmem, hboth⟩ := List.mem_filter.1 hrow
  obtain ⟨hmatches, howns⟩ := Bool.and_eq_true_iff.1 hboth
  obtain ⟨repo, hrepo, hinstallation, hid⟩ := owns_iff.1 howns
  refine List.mem_filter.2 ⟨(h.pullRequests repo hrepo hinstallation row hid).1 hmem,
    Bool.and_eq_true_iff.2 ⟨h.matches_eq filter now howns ▸ hmatches, ?_⟩⟩
  exact owns_iff.2 ⟨repo, (h.repositories repo hinstallation).1 hrepo, hinstallation, hid⟩

/-- **The two match the same rows**, of the installation. -/
theorem perm_matching (h : store.AgreesFor store' installationId) (filter : PrFilter) (now : ℕ) :
    (store.matching filter now installationId).Perm
      (store'.matching filter now installationId) := by
  have hnodup (store : Store) : (store.matching filter now installationId).Nodup :=
    (store.nodup_matching filter now installationId).of_map
  exact (List.perm_ext_iff_of_nodup (hnodup store) (hnodup store')).2 fun row =>
    ⟨h.mem_matching, h.symm.mem_matching⟩

/-- The two list the same rows, in one order. -/
theorem listed_eq (h : store.AgreesFor store' installationId) (filter : PrFilter) (now : ℕ) :
    store.listed filter now installationId = store'.listed filter now installationId :=
  orderBy_eq_of_perm (h.perm_matching filter now) (store.nodup_matching filter now installationId)

end AgreesFor

end Store

namespace ProjectionReader

variable {store store' : Store} {installationId : ℕ}

/-- **A listing of the one is the listing of the other.** -/
theorem listPrs_congr (h : store.AgreesFor store' installationId) (codec : CursorCodec) (now : ℕ)
    (filter : PrFilter) (page : Page) : listPrs codec store now installationId filter page
      = listPrs codec store' now installationId filter page := by
  by_cases hfits : ScopedFilter.Fits filter none now installationId
  · obtain ⟨limit, after⟩ := page
    obtain ⟨scope, hscope, hselects⟩ := ScopedFilter.new_ok hfits
    cases hafter : cursorAfter codec after with
    | error e =>
      rw [listPrs, hscope, Except.ok_bind, listPrs, hscope, Except.ok_bind, hafter]
      rfl
    | ok cursor =>
      by_cases hcursor : ∀ c ∈ cursor, c.updatedAt < i64Size
      · rw [listPrs_eq store hfits hafter hcursor, listPrs_eq store' hfits hafter hcursor,
          h.listed_eq, (h.perm_matching filter now).length_eq]
      · have herror := ScopedFilter.new_error fun hfits : ScopedFilter.Fits filter cursor now
          installationId => hcursor hfits.cursor
        rw [listPrs, hscope, Except.ok_bind, hafter, Except.ok_bind, herror, listPrs, hscope,
          Except.ok_bind, hafter, Except.ok_bind, herror]
        rfl
  · rw [listPrs_error codec store hfits, listPrs_error codec store' hfits]

theorem countsOf_congr {α : Type} [DecidableEq α] (f : PrRecord → α) {rows rows' : List PrRecord}
    (h : rows.Perm rows') : countsOf f rows = countsOf f rows' := by
  funext value
  rw [countsOf, countsOf, h.countP_eq]
  simp only [(h.map f).mem_iff]

/-- The labels of some rows are ranked one way. -/
theorem labels_congr {rows rows' : List PrRecord} (h : rows.Perm rows') :
    orderBy LabelFacet.order ((groupCounts id (rows.flatMap PrRecord.labels)).map
        fun group => ⟨group.1, group.2⟩)
      = orderBy LabelFacet.order ((groupCounts id (rows'.flatMap PrRecord.labels)).map
        fun group => ⟨group.1, group.2⟩) := by
  have hgroups : ((groupCounts id (rows.flatMap PrRecord.labels)).map Prod.fst).Nodup :=
    nodup_groupCounts
  refine orderBy_eq_of_perm ((groupCounts_perm (h.flatMap_right _)).map _) ?_
  rw [List.map_map]
  refine (hgroups.of_map).map_on fun a ha b hb horder => ?_
  have hlabel : a.1.toList = b.1.toList :=
    (Prod.mk.inj (toLex.injective (Prod.mk.inj (toLex.injective horder)).2)).2
  exact List.inj_on_of_nodup_map hgroups ha hb (String.toList_inj.1 hlabel)

/-- The repositories of an installation are listed one way. -/
theorem repositories_congr (h : store.AgreesFor store' installationId) :
    orderBy RepoRecord.order (store.repositories.rows.filter fun repo =>
        installationId = repo.installationId)
      = orderBy RepoRecord.order (store'.repositories.rows.filter fun repo =>
        installationId = repo.installationId) := by
  have hnodup (store : Store) : (store.repositories.rows.filter fun repo =>
      installationId = repo.installationId).Nodup := (store.repositories.nodup_map_filter _).of_map
  refine orderBy_eq_of_perm ((List.perm_ext_iff_of_nodup (hnodup store) (hnodup store')).2
    fun repo => ?_) ?_
  · rw [List.mem_filter, List.mem_filter, decide_eq_true_iff]
    constructor
    · exact fun ⟨hmem, hown⟩ => ⟨(h.repositories repo hown.symm).1 hmem, hown⟩
    · exact fun ⟨hmem, hown⟩ => ⟨(h.repositories repo hown.symm).2 hmem, hown⟩
  · refine (hnodup store).map_on fun a ha b hb horder => ?_
    have hid : a.repositoryId = b.repositoryId :=
      (Prod.mk.inj (toLex.injective (Prod.mk.inj (toLex.injective horder)).2)).2
    exact Table.eq_of_key_eq (List.mem_of_mem_filter ha) (List.mem_of_mem_filter hb) hid

/-- The latest of some times is the latest of them in any order. -/
theorem max?_congr {times times' : List ℕ} (h : times.Perm times') :
    times.max? = times'.max? := by
  refine Option.ext fun time => ?_
  rw [List.max?_eq_some_iff, List.max?_eq_some_iff, h.mem_iff]
  simp only [h.mem_iff]

/-- **A summary of the one is the summary of the other.** -/
theorem dashboardSummary_congr (h : store.AgreesFor store' installationId) (now : ℕ)
    (filter : PrFilter) : dashboardSummary store now installationId filter
      = dashboardSummary store' now installationId filter := by
  by_cases hfits : ScopedFilter.Fits filter none now installationId
  · rw [dashboardSummary_eq store hfits, dashboardSummary_eq store' hfits]
    have hmatching (filter : PrFilter) := h.perm_matching filter now
    have hlabels := labels_congr (hmatching (withoutFacet filter .labels))
    have hrepositories (repo : RepoRecord) :=
      (hmatching (withoutFacet filter .repositories)).countP_eq
        fun row => row.repositoryId = repo.repositoryId
    have hsynced := max?_congr ((hmatching default).map PrRecord.syncedAt)
    simp only [summaryOf, countsOf_congr _ (hmatching _), hlabels, repositories_congr h,
      hrepositories, hsynced]
  · rw [dashboardSummary_error store hfits, dashboardSummary_error store' hfits]

/-- A row an installation is given is one of its own. -/
theorem owns_of_row {key : PrKey} {row : PrRecord}
    (h : store.projected installationId key = .row row) : store.owns installationId row = true := by
  unfold Store.projected at h
  cases hrow : store.row? key with
  | none => simp [hrow] at h
  | some found =>
    simp only [hrow] at h
    split at h
    · rename_i howner
      obtain ⟨repo, hrepo, hinstallation⟩ := Option.map_eq_some_iff.1 howner
      obtain ⟨hmem, hid⟩ := Table.find?_eq_some.1 hrepo
      obtain rfl := ProjectedPr.row.inj h
      exact Store.owns_iff.2 ⟨repo, hmem, hinstallation, hid.symm⟩
    · cases h

end ProjectionReader

/-! ## The audit tables -/

namespace BatchTables.AgreesFor

variable {codec : OutcomeCodec} {tables tables' : BatchTables codec} {installationId : ℕ}

/-- Rows two tables both hold are selected in one order. -/
theorem orderBy_congr {ρ κ κ' : Type} [LinearOrder κ'] {id : ρ → κ} {order : ρ → κ'}
    {table table' : Table ρ κ id} (p : ρ → Bool)
    (hrows : ∀ row, p row = true → (row ∈ table.rows ↔ row ∈ table'.rows))
    (horder : ∀ a ∈ table.rows, ∀ b ∈ table.rows, p a → p b → order a = order b → id a = id b) :
    orderBy order (table.rows.filter p) = orderBy order (table'.rows.filter p) := by
  have hnodup (table : Table ρ κ id) : (table.rows.filter p).Nodup :=
    (table.nodup_map_filter p).of_map
  refine orderBy_eq_of_perm ((List.perm_ext_iff_of_nodup (hnodup table) (hnodup table')).2
    fun row => ?_) ?_
  · rw [List.mem_filter, List.mem_filter]
    exact and_congr_left fun hp => hrows row hp
  · refine (hnodup table).map_on fun a ha b hb heq => ?_
    obtain ⟨ha, hpa⟩ := List.mem_filter.1 ha
    obtain ⟨hb, hpb⟩ := List.mem_filter.1 hb
    exact Table.eq_of_key_eq ha hb (horder a ha b hb hpa hpb heq)

/-- The targets of a batch of the installation are read alike. -/
theorem targetsOf_eq (h : tables.AgreesFor tables' installationId) {batch : BatchRow}
    (hbatch : batch ∈ tables.batches.rows)
    (hinstallation : batch.installationId = some (installationId : ℤ)) :
    tables.targetsOf batch.batchId = tables'.targetsOf batch.batchId := by
  rw [targetsOf, targetsOf, orderBy_congr _ (fun row hrow => ?_) fun a _ b _ ha hb heq => ?_]
  · exact h.targets batch hbatch hinstallation row (of_decide_eq_true hrow)
  · exact Prod.ext ((of_decide_eq_true ha).trans (of_decide_eq_true hb).symm) heq

/-- The latest headers of the installation are one list. -/
theorem recentRows_eq (h : tables.AgreesFor tables' installationId) (limit : ℕ) :
    tables.recentRows installationId limit = tables'.recentRows installationId limit := by
  rw [recentRows, recentRows, orderByDesc, orderByDesc,
    orderBy_congr _ (fun row hrow => h.batches row (of_decide_eq_true hrow))
      fun a _ b _ _ _ heq => ?_]
  exact String.toList_inj.1 (Prod.mk.inj (toLex.injective (OrderDual.toDual.injective heq))).2

/-- **The latest batches are the same.** -/
theorem recentBatches_eq (h : tables.AgreesFor tables' installationId) (limit : ℕ) :
    tables.recentBatches installationId limit = tables'.recentBatches installationId limit := by
  by_cases hbound : installationId < i64Size
  · have hwhole : ∀ row ∈ tables.recentRows installationId limit,
        tables.whole row = tables'.whole row := by
      intro row hrow
      obtain ⟨hmem, hinstallation⟩ := mem_recentRows hrow
      rw [whole, whole, h.targetsOf_eq hmem hinstallation]
    rw [BatchTables.recentBatches_eq hbound, BatchTables.recentBatches_eq hbound,
      ← h.recentRows_eq]
    exact mapM_congr hwhole
  · rw [recentBatches, recentBatches, integer, if_neg hbound]
    rfl

/-- **The running batches are the same.** -/
theorem runningBatches_eq (h : tables.AgreesFor tables' installationId) :
    tables.runningBatches installationId = tables'.runningBatches installationId := by
  unfold runningBatches
  cases hbound : integer installationId with
  | error e => rfl
  | ok bound =>
    obtain rfl := integer_ok hbound
    have hrows : orderByDesc RunningBatchRow.order (tables.running.rows.filter fun row =>
          row.installationId = some (bound : ℤ))
        = orderByDesc RunningBatchRow.order (tables'.running.rows.filter fun row =>
          row.installationId = some (bound : ℤ)) :=
      orderBy_congr _ (fun row hrow => h.running row (of_decide_eq_true hrow))
        fun a _ b _ _ _ heq => String.toList_inj.1
          (Prod.mk.inj (toLex.injective (OrderDual.toDual.injective heq))).2
    rw [Except.ok_bind, Except.ok_bind, hrows]

/-- **One batch is answered the same.** -/
theorem getBatch_eq (h : tables.AgreesFor tables' installationId) (batchId : String) :
    tables.getBatch installationId batchId = tables'.getBatch installationId batchId := by
  unfold getBatch
  cases hbound : integer installationId with
  | error e => rfl
  | ok bound =>
    obtain rfl := integer_ok hbound
    have hrecorded : (tables.batches.rows.find? fun row =>
          row.batchId = batchId ∧ row.installationId = some (bound : ℤ))
        = tables'.batches.rows.find? fun row =>
          row.batchId = batchId ∧ row.installationId = some (bound : ℤ) :=
      Option.ext fun row => by
        rw [find?_scoped, find?_scoped]
        exact and_congr_left fun hrow => h.batches row hrow.2
    have hlisted : (tables.running.rows.find? fun row =>
          row.batchId = batchId ∧ row.installationId = some (bound : ℤ))
        = tables'.running.rows.find? fun row =>
          row.batchId = batchId ∧ row.installationId = some (bound : ℤ) :=
      Option.ext fun row => by
        rw [find?_scoped, find?_scoped]
        exact and_congr_left fun hrow => h.running row hrow.2
    rw [Except.ok_bind, Except.ok_bind, ← hrecorded, ← hlisted]
    cases hfound : tables.batches.rows.find? fun row =>
        row.batchId = batchId ∧ row.installationId = some (bound : ℤ) with
    | none => rfl
    | some row =>
      obtain ⟨hmem, rfl, hinstallation⟩ := find?_scoped.1 hfound
      have htargets := h.targetsOf_eq hmem hinstallation
      rw [targetsOf, targetsOf] at htargets
      simp only [htargets]

end BatchTables.AgreesFor

/-! ## Every read -/

namespace ProjectionReader

/-- **One installation's reads are independent of another's data.** In two
states that agree on an installation's repositories, on the pull requests
under them and on its batches, every dashboard read of the installation has
one answer; and no read of keys gives it a row that is not its own. -/
theorem reads_independent (codec : CursorCodec) {outcomes : OutcomeCodec} {store store' : Store}
    {tables tables' : BatchTables outcomes} {installationId : ℕ}
    (hstore : store.AgreesFor store' installationId)
    (htables : tables.AgreesFor tables' installationId) :
    (∀ now filter page, listPrs codec store now installationId filter page
      = listPrs codec store' now installationId filter page) ∧
    (∀ now filter, dashboardSummary store now installationId filter
      = dashboardSummary store' now installationId filter) ∧
    (∀ limit, tables.recentBatches installationId limit
      = tables'.recentBatches installationId limit) ∧
    tables.runningBatches installationId = tables'.runningBatches installationId ∧
    (∀ batchId, tables.getBatch installationId batchId
      = tables'.getBatch installationId batchId) ∧
    (∀ keys row, .row row ∈ getPrs store installationId keys →
      store.owns installationId row) ∧
    ∀ key row, getPr store installationId key = some (.row row) →
      store.owns installationId row := by
  refine ⟨fun now filter page => listPrs_congr hstore codec now filter page,
    fun now filter => dashboardSummary_congr hstore now filter, htables.recentBatches_eq,
    htables.runningBatches_eq, htables.getBatch_eq, fun keys row hrow => ?_, fun key row hrow => ?_⟩
  · rw [getPrs_eq] at hrow
    obtain ⟨key, -, hkey⟩ := List.mem_map.1 hrow
    exact owns_of_row hkey
  · rw [getPr, getPrs_eq] at hrow
    exact owns_of_row (Option.some.inj hrow)

/-- The sample projection beside another installation's. -/
def sampleShared : Store where
  repositories := ⟨[⟨2, 10, "other", "api", none, 900⟩, ⟨1, 9, "acme", "api", none, 900⟩],
    by decide⟩
  pullRequests := ⟨[{ samplePr 7 90 with id := "2#7", repositoryId := 2 }, samplePr 3 30,
    samplePr 9 20, samplePr 10 20], by decide⟩
  retirements := .empty
  revision := ⟨9, 6⟩
  owned := by decide
  named := by decide +kernel

/-- Another installation's merge, under way. -/
def sampleForeign : BatchTables outcomeJson :=
  { BatchTables.empty with
    running := ⟨[⟨"batch-2", some 10, "merge", "bob", none, 980, 4⟩], by decide⟩
    runningRead := by
      intro row h _
      rw [List.mem_singleton.1 h]
      exact ⟨_, rfl⟩ }

theorem sampleProjection_agreesFor : sampleProjection.AgreesFor sampleShared 9 where
  repositories repo hrepo := by
    simp only [sampleProjection, sampleShared, List.mem_cons]
    exact ⟨.inr, fun h => h.resolve_left fun heq => by rw [heq] at hrepo; cases hrepo⟩
  pullRequests repo hrepo _ row hrow := by
    rw [List.mem_singleton.1 hrepo] at hrow
    have hforeign : row ≠ { samplePr 7 90 with id := "2#7", repositoryId := 2 } := by
      rintro rfl
      cases hrow
    simp only [sampleProjection, sampleShared, List.mem_cons, hforeign, false_or]
    tauto

theorem empty_agreesFor : (BatchTables.empty : BatchTables outcomeJson).AgreesFor
    sampleForeign 9 where
  batches row _ := Iff.rfl
  targets batch h := absurd h List.not_mem_nil
  running row hrow := by
    refine ⟨fun h => absurd h List.not_mem_nil, fun h => ?_⟩
    rw [List.mem_singleton.1 h] at hrow
    cases hrow

theorem reads_independent_sample :
    dashboardSummary sampleProjection 1000 9 default = dashboardSummary sampleShared 1000 9 default
      ∧ (BatchTables.empty : BatchTables outcomeJson).runningBatches 9
        = sampleForeign.runningBatches 9 := by
  have hreads := reads_independent cursorJson sampleProjection_agreesFor empty_agreesFor
  exact ⟨hreads.2.1 1000 default, hreads.2.2.2.1⟩

end ProjectionReader

end Dependaboard
