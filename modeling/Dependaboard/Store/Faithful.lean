import Dependaboard.Store.PrJson
import Dependaboard.Store.Stored
/-!
# Store — a pull request's row, faithful and alone

`Returned` is that every read of a store returns a record, each field as it was
written; `upsertPr_faithful` that an upsert makes it so and changes no other
row, or fails where an integer does not fit, and that a delete takes the one
row at its key.
-/

namespace Dependaboard

open Relational

namespace RawStore

variable {codec : PrCodec}

/-- **Every read returns the record**, its `id` derived, and no other at its
key. -/
structure Returned (cursors : CursorCodec) (pr : PrRecord) (owner : ℕ) (raw : RawStore codec) :
    Prop where
  getPr : raw.tables.getPr codec pr.key = .ok (some pr.derived)
  getPrs : ∀ installationId keys, ∃ answers,
    raw.tables.getPrs codec installationId keys = .ok answers ∧ answers.length = keys.length ∧
      ∀ i : ℕ, keys[i]? = some pr.key →
        answers[i]? = some (if owner = installationId then .row pr.derived else .foreign)
  prsForSha : ∃ rows, raw.tables.prsForSha codec pr.repositoryId pr.headSha = .ok rows ∧
    pr.derived ∈ rows ∧ ∀ row ∈ rows, row.key = pr.key → row = pr.derived
  /-- Whoever follows the pages of a filter it matches is shown it once. -/
  listPrs : ∀ now filter limit, ScopedFilter.Fits filter none now owner →
    filter.matches raw.store now pr.derived →
    ∃ pages, ProjectionReader.Follows (fun after =>
        raw.tables.listPrs codec cursors now owner filter ⟨limit, after⟩) none pages ∧
      (pages.flatMap DashboardPage.rows).count pr.derived = 1 ∧
      ∀ row ∈ pages.flatMap DashboardPage.rows, row.key = pr.key → row = pr.derived

/-- What a store holds at a record's key is what every read returns of it. -/
theorem returned_of_row (cursors : CursorCodec) {raw : RawStore codec} {pr : PrRecord}
    {repo : RepoRecord} (hfits : pr.Fits) (hrow : raw.store.row? pr.key = some pr.derived)
    (hrepo : raw.store.repository? pr.repositoryId = some repo) :
    Returned cursors pr repo.installationId raw := by
  obtain ⟨hmem, -⟩ := Table.find?_eq_some.1 hrow
  have halone : ∀ row ∈ raw.store.pullRequests.rows, row.key = pr.key → row = pr.derived :=
    fun row hother hkey => Table.eq_of_key_eq hother hmem (hkey.trans pr.derived_key.symm)
  have hprojected (installationId : ℕ) : raw.store.projected installationId pr.key
      = if repo.installationId = installationId then .row pr.derived else .foreign := by
    have howner : raw.store.repository? pr.derived.repositoryId = some repo := hrepo
    simp only [Store.projected, hrow, howner, Option.map_some, Option.some.injEq]
  refine ⟨?_, fun installationId keys => ?_, ?_, fun now filter limit hscope hmatches => ?_⟩
  · rw [raw.getPr_tables, Store.getPr_eq, hrow]
  · refine ⟨_, raw.getPrs_tables installationId keys, ?_, fun i hi => ?_⟩
    · rw [ProjectionReader.getPrs_eq, List.length_map]
    · rw [ProjectionReader.getPrs_eq, List.getElem?_map, hi, Option.map_some, hprojected]
  · refine ⟨_, raw.prsForSha_tables hfits.1 pr.headSha, ?_, fun row hother hkey => ?_⟩
    · exact List.mem_filter.2 ⟨hmem, decide_eq_true ⟨rfl, rfl⟩⟩
    · exact halone row (List.mem_of_mem_filter hother) hkey
  · have hfirst : ProjectionReader.cursorAfter cursors none = .ok none := rfl
    have hwhole : (raw.store.listed filter now repo.installationId).filter
        (fun row => row.follows none) = raw.store.listed filter now repo.installationId :=
      List.filter_eq_self.2 fun _ _ => rfl
    obtain ⟨pages, hpages, hrows, -, -⟩ := ProjectionReader.exists_follows raw.sized hscope limit
      hfirst (by simp) (List.nil_append _).symm hwhole
    have howns : raw.store.owns repo.installationId pr.derived = true := by
      obtain ⟨hrepository, hid⟩ := Table.find?_eq_some.1 hrepo
      exact List.any_eq_true.2 ⟨repo, hrepository, decide_eq_true ⟨hid, rfl⟩⟩
    have hlisted : pr.derived ∈ raw.store.listed filter now repo.installationId :=
      mem_orderByDesc.2 (List.mem_filter.2 ⟨hmem, by rw [hmatches, howns]; rfl⟩)
    have hnodup : (raw.store.listed filter now repo.installationId).Nodup :=
      (raw.store.pairwise_listed filter now repo.installationId).imp fun {a b} hlt heq => by
        rw [heq] at hlt
        exact lt_irrefl _ hlt
    refine ⟨pages, ?_, ?_, ?_⟩
    · simpa only [raw.listPrs_tables] using hpages
    · rw [hrows]
      exact List.count_eq_one_of_mem hnodup hlisted
    · intro row hother hkey
      rw [hrows] at hother
      exact halone row (List.mem_of_mem_filter (mem_orderByDesc.1 hother)) hkey

/-- The rows of other keys are those of other texts. -/
theorem filter_cells (raw : RawStore codec) (key : PrKey) :
    raw.tables.pullRequests.filter (fun row => row .id ≠ .text (toString key))
      = (raw.rows.filter fun row => row.pr.key ≠ key).map StoredRow.cells := by
  rw [tables, List.filter_map]
  refine congrArg (List.map StoredRow.cells) (List.filter_congr fun row hrow => ?_)
  rw [Function.comp_apply, row.reads.id, decide_eq_decide]
  simp [Store.id_eq_iff (raw.row_mem hrow) key]

/-- **Pull request rows are stored faithfully and alone.** No two are of one
repository and number. A record whose integers fit, its repository in the table,
is upserted: every read returns it, and the other rows and the repositories are
what they were; one with an integer that does not fit is refused, and nothing
changes. A delete takes the row of its key's repository and number and no
other. -/
theorem upsertPr_faithful (cursors : CursorCodec) (raw : RawStore codec) (pr : PrRecord) :
    (raw.tables.pullRequests.map fun row => (row .repositoryId, row .number)).Nodup ∧
    (∀ repo, pr.Fits → raw.store.repository? pr.repositoryId = some repo →
      ∃ after : RawStore codec, raw.tables.upsertPr codec pr = (.ok (), after.tables) ∧
        Returned cursors pr repo.installationId after ∧
        after.tables.repositories = raw.tables.repositories ∧
        after.tables.pullRequests.filter (fun row => row .id ≠ .text (toString pr.key))
          = raw.tables.pullRequests.filter fun row => row .id ≠ .text (toString pr.key)) ∧
    (¬ pr.Fits → raw.tables.upsertPr codec pr = (.error .integerOverflow, raw.tables)) ∧
    ∀ key : PrKey, ∃ after : RawStore codec, raw.tables.deletePr key = after.tables ∧
      after.tables.repositories = raw.tables.repositories ∧
      after.tables.pullRequests = raw.tables.pullRequests.filter (fun row =>
        ¬ (row .repositoryId = .integer key.repositoryId ∧ row .number = .integer key.number)) := by
  refine ⟨raw.nodup_numbers, fun repo hfits hrepo => ?_, raw.upsertPr_overflow, fun key => ?_⟩
  · have hsome : (raw.store.repository? pr.repositoryId).isSome := by rw [hrepo]; rfl
    refine ⟨raw.upsertPr pr hfits hsome, raw.upsertPr_tables pr hfits hsome,
      returned_of_row cursors hfits (raw.store.row?_writePullRequest_self pr hsome) hrepo, rfl, ?_⟩
    have hwritten : (StoredRow.written codec pr hfits).pr.key = pr.key := pr.derived_key
    have hkept : (raw.upsertPr pr hfits hsome).rows.filter (fun row => row.pr.key ≠ pr.key)
        = raw.rows.filter fun row => row.pr.key ≠ pr.key := by
      show (_ ++ [StoredRow.written codec pr hfits]).filter _ = _
      rw [List.filter_append, List.filter_filter]
      simp [hwritten]
    rw [filter_cells, filter_cells, hkept]
  · refine ⟨raw.deletePr key, raw.deletePr_tables key, rfl, ?_⟩
    show (raw.rows.filter _).map StoredRow.cells = (raw.rows.map StoredRow.cells).filter _
    rw [List.filter_map]
    refine congrArg (List.map StoredRow.cells) (List.filter_congr fun row hrow => ?_)
    rw [Function.comp_apply, row.reads.repositoryId, row.reads.number, decide_not]
    refine congrArg Bool.not (decide_eq_decide.2 ?_)
    rw [Store.id_eq_iff (raw.row_mem hrow) key, Cell.integer.injEq, Cell.integer.injEq,
      Int.natCast_inj, Int.natCast_inj]
    exact PrKey.mk.injEq .. ▸ Iff.rfl

end RawStore

end Dependaboard
