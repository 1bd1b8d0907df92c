import Dependaboard.Github.Snapshot
import Dependaboard.Store.Attention
/-!
# Store — a search for a dependency

The clause that looks for a dependency compares the column where there is a
name in it, and the list only where there is none. That is the list's answer on
every row of a record that was projected (`matches_only_dependency`), however
many dependencies it updates, since the column is the one there is or null.
-/

namespace Dependaboard

open Relational

/-- The pull request updates a dependency of this name, in any case. -/
def PrRecord.Updates (pr : PrRecord) (name : String) : Prop :=
  ∃ update ∈ pr.dependencies, asciiLowercase update.name = asciiLowercase name

instance (pr : PrRecord) (name : String) : Decidable (pr.Updates name) :=
  inferInstanceAs (Decidable (∃ _ ∈ _, _))

/-- The column answers for the list where there is one dependency, and the list
for itself where there is another number of them. -/
theorem Clause.holds_dependency {pr : PrRecord} (h : pr.Projected) (store : Store)
    (name : String) : Clause.holds store pr (.dependency name) ↔ pr.Updates name := by
  unfold Clause.holds PrRecord.Updates
  cases hheld : pr.dependency with
  | some held =>
    obtain ⟨update, hone, rfl⟩ := (h.dependency held).1 hheld
    simp [hone]
  | none => simp

/-- The dependency field of a filter asks for its name and nothing else. -/
theorem clauses_only_dependency {filter : PrFilter} {text : String}
    (htext : filter.dependency = some text) (hnonblank : trim text ≠ "") (now : ℕ) :
    (filter.only .dependency).clauses now = [.dependency (trim text)] := by
  have hname : nonblank (some text) = some text := by simp [nonblank, hnonblank]
  simp only [PrFilter.clauses, PrFilter.only, htext, hname]
  rfl

theorem matches_only_dependency {pr : PrRecord} (h : pr.Projected) {filter : PrFilter}
    {text : String} (htext : filter.dependency = some text) (hnonblank : trim text ≠ "")
    (store : Store) (now : ℕ) :
    (filter.only .dependency).matches store now pr ↔ pr.Updates (trim text) := by
  rw [PrFilter.matches, clauses_only_dependency htext hnonblank, List.all_cons, List.all_nil,
    Bool.and_true, Clause.holds_dependency h]

namespace RawStore

variable {codec : PrCodec}

/-- **Searching by dependency finds exactly the pull requests updating it.** A
record that was projected and written is a row whose column names a dependency
exactly where there is one, and in every store that holds it since, a filter's
dependency finds the row exactly where its list has that name. -/
theorem dependency_search_exact {readers : SnapshotReaders} {request : SyncRequest}
    {pull : PullRequestNode} {head : HeadCommit} {signals : List CheckSignal} {syncedAt : ℕ}
    {record : PrRecord} {raw : RawStore codec} {tables : RawTables}
    (hprojected : projectSnapshot readers request pull head signals syncedAt = .ok record)
    (hstored : raw.tables.upsertPr codec record = (.ok (), tables)) :
    ∃ after : RawStore codec, after.tables = tables ∧ ∃ row ∈ after.rows, row.pr = record ∧
      (∀ name, row.cells .dependency = .text name ↔
        ∃ update, record.dependencies = [update] ∧ update.name = name) ∧
      ∀ (later : RawStore codec) (now : ℕ) (filter : PrFilter) (text : String),
        filter.dependency = some text → trim text ≠ "" →
          (later.Selects (filter.only .dependency) now row ↔ record.Updates (trim text)) := by
  have hrecord := projectSnapshot_projected hprojected
  obtain ⟨hfits, hrepo, htables⟩ := raw.upsertPr_eq_ok hstored
  have hrow : (StoredRow.written codec record hfits).pr = record :=
    PrRecord.derived_of_id hrecord.id
  refine ⟨raw.upsertPr record hfits hrepo, htables, .written codec record hfits,
    List.mem_append_right _ List.mem_cons_self, hrow, fun name => ?_,
    fun later now filter text htext hnonblank => ?_⟩
  · rw [← hrecord.dependency name]
    show optionText record.dependency = .text name ↔ _
    cases record.dependency <;> simp [optionText]
  · rw [later.selects_iff (fun hasks => by cases hasks), hrow,
      matches_only_dependency hrecord htext hnonblank]

/-- The readers, on a block that lists two dependencies and a title that says no
update. -/
def sampleReaders : SnapshotReaders where
  yaml block :=
    if block = "\nupdated-dependencies:\n- dependency-name: Tokio\n- dependency-name: serde" then
      some ⟨[⟨"Tokio", ""⟩, ⟨"serde", ""⟩]⟩
    else none
  titlePattern _ := none
  version _ := none
  rfc3339 value :=
    if value = "2025-01-01T00:00:00Z" then .ok 1735689600
    else .error "input contains invalid characters"

/-- A request for a pull request of the sample's repository. -/
def sampleRequest : SyncRequest := ⟨1, "acme", "api", 12, false, none⟩

/-- A group of updates, as GitHub answers about it. -/
def samplePull : PullRequestNode :=
  ⟨"Bump the rust group", "https://github.com/acme/api/pull/12", "2025-01-01T00:00:00Z",
    "2025-01-01T00:00:00Z", some "CLEAN", none⟩

/-- A head whose block names two dependencies, one of them capitalised. -/
def sampleHead : HeadCommit where
  oid := "abc123"
  statusCheckRollup := none
  checkSuites := none
  message := "---\nupdated-dependencies:\n- dependency-name: Tokio\n- dependency-name: serde\n..."

/-- The record of the group. -/
def sampleGroup : PrRecord where
  id := "1#12"
  repositoryId := 1
  owner := "acme"
  repo := "api"
  number := 12
  title := "Bump the rust group"
  htmlUrl := "https://github.com/acme/api/pull/12"
  dependency := none
  fromVersion := none
  toVersion := none
  dependencies := [⟨"Tokio", none, none, .unknown⟩, ⟨"serde", none, none, .unknown⟩]
  updateType := .unknown
  headSha := "abc123"
  checkStatus := .none
  mergeable := .clean
  labels := []
  createdAt := 1735689600
  updatedAt := 1735689600
  syncedAt := 1735690000

/-- A group is found under either of its names, and under no part of one. -/
theorem dependency_search_exact_group : ∃ (after : RawStore prJson) (row : StoredRow prJson),
    row ∈ after.rows ∧ row.pr = sampleGroup ∧ row.cells .dependency ≠ .text "serde" ∧
      after.Selects (PrFilter.only { (default : PrFilter) with dependency := some " SERDE " }
        .dependency) 0 row ∧
      ¬ after.Selects (PrFilter.only { (default : PrFilter) with dependency := some "tok" }
        .dependency) 0 row := by
  have hprojected : projectSnapshot sampleReaders sampleRequest samplePull sampleHead [] 1735690000
      = .ok sampleGroup := by decide +kernel
  have hstored := sampleRaw.upsertPr_tables sampleGroup (by decide) (by decide)
  obtain ⟨after, -, row, hmem, hrow, hcolumn, hfinds⟩ :=
    dependency_search_exact hprojected hstored
  refine ⟨after, row, hmem, hrow, fun htext => ?_, ?_, ?_⟩
  · obtain ⟨update, hone, -⟩ := (hcolumn "serde").1 htext
    cases hone
  · exact (hfinds after 0 _ " SERDE " rfl (by decide)).2 (by decide)
  · exact fun h => absurd ((hfinds after 0 _ "tok" rfl (by decide)).1 h) (by decide)

end RawStore

end Dependaboard
