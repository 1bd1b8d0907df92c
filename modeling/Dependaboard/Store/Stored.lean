import Mathlib.Data.Int.CharZero
import Dependaboard.Dashboard.Pages
import Dependaboard.Store.Keyed
import Dependaboard.Store.Rows
/-!
# Store — rows that are read

A store as its rows: each a row of columns with the record it is read as. What
the statements make of the columns is what the projection's calls make of the
records: a clause (`evaluate_eq_true`), the reads (`getPr_tables` and its
siblings), and a write and a delete (`upsertPr_tables`, `deletePr_tables`).
-/

namespace Dependaboard

open Relational

/-- A row, and the record it is read as. -/
structure StoredRow (codec : PrCodec) where
  cells : PrRow
  pr : PrRecord
  reads : ReadsAs codec cells pr
  /-- An integer column holds an SQLite integer. -/
  fits : pr.Fits
  /-- The database finds in its lists what the reader does. -/
  names : (cells .dependencies).text?.bind codec.eachName
    = some (pr.dependencies.map DependencyUpdate.name)
  values : (cells .labels).text?.bind codec.eachValue = some pr.labels

/-- A record as it is written. -/
def StoredRow.written (codec : PrCodec) (pr : PrRecord) (h : pr.Fits) : StoredRow codec where
  cells := writtenRow codec pr
  pr := pr.derived
  reads := readsAs_writtenRow codec pr
  fits := h
  names := codec.eachName_toJson pr.dependencies
  values := codec.eachValue_toJson pr.labels

/-- A store, and the rows its pull requests are read from. -/
structure RawStore (codec : PrCodec) where
  store : Store
  rows : List (StoredRow codec)
  holds : rows.map StoredRow.pr = store.pullRequests.rows

/-- The tables the statements reach. -/
def RawStore.tables {codec : PrCodec} (raw : RawStore codec) : RawTables where
  repositories := raw.store.repositories.rows
  pullRequests := raw.rows.map StoredRow.cells

/-! ## Conditions -/

namespace StoredRow

variable {codec : PrCodec} (row : StoredRow codec)

@[simp] theorem isAt_cells (id : String) : row.cells.isAt id = some (row.pr.id = id : Bool) := by
  rw [PrRow.isAt, row.reads.id, Cell.eq_text]

@[simp] theorem references_cells (repo : RepoRecord) :
    row.cells.references repo = some (row.pr.repositoryId = repo.repositoryId : Bool) := by
  rw [PrRow.references, row.reads.repositoryId, Cell.eq_integer]
  simp only [Int.natCast_inj]

theorem sameNumber_cells (other : StoredRow codec) :
    row.cells.sameNumber other.cells = some true ↔ other.pr.key = row.pr.key := by
  rw [PrRow.sameNumber, row.reads.repositoryId, row.reads.number, other.reads.repositoryId,
    other.reads.number]
  simp [PrRecord.key]

theorem eachName_cells (p : String → Bool) : eachOf codec.eachName (row.cells .dependencies) p
    = some (row.pr.dependencies.any fun dependency => p dependency.name) := by
  rw [eachOf, row.names, Option.map_some, List.any_map]
  rfl

theorem eachValue_cells (p : String → Bool) :
    eachOf codec.eachValue (row.cells .labels) p = some (row.pr.labels.any p) := by
  rw [eachOf, row.values, Option.map_some]

/-- The state's column is one of these exactly where the record's state is, each
of them being one that GitHub says. -/
theorem mergeable_cells {states : List String}
    (h : ∀ state ∈ states, Mergeable.fromGithubState state ≠ .unknown) :
    (row.cells .mergeable).isIn (states.map .text) = some true
      ↔ toString row.pr.mergeable ∈ states := by
  obtain ⟨state, hcell, hread⟩ := row.reads.mergeable
  have hunknown : toString Mergeable.unknown ∉ states := fun hmem => h _ hmem rfl
  rw [Cell.isIn_texts, hcell, hread]
  cases state with
  | none =>
    refine iff_of_false ?_ hunknown
    rintro ⟨value, -, hvalue⟩
    cases hvalue
  | some state =>
    have htext (value : String) : optionText (some state) = .text value ↔ value = state := by
      simp [optionText, eq_comm]
    simp only [htext, exists_eq_right, Option.map_some, Option.getD_some]
    by_cases hsaid : Mergeable.fromGithubState state = .unknown
    · rw [hsaid]
      exact iff_of_false (fun hmem => h state hmem hsaid) hunknown
    · rw [Mergeable.toString_fromGithubState hsaid]

end StoredRow

/-- The states a clause holds a row's against are ones that GitHub says. -/
def Clause.Said : BoundClause → Prop
  | .needsAttention _ conflicting _ _ =>
    ∀ state ∈ conflicting, Mergeable.fromGithubState state ≠ .unknown
  | _ => True

namespace StoredRow

variable {codec : PrCodec} (row : StoredRow codec)

/-- The repository's column is among those of some repositories. -/
theorem repositoryId_cells (repositories : List RepoRecord) (p : RepoRecord → Bool) :
    (row.cells .repositoryId).isIn ((repositories.filter p).map fun repo =>
        .integer repo.repositoryId) = some true
      ↔ ∃ repo ∈ repositories, repo.repositoryId = row.pr.repositoryId ∧ p repo := by
  rw [Cell.isIn, Truth.any_eq_true, row.reads.repositoryId]
  simp only [List.map_map, List.mem_map, List.mem_filter, Function.comp_apply, Cell.eq_integer,
    Option.some.injEq, decide_eq_true_eq, Int.natCast_inj]
  constructor
  · rintro ⟨repo, ⟨hmem, hp⟩, hid⟩
    exact ⟨repo, hmem, hid.symm, hp⟩
  · rintro ⟨repo, hmem, hid, hp⟩
    exact ⟨repo, ⟨hmem, hp⟩, hid.symm⟩

/-- **A clause is true of a row's columns exactly where it holds of its
record.** -/
theorem evaluate_eq_true {clause : BoundClause} (hsaid : clause.Said) (store : Store) :
    clause.evaluate codec store.repositories.rows row.cells = some true
      ↔ clause.holds store row.pr = true := by
  cases clause with
  | query pattern =>
    rw [Clause.evaluate, Clause.holds, Truth.or_eq_true, row.eachName_cells, row.reads.owner,
      row.reads.repo, row.reads.title]
    simp [lowerLike]
  | repos names =>
    rw [Clause.evaluate, Clause.holds, row.repositoryId_cells]
    simp
  | updateTypes types =>
    rw [Clause.evaluate, Clause.holds, Cell.isIn_texts, row.reads.updateType]
    simp
  | checkStatuses statuses =>
    rw [Clause.evaluate, Clause.holds, Cell.isIn_texts, row.reads.checkStatus]
    simp
  | hasLabel label =>
    rw [Clause.evaluate, Clause.holds, row.eachValue_cells]
    simp
  | dependency name =>
    rw [Clause.evaluate, Clause.holds, Truth.or_eq_true, Truth.and_eq_true, row.eachName_cells,
      row.reads.dependency]
    cases row.pr.dependency with
    | none => simp [optionText, Cell.eqUnder, Cell.compared, Cell.isNull]
    | some held => simp [optionText, Cell.isNull]
  | needsAttention failing conflicting major staleBefore =>
    rw [Clause.evaluate, Clause.holds, Truth.or_eq_true, Truth.or_eq_true, Truth.or_eq_true,
      row.mergeable_cells hsaid, Cell.isIn_texts, row.reads.checkStatus, row.reads.updateType,
      row.reads.syncedAt]
    simp [or_assoc]
  | after updatedAt id =>
    rw [Clause.evaluate, Clause.holds, row.reads.updatedAt, row.reads.id]
    simp
  | installation installationId =>
    rw [Clause.evaluate, Clause.holds, row.repositoryId_cells]
    simp

/-- **What is selected of a row is decoded as its record.** -/
theorem prFromRow_selected (repo : RepoRecord) :
    prFromRow codec (RawTables.selectedRow (row.cells, repo)) = .ok row.pr :=
  prFromRow_eq_ok.2 row.reads

theorem ownedPr_selected (repo : RepoRecord) :
    RawTables.ownedPr codec (RawTables.selectedRow (row.cells, repo))
      = .ok (row.pr.id, row.pr, repo.installationId) := by
  have howner : installationFromRow (RawTables.selectedRow (row.cells, repo))
      = .ok repo.installationId := unsigned_natCast repo.installationId
  rw [RawTables.ownedPr, row.prFromRow_selected, Except.ok_bind, howner]
  rfl

end StoredRow

/-! ## Reading -/

theorem Except.mapM_map_ok {ε α β γ : Type} {f : β → Except ε γ} {g : α → β} {h : α → γ}
    (hf : ∀ a, f (g a) = .ok (h a)) (xs : List α) : (xs.map g).mapM f = .ok (xs.map h) := by
  induction xs with
  | nil => rfl
  | cons x xs ih =>
    rw [List.map_cons, List.mapM_cons, hf, ih]
    rfl

namespace RawStore

variable {codec : PrCodec} (raw : RawStore codec)

/-- The rows with the repositories they hang off. -/
def joined : List (StoredRow codec × RepoRecord) :=
  raw.rows.filterMap fun row => (raw.store.repository? row.pr.repositoryId).map fun repo => (row, repo)

theorem joined_tables : raw.tables.joined = raw.joined.map fun entry => (entry.1.cells, entry.2) := by
  rw [RawTables.joined, tables, List.filterMap_map, joined, List.map_filterMap]
  refine List.filterMap_congr fun row _ => ?_
  have hfind : (raw.store.repositories.rows.find? fun repo => row.cells.references repo = some true)
      = raw.store.repository? row.pr.repositoryId := by
    refine List.find?_congr fun repo _ => ?_
    simp [eq_comm]
  simp only [Function.comp_apply, hfind, Option.map_map]
  rfl

/-- No row is lost by joining it. -/
theorem map_joined : raw.joined.map Prod.fst = raw.rows := by
  rw [joined, List.map_filterMap]
  have howned : ∀ row ∈ raw.rows, ((raw.store.repository? row.pr.repositoryId).map fun repo =>
      (row, repo)).map Prod.fst = some row := by
    intro row hrow
    have hmem : row.pr ∈ raw.store.pullRequests.rows := raw.holds ▸ List.mem_map_of_mem hrow
    obtain ⟨repo, hrepo⟩ := Option.isSome_iff_exists.1 (raw.store.owned row.pr hmem)
    rw [Store.repository?, hrepo]
    rfl
  rw [List.filterMap_congr howned, List.filterMap_some]

theorem selectPr_store : ProjectionReader.selectPr raw.store
    = raw.joined.map fun entry => (entry.1.pr, entry.2.installationId) := by
  rw [ProjectionReader.selectPr, ← raw.holds, List.filterMap_map, joined, List.map_filterMap]
  refine List.filterMap_congr fun row _ => ?_
  simp [Option.map_map, Function.comp_def]

/-- The joined rows selected. -/
def selected (p : PrRecord → Bool) : List (StoredRow codec × RepoRecord) :=
  raw.joined.filter fun entry => p entry.1.pr

variable {condition : PrRow → Truth} {p : PrRecord → Bool}

theorem filter_joined (h : ∀ row : StoredRow codec, condition row.cells = some true ↔ p row.pr) :
    (raw.tables.joined.filter fun entry => condition entry.1 = some true)
      = (raw.selected p).map fun entry => (entry.1.cells, entry.2) := by
  rw [raw.joined_tables, List.filter_map, selected]
  congr 1
  refine List.filter_congr fun entry _ => ?_
  rw [Function.comp_apply, Bool.eq_iff_iff, decide_eq_true_iff]
  exact h entry.1

theorem map_selected : (raw.selected p).map (fun entry => entry.1.pr)
    = raw.store.pullRequests.rows.filter p := by
  have hrows : ((raw.selected p).map Prod.fst) = raw.rows.filter fun row => p row.pr := by
    rw [← raw.map_joined, List.filter_map]
    rfl
  rw [← raw.holds, List.filter_map]
  have hboth := congrArg (List.map StoredRow.pr) hrows
  rw [List.map_map] at hboth
  exact hboth

theorem selectPr_tables (h : ∀ row : StoredRow codec, condition row.cells = some true ↔ p row.pr) :
    raw.tables.selectPr condition
      = (raw.selected p).map fun entry => RawTables.selectedRow (entry.1.cells, entry.2) := by
  rw [RawTables.selectPr, raw.filter_joined h, List.map_map]
  rfl

/-- **What is selected is decoded as the records that a condition holds of.** -/
theorem collectPrs_selectPr
    (h : ∀ row : StoredRow codec, condition row.cells = some true ↔ p row.pr) :
    RawTables.collectPrs codec (raw.tables.selectPr condition)
      = .ok (raw.store.pullRequests.rows.filter p) := by
  rw [raw.selectPr_tables h, RawTables.collectPrs, ← raw.map_selected]
  exact Except.mapM_map_ok (fun entry => entry.1.prFromRow_selected entry.2) _

/-- **The writer's read of a key** is of the row at it. -/
theorem getPr_tables (key : PrKey) :
    raw.tables.getPr codec key = .ok (raw.store.getPr key) := by
  have hdecoded : RawTables.collectPrs codec (raw.tables.selectPr (PrRow.isAt (toString key)))
      = .ok (raw.store.pullRequests.rows.filter fun row => row.id = toString key) :=
    raw.collectPrs_selectPr fun row => by simp
  rw [RawTables.getPr, Store.getPr, ← List.head?_filter]
  cases hrows : raw.tables.selectPr (PrRow.isAt (toString key)) with
  | nil =>
    rw [hrows] at hdecoded
    rw [← Except.ok.inj hdecoded]
    rfl
  | cons row rest =>
    rw [hrows, RawTables.collectPrs, List.mapM_cons] at hdecoded
    obtain ⟨pr, hpr, hdecoded⟩ := Except.bind_ok hdecoded
    obtain ⟨prs, -, hdecoded⟩ := Except.bind_ok hdecoded
    rw [← Except.ok.inj hdecoded]
    simp only [List.head?_cons, hpr]
    rfl

/-- **The rows of a repository at a head**, where its number fits. -/
theorem prsForSha_tables {repositoryId : ℕ} (hfits : repositoryId < i64Size) (sha : String) :
    raw.tables.prsForSha codec repositoryId sha
      = .ok (raw.store.pullRequests.rows.filter fun row =>
          row.repositoryId = repositoryId ∧ row.headSha = sha) := by
  rw [RawTables.prsForSha, integer_of_lt hfits, Except.ok_bind]
  refine raw.collectPrs_selectPr fun row => ?_
  rw [row.reads.repositoryId, row.reads.headSha]
  simp

/-- The rows of some keys, decoded under their texts. -/
theorem ownedPrs_tables (keys : List PrKey) :
    (raw.tables.selectPr fun row =>
        (row .id).isIn (keys.map fun key => .text (toString key))).mapM (RawTables.ownedPr codec)
      = .ok (((ProjectionReader.selectPr raw.store).filter fun entry =>
          entry.1.id ∈ keys.map toString).map fun entry => (entry.1.id, entry)) := by
  have htexts : keys.map (fun key => Cell.text (toString key))
      = (keys.map toString).map Cell.text := by
    rw [List.map_map]
    rfl
  have hrows : (raw.tables.selectPr fun row =>
      (row .id).isIn (keys.map fun key => .text (toString key)))
      = (raw.selected fun row => row.id ∈ keys.map toString).map fun entry =>
        RawTables.selectedRow (entry.1.cells, entry.2) := by
    refine raw.selectPr_tables fun row => ?_
    rw [row.reads.id, htexts, Cell.isIn_texts]
    simp
  have hentries : ((ProjectionReader.selectPr raw.store).filter fun entry =>
      entry.1.id ∈ keys.map toString).map (fun entry => (entry.1.id, entry))
      = (raw.selected fun row => row.id ∈ keys.map toString).map fun entry =>
        (entry.1.pr.id, entry.1.pr, entry.2.installationId) := by
    rw [raw.selectPr_store, List.filter_map, List.map_map]
    rfl
  rw [hrows, hentries]
  exact Except.mapM_map_ok
    (fun entry : StoredRow codec × RepoRecord => entry.1.ownedPr_selected entry.2) _

/-- **The dashboard's read of keys** is the projection's. -/
theorem getPrs_tables (installationId : ℕ) (keys : List PrKey) :
    raw.tables.getPrs codec installationId keys
      = .ok (ProjectionReader.getPrs raw.store installationId keys) := by
  unfold RawTables.getPrs ProjectionReader.getPrs
  split
  · rfl
  · simp only [raw.ownedPrs_tables keys]
    rfl

/-! ## Pages -/

/-- The clauses of a filter are those of its fields, its cursor and its
installation, run with the parameters bound with them. -/
theorem condition_eq_true {clauses : List WrittenClause} {bound : List BoundClause}
    {params : List SqlValue} (hresolve : clauses.mapM (Clause.resolve params) = some bound)
    (hsaid : ∀ clause ∈ bound, clause.Said) (row : StoredRow codec) :
    raw.tables.condition codec clauses params row.cells = some true
      ↔ bound.all (Clause.holds raw.store row.pr) = true := by
  rw [RawTables.condition, Truth.all_eq_true, List.forall_mem_map]
  induction clauses generalizing bound with
  | nil =>
    obtain rfl := Option.some.inj hresolve
    simp
  | cons clause rest ih =>
    rw [List.mapM_cons] at hresolve
    obtain ⟨first, hfirst, hresolve⟩ := Option.bind_eq_some_iff.1 hresolve
    obtain ⟨others, hothers, hresolve⟩ := Option.bind_eq_some_iff.1 hresolve
    obtain rfl := Option.some.inj hresolve
    obtain ⟨hsaidFirst, hsaidOthers⟩ := List.forall_mem_cons.1 hsaid
    rw [List.forall_mem_cons, ih hothers hsaidOthers, List.all_cons, Bool.and_eq_true, hfirst]
    exact and_congr_left fun _ => row.evaluate_eq_true hsaidFirst raw.store

/-- Every clause of a filter asks only for states that GitHub says. -/
theorem said_clauses (filter : PrFilter) (now : ℕ) :
    ∀ clause ∈ filter.clauses now, clause.Said := by
  intro clause hclause
  cases clause with
  | needsAttention failing conflicting major staleBefore =>
    obtain ⟨-, -, rfl, -⟩ : _ ∧ _ ∧ conflicting = ["dirty"] ∧ _ := by
      simpa [PrFilter.clauses] using hclause
    simp [Clause.Said, Mergeable.fromGithubState]
  | _ => trivial

theorem said_scoped (filter : PrFilter) (cursor : Option PageCursor) (now installationId : ℕ) :
    ∀ clause ∈ ScopedFilter.clauses filter cursor now installationId, clause.Said := by
  intro clause hclause
  simp only [ScopedFilter.clauses, List.mem_append, List.mem_map, List.mem_singleton] at hclause
  rcases hclause with (hfilter | ⟨c, -, rfl⟩) | rfl
  · exact said_clauses filter now clause hfilter
  · trivial
  · trivial

/-- **A scoped filter's clause is true of a row's columns exactly where it
selects its record.** -/
theorem condition_scoped {filter : PrFilter} {cursor : Option PageCursor} {now installationId : ℕ}
    {scope : ScopedFilter} (h : ScopedFilter.new filter cursor now installationId = .ok scope)
    (more : List SqlValue) (row : StoredRow codec) :
    raw.tables.condition codec scope.whereSql (scope.params ++ more) row.cells = some true
      ↔ ScopedFilter.selects raw.store { scope with params := scope.params ++ more } row.pr := by
  have hfits : ScopedFilter.Fits filter cursor now installationId := by
    by_contra hno
    rw [ScopedFilter.new_error hno] at h
    cases h
  obtain ⟨_, hnew, hresolves⟩ := ScopedFilter.new_resolves hfits
  obtain rfl := Except.ok.inj (h.symm.trans hnew)
  rw [raw.condition_eq_true (hresolves more) (said_scoped filter cursor now installationId),
    ScopedFilter.selects_of_resolve (hresolves more)]

/-- Rows are ordered as their records are. -/
theorem rowOrder_le (a b : StoredRow codec) :
    RawTables.rowOrder a.cells ≤ RawTables.rowOrder b.cells ↔ a.pr.order ≤ b.pr.order := by
  unfold RawTables.rowOrder PrRecord.order
  rw [a.reads.updatedAt, a.reads.id, b.reads.updatedAt, b.reads.id]
  simp [Cell.order, Prod.Lex.toLex_le_toLex, Prod.Lex.toLex_lt_toLex]

theorem pageRows_tables {filter : PrFilter} {cursor : Option PageCursor} {now installationId : ℕ}
    {scope : ScopedFilter} (h : ScopedFilter.new filter cursor now installationId = .ok scope)
    (limit : ℕ) :
    raw.tables.pageRows codec scope limit = ProjectionReader.pageRows raw.store scope limit := by
  unfold RawTables.pageRows ProjectionReader.pageRows
  cases integer limit with
  | error e => rfl
  | ok limit =>
    rcases hbound : scope.bind (.integer limit) with ⟨place, bound⟩
    have hrow (row : StoredRow codec) :
        raw.tables.condition codec bound.whereSql bound.params row.cells = some true
          ↔ ScopedFilter.selects raw.store bound row.pr := by
      cases hbound
      exact raw.condition_scoped h [.integer limit] row
    have hselected : (ProjectionReader.selectPr raw.store).filter (fun entry =>
        ScopedFilter.selects raw.store bound entry.1)
        = (raw.selected (ScopedFilter.selects raw.store bound)).map fun entry =>
            (entry.1.pr, entry.2.installationId) := by
      rw [raw.selectPr_store, List.filter_map]
      rfl
    simp only [Except.ok_bind, hbound]
    rw [raw.filter_joined hrow, hselected, ← map_orderByDesc, ← map_orderByDesc]
    -- both sides sort the selected rows alike
    have horder := orderByDesc_congr (fun a b : StoredRow codec × RepoRecord =>
      rowOrder_le a.1 b.1) (raw.selected (ScopedFilter.selects raw.store bound))
    rw [horder, List.map_map, List.map_map, ← List.map_take, ← List.map_take]
    exact Except.mapM_map_ok (fun entry : StoredRow codec × RepoRecord =>
      entry.1.prFromRow_selected entry.2) _

/-- **A page of a listing** is the projection's. -/
theorem listPrs_tables (cursors : CursorCodec) (now installationId : ℕ) (filter : PrFilter)
    (page : Page) : raw.tables.listPrs codec cursors now installationId filter page
      = ProjectionReader.listPrs cursors raw.store now installationId filter page := by
  unfold RawTables.listPrs ProjectionReader.listPrs
  cases hcounted : ScopedFilter.new filter none now installationId with
  | error e => rfl
  | ok counted =>
    have hcount : (raw.tables.pullRequests.filter fun row =>
        raw.tables.condition codec counted.whereSql counted.params row = some true).length
        = (ProjectionReader.selected raw.store counted).length := by
      have hrow (row : StoredRow codec) := raw.condition_scoped hcounted [] row
      simp only [List.append_nil] at hrow
      rw [ProjectionReader.selected, ← raw.holds, tables, List.filter_map, List.filter_map,
        List.length_map, List.length_map]
      congr 1
      refine List.filter_congr fun row _ => ?_
      rw [Function.comp_apply, Bool.eq_iff_iff, decide_eq_true_iff]
      exact hrow row
    simp only [Except.ok_bind, hcount]
    cases ProjectionReader.cursorAfter cursors page.after with
    | error e => rfl
    | ok cursor =>
      simp only [Except.ok_bind]
      cases hpaged : ScopedFilter.new filter cursor now installationId with
      | error e => rfl
      | ok paged =>
        simp only [Except.ok_bind, raw.pageRows_tables hpaged]

/-! ## Writing -/

theorem row_mem {row : StoredRow codec} (h : row ∈ raw.rows) :
    row.pr ∈ raw.store.pullRequests.rows :=
  raw.holds ▸ List.mem_map_of_mem h

theorem sized : raw.store.Sized := by
  intro pr hpr
  rw [← raw.holds] at hpr
  obtain ⟨row, -, rfl⟩ := List.mem_map.1 hpr
  exact row.fits.2.2.2.1

/-- **No two rows are of one repository and number.** -/
theorem nodup_numbers :
    (raw.tables.pullRequests.map fun row => (row .repositoryId, row .number)).Nodup := by
  have hkeys : (raw.rows.map fun row => row.pr.key).Nodup := by
    have := raw.store.pullRequests.unique
    rwa [← raw.holds, List.map_map] at this
  rw [tables, List.map_map, List.Nodup, List.pairwise_map]
  rw [List.Nodup, List.pairwise_map] at hkeys
  refine hkeys.imp fun {a b} hne heq => hne ?_
  rw [Function.comp_apply, Function.comp_apply, a.reads.repositoryId, a.reads.number,
    b.reads.repositoryId, b.reads.number] at heq
  simpa [PrRecord.key, Int.natCast_inj] using heq

/-- The store with a pull request written. -/
def upsertPr (pr : PrRecord) (hfits : pr.Fits)
    (hrepo : (raw.store.repository? pr.repositoryId).isSome) : RawStore codec where
  store := raw.store.writePullRequest pr hrepo
  rows := (raw.rows.filter fun row => row.pr.key ≠ pr.key) ++ [.written codec pr hfits]
  holds := by
    show _ = raw.store.pullRequests.rows.filter (fun other => other.key ≠ pr.derived.key)
      ++ [pr.derived]
    rw [List.map_append, List.map_singleton, ← raw.holds, List.filter_map, PrRecord.derived_key]
    rfl

theorem tables_upsertPr (pr : PrRecord) (hfits : pr.Fits)
    (hrepo : (raw.store.repository? pr.repositoryId).isSome) :
    (raw.upsertPr pr hfits hrepo).tables = { raw.tables with
      pullRequests := (raw.rows.filter fun row => row.pr.key ≠ pr.key).map StoredRow.cells
        ++ [writtenRow codec pr] } := by
  show RawTables.mk _ (List.map StoredRow.cells (_ ++ [_])) = _
  rw [List.map_append]
  rfl

variable {raw} in
theorem conflicts_cells {row : StoredRow codec} (h : row ∈ raw.rows) (pr : PrRecord) :
    upsertPrSql.conflicts (writtenRow codec pr) row.cells = decide (row.pr.key = pr.key) := by
  show decide ((row.cells .id).eq (.text (toString pr.key)) = some true) = _
  rw [row.reads.id, Cell.eq_text]
  simp [Store.id_eq_iff (raw.row_mem h)]

/-- The row is written as the record, whether there was one. -/
theorem placed_tables (pr : PrRecord) :
    raw.tables.placed upsertPrSql (writtenRow codec pr) = writtenRow codec pr := by
  unfold RawTables.placed
  cases hold : raw.tables.pullRequests.find? (upsertPrSql.conflicts (writtenRow codec pr)) with
  | none => rfl
  | some old =>
    have hfound : upsertPrSql.conflicts (writtenRow codec pr) old = true := List.find?_some hold
    have hconflicts : (old .id).eq (writtenRow codec pr .id) = some true :=
      of_decide_eq_true hfound
    exact rewritten_eq (Cell.eq_eq_true.1 hconflicts).1

theorem others_tables (pr : PrRecord) : raw.tables.others upsertPrSql (writtenRow codec pr)
    = (raw.rows.filter fun row => row.pr.key ≠ pr.key).map StoredRow.cells := by
  rw [RawTables.others, tables, List.filter_map]
  congr 1
  refine List.filter_congr fun row hrow => ?_
  rw [Function.comp_apply, conflicts_cells hrow, decide_not]

/-- A row written hangs off a repository exactly where the record's is in the
table. -/
theorem owned_tables (pr : PrRecord) : (raw.tables.repositories.any fun repo =>
    (writtenRow codec pr).references repo = some true)
      = (raw.store.repository? pr.repositoryId).isSome := by
  have hreferences (repo : RepoRecord) : (writtenRow codec pr).references repo
      = some (repo.repositoryId = pr.repositoryId : Bool) := by
    show (Cell.integer pr.repositoryId).eq (.integer repo.repositoryId) = _
    rw [Cell.eq_integer]
    simp only [Int.natCast_inj, eq_comm]
  rw [Store.repository?, Table.find?, List.isSome_find?]
  refine congrArg (List.any raw.store.repositories.rows) (funext fun repo => ?_)
  rw [hreferences]
  simp

/-- A write whose integers fit comes down to its repository: the other
constraints are met. -/
theorem upsertPr_fits (pr : PrRecord) (hfits : pr.Fits) : raw.tables.upsertPr codec pr
    = if (raw.store.repository? pr.repositoryId).isSome then
        (.ok (), { raw.tables with
          pullRequests := (raw.rows.filter fun row => row.pr.key ≠ pr.key).map StoredRow.cells
            ++ [writtenRow codec pr] })
      else (.error (.database foreignKeyCode), raw.tables) := by
  obtain ⟨params, hparams, hinserted⟩ := upsertPrParams_ok codec hfits
  have hnull : (prColumns.any fun column =>
      column.notNull && writtenRow codec pr column = .null) = false := by
    simp [prColumns, writtenRow, PrColumn.notNull]
  have hfree : ((raw.rows.filter fun row => row.pr.key ≠ pr.key).map StoredRow.cells).any
      (fun other => (writtenRow codec pr).sameNumber other = some true) = false := by
    rw [List.any_map, List.any_eq_false]
    intro row hrow hsame
    have hkey := (StoredRow.sameNumber_cells (.written codec pr hfits) row).1 (of_decide_eq_true hsame)
    rw [StoredRow.written, PrRecord.derived_key] at hkey
    exact of_decide_eq_true (List.mem_filter.1 hrow).2 hkey
  rw [RawTables.upsertPr, hparams, Except.ok_bind]
  unfold RawTables.upsert
  simp only [hinserted, raw.placed_tables, raw.others_tables, hnull, hfree, raw.owned_tables]
  cases (raw.store.repository? pr.repositoryId).isSome with
  | true => rfl
  | false => rfl

/-- **A write whose integers fit, its repository in the table, is carried out**:
the row at its key is the one written, and every other is as it was. -/
theorem upsertPr_tables (pr : PrRecord) (hfits : pr.Fits)
    (hrepo : (raw.store.repository? pr.repositoryId).isSome) :
    raw.tables.upsertPr codec pr = (.ok (), (raw.upsertPr pr hfits hrepo).tables) := by
  rw [raw.upsertPr_fits pr hfits, if_pos hrepo, raw.tables_upsertPr]

/-- An integer past SQLite's is refused, and nothing changes. -/
theorem upsertPr_overflow {pr : PrRecord} (h : ¬ pr.Fits) :
    raw.tables.upsertPr codec pr = (.error .integerOverflow, raw.tables) := by
  rw [RawTables.upsertPr, upsertPrParams_error codec h]
  rfl

/-- **A write is carried out only so**: its integers fit, and its repository is
in the table. -/
theorem upsertPr_eq_ok {pr : PrRecord} {tables : RawTables}
    (h : raw.tables.upsertPr codec pr = (.ok (), tables)) :
    ∃ (hfits : pr.Fits) (hrepo : (raw.store.repository? pr.repositoryId).isSome),
      (raw.upsertPr pr hfits hrepo).tables = tables := by
  have hfits : pr.Fits := by
    by_contra hno
    rw [raw.upsertPr_overflow hno] at h
    cases h
  have hrepo : (raw.store.repository? pr.repositoryId).isSome := by
    by_contra hno
    rw [raw.upsertPr_fits pr hfits, if_neg hno] at h
    cases h
  rw [raw.upsertPr_tables pr hfits hrepo] at h
  exact ⟨hfits, hrepo, (Prod.mk.inj h).2⟩

/-- The store with a pull request deleted. -/
def deletePr (key : PrKey) : RawStore codec where
  store := raw.store.deletePr key
  rows := raw.rows.filter fun row => !decide (row.pr.id = toString key)
  holds := by
    show _ = raw.store.pullRequests.rows.filter fun row => !decide (row.id = toString key)
    rw [← raw.holds, List.filter_map]
    rfl

/-- **A delete takes the row at its key.** -/
theorem deletePr_tables (key : PrKey) : raw.tables.deletePr key = (raw.deletePr key).tables := by
  have hrows : (raw.tables.pullRequests.filter fun row => row.isAt (toString key) ≠ some true)
      = (raw.deletePr key).tables.pullRequests := by
    rw [tables, List.filter_map]
    refine congrArg (List.map StoredRow.cells) (List.filter_congr fun row _ => ?_)
    simp
  rw [RawTables.deletePr, hrows]
  rfl

end RawStore

end Dependaboard
