import Dependaboard.Core.Dashboard
import Dependaboard.Relational.Cells
import Dependaboard.Store.Batches
/-!
# Store — a pull request's columns

The nineteen columns of `pull_requests`, in the order the projection writes
them and reads them back; the statement that writes a row, with the values it
binds; and the reader of a selected row, by its places. `ReadsAs` is what each
column of a row that is read holds, and `readsAs_writtenRow` that a row written
is read as the record it was written from, its `id` derived.
-/

namespace Dependaboard

open Relational

/-- How the two JSON columns are written and read back, and what the
database's own functions find in the texts written. -/
structure PrCodec where
  dependenciesToJson : List DependencyUpdate → String
  dependenciesFromJson : String → Option (List DependencyUpdate)
  labelsToJson : List String → String
  labelsFromJson : String → Option (List String)
  /-- `json_extract(d.value, '$.name')` over `json_each`. -/
  eachName : String → Option (List String)
  /-- `l.value` over `json_each`. -/
  eachValue : String → Option (List String)
  /-- What is written is read as it was. -/
  dependencies_fromJson_toJson : ∀ dependencies,
    dependenciesFromJson (dependenciesToJson dependencies) = some dependencies
  labels_fromJson_toJson : ∀ labels, labelsFromJson (labelsToJson labels) = some labels
  eachName_toJson : ∀ dependencies,
    eachName (dependenciesToJson dependencies) = some (dependencies.map DependencyUpdate.name)
  eachValue_toJson : ∀ labels, eachValue (labelsToJson labels) = some labels

/-- A column of `pull_requests`. -/
inductive PrColumn where
  | id
  | repositoryId
  | owner
  | repo
  | number
  | title
  | htmlUrl
  | dependency
  | fromVersion
  | toVersion
  | dependencies
  | updateType
  | headSha
  | checkStatus
  | mergeable
  | labels
  | createdAt
  | updatedAt
  | syncedAt
  deriving DecidableEq, Repr

/-- A row of `pull_requests`. -/
abbrev PrRow : Type := PrColumn → Cell

/-- The columns, in the order they are written and read. -/
def prColumns : List PrColumn :=
  [.id, .repositoryId, .owner, .repo, .number, .title, .htmlUrl, .dependency, .fromVersion,
    .toVersion, .dependencies, .updateType, .headSha, .checkStatus, .mergeable, .labels,
    .createdAt, .updatedAt, .syncedAt]

/-- Where a selected row holds the installation it is joined with. -/
def prInstallationIndex : ℕ := prColumns.length

/-! ## Writing -/

/-- `INSERT INTO pull_requests (…) VALUES (…) ON CONFLICT(…) DO UPDATE SET …`:
the columns, the places of their values, the column whose conflict rewrites
the row, and the columns it rewrites from the row not inserted. -/
structure UpsertSql where
  columns : List PrColumn
  placeholders : List ℕ
  conflict : PrColumn
  rewrite : List PrColumn
  deriving DecidableEq, Repr

/-- Every column is rewritten but the `id` the conflict is on. -/
def upsertPrSql : UpsertSql where
  columns := prColumns
  placeholders := List.range' 1 prColumns.length
  conflict := .id
  rewrite := prColumns.filter (· ≠ .id)

namespace UpsertSql

/-- The row the statement inserts, run with the values; a column it does not
name is null. -/
def inserted (sql : UpsertSql) (params : List Cell) : PrRow := fun column =>
  match (sql.columns.zip sql.placeholders).find? fun entry => entry.1 = column with
  | some (_, place) => (params[place - 1]?).getD .null
  | none => .null

/-- A row there is, rewritten from the one not inserted. -/
def rewritten (sql : UpsertSql) (old excluded : PrRow) : PrRow := fun column =>
  if column ∈ sql.rewrite then excluded column else old column

/-- A row is of the one value that the row to insert would repeat. -/
def conflicts (sql : UpsertSql) (excluded row : PrRow) : Bool :=
  (row sql.conflict).eq (excluded sql.conflict) = some true

end UpsertSql

/-- A text that may be null. -/
def optionText : Option String → Cell
  | none => .null
  | some value => .text value

/-- The values a write binds, in order. -/
def upsertPrParams (codec : PrCodec) (pr : PrRecord) : Except StoreError (List Cell) := do
  let dependencies := codec.dependenciesToJson pr.dependencies
  let labels := codec.labelsToJson pr.labels
  let id := toString pr.key
  let repositoryId ← integer pr.repositoryId
  let number ← integer pr.number
  let createdAt ← integer pr.createdAt
  let updatedAt ← integer pr.updatedAt
  let syncedAt ← integer pr.syncedAt
  return [
    .text id,
    .integer repositoryId,
    .text pr.owner,
    .text pr.repo,
    .integer number,
    .text pr.title,
    .text pr.htmlUrl,
    optionText pr.dependency,
    optionText pr.fromVersion,
    optionText pr.toVersion,
    .text dependencies,
    .text (toString pr.updateType),
    .text pr.headSha,
    .text (toString pr.checkStatus),
    .text (toString pr.mergeable),
    .text labels,
    .integer createdAt,
    .integer updatedAt,
    .integer syncedAt]

/-! ## Reading -/

/-- `SQLITE_MISMATCH`. -/
def mismatchCode : ℕ := 20

/-- The text at a place of a selected row. -/
def getText (row : List Cell) (index : ℕ) : Except StoreError String :=
  match row[index]? with
  | some (.text value) => .ok value
  | some .null => .error .nullValue
  | _ => .error (.database mismatchCode)

/-- The text at a place, or null. -/
def getOptionText (row : List Cell) (index : ℕ) : Except StoreError (Option String) :=
  match row[index]? with
  | some (.text value) => .ok (some value)
  | some .null => .ok none
  | _ => .error (.database mismatchCode)

/-- The integer at a place. -/
def getInteger (row : List Cell) (index : ℕ) : Except StoreError ℤ :=
  match row[index]? with
  | some (.integer value) => .ok value
  | some .null => .error .nullValue
  | _ => .error (.database mismatchCode)

/-- Read a column's JSON. A text that is none is the row's fault, and the
read's failure. -/
def fromJson {α : Type} (read : String → Option α) (text : String) : Except StoreError α :=
  match read text with
  | some a => .ok a
  | none => .error .json

/-- The pull request's own columns of a selected row. -/
def prFromRow (codec : PrCodec) (row : List Cell) : Except StoreError PrRecord := do
  let id ← getText row 0
  let repositoryId ← unsigned (← getInteger row 1)
  let owner ← getText row 2
  let repo ← getText row 3
  let number ← unsigned (← getInteger row 4)
  let title ← getText row 5
  let htmlUrl ← getText row 6
  let dependency ← getOptionText row 7
  let fromVersion ← getOptionText row 8
  let toVersion ← getOptionText row 9
  let dependencies ← fromJson codec.dependenciesFromJson (← getText row 10)
  let updateType ← storedEnum UpdateType.fromStr (← getText row 11)
  let headSha ← getText row 12
  let checkStatus ← storedEnum CheckStatus.fromStr (← getText row 13)
  -- the column is nullable and once held GitHub's word as it came
  let mergeable := ((← getOptionText row 14).map Mergeable.fromGithubState).getD .unknown
  let labels ← fromJson codec.labelsFromJson (← getText row 15)
  let createdAt ← unsigned (← getInteger row 16)
  let updatedAt ← unsigned (← getInteger row 17)
  let syncedAt ← unsigned (← getInteger row 18)
  return {
    id := id
    repositoryId := repositoryId
    owner := owner
    repo := repo
    number := number
    title := title
    htmlUrl := htmlUrl
    dependency := dependency
    fromVersion := fromVersion
    toVersion := toVersion
    dependencies := dependencies
    updateType := updateType
    headSha := headSha
    checkStatus := checkStatus
    mergeable := mergeable
    labels := labels
    createdAt := createdAt
    updatedAt := updatedAt
    syncedAt := syncedAt }

/-- The installation a selected row is joined with. -/
def installationFromRow (row : List Cell) : Except StoreError ℕ := do
  unsigned (← getInteger row prInstallationIndex)

/-! ## What a row that is read holds -/

section Places

variable {row : List Cell} {index : ℕ}

theorem getText_eq_ok {value : String} :
    getText row index = .ok value ↔ row[index]? = some (.text value) := by
  unfold getText
  split <;> simp_all

theorem getOptionText_eq_ok {value : Option String} :
    getOptionText row index = .ok value ↔ row[index]? = some (optionText value) := by
  unfold getOptionText
  cases value <;> split <;> simp_all [optionText]

theorem getInteger_eq_ok {value : ℤ} :
    getInteger row index = .ok value ↔ row[index]? = some (.integer value) := by
  unfold getInteger
  split <;> simp_all

theorem unsigned_eq_ok {value : ℤ} {n : ℕ} : unsigned value = .ok n ↔ value = n := by
  unfold unsigned
  split
  · simp only [Except.ok.injEq]
    omega
  · simp only [reduceCtorEq, false_iff]
    omega

theorem fromJson_eq_ok {α : Type} {read : String → Option α} {text : String} {a : α} :
    fromJson read text = .ok a ↔ read text = some a := by
  unfold fromJson
  split <;> simp_all

theorem storedEnum_eq_ok {α : Type} {fromStr : String → Option α} {text : String} {a : α} :
    storedEnum fromStr text = .ok a ↔ fromStr text = some a := by
  unfold storedEnum
  split <;> simp_all

theorem UpdateType.fromStr_eq_some {text : String} {updateType : UpdateType} :
    UpdateType.fromStr text = some updateType ↔ text = toString updateType := by
  constructor
  · intro h
    unfold UpdateType.fromStr at h
    split at h <;> cases h <;> rfl
  · rintro rfl
    exact UpdateType.fromStr_toString updateType

theorem CheckStatus.fromStr_eq_some {text : String} {status : CheckStatus} :
    CheckStatus.fromStr text = some status ↔ text = toString status := by
  constructor
  · intro h
    unfold CheckStatus.fromStr at h
    split at h <;> cases h <;> rfl
  · rintro rfl
    exact CheckStatus.fromStr_toString status

end Places

/-- **What each column of a row read as a record holds.** -/
structure ReadsAs (codec : PrCodec) (row : PrRow) (pr : PrRecord) : Prop where
  id : row .id = .text pr.id
  repositoryId : row .repositoryId = .integer pr.repositoryId
  owner : row .owner = .text pr.owner
  repo : row .repo = .text pr.repo
  number : row .number = .integer pr.number
  title : row .title = .text pr.title
  htmlUrl : row .htmlUrl = .text pr.htmlUrl
  dependency : row .dependency = optionText pr.dependency
  fromVersion : row .fromVersion = optionText pr.fromVersion
  toVersion : row .toVersion = optionText pr.toVersion
  dependencies : ∃ text, row .dependencies = .text text ∧
    codec.dependenciesFromJson text = some pr.dependencies
  updateType : row .updateType = .text (toString pr.updateType)
  headSha : row .headSha = .text pr.headSha
  checkStatus : row .checkStatus = .text (toString pr.checkStatus)
  /-- Null and what GitHub never said are read alike. -/
  mergeable : ∃ state, row .mergeable = optionText state ∧
    pr.mergeable = (state.map Mergeable.fromGithubState).getD .unknown
  labels : ∃ text, row .labels = .text text ∧ codec.labelsFromJson text = some pr.labels
  createdAt : row .createdAt = .integer pr.createdAt
  updatedAt : row .updatedAt = .integer pr.updatedAt
  syncedAt : row .syncedAt = .integer pr.syncedAt

theorem Except.bind_eq_ok {ε α β : Type} {x : Except ε α} {f : α → Except ε β} {b : β} :
    (x >>= f) = .ok b ↔ ∃ a, x = .ok a ∧ f a = .ok b :=
  ⟨Except.bind_ok, fun ⟨_, hx, hf⟩ => by rw [hx]; exact hf⟩

/-- A value that is decoded is one that decodes. -/
theorem exists_decoded {α β : Type} {q : α → Prop} {f : β → α} {p : β → Prop} :
    (∃ a, q a ∧ ∃ b, a = f b ∧ p b) ↔ ∃ b, q (f b) ∧ p b :=
  ⟨fun ⟨_, hq, b, hb, hp⟩ => ⟨b, hb ▸ hq, hp⟩, fun ⟨b, hq, hp⟩ => ⟨f b, hq, b, rfl, hp⟩⟩

/-- **A row is read as a record exactly where its columns hold it**, whatever
it is joined with. -/
theorem prFromRow_eq_ok {codec : PrCodec} {row : PrRow} {more : List Cell} {pr : PrRecord} :
    prFromRow codec (prColumns.map row ++ more) = .ok pr ↔ ReadsAs codec row pr := by
  simp only [prFromRow, Except.bind_eq_ok, getText_eq_ok, getOptionText_eq_ok, getInteger_eq_ok,
    unsigned_eq_ok, fromJson_eq_ok, storedEnum_eq_ok, UpdateType.fromStr_eq_some,
    CheckStatus.fromStr_eq_some, prColumns, List.map_cons, List.cons_append,
    List.getElem?_cons_zero, List.getElem?_cons_succ, Option.some.injEq, exists_decoded]
  constructor
  · rintro ⟨id, hid, repositoryId, hrepositoryId, owner, howner, repo, hrepo, number, hnumber,
      title, htitle, htmlUrl, hhtmlUrl, dependency, hdependency, fromVersion, hfromVersion,
      toVersion, htoVersion, text, hdependencies, dependencies, hlist, updateType, hupdateType,
      headSha, hheadSha, checkStatus, hcheckStatus, state, hmergeable, names, hlabels, labels,
      hnames, createdAt, hcreatedAt, updatedAt, hupdatedAt, syncedAt, hsyncedAt, hpr⟩
    cases hpr
    exact ⟨hid, hrepositoryId, howner, hrepo, hnumber, htitle, hhtmlUrl, hdependency, hfromVersion,
      htoVersion, ⟨text, hdependencies, hlist⟩, hupdateType, hheadSha, hcheckStatus,
      ⟨state, hmergeable, rfl⟩, ⟨names, hlabels, hnames⟩, hcreatedAt, hupdatedAt, hsyncedAt⟩
  · intro h
    obtain ⟨list, hdependencies, hlist⟩ := h.dependencies
    obtain ⟨state, hmergeable, hstate⟩ := h.mergeable
    obtain ⟨names, hlabels, hnames⟩ := h.labels
    refine ⟨_, h.id, _, h.repositoryId, _, h.owner, _, h.repo, _, h.number, _, h.title, _,
      h.htmlUrl, _, h.dependency, _, h.fromVersion, _, h.toVersion, list, hdependencies, _, hlist,
      _, h.updateType, _, h.headSha, _, h.checkStatus, state, hmergeable, names, hlabels, _,
      hnames, _, h.createdAt, _, h.updatedAt, _, h.syncedAt, ?_⟩
    rw [← hstate]
    rfl

/-! ## What is written is read -/

/-- The record's integers are SQLite integers. -/
def PrRecord.Fits (pr : PrRecord) : Prop :=
  pr.repositoryId < i64Size ∧ pr.number < i64Size ∧ pr.createdAt < i64Size ∧
    pr.updatedAt < i64Size ∧ pr.syncedAt < i64Size

instance (pr : PrRecord) : Decidable pr.Fits := inferInstanceAs (Decidable (_ ∧ _))

/-- The row a record is written as. -/
def writtenRow (codec : PrCodec) (pr : PrRecord) : PrRow
  | .id => .text (toString pr.key)
  | .repositoryId => .integer pr.repositoryId
  | .owner => .text pr.owner
  | .repo => .text pr.repo
  | .number => .integer pr.number
  | .title => .text pr.title
  | .htmlUrl => .text pr.htmlUrl
  | .dependency => optionText pr.dependency
  | .fromVersion => optionText pr.fromVersion
  | .toVersion => optionText pr.toVersion
  | .dependencies => .text (codec.dependenciesToJson pr.dependencies)
  | .updateType => .text (toString pr.updateType)
  | .headSha => .text pr.headSha
  | .checkStatus => .text (toString pr.checkStatus)
  | .mergeable => .text (toString pr.mergeable)
  | .labels => .text (codec.labelsToJson pr.labels)
  | .createdAt => .integer pr.createdAt
  | .updatedAt => .integer pr.updatedAt
  | .syncedAt => .integer pr.syncedAt

/-- **Each value bound lands in its own column.** -/
theorem upsertPrParams_ok (codec : PrCodec) {pr : PrRecord} (h : pr.Fits) :
    ∃ params, upsertPrParams codec pr = .ok params ∧
      upsertPrSql.inserted params = writtenRow codec pr := by
  obtain ⟨hrepositoryId, hnumber, hcreatedAt, hupdatedAt, hsyncedAt⟩ := h
  unfold upsertPrParams
  rw [integer_of_lt hrepositoryId, integer_of_lt hnumber, integer_of_lt hcreatedAt,
    integer_of_lt hupdatedAt, integer_of_lt hsyncedAt]
  exact ⟨_, rfl, funext fun column => by cases column <;> rfl⟩

/-- An integer past SQLite's is refused. -/
theorem upsertPrParams_error (codec : PrCodec) {pr : PrRecord} (h : ¬ pr.Fits) :
    upsertPrParams codec pr = .error .integerOverflow := by
  unfold upsertPrParams integer
  split
  · split
    · split
      · split
        · split
          · exact absurd ⟨‹_›, ‹_›, ‹_›, ‹_›, ‹_›⟩ h
          · rfl
        · rfl
      · rfl
    · rfl
  · rfl

/-- A row rewritten is the one that was not inserted, where both are of one
`id`. -/
theorem rewritten_eq {old excluded : PrRow} (h : old .id = excluded .id) :
    upsertPrSql.rewritten old excluded = excluded := by
  funext column
  cases column
  case id => exact h
  all_goals rfl

/-- **A row written is read as the record it was written from**, its `id`
derived. -/
theorem readsAs_writtenRow (codec : PrCodec) (pr : PrRecord) :
    ReadsAs codec (writtenRow codec pr) pr.derived where
  id := rfl
  repositoryId := rfl
  owner := rfl
  repo := rfl
  number := rfl
  title := rfl
  htmlUrl := rfl
  dependency := rfl
  fromVersion := rfl
  toVersion := rfl
  dependencies := ⟨_, rfl, codec.dependencies_fromJson_toJson pr.dependencies⟩
  updateType := rfl
  headSha := rfl
  checkStatus := rfl
  mergeable := ⟨some (toString pr.mergeable), rfl,
    (Mergeable.fromGithubState_toString pr.mergeable).symm⟩
  labels := ⟨_, rfl, codec.labels_fromJson_toJson pr.labels⟩
  createdAt := rfl
  updatedAt := rfl
  syncedAt := rfl

end Dependaboard
