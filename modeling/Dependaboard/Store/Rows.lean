import Dependaboard.Store.Columns
import Dependaboard.Store.Reader
/-!
# Store — the statements over rows

The statements of a pull request's row as the database runs them on its
columns: the write and the delete with the constraints of the table, the
selects with the join they make, and a filter's clause as a condition that may
be unknown. The reads decode what they select, and fail where a row does not.
-/

namespace Dependaboard

open Relational

/-- The tables the statements reach. -/
structure RawTables where
  repositories : List RepoRecord
  pullRequests : List PrRow

/-- `SQLITE_CONSTRAINT_NOTNULL`. -/
def notNullCode : ℕ := 1299

/-- `SQLITE_CONSTRAINT_UNIQUE`. -/
def uniqueCode : ℕ := 2067

/-- `NOT NULL`. -/
def PrColumn.notNull (column : PrColumn) : Bool :=
  column ∉ [.id, .dependency, .fromVersion, .toVersion, .mergeable]

/-- Both rows are of one repository and number: `idx_pr_number`. -/
def PrRow.sameNumber (row other : PrRow) : Truth :=
  ((other .repositoryId).eq (row .repositoryId)).and ((other .number).eq (row .number))

/-- The row hangs off the repository. -/
def PrRow.references (row : PrRow) (repo : RepoRecord) : Truth :=
  (row .repositoryId).eq (.integer repo.repositoryId)

/-- The row is the one of this text. -/
def PrRow.isAt (id : String) (row : PrRow) : Truth := (row .id).eq (.text id)

namespace RawTables

variable (codec : PrCodec) (tables : RawTables)

/-- The row there is at the conflict of the one to insert, rewritten from it; or
that one. -/
def placed (sql : UpsertSql) (excluded : PrRow) : PrRow :=
  match tables.pullRequests.find? (sql.conflicts excluded) with
  | some old => sql.rewritten old excluded
  | none => excluded

/-- The rows an upsert leaves alone. -/
def others (sql : UpsertSql) (excluded : PrRow) : List PrRow :=
  tables.pullRequests.filter fun other => !sql.conflicts excluded other

/-- Run an upsert with its values. The constraints are checked on the row as
it would be written, against the others. -/
def upsert (sql : UpsertSql) (params : List Cell) : Except StoreError RawTables :=
  let excluded := sql.inserted params
  let row := tables.placed sql excluded
  let others := tables.others sql excluded
  if prColumns.any fun column => column.notNull && row column = .null then
    .error (.database notNullCode)
  else if others.any fun other => row.sameNumber other = some true then
    .error (.database uniqueCode)
  else if tables.repositories.any fun repo => row.references repo = some true then
    .ok { tables with pullRequests := others ++ [row] }
  else .error (.database foreignKeyCode)

/-- The call, and the tables as it leaves them. -/
def upsertPr (pr : PrRecord) : Except StoreError Unit × RawTables :=
  match upsertPrParams codec pr >>= tables.upsert upsertPrSql with
  | .ok tables => (.ok (), tables)
  | .error e => (.error e, tables)

/-- `DELETE FROM pull_requests WHERE id = ?`. -/
def deletePr (key : PrKey) : RawTables :=
  { tables with
    pullRequests := tables.pullRequests.filter fun row => row.isAt (toString key) ≠ some true }

/-! ## Selecting -/

/-- `FROM pull_requests p JOIN repositories r ON …`. -/
def joined : List (PrRow × RepoRecord) :=
  tables.pullRequests.filterMap fun row =>
    (tables.repositories.find? fun repo => row.references repo = some true).map fun repo =>
      (row, repo)

/-- What `select_pr_sql` selects of a joined row. -/
def selectedRow (entry : PrRow × RepoRecord) : List Cell :=
  prColumns.map entry.1 ++ [.integer entry.2.installationId]

/-- The rows selected where a condition is true. -/
def selectPr (condition : PrRow → Truth) : List (List Cell) :=
  (tables.joined.filter fun entry => condition entry.1 = some true).map selectedRow

/-- Decode what was selected, in its order. -/
def collectPrs (rows : List (List Cell)) : Except StoreError (List PrRecord) :=
  rows.mapM (prFromRow codec)

/-- The writer's read of one key. -/
def getPr (key : PrKey) : Except StoreError (Option PrRecord) :=
  match (tables.selectPr (PrRow.isAt (toString key))).head? with
  | none => .ok none
  | some row => (prFromRow codec row).map some

/-- The rows of a repository at a head. -/
def prsForSha (repositoryId : ℕ) (sha : String) : Except StoreError (List PrRecord) := do
  let repositoryId ← integer repositoryId
  collectPrs codec (tables.selectPr fun row =>
    ((row .repositoryId).eq (.integer repositoryId)).and ((row .headSha).eq (.text sha)))

/-- A decoded row under its text, and its owner. -/
def ownedPr (row : List Cell) : Except StoreError (String × PrRecord × ℕ) := do
  let record ← prFromRow codec row
  return (record.id, record, ← installationFromRow row)

/-- The dashboard's read of keys, one statement for all of them. -/
def getPrs (installationId : ℕ) (keys : List PrKey) : Except StoreError (List ProjectedPr) :=
  if keys = [] then .ok [] else do
    let rows := tables.selectPr fun row => (row .id).isIn (keys.map fun key => .text (toString key))
    let found := collect (← rows.mapM (ownedPr codec))
    return keys.map fun key =>
      match found (toString key) with
      | none => .absent
      | some (row, owner) => if owner = installationId then .row row else .foreign

end RawTables

/-! ## Conditions -/

/-- What a condition asks of the elements of a JSON column, where its text has
any. -/
def eachOf (each : String → Option (List String)) (column : Cell) (p : String → Bool) : Truth :=
  (column.text?.bind each).map fun found => found.any p

/-- `LOWER(cell) LIKE pattern ESCAPE '\'`. -/
def lowerLike (pattern : String) : Cell → Truth
  | .text value => some (like '\\' pattern (asciiLowercase value))
  | _ => none

/-- What the database makes of a clause on a row's columns. -/
def Clause.evaluate (codec : PrCodec) (repositories : List RepoRecord) (row : PrRow) :
    BoundClause → Truth
  | .query pattern =>
    (lowerLike pattern (((((row .owner).concat (.text "/")).concat (row .repo)).concat
        (.text " ")).concat (row .title))).or
      (eachOf codec.eachName (row .dependencies) fun name => like '\\' pattern (asciiLowercase name))
  | .repos names =>
    (row .repositoryId).isIn ((repositories.filter fun repo =>
      repo.owner ++ "/" ++ repo.repo ∈ names).map fun repo => .integer repo.repositoryId)
  | .updateTypes types => (row .updateType).isIn (types.map .text)
  | .checkStatuses statuses => (row .checkStatus).isIn (statuses.map .text)
  | .hasLabel label => eachOf codec.eachValue (row .labels) fun value => value = label
  | .dependency name =>
    -- the column compares without case; the list is looked at where it is null
    ((row .dependency).eqUnder asciiLowercase (.text name)).or
      ((row .dependency).isNull.and (eachOf codec.eachName (row .dependencies) fun held =>
        asciiLowercase held = asciiLowercase name))
  | .needsAttention failing conflicting major staleBefore =>
    ((((row .checkStatus).isIn (failing.map .text)).or
        ((row .mergeable).isIn (conflicting.map .text))).or
        ((row .updateType).eq (.text major))).or
      ((row .syncedAt).lt (.integer staleBefore))
  | .after updatedAt id =>
    ((row .updatedAt).lt (.integer updatedAt)).or
      (((row .updatedAt).eq (.integer updatedAt)).and ((row .id).lt (.text id)))
  | .installation installationId =>
    (row .repositoryId).isIn ((repositories.filter fun repo =>
      repo.installationId = installationId).map fun repo => .integer repo.repositoryId)

namespace RawTables

variable (codec : PrCodec) (tables : RawTables)

/-- The clauses joined by `AND`, run with their parameters. -/
def condition (clauses : List WrittenClause) (params : List SqlValue) (row : PrRow) : Truth :=
  Truth.all (clauses.map fun clause =>
    (clause.resolve params).bind (Clause.evaluate codec tables.repositories row))

/-- What a page's rows are ordered by. -/
def rowOrder (row : PrRow) : (ℕ ×ₗ ℤ ×ₗ List Char) ×ₗ (ℕ ×ₗ ℤ ×ₗ List Char) :=
  toLex ((row .updatedAt).order, (row .id).order)

/-- The rows of a page's query. -/
def pageRows (scope : ScopedFilter) (limit : ℕ) : Except StoreError (List PrRecord) := do
  let (place, scope) := scope.bind (.integer (← integer limit))
  let rows := orderByDesc (fun entry => rowOrder entry.1) (tables.joined.filter fun entry =>
    tables.condition codec scope.whereSql scope.params entry.1 = some true)
  collectPrs codec ((rows.map selectedRow).take ((integerAt scope.params place).getD 0))

/-- One page of the rows a filter matches. -/
def listPrs (cursors : CursorCodec) (now installationId : ℕ) (filter : PrFilter) (page : Page) :
    Except StoreError DashboardPage := do
  let scope ← ScopedFilter.new filter none now installationId
  let total := (tables.pullRequests.filter fun row =>
    tables.condition codec scope.whereSql scope.params row = some true).length
  let cursor ← ProjectionReader.cursorAfter cursors page.after
  let scope ← ScopedFilter.new filter cursor now installationId
  let limit := page.normalizedLimit
  let found ← tables.pageRows codec scope (limit + 1)
  let hasMore := limit < found.length
  let rows := found.take limit
  let nextCursor := if hasMore then
      rows.getLast?.map fun row => cursors.encode ⟨row.updatedAt, row.id⟩
    else none
  return ⟨rows, total, nextCursor⟩

end RawTables

end Dependaboard
