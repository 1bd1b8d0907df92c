import Dependaboard.Core.Dashboard
import Dependaboard.Store.Writer
/-!
# Store — the dashboard's filter as a clause

A filter becomes the conjuncts of a `WHERE` clause, each naming the values it
compares with by their places among the statement's parameters, and a
`ScopedFilter` is a clause held to one installation together with its
parameters. A clause means something only with the parameters it is run with:
`Clause.resolve` looks its values up and `Clause.holds` is what the database
makes of them on a row.
-/

namespace Dependaboard

/-- A value bound to a statement. -/
inductive SqlValue where
  | text (value : String)
  | integer (value : ℕ)
  deriving DecidableEq, Repr

/-- One conjunct of the clause over `pull_requests p`, with what it takes for
its texts and its integers: the places of parameters as it is written, their
values once it is run. -/
inductive Clause (τ ι : Type) where
  /-- `LOWER(p.owner || '/' || p.repo || ' ' || p.title) LIKE ?`, or the same
  of a dependency's name, with a backslash for the escape. -/
  | query (pattern : τ)
  /-- `p.repository_id IN (SELECT repository_id FROM repositories WHERE
  owner || '/' || repo IN (?, …))`. -/
  | repos (names : List τ)
  /-- `p.update_type IN (?, …)`. -/
  | updateTypes (types : List τ)
  /-- `p.check_status IN (?, …)`. -/
  | checkStatuses (statuses : List τ)
  /-- `EXISTS (SELECT 1 FROM json_each(p.labels) l WHERE l.value = ?)`. -/
  | hasLabel (label : τ)
  /-- `p.dependency = ?` in any case, or where that is null the same of a
  name in `p.dependencies`. -/
  | dependency (name : τ)
  /-- `p.check_status IN (?, …) OR p.mergeable IN (?, …) OR
  p.update_type = ? OR p.synced_at < ?`. -/
  | needsAttention (failing conflicting : List τ) (major : τ) (staleBefore : ι)
  /-- `p.updated_at < ? OR (p.updated_at = ? AND p.id < ?)`. -/
  | after (updatedAt : ι) (id : τ)
  /-- `p.repository_id IN (SELECT repository_id FROM repositories WHERE
  installation_id = ?)`. -/
  | installation (installationId : ι)
  deriving DecidableEq, Repr

/-- A clause as it is written: it takes the parameters at these places. -/
abbrev WrittenClause : Type := Clause ℕ ℕ

/-- A clause with its values. -/
abbrev BoundClause : Type := Clause String ℕ

/-! ## Binding -/

/-- Writing a clause binds values: each takes the next place among the
parameters. -/
abbrev Binding (α : Type) : Type := StateT (List SqlValue) (Except StoreError) α

/-- Bind a value, and give its place. -/
def bindValue (value : SqlValue) : Binding ℕ := fun params =>
  .ok (params.length + 1, params ++ [value])

/-- Bind a text. -/
def bindText (value : String) : Binding ℕ := bindValue (.text value)

/-- Bind an integer, in SQLite's range. -/
def bindInteger (value : ℕ) : Binding ℕ := do bindValue (.integer (← integer value))

/-- A character that would be read as a pattern's, behind a backslash. -/
def escapeLike (text : String) : String :=
  String.ofList (text.toList.flatMap fun c =>
    if c = '\\' ∨ c = '%' ∨ c = '_' then ['\\', c] else [c])

/-- A text that is not blank. -/
def nonblank (text : Option String) : Option String := text.filter fun text => trim text ≠ ""

/-- The conjunct that binds a text, where there is one. -/
def textClause (clause : ℕ → WrittenClause) : Option String → Binding (List WrittenClause)
  | none => pure []
  | some value => do return [clause (← bindText value)]

/-- The conjunct that binds several texts, where there are any. -/
def textsClause (clause : List ℕ → WrittenClause) (values : List String) :
    Binding (List WrittenClause) :=
  if values = [] then pure [] else do return [clause (← values.mapM bindText)]

/-- The conjunct of each label: a row must carry them all. -/
def labelClauses (labels : List String) : Binding (List WrittenClause) :=
  labels.mapM fun label => do return .hasLabel (← bindText label)

/-- The conjunct of the rows that need attention, where they are asked for. -/
def attentionClause (needsAttention : Bool) (now : ℕ) : Binding (List WrittenClause) :=
  if !needsAttention then pure [] else do
    let failing ← [CheckStatus.failure, CheckStatus.none].mapM fun status =>
      bindText (toString status)
    let conflicting ← (Mergeable.all.filter Mergeable.isConflicting).mapM fun state =>
      bindText (toString state)
    let major ← bindText (toString UpdateType.major)
    let staleBefore ← bindInteger (now - staleAfter)
    return [.needsAttention failing conflicting major staleBefore]

/-- The conjunct of a cursor, where there is one. -/
def cursorClause : Option PageCursor → Binding (List WrittenClause)
  | none => pure []
  | some cursor => do
    let updatedAt ← bindInteger cursor.updatedAt
    let id ← bindText cursor.id
    return [Clause.after updatedAt id]

/-- The clause of a filter, continuing after a cursor where there is one. -/
def filterSql (filter : PrFilter) (cursor : Option PageCursor) (now : ℕ) :
    Binding (List WrittenClause) := do
  let query ← textClause .query ((nonblank filter.query).map fun query =>
    "%" ++ escapeLike (asciiLowercase (trim query)) ++ "%")
  let repos ← textsClause .repos filter.repos
  let updateTypes ← textsClause .updateTypes (filter.updateTypes.map toString)
  let checkStatuses ← textsClause .checkStatuses (filter.checkStatuses.map toString)
  let labels ← labelClauses filter.labels
  let dependency ← textClause .dependency ((nonblank filter.dependency).map trim)
  let needsAttention ← attentionClause filter.needsAttention now
  let after ← cursorClause cursor
  return query ++ repos ++ updateTypes ++ checkStatuses ++ labels ++ dependency ++ needsAttention
    ++ after

/-- A filter's clause held to an installation, and its parameters. -/
structure ScopedFilter where
  whereSql : List WrittenClause
  params : List SqlValue
  deriving DecidableEq, Repr

namespace ScopedFilter

/-- The filter held to the installation. -/
def new (filter : PrFilter) (cursor : Option PageCursor) (now installationId : ℕ) :
    Except StoreError ScopedFilter := do
  let (clauses, params) ← filterSql filter cursor now []
  let (installation, params) ← bindInteger installationId params
  return ⟨clauses ++ [.installation installation], params⟩

/-- Bind one more value, for the statement the clause goes into. -/
def bind (scope : ScopedFilter) (value : SqlValue) : ℕ × ScopedFilter :=
  (scope.params.length + 1, { scope with params := scope.params ++ [value] })

end ScopedFilter

/-! ## Running -/

/-- The text at a place. -/
def textAt (params : List SqlValue) (place : ℕ) : Option String :=
  match params[place - 1]? with
  | some (.text value) => some value
  | _ => none

/-- The integer at a place. -/
def integerAt (params : List SqlValue) (place : ℕ) : Option ℕ :=
  match params[place - 1]? with
  | some (.integer value) => some value
  | _ => none

namespace Clause

/-- A clause with the values its parameters have. -/
def resolve (params : List SqlValue) : WrittenClause → Option BoundClause
  | .query pattern => return .query (← textAt params pattern)
  | .repos names => return .repos (← names.mapM (textAt params))
  | .updateTypes types => return .updateTypes (← types.mapM (textAt params))
  | .checkStatuses statuses => return .checkStatuses (← statuses.mapM (textAt params))
  | .hasLabel label => return .hasLabel (← textAt params label)
  | .dependency name => return .dependency (← textAt params name)
  | .needsAttention failing conflicting major staleBefore => do
    return .needsAttention (← failing.mapM (textAt params)) (← conflicting.mapM (textAt params))
      (← textAt params major) (← integerAt params staleBefore)
  | .after updatedAt id => return .after (← integerAt params updatedAt) (← textAt params id)
  | .installation installationId => return .installation (← integerAt params installationId)

/-- What the database makes of a clause on a row. A comparison with a null
does not hold. -/
def holds (store : Store) (row : PrRecord) : BoundClause → Bool
  | .query pattern =>
    like '\\' pattern (asciiLowercase (row.owner ++ "/" ++ row.repo ++ " " ++ row.title)) ||
      row.dependencies.any fun dependency => like '\\' pattern (asciiLowercase dependency.name)
  | .repos names =>
    store.repositories.rows.any fun repo =>
      repo.repositoryId = row.repositoryId ∧ repo.owner ++ "/" ++ repo.repo ∈ names
  | .updateTypes types => toString row.updateType ∈ types
  | .checkStatuses statuses => toString row.checkStatus ∈ statuses
  | .hasLabel label => label ∈ row.labels
  | .dependency name =>
    match row.dependency with
    | some held => asciiLowercase held = asciiLowercase name
    | none => row.dependencies.any fun dependency =>
        asciiLowercase dependency.name = asciiLowercase name
  | .needsAttention failing conflicting major staleBefore =>
    toString row.checkStatus ∈ failing ∨ toString row.mergeable ∈ conflicting ∨
      toString row.updateType = major ∨ row.syncedAt < staleBefore
  | .after updatedAt id =>
    row.updatedAt < updatedAt ∨ row.updatedAt = updatedAt ∧ row.id.toList < id.toList
  | .installation installationId =>
    store.repositories.rows.any fun repo =>
      repo.repositoryId = row.repositoryId ∧ repo.installationId = installationId

end Clause

/-- Whether a row is one the clause selects, run with its parameters. -/
def ScopedFilter.selects (store : Store) (scope : ScopedFilter) (row : PrRecord) : Bool :=
  scope.whereSql.all fun clause =>
    ((clause.resolve scope.params).map (Clause.holds store row)).getD false

end Dependaboard
