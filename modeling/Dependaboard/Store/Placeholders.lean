import Dependaboard.Relational.Placeholder
import Dependaboard.Store.Columns
import Dependaboard.Store.Reader
import Dependaboard.Store.Selected
/-!
# Store — the placeholders of a dashboard read

A filter's clause is written with the places its values took, one behind
another, and a statement that needs values of its own binds them behind those.
`filterSql` numbers each place by how many values were bound before it, so the
places written are all those of the parameters (`takes_filterSql`), and what
each clause finds at its own is the value it is about.
-/

namespace Dependaboard

open Relational Sql

/-! ## The clauses as they are sent -/

namespace Clause

/-- The places of a clause's values, each once. -/
def places : WrittenClause → List ℕ
  | .query pattern => [pattern]
  | .repos names => names
  | .updateTypes types => types
  | .checkStatuses statuses => statuses
  | .hasLabel label => [label]
  | .dependency name => [name]
  | .needsAttention failing conflicting major staleBefore =>
    failing ++ conflicting ++ [major, staleBefore]
  | .after updatedAt id => [updatedAt, id]
  | .installation installationId => [installationId]

/-- The clause's text. -/
def sql : WrittenClause → List Piece
  | .query pattern =>
    [.text "(LOWER(p.owner || '/' || p.repo || ' ' || p.title) LIKE ", .place pattern,
      .text " ESCAPE '\\' OR EXISTS (SELECT 1 FROM json_each(p.dependencies) d",
      .text " WHERE LOWER(json_extract(d.value, '$.name')) LIKE ", .place pattern,
      .text " ESCAPE '\\'))"]
  | .repos names =>
    .text "p.repository_id IN (SELECT repository_id FROM repositories" ::
      .text " WHERE owner || '/' || repo IN (" :: listed names ++ [.text "))"]
  | .updateTypes types => .text "p.update_type IN (" :: listed types ++ [.text ")"]
  | .checkStatuses statuses => .text "p.check_status IN (" :: listed statuses ++ [.text ")"]
  | .hasLabel label =>
    [.text "EXISTS (SELECT 1 FROM json_each(p.labels) l WHERE l.value = ", .place label, .text ")"]
  | .dependency name =>
    [.text "(p.dependency = ", .place name,
      .text " OR (p.dependency IS NULL AND EXISTS (SELECT 1 FROM json_each(p.dependencies) d",
      .text " WHERE json_extract(d.value, '$.name') = ", .place name,
      .text " COLLATE NOCASE)))"]
  | .needsAttention failing conflicting major staleBefore =>
    .text "(p.check_status IN (" :: (listed failing ++ .text ") OR p.mergeable IN (" ::
      (listed conflicting ++ [.text ") OR p.update_type = ", .place major,
        .text " OR p.synced_at < ", .place staleBefore, .text ")"]))
  | .after updatedAt id =>
    [.text "(p.updated_at < ", .place updatedAt, .text " OR (p.updated_at = ", .place updatedAt,
      .text " AND p.id < ", .place id, .text "))"]
  | .installation installationId =>
    [.text "p.repository_id IN (SELECT repository_id FROM repositories WHERE installation_id = ",
      .place installationId, .text ")"]

/-- A clause's text names the places of its values, and no others. -/
theorem mem_places_sql (clause : WrittenClause) (n : ℕ) :
    n ∈ Sql.places clause.sql ↔ n ∈ clause.places := by
  cases clause <;> simp [sql, places]

/-- Places in a list, with a text behind them. -/
theorem spaced_listed_append (ns : List ℕ) {rest : List Piece} (h : Spaced rest)
    (hopens : Opens (render rest)) : Spaced (listed ns ++ rest) :=
  (spaced_listed ns).append h hopens

theorem spaced_sql (clause : WrittenClause) : Spaced clause.sql := by
  cases clause with
  | query pattern =>
    exact ⟨noMark rfl, opens_text rfl _, noMark rfl, noMark rfl, opens_text rfl _, noMark rfl,
      trivial⟩
  | repos names =>
    exact ⟨noMark rfl, noMark rfl,
      spaced_listed_append _ ⟨noMark rfl, trivial⟩ (opens_text rfl _)⟩
  | updateTypes types =>
    exact ⟨noMark rfl, spaced_listed_append _ ⟨noMark rfl, trivial⟩ (opens_text rfl _)⟩
  | checkStatuses statuses =>
    exact ⟨noMark rfl, spaced_listed_append _ ⟨noMark rfl, trivial⟩ (opens_text rfl _)⟩
  | hasLabel label => exact ⟨noMark rfl, opens_text rfl _, noMark rfl, trivial⟩
  | dependency name =>
    exact ⟨noMark rfl, opens_text rfl _, noMark rfl, noMark rfl, opens_text rfl _, noMark rfl,
      trivial⟩
  | needsAttention failing conflicting major staleBefore =>
    have hend (rest : List Piece) : Opens (render (.text ") OR p.update_type = " :: rest)) :=
      opens_text rfl rest
    refine ⟨noMark rfl, spaced_listed_append _ ⟨noMark rfl, spaced_listed_append _ ?_ (hend _)⟩
      (opens_text rfl _)⟩
    exact ⟨noMark rfl, opens_text rfl _, noMark rfl, opens_text rfl _, noMark rfl, trivial⟩
  | after updatedAt id =>
    exact ⟨noMark rfl, opens_text rfl _, noMark rfl, opens_text rfl _, noMark rfl,
      opens_text rfl _, noMark rfl, trivial⟩
  | installation installationId => exact ⟨noMark rfl, opens_text rfl _, noMark rfl, trivial⟩

end Clause

/-- What stands between two conjuncts. -/
def andSql : Piece := .text " AND "

/-- The clause of a statement: nothing where there are no conjuncts. -/
def whereText (clauses : List WrittenClause) : List Piece :=
  if clauses = [] then [] else .text "WHERE " :: joined andSql (clauses.map Clause.sql)

theorem mem_places_whereText {clauses : List WrittenClause} {n : ℕ} :
    n ∈ Sql.places (whereText clauses) ↔ n ∈ clauses.flatMap Clause.places := by
  unfold whereText
  split_ifs with hnone
  · subst hnone
    rfl
  · rw [places_text, andSql, places_joined]
    simp only [List.mem_flatMap, List.mem_map, exists_exists_and_eq_and, Clause.mem_places_sql]

theorem spaced_whereText (clauses : List WrittenClause) : Spaced (whereText clauses) := by
  unfold whereText
  split_ifs
  · trivial
  · refine ⟨noMark rfl, spaced_joined (noMark rfl) (fun rest => opens_text rfl rest) ?_⟩
    intro sql hsql
    obtain ⟨clause, -, rfl⟩ := List.mem_map.1 hsql
    exact clause.spaced_sql

/-! ## The places a clause takes -/

/-- The places behind `start` others, in order, up to `stop`. -/
def Takes (start : ℕ) (places : List ℕ) (stop : ℕ) : Prop :=
  stop = start + places.length ∧ places = List.range' (start + 1) places.length

namespace Takes

variable {i j k : ℕ} {xs ys : List ℕ}

theorem nil (i : ℕ) : Takes i [] i := ⟨rfl, rfl⟩

theorem one (i : ℕ) : Takes i [i + 1] (i + 1) := ⟨rfl, rfl⟩

theorem append (h : Takes i xs j) (h' : Takes j ys k) : Takes i (xs ++ ys) k := by
  obtain ⟨rfl, hxs⟩ := h
  obtain ⟨rfl, hys⟩ := h'
  refine ⟨by rw [List.length_append]; omega, ?_⟩
  rw [List.length_append, ← List.range'_append_1, ← hxs, Nat.add_right_comm, ← hys]

theorem mem_iff (h : Takes i xs k) {n : ℕ} : n ∈ xs ↔ i < n ∧ n ≤ k := by
  obtain ⟨rfl, hxs⟩ := h
  rw [hxs, List.mem_range'_1, List.length_range']
  omega

end Takes

/-- **How a piece of a clause's writing numbers its values**, by how many were
bound before it and how many are once it is written. -/
def Numbers {α : Type} (m : Binding α) (P : ℕ → α → ℕ → Prop) : Prop :=
  ∀ params a params', m params = .ok (a, params') → P params.length a params'.length

namespace Numbers

variable {α β : Type} {m : Binding α} {f : α → Binding β} {P P' : ℕ → α → ℕ → Prop}
  {Q : α → ℕ → β → ℕ → Prop}

theorem mono (h : Numbers m P) (hP : ∀ i a k, P i a k → P' i a k) : Numbers m P' :=
  fun params a params' hrun => hP _ _ _ (h params a params' hrun)

theorem pure (a : α) : Numbers (pure a : Binding α) fun i b k => b = a ∧ k = i := by
  intro params b params' hrun
  obtain ⟨rfl, rfl⟩ := Prod.mk.inj (Except.ok.inj hrun)
  exact ⟨rfl, rfl⟩

theorem bind (h : Numbers m P) (hf : ∀ a, Numbers (f a) (Q a)) :
    Numbers (m >>= f) fun i b k => ∃ a j, P i a j ∧ Q a j b k := by
  intro params b params' hrun
  obtain ⟨⟨a, between⟩, hm, hrest⟩ := Except.bind_ok (x := m params)
    (f := fun step => f step.1 step.2) hrun
  exact ⟨a, between.length, h _ _ _ hm, hf a _ _ _ hrest⟩

theorem value (value : SqlValue) : Numbers (bindValue value) fun i place k => Takes i [place] k := by
  intro params place params' hrun
  obtain ⟨rfl, rfl⟩ := Prod.mk.inj (Except.ok.inj hrun)
  rw [List.length_append, List.length_singleton]
  exact Takes.one _

theorem integer (n : ℕ) : Numbers (bindInteger n) fun i place k => Takes i [place] k := by
  intro params place params' hrun
  obtain ⟨⟨stored, between⟩, hstored, hrest⟩ := Except.bind_ok
    (x := (liftM (Dependaboard.integer n) : Binding ℕ) params)
    (f := fun step => bindValue (.integer step.1) step.2) hrun
  have hsame : between = params := by
    cases hn : Dependaboard.integer n with
    | error error =>
      rw [hn] at hstored
      cases hstored
    | ok m =>
      rw [hn] at hstored
      exact (Prod.mk.inj (Except.ok.inj hstored)).2.symm
  subst hsame
  exact Numbers.value _ _ _ _ hrest

/-- Pieces written in turn take their places in turn. -/
theorem mapM {γ : Type} {g : γ → Binding β} (placesOf : β → List ℕ)
    (h : ∀ x, Numbers (g x) fun i b k => Takes i (placesOf b) k) (xs : List γ) :
    Numbers (xs.mapM g) fun i bs k => Takes i (bs.flatMap placesOf) k := by
  induction xs with
  | nil =>
    refine (pure []).mono ?_
    rintro i _ _ ⟨rfl, rfl⟩
    exact Takes.nil _
  | cons x rest ih =>
    rw [List.mapM_cons]
    refine ((h x).bind fun b => ih.bind fun bs => pure (b :: bs)).mono ?_
    rintro i _ _ ⟨b, j, hb, bs, k, hbs, rfl, rfl⟩
    exact hb.append hbs

end Numbers

/-- A piece whose clauses take the places of its values. -/
abbrev TakesPlaces (m : Binding (List WrittenClause)) : Prop :=
  Numbers m fun i written k => Takes i (written.flatMap Clause.places) k

theorem takes_pure_nil : TakesPlaces (pure []) := by
  refine (Numbers.pure []).mono ?_
  rintro i _ _ ⟨rfl, rfl⟩
  exact Takes.nil _

/-- Texts bound in turn. -/
theorem numbers_texts {γ : Type} (text : γ → String) (xs : List γ) :
    Numbers (xs.mapM fun x => bindText (text x)) fun i places k => Takes i places k := by
  refine (Numbers.mapM (fun place => [place]) (fun x => Numbers.value _) xs).mono ?_
  intro i places k htakes
  rwa [List.flatMap_singleton'] at htakes

theorem takes_textClause (clause : ℕ → WrittenClause)
    (hplaces : ∀ place, (clause place).places = [place]) (value : Option String) :
    TakesPlaces (textClause clause value) := by
  cases value with
  | none => exact takes_pure_nil
  | some value =>
    refine ((Numbers.value (.text value)).bind fun place => Numbers.pure [clause place]).mono ?_
    rintro i _ _ ⟨place, k, htakes, rfl, rfl⟩
    rwa [List.flatMap_singleton, hplaces]

theorem takes_textsClause (clause : List ℕ → WrittenClause)
    (hplaces : ∀ places, (clause places).places = places) (values : List String) :
    TakesPlaces (textsClause clause values) := by
  unfold textsClause
  split_ifs
  · exact takes_pure_nil
  · refine ((numbers_texts id values).bind fun places => Numbers.pure [clause places]).mono ?_
    rintro i _ _ ⟨places, k, htakes, rfl, rfl⟩
    rwa [List.flatMap_singleton, hplaces]

theorem takes_labelClauses (labels : List String) : TakesPlaces (labelClauses labels) := by
  refine Numbers.mapM Clause.places (fun label => ?_) labels
  refine ((Numbers.value (.text label)).bind fun place =>
    Numbers.pure (.hasLabel place : WrittenClause)).mono ?_
  rintro i _ _ ⟨place, k, htakes, rfl, rfl⟩
  exact htakes

theorem takes_attentionClause (needsAttention : Bool) (now : ℕ) :
    TakesPlaces (attentionClause needsAttention now) := by
  cases needsAttention with
  | false => exact takes_pure_nil
  | true =>
    have hall := (numbers_texts (toString : CheckStatus → String) [.failure, .none]).bind
      fun failing => (numbers_texts (toString : Mergeable → String)
        (Mergeable.all.filter Mergeable.isConflicting)).bind fun conflicting =>
      (Numbers.value (.text (toString UpdateType.major))).bind fun major =>
      (Numbers.integer (now - staleAfter)).bind fun staleBefore =>
      Numbers.pure [(.needsAttention failing conflicting major staleBefore : WrittenClause)]
    refine Numbers.mono (m := attentionClause true now) hall ?_
    rintro i _ _ ⟨failing, _, hfailing, conflicting, _, hconflicting, major, _, hmajor, stale, _,
      hstale, rfl, rfl⟩
    rw [List.flatMap_singleton, Clause.places]
    exact (hfailing.append hconflicting).append (hmajor.append hstale)

theorem takes_cursorClause (cursor : Option PageCursor) : TakesPlaces (cursorClause cursor) := by
  cases cursor with
  | none => exact takes_pure_nil
  | some cursor =>
    have hboth := (Numbers.integer cursor.updatedAt).bind fun updatedAt =>
      (Numbers.value (.text cursor.id)).bind fun id =>
      Numbers.pure [(.after updatedAt id : WrittenClause)]
    refine Numbers.mono (m := cursorClause (some cursor)) hboth ?_
    rintro i _ _ ⟨updatedAt, _, hupdatedAt, id, _, hid, rfl, rfl⟩
    rw [List.flatMap_singleton]
    exact hupdatedAt.append hid

/-- **The clauses of a filter take the places of its values**, in order and
each once. -/
theorem takes_filterSql (filter : PrFilter) (cursor : Option PageCursor) (now : ℕ) :
    TakesPlaces (filterSql filter cursor now) := by
  have hall := (takes_textClause .query (fun _ => rfl)
      ((nonblank filter.query).map fun query =>
        "%" ++ escapeLike (asciiLowercase (trim query)) ++ "%")).bind fun query =>
    (takes_textsClause .repos (fun _ => rfl) filter.repos).bind fun repos =>
    (takes_textsClause .updateTypes (fun _ => rfl)
      (filter.updateTypes.map toString)).bind fun updateTypes =>
    (takes_textsClause .checkStatuses (fun _ => rfl)
      (filter.checkStatuses.map toString)).bind fun checkStatuses =>
    (takes_labelClauses filter.labels).bind fun labels =>
    (takes_textClause .dependency (fun _ => rfl)
      ((nonblank filter.dependency).map trim)).bind fun dependency =>
    (takes_attentionClause filter.needsAttention now).bind fun needsAttention =>
    (takes_cursorClause cursor).bind fun after =>
    Numbers.pure (query ++ repos ++ updateTypes ++ checkStatuses ++ labels ++ dependency
      ++ needsAttention ++ after)
  refine Numbers.mono (m := filterSql filter cursor now) hall ?_
  rintro i _ _ ⟨query, _, h₁, repos, _, h₂, updateTypes, _, h₃, checkStatuses, _, h₄, labels, _,
    h₅, dependency, _, h₆, attention, _, h₇, after, _, h₈, rfl, rfl⟩
  simp only [List.flatMap_append]
  exact ((((((h₁.append h₂).append h₃).append h₄).append h₅).append h₆).append h₇).append h₈

namespace ScopedFilter

variable {filter : PrFilter} {cursor : Option PageCursor} {now installationId : ℕ}
  {scope : ScopedFilter}

theorem takes_new (h : new filter cursor now installationId = .ok scope) :
    Takes 0 (scope.whereSql.flatMap Clause.places) scope.params.length := by
  have hclause := (takes_filterSql filter cursor now).bind fun clauses =>
    (Numbers.integer installationId).bind fun installation =>
      Numbers.pure (clauses ++ [(.installation installation : WrittenClause)])
  rw [new_eq] at h
  cases hrun : (filterSql filter cursor now >>= fun clauses => bindInteger installationId >>=
      fun place => pure (clauses ++ [(.installation place : WrittenClause)])) [] with
  | error error =>
    rw [hrun] at h
    cases h
  | ok written =>
    obtain ⟨written, params⟩ := written
    rw [hrun] at h
    obtain rfl := Except.ok.inj h
    obtain ⟨clauses, between, hclauses, place, last, hplace, rfl, hlast⟩ :=
      hclause [] written params hrun
    show Takes 0 ((clauses ++ [(.installation place : WrittenClause)]).flatMap Clause.places)
      params.length
    rw [hlast, List.flatMap_append]
    exact hclauses.append hplace

/-- A value of a list mapped is that of an element. -/
theorem exists_of_mem_mapM {α β : Type} {f : α → Option β} {xs : List α} {ys : List β} {y : β}
    (h : xs.mapM f = some ys) (hy : y ∈ ys) : ∃ x ∈ xs, f x = some y := by
  induction xs generalizing ys with
  | nil =>
    obtain rfl := Option.some.inj h
    cases hy
  | cons x rest ih =>
    rw [List.mapM_cons] at h
    obtain ⟨first, hfirst, h⟩ := Option.bind_eq_some_iff.1 h
    obtain ⟨others, hothers, h⟩ := Option.bind_eq_some_iff.1 h
    obtain rfl := Option.some.inj h
    rcases List.mem_cons.1 hy with rfl | hy
    · exact ⟨x, List.mem_cons_self, hfirst⟩
    · obtain ⟨x', hx', hf⟩ := ih hothers hy
      exact ⟨x', List.mem_cons_of_mem _ hx', hf⟩

/-- Bind several values, each behind those before it. -/
def bindAll (scope : ScopedFilter) : List SqlValue → List ℕ × ScopedFilter
  | [] => ([], scope)
  | value :: rest =>
    let (place, bound) := scope.bind value
    let (places, bound) := bound.bindAll rest
    (place :: places, bound)

theorem bindAll_eq (scope : ScopedFilter) (values : List SqlValue) : scope.bindAll values
    = (List.range' (scope.params.length + 1) values.length,
      { scope with params := scope.params ++ values }) := by
  induction values generalizing scope with
  | nil => simp [bindAll]
  | cons value rest ih => simp [bindAll, bind, ih, List.range'_succ]

/-- The values bound behind a clause's are at their places. -/
theorem getElem?_bindAll (scope : ScopedFilter) (values : List SqlValue) :
    List.Forall₂ (fun value place => (scope.bindAll values).2.params[place - 1]? = some value)
      values (scope.bindAll values).1 := by
  induction values generalizing scope with
  | nil => exact .nil
  | cons value rest ih =>
    have hrest := ih (scope.bind value).2
    refine .cons ?_ hrest
    show ((scope.bind value).2.bindAll rest).2.params[scope.params.length]? = some value
    rw [bindAll_eq]
    simp [bind]

/-- A scope is asked for last. -/
theorem exists_installation {params : List SqlValue} {written : List WrittenClause}
    (h : written.mapM (Clause.resolve params) = some (clauses filter cursor now installationId)) :
    ∃ place, .installation place ∈ written ∧ integerAt params place = some installationId := by
  have hmem : .installation installationId ∈ clauses filter cursor now installationId :=
    List.mem_append_right _ (List.mem_singleton_self _)
  obtain ⟨clause, hclause, hresolve⟩ := exists_of_mem_mapM h hmem
  cases clause <;> simp [Clause.resolve, Option.bind_eq_some_iff] at hresolve
  exact ⟨_, hclause, hresolve⟩

end ScopedFilter

/-! ## The statements -/

/-- The columns of `pull_requests`, as they are named. -/
def PrColumn.name : PrColumn → String
  | .id => "id"
  | .repositoryId => "repository_id"
  | .owner => "owner"
  | .repo => "repo"
  | .number => "number"
  | .title => "title"
  | .htmlUrl => "html_url"
  | .dependency => "dependency"
  | .fromVersion => "from_version"
  | .toVersion => "to_version"
  | .dependencies => "dependencies"
  | .updateType => "update_type"
  | .headSha => "head_sha"
  | .checkStatus => "check_status"
  | .mergeable => "mergeable"
  | .labels => "labels"
  | .createdAt => "created_at"
  | .updatedAt => "updated_at"
  | .syncedAt => "synced_at"

/-- The columns of `repositories`. -/
def repoColumns : List String :=
  ["repository_id", "installation_id", "owner", "repo", "merge_method", "synced_at"]

/-- Columns of a table, each under the table's name. -/
def aliased (table : String) (columns : List String) : List Piece :=
  joined (.text ", ") (columns.map fun column => [.text table, .text column])

/-- The columns are named, not starred: a row is read by the places they stand
in. -/
def selectPrSql : List Piece :=
  .text "SELECT " :: (aliased "p." (prColumns.map PrColumn.name)
    ++ [.text ", r.installation_id FROM pull_requests p",
      .text " JOIN repositories r ON r.repository_id = p.repository_id"])

/-- The dashboard's total for a clause. -/
def countSql (scope : ScopedFilter) : List Piece :=
  .text "SELECT COUNT(*) FROM pull_requests p " :: whereText scope.whereSql

/-- One page of a clause's rows, whose limit binds behind the clause's
values. -/
def pageSql (scope : ScopedFilter) (limit : ℕ) : Except StoreError (List Piece × ScopedFilter) := do
  let (limit, scope) := scope.bind (.integer (← integer limit))
  return (selectPrSql ++ .text " " :: (whereText scope.whereSql
    ++ [.text " ORDER BY p.updated_at DESC, p.id DESC LIMIT ", .place limit]), scope)

/-- An installation's repositories, with how many of its pull requests a
clause selects. -/
def repositoryFacetsSql (installationId : ℕ) (scope : ScopedFilter) :
    Except StoreError (List Piece × ScopedFilter) := do
  let (listed, scope) := scope.bind (.integer (← integer installationId))
  return (.text "SELECT " :: (aliased "r." repoColumns
    ++ .text ", COALESCE(c.matching, 0) FROM repositories r " ::
      .text "LEFT JOIN (SELECT p.repository_id, COUNT(*) AS matching FROM pull_requests p " ::
      (whereText scope.whereSql
    ++ [.text " GROUP BY p.repository_id) c ON c.repository_id = r.repository_id",
      .text " WHERE r.installation_id = ", .place listed,
      .text " ORDER BY r.owner COLLATE NOCASE, r.repo COLLATE NOCASE"])), scope)

/-- A statement's placeholders are the places of its parameters, all of
them. -/
def Numbered (sql : List Piece) (params : List SqlValue) : Prop :=
  ∀ n, n ∈ placeholders (render sql) ↔ 1 ≤ n ∧ n ≤ params.length

theorem places_aliased (table : String) (columns : List String) :
    Sql.places (aliased table columns) = [] := by
  rw [aliased, places_joined, List.flatMap_map]
  exact List.flatMap_eq_nil_iff.2 fun _ _ => rfl

theorem spaced_aliased {table : String} {columns : List String} (htable : '?' ∉ table.toList)
    (h : ∀ column ∈ columns, '?' ∉ column.toList) : Spaced (aliased table columns) := by
  refine spaced_joined (noMark rfl) (fun rest => opens_text rfl rest) fun sql hsql => ?_
  obtain ⟨column, hcolumn, rfl⟩ := List.mem_map.1 hsql
  exact ⟨htable, h column hcolumn, trivial⟩

theorem spaced_selectPrSql : Spaced selectPrSql := by
  have hcolumns : ∀ column ∈ prColumns.map PrColumn.name, '?' ∉ column.toList := by decide
  exact ⟨noMark rfl, (spaced_aliased (noMark rfl) hcolumns).append ⟨noMark rfl, noMark rfl, trivial⟩
    (opens_text rfl _)⟩

theorem places_selectPrSql : Sql.places selectPrSql = [] := by
  simp [selectPrSql, places_aliased]

namespace ScopedFilter

variable {filter : PrFilter} {cursor : Option PageCursor} {now installationId : ℕ}
  {scope bound : ScopedFilter} {sql : List Piece}

theorem numbered_whereText (h : new filter cursor now installationId = .ok scope) :
    Numbered (whereText scope.whereSql) scope.params := by
  intro n
  rw [placeholders_render (spaced_whereText _), mem_places_whereText, (takes_new h).mem_iff]
  rfl

theorem numbered_countSql (h : new filter cursor now installationId = .ok scope) :
    Numbered (countSql scope) scope.params := by
  intro n
  have hspaced : Spaced (countSql scope) := ⟨noMark rfl, spaced_whereText _⟩
  rw [placeholders_render hspaced, countSql, places_text,
    ← placeholders_render (spaced_whereText _)]
  exact numbered_whereText h n

/-- A statement with the clause and one place behind the clause's own is
numbered by the parameters and that place's. -/
theorem numbered_of_places (h : new filter cursor now installationId = .ok scope)
    (value : SqlValue) (hspaced : Spaced sql)
    (hplaces : ∀ n, n ∈ Sql.places sql ↔
      n ∈ Sql.places (whereText scope.whereSql) ∨ n = scope.params.length + 1) :
    Numbered sql (scope.params ++ [value]) := by
  intro n
  have hclause := numbered_whereText h n
  rw [placeholders_render (spaced_whereText _)] at hclause
  rw [placeholders_render hspaced, hplaces, hclause, List.length_append, List.length_singleton]
  omega

/-- **A page's statement is numbered by its parameters**, the last of which
is its limit. -/
theorem numbered_pageSql (h : new filter cursor now installationId = .ok scope) {limit : ℕ}
    (hsql : pageSql scope limit = .ok (sql, bound)) :
    Numbered sql bound.params ∧ bound = { scope with params := scope.params ++ [.integer limit] } ∧
      ∃ before place, sql = before ++ [.place place] ∧
        integerAt bound.params place = some limit := by
  obtain ⟨-, hrest⟩ := integer_bind_ok hsql
  obtain ⟨rfl, rfl⟩ := Prod.mk.inj (Except.ok.inj hrest)
  refine ⟨numbered_of_places h _ ?_ fun n => ?_, rfl, ?_⟩
  · have hend : Spaced [.text " ORDER BY p.updated_at DESC, p.id DESC LIMIT ",
        .place (scope.params.length + 1)] := ⟨noMark rfl, opens_nil, trivial⟩
    exact spaced_selectPrSql.append
      ⟨noMark rfl, (spaced_whereText _).append hend (opens_text rfl _)⟩ (opens_text rfl _)
  · simp [places_selectPrSql]
  · refine ⟨selectPrSql ++ .text " " :: (whereText scope.whereSql
      ++ [.text " ORDER BY p.updated_at DESC, p.id DESC LIMIT "]), scope.params.length + 1, ?_, ?_⟩
    · simp
    · simp [integerAt]

/-- **The statement of the repositories' counts is numbered by its
parameters**, the last of which is the installation it lists. -/
theorem numbered_repositoryFacetsSql (h : new filter cursor now installationId = .ok scope)
    {listing : ℕ} (hsql : repositoryFacetsSql listing scope = .ok (sql, bound)) :
    Numbered sql bound.params ∧
      bound = { scope with params := scope.params ++ [.integer listing] } ∧
      ∃ before place after,
        sql = before ++ .text " WHERE r.installation_id = " :: .place place :: after ∧
        integerAt bound.params place = some listing := by
  obtain ⟨-, hrest⟩ := integer_bind_ok hsql
  obtain ⟨rfl, rfl⟩ := Prod.mk.inj (Except.ok.inj hrest)
  refine ⟨numbered_of_places h _ ?_ fun n => ?_, rfl, ?_⟩
  · have hend : Spaced [
        .text " GROUP BY p.repository_id) c ON c.repository_id = r.repository_id",
        .text " WHERE r.installation_id = ", .place (scope.params.length + 1),
        .text " ORDER BY r.owner COLLATE NOCASE, r.repo COLLATE NOCASE"] :=
      ⟨noMark rfl, noMark rfl, opens_text rfl _, noMark rfl, trivial⟩
    have hcolumns : ∀ column ∈ repoColumns, '?' ∉ column.toList := by decide
    exact ⟨noMark rfl, (spaced_aliased (noMark rfl) hcolumns).append
      ⟨noMark rfl, noMark rfl, (spaced_whereText _).append hend (opens_text rfl _)⟩
      (opens_text rfl _)⟩
  · simp [places_aliased]
  · refine ⟨.text "SELECT " :: (aliased "r." repoColumns
      ++ .text ", COALESCE(c.matching, 0) FROM repositories r " ::
        .text "LEFT JOIN (SELECT p.repository_id, COUNT(*) AS matching FROM pull_requests p " ::
        (whereText scope.whereSql
          ++ [.text " GROUP BY p.repository_id) c ON c.repository_id = r.repository_id"])),
      scope.params.length + 1, [.text " ORDER BY r.owner COLLATE NOCASE, r.repo COLLATE NOCASE"],
      ?_, ?_⟩
    · simp
    · simp [integerAt]

end ScopedFilter

/-! ## Every placeholder names its own value -/

end Dependaboard
