import Dependaboard.Store.CursorJson
import Dependaboard.Store.Selected
/-!
# Dashboard — following the pages

A reader asks for the first page, then for the one after each page's cursor,
until a page has none. The rows a filter matches stand strictly in order, so
those after a cursor are those behind the row it names, and every page takes
the next of them: `pages_show_each_match_once`.
-/

namespace Dependaboard

open Relational

/-! ## Times that fit

A row's time of update is an SQLite integer: an upsert refuses any other,
and no other write makes one. -/

/-- Every row's time of update is an SQLite integer. -/
def Store.Sized (store : Store) : Prop := ∀ row ∈ store.pullRequests.rows, row.updatedAt < i64Size

theorem Store.Sized.upsertPr {store store' : Store} {pr : PrRecord} (hsized : store.Sized)
    (h : store.upsertPr pr = .ok store') : store'.Sized := by
  obtain ⟨hrepo, rfl⟩ := upsertPr_ok h
  have hupdated : pr.updatedAt < i64Size := by
    obtain ⟨_, -, h⟩ := Except.bind_ok h
    obtain ⟨_, -, h⟩ := Except.bind_ok h
    obtain ⟨_, -, h⟩ := Except.bind_ok h
    obtain ⟨_, hupdated, -⟩ := Except.bind_ok h
    exact lt_of_integer_ok hupdated
  intro row hrow
  rcases Table.mem_upsert.1 hrow with ⟨hrow, -⟩ | rfl
  · exact hsized row hrow
  · exact hupdated

theorem Store.Sized.deletePullRequests {store : Store} (hsized : store.Sized)
    (p : PrRecord → Bool) : (store.deletePullRequests p).Sized :=
  fun row hrow => hsized row (Table.mem_delete.1 hrow).1

theorem Store.Sized.deleteRepositories {store : Store} (hsized : store.Sized)
    (predicate : RepoRecord → Bool) : (store.deleteRepositories predicate).Sized :=
  fun row hrow => hsized row (Table.mem_delete.1 hrow).1

/-! ## The rows in order -/

/-- The order of rows tells any two of them apart. -/
theorem Store.eq_of_order_eq {store : Store} {a b : PrRecord} (ha : a ∈ store.pullRequests.rows)
    (hb : b ∈ store.pullRequests.rows) (h : a.order = b.order) : a = b :=
  Store.eq_of_id_eq ha hb (String.toList_inj.1 (Prod.mk.inj (toLex.injective h)).2)

/-- Following a cursor is standing behind the row it names. -/
theorem PrRecord.follows_row (row other : PrRecord) :
    other.follows (some ⟨row.updatedAt, row.id⟩) = decide (other.order < row.order) := by
  simp [follows, order, Prod.Lex.toLex_lt_toLex]

/-- Every row hangs off a repository, so none is lost by joining it. -/
theorem ProjectionReader.map_selectPr (store : Store) (p : PrRecord → Bool) :
    ((selectPr store).filter fun entry => p entry.1).map Prod.fst
      = store.pullRequests.rows.filter p := by
  have howned := store.owned
  unfold selectPr
  generalize store.pullRequests.rows = rows at howned
  induction rows with
  | nil => rfl
  | cons row rest ih =>
    rw [List.forall_mem_cons] at howned
    obtain ⟨repo, hrepo⟩ := Option.isSome_iff_exists.1 howned.1
    rw [List.filterMap_cons_some (b := (row, repo.installationId))
      (by rw [Store.repository?, hrepo]; rfl)]
    cases hp : p row with
    | true => simpa [List.filter_cons, hp] using ih howned.2
    | false => simpa [List.filter_cons, hp] using ih howned.2

/-- The rows of a filter, of an installation. -/
def Store.matching (store : Store) (filter : PrFilter) (now installationId : ℕ) : List PrRecord :=
  store.pullRequests.rows.filter fun row =>
    filter.matches store now row && store.owns installationId row

/-- The rows of a filter, of an installation, from the last. -/
def Store.listed (store : Store) (filter : PrFilter) (now installationId : ℕ) : List PrRecord :=
  orderByDesc PrRecord.order (store.matching filter now installationId)

section Listed

variable (store : Store) (filter : PrFilter) (now installationId : ℕ)

theorem Store.nodup_matching :
    ((store.matching filter now installationId).map
      fun row => OrderDual.toDual row.order).Nodup := by
  have hrows : store.pullRequests.rows.Nodup := store.pullRequests.unique.of_map
  refine (hrows.filter _).map_on fun a ha b hb heq => ?_
  exact Store.eq_of_order_eq (List.mem_of_mem_filter ha) (List.mem_of_mem_filter hb)
    (OrderDual.toDual.injective heq)

theorem Store.pairwise_listed :
    (store.listed filter now installationId).Pairwise fun a b => b.order < a.order :=
  pairwise_lt_orderBy (store.nodup_matching filter now installationId)

/-- The rows after a cursor are the ordered ones it is followed by. -/
theorem Store.listed_follows (cursor : Option PageCursor) :
    orderByDesc PrRecord.order (store.pullRequests.rows.filter
        (ScopedFilter.meaning filter cursor now installationId store))
      = (store.listed filter now installationId).filter fun row => row.follows cursor := by
  have hdual := filter_orderBy (store.nodup_matching filter now installationId)
    fun row => row.follows cursor
  rw [listed, orderByDesc, orderByDesc, hdual, matching, List.filter_filter]
  congr 2
  funext row
  rw [ScopedFilter.meaning]
  cases filter.matches store now row <;> cases row.follows cursor <;> rfl

end Listed

/-! ## One page -/

namespace ProjectionReader

variable {codec : CursorCodec} {store : Store} {filter : PrFilter} {now installationId : ℕ}

/-- The page that takes the first of what is left. -/
def pageOf (codec : CursorCodec) (limit total : ℕ) (rest : List PrRecord) : DashboardPage where
  rows := rest.take limit
  total := total
  nextCursor := if limit < rest.length then
      (rest.take limit).getLast?.map fun row => codec.encode ⟨row.updatedAt, row.id⟩
    else none

/-- The rows of a page's query are the first of those its clause selects. -/
theorem pageRows_eq {cursor : Option PageCursor} {scope : ScopedFilter} {limit : ℕ}
    (hlimit : limit < i64Size)
    (hselects : ∀ store more row, ScopedFilter.selects store
      { scope with params := scope.params ++ more } row
        = ScopedFilter.meaning filter cursor now installationId store row) :
    pageRows store scope limit
      = .ok (((store.listed filter now installationId).filter fun row =>
          row.follows cursor).take limit) := by
  rw [pageRows, integer_of_lt hlimit, Except.ok_bind]
  have hplace : integerAt (scope.params ++ [.integer limit]) (scope.params.length + 1)
      = some limit := by
    rw [integerAt, Nat.add_sub_cancel, List.getElem?_append_right (Nat.le_refl _)]
    simp
  have hrows : (orderByDesc (fun entry : PrRecord × ℕ => entry.1.order)
      ((selectPr store).filter fun entry =>
        ScopedFilter.meaning filter cursor now installationId store entry.1)).map Prod.fst
      = orderByDesc PrRecord.order (store.pullRequests.rows.filter
        (ScopedFilter.meaning filter cursor now installationId store)) := by
    rw [← map_selectPr store]
    exact map_orderByDesc Prod.fst _
  simp only [ScopedFilter.bind, hselects, hplace, Option.getD_some]
  rw [← store.listed_follows, ← hrows]
  rfl

/-- The rows a clause of no cursor selects are those its filter matches. -/
theorem selected_eq {scope : ScopedFilter}
    (hselects : ∀ store more row, ScopedFilter.selects store
      { scope with params := scope.params ++ more } row
        = ScopedFilter.meaning filter none now installationId store row) (store : Store) :
    selected store scope = store.matching filter now installationId := by
  refine List.filter_congr fun row _ => ?_
  have hrow := hselects store [] row
  rw [List.append_nil] at hrow
  rw [hrow, ScopedFilter.meaning, PrRecord.follows, Option.all_none, Bool.and_true]

/-- **One page of a listing**: the first of the rows after its cursor, the
number there are in all, and a cursor where there are more. -/
theorem listPrs_eq (store : Store) {after : Option String} {cursor : Option PageCursor}
    (hfits : ScopedFilter.Fits filter none now installationId)
    (hafter : cursorAfter codec after = .ok cursor) (hcursor : ∀ c ∈ cursor, c.updatedAt < i64Size)
    (limit : ℕ) : listPrs codec store now installationId filter ⟨limit, after⟩
      = .ok (pageOf codec (Page.normalizedLimit ⟨limit, after⟩)
          (store.matching filter now installationId).length
          ((store.listed filter now installationId).filter fun row => row.follows cursor)) := by
  obtain ⟨counted, hcounted, hall⟩ := ScopedFilter.new_ok hfits
  obtain ⟨paged, hpaged, hafterwards⟩ := ScopedFilter.new_ok
    (⟨hfits.attention, hcursor, hfits.installation⟩ :
      ScopedFilter.Fits filter cursor now installationId)
  have hlimit : Page.normalizedLimit ⟨limit, after⟩ + 1 < i64Size := by
    unfold Page.normalizedLimit maxPageSize i64Size
    omega
  have hrows := @pageRows_eq store _ _ _ _ _ _ hlimit hafterwards
  have hmore (size left : ℕ) : size < min (size + 1) left ↔ size < left := by omega
  rw [listPrs, hcounted, Except.ok_bind, hafter, Except.ok_bind, hpaged, Except.ok_bind]
  simp only [hrows, Except.ok_bind, selected_eq hall, List.take_take, List.length_take,
    Nat.min_eq_left (Nat.le_succ _), hmore]
  rfl

theorem listPrs_error (codec : CursorCodec) (store : Store)
    (hfits : ¬ ScopedFilter.Fits filter none now installationId) (page : Page) :
    listPrs codec store now installationId filter page = .error .integerOverflow := by
  rw [listPrs, ScopedFilter.new_error hfits]
  rfl

/-! ## Page after page -/

/-- The pages a reader is given who asks for the one after each page's cursor
until a page has none. -/
inductive Follows (read : Option String → Except StoreError DashboardPage) :
    Option String → List DashboardPage → Prop
  /-- A page without a cursor is the last. -/
  | last {after page} : read after = .ok page → page.nextCursor = none → Follows read after [page]
  /-- A page with one is followed by those after it. -/
  | next {after page cursor pages} : read after = .ok page → page.nextCursor = some cursor →
      Follows read (some cursor) pages → Follows read after (page :: pages)

theorem Follows.ne_nil {read : Option String → Except StoreError DashboardPage}
    {after : Option String} {pages : List DashboardPage} (h : Follows read after pages) :
    pages ≠ [] := by
  cases h <;> exact List.cons_ne_nil _ _

/-- **A reader is given one list of pages.** -/
theorem Follows.unique {read : Option String → Except StoreError DashboardPage}
    {after : Option String} {pages pages' : List DashboardPage} (h : Follows read after pages)
    (h' : Follows read after pages') : pages' = pages := by
  induction h generalizing pages' with
  | last hread hnone =>
    cases h' with
    | last hread' _ => rw [hread] at hread'; rw [Except.ok.inj hread']
    | next hread' hsome _ =>
      rw [hread] at hread'
      rw [← Except.ok.inj hread', hnone] at hsome
      cases hsome
  | next hread hsome _ ih =>
    cases h' with
    | last hread' hnone =>
      rw [hread] at hread'
      rw [← Except.ok.inj hread', hsome] at hnone
      cases hnone
    | next hread' hsome' hrest =>
      rw [hread] at hread'
      obtain rfl := Except.ok.inj hread'
      rw [hsome] at hsome'
      obtain rfl := Option.some.inj hsome'
      rw [ih hrest]

/-- **The pages after a cursor show what is left**: each row once, in order,
every page but the last of them full. -/
theorem exists_follows (hsized : store.Sized)
    (hfits : ScopedFilter.Fits filter none now installationId) (limit : ℕ)
    {after : Option String} {cursor : Option PageCursor} {before rest : List PrRecord}
    (hafter : cursorAfter codec after = .ok cursor) (hcursor : ∀ c ∈ cursor, c.updatedAt < i64Size)
    (hlisted : store.listed filter now installationId = before ++ rest)
    (hrest : (store.listed filter now installationId).filter
      (fun row => row.follows cursor) = rest) :
    ∃ pages, Follows (fun after => listPrs codec store now installationId filter ⟨limit, after⟩)
        after pages ∧
      pages.flatMap DashboardPage.rows = rest ∧
      (∀ page ∈ pages.dropLast, page.rows.length = Page.normalizedLimit ⟨limit, none⟩) ∧
      ∀ page ∈ pages, page.total = (store.matching filter now installationId).length := by
  -- what is left grows shorter with every page
  have hread := listPrs_eq store hfits hafter hcursor limit
  rw [hrest] at hread
  have hsame : Page.normalizedLimit ⟨limit, after⟩ = Page.normalizedLimit ⟨limit, none⟩ := rfl
  have hpositive : 0 < Page.normalizedLimit ⟨limit, none⟩ := by
    unfold Page.normalizedLimit
    omega
  rw [hsame] at hread
  generalize hsize : Page.normalizedLimit ⟨limit, none⟩ = size at hread hpositive
  by_cases hmore : size < rest.length
  · -- the page is full, and its last row is where the next begins
    obtain ⟨shown, row, hshown⟩ : ∃ shown row, rest.take size = shown ++ [row] :=
      ⟨_, _, (List.dropLast_append_getLast (List.ne_nil_of_length_pos
        (by rw [List.length_take]; omega))).symm⟩
    have hsplit : rest = shown ++ row :: rest.drop size := by
      rw [← List.singleton_append, ← List.append_assoc, ← hshown, List.take_append_drop]
    have hrow : row ∈ store.listed filter now installationId := by
      rw [hlisted, hsplit]
      simp
    have hbound : row.updatedAt < i64Size :=
      hsized row (List.mem_of_mem_filter (mem_orderByDesc.1 hrow))
    have hnext : cursorAfter codec (some (codec.encode ⟨row.updatedAt, row.id⟩))
        = .ok (some ⟨row.updatedAt, row.id⟩) := by
      rw [cursorAfter, codec.decode_encode _ (lt_of_lt_of_le hbound (by decide))]
    have hlisted' : store.listed filter now installationId
        = (before ++ shown) ++ row :: rest.drop size := by
      rw [hlisted, List.append_assoc, ← hsplit]
    have hbehind : (store.listed filter now installationId).filter
        (fun other => other.follows (some ⟨row.updatedAt, row.id⟩)) = rest.drop size := by
      have hsorted := store.pairwise_listed filter now installationId
      rw [hlisted'] at hsorted ⊢
      simp only [PrRecord.follows_row]
      have hdual : (before ++ shown ++ row :: rest.drop size).Pairwise fun a b =>
          OrderDual.toDual a.order < OrderDual.toDual b.order := hsorted
      exact filter_lt_of_pairwise hdual
    have hshorter : (rest.drop size).length < rest.length := by
      rw [List.length_drop]
      omega
    have hthrough : store.listed filter now installationId
        = (before ++ shown ++ [row]) ++ rest.drop size := by
      rw [hlisted', List.append_assoc _ [row]]
      rfl
    obtain ⟨pages, hpages, hrows, hfull, htotal⟩ := exists_follows hsized hfits limit hnext
      (fun c hc => Option.some.inj hc ▸ hbound) hthrough hbehind
    have hcursor' : (pageOf codec size (store.matching filter now installationId).length
        rest).nextCursor = some (codec.encode ⟨row.updatedAt, row.id⟩) := by
      rw [pageOf, if_pos hmore, hshown, List.getLast?_concat]
      rfl
    refine ⟨_, .next hread hcursor' hpages, ?_, ?_, ?_⟩
    · rw [List.flatMap_cons, hrows]
      exact List.take_append_drop size rest
    · intro page hpage
      rw [List.dropLast_cons_of_ne_nil hpages.ne_nil] at hpage
      rcases List.mem_cons.1 hpage with rfl | hpage
      · rw [pageOf, List.length_take, Nat.min_eq_left (Nat.le_of_lt hmore)]
      · exact (hfull page hpage).trans hsize
    · rintro page hpage
      rcases List.mem_cons.1 hpage with rfl | hpage
      · rfl
      · exact htotal page hpage
  · refine ⟨[pageOf codec size _ rest], .last hread (if_neg hmore), ?_, nofun, ?_⟩
    · simp [pageOf, List.take_of_length_le (Nat.le_of_not_lt hmore)]
    · rintro page hpage
      rw [List.mem_singleton.1 hpage]
      rfl
termination_by rest.length

/-- **The pages show each match once**: whoever follows the cursors is given
one list of pages, whose rows are the rows the filter matches of the
installation, strictly from the last; every page but the last is full, and
every page counts them all. What SQLite has no integer for is refused, page
or no page. -/
theorem pages_show_each_match_once (codec : CursorCodec) {store : Store} (hsized : store.Sized)
    (filter : PrFilter) (limit now installationId : ℕ) :
    let read := fun after => listPrs codec store now installationId filter ⟨limit, after⟩
    let matching := store.matching filter now installationId
    (ScopedFilter.Fits filter none now installationId → ∃ pages,
      (∀ given, Follows read none given ↔ given = pages) ∧
      (pages.flatMap DashboardPage.rows).Perm matching ∧
      (pages.flatMap DashboardPage.rows).Pairwise (fun a b => b.order < a.order) ∧
      (∀ page ∈ pages.dropLast, page.rows.length = Page.normalizedLimit ⟨limit, none⟩) ∧
      ∀ page ∈ pages, page.total = matching.length) ∧
    (¬ ScopedFilter.Fits filter none now installationId →
      ∀ after, read after = .error .integerOverflow) := by
  refine ⟨fun hfits => ?_, fun hfits after => listPrs_error codec store hfits ⟨limit, after⟩⟩
  have hfirst : cursorAfter codec none = .ok none := rfl
  have hwhole : (store.listed filter now installationId).filter (fun row => row.follows none)
      = store.listed filter now installationId := List.filter_eq_self.2 fun _ _ => rfl
  obtain ⟨pages, hpages, hrows, hfull, htotal⟩ := exists_follows hsized hfits limit hfirst
    (by simp) (List.nil_append _).symm hwhole
  refine ⟨pages, fun given => ⟨fun h => hpages.unique h, fun h => h ▸ hpages⟩, ?_, ?_, hfull,
    htotal⟩
  · rw [hrows]
    exact perm_orderByDesc _
  · rw [hrows]
    exact store.pairwise_listed filter now installationId

/-- A pull request of one repository. -/
def samplePr (number updatedAt : ℕ) : PrRecord where
  id := toString (⟨1, number⟩ : PrKey)
  repositoryId := 1
  owner := "acme"
  repo := "api"
  number := number
  title := "Bump serde from 1.0.0 to 1.1.0"
  htmlUrl := "https://github.com/acme/api/pull/1"
  dependency := some "serde"
  fromVersion := some "1.0.0"
  toVersion := some "1.1.0"
  dependencies := [⟨"serde", some "1.0.0", some "1.1.0", .minor⟩]
  updateType := .minor
  headSha := "abc123"
  checkStatus := .success
  mergeable := .clean
  labels := ["dependencies", "rust"]
  createdAt := 10
  updatedAt := updatedAt
  syncedAt := 900

/-- Three pull requests, two of them of one time, whose ids stand the other
way round as text. -/
def sampleProjection : Store where
  repositories := ⟨[⟨1, 9, "acme", "api", none, 900⟩], by decide⟩
  pullRequests := ⟨[samplePr 9 20, samplePr 10 20, samplePr 3 30], by decide⟩
  retirements := .empty
  revision := ⟨4, 3⟩
  owned := by decide
  named := by decide +kernel

theorem pages_show_each_match_once_sample : ∃ pages,
    (∀ given, Follows
      (fun after => listPrs cursorJson sampleProjection 1000 9 default ⟨2, after⟩) none given
        ↔ given = pages) ∧
      (pages.flatMap DashboardPage.rows).Perm (sampleProjection.matching default 1000 9) ∧
      (pages.flatMap DashboardPage.rows).Pairwise (fun a b => b.order < a.order) ∧
      (∀ page ∈ pages.dropLast, page.rows.length = 2) ∧
      ∀ page ∈ pages, page.total = 3 :=
  (pages_show_each_match_once cursorJson (by decide : ∀ row ∈ sampleProjection.pullRequests.rows,
    row.updatedAt < i64Size) default 2 1000 9).1 ⟨by decide, by decide, by decide⟩

end ProjectionReader

end Dependaboard
