import Dependaboard.Dashboard.Summary
/-!
# Dashboard — a facet's count is what choosing it lists

A facet counts its values within the filter less the facet's dimension; the
listing of a filter with one value chosen narrows the same rows by that value.
Both come to a count of the same rows: `facet_counts_what_choosing_lists`.
-/

namespace Dependaboard

open Relational

/-! ## Choosing a value -/

/-- A value of a facet that is counted by what the rows hold. -/
inductive Choice where
  | check (status : CheckStatus)
  | updateType (updateType : UpdateType)
  | label (label : String)
  deriving DecidableEq, Repr

/-- The dimension a value is of. -/
def Choice.facet : Choice → Facet
  | check _ => .checks
  | updateType _ => .updateTypes
  | label _ => .labels

/-- The filter with one value chosen in its own dimension, and no other. -/
def PrFilter.choosing (filter : PrFilter) : Choice → PrFilter
  | .check status => { filter with checkStatuses := [status] }
  | .updateType updateType => { filter with updateTypes := [updateType] }
  | .label label => { filter with labels := [label] }

/-- The row is of the value. -/
def Choice.holds (row : PrRecord) : Choice → Bool
  | check status => row.checkStatus = status
  | updateType value => row.updateType = value
  | label value => value ∈ row.labels

/-- How many pull requests carry the label; none where it is not listed. -/
def FacetCounts.labelCount (facets : FacetCounts) (label : String) : ℕ :=
  ((facets.labels.find? fun facet => facet.label = label).map LabelFacet.count).getD 0

/-- The count of a value. -/
def FacetCounts.count (facets : FacetCounts) : Choice → ℕ
  | .check status => facets.checkCount status
  | .updateType updateType => facets.updateTypeCount updateType
  | .label label => facets.labelCount label

/-- **Choosing a value narrows the rows by it**, and drops what else its
dimension asked for. -/
theorem PrFilter.matches_choosing (filter : PrFilter) (choice : Choice) (store : Store)
    (now : ℕ) (row : PrRecord) : (filter.choosing choice).matches store now row
      = ((withoutFacet filter choice.facet).matches store now row && choice.holds row) := by
  have hcheck {a b : CheckStatus} : toString a = toString b ↔ a = b :=
    ⟨fun h => Option.some.inj (by
      rw [← CheckStatus.fromStr_toString a, h, CheckStatus.fromStr_toString]), fun h => h ▸ rfl⟩
  have htype {a b : UpdateType} : toString a = toString b ↔ a = b :=
    ⟨fun h => Option.some.inj (by
      rw [← UpdateType.fromStr_toString a, h, UpdateType.fromStr_toString]), fun h => h ▸ rfl⟩
  cases choice with
  | check status =>
    have hchosen : [Clause.checkStatuses ([status].map toString)].all (Clause.holds store row)
        = decide (row.checkStatus = status) := by
      simp [Clause.holds, hcheck]
    simp only [PrFilter.matches, clauses, choosing, withoutFacet, Choice.facet, Choice.holds,
      List.all_append, List.cons_ne_nil, if_false, hchosen, if_true, List.all_nil, Bool.and_true]
    ac_rfl
  | updateType value =>
    have hchosen : [Clause.updateTypes ([value].map toString)].all (Clause.holds store row)
        = decide (row.updateType = value) := by
      simp [Clause.holds, htype]
    simp only [PrFilter.matches, clauses, choosing, withoutFacet, Choice.facet, Choice.holds,
      List.all_append, List.cons_ne_nil, if_false, hchosen, if_true, List.all_nil, Bool.and_true]
    ac_rfl
  | label value =>
    have hchosen : ([value].map Clause.hasLabel).all (Clause.holds store row)
        = decide (value ∈ row.labels) := by
      simp [Clause.holds]
    simp only [PrFilter.matches, clauses, choosing, withoutFacet, Choice.facet, Choice.holds,
      List.all_append, hchosen, List.map_nil, List.all_nil, Bool.and_true]
    ac_rfl

namespace ProjectionReader

variable {codec : CursorCodec} {store : Store} {filter : PrFilter} {now installationId : ℕ}

/-! ## The total of a listing -/

/-- The listing of a filter reports a total: its first page is given, and
whatever page of it is given counts that many. -/
structure Reports (codec : CursorCodec) (store : Store) (now installationId : ℕ)
    (filter : PrFilter) (total : ℕ) : Prop where
  given : ∀ limit, ∃ page, listPrs codec store now installationId filter ⟨limit, none⟩ = .ok page
  total : ∀ asked page, listPrs codec store now installationId filter asked = .ok page →
    page.total = total

/-- **The total of a listing** is the number of rows its filter matches. -/
theorem reports_matching (codec : CursorCodec) (store : Store)
    (hfits : ScopedFilter.Fits filter none now installationId) :
    Reports codec store now installationId filter
      (store.matching filter now installationId).length where
  given limit := ⟨_, listPrs_eq store hfits (rfl : cursorAfter codec none = .ok none)
    hfits.cursor limit⟩
  total asked page h := by
    obtain ⟨scope, hscope, hselects⟩ := ScopedFilter.new_ok hfits
    rw [listPrs, hscope, Except.ok_bind, selected_eq hselects] at h
    obtain ⟨cursor, -, h⟩ := Except.bind_ok h
    obtain ⟨paged, -, h⟩ := Except.bind_ok h
    obtain ⟨found, -, h⟩ := Except.bind_ok h
    rw [← Except.ok.inj h]

/-! ## The counts -/

/-- A label stands among the labels of some rows as often as rows carry it,
where a row's labels are distinct. -/
theorem countP_flatMap_labels {rows : List PrRecord} (h : ∀ row ∈ rows, row.labels.Nodup)
    (label : String) : (rows.flatMap PrRecord.labels).countP (fun value => id value = label)
      = rows.countP fun row => label ∈ row.labels := by
  induction rows with
  | nil => rfl
  | cons row rest ih =>
    rw [List.forall_mem_cons] at h
    have hrow : row.labels.countP (fun value => id value = label)
        = if label ∈ row.labels then 1 else 0 := by
      have hcount : row.labels.countP (fun value => id value = label) = row.labels.count label :=
        List.countP_congr fun value _ => by simp
      rw [hcount, h.1.count]
    rw [List.flatMap_cons, List.countP_append, ih h.2, List.countP_cons, hrow, Nat.add_comm]
    simp

/-- The labels of a summary are listed once each. -/
theorem nodup_labels (store : Store) (now installationId : ℕ) (filter : PrFilter) :
    ((summaryOf store now installationId filter).facets.labels.map LabelFacet.label).Nodup := by
  have hgroups : ((groupCounts id ((store.matching (withoutFacet filter .labels) now
      installationId).flatMap PrRecord.labels)).map Prod.fst).Nodup := nodup_groupCounts
  refine ((perm_orderBy _).map LabelFacet.label).nodup_iff.2 ?_
  rwa [List.map_map]

/-- A label's count is how often it stands among the labels of the rows the
filter less its labels matches. -/
theorem labelCount_eq (store : Store) (now installationId : ℕ) (filter : PrFilter)
    (label : String) : (summaryOf store now installationId filter).facets.labelCount label
      = ((store.matching (withoutFacet filter .labels) now installationId).flatMap
          PrRecord.labels).countP fun value => id value = label := by
  let listed : Table LabelFacet String LabelFacet.label :=
    ⟨_, nodup_labels store now installationId filter⟩
  have hlisted (value : String) (count : ℕ) :
      (listed.find? value).map LabelFacet.count = some count ↔
        (value, count) ∈ groupCounts id ((store.matching (withoutFacet filter .labels) now
          installationId).flatMap PrRecord.labels) := by
    rw [Option.map_eq_some_iff]
    constructor
    · rintro ⟨facet, hfacet, rfl⟩
      obtain ⟨hmem, rfl⟩ := Table.find?_eq_some.1 hfacet
      obtain ⟨group, hgroup, rfl⟩ := List.mem_map.1 (mem_orderBy.1 hmem)
      exact hgroup
    · intro hgroup
      have hmem : (⟨value, count⟩ : LabelFacet) ∈ listed.rows :=
        mem_orderBy.2 (List.mem_map.2 ⟨_, hgroup, rfl⟩)
      exact ⟨⟨value, count⟩, Table.find?_eq_some.2 ⟨hmem, rfl⟩, rfl⟩
  exact getD_eq_countP hlisted label

/-- **A value's count** is the number of rows of that value the filter less
its dimension matches. -/
theorem count_eq (hlabels : ∀ row ∈ store.pullRequests.rows, row.labels.Nodup)
    (now installationId : ℕ) (filter : PrFilter) (choice : Choice) :
    (summaryOf store now installationId filter).facets.count choice
      = (store.matching (withoutFacet filter choice.facet) now installationId).countP
          fun row => choice.holds row := by
  cases choice with
  | check status => exact countsOf_getD PrRecord.checkStatus _ status
  | updateType updateType => exact countsOf_getD PrRecord.updateType _ updateType
  | label label =>
    refine (labelCount_eq store now installationId filter label).trans ?_
    exact countP_flatMap_labels (fun row hrow => hlabels row (List.mem_of_mem_filter hrow)) label

/-- **A facet counts what choosing it lists**: for every check status, update
type and label, the count the summary gives, none where it lists no such
value, is the total of the listing with that value chosen in its dimension.
What SQLite has no integer for, both refuse. -/
theorem facet_counts_what_choosing_lists (codec : CursorCodec) {store : Store}
    (hlabels : ∀ row ∈ store.pullRequests.rows, row.labels.Nodup) (filter : PrFilter)
    (now installationId : ℕ) :
    (ScopedFilter.Fits filter none now installationId →
      ∃ summary, dashboardSummary store now installationId filter = .ok summary ∧
        (summary.facets.labels.map LabelFacet.label).Nodup ∧
        ∀ choice, Reports codec store now installationId (filter.choosing choice)
          (summary.facets.count choice)) ∧
    (¬ ScopedFilter.Fits filter none now installationId →
      dashboardSummary store now installationId filter = .error .integerOverflow ∧
        ∀ choice asked, listPrs codec store now installationId (filter.choosing choice) asked
          = .error .integerOverflow) := by
  have hchosen (choice : Choice) : ScopedFilter.Fits (filter.choosing choice) none now
      installationId ↔ ScopedFilter.Fits filter none now installationId := by
    cases choice <;> exact ⟨fun h => ⟨h.attention, h.cursor, h.installation⟩,
      fun h => ⟨h.attention, h.cursor, h.installation⟩⟩
  refine ⟨fun hfits => ?_, fun hfits => ⟨dashboardSummary_error store hfits, fun choice asked =>
    listPrs_error codec store (fun h => hfits ((hchosen choice).1 h)) asked⟩⟩
  refine ⟨_, dashboardSummary_eq store hfits, nodup_labels store now installationId filter,
    fun choice => ?_⟩
  have hrows : (store.matching (filter.choosing choice) now installationId).length
      = (summaryOf store now installationId filter).facets.count choice := by
    rw [count_eq hlabels, List.countP_eq_length_filter, Store.matching, Store.matching,
      List.filter_filter]
    congr 2
    funext row
    rw [PrFilter.matches_choosing, Bool.and_right_comm, Bool.and_comm]
  rw [← hrows]
  exact reports_matching codec store ((hchosen choice).2 hfits)

theorem facet_counts_what_choosing_lists_sample :
    ∃ summary, dashboardSummary sampleProjection 1000 9 default = .ok summary ∧
      (summary.facets.labels.map LabelFacet.label).Nodup ∧
      ∀ choice, Reports cursorJson sampleProjection 1000 9 (PrFilter.choosing default choice)
        (summary.facets.count choice) :=
  (facet_counts_what_choosing_lists cursorJson (by decide) default 1000 9).1
    ⟨by decide, by decide, by decide⟩

end ProjectionReader

end Dependaboard
