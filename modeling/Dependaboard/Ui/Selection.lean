import Dependaboard.Core.Dashboard
import Dependaboard.Relational.Table
import Dependaboard.Ui.Fault
/-!
# Ui — the rows picked for a bulk action

The filter, the page and the selection of a dashboard, and what the controls
do to them. The rows are read for the filter and the cursor in force and land
in their own time; what landed last stands until then. So does the read
behind "select all matching".
-/

namespace Dependaboard

namespace Ui

open Relational

/-- What the dashboard has heard in answer to one question. -/
inductive Remote (α : Type) where
  /-- The first answer has not arrived. -/
  | loading
  /-- It could not be had, and what the user reads of it. -/
  | failed (error : String)
  | loaded (answer : α)

namespace Remote

variable {α : Type}

/-- What a resource's answer means, every read of one having gone through the
guard. -/
def fromFaulted : Except Fault α → Remote α
  | .error fault => .failed (toString fault)
  | .ok answer => .loaded answer

/-- An answer still awaited, or one that failed, has no rows to offer. -/
def loaded? : Remote α → Option α
  | .loaded answer => some answer
  | _ => none

end Remote

/-- The rows picked, as they were when picked, under the filter they were
picked in. -/
structure Selection where
  /-- Each as it was when picked. -/
  rows : Table PrRecord String PrRecord.id
  /-- How many rows the filter matched, where the batch limit left some of
  them out. -/
  cappedFrom : Option ℕ

instance : Inhabited Selection := ⟨⟨.empty, none⟩⟩

/-- An answer of the read model's, and the filter it was asked for. -/
structure ReadAnswer where
  filter : PrFilter
  page : DashboardPage
  /-- It answers "select all matching", not the page. -/
  matching : Bool
  deriving DecidableEq, Repr

/-- The dashboard, as its controls find it. -/
structure DashboardState where
  filter : PrFilter
  cursor : Option String
  selected : Selection
  /-- The rows that landed last. -/
  page : Remote DashboardPage
  /-- The filter they were read for. -/
  shownFor : Option PrFilter
  /-- The read of the rows in flight, for a filter and a cursor. -/
  reading : Option (PrFilter × Option String)
  /-- The filters "select all matching" waits for. -/
  matching : List PrFilter
  /-- What the read model has answered. -/
  answers : List ReadAnswer

/-- A value of a facet, where a control stands for it. -/
inductive FacetValue where
  | repo (repo : String)
  | updateType (updateType : UpdateType)
  | check (status : CheckStatus)
  | label (label : String)

/-- A facet's value leaves the filter where it is in it and joins it behind
the others where it is not. -/
def toggleValue {α : Type} [DecidableEq α] (values : List α) (value : α) : List α :=
  if value ∈ values then values.erase value else values ++ [value]

namespace DashboardState

/-! ## The filter and the page -/

/-- The rows and the cap note go together. -/
def clearSelection (s : DashboardState) : DashboardState := { s with selected := default }

/-- Change the filter, start the pages again, and drop the selection. -/
def updateFilter (s : DashboardState) (change : PrFilter → PrFilter) : DashboardState :=
  { s with filter := change s.filter, cursor := none }.clearSelection

/-- Move to a filter and a cursor together. -/
def navigate (s : DashboardState) (filter : PrFilter) (cursor : Option String) :
    DashboardState :=
  let s := if s.filter ≠ filter then { s with filter := filter }.clearSelection else s
  { s with cursor := cursor }

/-- Each facet has a list of its own in the filter. -/
def toggleFilter (s : DashboardState) (value : FacetValue) : DashboardState :=
  s.updateFilter fun filter => match value with
    | .repo repo => { filter with repos := toggleValue filter.repos repo }
    | .updateType updateType =>
      { filter with updateTypes := toggleValue filter.updateTypes updateType }
    | .check status => { filter with checkStatuses := toggleValue filter.checkStatuses status }
    | .label label => { filter with labels := toggleValue filter.labels label }

/-- Have every one of `repos` in the filter, or none. -/
def selectRepos (s : DashboardState) (repos : List String) (select : Bool) : DashboardState :=
  s.updateFilter fun filter => repos.foldl (fun filter repo =>
    match decide (repo ∈ filter.repos), select with
    | false, true => { filter with repos := filter.repos ++ [repo] }
    | true, false => { filter with repos := filter.repos.erase repo }
    | _, _ => filter) filter

/-- Every filter dropped, by the way any other change of the
filter is made. -/
def clearFilters (s : DashboardState) : DashboardState := s.updateFilter fun _ => default

/-- The selection stays: it belongs to the filter, so that rows picked across
pages add up. -/
def loadNext (s : DashboardState) (cursor : String) : DashboardState :=
  { s with cursor := some cursor }

/-! ## The selection -/

/-- A row is selected by its id, whatever page or filter it was
picked under. -/
def isSelected (s : DashboardState) (id : String) : Bool := (s.selected.rows.find? id).isSome

/-- The rows shown. -/
def shown (s : DashboardState) : List PrRecord := s.page.loaded?.elim [] DashboardPage.rows

/-- How many of the rows on screen are selected. -/
def visibleSelectedCount (s : DashboardState) : ℕ := s.shown.countP fun row => s.isSelected row.id

/-- The page has rows, and every one of them is selected. -/
def allVisibleSelected (s : DashboardState) : Bool :=
  s.page.loaded?.any fun page =>
    !page.rows.isEmpty && s.visibleSelectedCount == page.rows.length

/-- A selection edited by hand is no longer the first so many that match, so
the cap note goes. -/
def toggleSelected (s : DashboardState) (row : PrRecord) : DashboardState :=
  { s with selected :=
    { rows := if s.isSelected row.id then s.selected.rows.remove row.id
        else s.selected.rows.upsert row
      cappedFrom := none } }

/-- The rows on screen are all selected, or all let go where every one of them
is. -/
def toggleVisible (s : DashboardState) : DashboardState :=
  match s.page.loaded? with
  | none => s
  | some page =>
    { s with selected :=
      { rows := if s.allVisibleSelected then
            (page.rows.map PrRecord.id).foldl Table.remove s.selected.rows
          else page.rows.foldl Table.upsert s.selected.rows
        cappedFrom := none } }

/-- Replace the selection with the answer to "select all matching", unless the
filter has moved on. -/
def selectMatching (s : DashboardState) (filter : PrFilter) (matching : DashboardPage) :
    DashboardState :=
  if s.filter ≠ filter then s
  else { s with selected :=
    { rows := .collect matching.rows
      cappedFrom := if matching.rows.length < matching.total then some matching.total else none } }

/-- Take rows out of the selection. -/
def deselect (s : DashboardState) (rows : List PrRecord) : DashboardState :=
  if rows.any fun row => s.isSelected row.id then
    { s with selected :=
      { rows := (rows.map PrRecord.id).foldl Table.remove s.selected.rows, cappedFrom := none } }
  else s

/-- Newest update first, as the table lists them. -/
def newestFirst (a b : PrRecord) : Bool :=
  decide (b.updatedAt < a.updatedAt ∨ b.updatedAt = a.updatedAt ∧ b.id ≤ a.id)

/-- The rows selected, each as the page shows it where it does. -/
def selectedRows (s : DashboardState) : List PrRecord :=
  (s.selected.rows.rows.map fun remembered =>
    (s.shown.find? fun row => row.id = remembered.id).getD remembered).mergeSort newestFirst

end DashboardState

/-! ## What happens to it -/

/-- What a control does, or an answer. -/
inductive Act where
  | updateFilter (change : PrFilter → PrFilter)
  | toggleFilter (value : FacetValue)
  | selectRepos (repos : List String) (select : Bool)
  | clearFilters
  | navigate (filter : PrFilter) (cursor : Option String)
  | loadNext (cursor : String)
  /-- The rows are asked for, in place of the read in flight. -/
  | ask
  /-- The read in flight is answered. -/
  | land (answer : Except Fault DashboardPage)
  | toggleSelected (row : PrRecord)
  | toggleVisible
  | deselect (rows : List PrRecord)
  /-- Select all matching, for the filter in force. -/
  | selectAll
  /-- What matches a filter is answered. -/
  | matched (filter : PrFilter) (answer : Except Fault DashboardPage)

namespace DashboardState

/-- The dashboard as it opens, its rows asked for. -/
def opened (filter : PrFilter) (cursor : Option String) : DashboardState where
  filter := filter
  cursor := cursor
  selected := default
  page := .loading
  shownFor := none
  reading := some (filter, cursor)
  matching := []
  answers := []

/-- It can be done: the row is shown, the answer is waited for. -/
def CanDo (s : DashboardState) : Act → Prop
  | .land _ => s.reading ≠ none
  | .toggleSelected row => row ∈ s.shown
  | .matched filter _ => filter ∈ s.matching
  | _ => True

/-- The calls behind what is done, and what an answer leaves when it lands. -/
def act (s : DashboardState) : Act → DashboardState
  | .updateFilter change => s.updateFilter change
  | .toggleFilter value => s.toggleFilter value
  | .selectRepos repos select => s.selectRepos repos select
  | .clearFilters => s.clearFilters
  | .navigate filter cursor => s.navigate filter cursor
  | .loadNext cursor => s.loadNext cursor
  | .ask => { s with reading := some (s.filter, s.cursor) }
  | .land answer =>
    match s.reading with
    | none => s
    -- The filter is the one the read was begun for, in force or not.
    | some (filter, _) =>
      { s with
        page := .fromFaulted answer
        shownFor := some filter
        reading := none
        answers := s.answers ++ answer.toOption.toList.map fun page => ⟨filter, page, false⟩ }
  | .toggleSelected row => s.toggleSelected row
  | .toggleVisible => s.toggleVisible
  | .deselect rows => s.deselect rows
  | .selectAll => { s with matching := s.filter :: s.matching }
  | .matched filter answer =>
    let s := { s with matching := s.matching.erase filter }
    match answer with
    | .error _ => s
    | .ok matching =>
      { s.selectMatching filter matching with
        answers := s.answers ++ [⟨filter, matching, true⟩] }

end DashboardState

/-- **A dashboard as it comes to be**, of acts `Allowed` where they are
done. -/
inductive Comes (Allowed : DashboardState → Act → Prop) : DashboardState → Prop where
  | opened (filter : PrFilter) (cursor : Option String) : Comes Allowed (.opened filter cursor)
  | act {s : DashboardState} {act : Act} (h : Comes Allowed s) (hdo : s.CanDo act)
      (hallowed : Allowed s act) : Comes Allowed (s.act act)

end Ui

end Dependaboard
