import Dependaboard.Ui.Selection
/-!
# Ui — the selection belongs to the filter in force

A filter that changes drops the selection, and an answer to "select all
matching" is not taken once the filter has moved on. The page is not so
guarded: it stands until the next lands, and a row picked from it meanwhile is
of the filter before. `selection_in_force` is that the rest keeps to the
filter.
-/

namespace Dependaboard

namespace Ui

open Relational

namespace DashboardState

/-- The read model answered with the row, for the filter in force. -/
def AnsweredFor (s : DashboardState) (row : PrRecord) : Prop :=
  ∃ answer ∈ s.answers, answer.filter = s.filter ∧ row ∈ answer.page.rows

/-- **The selection is cut short of an answer** to "select all matching" for
the filter in force. -/
structure CutShort (s : DashboardState) (total : ℕ) (answer : ReadAnswer) : Prop where
  answered : answer ∈ s.answers
  matching : answer.matching = true
  filter : answer.filter = s.filter
  short : answer.page.rows.length < answer.page.total
  total : total = answer.page.total
  /-- It is the rows of the answer, all of them and no others. -/
  rows : ∀ row ∈ s.selected.rows.rows, row ∈ answer.page.rows
  all : ∀ row ∈ answer.page.rows, ∃ picked ∈ s.selected.rows.rows, picked.id = row.id

/-- **The selection belongs to the filter in force.** -/
structure InForce (s : DashboardState) : Prop where
  /-- What was picked was answered for it. -/
  picked : ∀ row ∈ s.selected.rows.rows, s.AnsweredFor row
  /-- So are the pull requests an action would take. -/
  captured : ∀ row ∈ s.selectedRows, ∃ answered, s.AnsweredFor answered ∧ answered.id = row.id
  capped : ∀ total, s.selected.cappedFrom = some total → ∃ answer, s.CutShort total answer

/-- The rows an act picks from the page. -/
def picks (s : DashboardState) : Act → List PrRecord
  | .toggleSelected row => if s.isSelected row.id then [] else [row]
  | .toggleVisible => if s.allVisibleSelected then [] else s.shown
  | _ => []

/-- **What is picked from the page is picked while it shows the filter in
force.** -/
def PicksInForce (s : DashboardState) (act : Act) : Prop :=
  s.picks act ≠ [] → s.shownFor = some s.filter

/-- What is answered more of is answered. -/
theorem AnsweredFor.mono {s s' : DashboardState} {row : PrRecord} (hfilter : s'.filter = s.filter)
    (hanswers : ∀ answer ∈ s.answers, answer ∈ s'.answers) (h : s.AnsweredFor row) :
    s'.AnsweredFor row := by
  obtain ⟨answer, hanswer, hfor, hrow⟩ := h
  exact ⟨answer, hanswers answer hanswer, hfor.trans hfilter.symm, hrow⟩

theorem CutShort.mono {s s' : DashboardState} {total : ℕ} {answer : ReadAnswer}
    (hfilter : s'.filter = s.filter) (hselected : s'.selected = s.selected)
    (hanswers : ∀ answer ∈ s.answers, answer ∈ s'.answers) (h : s.CutShort total answer) :
    s'.CutShort total answer :=
  { h with
    answered := hanswers answer h.answered
    filter := h.filter.trans hfilter.symm
    rows := hselected ▸ h.rows
    all := hselected ▸ h.all }

end DashboardState

open DashboardState

/-! ## One act -/

/-- What each act preserves. -/
structure Kept (s : DashboardState) : Prop where
  picked : ∀ row ∈ s.selected.rows.rows, s.AnsweredFor row
  capped : ∀ total, s.selected.cappedFrom = some total → ∃ answer, s.CutShort total answer
  /-- The page shown was answered for the filter it is noted for. -/
  shown : ∀ page, s.page.loaded? = some page →
    ∃ answer ∈ s.answers, s.shownFor = some answer.filter ∧ page = answer.page

theorem Kept.opened (filter : PrFilter) (cursor : Option String) :
    Kept (.opened filter cursor) where
  picked _ hrow := absurd hrow List.not_mem_nil
  capped _ htotal := by cases htotal
  shown _ hpage := by cases hpage

/-- A selection dropped belongs to any filter. -/
theorem Kept.clear {s : DashboardState} (h : Kept s) (filter : PrFilter) (cursor : Option String) :
    Kept { s with filter := filter, cursor := cursor, selected := default } where
  picked _ hrow := absurd hrow List.not_mem_nil
  capped _ htotal := by cases htotal
  shown := h.shown

/-- A selection edited by hand is not cut short. -/
theorem Kept.edit {s : DashboardState} (h : Kept s) {rows : Table PrRecord String PrRecord.id}
    (hrows : ∀ row ∈ rows.rows, row ∈ s.selected.rows.rows ∨ s.AnsweredFor row) :
    Kept { s with selected := ⟨rows, none⟩ } where
  picked row hrow := (hrows row hrow).elim (h.picked row) id
  capped _ htotal := by cases htotal
  shown := h.shown

/-- An answer heard leaves the selection to its filter. -/
theorem Kept.hear {s s' : DashboardState} (h : Kept s) (hfilter : s'.filter = s.filter)
    (hselected : s'.selected = s.selected) (hanswers : ∀ answer ∈ s.answers, answer ∈ s'.answers)
    (hshown : ∀ page, s'.page.loaded? = some page →
      ∃ answer ∈ s'.answers, s'.shownFor = some answer.filter ∧ page = answer.page) : Kept s' where
  picked row hrow := AnsweredFor.mono hfilter hanswers (h.picked row (hselected ▸ hrow))
  capped total htotal := by
    obtain ⟨answer, hcut⟩ := h.capped total (hselected ▸ htotal)
    exact ⟨answer, hcut.mono hfilter hselected hanswers⟩
  shown := hshown

/-- **Rows that land** leave the selection to its filter. -/
theorem Kept.land {s : DashboardState} (h : Kept s) (answer : Except Fault DashboardPage) :
    Kept (s.act (.land answer)) := by
  cases hreading : s.reading with
  | none =>
    simp only [act, hreading]
    exact h
  | some asked =>
    simp only [act, hreading]
    refine h.hear rfl rfl (fun _ => List.mem_append_left _) fun page hpage => ?_
    cases answer with
    | error fault => cases hpage
    | ok landed =>
      obtain rfl := Option.some.inj hpage
      exact ⟨_, List.mem_append_right _ List.mem_cons_self, rfl, rfl⟩

/-- **What matches lands** as the selection of the filter in force, or not at
all. -/
theorem Kept.matched {s : DashboardState} (h : Kept s) (filter : PrFilter)
    (answer : Except Fault DashboardPage) : Kept (s.act (.matched filter answer)) := by
  cases answer with
  | error fault => exact h.hear rfl rfl (fun _ => id) h.shown
  | ok matching =>
    have hanswer : (⟨filter, matching, true⟩ : ReadAnswer) ∈
        s.answers ++ [⟨filter, matching, true⟩] := List.mem_append_right _ List.mem_cons_self
    have hshown : ∀ page, s.page.loaded? = some page →
        ∃ answer ∈ s.answers ++ [⟨filter, matching, true⟩],
          s.shownFor = some answer.filter ∧ page = answer.page := fun page hpage => by
      obtain ⟨answer, hanswer, hfor⟩ := h.shown page hpage
      exact ⟨answer, List.mem_append_left _ hanswer, hfor⟩
    -- An answer for a filter no longer in force is heard, and not taken.
    by_cases hmoved : s.filter = filter
    · subst hmoved
      simp only [act, selectMatching, ne_eq, not_true, if_false]
      refine ⟨fun row hrow => ⟨_, hanswer, rfl, Table.mem_of_mem_collect hrow⟩, ?_, hshown⟩
      intro total htotal
      dsimp only at htotal
      split at htotal
      · next hshort =>
        exact ⟨_, hanswer, rfl, rfl, hshort, (Option.some.inj htotal).symm,
          fun _ => Table.mem_of_mem_collect, fun _ => Table.exists_mem_collect⟩
      · cases htotal
    · simp only [act, selectMatching, ne_eq, hmoved, not_false_eq_true, if_true]
      exact h.hear rfl rfl (fun _ => List.mem_append_left _) hshown

/-- What is shown for the filter in force was answered for it. -/
theorem Kept.answeredFor {s : DashboardState} (h : Kept s) (hfor : s.shownFor = some s.filter)
    {row : PrRecord} (hrow : row ∈ s.shown) : s.AnsweredFor row := by
  unfold DashboardState.shown at hrow
  cases hpage : s.page.loaded? with
  | none =>
    rw [hpage] at hrow
    exact absurd hrow List.not_mem_nil
  | some page =>
    obtain ⟨answer, hanswer, hnoted, rfl⟩ := h.shown page hpage
    rw [hpage] at hrow
    exact ⟨answer, hanswer, Option.some.inj (hnoted.symm.trans hfor), hrow⟩

/-- A row toggled is of the filter in force, where it is picked for it. -/
theorem Kept.toggleSelected {s : DashboardState} (h : Kept s) {row : PrRecord}
    (hshown : row ∈ s.shown) (hpicks : s.PicksInForce (.toggleSelected row)) :
    Kept (s.toggleSelected row) := by
  refine h.edit fun other hother => ?_
  by_cases hselected : s.isSelected row.id
  · rw [if_pos hselected] at hother
    exact .inl (Table.mem_delete.1 hother).1
  · rw [if_neg hselected] at hother
    rcases Table.mem_upsert.1 hother with ⟨hmem, -⟩ | rfl
    · exact .inl hmem
    · have hpicked : s.picks (.toggleSelected other) ≠ [] := by
        simp [picks, hselected]
      exact .inr (h.answeredFor (hpicks hpicked) hshown)

/-- So are the rows of a page toggled. -/
theorem Kept.toggleVisible {s : DashboardState} (h : Kept s)
    (hpicks : s.PicksInForce .toggleVisible) : Kept s.toggleVisible := by
  unfold DashboardState.toggleVisible
  cases hpage : s.page.loaded? with
  | none => exact h
  | some page =>
    refine h.edit fun row hrow => ?_
    by_cases hall : s.allVisibleSelected
    · rw [if_pos hall] at hrow
      exact .inl (Table.mem_of_mem_foldl_remove hrow)
    · rw [if_neg hall] at hrow
      refine (Table.mem_foldl_upsert hrow).imp_right fun hmem => ?_
      have hshown : s.shown = page.rows := by simp [DashboardState.shown, hpage]
      have hpicked : s.picks .toggleVisible ≠ [] := by
        simp only [picks, if_neg hall, hshown]
        exact List.ne_nil_of_mem hmem
      exact h.answeredFor (hpicks hpicked) (hshown ▸ hmem)

/-- **Every act leaves the selection to its filter**, where what it picks is
picked for it. -/
theorem Kept.act {s : DashboardState} (h : Kept s) {act : Act} (hdo : s.CanDo act)
    (hpicks : s.PicksInForce act) : Kept (s.act act) := by
  cases act with
  | updateFilter change => exact h.clear _ _
  | toggleFilter value => exact h.clear _ _
  | selectRepos repos select => exact h.clear _ _
  | clearFilters => exact h.clear _ _
  | navigate filter cursor =>
    change Kept (s.navigate filter cursor)
    unfold navigate
    by_cases hfilter : s.filter = filter
    · subst hfilter
      simp only [ne_eq, not_true, if_false]
      exact h.hear rfl rfl (fun _ => id) h.shown
    · simp only [hfilter, ne_eq, not_false_eq_true, if_true]
      exact h.clear _ _
  | loadNext cursor => exact h.hear rfl rfl (fun _ => id) h.shown
  | ask => exact h.hear rfl rfl (fun _ => id) h.shown
  | land answer => exact h.land answer
  | toggleSelected row => exact h.toggleSelected hdo hpicks
  | toggleVisible => exact h.toggleVisible hpicks
  | deselect rows =>
    change Kept (s.deselect rows)
    unfold DashboardState.deselect
    split
    · exact h.edit fun _ hrow => .inl (Table.mem_of_mem_foldl_remove hrow)
    · exact h
  | selectAll => exact h.hear rfl rfl (fun _ => id) h.shown
  | matched filter answer => exact h.matched filter answer

/-! ## Every run -/

theorem Comes.kept {s : DashboardState} (h : Comes PicksInForce s) : Kept s := by
  induction h with
  | opened filter cursor => exact .opened filter cursor
  | act _ hdo hpicks ih => exact ih.act hdo hpicks

/-- A row an action would take is one that was picked, as the page shows it
where it does. -/
theorem mem_selectedRows {s : DashboardState} {row : PrRecord} (h : row ∈ s.selectedRows) :
    ∃ picked ∈ s.selected.rows.rows, picked.id = row.id := by
  obtain ⟨remembered, hremembered, rfl⟩ := List.mem_map.1 (List.mem_mergeSort.1 h)
  refine ⟨remembered, hremembered, ?_⟩
  cases hfind : s.shown.find? fun row => row.id = remembered.id with
  | none => rfl
  | some row => simpa [eq_comm] using List.find?_some hfind

/-- **The selection belongs to the filter in force**, in every run that picks
rows of the page only while it shows that filter. -/
theorem selection_in_force {s : DashboardState} (h : Comes PicksInForce s) : InForce s where
  picked := h.kept.picked
  captured row hrow := by
    obtain ⟨picked, hpicked, hid⟩ := mem_selectedRows hrow
    exact ⟨picked, h.kept.picked picked hpicked, hid⟩
  capped := h.kept.capped

/-! ## A page of the filter before -/

/-- A pull request that asks for nothing. -/
def calmPr : PrRecord where
  id := "7#9"
  repositoryId := 7
  owner := "acme"
  repo := "api"
  number := 9
  title := "Bump serde from 1.0.0 to 1.0.1"
  htmlUrl := "https://github.com/acme/api/pull/9"
  dependency := some "serde"
  fromVersion := some "1.0.0"
  toVersion := some "1.0.1"
  dependencies := []
  updateType := .patch
  headSha := "abc123"
  checkStatus := .success
  mergeable := .clean
  labels := []
  createdAt := 100
  updatedAt := 200
  syncedAt := 200

/-- The page it is alone on. -/
def calmPage : DashboardPage := ⟨[calmPr], 1, none⟩

/-- The dashboard once the page has landed. -/
def shownCalm : DashboardState :=
  (opened default none).act (.land (.ok calmPage))

/-- The dashboard once what needs attention is asked for, the page as it was. -/
def stale : DashboardState :=
  shownCalm.act (.updateFilter fun filter => { filter with needsAttention := true })

theorem comes_shownCalm : Comes PicksInForce shownCalm :=
  .act (.opened default none) nofun nofun

theorem selection_in_force_sample :
    InForce (shownCalm.act (.toggleSelected calmPr)) :=
  selection_in_force (comes_shownCalm.act (List.mem_singleton_self calmPr) fun _ => rfl)

/-- **A row is picked that the filter leaves out**, from the page of the filter
before. -/
theorem stale_row_picked :
    ¬ ∀ s : DashboardState, Comes (fun _ _ => True) s → InForce s := by
  intro hclaim
  have hstale : Comes (fun _ _ => True) stale :=
    .act (.act (.opened default none) nofun trivial) trivial trivial
  have hpicked : Comes (fun _ _ => True) (stale.act (.toggleSelected calmPr)) :=
    .act hstale (List.mem_singleton_self calmPr) trivial
  have hforced := (hclaim _ hpicked).picked calmPr (List.mem_singleton_self calmPr)
  obtain ⟨answer, hanswer, hfilter, -⟩ := hforced
  obtain rfl := List.mem_singleton.1 (hanswer : answer ∈ [⟨default, calmPage, false⟩])
  exact absurd hfilter (by decide)

end Ui

end Dependaboard
