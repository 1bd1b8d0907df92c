import Dependaboard.Ui.InForce
import Dependaboard.Ui.UrlSync

/-!
# Ui — the drawer that follows the page

The drawer shows one pull request. A row clicked is in hand, a link has its row
read; each page that lands is looked at for the row, and a row it does not show
is asked about. A read may land arbitrarily late, and whether its answer is
still the drawer's is decided by comparing what the drawer is with what it was
(`OpenPr.settled`): a page that lands with the row as it was leaves no trace
there.

`DrawerWorld.InTime` is what an event must be for the drawer to go on following
the page, and `drawer_follows_page` that it then does.
-/

namespace Dependaboard

namespace Ui

/-! ## The code -/

namespace OpenPr

/-- The row the drawer shows, once it has one. -/
def row : OpenPr → Option PrRecord
  | loading _ => none
  | loaded row | gone row => some row

theorem eq_loading {opened : OpenPr} (h : opened.row = none) : ∃ key, opened = loading key := by
  cases opened with
  | loading key => exact ⟨key, rfl⟩
  | loaded row => cases h
  | gone row => cases h

theorem key_of_row {opened : OpenPr} {row : PrRecord} (h : opened.row = some row) :
    row.key = opened.key := by
  cases opened with
  | loading key => cases h
  | loaded row' => exact congrArg PrRecord.key (Option.some.inj h).symm
  | gone row' => exact congrArg PrRecord.key (Option.some.inj h).symm

/-- What a page that has landed says about the open pull request. -/
inductive Followed where
  | asIs
  | replaced (row : PrRecord)
  /-- The page does not show the row, which has to be asked about. -/
  | unknown (last : PrRecord)

/-- Read a page for the row of the open pull request. -/
def follow (opened : OpenPr) (page : DashboardPage) : Followed :=
  match opened.row with
  | none => .asIs
  | some shown =>
    match page.rows.find? (·.id = shown.id), opened with
    | some row, loaded _ => if row = shown then .asIs else .replaced row
    | some row, _ => .replaced row
    | none, loaded row => .unknown row
    | none, _ => .asIs

/-- What an answer to a read makes of the drawer. -/
inductive Settled where
  | stands
  /-- A row, or nothing at all, which closes it. -/
  | becomes (next : Option OpenPr)

/-- What an answer makes of the drawer, given what it was when the read went out
and what it is now. -/
def settled (opened : Option OpenPr) (asked : OpenPr)
    (answer : Except Fault (Option PrRecord)) : Settled :=
  if opened ≠ some asked then .stands
  else
    match asked.row, answer with
    | none, .ok row => .becomes (row.map loaded)
    | none, .error _ => .becomes none
    | some last, .ok (some row) => if row ≠ last then .becomes (some (loaded row)) else .stands
    | some last, .ok none => .becomes (some (gone last))
    | some _, .error _ => .stands

end OpenPr

/-- A read of one pull request's row. -/
structure DrawerRead where
  /-- What the drawer was when the read went out. -/
  asked : OpenPr
  /-- What the read model has answered, and how many pages had landed then. -/
  served : Option (Except Fault (Option PrRecord) × ℕ)

/-- The drawer, the page beside it, and the reads in flight. -/
structure DrawerWorld where
  detail : Option OpenPr
  page : Remote DashboardPage
  reads : List DrawerRead
  /-- The page that landed last. -/
  last : Option DashboardPage
  /-- How many have landed. -/
  landed : ℕ
  /-- Whether a row was opened or synced into the drawer since the last one. -/
  handed : Bool
  /-- How many had landed when the row shown was read, where a read brought it. -/
  readAt : Option ℕ

/-- What may happen. -/
inductive DrawerEvent where
  /-- A row of the table is opened. -/
  | openRow (row : PrRecord)
  /-- The address names a pull request. -/
  | openLink (key : PrKey)
  | close
  /-- The drawer's sync has the row, or found it closed. -/
  | synced (row : Option PrRecord)
  | pageLands (status : Remote DashboardPage)
  /-- The read model answers a read in flight. -/
  | serves (index : ℕ) (answer : Except Fault (Option PrRecord))
  /-- The answer of a read lands. -/
  | answers (index : ℕ)

namespace DrawerWorld

/-- The dashboard as it opens, on an address that may name a pull request. -/
def opened (pr : Option PrKey) : DrawerWorld where
  detail := pr.map .loading
  page := .loading
  reads := pr.toList.map fun key => ⟨.loading key, none⟩
  last := none
  landed := 0
  handed := false
  readAt := none

/-- Take a page that has landed into the drawer. -/
def followPage (w : DrawerWorld) (page : DashboardPage) : DrawerWorld :=
  match w.detail with
  | none => w
  | some opened =>
    match opened.follow page with
    | .asIs => w
    | .replaced row => { w with detail := some (.loaded row), readAt := none }
    | .unknown last => { w with reads := w.reads ++ [⟨.loaded last, none⟩] }

/-- Take an answer into the drawer. -/
def settle (w : DrawerWorld) (asked : OpenPr) (answer : Except Fault (Option PrRecord))
    (servedAt : ℕ) : DrawerWorld :=
  match OpenPr.settled w.detail asked answer with
  | .stands => w
  | .becomes next => { w with detail := next, readAt := some servedAt }

/-- What an event makes of the world; none where it cannot happen. -/
def step (w : DrawerWorld) : DrawerEvent → Option DrawerWorld
  | .openRow row =>
    some { w with detail := some (.loaded row), handed := true, readAt := none }
  | .openLink key =>
    some { w with
      detail := some (.loading key)
      readAt := none
      reads := w.reads ++ [⟨.loading key, none⟩] }
  | .close => some { w with detail := none, readAt := none }
  | .synced (some row) =>
    some { w with detail := some (.loaded row), handed := true, readAt := none }
  | .synced none => some { w with detail := none, readAt := none }
  | .pageLands status =>
    match status.loaded? with
    | none => some { w with page := status }
    | some page =>
      let next := { w with
        page := status, last := some page, landed := w.landed + 1, handed := false }
      -- A page equal to the one shown changes nothing anything listens to.
      some (if w.page.loaded? = some page then next else next.followPage page)
  | .serves index answer =>
    match w.reads[index]? with
    | some ⟨asked, none⟩ =>
      -- The read model answers with the row that was asked for.
      if answer.toOption.join.all fun row => row.key = asked.key then
        some { w with reads := w.reads.set index ⟨asked, some (answer, w.landed)⟩ }
      else none
    | _ => none
  | .answers index =>
    match w.reads[index]? with
    | some ⟨asked, some (answer, servedAt)⟩ =>
      some ({ w with reads := w.reads.eraseIdx index }.settle asked answer servedAt)
    | _ => none

/-- The worlds a page comes to through events that are allowed where they
happen. -/
inductive Comes (allowed : DrawerWorld → DrawerEvent → Prop) : DrawerWorld → Prop
  | opened (pr : Option PrKey) : Comes allowed (opened pr)
  | step {w w' : DrawerWorld} {event : DrawerEvent} (h : Comes allowed w)
      (hallowed : allowed w event) (hstep : w.step event = some w') : Comes allowed w'

section Step

variable {w w' : DrawerWorld} {index : ℕ}

theorem step_serves {answer : Except Fault (Option PrRecord)}
    (h : w.step (.serves index answer) = some w') : ∃ asked,
      w.reads[index]? = some ⟨asked, none⟩ ∧
      (∀ row, answer = .ok (some row) → row.key = asked.key) ∧
      w' = { w with reads := w.reads.set index ⟨asked, some (answer, w.landed)⟩ } := by
  rw [step] at h
  split at h
  · rename_i asked hread
    split at h
    · rename_i hown
      refine ⟨asked, hread, ?_, (Option.some.inj h).symm⟩
      rintro row rfl
      exact of_decide_eq_true hown
    · cases h
  · cases h

theorem step_answers (h : w.step (.answers index) = some w') : ∃ asked answer servedAt,
    w.reads[index]? = some ⟨asked, some (answer, servedAt)⟩ ∧
    w' = { w with reads := w.reads.eraseIdx index }.settle asked answer servedAt := by
  rw [step] at h
  split at h
  · rename_i asked answer servedAt hread
    exact ⟨asked, answer, servedAt, hread, (Option.some.inj h).symm⟩
  · cases h

end Step

/-! ## Following the page -/

/-- The row the drawer shows. -/
def row (w : DrawerWorld) : Option PrRecord := w.detail.bind OpenPr.row

/-- The row of the page that landed last for a pull request. -/
def pageRow (w : DrawerWorld) (id : String) : Option PrRecord :=
  w.last.bind fun page => page.rows.find? (·.id = id)

/-- Where the page last landed shows the pull request of an open drawer, and no
row was opened or synced into it since, the drawer is not given up for gone and
its row is the page's, or one read after the page landed. -/
def FollowsPage (w : DrawerWorld) : Prop :=
  w.handed = false → ∀ row, w.row = some row → ∀ shown, w.pageRow row.id = some shown →
    w.detail = some (.loaded row) ∧
      (row = shown ∨ ∃ servedAt, w.readAt = some servedAt ∧ w.landed ≤ servedAt)

/-- An answer that lands on the drawer that asked, since when no row was opened
or synced, is no older word than the page's: it brings a row, the page's or the
one shown or one read after the page landed, unless the page does not show the
pull request. -/
def AnswerInTime (w : DrawerWorld) (asked : OpenPr) (servedAt : ℕ) :
    Except Fault (Option PrRecord) → Prop
  | .ok (some row) => ∀ shown, w.pageRow row.id = some shown →
      row = shown ∨ asked.row = some row ∨ w.landed ≤ servedAt
  | .ok none => ∀ last, asked.row = some last → w.pageRow last.id = none
  | .error _ => True

/-- A page equal to the one before finds the drawer with its row. -/
def PageInTime (w : DrawerWorld) (page : DashboardPage) : Prop :=
  w.page.loaded? = some page → ∀ row, w.row = some row →
    ∀ shown, page.rows.find? (·.id = row.id) = some shown → w.detail = some (.loaded shown)

/-- What an event must be for the drawer to go on following the page. -/
def InTime (w : DrawerWorld) : DrawerEvent → Prop
  | .pageLands status => ∀ page, status.loaded? = some page → w.PageInTime page
  | .answers index => ∀ asked answer servedAt,
      w.reads[index]? = some ⟨asked, some (answer, servedAt)⟩ →
      w.detail = some asked → w.handed = false → w.AnswerInTime asked servedAt answer
  | _ => True

/-- A page tells what its rows say of the row shown. -/
theorem follow_of_row {opened : OpenPr} (page : DashboardPage) {row : PrRecord}
    (hrow : opened.row = some row) :
    (∃ shown, page.rows.find? (·.id = row.id) = some shown ∧
      (opened = .loaded shown ∧ opened.follow page = .asIs ∨
        opened.follow page = .replaced shown)) ∨
    page.rows.find? (·.id = row.id) = none ∧
      (opened.follow page = .asIs ∨ opened.follow page = .unknown row) := by
  cases opened with
  | loading key => cases hrow
  | loaded row' =>
    obtain rfl := Option.some.inj hrow
    simp only [OpenPr.follow, OpenPr.row]
    cases hfind : page.rows.find? (·.id = row'.id) with
    | none => exact .inr ⟨rfl, .inr rfl⟩
    | some shown =>
      refine .inl ⟨shown, rfl, ?_⟩
      by_cases hsame : shown = row'
      · exact .inl ⟨congrArg OpenPr.loaded hsame.symm, if_pos hsame⟩
      · exact .inr (if_neg hsame)
  | gone row' =>
    obtain rfl := Option.some.inj hrow
    simp only [OpenPr.follow, OpenPr.row]
    cases hfind : page.rows.find? (·.id = row'.id) with
    | none => exact .inr ⟨rfl, .inl rfl⟩
    | some shown => exact .inl ⟨shown, rfl, .inr rfl⟩

section Follows

variable {w : DrawerWorld} {row : PrRecord}

theorem follows_of_row_none (h : w.row = none) : w.FollowsPage := by
  intro _ row hrow
  rw [h] at hrow
  cases hrow

theorem follows_of_pageRow_none (hrow : w.row = some row) (h : w.pageRow row.id = none) :
    w.FollowsPage := by
  intro _ row' hrow' shown hshown
  obtain rfl := Option.some.inj (hrow.symm.trans hrow')
  rw [h] at hshown
  cases hshown

theorem follows_of_shown (hdetail : w.detail = some (.loaded row))
    (h : w.pageRow row.id = some row) : w.FollowsPage := by
  intro _ row' hrow' shown hshown
  rw [DrawerWorld.row, hdetail] at hrow'
  obtain rfl := Option.some.inj hrow'
  exact ⟨hdetail, .inl (Option.some.inj (h.symm.trans hshown))⟩

end Follows

/-- **A page taken into the drawer is followed.** -/
theorem followPage_follows {w : DrawerWorld} {page : DashboardPage} (hlast : w.last = some page) :
    (w.followPage page).FollowsPage := by
  have hpageRow (id : String) : w.pageRow id = page.rows.find? (·.id = id) := by
    rw [pageRow, hlast, Option.bind_some]
  rw [followPage]
  cases hdetail : w.detail with
  | none =>
    refine follows_of_row_none ?_
    rw [DrawerWorld.row, hdetail, Option.bind_none]
  | some opened =>
    cases hopened : opened.row with
    | none =>
      have hasIs : opened.follow page = .asIs := by rw [OpenPr.follow, hopened]
      simp only [hasIs]
      refine follows_of_row_none ?_
      rw [DrawerWorld.row, hdetail, Option.bind_some, hopened]
    | some row =>
      have hrow : w.row = some row := by rw [DrawerWorld.row, hdetail, Option.bind_some, hopened]
      rcases follow_of_row page hopened with
        ⟨shown, hfind, ⟨rfl, hasIs⟩ | hreplaced⟩ | ⟨hfind, hasIs | hunknown⟩
      · simp only [hasIs]
        obtain rfl := Option.some.inj hopened
        exact follows_of_shown hdetail ((hpageRow _).trans hfind)
      · simp only [hreplaced]
        have hid : shown.id = row.id := by simpa using List.find?_some hfind
        refine follows_of_shown rfl ((hpageRow _).trans ?_)
        rw [hid]
        exact hfind
      · simp only [hasIs]
        exact follows_of_pageRow_none hrow ((hpageRow _).trans hfind)
      · simp only [hunknown]
        have hrow' : DrawerWorld.row { w with
            detail := some opened, reads := w.reads ++ [⟨.loaded row, none⟩] } = some row := hopened
        exact follows_of_pageRow_none hrow' ((hpageRow _).trans hfind)

/-- An answer the drawer has moved off says nothing. -/
theorem settled_of_ne {detail : Option OpenPr} {asked : OpenPr} (h : detail ≠ some asked)
    (answer : Except Fault (Option PrRecord)) : OpenPr.settled detail asked answer = .stands :=
  if_pos h

/-- What an answer says to the drawer that asked. -/
theorem settled_self (asked : OpenPr) (answer : Except Fault (Option PrRecord)) :
    OpenPr.settled (some asked) asked answer = match asked.row, answer with
      | none, .ok row => .becomes (row.map .loaded)
      | none, .error _ => .becomes none
      | some last, .ok (some row) =>
        if row ≠ last then .becomes (some (.loaded row)) else .stands
      | some last, .ok none => .becomes (some (.gone last))
      | some _, .error _ => .stands :=
  if_neg (not_not.2 rfl)

section Settle

variable {w : DrawerWorld} {asked : OpenPr} {servedAt : ℕ}

/-- A row taken from an answer in time is the page's, or newer. -/
theorem loaded_follows {row : PrRecord} (hnew : asked.row ≠ some row)
    (hintime : w.handed = false → w.AnswerInTime asked servedAt (.ok (some row))) :
    FollowsPage { w with detail := some (.loaded row), readAt := some servedAt } := by
  intro hhanded row' hrow' shown hshown
  obtain rfl := Option.some.inj hrow'
  refine ⟨rfl, ?_⟩
  rcases hintime hhanded shown hshown with hpage | hasked | hserved
  · exact .inl hpage
  · exact absurd hasked hnew
  · exact .inr ⟨servedAt, rfl, hserved⟩

/-- **An answer in time leaves the drawer following.** -/
theorem settle_follows {answer : Except Fault (Option PrRecord)} (h : w.FollowsPage)
    (hintime : w.detail = some asked → w.handed = false → w.AnswerInTime asked servedAt answer) :
    (w.settle asked answer servedAt).FollowsPage := by
  rw [settle]
  by_cases hasked : w.detail = some asked
  · have hintime := hintime hasked
    rw [hasked, settled_self]
    cases hrow : asked.row with
    | none =>
      rcases answer with fault | (_ | row)
      · exact follows_of_row_none rfl
      · exact follows_of_row_none rfl
      · refine loaded_follows (fun hsome => ?_) hintime
        rw [hrow] at hsome
        cases hsome
    | some last =>
      rcases answer with fault | (_ | row)
      · exact h
      · intro hhanded
        exact follows_of_pageRow_none rfl (hintime hhanded last hrow) hhanded
      · by_cases hsame : row = last
        · simp only [hsame, ne_eq, not_true_eq_false, if_false]
          exact h
        · simp only [ne_eq, hsame, not_false_eq_true, if_true]
          refine loaded_follows (fun hsome => ?_) hintime
          rw [hrow] at hsome
          exact hsame (Option.some.inj hsome).symm
  · rw [settled_of_ne hasked]
    exact h

end Settle

/-- **An event in time leaves the drawer following.** -/
theorem step_follows {w w' : DrawerWorld} {event : DrawerEvent} (h : w.FollowsPage)
    (hintime : w.InTime event) (hstep : w.step event = some w') : w'.FollowsPage := by
  cases event with
  | openRow row =>
    obtain rfl := Option.some.inj hstep
    intro hhanded
    cases hhanded
  | openLink key =>
    obtain rfl := Option.some.inj hstep
    exact follows_of_row_none rfl
  | close =>
    obtain rfl := Option.some.inj hstep
    exact follows_of_row_none rfl
  | synced row =>
    cases row with
    | none =>
      obtain rfl := Option.some.inj hstep
      exact follows_of_row_none rfl
    | some row =>
      obtain rfl := Option.some.inj hstep
      intro hhanded
      cases hhanded
  | pageLands status =>
    rw [step] at hstep
    cases hstatus : status.loaded? with
    | none =>
      rw [hstatus] at hstep
      obtain rfl := Option.some.inj hstep
      exact h
    | some page =>
      rw [hstatus] at hstep
      obtain rfl := Option.some.inj hstep
      by_cases hsame : w.page.loaded? = some page
      · simp only [hsame, if_true]
        intro _ row hrow shown hshown
        have hshows := hintime page hstatus hsame row hrow shown hshown
        rw [DrawerWorld.row, hshows] at hrow
        obtain rfl := Option.some.inj hrow
        exact ⟨hshows, .inl rfl⟩
      · simp only [hsame, if_false]
        exact followPage_follows rfl
  | serves index answer =>
    obtain ⟨asked, -, -, rfl⟩ := step_serves hstep
    exact h
  | answers index =>
    obtain ⟨asked, answer, servedAt, hread, rfl⟩ := step_answers hstep
    exact settle_follows h (hintime asked answer servedAt hread)

/-- **While every event is in time, the drawer follows the page.** -/
theorem follows_of_inTime {w : DrawerWorld} (h : Comes InTime w) : w.FollowsPage := by
  induction h with
  | opened pr =>
    cases pr with
    | none => exact follows_of_row_none rfl
    | some key => exact follows_of_row_none rfl
  | step _ hintime hstep ih => exact step_follows ih hintime hstep

/-! ## The reads in flight -/

/-- What is true of the reads whatever happens. -/
structure Sound (w : DrawerWorld) : Prop where
  /-- Every row in flight is of the pull request its read asked about. -/
  own : ∀ read ∈ w.reads, ∀ row servedAt, read.served = some (.ok (some row), servedAt) →
    row.key = read.asked.key
  dated : ∀ read ∈ w.reads, ∀ answer servedAt, read.served = some (answer, servedAt) →
    servedAt ≤ w.landed
  shown : ∀ servedAt, w.readAt = some servedAt → servedAt ≤ w.landed

/-- A page taken in asks at most one read more, not answered yet. -/
theorem mem_followPage_reads {w : DrawerWorld} {page : DashboardPage} {read : DrawerRead}
    (h : read ∈ (w.followPage page).reads) : read ∈ w.reads ∨ read.served = none := by
  rw [followPage] at h
  split at h
  · exact .inl h
  · split at h
    · exact .inl h
    · exact .inl h
    · rcases List.mem_append.1 h with hbefore | hnew
      · exact .inl hbefore
      · rw [List.mem_singleton.1 hnew]
        exact .inr rfl

/-- And leaves the row shown dated as it was, or undated. -/
theorem followPage_dated (w : DrawerWorld) (page : DashboardPage) :
    (w.followPage page).landed = w.landed ∧
      ((w.followPage page).readAt = w.readAt ∨ (w.followPage page).readAt = none) := by
  rw [followPage]
  split
  · exact ⟨rfl, .inl rfl⟩
  · split
    · exact ⟨rfl, .inl rfl⟩
    · exact ⟨rfl, .inr rfl⟩
    · exact ⟨rfl, .inl rfl⟩

/-- An answer taken in changes no read, and dates the row by when it was
served. -/
theorem settle_dated (w : DrawerWorld) (asked : OpenPr)
    (answer : Except Fault (Option PrRecord)) (servedAt : ℕ) :
    (w.settle asked answer servedAt).reads = w.reads ∧
      (w.settle asked answer servedAt).landed = w.landed ∧
      ((w.settle asked answer servedAt).readAt = w.readAt ∨
        (w.settle asked answer servedAt).readAt = some servedAt) := by
  rw [settle]
  split
  · exact ⟨rfl, rfl, .inl rfl⟩
  · exact ⟨rfl, rfl, .inr rfl⟩

/-- Reads that are new and unanswered leave the rest as it was. -/
theorem Sound.of_reads {w w' : DrawerWorld} (h : w.Sound)
    (hreads : ∀ read ∈ w'.reads, read ∈ w.reads ∨ read.served = none)
    (hlanded : w.landed ≤ w'.landed)
    (hshown : ∀ servedAt, w'.readAt = some servedAt → servedAt ≤ w'.landed) : w'.Sound := by
  refine ⟨fun read hread row servedAt hserved => ?_, fun read hread answer servedAt hserved => ?_,
    hshown⟩
  · rcases hreads read hread with hbefore | hnew
    · exact h.own read hbefore row servedAt hserved
    · rw [hnew] at hserved
      cases hserved
  · rcases hreads read hread with hbefore | hnew
    · exact (h.dated read hbefore answer servedAt hserved).trans hlanded
    · rw [hnew] at hserved
      cases hserved

/-- **An event leaves the reads sound.** -/
theorem Sound.step {w w' : DrawerWorld} {event : DrawerEvent} (h : w.Sound)
    (hstep : w.step event = some w') : w'.Sound := by
  cases event with
  | openRow row =>
    obtain rfl := Option.some.inj hstep
    exact h.of_reads (fun _ => .inl) le_rfl nofun
  | openLink key =>
    obtain rfl := Option.some.inj hstep
    refine h.of_reads (fun read hread => (List.mem_append.1 hread).imp_right fun hnew => ?_)
      le_rfl nofun
    rw [List.mem_singleton.1 hnew]
  | close =>
    obtain rfl := Option.some.inj hstep
    exact h.of_reads (fun _ => .inl) le_rfl nofun
  | synced row =>
    cases row with
    | none =>
      obtain rfl := Option.some.inj hstep
      exact h.of_reads (fun _ => .inl) le_rfl nofun
    | some row =>
      obtain rfl := Option.some.inj hstep
      exact h.of_reads (fun _ => .inl) le_rfl nofun
  | pageLands status =>
    rw [DrawerWorld.step] at hstep
    split at hstep
    · obtain rfl := Option.some.inj hstep
      exact h.of_reads (fun _ => .inl) le_rfl h.shown
    · rename_i page _
      obtain rfl := Option.some.inj hstep
      have hlater (servedAt : ℕ) (hread : w.readAt = some servedAt) : servedAt ≤ w.landed + 1 :=
        (h.shown servedAt hread).trans (Nat.le_succ _)
      split
      · exact h.of_reads (fun _ => .inl) (Nat.le_succ _) hlater
      · obtain ⟨hlanded, hreadAt⟩ := followPage_dated { w with
          page := status, last := some page, landed := w.landed + 1, handed := false } page
        refine h.of_reads (fun read hread => ?_) (hlanded ▸ Nat.le_succ _)
          fun servedAt hread => ?_
        · rcases mem_followPage_reads hread with hbefore | hnew
          · exact .inl hbefore
          · exact .inr hnew
        · rw [hlanded]
          rcases hreadAt with hsame | hnone
          · exact hlater servedAt (hsame.symm.trans hread)
          · rw [hnone] at hread
            cases hread
  | serves index answer =>
    obtain ⟨asked, -, hown, rfl⟩ := step_serves hstep
    refine ⟨fun read hread row servedAt hserved => ?_,
      fun read hread answer servedAt hserved => ?_, h.shown⟩
    · rcases List.mem_or_eq_of_mem_set hread with hbefore | rfl
      · exact h.own read hbefore row servedAt hserved
      · exact hown row (Prod.mk.inj (Option.some.inj hserved)).1
    · rcases List.mem_or_eq_of_mem_set hread with hbefore | rfl
      · exact h.dated read hbefore answer servedAt hserved
      · exact (Prod.mk.inj (Option.some.inj hserved)).2.ge
  | answers index =>
    obtain ⟨asked, answer, servedAt, hread, rfl⟩ := step_answers hstep
    obtain ⟨hreads, hlanded, hreadAt⟩ :=
      settle_dated { w with reads := w.reads.eraseIdx index } asked answer servedAt
    refine h.of_reads (fun read hmem => ?_) hlanded.ge fun shownAt hshown => ?_
    · rw [hreads] at hmem
      exact .inl (List.mem_of_mem_eraseIdx hmem)
    · rw [hlanded]
      rcases hreadAt with hsame | hserved
      · exact h.shown shownAt (hsame.symm.trans hshown)
      · obtain rfl := Option.some.inj (hserved.symm.trans hshown)
        exact h.dated _ (List.mem_of_getElem? hread) answer servedAt rfl

theorem Comes.sound {allowed : DrawerWorld → DrawerEvent → Prop} {w : DrawerWorld}
    (h : Comes allowed w) : w.Sound := by
  induction h with
  | opened pr =>
    refine ⟨fun read hread row servedAt hserved => ?_,
      fun read hread answer servedAt hserved => ?_, nofun⟩
    · obtain ⟨key, -, rfl⟩ := List.mem_map.1 hread
      cases hserved
    · obtain ⟨key, -, rfl⟩ := List.mem_map.1 hread
      cases hserved
  | step _ _ hstep ih => exact ih.step hstep

/-- **Only an event in time leaves the drawer following.** -/
theorem inTime_of_follows {w w' : DrawerWorld} {event : DrawerEvent} (h : w.Sound)
    (hstep : w.step event = some w') (hfollows : w'.FollowsPage) : w.InTime event := by
  cases event with
  | pageLands status =>
    intro page hstatus hsame row hrow shown hshown
    rw [step, hstatus] at hstep
    obtain rfl := Option.some.inj hstep
    simp only [hsame, if_true] at hfollows
    obtain ⟨hdetail, rfl | ⟨servedAt, hread, hlater⟩⟩ := hfollows rfl row hrow shown hshown
    · exact hdetail
    · exact absurd (h.shown servedAt hread) (Nat.not_le.2 hlater)
  | answers index =>
    intro asked answer servedAt hread hasked hhanded
    obtain ⟨_, _, _, hread', rfl⟩ := step_answers hstep
    cases Option.some.inj (hread.symm.trans hread')
    rw [settle, hasked, settled_self] at hfollows
    rcases answer with fault | (_ | row)
    · trivial
    · intro last hlast
      rw [hlast] at hfollows
      cases hshown : w.pageRow last.id with
      | none => rfl
      | some shown =>
        obtain ⟨hloaded, -⟩ := hfollows hhanded last rfl shown hshown
        cases hloaded
    · intro shown hshown
      by_cases hsame : asked.row = some row
      · exact .inr (.inl hsame)
      · have hbecomes : FollowsPage { w with
            detail := some (.loaded row), reads := w.reads.eraseIdx index
            readAt := some servedAt } := by
          cases hlast : asked.row with
          | none =>
            rw [hlast] at hfollows
            exact hfollows
          | some last =>
            rw [hlast] at hfollows hsame
            simp only [ne_eq, show row ≠ last from fun hrow => hsame (hrow ▸ rfl),
              not_false_eq_true, if_true] at hfollows
            exact hfollows
        obtain ⟨-, hpage | ⟨_, hserved, hlater⟩⟩ := hbecomes hhanded row rfl shown hshown
        · exact .inl hpage
        · cases hserved
          exact .inr (.inr hlater)
  | _ => trivial

/-- What an answer makes of a drawer is of the pull request the read asked
about, and nothing only where the read had no row. -/
theorem settled_becomes {detail next : Option OpenPr} {asked : OpenPr}
    {answer : Except Fault (Option PrRecord)}
    (h : OpenPr.settled detail asked answer = .becomes next)
    (hown : ∀ row, answer = .ok (some row) → row.key = asked.key) :
    detail = some asked ∧ (∀ opened, next = some opened → opened.key = asked.key) ∧
      (next = none → ∃ key, asked = .loading key) := by
  by_cases hasked : detail = some asked
  · refine ⟨hasked, ?_⟩
    rw [hasked, settled_self] at h
    cases hrow : asked.row with
    | none =>
      obtain ⟨key, rfl⟩ := OpenPr.eq_loading hrow
      refine ⟨fun opened hopened => ?_, fun _ => ⟨key, rfl⟩⟩
      rcases answer with fault | (_ | row) <;> cases h
      · cases hopened
      · cases hopened
      · obtain rfl := Option.some.inj hopened
        exact hown row rfl
    | some last =>
      have hlast : last.key = asked.key := OpenPr.key_of_row hrow
      rw [hrow] at h
      rcases answer with fault | (_ | row)
      · cases h
      · cases h
        refine ⟨fun opened hopened => ?_, nofun⟩
        obtain rfl := Option.some.inj hopened
        exact hlast
      · simp only at h
        split at h
        · cases h
          refine ⟨fun opened hopened => ?_, nofun⟩
          obtain rfl := Option.some.inj hopened
          exact hown row rfl
        · cases h
  · rw [settled_of_ne hasked] at h
    cases h

/-- An answer that changes the drawer is the drawer's own. -/
theorem answers_own {w w' : DrawerWorld} {index : ℕ} (hsound : w.Sound)
    (hstep : w.step (.answers index) = some w') (hchanges : w'.detail ≠ w.detail) :
    ∃ asked answer servedAt, w.reads[index]? = some ⟨asked, some (answer, servedAt)⟩ ∧
      w.detail = some asked ∧ (∀ opened, w'.detail = some opened → opened.key = asked.key) ∧
      (w'.detail = none → ∃ key, asked = .loading key) := by
  obtain ⟨asked, answer, servedAt, hread, rfl⟩ := step_answers hstep
  refine ⟨asked, answer, servedAt, hread, ?_⟩
  have hrow (row : PrRecord) (hanswer : answer = .ok (some row)) : row.key = asked.key := by
    subst hanswer
    exact hsound.own _ (List.mem_of_getElem? hread) row servedAt rfl
  rw [settle] at hchanges ⊢
  cases hsettled : OpenPr.settled w.detail asked answer with
  | stands =>
    simp only [hsettled] at hchanges
    exact absurd rfl hchanges
  | becomes next => exact settled_becomes hsettled hrow

/-- A page taken in leaves an open drawer open. -/
theorem followPage_open {w : DrawerWorld} (page : DashboardPage) (h : w.detail.isSome) :
    (w.followPage page).detail.isSome := by
  rw [followPage]
  split
  · exact h
  · split
    · exact h
    · rfl
    · exact h

/-- **The drawer closes itself only on a link that had no row.** -/
theorem closes_only_link {w w' : DrawerWorld} {event : DrawerEvent} (hsound : w.Sound)
    (hstep : w.step event = some w') (hopen : w.detail.isSome) (hclosed : w'.detail = none) :
    event = .close ∨ event = .synced none ∨ ∃ key, w.detail = some (.loading key) := by
  cases event with
  | openRow row =>
    obtain rfl := Option.some.inj hstep
    cases hclosed
  | openLink key =>
    obtain rfl := Option.some.inj hstep
    cases hclosed
  | close => exact .inl rfl
  | synced row =>
    cases row with
    | none => exact .inr (.inl rfl)
    | some row =>
      obtain rfl := Option.some.inj hstep
      cases hclosed
  | pageLands status =>
    rw [step] at hstep
    split at hstep
    · obtain rfl := Option.some.inj hstep
      rw [hclosed] at hopen
      cases hopen
    · rename_i page _
      obtain rfl := Option.some.inj hstep
      split at hclosed
      · rw [hclosed] at hopen
        cases hopen
      · have hstays := followPage_open (w := { w with
          page := status, last := some page, landed := w.landed + 1, handed := false }) page hopen
        rw [hclosed] at hstays
        cases hstays
  | serves index answer =>
    obtain ⟨asked, -, -, rfl⟩ := step_serves hstep
    rw [hclosed] at hopen
    cases hopen
  | answers index =>
    have hchanges : w'.detail ≠ w.detail := by
      intro hsame
      rw [← hsame, hclosed] at hopen
      cases hopen
    obtain ⟨asked, -, -, -, hdetail, -, hlink⟩ := answers_own hsound hstep hchanges
    obtain ⟨key, rfl⟩ := hlink hclosed
    exact .inr (.inr ⟨key, hdetail⟩)

/-- Whatever happens. -/
def Anything : DrawerWorld → DrawerEvent → Prop := fun _ _ => True

/-- **The drawer follows the page through events in time**, and through no
other; and whatever happens an answer is applied only to the pull request it was
asked about, and the drawer closes itself only on a link that had no row. -/
theorem drawer_follows_page {w : DrawerWorld} (h : Comes Anything w) :
    (Comes InTime w → w.FollowsPage) ∧
    (∀ event w', w.step event = some w' → w.FollowsPage → (w'.FollowsPage ↔ w.InTime event)) ∧
    (∀ index w', w.step (.answers index) = some w' → w'.detail ≠ w.detail →
      ∃ asked answer servedAt, w.reads[index]? = some ⟨asked, some (answer, servedAt)⟩ ∧
        w.detail = some asked ∧ ∀ opened, w'.detail = some opened → opened.key = asked.key) ∧
    ∀ event w', w.step event = some w' → w.detail.isSome → w'.detail = none →
      event = .close ∨ event = .synced none ∨ ∃ key, w.detail = some (.loading key) := by
  refine ⟨follows_of_inTime, fun event w' hstep hfollows => ?_, fun index w' hstep hchanges => ?_,
    fun event w' => closes_only_link h.sound⟩
  · exact ⟨inTime_of_follows h.sound hstep, fun hintime => step_follows hfollows hintime hstep⟩
  · obtain ⟨asked, answer, servedAt, hread, hdetail, hkey, -⟩ :=
      answers_own h.sound hstep hchanges
    exact ⟨asked, answer, servedAt, hread, hdetail, hkey⟩

/-! ## A page with the row unchanged -/

/-- The run of `events`. -/
def run (w : DrawerWorld) : List DrawerEvent → Option DrawerWorld
  | [] => some w
  | event :: events => (w.step event).bind fun next => next.run events

theorem comes_run {w w' : DrawerWorld} {events : List DrawerEvent} (h : Comes Anything w)
    (hrun : w.run events = some w') : Comes Anything w' := by
  induction events generalizing w with
  | nil =>
    obtain rfl := Option.some.inj hrun
    exact h
  | cons event events ih =>
    obtain ⟨next, hstep, hrun⟩ := Option.bind_eq_some_iff.1 hrun
    exact ih (.step h trivial hstep) hrun

/-- A page of a filter the row is outside. -/
def emptyPage : DashboardPage := ⟨[], 0, none⟩

/-- The same pull request at a head it was moved to. -/
def movedPr : PrRecord := { calmPr with headSha := "def456" }

/-- A row is opened, a page lands that does not show it, and it is asked
about. -/
def asking : DrawerWorld where
  detail := some (.loaded calmPr)
  page := .loaded emptyPage
  reads := [⟨.loaded calmPr, none⟩]
  last := some emptyPage
  landed := 1
  handed := false
  readAt := none

/-- A page lands that shows the row as it was. -/
def shownAgain : DrawerWorld :=
  { asking with page := .loaded calmPage, last := some calmPage, landed := 2 }

/-- The read model answers only then, with the head moved. -/
def answeredAfter : DrawerWorld :=
  { shownAgain with reads := [⟨.loaded calmPr, some (.ok (some movedPr), 2)⟩] }

/-- That answer lands. -/
def readAfter : DrawerWorld :=
  { shownAgain with detail := some (.loaded movedPr), reads := [], readAt := some 2 }

theorem drawer_follows_page_readAfter : readAfter.FollowsPage := by
  have hcomes : Comes Anything readAfter :=
    comes_run (.opened none) (show (opened none).run
      [.openRow calmPr, .pageLands (.loaded emptyPage), .pageLands (.loaded calmPage),
        .serves 0 (.ok (some movedPr)), .answers 0] = some readAfter from rfl)
  refine (drawer_follows_page hcomes).1 ?_
  have hopened : Comes InTime
      { opened none with detail := some (.loaded calmPr), handed := true } :=
    .step (.opened none) (show (opened none).InTime (.openRow calmPr) from trivial)
      (rfl : (opened none).step (.openRow calmPr) = some { opened none with
        detail := some (.loaded calmPr), handed := true })
  have hasking : Comes InTime asking := by
    refine .step hopened ?_ (rfl : DrawerWorld.step { opened none with
      detail := some (.loaded calmPr), handed := true }
        (.pageLands (.loaded emptyPage)) = some asking)
    intro page _ hsame
    cases hsame
  have hshown : Comes InTime shownAgain := by
    refine .step hasking ?_ (rfl : asking.step (.pageLands (.loaded calmPage)) = some shownAgain)
    intro page hpage hsame
    cases hpage
    cases hsame
  have hanswered : Comes InTime answeredAfter :=
    .step hshown (show shownAgain.InTime (.serves 0 (.ok (some movedPr))) from trivial)
      (rfl : shownAgain.step (.serves 0 (.ok (some movedPr))) = some answeredAfter)
  refine .step hanswered ?_ (rfl : answeredAfter.step (.answers 0) = some readAfter)
  intro asked answer servedAt hread _ _
  cases hread
  intro shown _
  exact .inr (.inr le_rfl)

/-- What is left when the read model had answered before the page landed, that
the pull request is gone. -/
def givenUp : DrawerWorld :=
  { shownAgain with detail := some (.gone calmPr), reads := [], readAt := some 1 }

/-- **A pull request the page shows is given up for gone**, on an answer from
before the page, which left no trace as it showed the row as it was. -/
theorem shown_row_gone : ¬ ∀ w : DrawerWorld, Comes Anything w → w.FollowsPage := by
  intro hclaim
  have hcomes : Comes Anything givenUp :=
    comes_run (.opened none) (show (opened none).run
      [.openRow calmPr, .pageLands (.loaded emptyPage), .serves 0 (.ok none),
        .pageLands (.loaded calmPage), .answers 0] = some givenUp from rfl)
  obtain ⟨hloaded, -⟩ := hclaim givenUp hcomes rfl calmPr rfl calmPr rfl
  cases hloaded

end DrawerWorld

end Ui

end Dependaboard
