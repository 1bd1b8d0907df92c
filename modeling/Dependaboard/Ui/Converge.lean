import Dependaboard.Store.CursorJson
import Dependaboard.Ui.UrlSync
/-!
# Ui — the address and the dashboard converge

Whatever the dashboard does is in the address after at most one move, and a
browser that moved is never sent on. What is missed is an old entry that shows
what the dashboard shows already: landing there writes nothing, and the batch
the entry names, or does not, stays in the address.
`converges_iff_landsRight` is that nothing else is.
-/

namespace Dependaboard

namespace Ui

/-! ## Views -/

namespace UrlState

/-- The same filter, page and open pull request. -/
def SameView (state other : UrlState) : Prop :=
  state.filter = other.filter ∧ state.cursor = other.cursor ∧ state.pr = other.pr

instance (state other : UrlState) : Decidable (SameView state other) :=
  inferInstanceAs (Decidable (_ ∧ _ ∧ _))

/-- Nothing but the text searched for is another. -/
def RefinesSearch (state previous : UrlState) : Prop :=
  state.filter.query ≠ none ∧ previous.filter.query ≠ none ∧
    SameView { state with filter.query := previous.filter.query } previous

theorem SameView.symm {state other : UrlState} (h : SameView state other) :
    SameView other state :=
  ⟨h.1.symm, h.2.1.symm, h.2.2.symm⟩

theorem sameViewAs_iff {state other : UrlState} :
    state.sameViewAs other ↔ SameView state other := by
  obtain ⟨filter, cursor, pr, batch⟩ := state
  obtain ⟨filter', cursor', pr', batch'⟩ := other
  simp [sameViewAs, SameView]

theorem refinesSearchOf_iff {state previous : UrlState} (h : state.batch = previous.batch) :
    state.refinesSearchOf previous ↔ RefinesSearch state previous := by
  obtain ⟨filter, cursor, pr, batch⟩ := state
  obtain ⟨filter', cursor', pr', batch'⟩ := previous
  obtain rfl : batch = batch' := h
  simp [refinesSearchOf, RefinesSearch, SameView, Option.isSome_iff_ne_none, and_assoc]

end UrlState

open UrlState

/-! ## The effects -/

namespace Synced

variable {readers : Readers}

theorem navigate_eq (s : Synced) (filter : PrFilter) (cursor : Option String) :
    s.navigate filter cursor = { s with
      filter := filter
      cursor := cursor
      changed := s.changed || decide (s.filter ≠ filter) || decide (s.cursor ≠ cursor) } := by
  unfold navigate
  by_cases hfilter : s.filter = filter <;> by_cases hcursor : s.cursor = cursor <;>
    subst_vars <;> simp [*]

variable (readers) in
/-- The batch the address has the dashboard take up. -/
def takesUp (s : Synced) : Option String :=
  if s.opened then none else (fromRoute readers s.history.current).batch

/-- **What following the browser comes to.** -/
theorem followBrowser_eq (s : Synced) :
    s.followBrowser readers =
      let next := fromRoute readers s.history.current
      { s with
        filter := next.filter
        cursor := next.cursor
        detail := if s.detail.map OpenPr.key = next.pr then s.detail else next.pr.map .loading
        followed := (s.takesUp readers).or s.followed
        opened := s.opened || (s.takesUp readers).isSome
        browserMoved := false
        changed := s.changed || !decide (SameView next s.state) ||
          decide ((s.takesUp readers).or s.followed ≠ s.followed)
        adopted := s.adopted ++ (s.takesUp readers).toList } := by
  unfold followBrowser
  simp only [navigate_eq]
  generalize hnext : fromRoute readers s.history.current = next
  have hview : (!decide (SameView next s.state)) = (decide (s.filter ≠ next.filter) ||
      decide (s.cursor ≠ next.cursor) || decide (s.detail.map OpenPr.key ≠ next.pr)) := by
    simp [SameView, state, eq_comm, Bool.or_assoc]
  have htakes : s.takesUp readers = if s.opened then none else next.batch := by
    rw [takesUp, hnext]
  rw [hview, htakes]
  -- The drawer is written where its key differs, a batch where the latch is open.
  by_cases hpr : s.detail.map OpenPr.key = next.pr <;> cases hbatch : next.batch with
  | none => simp [hpr, setDetail, Bool.or_assoc]
  | some batch =>
    cases hopened : s.opened with
    | true => simp [hpr, setDetail, Bool.or_assoc]
    | false =>
      by_cases hfollowed : s.followed = some batch <;>
        simp [hpr, setDetail, onbatch, attachBatch, hfollowed, setFollowed, eq_comm, Bool.or_assoc]

variable (readers) in
/-- The effects, run to their rest. -/
def settle (s : Synced) : List HistoryMove × Synced :=
  let s := if s.browserMoved then s.followBrowser readers else s
  if s.changed then ([(s.leadBrowser readers).1], (s.leadBrowser readers).2) else ([], s)

theorem followBrowser_browserMoved (s : Synced) :
    (s.followBrowser readers).browserMoved = false := by rw [followBrowser_eq]

theorem settle_rest {s : Synced} (hmoved : s.browserMoved = false) (hchanged : s.changed = false) :
    s.settle readers = ([], s) := by
  simp [settle, hmoved, hchanged]

theorem settle_lead {s : Synced} (hmoved : s.browserMoved = false) (hchanged : s.changed = true) :
    s.settle readers = ([(s.leadBrowser readers).1], (s.leadBrowser readers).2) := by
  simp [settle, hmoved, hchanged]

theorem settle_follow {s : Synced} (hmoved : s.browserMoved = true) :
    s.settle readers = (s.followBrowser readers).settle readers := by
  simp [settle, hmoved, followBrowser_browserMoved]

/-- The effects come to rest. -/
theorem settles_settle (s : Synced) :
    Settles readers s (s.settle readers).1 (s.settle readers).2 := by
  have hrests (s : Synced) (hmoved : s.browserMoved = false) :
      Settles readers s (s.settle readers).1 (s.settle readers).2 := by
    cases hchanged : s.changed with
    | false => rw [settle_rest hmoved hchanged]; exact .rest hmoved hchanged
    | true => rw [settle_lead hmoved hchanged]; exact .lead hmoved hchanged (.rest hmoved rfl)
  cases hmoved : s.browserMoved with
  | false => exact hrests s hmoved
  | true =>
    rw [settle_follow hmoved]
    exact .follow hmoved (hrests _ (followBrowser_browserMoved s))

/-- **The effects come to rest in one way.** -/
theorem settles_iff {s s' : Synced} {moves : List HistoryMove} :
    Settles readers s moves s' ↔ s.settle readers = (moves, s') := by
  constructor
  · -- On the effects as they run: each step is the one the function takes.
    intro h
    induction h with
    | rest hmoved hchanged => exact settle_rest hmoved hchanged
    | follow hmoved _ ih => rw [settle_follow hmoved, ih]
    | @lead s _ _ hmoved hchanged _ ih =>
      have hrest : (s.leadBrowser readers).2.settle readers = ([], (s.leadBrowser readers).2) :=
        settle_rest hmoved rfl
      rw [hrest] at ih
      obtain ⟨rfl, rfl⟩ := Prod.mk.inj ih
      exact settle_lead hmoved hchanged
  · intro h
    have hsettles := @settles_settle readers s
    rw [h] at hsettles
    exact hsettles

/-! ## The address -/

variable (readers) in
/-- **The address and the dashboard are in step**, and at rest. -/
structure InStep (s : Synced) : Prop where
  moved : s.browserMoved = false
  changed : s.changed = false
  built : s.state.Built readers
  address : s.history.current = s.state.toRoute readers
  drawer : s.wasLoading = s.loading

/-- The state the address names is the dashboard's. -/
theorem InStep.named {s : Synced} (h : InStep readers s) :
    fromRoute readers s.history.current = s.state := by
  rw [h.address, h.built.fromRoute_toRoute]

theorem InStep.view {s : Synced} (h : InStep readers s) :
    SameView (fromRoute readers s.history.current) s.state := by
  rw [h.named]
  exact ⟨rfl, rfl, rfl⟩

/-- **The browser led is in step.** -/
theorem inStep_leadBrowser {s : Synced} (hbuilt : s.state.Built readers)
    (hmoved : s.browserMoved = false) : InStep readers (s.leadBrowser readers).2 where
  moved := hmoved
  changed := rfl
  built := hbuilt
  drawer := rfl
  address := by
    change (leadBrowser readers s).2.history.current = s.state.toRoute readers
    unfold leadBrowser
    dsimp only
    split
    · next hstay =>
      unfold historyMove at hstay
      dsimp only at hstay
      split_ifs at hstay with hsame hroute
      exact hroute.symm
    · rfl
    · rfl

theorem historyMove_eq_push {state : UrlState} {route : String} {gaveUp : Bool} :
    state.historyMove readers route gaveUp = .push ↔
      ¬ SameView state (fromRoute readers route) ∧
        ¬ state.refinesSearchOf (fromRoute readers route) ∧ ¬ gaveUp := by
  unfold historyMove
  dsimp only
  by_cases hsame : state = fromRoute readers route
  · have hview : SameView state (fromRoute readers route) := hsame ▸ ⟨rfl, rfl, rfl⟩
    rw [if_pos hsame]
    split_ifs <;> simp [hview]
  · rw [if_neg hsame, ← sameViewAs_iff]
    split_ifs with h
    · simp only [Bool.or_eq_true] at h
      simp only [false_iff]
      tauto
    · simp only [Bool.or_eq_true] at h
      simp only [true_iff]
      tauto

end Synced

open Synced

/-! ## A step -/

/-- The drawer gave up the pull request it was reading. -/
def GaveUp (before after : Synced) : Prop := before.loading ∧ after.detail = none

/-- **How a step is answered.** -/
structure Answered (readers : Readers) (s : Synced) (turn : Turn) (moves : List HistoryMove)
    (s' : Synced) : Prop where
  once : (moves.filter (· ≠ .stay)).length ≤ 1
  address : s'.history.current = s'.state.toRoute readers
  view : SameView (fromRoute readers s'.history.current) s'.state
  /-- A browser that moved is not sent on, and keeps what is ahead. -/
  browser : ∀ landed, turn = .browse landed →
    .push ∉ moves ∧ s'.history.past = landed.past ∧ s'.history.future = landed.future
  /-- A change is pushed where it is more than a search refined, or a pull
  request given up. -/
  change : ∀ change, turn = .change change →
    (.push ∈ moves ↔ ¬ SameView s'.state (fromRoute readers s.history.current) ∧
      ¬ RefinesSearch s'.state (fromRoute readers s.history.current) ∧ ¬ GaveUp s s')

/-- **The effects converge** on one answer to a step, and it is right. -/
def Converges (readers : Readers) (s : Synced) (turn : Turn) : Prop :=
  ∃ moves s', Answered readers s turn moves s' ∧
    ∀ moves' after, Settles readers (s.take turn) moves' after ↔ moves' = moves ∧ after = s'

/-- **Where the browser lands is in the address**: it shows another view, or is
the dashboard's own address, or has a batch taken up. -/
def LandsRight (readers : Readers) (s : Synced) (turn : Turn) : Prop :=
  ∀ landed, turn = .browse landed →
    ¬ SameView (fromRoute readers landed.current) s.state ∨
      landed.current = s.state.toRoute readers ∨
      ∃ batch, (fromRoute readers landed.current).batch = some batch ∧ s.opened = false ∧
        s.followed ≠ some batch

/-- What the step leaves the controls can build. -/
def Builds (readers : Readers) (s : Synced) (turn : Turn) : Prop :=
  (s.take turn).state.Built readers

/-- A step that leaves what the controls can build, the browser landing
right. -/
def Answerable (readers : Readers) (s : Synced) (turn : Turn) : Prop :=
  Builds readers s turn ∧ LandsRight readers s turn

variable {readers : Readers}

theorem converges_iff {s : Synced} {turn : Turn} :
    Converges readers s turn ↔
      Answered readers s turn ((s.take turn).settle readers).1
        ((s.take turn).settle readers).2 := by
  simp only [Converges, settles_iff]
  constructor
  · rintro ⟨moves, s', hanswered, honly⟩
    rw [(honly moves s').2 ⟨rfl, rfl⟩]
    exact hanswered
  · refine fun h => ⟨_, _, h, fun moves' after => ?_⟩
    rw [Prod.ext_iff]
    exact and_congr eq_comm eq_comm

/-- What the browser is led to is answered, whatever had it led. -/
theorem answered_leadBrowser {s s₀ : Synced} {turn : Turn} (hbuilt : s.state.Built readers)
    (hmoved : s.browserMoved = false)
    (hbrowser : ∀ landed, turn = .browse landed → s.history = landed ∧
      SameView s.state (fromRoute readers landed.current))
    (hchange : ∀ change, turn = .change change → s.history = s₀.history ∧
      s.wasLoading = s₀.loading ∧ (SameView s.state (fromRoute readers s.history.current) ∨
        s.state.batch = (fromRoute readers s.history.current).batch)) :
    Answered readers s₀ turn [(s.leadBrowser readers).1] (s.leadBrowser readers).2 := by
  have hinStep := inStep_leadBrowser hbuilt hmoved
  refine ⟨List.length_filter_le _ _, hinStep.address, ?_, ?_, ?_⟩
  · rw [hinStep.named]
    exact ⟨rfl, rfl, rfl⟩
  · intro landed hturn
    obtain ⟨rfl, hview⟩ := hbrowser landed hturn
    have hmove : (s.leadBrowser readers).1 ≠ .push := fun hpush =>
      (historyMove_eq_push.1 hpush).1 hview
    refine ⟨by simpa using hmove.symm, ?_⟩
    cases hled : s.state.historyMove readers s.history.current
      (s.wasLoading && s.state.pr.isNone) with
    | stay =>
      simp only [leadBrowser, hled]
      exact ⟨trivial, trivial⟩
    | replace =>
      simp only [leadBrowser, hled]
      exact ⟨rfl, rfl⟩
    | push => exact absurd hled hmove
  · intro change hturn
    obtain ⟨hhistory, hdrawer, hbatch⟩ := hchange change hturn
    have hpush : HistoryMove.push ∈ [(s.leadBrowser readers).1] ↔
        (s.leadBrowser readers).1 = .push := by simp [eq_comm]
    have hgaveUp : (s.wasLoading && s.state.pr.isNone) = true ↔
        GaveUp s₀ (s.leadBrowser readers).2 := by
      simp [GaveUp, hdrawer, state, leadBrowser]
    change _ ↔ ¬ SameView s.state _ ∧ ¬ RefinesSearch s.state _ ∧ _
    rw [hpush, leadBrowser, ← hhistory]
    dsimp only
    rw [historyMove_eq_push, hgaveUp]
    -- The code holds a refined search against the batch too, which a change to
    -- the view leaves alone.
    rcases hbatch with hview | hbatch
    · exact ⟨fun h => absurd hview h.1, fun h => absurd hview h.1⟩
    · rw [refinesSearchOf_iff hbatch]
      rfl

theorem make_frame (s : Synced) (change : Change) :
    (s.make change).history = s.history ∧ (s.make change).wasLoading = s.wasLoading ∧
      (s.make change).browserMoved = s.browserMoved := by
  cases change <;> exact ⟨rfl, rfl, rfl⟩

/-- A change is heard of, where there is one. -/
theorem make_heard (s : Synced) (change : Change) :
    (s.make change).changed = true ∨ s.make change = s := by
  cases change with
  | filter filter => exact .inl rfl
  | loadNext cursor => exact .inl rfl
  | detail detail => exact .inl rfl
  | followed followed =>
    by_cases hfollowed : s.followed = followed
    · subst hfollowed
      exact .inr (by simp [make, setFollowed])
    · exact .inl (by simp [make, setFollowed, hfollowed])

/-- A change is to the view, or to the batch. -/
theorem make_state (s : Synced) (change : Change) :
    SameView (s.make change).state s.state ∨ (s.make change).state.batch = s.state.batch := by
  cases change with
  | followed followed => exact .inl ⟨rfl, rfl, rfl⟩
  | _ => exact .inr rfl

/-- **A change is answered, and leaves the two in step.** -/
theorem change_answered {s : Synced} (h : InStep readers s) {change : Change}
    (hbuilt : Builds readers s (.change change)) :
    Answered readers s (.change change) ((s.take (.change change)).settle readers).1
        ((s.take (.change change)).settle readers).2 ∧
      InStep readers ((s.take (.change change)).settle readers).2 := by
  obtain ⟨hhistory, hwas, hmoved⟩ := make_frame s change
  rw [h.moved] at hmoved
  change (s.make change).state.Built readers at hbuilt
  change Answered readers s _ ((s.make change).settle readers).1 ((s.make change).settle readers).2
    ∧ InStep readers ((s.make change).settle readers).2
  -- A change that is none, the batch followed once more, runs no effect.
  rcases make_heard s change with hchanged | hsame
  · rw [settle_lead hmoved hchanged]
    refine ⟨answered_leadBrowser hbuilt hmoved (fun _ hturn => absurd hturn nofun) fun _ _ =>
      ⟨hhistory, hwas.trans h.drawer, ?_⟩, inStep_leadBrowser hbuilt hmoved⟩
    rw [hhistory, h.named]
    exact make_state s change
  · rw [hsame, settle_rest h.moved h.changed]
    refine ⟨⟨Nat.zero_le _, h.address, h.view, fun _ hturn => absurd hturn nofun, fun _ _ => ?_⟩, h⟩
    exact ⟨fun hmem => absurd hmem List.not_mem_nil, fun hpush => absurd h.view.symm hpush.1⟩

/-! ### A browser that moved -/

theorem map_key_loading (pr : Option PrKey) : (pr.map OpenPr.loading).map OpenPr.key = pr := by
  cases pr <;> rfl

/-- The state the dashboard follows the browser to. -/
theorem followBrowser_state (s : Synced) :
    (s.followBrowser readers).state =
      { fromRoute readers s.history.current with batch := (s.takesUp readers).or s.followed } := by
  rw [followBrowser_eq]
  by_cases hpr : s.detail.map OpenPr.key = (fromRoute readers s.history.current).pr
  · simp [state, hpr]
  · simp only [state, if_neg hpr, map_key_loading]

/-- **What the browser leads to, the controls can build.** -/
theorem built_followBrowser {s : Synced} (hbuilt : s.state.Built readers) :
    (s.followBrowser readers).state.Built readers := by
  have hnamed := @built_fromRoute readers s.history.current
  rw [followBrowser_state]
  refine { hnamed with batch := fun batch hbatch => ?_ }
  rcases Option.or_eq_some_iff.1 hbatch with htakes | ⟨-, hfollowed⟩
  · unfold takesUp at htakes
    split at htakes
    · cases htakes
    · exact hnamed.batch batch htakes
  · exact hbuilt.batch batch hfollowed

/-- A batch is taken up that is not followed. -/
theorem or_takesUp_ne {s : Synced} :
    (s.takesUp readers).or s.followed ≠ s.followed ↔
      ∃ batch, (fromRoute readers s.history.current).batch = some batch ∧ s.opened = false ∧
        s.followed ≠ some batch := by
  unfold takesUp
  cases hopened : s.opened with
  | true => simp
  | false =>
    cases hbatch : (fromRoute readers s.history.current).batch with
    | none => simp
    | some batch => simp [eq_comm]

/-- The dashboard heard of the browser's move. -/
theorem changed_followBrowser {s : Synced} (hchanged : s.changed = false) :
    (s.followBrowser readers).changed = true ↔
      ¬ SameView (fromRoute readers s.history.current) s.state ∨
        ∃ batch, (fromRoute readers s.history.current).batch = some batch ∧ s.opened = false ∧
          s.followed ≠ some batch := by
  rw [← or_takesUp_ne, followBrowser_eq]
  simp [hchanged]

/-- A move that is not heard of leaves the dashboard as it was. -/
theorem followBrowser_of_not_changed {s : Synced}
    (h : (s.followBrowser readers).changed = false) :
    (s.followBrowser readers).state = s.state ∧
      (s.followBrowser readers).loading = s.loading := by
  rw [followBrowser_eq] at h
  simp only [Bool.or_eq_false_iff, Bool.not_eq_false', decide_eq_true_eq, decide_eq_false_iff_not,
    ne_eq, not_not] at h
  obtain ⟨⟨-, hfilter, hcursor, hpr⟩, hfollowed⟩ := h
  constructor
  · rw [followBrowser_state, hfollowed]
    dsimp only
    rw [hfilter, hcursor, hpr]
    rfl
  · rw [followBrowser_eq]
    simp only [loading, state] at hpr ⊢
    rw [if_pos hpr.symm]

/-- **A browser that moved is answered where it lands right**, which leaves the
two in step. -/
theorem browse_answered_iff {s : Synced} (h : InStep readers s) (landed : History) :
    (Answered readers s (.browse landed) ((s.take (.browse landed)).settle readers).1
        ((s.take (.browse landed)).settle readers).2 ↔
      LandsRight readers s (.browse landed)) ∧
    (LandsRight readers s (.browse landed) →
      InStep readers ((s.take (.browse landed)).settle readers).2) := by
  rw [settle_follow rfl]
  have hmoved := @followBrowser_browserMoved readers (s.take (.browse landed))
  have hhistory : ((s.take (.browse landed)).followBrowser readers).history = landed := by
    rw [followBrowser_eq]
    rfl
  have hheard := @changed_followBrowser readers (s.take (.browse landed)) h.changed
  -- Where nothing was written the address stands as the browser left it.
  cases hchanged : ((s.take (.browse landed)).followBrowser readers).changed with
  | true =>
    have hbuilt := @built_followBrowser readers (s.take (.browse landed)) h.built
    have hlands : LandsRight readers s (.browse landed) := by
      rintro _ ⟨⟩
      exact (hheard.1 hchanged).imp_right .inr
    rw [settle_lead hmoved hchanged]
    refine ⟨iff_of_true (answered_leadBrowser hbuilt hmoved ?_
      fun _ hturn => absurd hturn nofun) hlands,
      fun _ => inStep_leadBrowser hbuilt hmoved⟩
    rintro _ ⟨⟩
    rw [followBrowser_state]
    exact ⟨hhistory, rfl, rfl, rfl⟩
  | false =>
    obtain ⟨hstate, hloading⟩ := followBrowser_of_not_changed hchanged
    have hdrawer : ((s.take (.browse landed)).followBrowser readers).wasLoading =
        s.wasLoading := by
      rw [followBrowser_eq]
      rfl
    have hlands : LandsRight readers s (.browse landed) ↔
        landed.current = s.state.toRoute readers := by
      rw [hchanged] at hheard
      have hnot := hheard.not.1 Bool.false_ne_true
      constructor
      · intro hright
        rcases hright landed rfl with hview | haddress | htakes
        · exact absurd (.inl hview) hnot
        · exact haddress
        · exact absurd (.inr htakes) hnot
      · rintro haddress _ ⟨⟩
        exact .inr (.inl haddress)
    rw [settle_rest hmoved hchanged, hlands]
    have hinStep (haddress : landed.current = s.state.toRoute readers) :
        InStep readers ((s.take (.browse landed)).followBrowser readers) :=
      { moved := hmoved
        changed := hchanged
        built := hstate ▸ h.built
        address := by rw [hhistory, hstate, haddress]; rfl
        drawer := by rw [hdrawer, hloading, h.drawer]; rfl }
    refine ⟨⟨fun hanswered => ?_, fun haddress => ⟨Nat.zero_le _, (hinStep haddress).address,
      (hinStep haddress).view, ?_, fun _ hturn => absurd hturn nofun⟩⟩, hinStep⟩
    · have haddress := hanswered.address
      rw [hhistory, hstate] at haddress
      exact haddress
    · rintro _ ⟨⟩
      rw [hhistory]
      exact ⟨List.not_mem_nil, rfl, rfl⟩

/-! ## Every run -/

theorem openAt_state (opening : History) :
    (openAt readers opening).state = { fromRoute readers opening.current with batch := none } := by
  simp only [openAt, state, map_key_loading]

/-- The opening leaves the two in step. -/
theorem inStep_openAt (opening : History) :
    InStep readers ((openAt readers opening).settle readers).2 := by
  have hchanged : ((openAt readers opening).followBrowser readers).changed = true := by
    rw [followBrowser_eq]
    rfl
  have hbuilt : ((openAt readers opening).followBrowser readers).state.Built readers := by
    have hnamed := @built_fromRoute readers opening.current
    refine built_followBrowser ?_
    rw [openAt_state]
    exact { hnamed with batch := nofun }
  rw [settle_follow rfl, settle_lead (followBrowser_browserMoved _) hchanged]
  exact inStep_leadBrowser hbuilt (followBrowser_browserMoved _)

theorem Run.mono {Allowed Allowed' : Synced → Turn → Prop} {opening : History}
    {turns : List Turn} {s : Synced} (himp : ∀ s turn, Allowed s turn → Allowed' s turn)
    (h : Run readers Allowed opening turns s) : Run readers Allowed' opening turns s := by
  induction h with
  | opened h => exact .opened h
  | step _ htake hallowed h ih => exact .step ih htake (himp _ _ hallowed) h

/-- **In step along every run** whose browser lands right. -/
theorem Run.inStep {opening : History} {turns : List Turn} {s : Synced}
    (h : Run readers (Answerable readers) opening turns s) : InStep readers s := by
  induction h with
  | opened h =>
    have hinStep := @inStep_openAt readers opening
    rw [settles_iff] at h
    rwa [h] at hinStep
  | @step _ turn _ s _ _ _ hallowed h ih =>
    rw [settles_iff] at h
    cases turn with
    | change change =>
      have hinStep := (change_answered ih hallowed.1).2
      rwa [h] at hinStep
    | browse landed =>
      have hinStep := (browse_answered_iff ih landed).2 hallowed.2
      rwa [h] at hinStep

/-- **The address and the dashboard converge** on every step exactly where a
browser lands right: in every run whose steps do, the two are in step, and the
next is answered where it does. -/
theorem converges_iff_landsRight {opening : History} {turns : List Turn} {s : Synced}
    (h : Run readers (Answerable readers) opening turns s) :
    InStep readers s ∧ ∀ turn, s.CanTake turn → Builds readers s turn →
      (Converges readers s turn ↔ LandsRight readers s turn) := by
  refine ⟨h.inStep, fun turn _ hbuilds => ?_⟩
  rw [converges_iff]
  cases turn with
  | change change =>
    exact iff_of_true (change_answered h.inStep hbuilds).1 fun _ hturn => absurd hturn nofun
  | browse landed => exact (browse_answered_iff h.inStep landed).1

/-- A change goes on with a run. -/
theorem Run.changed {opening : History} {turns : List Turn} {moves : List HistoryMove}
    {s s' : Synced} (hrun : Run readers (Answerable readers) opening turns s) (change : Change)
    (hbuilds : Builds readers s (.change change))
    (h : Settles readers (s.take (.change change)) moves s') :
    Run readers (Answerable readers) opening (turns ++ [.change change]) s' :=
  hrun.step trivial ⟨hbuilds, nofun⟩ h

/-! ## An old entry that shows what is shown -/

variable (readers) in
/-- The dashboard at rest on the first page of `filter`, following `batch`,
between the entries `past` and `future`. -/
def shown (filter : PrFilter) (batch : Option String) (past future : List String)
    (opened : Bool) (adopted : List String) : Synced where
  filter := filter
  cursor := none
  detail := none
  followed := batch
  history := ⟨past, UrlState.toRoute readers ⟨filter, none, none, batch⟩, future⟩
  opened := opened
  wasLoading := false
  browserMoved := false
  changed := false
  adopted := adopted

section

variable {filter : PrFilter} {batch : Option String} {past future : List String} {opened : Bool}
  {adopted : List String}

/-- A dashboard opens on the first page of everything. -/
theorem settle_openAt (route : String) (past future : List String)
    (hroute : UrlState.toRoute readers default = route) :
    (openAt readers ⟨past, route, future⟩).settle readers =
      ([.stay], shown readers default none past future false []) := by
  have hnamed : fromRoute readers route = ⟨default, none, none, none⟩ :=
    hroute ▸ (@built_default readers).fromRoute_toRoute
  have hopens : (openAt readers ⟨past, route, future⟩).followBrowser readers =
      { openAt readers ⟨past, route, future⟩ with browserMoved := false } := by
    rw [followBrowser_eq]
    simp [openAt, hnamed, takesUp, SameView, state]
  rw [settle_follow rfl, hopens, settle_lead rfl rfl]
  have hhome : UrlState.toRoute readers ⟨default, none, none, none⟩ = route := hroute
  simp [openAt, leadBrowser, shown, state, historyMove, hnamed, hhome, loading]

/-- Another filter is pushed. -/
theorem settle_filter (next : PrFilter) (hne : next ≠ filter) (hquery : next.query = none)
    (hbuilt : (⟨filter, none, none, batch⟩ : UrlState).Built readers) :
    ((shown readers filter batch past future opened adopted).take
        (.change (.filter next))).settle readers =
      ([.push], shown readers next batch
        (UrlState.toRoute readers ⟨filter, none, none, batch⟩ :: past) [] opened adopted) := by
  have hnamed := hbuilt.fromRoute_toRoute
  have hother : (⟨next, none, none, batch⟩ : UrlState) ≠ ⟨filter, none, none, batch⟩ :=
    fun h => hne (congrArg UrlState.filter h)
  rw [settle_lead rfl rfl]
  simp [leadBrowser, take, make, shown, state, historyMove, hnamed, hother, refinesSearchOf, hquery,
    sameViewAs, History.push, loading]

/-- Another batch takes the entry's place. -/
theorem settle_batch (next : Option String) (hne : next ≠ batch)
    (hbuilt : (⟨filter, none, none, batch⟩ : UrlState).Built readers) :
    ((shown readers filter batch past future opened adopted).take
        (.change (.followed next))).settle readers =
      ([.replace], shown readers filter next past future opened adopted) := by
  have hnamed := hbuilt.fromRoute_toRoute
  have hother : (⟨filter, none, none, next⟩ : UrlState) ≠ ⟨filter, none, none, batch⟩ :=
    fun h => hne (congrArg UrlState.batch h)
  have hheard : ((shown readers filter batch past future opened adopted).take
      (.change (.followed next))).changed = true := by
    simp [take, make, setFollowed, shown, hne.symm]
  rw [settle_lead rfl hheard]
  simp [leadBrowser, take, make, shown, state, historyMove, hnamed, hother, refinesSearchOf,
    sameViewAs, setFollowed, History.replace, loading]

end

/-- A batch of the samples, and another. -/
def sampleBatch : String := "01926e3a-7c1e-7b7d-9f8b-2b4c6d8e0f1a"

/-- A second batch, for an address that names another than the
one followed. -/
def otherBatch : String := "01926e3a-7c1e-7b7d-9f8b-2b4c6d8e0f1b"

/-- Readers that know the two. -/
def sampleReaders : Readers :=
  ⟨urlencoded, cursorJson, fun id => decide (id = sampleBatch ∨ id = otherBatch)⟩

/-- The view of what needs attention. -/
def attention : PrFilter := { (default : PrFilter) with needsAttention := true }

/-- What the samples show, the controls can build. -/
theorem built_sample {filter : PrFilter} (hfilter : filter = default ∨ filter = attention)
    {batch : Option String} (hbatch : ∀ id ∈ batch, id = sampleBatch ∨ id = otherBatch) :
    (⟨filter, none, none, batch⟩ : UrlState).Built sampleReaders := by
  have hnamed := @built_default sampleReaders
  rcases hfilter with rfl | rfl <;>
    exact { hnamed with batch := fun id hid => decide_eq_true (hbatch id hid) }

theorem home_eq : UrlState.toRoute sampleReaders default = "/" := by decide

/-- The address of what needs attention. -/
def attentionRoute : String := UrlState.toRoute sampleReaders ⟨attention, none, none, none⟩

/-- A batch followed behind a view turned on and off. -/
theorem run_sample : Run sampleReaders (Answerable sampleReaders) ⟨[], "/", []⟩
    [.change (.filter attention), .change (.filter default), .change (.followed (some sampleBatch))]
    (shown sampleReaders default (some sampleBatch) [attentionRoute, "/"] [] false []) := by
  have hnone : ∀ id ∈ (none : Option String), id = sampleBatch ∨ id = otherBatch := nofun
  have hsome : ∀ id ∈ some sampleBatch, id = sampleBatch ∨ id = otherBatch := by simp
  have hhome := built_sample (.inl rfl) hnone
  have hattention := built_sample (.inr rfl) hnone
  have hon : Settles sampleReaders ((shown sampleReaders default none [] [] false []).take
      (.change (.filter attention))) [.push]
      (shown sampleReaders attention none [UrlState.toRoute sampleReaders default] [] false []) :=
    settles_iff.2 (settle_filter attention (by decide) rfl hhome)
  have hoff : Settles sampleReaders ((shown sampleReaders attention none ["/"] [] false []).take
      (.change (.filter default))) [.push]
      (shown sampleReaders default none [attentionRoute, "/"] [] false []) :=
    settles_iff.2 (settle_filter default (by decide) rfl hattention)
  have hfollows : Settles sampleReaders ((shown sampleReaders default none [attentionRoute, "/"] []
      false []).take (.change (.followed (some sampleBatch)))) [.replace]
      (shown sampleReaders default (some sampleBatch) [attentionRoute, "/"] [] false []) :=
    settles_iff.2 (settle_batch (some sampleBatch) nofun hhome)
  rw [home_eq] at hon
  have hopened : Run sampleReaders (Answerable sampleReaders) ⟨[], "/", []⟩ [] _ :=
    .opened (settles_iff.2 (settle_openAt "/" [] [] home_eq))
  have hturnedOn := hopened.changed (.filter attention) hattention hon
  have hturnedOff := hturnedOn.changed (.filter default) hhome hoff
  exact hturnedOff.changed (.followed (some sampleBatch)) (built_sample (.inl rfl) hsome) hfollows

theorem converges_iff_landsRight_sample :
    InStep sampleReaders
        (shown sampleReaders default (some sampleBatch) [attentionRoute, "/"] [] false []) ∧
      Converges sampleReaders
        (shown sampleReaders default (some sampleBatch) [attentionRoute, "/"] [] false [])
        (.change (.followed none)) := by
  have hnone : ∀ id ∈ (none : Option String), id = sampleBatch ∨ id = otherBatch := nofun
  have h := converges_iff_landsRight run_sample
  exact ⟨h.1, (h.2 (.change (.followed none)) trivial (built_sample (.inl rfl) hnone)).2 nofun⟩

/-- **Back to an entry that shows what is shown**, from before the batch was
followed, leaves the address without it. -/
theorem old_entry_kept : ¬ ∀ (readers : Readers) (opening : History) (turns : List Turn)
    (s : Synced), Run readers (Builds readers) opening turns s →
      ∀ turn, s.CanTake turn → Builds readers s turn → Converges readers s turn := by
  intro hclaim
  have hsome : ∀ id ∈ some sampleBatch, id = sampleBatch ∨ id = otherBatch := by simp
  have hbuilt := built_sample (.inl rfl) hsome
  let followed := UrlState.toRoute sampleReaders ⟨default, none, none, some sampleBatch⟩
  let back : Turn := .browse ⟨[], "/", [attentionRoute, followed]⟩
  have hconverges := hclaim _ _ _ _ (run_sample.mono fun _ _ => And.left) back (.go rfl) hbuilt
  have hhome : fromRoute sampleReaders "/" = default :=
    home_eq ▸ (@built_default sampleReaders).fromRoute_toRoute
  have hlands := (browse_answered_iff run_sample.inStep _).1.1 (converges_iff.1 hconverges)
  rcases hlands _ rfl with hview | haddress | ⟨_, hnamed, _⟩
  · rw [hhome] at hview
    exact hview ⟨rfl, rfl, rfl⟩
  · have hsame := congrArg (fromRoute sampleReaders) haddress
    change fromRoute sampleReaders "/" = fromRoute sampleReaders followed at hsame
    rw [hhome, hbuilt.fromRoute_toRoute] at hsame
    cases hsame
  · rw [hhome] at hnamed
    cases hnamed

end Ui

end Dependaboard
