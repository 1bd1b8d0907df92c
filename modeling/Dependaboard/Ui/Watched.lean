import Dependaboard.Ui.Live
/-!
# Ui — the refresh loses no change and respects a refusal

What the refresh says at a tick and of an answer, told from the calls before
it alone: `refresh_loses_nothing`. An answer is held against the one before
it, and no earlier: a counter that moved and stands is not told of again.
-/

namespace Dependaboard

namespace Ui

/-- A call of the refresh. -/
inductive RefreshCall where
  | tick (visible syncing : Bool)
  | observe (revision : ProjectionRevision)
  | miss (fault : Fault)
  deriving DecidableEq, Repr

namespace RefreshCall

/-- What a tick found of the tab and the manual sync. -/
def tick? : RefreshCall → Option (Bool × Bool)
  | tick visible syncing => some (visible, syncing)
  | _ => none

/-- The revision a call brings, if it is an answer. -/
def answer? : RefreshCall → Option ProjectionRevision
  | observe revision => some revision
  | _ => none

/-- A poll that came back without a revision, whatever the fault. -/
def isMiss : RefreshCall → Bool
  | miss _ => true
  | _ => false

end RefreshCall

namespace Refresh

/-- The refresh one call on. -/
def call (refresh : Refresh) : RefreshCall → Refresh
  | .tick visible syncing => (refresh.tick visible syncing).2
  | .observe revision => (refresh.observe revision).2
  | .miss fault => (refresh.miss fault).2

/-- **The refresh after some calls** on a fresh one. -/
def after (calls : List RefreshCall) : Refresh := calls.foldl call new

/-- What the ticks among some calls come to. -/
def steps (refresh : Refresh) : List RefreshCall → List Step
  | [] => []
  | .tick visible syncing :: calls =>
    (refresh.tick visible syncing).1 :: (refresh.tick visible syncing).2.steps calls
  | .observe revision :: calls => (refresh.observe revision).2.steps calls
  | .miss fault :: calls => (refresh.miss fault).2.steps calls

end Refresh

/-! ## What the calls alone say -/

section

variable (calls : List RefreshCall)

/-- The credentials were refused. -/
def Refused : Prop := .miss .signedOut ∈ calls

/-- How many misses came since the last answer. -/
def missesSince : ℕ :=
  (calls.reverse.takeWhile fun call => call.answer?.isNone).countP RefreshCall.isMiss

/-- The revision the page has from the calls, the last answered. -/
def lastAnswer : Option ProjectionRevision := (calls.filterMap RefreshCall.answer?).getLast?

/-- No tick was visible, or the last was not. -/
def Hidden : Prop := ∀ tick ∈ (calls.filterMap RefreshCall.tick?).getLast?, tick.1 = false

/-- How many visible ticks came since the last one without a manual sync. -/
def syncingSince : ℕ :=
  ((calls.filterMap RefreshCall.tick?).reverse.takeWhile Prod.snd).countP Prod.fst

/-- Every tick of the stretch is visible, and none has a manual sync in
flight. -/
def Idle : Prop := ∀ tick ∈ calls.filterMap RefreshCall.tick?, tick = (true, false)

/-- **The refresh loses nothing**: what it says after some calls. -/
structure LosesNothing : Prop where
  /-- After a refusal there is nothing to do. -/
  stops : Refused calls → (Refresh.after calls).connection = .signedOut ∧
    ∀ visible syncing, ((Refresh.after calls).tick visible syncing).1 = .stop
  connection : ¬ Refused calls → (Refresh.after calls).connection =
    if disconnectThreshold ≤ missesSince calls then .disconnected else .online
  hidden : ∀ syncing, ((Refresh.after calls).tick false syncing).1 ≠ .poll
  /-- A tab that shows is asked for at once, unless the budget of a manual sync
  runs out there. -/
  shows : ¬ Refused calls → Hidden calls → ∀ syncing,
    ((Refresh.after calls).tick true syncing).1 =
      if syncing ∧ syncFollowTicks + 1 ∣ syncingSince calls + 1 then .reload else .poll
  follows : ¬ Refused calls → ((Refresh.after calls).tick true true).1 =
    if syncFollowTicks + 1 ∣ syncingSince calls + 1 then .reload else .poll
  /-- However long it waits, it asks again. -/
  asks : ∀ stretch, Idle stretch →
    (stretch.filterMap RefreshCall.tick?).length = refreshTicks →
      ∃ step ∈ (Refresh.after calls).steps stretch, step ≠ .wait
  projection : ∀ revision, ((Refresh.after calls).observe revision).1.projection ↔
    0 < missesSince calls ∨ ∃ seen ∈ lastAnswer calls, seen.projection ≠ revision.projection
  pullRequests : ∀ revision, ((Refresh.after calls).observe revision).1.pullRequests ↔
    ∃ seen ∈ lastAnswer calls, seen.pullRequests ≠ revision.pullRequests

end

/-! ## One call more -/

section

variable (calls : List RefreshCall)

theorem refused_append {call : RefreshCall} :
    Refused (calls ++ [call]) ↔ Refused calls ∨ call = .miss .signedOut := by
  simp [Refused, eq_comm]

theorem missesSince_append (call : RefreshCall) :
    missesSince (calls ++ [call]) =
      if call.answer?.isNone then missesSince calls + call.isMiss.toNat else 0 := by
  unfold missesSince
  rw [List.reverse_append, List.reverse_singleton, List.singleton_append, List.takeWhile_cons]
  cases call with
  | tick visible syncing => exact List.countP_cons_of_neg nofun
  | observe revision => rfl
  | miss fault => exact List.countP_cons_of_pos rfl

theorem lastAnswer_append (call : RefreshCall) :
    lastAnswer (calls ++ [call]) = call.answer?.or (lastAnswer calls) := by
  cases call <;> simp [lastAnswer, RefreshCall.answer?]

theorem syncingSince_append (call : RefreshCall) :
    syncingSince (calls ++ [call]) = match call.tick? with
      | none => syncingSince calls
      | some (visible, syncing) => if syncing then syncingSince calls + visible.toNat else 0 := by
  unfold syncingSince
  rw [List.filterMap_append]
  cases call with
  | tick visible syncing =>
    cases syncing <;> cases visible <;> simp [RefreshCall.tick?]
  | observe revision => simp [RefreshCall.tick?]
  | miss fault => simp [RefreshCall.tick?]

theorem hidden_append (call : RefreshCall) :
    Hidden (calls ++ [call]) ↔ match call.tick? with
      | none => Hidden calls
      | some (visible, _) => visible = false := by
  cases call <;> simp [Hidden, RefreshCall.tick?]

end

/-- **What the refresh keeps** is what the calls say. -/
structure Tracks (calls : List RefreshCall) (refresh : Refresh) : Prop where
  refused : refresh.refused = true ↔ Refused calls
  misses : refresh.misses = missesSince calls
  seen : refresh.seen = lastAnswer calls
  sincePoll : refresh.sincePoll < refreshTicks
  owed : ¬ Refused calls → Hidden calls → refresh.owed = true
  followed : ¬ Refused calls → refresh.followed = syncingSince calls % (syncFollowTicks + 1)

open Refresh

theorem tracks_new : Tracks [] new where
  refused := by simp [new, Refused]
  misses := rfl
  seen := rfl
  sincePoll := by decide
  owed _ _ := rfl
  followed _ := rfl

variable {calls : List RefreshCall} {refresh : Refresh}

theorem Tracks.observe (h : Tracks calls refresh) (revision : ProjectionRevision) :
    Tracks (calls ++ [.observe revision]) (refresh.call (.observe revision)) where
  refused := by
    rw [refused_append]
    simpa [Refresh.call, Refresh.observe] using h.refused
  misses := by
    rw [missesSince_append]
    rfl
  seen := by
    rw [lastAnswer_append]
    rfl
  sincePoll := h.sincePoll
  owed hrefused hhidden := by
    rw [refused_append, or_iff_left nofun] at hrefused
    rw [hidden_append] at hhidden
    exact h.owed hrefused hhidden
  followed hrefused := by
    rw [refused_append, or_iff_left nofun] at hrefused
    rw [syncingSince_append]
    exact h.followed hrefused

theorem Tracks.miss (h : Tracks calls refresh) (fault : Fault) :
    Tracks (calls ++ [.miss fault]) (refresh.call (.miss fault)) where
  refused := by
    rw [refused_append, ← h.refused]
    simp [Refresh.call, Refresh.miss]
  misses := by
    rw [missesSince_append]
    exact congrArg (· + 1) h.misses
  seen := by
    rw [lastAnswer_append]
    exact h.seen
  sincePoll := h.sincePoll
  owed hrefused hhidden := by
    rw [refused_append] at hrefused
    rw [hidden_append] at hhidden
    exact h.owed (fun h => hrefused (.inl h)) hhidden
  followed hrefused := by
    rw [refused_append] at hrefused
    rw [syncingSince_append]
    exact h.followed fun h => hrefused (.inl h)

/-- A tick tells of nothing but the tab and the manual sync. -/
theorem Tracks.ticked (h : Tracks calls refresh) {visible syncing : Bool} {ticked : Refresh}
    (hkept : ticked.refused = refresh.refused ∧ ticked.misses = refresh.misses ∧
      ticked.seen = refresh.seen)
    (hbelow : ticked.sincePoll < refreshTicks)
    (howed : ¬ Refused calls → visible = false → ticked.owed = true)
    (hfollowed : ¬ Refused calls → ticked.followed =
      (if syncing then syncingSince calls + visible.toNat else 0) % (syncFollowTicks + 1)) :
    Tracks (calls ++ [.tick visible syncing]) ticked := by
  have hrefused : Refused (calls ++ [.tick visible syncing]) ↔ Refused calls := by
    rw [refused_append, or_iff_left nofun]
  refine ⟨?_, ?_, ?_, hbelow, fun hheld hhidden => ?_, fun hheld => ?_⟩
  · rw [hkept.1, hrefused, h.refused]
  · rw [hkept.2.1, missesSince_append]
    exact h.misses
  · rw [hkept.2.2, lastAnswer_append]
    exact h.seen
  · exact howed (hrefused.not.1 hheld) ((hidden_append calls _).1 hhidden)
  · rw [syncingSince_append]
    exact hfollowed (hrefused.not.1 hheld)

theorem syncFollowTicks_eq : syncFollowTicks = 60 := rfl

/-- The budget is spent at each tick past it. -/
theorem spent_iff (n : ℕ) : syncFollowTicks < n % (syncFollowTicks + 1) + 1 ↔
    syncFollowTicks + 1 ∣ n + 1 := by
  rw [syncFollowTicks_eq]
  omega

/-- A tick asks or waits, and keeps count. -/
theorem Tracks.tick (h : Tracks calls refresh) (visible syncing : Bool) :
    Tracks (calls ++ [.tick visible syncing]) (refresh.call (.tick visible syncing)) := by
  have hpositive : 0 < refreshTicks := by decide
  -- by what a tick asks, in the order it asks: refused, visible, syncing
  cases hrefused : refresh.refused with
  | true =>
    have hgone : Refused calls := h.refused.1 hrefused
    rw [Refresh.call, tick_of_refused hrefused]
    exact h.ticked ⟨rfl, rfl, rfl⟩ h.sincePoll (fun hheld => absurd hgone hheld)
      fun hheld => absurd hgone hheld
  | false =>
    cases visible with
    | false =>
      rw [Refresh.call, tick_hidden hrefused]
      refine h.ticked ⟨rfl, rfl, rfl⟩ h.sincePoll (fun _ _ => rfl) fun hheld => ?_
      cases syncing with
      | false => rfl
      | true => exact h.followed hheld
    | true =>
      cases syncing with
      | false =>
        rw [Refresh.call, tick_idle hrefused]
        split
        · exact h.ticked ⟨rfl, rfl, rfl⟩ hpositive (fun _ => nofun) fun _ => rfl
        · next hwaits =>
          simp only [Bool.or_eq_true, decide_eq_true_eq, not_or, not_le] at hwaits
          exact h.ticked ⟨rfl, rfl, rfl⟩ hwaits.2 (fun _ => nofun) fun _ => rfl
      | true =>
        rw [Refresh.call, tick_syncing hrefused]
        split
        · next hspent =>
          refine h.ticked ⟨rfl, rfl, rfl⟩ h.sincePoll (fun _ => nofun) fun hheld => ?_
          rw [h.followed hheld, spent_iff] at hspent
          exact (Nat.mod_eq_zero_of_dvd hspent).symm
        · next hfollows =>
          refine h.ticked ⟨rfl, rfl, rfl⟩ hpositive (fun _ => nofun) fun hheld => ?_
          have hfollowed := h.followed hheld
          simp only [syncFollowTicks_eq, Bool.toNat_true, if_true] at hfollows hfollowed ⊢
          omega

/-- **The refresh tracks the calls** made of it. -/
theorem tracks_after (calls : List RefreshCall) : Tracks calls (after calls) := by
  induction calls using List.reverseRecOn with
  | nil => exact tracks_new
  | append_singleton calls call ih =>
    rw [after, List.foldl_append]
    cases call with
    | tick visible syncing => exact ih.tick visible syncing
    | observe revision => exact ih.observe revision
    | miss fault => exact ih.miss fault

/-! ## What it says -/

/-- **It waits for fewer ticks than a poll is due in.** -/
theorem length_waits {stretch : List RefreshCall} (hbelow : refresh.sincePoll < refreshTicks)
    (hidle : Idle stretch) (hwaits : ∀ step ∈ refresh.steps stretch, step = .wait) :
    (stretch.filterMap RefreshCall.tick?).length + refresh.sincePoll < refreshTicks := by
  induction stretch generalizing refresh with
  | nil => simpa using hbelow
  | cons call stretch ih =>
    have hrest : Idle stretch := fun tick htick => hidle tick (by
      rw [List.filterMap_cons]
      cases call.tick? with
      | none => exact htick
      | some _ => exact List.mem_cons_of_mem _ htick)
    cases call with
    | observe revision => exact @ih (refresh.observe revision).2 hbelow hrest hwaits
    | miss fault => exact @ih (refresh.miss fault).2 hbelow hrest hwaits
    | tick visible syncing =>
      -- A tick that waits is one more since the last poll, and is not yet due.
      obtain ⟨rfl, rfl⟩ := Prod.mk.inj (hidle (visible, syncing) List.mem_cons_self)
      have hwait : (refresh.tick true false).1 = .wait := hwaits _ List.mem_cons_self
      have hafter (step) (hstep : step ∈ (refresh.tick true false).2.steps stretch) :
          step = .wait := hwaits step (List.mem_cons_of_mem _ hstep)
      cases hrefused : refresh.refused with
      | true =>
        rw [tick_of_refused hrefused] at hwait
        cases hwait
      | false =>
        rw [tick_idle hrefused] at hwait hafter
        split at hwait
        · cases hwait
        · next hdue =>
          rw [if_neg hdue] at hafter
          simp only [Bool.or_eq_true, decide_eq_true_eq, not_or, not_le] at hdue
          have hlength := @ih { refresh with followed := 0, sincePoll := refresh.sincePoll + 1 }
            hdue.2 hrest hafter
          simp only [List.filterMap_cons, RefreshCall.tick?, List.length_cons]
          dsimp only at hlength
          omega

theorem Tracks.held (h : Tracks calls refresh) (hheld : ¬ Refused calls) :
    refresh.refused = false :=
  Bool.eq_false_iff.2 fun hrefused => hheld (h.refused.1 hrefused)

/-- A tick of a manual sync asks, or its budget is spent. -/
theorem Tracks.follows (h : Tracks calls refresh) (hheld : ¬ Refused calls) :
    (refresh.tick true true).1 =
      if syncFollowTicks + 1 ∣ syncingSince calls + 1 then .reload else .poll := by
  rw [tick_syncing (h.held hheld), h.followed hheld]
  simp only [spent_iff]
  split <;> rfl

/-- A tab that shows is asked for at once. -/
theorem Tracks.shows (h : Tracks calls refresh) (hheld : ¬ Refused calls) (hhidden : Hidden calls)
    (syncing : Bool) : (refresh.tick true syncing).1 =
      if syncing ∧ syncFollowTicks + 1 ∣ syncingSince calls + 1 then .reload else .poll := by
  cases syncing with
  | true => simpa using h.follows hheld
  | false =>
    rw [tick_idle (h.held hheld), h.owed hheld hhidden]
    simp

/-- An answer is held against the one before it. -/
theorem Tracks.projection (h : Tracks calls refresh) (revision : ProjectionRevision) :
    (refresh.observe revision).1.projection ↔
      0 < missesSince calls ∨ ∃ seen ∈ lastAnswer calls, seen.projection ≠ revision.projection := by
  rw [← h.misses, ← h.seen]
  cases hseen : refresh.seen <;> simp [Refresh.observe, hseen]

theorem Tracks.pullRequests (h : Tracks calls refresh) (revision : ProjectionRevision) :
    (refresh.observe revision).1.pullRequests ↔
      ∃ seen ∈ lastAnswer calls, seen.pullRequests ≠ revision.pullRequests := by
  rw [← h.seen]
  cases hseen : refresh.seen <;> simp [Refresh.observe, hseen]

/-- **The refresh loses no change and respects a refusal.** -/
theorem refresh_loses_nothing (calls : List RefreshCall) : LosesNothing calls where
  stops hrefused := by
    have hgone := (tracks_after calls).refused.2 hrefused
    refine ⟨by simp [Refresh.connection, hgone], fun visible syncing => ?_⟩
    rw [tick_of_refused hgone]
  connection hheld := by
    have hrefused := (tracks_after calls).held hheld
    simp [Refresh.connection, hrefused, (tracks_after calls).misses]
  hidden syncing := by
    cases hrefused : (after calls).refused with
    | true =>
      rw [tick_of_refused hrefused]
      rintro ⟨⟩
    | false =>
      rw [tick_hidden hrefused]
      rintro ⟨⟩
  shows := (tracks_after calls).shows
  follows := (tracks_after calls).follows
  asks stretch hidle hlength := by
    by_contra hnone
    have hwaits : ∀ step ∈ (after calls).steps stretch, step = .wait := by
      simpa using hnone
    have hshort := length_waits (tracks_after calls).sincePoll hidle hwaits
    omega
  projection := (tracks_after calls).projection
  pullRequests := (tracks_after calls).pullRequests

/-- **A counter that moved and stands** is not told of again. -/
theorem moved_once : ¬ ∀ (calls : List RefreshCall) (revision : ProjectionRevision),
    ((after calls).observe revision).1.projection ↔
      0 < missesSince calls ∨ ∃ seen ∈ calls.filterMap RefreshCall.answer?,
        seen.projection ≠ revision.projection := by
  intro hclaim
  have hmoved := (hclaim [.observe ⟨1, 1⟩, .observe ⟨2, 2⟩] ⟨2, 2⟩).2
    (.inr ⟨⟨1, 1⟩, List.mem_cons_self, by decide⟩)
  exact absurd hmoved (by decide)

end Ui

end Dependaboard
