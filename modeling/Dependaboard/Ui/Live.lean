import Dependaboard.Store.Projection
import Dependaboard.Ui.Batch
/-!
# Ui — how the dashboard stays current

The refresh of a dashboard, decided one tick at a time: when the revision is
asked for, whether an answer means that rows have moved, and what the answers
and the polls that got none say of the line to the server.
-/

namespace Dependaboard

namespace Ui

/-- The line to the server, as the calls of a page find it. -/
inductive Connection where
  | online
  /-- The polls have gone unanswered. -/
  | disconnected
  /-- The credentials were refused. -/
  | signedOut
  deriving DecidableEq, Repr

/-- The seconds between two polls, where nothing in particular is waited
for. -/
def refreshInterval : ℕ := 10

/-- The seconds a manual sync is followed for. -/
def syncFollowTimeout : ℕ := 60

/-- The `refreshInterval` in polls. -/
def refreshTicks : ℕ := refreshInterval / pollInterval

/-- The `syncFollowTimeout` in polls. -/
def syncFollowTicks : ℕ := syncFollowTimeout / pollInterval

/-- How many polls in a row go unanswered before the line is down. -/
def disconnectThreshold : ℕ := 3

/-- What is done at a tick. -/
inductive Step where
  | wait
  /-- Ask for the revision. -/
  | poll
  /-- Stop following the manual sync, and reload the rows anyway. -/
  | reload
  /-- Ask nothing more. -/
  | stop
  deriving DecidableEq, Repr

/-- What has moved since the answer before. -/
structure Moved where
  projection : Bool
  pullRequests : Bool
  deriving DecidableEq, Repr

/-- When to ask for the revision, and what its answers say of the line. -/
structure Refresh where
  /-- Ticks since the last poll. -/
  sincePoll : ℕ
  /-- A poll is owed the moment the tab shows. -/
  owed : Bool
  /-- Visible ticks the manual sync was followed for. -/
  followed : ℕ
  /-- The revision last answered. -/
  seen : Option ProjectionRevision
  /-- Polls in a row that got none. -/
  misses : ℕ
  /-- One of them was refused the credentials. -/
  refused : Bool
  deriving DecidableEq, Repr

namespace Refresh

/-- It has seen nothing, and owes its first poll. -/
def new : Refresh := ⟨0, true, 0, none, 0, false⟩

/-- One missed poll is a blip; so many in a row are an outage. A refusal needs
no second. -/
def connection (refresh : Refresh) : Connection :=
  if refresh.refused then .signedOut
  else if disconnectThreshold ≤ refresh.misses then .disconnected
  else .online

/-- A poll interval has passed, the tab `visible` or not, a manual sync in
flight or not. -/
def tick (refresh : Refresh) (visible syncing : Bool) : Step × Refresh :=
  if refresh.refused then (.stop, refresh)
  else
    let refresh := if syncing then refresh else { refresh with followed := 0 }
    if !visible then (.wait, { refresh with owed := true })
    else
      let refresh := if syncing then { refresh with followed := refresh.followed + 1 } else refresh
      -- The poll that is owed stays owed, and the ticks since the last stand.
      if syncing && decide (syncFollowTicks < refresh.followed) then
        (.reload, { refresh with followed := 0 })
      else
        let refresh := { refresh with sincePoll := refresh.sincePoll + 1 }
        if refresh.owed || syncing || decide (refreshTicks ≤ refresh.sincePoll) then
          (.poll, { refresh with sincePoll := 0, owed := false })
        else (.wait, refresh)

/-- The server answered with a revision. -/
def observe (refresh : Refresh) (revision : ProjectionRevision) : Moved × Refresh :=
  let restored := decide (0 < refresh.misses)
  let moved : Moved := match refresh.seen with
    | some seen =>
      { projection := restored || decide (seen.projection ≠ revision.projection)
        pullRequests := decide (seen.pullRequests ≠ revision.pullRequests) }
    | none => { projection := restored, pullRequests := false }
  (moved, { refresh with misses := 0, seen := some revision })

/-- A poll got no revision. Refused credentials sign out at once and for good;
any other miss counts towards the threshold. -/
def miss (refresh : Refresh) (fault : Fault) : Connection × Refresh :=
  let refresh := { refresh with
    misses := refresh.misses + 1
    refused := refresh.refused || decide (fault = .signedOut) }
  (refresh.connection, refresh)

end Refresh

/-! ## What a tick comes to -/

section

variable {refresh : Refresh}

/-- A tick after a refusal leaves the refresh as it is. -/
theorem tick_of_refused (h : refresh.refused = true) (visible syncing : Bool) :
    refresh.tick visible syncing = (.stop, refresh) := by
  simp [Refresh.tick, h]

theorem tick_hidden (h : refresh.refused = false) (syncing : Bool) :
    refresh.tick false syncing = (.wait, { refresh with
      owed := true
      followed := if syncing then refresh.followed else 0 }) := by
  cases syncing <;> simp [Refresh.tick, h]

theorem tick_idle (h : refresh.refused = false) :
    refresh.tick true false =
      if refresh.owed || decide (refreshTicks ≤ refresh.sincePoll + 1) then
        (.poll, { refresh with followed := 0, sincePoll := 0, owed := false })
      else (.wait, { refresh with followed := 0, sincePoll := refresh.sincePoll + 1 }) := by
  simp [Refresh.tick, h]

theorem tick_syncing (h : refresh.refused = false) :
    refresh.tick true true =
      if syncFollowTicks < refresh.followed + 1 then (.reload, { refresh with followed := 0 })
      else (.poll, { refresh with
        followed := refresh.followed + 1
        sincePoll := 0
        owed := false }) := by
  simp [Refresh.tick, h]

/-- A tick asks only where the credentials were not refused, and leaves that
be. -/
theorem tick_refused (visible syncing : Bool) :
    (refresh.tick visible syncing).2.refused = refresh.refused ∧
      ((refresh.tick visible syncing).1 = .poll → refresh.refused = false) := by
  cases hrefused : refresh.refused with
  | true =>
    rw [tick_of_refused hrefused]
    exact ⟨hrefused, nofun⟩
  | false =>
    refine ⟨?_, fun _ => rfl⟩
    cases visible with
    | false =>
      rw [tick_hidden hrefused]
      exact hrefused
    | true =>
      cases syncing with
      | false => rw [tick_idle hrefused]; split <;> exact hrefused
      | true => rw [tick_syncing hrefused]; split <;> exact hrefused

/-- A miss says that the credentials were refused, where it or one before was
that. -/
theorem miss_eq_signedOut {fault : Fault} :
    (refresh.miss fault).1 = .signedOut ↔ refresh.refused = true ∨ fault = .signedOut := by
  simp only [Refresh.miss, Refresh.connection]
  split
  · next h => simpa using h
  · next h =>
    have hnot : ¬ (refresh.refused = true ∨ fault = .signedOut) := by simpa using h
    split <;> simpa using hnot

end

end Ui

end Dependaboard
