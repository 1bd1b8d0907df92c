import Dependaboard.Core.Requests
/-!
# Dependaboard — what a pull request's object holds

The snapshot it calls its own, the bounded trail of what was done, and the
marks a sync leaves: when it last read GitHub, whether a trailing sync is
scheduled, and the manual syncs it has completed.
-/

namespace Dependaboard

/-- One line of an object's trail. -/
structure ActionLog where
  at_ : ℕ
  action : String
  detail : String
  deriving DecidableEq, Repr

/-- The durable state of a pull request's object. -/
structure PrState where
  snapshot : Option PrRecord
  history : List ActionLog
  lastSyncedAt : Option ℕ
  syncPending : Bool
  completedSyncIds : List String
  deriving DecidableEq, Repr

/-- How many lines of the trail are kept. -/
def retainedHistory : ℕ := 20

/-- How many completed manual syncs are kept. -/
def retainedSyncIds : ℕ := 20

/-- The last `n` elements: what is oldest makes way. -/
def keepLast {α : Type} (n : ℕ) (xs : List α) : List α := xs.drop (xs.length - n)

/-- A list with one element more keeps that element last. -/
theorem keepLast_append_singleton {α : Type} {n : ℕ} (hn : 0 < n) (xs : List α) (x : α) :
    keepLast n (xs ++ [x]) = keepLast (n - 1) xs ++ [x] := by
  have hlen : xs.length + 1 - n = xs.length - (n - 1) := by omega
  simp only [keepLast, List.length_append, List.length_singleton, hlen]
  exact List.drop_append_of_le_length (by omega)

-- Comparing two states by unfolding would count the bound down in unary.
attribute [irreducible] keepLast

namespace PrState

/-- What an object that holds nothing stands for. -/
instance : Inhabited PrState := ⟨⟨none, [], none, false, []⟩⟩

/-- Add one line to the trail, dropping the oldest past the bound. -/
def pushHistory (state : PrState) (entry : ActionLog) : PrState :=
  { state with history := keepLast retainedHistory (state.history ++ [entry]) }

/-- Remember a completed manual sync, once, dropping the oldest past the
bound. -/
def completeSync (state : PrState) (completionId : String) : PrState :=
  let completed :=
    if completionId ∈ state.completedSyncIds then state.completedSyncIds
    else state.completedSyncIds ++ [completionId]
  { state with completedSyncIds := keepLast retainedSyncIds completed }

/-- The trail's new line is its last, after what was kept of the rest. -/
theorem pushHistory_history (state : PrState) (entry : ActionLog) :
    (state.pushHistory entry).history
      = keepLast (retainedHistory - 1) state.history ++ [entry] :=
  keepLast_append_singleton (by decide) state.history entry

end PrState

end Dependaboard
