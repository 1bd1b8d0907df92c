import Dependaboard.Service.PullRequest
import Mathlib.Data.Finset.Card
import Mathlib.Data.List.Induction

/-!
# Dependaboard — how long a completed sync stays acknowledged

A page that asked for a sync polls the object for the id it asked under, and
reads it in a window over the ids completed so far. The window is a bound over
a log: an id among the newest is not entered again, every other one is entered
last. So nothing is entered twice while it can be read, and an id leaves only
once the window's length of further ids has been entered, all distinct.

`changed` is an object's state after any changes, and the two bounded lists of
it are the windows over what was pushed and what was entered.
-/

namespace Dependaboard

/-! ## A window over a log -/

section Window

variable {α : Type} {n : ℕ}

theorem length_keepLast_le (xs : List α) : (keepLast n xs).length ≤ n := by
  simp only [keepLast, List.length_drop]
  omega

theorem keepLast_suffix (xs : List α) : keepLast n xs <:+ xs := by
  rw [keepLast]
  exact List.drop_suffix _ _

/-- What the window dropped before does not matter to what it keeps now. -/
theorem keepLast_keepLast_append (xs ys : List α) :
    keepLast n (keepLast n xs ++ ys) = keepLast n (xs ++ ys) := by
  have happend : xs.drop (xs.length - n) ++ ys = (xs ++ ys).drop (xs.length - n) :=
    (List.drop_append_of_le_length (Nat.sub_le _ _)).symm
  simp only [keepLast]
  rw [happend, List.drop_drop, List.length_drop, List.length_append]
  congr 1
  omega

theorem keepLast_self (xs : List α) : keepLast n (keepLast n xs) = keepLast n xs := by
  simpa only [List.append_nil] using keepLast_keepLast_append (n := n) xs []

/-- A tail no longer than the window is in it whole. -/
theorem mem_keepLast_append {xs tail : List α} {x : α} (hlen : tail.length ≤ n)
    (hx : x ∈ tail) : x ∈ keepLast n (xs ++ tail) := by
  have hdrop : xs.length + tail.length - n ≤ xs.length := by omega
  simp only [keepLast, List.length_append]
  rw [List.drop_append_of_le_length hdrop]
  exact List.mem_append_right _ hx

variable [DecidableEq α]

/-- Enter one more: not again while it is among the newest `n`. -/
def enter (n : ℕ) (log : List α) (x : α) : List α :=
  if x ∈ keepLast n log then log else log ++ [x]

/-- All that was entered, oldest first. -/
def entered (n : ℕ) (xs : List α) : List α := xs.foldl (enter n) []

theorem entered_append_singleton (xs : List α) (x : α) :
    entered n (xs ++ [x]) = enter n (entered n xs) x := by
  simp only [entered, List.foldl_append, List.foldl_cons, List.foldl_nil]

/-- Entering keeps the order things came in. -/
theorem entered_sublist (xs : List α) : (entered n xs).Sublist xs := by
  induction xs using List.reverseRecOn with
  | nil => exact List.Sublist.slnil
  | append_singleton xs x ih =>
    rw [entered_append_singleton, enter]
    split
    · exact ih.trans (List.sublist_append_left xs [x])
    · exact ih.append (List.Sublist.refl [x])

/-- What was just entered, or was there already, is in the window. -/
theorem mem_keepLast_enter (hn : 0 < n) (log : List α) (x : α) :
    x ∈ keepLast n (enter n log x) := by
  rw [enter]
  split
  · assumption
  · exact mem_keepLast_append hn (List.mem_singleton_self x)

/-- The window never holds one thing twice. -/
theorem keepLast_entered_nodup (hn : 0 < n) (xs : List α) :
    (keepLast n (entered n xs)).Nodup := by
  induction xs using List.reverseRecOn with
  | nil => simp only [entered, List.foldl_nil, keepLast, List.drop_nil, List.nodup_nil]
  | append_singleton xs x ih =>
    rw [entered_append_singleton, enter]
    split
    · exact ih
    · rename_i hfresh
      have hkept : keepLast (n - 1) (entered n xs) <:+ keepLast n (entered n xs) := by
        simp only [keepLast]
        exact List.drop_suffix_drop_left _ (by omega)
      rw [keepLast_append_singleton hn]
      refine List.nodup_append.2 ⟨ih.sublist hkept.sublist, List.nodup_singleton x, ?_⟩
      intro y hy z hz heq
      rw [List.mem_singleton.1 hz] at heq
      exact hfresh (heq ▸ hkept.subset hy)

/-- Things all distinct and none of them `x` are no more than the others that came. -/
theorem length_lt_of_behind {x : α} {behind after : List α} (hsub : behind ⊆ after)
    (hnodup : (x :: behind).Nodup) (hfew : (after.toFinset.erase x).card < n) :
    behind.length < n := by
  obtain ⟨hx, hnodup⟩ := List.nodup_cons.1 hnodup
  have hothers : behind.toFinset ⊆ after.toFinset.erase x := by
    intro z hz
    have hz' := List.mem_toFinset.1 hz
    refine Finset.mem_erase.2 ⟨?_, List.mem_toFinset.2 (hsub hz')⟩
    rintro rfl
    exact hx hz'
  have hcard := Finset.card_le_card hothers
  rw [List.toFinset_card_of_nodup hnodup] at hcard
  omega

/-- While fewer others came than the window is long, each of them was entered
at most once behind what was entered before them. -/
theorem enter_behind (log : List α) (x : α) (after : List α)
    (hfew : (after.toFinset.erase x).card < n) :
    ∃ behind, after.foldl (enter n) (log ++ [x]) = log ++ x :: behind ∧
      behind ⊆ after ∧ (x :: behind).Nodup := by
  induction after using List.reverseRecOn with
  | nil => exact ⟨[], rfl, List.nil_subset _, List.nodup_singleton x⟩
  | append_singleton after y ih =>
    have hmono : after.toFinset.erase x ⊆ (after ++ [y]).toFinset.erase x := by
      refine Finset.erase_subset_erase x fun z hz => ?_
      simp only [List.mem_toFinset, List.mem_append] at hz ⊢
      exact .inl hz
    have hfew' := lt_of_le_of_lt (Finset.card_le_card hmono) hfew
    obtain ⟨behind, hlog, hsub, hnodup⟩ := ih hfew'
    rw [List.foldl_append, List.foldl_cons, List.foldl_nil, hlog, enter]
    split
    · exact ⟨behind, rfl, fun z hz => List.mem_append_left _ (hsub hz), hnodup⟩
    · rename_i hfresh
      -- The tail from `x` on is still inside the window, so `y` is not in it.
      have hlen := length_lt_of_behind hsub hnodup hfew'
      have hy : y ∉ x :: behind := fun hmem =>
        hfresh (mem_keepLast_append (Nat.succ_le_of_lt hlen) hmem)
      refine ⟨behind ++ [y], by simp, ?_, ?_⟩
      · intro z hz
        rcases List.mem_append.1 hz with hz | hz
        · exact List.mem_append_left _ (hsub hz)
        · exact List.mem_append_right _ hz
      · rw [← List.cons_append]
        refine List.nodup_append.2 ⟨hnodup, List.nodup_singleton y, ?_⟩
        rintro z hz w hw rfl
        exact hy (List.mem_singleton.1 hw ▸ hz)

/-- **What was entered stays until a window of further ones came.** -/
theorem mem_keepLast_foldl_enter (log : List α) (x : α) (after : List α)
    (hfew : (after.toFinset.erase x).card < n) :
    x ∈ keepLast n (after.foldl (enter n) (log ++ [x])) := by
  obtain ⟨behind, hlog, hsub, hnodup⟩ := enter_behind log x after hfew
  have hlen := length_lt_of_behind hsub hnodup hfew
  rw [hlog]
  exact mem_keepLast_append (Nat.succ_le_of_lt hlen) List.mem_cons_self

end Window

/-! ## The states an object reaches -/

/-- What a handler does to the state it holds: a line to the trail, a completed
sync, or the fields the two lists have no part in. -/
inductive PrChange where
  | pushHistory (entry : ActionLog)
  | completeSync (completionId : String)
  | hold (snapshot : Option PrRecord) (lastSyncedAt : Option ℕ) (syncPending : Bool)

namespace PrChange

/-- The line a change pushes. -/
def entry? : PrChange → Option ActionLog
  | pushHistory entry => some entry
  | completeSync _ | hold .. => none

/-- The id a change completes. -/
def completionId? : PrChange → Option String
  | completeSync completionId => some completionId
  | pushHistory _ | hold .. => none

end PrChange

namespace PrState

/-- The state after one change. -/
def change (state : PrState) : PrChange → PrState
  | .pushHistory entry => state.pushHistory entry
  | .completeSync completionId => state.completeSync completionId
  | .hold snapshot lastSyncedAt syncPending =>
    { state with snapshot := snapshot, lastSyncedAt := lastSyncedAt, syncPending := syncPending }

/-- The state an object reaches through any changes from the default. -/
def changed (changes : List PrChange) : PrState := changes.foldl change default

variable (changes : List PrChange)

theorem changed_append_singleton (last : PrChange) :
    changed (changes ++ [last]) = (changed changes).change last := by
  simp only [changed, List.foldl_append, List.foldl_cons, List.foldl_nil]

/-- The trail is the newest of the lines pushed. -/
theorem history_changed :
    (changed changes).history
      = keepLast retainedHistory (changes.filterMap PrChange.entry?) := by
  induction changes using List.reverseRecOn with
  | nil => simp only [changed, List.foldl_nil, List.filterMap_nil, keepLast, List.drop_nil]; rfl
  | append_singleton changes last ih =>
    rw [changed_append_singleton, List.filterMap_append]
    cases last with
    | pushHistory entry =>
      rw [change, pushHistory, ih, keepLast_keepLast_append]
      rfl
    | completeSync completionId =>
      simpa [change, completeSync, PrChange.entry?, List.filterMap_cons] using ih
    | hold snapshot lastSyncedAt syncPending =>
      simpa [change, PrChange.entry?, List.filterMap_cons] using ih

/-- The ids held are the newest of those entered. -/
theorem completedSyncIds_changed :
    (changed changes).completedSyncIds = keepLast retainedSyncIds
      (entered retainedSyncIds (changes.filterMap PrChange.completionId?)) := by
  induction changes using List.reverseRecOn with
  | nil =>
    simp only [changed, List.foldl_nil, List.filterMap_nil, entered, keepLast, List.drop_nil]
    rfl
  | append_singleton changes last ih =>
    rw [changed_append_singleton, List.filterMap_append]
    cases last with
    | completeSync completionId =>
      simp only [change, completeSync, ih, List.filterMap_cons, List.filterMap_nil,
        PrChange.completionId?, entered_append_singleton, enter]
      split
      · exact keepLast_self _
      · exact keepLast_keepLast_append _ _
    | pushHistory entry =>
      simpa [change, pushHistory, PrChange.completionId?, List.filterMap_cons] using ih
    | hold snapshot lastSyncedAt syncPending =>
      simpa [change, PrChange.completionId?, List.filterMap_cons] using ih

/-- **An id stays from its first completion** until a window's length of others
has completed. -/
theorem mem_completedSyncIds_after {completionId : String} {after : List PrChange}
    (hfirst : completionId ∉ changes.filterMap PrChange.completionId?)
    (hfew : ((after.filterMap PrChange.completionId?).toFinset.erase completionId).card
      < retainedSyncIds) :
    completionId ∈
      (after.foldl change ((changed changes).completeSync completionId)).completedSyncIds := by
  have hrun : after.foldl change ((changed changes).completeSync completionId)
      = changed (changes ++ PrChange.completeSync completionId :: after) := by
    simp only [changed, List.foldl_append, List.foldl_cons, change]
  have hlog : enter retainedSyncIds
      (entered retainedSyncIds (changes.filterMap PrChange.completionId?)) completionId
      = entered retainedSyncIds (changes.filterMap PrChange.completionId?) ++ [completionId] :=
    if_neg fun hmem => hfirst ((entered_sublist _).subset ((keepLast_suffix _).subset hmem))
  rw [hrun, completedSyncIds_changed, List.filterMap_append, entered, List.foldl_append,
    ← entered]
  simp only [List.filterMap_cons, PrChange.completionId?, List.foldl_cons, hlog]
  exact mem_keepLast_foldl_enter _ completionId _ hfew

/-- **A completed sync stays acknowledged long enough.** After any changes both
lists are within their bounds and are the newest of what came, in order, the
ids without repetition; an id is held right after it completes, and from its
first completion until a window's length of other ids has completed. -/
theorem acknowledged :
    (changed changes).history.length ≤ retainedHistory ∧
    (changed changes).completedSyncIds.length ≤ retainedSyncIds ∧
    (changed changes).history
      = keepLast retainedHistory (changes.filterMap PrChange.entry?) ∧
    (changed changes).completedSyncIds = keepLast retainedSyncIds
      (entered retainedSyncIds (changes.filterMap PrChange.completionId?)) ∧
    (changed changes).completedSyncIds.Nodup ∧
    ∀ completionId,
      completionId ∈ ((changed changes).completeSync completionId).completedSyncIds ∧
      (completionId ∉ changes.filterMap PrChange.completionId? → ∀ after : List PrChange,
        ((after.filterMap PrChange.completionId?).toFinset.erase completionId).card
          < retainedSyncIds →
        completionId ∈
          (after.foldl change ((changed changes).completeSync completionId)).completedSyncIds) := by
  have hhistory := history_changed changes
  have hids := completedSyncIds_changed changes
  have hpresent (completionId : String) :
      completionId ∈ ((changed changes).completeSync completionId).completedSyncIds := by
    have hlast := completedSyncIds_changed (changes ++ [.completeSync completionId])
    rw [changed_append_singleton, List.filterMap_append] at hlast
    simp only [List.filterMap_cons, List.filterMap_nil, PrChange.completionId?,
      entered_append_singleton] at hlast
    rw [← change, hlast]
    exact mem_keepLast_enter (by decide) _ completionId
  refine ⟨?_, ?_, hhistory, hids, ?_, fun completionId => ⟨hpresent completionId, ?_⟩⟩
  · rw [hhistory]
    exact length_keepLast_le _
  · rw [hids]
    exact length_keepLast_le _
  · rw [hids]
    exact keepLast_entered_nodup (by decide) _
  · intro hfirst after hfew
    exact mem_completedSyncIds_after changes hfirst hfew

end PrState

end Dependaboard
