import Mathlib.Data.List.Induction
import Mathlib.Data.List.Pairwise

/-!
# Relational — groups in one pass

Elements are read one by one, each put into the first group of its key or,
where there is none, into one started for it at the end. What comes of it is
one group a key, each the fold of the key's elements in their order
(`grouped`), whatever a group keeps of them.
-/

namespace Relational

variable {α κ γ : Type} [DecidableEq κ]

/-- How groups are kept: what an element starts, and what it adds. -/
structure Grouping (α κ γ : Type) where
  key : α → κ
  groupKey : γ → κ
  start : α → γ
  add : γ → α → γ
  groupKey_start : ∀ x, groupKey (start x) = key x
  groupKey_add : ∀ group x, groupKey (add group x) = groupKey group

namespace Grouping

variable (grouping : Grouping α κ γ)

/-- Put one element into its group. -/
def place : List γ → α → List γ
  | [], x => [grouping.add (grouping.start x) x]
  | group :: groups, x =>
    if grouping.groupKey group = grouping.key x then grouping.add group x :: groups
    else group :: place groups x

/-- The groups of the elements read. -/
def groups (xs : List α) : List γ := xs.foldl grouping.place []

/-- The group of all the elements of `x`'s key, started by `x`. -/
def groupOf (xs : List α) (x : α) : γ :=
  (xs.filter fun y => grouping.key y = grouping.key x).foldl grouping.add (grouping.start x)

omit [DecidableEq κ] in
@[simp] theorem groupKey_foldl (group : γ) (xs : List α) :
    grouping.groupKey (xs.foldl grouping.add group) = grouping.groupKey group := by
  induction xs generalizing group with
  | nil => rfl
  | cons x xs ih => rw [List.foldl_cons, ih, grouping.groupKey_add]

theorem groupKey_groupOf (xs : List α) (x : α) :
    grouping.groupKey (grouping.groupOf xs x) = grouping.key x := by
  rw [groupOf, groupKey_foldl, grouping.groupKey_start]

theorem groups_append_singleton (xs : List α) (x : α) :
    grouping.groups (xs ++ [x]) = grouping.place (grouping.groups xs) x := by
  simp only [groups, List.foldl_append, List.foldl_cons, List.foldl_nil]

theorem groupOf_append_singleton (xs : List α) (x y : α) :
    grouping.groupOf (xs ++ [x]) y
      = if grouping.key x = grouping.key y then grouping.add (grouping.groupOf xs y) x
        else grouping.groupOf xs y := by
  rw [groupOf, List.filter_append, List.foldl_append]
  split
  · rename_i hkey
    rw [List.filter_cons, if_pos (decide_eq_true hkey)]
    rfl
  · rename_i hkey
    rw [List.filter_cons, if_neg fun hsame => hkey (of_decide_eq_true hsame)]
    rfl

/-- An element of a key no group has starts one at the end. -/
theorem place_of_new {gs : List γ} {x : α}
    (h : ∀ group ∈ gs, grouping.groupKey group ≠ grouping.key x) :
    grouping.place gs x = gs ++ [grouping.add (grouping.start x) x] := by
  induction gs with
  | nil => rfl
  | cons group gs ih =>
    rw [place, if_neg (h group List.mem_cons_self),
      ih fun other hother => h other (List.mem_cons_of_mem _ hother), List.cons_append]

/-- Where no two groups share a key, an element changes the group of its own. -/
theorem place_of_mem {gs : List γ} {x : α}
    (hdistinct : gs.Pairwise fun g g' => grouping.groupKey g ≠ grouping.groupKey g')
    (h : ∃ group ∈ gs, grouping.groupKey group = grouping.key x) :
    grouping.place gs x
      = gs.map fun g => if grouping.groupKey g = grouping.key x then grouping.add g x else g := by
  induction gs with
  | nil =>
    obtain ⟨group, hgroup, -⟩ := h
    cases hgroup
  | cons group gs ih =>
    obtain ⟨hhead, htail⟩ := List.pairwise_cons.1 hdistinct
    rw [place, List.map_cons]
    split
    · rename_i hkey
      have hothers : gs.map (fun g => if grouping.groupKey g = grouping.key x
          then grouping.add g x else g) = gs := by
        have hmap : gs.map (fun g => if grouping.groupKey g = grouping.key x
            then grouping.add g x else g) = gs.map id :=
          List.map_congr_left fun g hg => if_neg fun hg' => hhead g hg (hkey.trans hg'.symm)
        rw [hmap, List.map_id]
      rw [hothers]
    · rename_i hkey
      have hlater : ∃ g ∈ gs, grouping.groupKey g = grouping.key x := by
        obtain ⟨g, hg, hgkey⟩ := h
        rcases List.mem_cons.1 hg with rfl | hg
        · exact absurd hgkey hkey
        · exact ⟨g, hg, hgkey⟩
      rw [ih htail hlater]

/-- What the groups of some elements are. -/
structure Grouped (xs : List α) (gs : List γ) : Prop where
  /-- No key has two. -/
  distinct : gs.Pairwise fun g g' => grouping.groupKey g ≠ grouping.groupKey g'
  /-- Each is all its key's elements, in their order. -/
  whole : ∀ g ∈ gs, ∃ x ∈ xs, g = grouping.groupOf xs x
  /-- Each element's key has one. -/
  covers : ∀ x ∈ xs, ∃ g ∈ gs, grouping.groupKey g = grouping.key x

variable {grouping}

theorem Grouped.place {xs : List α} {gs : List γ} (h : grouping.Grouped xs gs) (x : α) :
    grouping.Grouped (xs ++ [x]) (grouping.place gs x) := by
  by_cases hmem : ∃ group ∈ gs, grouping.groupKey group = grouping.key x
  · rw [place_of_mem grouping h.distinct hmem]
    have hkeys (g : γ) : grouping.groupKey
        (if grouping.groupKey g = grouping.key x then grouping.add g x else g)
          = grouping.groupKey g := by
      split
      · exact grouping.groupKey_add g x
      · rfl
    refine ⟨?_, ?_, ?_⟩
    · rw [List.pairwise_map]
      refine h.distinct.imp fun {g g'} hne => ?_
      rw [hkeys, hkeys]
      exact hne
    · intro g hg
      obtain ⟨before, hbefore, rfl⟩ := List.mem_map.1 hg
      obtain ⟨y, hy, rfl⟩ := h.whole before hbefore
      refine ⟨y, List.mem_append_left _ hy, ?_⟩
      rw [groupOf_append_singleton, groupKey_groupOf]
      simp only [eq_comm]
    · intro y hy
      have hcovered : ∃ g ∈ gs, grouping.groupKey g = grouping.key y := by
        rcases List.mem_append.1 hy with hy | hy
        · exact h.covers y hy
        · rw [List.mem_singleton.1 hy]
          exact hmem
      obtain ⟨g, hg, hkey⟩ := hcovered
      exact ⟨_, List.mem_map.2 ⟨g, hg, rfl⟩, (hkeys g).trans hkey⟩
  · have hnew : ∀ group ∈ gs, grouping.groupKey group ≠ grouping.key x := fun group hgroup hkey =>
      hmem ⟨group, hgroup, hkey⟩
    have hkey : grouping.groupKey (grouping.add (grouping.start x) x) = grouping.key x := by
      rw [grouping.groupKey_add, grouping.groupKey_start]
    rw [place_of_new grouping hnew]
    refine ⟨?_, ?_, ?_⟩
    · refine List.pairwise_append.2 ⟨h.distinct, List.pairwise_singleton _ _, ?_⟩
      intro g hg g' hg'
      rw [List.mem_singleton.1 hg', hkey]
      exact hnew g hg
    · intro g hg
      rcases List.mem_append.1 hg with hg | hg
      · obtain ⟨y, hy, rfl⟩ := h.whole g hg
        refine ⟨y, List.mem_append_left _ hy, ?_⟩
        have hother := hnew _ hg
        rw [groupKey_groupOf] at hother
        rw [groupOf_append_singleton, if_neg fun hsame => hother hsame.symm]
      · refine ⟨x, List.mem_append_right _ (List.mem_singleton_self x), ?_⟩
        -- No earlier element has the key, so the group is what `x` starts.
        have hnone : xs.filter (fun y => grouping.key y = grouping.key x) = [] := by
          refine List.filter_eq_nil_iff.2 fun y hy hsame => ?_
          obtain ⟨g', hg', hg'key⟩ := h.covers y hy
          exact hnew g' hg' (hg'key.trans (of_decide_eq_true hsame))
        rw [List.mem_singleton.1 hg, groupOf_append_singleton, if_pos rfl, groupOf, hnone,
          List.foldl_nil]
    · intro y hy
      rcases List.mem_append.1 hy with hy | hy
      · obtain ⟨g, hg, hg'⟩ := h.covers y hy
        exact ⟨g, List.mem_append_left _ hg, hg'⟩
      · rw [List.mem_singleton.1 hy]
        exact ⟨_, List.mem_append_right _ (List.mem_singleton_self _), hkey⟩

/-- **The groups read in one pass are one a key, each of all its elements.** -/
theorem grouped (xs : List α) : grouping.Grouped xs (grouping.groups xs) := by
  induction xs using List.reverseRecOn with
  | nil => exact ⟨List.Pairwise.nil, by simp [groups], by simp⟩
  | append_singleton xs x ih =>
    rw [groups_append_singleton]
    exact ih.place x

end Grouping

end Relational
