import Mathlib.Data.List.Basic
import Mathlib.Data.List.Nodup
import Mathlib.Data.Nat.Init
import Mathlib.Order.Monotone.Basic
import Mathlib.Order.Nat
/-!
# Offset pages of a list that moves

A list is read page after page, each page a window at a fixed offset, while
elements come and go between the reads. An element that stays throughout is
read when some window covers it; otherwise it slipped, between two reads,
from behind a window's end to before the next one's start. `Moving` is such
a list with the moments its pages are read at, and `inWindow_or_slips` the
dichotomy.
-/

namespace Paging

variable {α : Type}

/-- The window a page shows, pages counted from 1. -/
def page (size p : ℕ) (xs : List α) : List α := (xs.drop (size * (p - 1))).take size

/-- A page is short exactly when the list ends within it. -/
theorem length_page_lt {size p : ℕ} (hsize : 0 < size) (hp : 1 ≤ p) (xs : List α) :
    (page size p xs).length < size ↔ xs.length < size * p := by
  obtain ⟨q, rfl⟩ : ∃ q, p = q + 1 := ⟨p - 1, by omega⟩
  simp only [page, List.length_take, List.length_drop, Nat.add_sub_cancel, Nat.mul_succ]
  omega

/-- The pages up to one are the list up to its end. -/
theorem take_append_page {size p : ℕ} (hp : 1 ≤ p) (xs : List α) :
    xs.take (size * (p - 1)) ++ page size p xs = xs.take (size * p) := by
  obtain ⟨q, rfl⟩ : ∃ q, p = q + 1 := ⟨p - 1, by omega⟩
  rw [page, Nat.add_sub_cancel, Nat.mul_succ, ← List.take_add]

/-- **A page shows an element exactly when its window covers the element's
place.** -/
theorem mem_page [DecidableEq α] {size p : ℕ} {xs : List α} {x : α} (hp : 1 ≤ p)
    (hnodup : xs.Nodup) (hx : x ∈ xs) :
    x ∈ page size p xs ↔ size * (p - 1) ≤ xs.idxOf x ∧ xs.idxOf x < size * p := by
  obtain ⟨q, rfl⟩ : ∃ q, p = q + 1 := ⟨p - 1, by omega⟩
  have hlt : xs.idxOf x < xs.length := List.idxOf_lt_length_iff.2 hx
  simp only [page, Nat.add_sub_cancel, Nat.mul_succ]
  constructor
  · intro hmem
    obtain ⟨i, hi, heq⟩ := List.mem_iff_getElem.1 hmem
    simp only [List.length_take, List.length_drop] at hi
    rw [List.getElem_take, List.getElem_drop] at heq
    have hplace : xs.idxOf x = size * q + i := by
      rw [← heq]
      exact hnodup.idxOf_getElem _ _
    omega
  · rintro ⟨hlow, hhigh⟩
    refine List.mem_iff_getElem.2 ⟨xs.idxOf x - size * q, ?_, ?_⟩
    · simp only [List.length_take, List.length_drop]
      omega
    · rw [List.getElem_take, List.getElem_drop]
      have hplace : size * q + (xs.idxOf x - size * q) = xs.idxOf x := by omega
      simp only [hplace]
      exact List.getElem_idxOf hlt

/-- A list over time, and the moment each of its pages is read. -/
structure Moving (α : Type) where
  /-- The list at each moment. -/
  moments : ℕ → List α
  nodup : ∀ t, (moments t).Nodup
  /-- When page `p` is read. -/
  asked : ℕ → ℕ
  /-- Pages are read in their order. -/
  ordered : Monotone asked

namespace Moving

variable (m : Moving α)

/-- The list as page `p` finds it. -/
def found (p : ℕ) : List α := m.moments (m.asked p)

/-- The element is there from before the first page is read until after
page `last` is. -/
def Stays (x : α) (last : ℕ) : Prop := ∀ t, m.asked 1 ≤ t → t ≤ m.asked last → x ∈ m.moments t

/-- Page `last` is the first short one. -/
structure Ends (size last : ℕ) : Prop where
  pos : 1 ≤ last
  full : ∀ p, 1 ≤ p → p < last → size * p ≤ (m.found p).length
  short : (m.found last).length < size * last

variable {m} {x : α} {size last : ℕ}

theorem Stays.mem_found (h : m.Stays x last) {p : ℕ} (hp : 1 ≤ p) (hlast : p ≤ last) :
    x ∈ m.found p :=
  h _ (m.ordered hp) (m.ordered hlast)

variable [DecidableEq α]

variable (m) in
/-- How many elements stand before `x` as page `p` finds the list. -/
def place (x : α) (p : ℕ) : ℕ := (m.found p).idxOf x

variable (m) in
/-- Page `p`'s window covers the element. -/
def InWindow (size : ℕ) (x : α) (p : ℕ) : Prop :=
  size * (p - 1) ≤ m.place x p ∧ m.place x p < size * p

variable (m) in
/-- **The element slips past a page's end**: behind it when the page is
read, before it when the next one is. -/
def Slips (size : ℕ) (x : α) (last : ℕ) : Prop :=
  ∃ p, 1 ≤ p ∧ p < last ∧ size * p ≤ m.place x p ∧ m.place x (p + 1) < size * p

theorem Stays.mem_page_iff (h : m.Stays x last) {p : ℕ} (hp : 1 ≤ p) (hlast : p ≤ last) :
    x ∈ page size p (m.found p) ↔ m.InWindow size x p :=
  mem_page hp (m.nodup _) (h.mem_found hp hlast)

/-- **What stays is read or slips.** Up to the page the element is first
before the end of, it is behind; there, it is in the window or it slipped. -/
theorem inWindow_or_slips (hends : m.Ends size last) (hstays : m.Stays x last) :
    (∃ p, 1 ≤ p ∧ p ≤ last ∧ m.InWindow size x p) ∨ m.Slips size x last := by
  have hlast : m.place x last < size * last := by
    have := List.idxOf_lt_length_iff.2 (hstays.mem_found hends.pos le_rfl)
    have := hends.short
    unfold place
    omega
  by_contra hnot
  obtain ⟨hread, hslips⟩ := not_or.1 hnot
  -- by induction on the page, the element stays behind every page's end
  have hbehind : ∀ p, 1 ≤ p → p ≤ last → size * p ≤ m.place x p := by
    intro p hp
    induction p, hp using Nat.le_induction with
    | base =>
      intro hle
      by_contra hlt
      exact hread ⟨1, le_rfl, hle, by simp, by omega⟩
    | succ p hp ih =>
      intro hle
      by_contra hlt
      have hprev : size * p ≤ m.place x p := ih (by omega)
      by_cases hcovered : size * p ≤ m.place x (p + 1)
      · exact hread ⟨p + 1, by omega, hle, by simpa using hcovered, by omega⟩
      · exact hslips ⟨p, hp, by omega, hprev, by omega⟩
  have := hbehind last hends.pos le_rfl
  omega

end Moving

end Paging
