import Mathlib.Data.List.Nodup
/-!
# Tables — rows under a unique key

A table is a list of rows no two of which share a key, so a table whose
primary key is broken cannot be built. The three writes keep it: an upsert
replaces the row at its key, a delete removes the rows a predicate selects,
and both say what a lookup then finds.
-/

namespace Relational

/-- Rows no two of which share a key. -/
@[ext] structure Table (ρ κ : Type) (key : ρ → κ) where
  /-- The rows, in no order a reader may count on. -/
  rows : List ρ
  /-- The key is unique. -/
  unique : (rows.map key).Nodup

namespace Table

variable {ρ κ : Type} {key : ρ → κ}

/-- A table without rows. -/
def empty : Table ρ κ key := ⟨[], List.nodup_nil⟩

/-- Remove the rows `p` selects. -/
def delete (t : Table ρ κ key) (p : ρ → Bool) : Table ρ κ key where
  rows := t.rows.filter fun row => !p row
  unique := t.unique.sublist (List.filter_sublist.map key)

@[simp] theorem mem_delete {t : Table ρ κ key} {p : ρ → Bool} {row : ρ} :
    row ∈ (t.delete p).rows ↔ row ∈ t.rows ∧ p row = false := by
  simp [delete]

/-- Two rows of a table with one key are one row. -/
theorem eq_of_key_eq {t : Table ρ κ key} {a b : ρ} (ha : a ∈ t.rows) (hb : b ∈ t.rows)
    (h : key a = key b) : a = b :=
  List.inj_on_of_nodup_map t.unique ha hb h

/-- **A row at a key has a property exactly when the one there is has it.** -/
theorem any_key [DecidableEq κ] {t : Table ρ κ key} {row : ρ} (hrow : row ∈ t.rows) (p : ρ → Prop)
    [DecidablePred p] : (t.rows.any fun other => key other = key row ∧ p other) = decide (p row) := by
  rw [Bool.eq_iff_iff, List.any_eq_true, decide_eq_true_iff]
  constructor
  · rintro ⟨other, hother, hboth⟩
    obtain ⟨hkey, hp⟩ := of_decide_eq_true hboth
    rwa [eq_of_key_eq hother hrow hkey] at hp
  · exact fun hp => ⟨row, hrow, decide_eq_true ⟨rfl, hp⟩⟩

/-- Rows selected from a table have distinct keys. -/
theorem nodup_map_filter (t : Table ρ κ key) (p : ρ → Bool) :
    ((t.rows.filter p).map key).Nodup :=
  t.unique.sublist (List.filter_sublist.map key)

variable [DecidableEq κ]

/-- The row at a key. -/
def find? (t : Table ρ κ key) (k : κ) : Option ρ := t.rows.find? fun row => key row = k

/-- Write a row: over the one at its key, or as a new one. -/
def upsert (t : Table ρ κ key) (row : ρ) : Table ρ κ key where
  rows := (t.rows.filter fun other => key other ≠ key row) ++ [row]
  unique := by
    rw [List.map_append, List.nodup_append]
    refine ⟨t.nodup_map_filter _, List.nodup_singleton _, ?_⟩
    intro k hk k' hk'
    obtain ⟨other, hother, rfl⟩ := List.mem_map.1 hk
    have hne : key other ≠ key row := by simpa using (List.mem_filter.1 hother).2
    simpa using (List.mem_singleton.1 hk') ▸ hne

/-- Insert a row at a key not yet taken, after those there are. -/
def insert (t : Table ρ κ key) (row : ρ) (h : t.find? (key row) = none) : Table ρ κ key where
  rows := t.rows ++ [row]
  unique := by
    rw [List.map_append, List.nodup_append]
    refine ⟨t.unique, List.nodup_singleton _, ?_⟩
    intro k hk k' hk'
    obtain ⟨other, hother, rfl⟩ := List.mem_map.1 hk
    have hne : key other ≠ key row := by
      simpa using List.find?_eq_none.1 h other hother
    simpa using (List.mem_singleton.1 hk') ▸ hne

/-- **What a lookup finds is the row of the table at that key.** -/
theorem find?_eq_some {t : Table ρ κ key} {k : κ} {row : ρ} :
    t.find? k = some row ↔ row ∈ t.rows ∧ key row = k := by
  constructor
  · intro h
    exact ⟨List.mem_of_find?_eq_some h, by simpa using List.find?_some h⟩
  · rintro ⟨hmem, rfl⟩
    obtain ⟨other, hother⟩ := Option.isSome_iff_exists.1
      (List.find?_isSome.2 ⟨row, hmem, by simp⟩ :
        (t.rows.find? fun other => key other = key row).isSome)
    have hkey : key other = key row := by simpa using List.find?_some hother
    rw [← eq_of_key_eq (List.mem_of_find?_eq_some hother) hmem hkey]
    exact hkey ▸ hother

/-- A lookup finds nothing where no row has the key. -/
theorem find?_eq_none {t : Table ρ κ key} {k : κ} :
    t.find? k = none ↔ ∀ row ∈ t.rows, key row ≠ k := by
  simp [find?, List.find?_eq_none]

@[simp] theorem rows_insert (t : Table ρ κ key) (row : ρ) (h : t.find? (key row) = none) :
    (t.insert row h).rows = t.rows ++ [row] := rfl

/-- **What a lookup finds after an insert**: the row at its key, elsewhere
what it did. -/
theorem find?_insert (t : Table ρ κ key) (row : ρ) (h : t.find? (key row) = none) (k : κ) :
    (t.insert row h).find? k = if k = key row then some row else t.find? k := by
  refine Option.ext fun other => ?_
  rw [find?_eq_some, rows_insert, List.mem_append, List.mem_singleton]
  by_cases hk : k = key row
  · rw [if_pos hk]
    constructor
    · rintro ⟨hmem | rfl, hkey⟩
      · exact absurd (hkey.trans hk) (find?_eq_none.1 h other hmem)
      · rfl
    · rintro ⟨⟩
      exact ⟨.inr rfl, hk.symm⟩
  · rw [if_neg hk, find?_eq_some]
    constructor
    · rintro ⟨hmem | rfl, hkey⟩
      · exact ⟨hmem, hkey⟩
      · exact absurd hkey.symm hk
    · rintro ⟨hmem, hkey⟩
      exact ⟨.inl hmem, hkey⟩

@[simp] theorem mem_upsert {t : Table ρ κ key} {row other : ρ} :
    other ∈ (t.upsert row).rows ↔ (other ∈ t.rows ∧ key other ≠ key row) ∨ other = row := by
  simp [upsert]

/-- A lookup at the key of an upserted row finds it. -/
@[simp] theorem find?_upsert_self (t : Table ρ κ key) (row : ρ) :
    (t.upsert row).find? (key row) = some row :=
  find?_eq_some.2 ⟨mem_upsert.2 (.inr rfl), rfl⟩

/-- A lookup elsewhere finds what it did. -/
theorem find?_upsert_of_ne {t : Table ρ κ key} {row : ρ} {k : κ} (h : k ≠ key row) :
    (t.upsert row).find? k = t.find? k := by
  refine Option.ext fun other => ?_
  rw [find?_eq_some, find?_eq_some, mem_upsert]
  constructor
  · rintro ⟨⟨hmem, -⟩ | rfl, hkey⟩
    · exact ⟨hmem, hkey⟩
    · exact absurd hkey.symm h
  · rintro ⟨hmem, rfl⟩
    exact ⟨.inl ⟨hmem, h⟩, rfl⟩

/-- Remove the row at a key. -/
def remove (t : Table ρ κ key) (k : κ) : Table ρ κ key := t.delete fun row => key row = k

/-- What rows removed leave is of the table. -/
theorem mem_of_mem_foldl_remove {t : Table ρ κ key} {ks : List κ} {row : ρ}
    (h : row ∈ (ks.foldl remove t).rows) : row ∈ t.rows := by
  induction ks generalizing t with
  | nil => exact h
  | cons k ks ih => exact (mem_delete.1 (ih h)).1

/-- The table of some rows, a later one over an earlier at its key. -/
def collect (rows : List ρ) : Table ρ κ key := rows.foldl upsert empty

/-- What is written to a table is of it, or of the rows. -/
theorem mem_foldl_upsert {t : Table ρ κ key} {rows : List ρ} {row : ρ}
    (h : row ∈ (rows.foldl upsert t).rows) : row ∈ t.rows ∨ row ∈ rows := by
  induction rows generalizing t with
  | nil => exact .inl h
  | cons first rest ih =>
    rcases ih h with ht | hrest
    · rcases mem_upsert.1 ht with ⟨ht, -⟩ | rfl
      · exact .inl ht
      · exact .inr List.mem_cons_self
    · exact .inr (List.mem_cons_of_mem _ hrest)

/-- What is collected is of the rows. -/
theorem mem_of_mem_collect {rows : List ρ} {row : ρ}
    (h : row ∈ (collect rows : Table ρ κ key).rows) : row ∈ rows :=
  (mem_foldl_upsert h).resolve_left List.not_mem_nil

/-- Every row has one at its key collected. -/
theorem exists_mem_collect {rows : List ρ} {row : ρ} (h : row ∈ rows) :
    ∃ other ∈ (collect rows : Table ρ κ key).rows, key other = key row := by
  have hfrom (rows : List ρ) (t : Table ρ κ key)
      (h : (∃ other ∈ t.rows, key other = key row) ∨ row ∈ rows) :
      ∃ other ∈ (rows.foldl upsert t).rows, key other = key row := by
    induction rows generalizing t with
    | nil => exact h.resolve_right List.not_mem_nil
    | cons first rest ih =>
      refine ih (t.upsert first) ?_
      by_cases hkey : key first = key row
      · exact .inl ⟨first, mem_upsert.2 (.inr rfl), hkey⟩
      · rcases h with ⟨other, hother, hsame⟩ | hmem
        · exact .inl ⟨other, mem_upsert.2 (.inl ⟨hother, fun heq => hkey (heq ▸ hsame)⟩), hsame⟩
        · rcases List.mem_cons.1 hmem with rfl | hrest
          · exact absurd rfl hkey
          · exact .inr hrest
  exact hfrom rows empty (.inr h)

/-- **What a lookup finds after a delete**: the row, unless it was
selected. -/
theorem find?_delete (t : Table ρ κ key) (p : ρ → Bool) (k : κ) :
    (t.delete p).find? k = (t.find? k).filter fun row => !p row := by
  refine Option.ext fun row => ?_
  rw [find?_eq_some, mem_delete, Option.filter_eq_some_iff, find?_eq_some]
  simp only [Bool.not_eq_true']
  exact and_right_comm

end Table

/-! ## Numbered tables

A table whose key is a number its insert chooses, each larger than any
before it, rows deleted or not. -/

/-- Rows numbered in the order they were inserted. -/
@[ext] structure Numbered (ρ : Type) (id : ρ → ℕ) where
  /-- The rows, oldest first. -/
  rows : List ρ
  /-- The largest number ever given. -/
  last : ℕ
  /-- The rows stand in the order of their numbers. -/
  ascending : (rows.map id).Pairwise (· < ·)
  /-- No row carries a number not yet given. -/
  le_last : ∀ row ∈ rows, id row ≤ last

namespace Numbered

variable {ρ : Type} {id : ρ → ℕ}

/-- A table no row was ever inserted in. -/
def empty : Numbered ρ id := ⟨[], 0, List.Pairwise.nil, nofun⟩

/-- Insert the row `row` makes of the next number. -/
def insert (t : Numbered ρ id) (row : ℕ → ρ) (hid : ∀ n, id (row n) = n) : Numbered ρ id where
  rows := t.rows ++ [row (t.last + 1)]
  last := t.last + 1
  ascending := by
    rw [List.map_append, List.pairwise_append]
    refine ⟨t.ascending, by simp, ?_⟩
    intro n hn m hm
    obtain ⟨old, hold, rfl⟩ := List.mem_map.1 hn
    have := t.le_last old hold
    simp only [List.map_cons, hid, List.map_nil, List.mem_singleton] at hm
    omega
  le_last := by
    intro old hold
    rcases List.mem_append.1 hold with h | h
    · exact Nat.le_succ_of_le (t.le_last old h)
    · simp [List.mem_singleton.1 h, hid]

@[simp] theorem last_insert (t : Numbered ρ id) (row : ℕ → ρ) (hid : ∀ n, id (row n) = n) :
    (t.insert row hid).last = t.last + 1 := rfl

@[simp] theorem rows_insert (t : Numbered ρ id) (row : ℕ → ρ) (hid : ∀ n, id (row n) = n) :
    (t.insert row hid).rows = t.rows ++ [row (t.last + 1)] := rfl

/-- Remove the rows numbered up to `through`. -/
def removeThrough (t : Numbered ρ id) (through : ℕ) : Numbered ρ id where
  rows := t.rows.filter fun row => ¬ id row ≤ through
  last := t.last
  ascending := t.ascending.sublist (List.filter_sublist.map id)
  le_last := fun row hrow => t.le_last row (List.mem_of_mem_filter hrow)

@[simp] theorem mem_removeThrough {t : Numbered ρ id} {through : ℕ} {row : ρ} :
    row ∈ (t.removeThrough through).rows ↔ row ∈ t.rows ∧ through < id row := by
  simp [removeThrough]

end Numbered

end Relational
