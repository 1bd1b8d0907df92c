import Dependaboard.Relational.Table
/-!
# Changes — what became of a table's rows

A write of a table inserts rows, rewrites them and deletes them. A log of such
changes accounts for a table (`Log`) where each could be made of the rows it
found and together they come to the rows there are: an upsert is one change
(`log_upsert`), a delete one for each row it takes (`log_delete`), and a log
is carried on by another (`Log.append`).
-/

namespace Relational

variable {ρ κ : Type} {key : ρ → κ}

/-- What became of one row. -/
inductive Change (ρ : Type) where
  | inserted (row : ρ)
  | rewritten (old new : ρ)
  | deleted (row : ρ)
  deriving DecidableEq, Repr

namespace Change

/-- A row written over the one at its key, or as a new one. -/
def upserted (old : Option ρ) (new : ρ) : Change ρ :=
  match old with
  | none => inserted new
  | some old => rewritten old new

/-- The change can be made of the rows. -/
def Possible (key : ρ → κ) (rows : List ρ) : Change ρ → Prop
  | inserted row => key row ∉ rows.map key
  | rewritten old new => old ∈ rows ∧ key new = key old
  | deleted row => row ∈ rows

variable [DecidableEq ρ]

/-- The rows behind a change. -/
def play (rows : List ρ) : Change ρ → List ρ
  | inserted row => rows ++ [row]
  | rewritten old new => rows.filter (· ≠ old) ++ [new]
  | deleted row => rows.filter (· ≠ row)

end Change

variable [DecidableEq ρ]

/-- **The changes account for what became of the rows**, each of them possible
where it stands. -/
def Log (key : ρ → κ) : List (Change ρ) → List ρ → List ρ → Prop
  | [], before, after => after = before
  | change :: rest, before, after =>
    change.Possible key before ∧ Log key rest (change.play before) after

/-- One log carried on by another. -/
theorem Log.append {first second : List (Change ρ)} {a b c : List ρ} (h : Log key first a b)
    (h' : Log key second b c) : Log key (first ++ second) a c := by
  induction first generalizing a with
  | nil =>
    cases h
    exact h'
  | cons change rest ih => exact ⟨h.1, ih h.2⟩

/-- Rows of a list without repetition, deleted one by one. -/
theorem log_deleted {rows doomed : List ρ} (hdoomed : doomed.Nodup)
    (hsub : ∀ row ∈ doomed, row ∈ rows) :
    Log key (doomed.map .deleted) rows (rows.filter fun row => row ∉ doomed) := by
  induction doomed generalizing rows with
  | nil => exact List.filter_eq_self.2 (by simp)
  | cons row rest ih =>
    obtain ⟨hrow, hrest⟩ := List.nodup_cons.1 hdoomed
    obtain ⟨hmem, hsub⟩ := List.forall_mem_cons.1 hsub
    refine ⟨hmem, ?_⟩
    have hkept : ∀ other ∈ rest, other ∈ rows.filter (· ≠ row) := by
      intro other hother
      refine List.mem_filter.2 ⟨hsub other hother, decide_eq_true ?_⟩
      rintro rfl
      exact hrow hother
    have hleft : rows.filter (fun other => other ∉ row :: rest)
        = (rows.filter (· ≠ row)).filter fun other => other ∉ rest := by
      rw [List.filter_filter]
      exact List.filter_congr fun other _ => by simp [Bool.and_comm]
    rw [hleft]
    exact ih hrest hkept

/-- **A delete accounted for**: each row it takes is deleted. -/
theorem log_delete (t : Table ρ κ key) (p : ρ → Bool) :
    Log key ((t.rows.filter p).map .deleted) t.rows (t.delete p).rows := by
  have hnodup : t.rows.Nodup := t.unique.of_map
  have hlog : Log key ((t.rows.filter p).map .deleted) t.rows
      (t.rows.filter fun row => row ∉ t.rows.filter p) :=
    log_deleted (hnodup.filter p) fun row hrow => List.mem_of_mem_filter hrow
  have hrows : t.rows.filter (fun row => row ∉ t.rows.filter p) = (t.delete p).rows := by
    refine List.filter_congr fun row hrow => ?_
    simp [hrow]
  rwa [hrows] at hlog

/-- **An upsert accounted for**: the row at its key is rewritten, or one is
inserted. -/
theorem log_upsert [DecidableEq κ] (t : Table ρ κ key) (row : ρ) :
    Log key [.upserted (t.find? (key row)) row] t.rows (t.upsert row).rows := by
  cases hold : t.find? (key row) with
  | none =>
    have hfree := Table.find?_eq_none.1 hold
    refine ⟨?_, ?_⟩
    · intro hmem
      obtain ⟨other, hother, hkey⟩ := List.mem_map.1 hmem
      exact hfree other hother hkey
    · show (t.rows.filter _) ++ [row] = t.rows ++ [row]
      rw [List.filter_eq_self.2 fun other hother => decide_eq_true (hfree other hother)]
  | some old =>
    obtain ⟨hmem, hkey⟩ := Table.find?_eq_some.1 hold
    refine ⟨⟨hmem, hkey.symm⟩, ?_⟩
    show (t.rows.filter _) ++ [row] = (t.rows.filter _) ++ [row]
    congr 1
    refine List.filter_congr fun other hother => ?_
    rw [decide_eq_decide, ← hkey]
    exact not_congr ⟨fun hsame => Table.eq_of_key_eq hother hmem hsame, fun hsame => hsame ▸ rfl⟩

end Relational
