import Mathlib.Data.Char
import Mathlib.Data.Prod.Lex
import Mathlib.Data.List.Lex
import Mathlib.Data.Int.Order.Basic
import Dependaboard.Relational.Query
/-!
# Cells — what a column holds, and conditions over it

A column holds a null, an integer or a text. A comparison with a null is
neither true nor false, so a condition has three values (`Truth`), and a row
is selected where it is true. `Truth.and_eq_true`, `Truth.or_eq_true` and
`Truth.any_eq_true` are that the connectives are true exactly where the ones
of two values are; what a false or an unknown side contributes never shows.
-/

namespace Relational

/-- What a column holds of a row. -/
inductive Cell where
  | null
  | integer (value : ℤ)
  | text (value : String)
  deriving DecidableEq, Repr

/-! ## Conditions -/

/-- What a condition comes to; `none` where it cannot be said. -/
abbrev Truth : Type := Option Bool

namespace Truth

/-- `a AND b`. -/
def and : Truth → Truth → Truth
  | some false, _ | _, some false => some false
  | some true, some true => some true
  | _, _ => none

/-- `a OR b`. -/
def or : Truth → Truth → Truth
  | some true, _ | _, some true => some true
  | some false, some false => some false
  | _, _ => none

/-- One of them, as `x IN (…)` asks for. -/
def any : List Truth → Truth := List.foldr or (some false)

/-- All of them, joined by `AND`. -/
def all : List Truth → Truth := List.foldr and (some true)

@[simp] theorem and_eq_true {a b : Truth} : and a b = some true ↔ a = some true ∧ b = some true := by
  rcases a with _ | _ | _ <;> rcases b with _ | _ | _ <;> decide

@[simp] theorem or_eq_true {a b : Truth} : or a b = some true ↔ a = some true ∨ b = some true := by
  rcases a with _ | _ | _ <;> rcases b with _ | _ | _ <;> decide

@[simp] theorem any_eq_true {conditions : List Truth} :
    any conditions = some true ↔ some true ∈ conditions := by
  induction conditions with
  | nil => simp [any]
  | cons condition rest ih =>
    rw [any, List.foldr_cons, or_eq_true, List.mem_cons]
    exact or_congr eq_comm ih

@[simp] theorem all_eq_true {conditions : List Truth} :
    all conditions = some true ↔ ∀ condition ∈ conditions, condition = some true := by
  induction conditions with
  | nil => simp [all]
  | cons condition rest ih =>
    rw [all, List.foldr_cons, and_eq_true, List.forall_mem_cons]
    exact and_congr_right fun _ => ih

end Truth

namespace Cell

/-- The text of a column that holds one. -/
def text? : Cell → Option String
  | text value => some value
  | _ => none

/-- `x IS NULL`. -/
def isNull (cell : Cell) : Truth := some (cell = null)

/-- A comparison, unknown where a side is null. -/
def compared (p : Cell → Cell → Bool) : Cell → Cell → Truth
  | null, _ | _, null => none
  | a, b => some (p a b)

/-- `a = b`. -/
def eq : Cell → Cell → Truth := compared fun a b => a = b

/-- `a = b` under a collation, which folds texts that are one. -/
def eqUnder (fold : String → String) : Cell → Cell → Truth :=
  compared fun a b =>
    match a, b with
    | text a, text b => fold a = fold b
    | a, b => a = b

/-- Where a value stands among all: nulls first, then integers, then texts. -/
def order : Cell → ℕ ×ₗ ℤ ×ₗ List Char
  | null => toLex (0, toLex (0, []))
  | integer value => toLex (1, toLex (value, []))
  | text value => toLex (2, toLex (0, value.toList))

/-- `a < b`. -/
def lt : Cell → Cell → Truth := compared fun a b => a.order < b.order

/-- `a || b`. -/
def concat : Cell → Cell → Cell
  | text a, text b => text (a ++ b)
  | _, _ => null

/-- `x IN (…)`. -/
def isIn (cell : Cell) (values : List Cell) : Truth := Truth.any (values.map (eq cell))

@[simp] theorem eq_text (a b : String) : eq (text a) (text b) = some (a = b : Bool) := by
  simp [eq, compared]

@[simp] theorem eq_integer (a b : ℤ) : eq (integer a) (integer b) = some (a = b : Bool) := by
  simp [eq, compared]

@[simp] theorem eq_eq_true {a b : Cell} : eq a b = some true ↔ a = b ∧ b ≠ null := by
  cases a <;> cases b <;> simp [eq, compared]

@[simp] theorem eqUnder_text (fold : String → String) (a b : String) :
    eqUnder fold (text a) (text b) = some (fold a = fold b : Bool) := rfl

@[simp] theorem lt_integer (a b : ℤ) : lt (integer a) (integer b) = some (a < b : Bool) := by
  simp [lt, compared, order, Prod.Lex.toLex_lt_toLex]

@[simp] theorem lt_text (a b : String) :
    lt (text a) (text b) = some (a.toList < b.toList : Bool) := by
  simp [lt, compared, order, Prod.Lex.toLex_lt_toLex]

@[simp] theorem concat_text (a b : String) : concat (text a) (text b) = text (a ++ b) := rfl

/-- A text is among texts, or its column is null and it is not. -/
theorem isIn_texts {cell : Cell} {values : List String} :
    isIn cell (values.map text) = some true ↔ ∃ value ∈ values, cell = text value := by
  simp only [isIn, Truth.any_eq_true, List.mem_map, exists_exists_and_eq_and]
  refine exists_congr fun value => and_congr_right fun _ => ?_
  simp

end Cell

end Relational
