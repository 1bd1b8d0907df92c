import Mathlib.Data.List.Basic
import Mathlib.Data.Nat.Notation
/-!
# Relational — numbered placeholders

A statement is written of pieces: text, and the places of its parameters,
each a question mark and a number. What a database reads of the text that
comes of it is the number behind each question mark; `placeholders_render` is
that these are the places written, where no text has a question mark of its
own and none begins with a digit behind a place.
-/

namespace Relational

/-- A piece of a statement. -/
inductive Piece where
  | text (text : String)
  /-- The place of a parameter, counted from 1. -/
  | place (n : ℕ)
  deriving DecidableEq, Repr

namespace Sql

/-- What a piece writes. -/
def chars : Piece → List Char
  | .text text => text.toList
  | .place n => '?' :: Nat.toDigits 10 n

/-- A statement as it is sent. -/
def render (sql : List Piece) : List Char := sql.flatMap chars

/-- The place a piece is of. -/
def placeOf : Piece → Option ℕ
  | .text _ => none
  | .place n => some n

/-- The places written, in order. -/
def places (sql : List Piece) : List ℕ := sql.filterMap placeOf

/-- The placeholders of a text: the number behind each question mark. -/
def placeholders : List Char → List ℕ
  | [] => []
  | c :: rest =>
    if c = '?' then Nat.ofDigitChars 10 (rest.takeWhile Char.isDigit) 0 :: placeholders rest
    else placeholders rest

variable {sql sql' : List Piece} {xs ys : List Char}

@[simp] theorem render_append : render (sql ++ sql') = render sql ++ render sql' :=
  List.flatMap_append

@[simp] theorem places_nil : places [] = [] := rfl

@[simp] theorem places_append : places (sql ++ sql') = places sql ++ places sql' :=
  List.filterMap_append

@[simp] theorem places_text (text : String) (rest : List Piece) :
    places (.text text :: rest) = places rest := rfl

@[simp] theorem places_place (n : ℕ) (rest : List Piece) :
    places (.place n :: rest) = n :: places rest := rfl

/-! ## What is read of a text -/

theorem placeholders_append (h : '?' ∉ xs) : placeholders (xs ++ ys) = placeholders ys := by
  induction xs with
  | nil => rfl
  | cons c rest ih =>
    rw [List.mem_cons, not_or] at h
    rw [List.cons_append, placeholders, if_neg (Ne.symm h.1), ih h.2]

/-- No digit stands first. -/
def Opens (text : List Char) : Prop := ∀ c ∈ text.head?, c.isDigit = false

theorem opens_nil : Opens [] := fun c hc => by cases hc

theorem Opens.append (h : Opens xs) (h' : Opens ys) : Opens (xs ++ ys) := by
  cases xs with
  | nil => exact h'
  | cons c rest => exact h

theorem Opens.takeWhile (h : Opens ys) : ys.takeWhile Char.isDigit = [] := by
  cases ys with
  | nil => rfl
  | cons c rest =>
    rw [List.takeWhile_cons, h c rfl]
    rfl

/-- A place is read as its number, where no digit stands behind it. -/
theorem placeholders_place (n : ℕ) (h : Opens ys) :
    placeholders ('?' :: Nat.toDigits 10 n ++ ys) = n :: placeholders ys := by
  have hdigits : ∀ c ∈ Nat.toDigits 10 n, c.isDigit = true := fun c hc =>
    Nat.isDigit_of_mem_toDigits (by decide) (by decide) hc
  have hmark : '?' ∉ Nat.toDigits 10 n := fun hmem => absurd (hdigits _ hmem) (by decide)
  rw [List.cons_append, placeholders, if_pos rfl, placeholders_append hmark,
    List.takeWhile_append_of_pos hdigits, h.takeWhile, List.append_nil,
    Nat.ofDigitChars_ten_toDigits]

/-! ## Statements that are read as they are written -/

/-- No text has a question mark, and none begins with a digit behind a
place. -/
def Spaced : List Piece → Prop
  | [] => True
  | .text text :: rest => '?' ∉ text.toList ∧ Spaced rest
  | .place _ :: rest => Opens (render rest) ∧ Spaced rest

/-- **The placeholders read are the places written.** -/
theorem placeholders_render (h : Spaced sql) : placeholders (render sql) = places sql := by
  induction sql with
  | nil => rfl
  | cons piece rest ih =>
    cases piece with
    | text text => exact (placeholders_append h.1).trans (ih h.2)
    | place n => exact (placeholders_place n h.1).trans (congrArg _ (ih h.2))

theorem Spaced.append (h : Spaced sql) (h' : Spaced sql') (hopens : Opens (render sql')) :
    Spaced (sql ++ sql') := by
  induction sql with
  | nil => exact h'
  | cons piece rest ih =>
    cases piece with
    | text text => exact ⟨h.1, ih h.2⟩
    | place n =>
      refine ⟨?_, ih h.2⟩
      show Opens (render (rest ++ sql'))
      rw [render_append]
      exact h.1.append hopens

/-- A literal has no question mark. -/
theorem noMark {cs : List Char} (h : cs.all (· != '?') = true) : '?' ∉ (String.ofList cs).toList := by
  rw [String.toList_ofList]
  intro hmem
  have := List.all_eq_true.1 h '?' hmem
  contradiction

/-- A literal opens with no digit. -/
theorem opens_text {c : Char} {cs : List Char} (h : c.isDigit = false) (rest : List Piece) :
    Opens (render (.text (String.ofList (c :: cs)) :: rest)) := by
  intro d hd
  simp only [render, List.flatMap_cons, chars, String.toList_ofList] at hd
  obtain rfl := Option.some.inj hd
  exact h

/-! ## Lists -/

/-- Pieces with another between them. -/
def joined (separator : Piece) : List (List Piece) → List Piece
  | [] => []
  | [sql] => sql
  | sql :: sql' :: rest => sql ++ separator :: joined separator (sql' :: rest)

theorem places_joined (separator : String) (sqls : List (List Piece)) :
    places (joined (.text separator) sqls) = sqls.flatMap places := by
  induction sqls with
  | nil => rfl
  | cons sql rest ih =>
    cases rest with
    | nil => simp [joined]
    | cons sql' rest => rw [joined, places_append, places_text, ih, ← List.flatMap_cons]

theorem spaced_joined {separator : String} {sqls : List (List Piece)}
    (hmark : '?' ∉ separator.toList) (hsep : ∀ rest, Opens (render (.text separator :: rest)))
    (h : ∀ sql ∈ sqls, Spaced sql) : Spaced (joined (.text separator) sqls) := by
  induction sqls with
  | nil => trivial
  | cons sql rest ih =>
    obtain ⟨hsql, hrest⟩ := List.forall_mem_cons.1 h
    cases rest with
    | nil => exact hsql
    | cons sql' rest => exact hsql.append ⟨hmark, ih hrest⟩ (hsep _)

/-- The places, with a comma between them. -/
def listed (ns : List ℕ) : List Piece := joined (.text ", ") (ns.map fun n => [.place n])

@[simp] theorem places_listed (ns : List ℕ) : places (listed ns) = ns := by
  rw [listed, places_joined, List.flatMap_map]
  exact List.flatMap_singleton' ns

theorem spaced_listed (ns : List ℕ) : Spaced (listed ns) := by
  refine spaced_joined (noMark rfl) (fun rest => opens_text rfl rest) fun sql hsql => ?_
  obtain ⟨n, -, rfl⟩ := List.mem_map.1 hsql
  exact ⟨opens_nil, trivial⟩

example : placeholders (render (.text "x IN (" :: listed [3, 12] ++ [.text ")"])) = [3, 12] := by
  decide

end Sql

end Relational
