import Mathlib.Algebra.GroupWithZero.Nat
import Mathlib.Data.List.Dedup
import Mathlib.Data.List.Sort
import Mathlib.Data.Prod.Lex
import Mathlib.Order.OrderDual
import Dependaboard.Relational.Table
/-!
# Queries — ordered rows

What a query's `ORDER BY` makes of the rows it selected, by a key of a linear
order. Where no two rows share a key the answer is one list whatever order
the database finds the rows in, selecting commutes with ordering, and a
`LIMIT` takes the rows fewer than that many come before.
-/

namespace Relational

variable {ρ κ : Type} [LinearOrder κ] (key : ρ → κ)

/-- `ORDER BY key`. -/
def orderBy (rows : List ρ) : List ρ := rows.insertionSort fun a b => key a ≤ key b

/-- `ORDER BY key DESC`. -/
def orderByDesc (rows : List ρ) : List ρ := orderBy (fun row => OrderDual.toDual (key row)) rows

/-- `SELECT g, COUNT(*) … GROUP BY g`: the groups, in no order a reader may
count on. -/
def groupCounts {γ : Type} [DecidableEq γ] (g : ρ → γ) (rows : List ρ) : List (γ × ℕ) :=
  (rows.map g).dedup.map fun value => (value, rows.countP fun row => g row = value)

variable {key} {rows : List ρ}

theorem perm_orderBy (rows : List ρ) : (orderBy key rows).Perm rows :=
  List.perm_insertionSort _ _

theorem perm_orderByDesc (rows : List ρ) : (orderByDesc key rows).Perm rows := perm_orderBy rows

@[simp] theorem mem_orderBy {row : ρ} : row ∈ orderBy key rows ↔ row ∈ rows :=
  (perm_orderBy rows).mem_iff

@[simp] theorem mem_orderByDesc {row : ρ} : row ∈ orderByDesc key rows ↔ row ∈ rows :=
  mem_orderBy

/-- Rows in order are left as they are. -/
theorem orderBy_of_pairwise (h : rows.Pairwise fun a b => key a ≤ key b) :
    orderBy key rows = rows :=
  h.insertionSort_eq

theorem pairwise_orderBy (rows : List ρ) :
    (orderBy key rows).Pairwise fun a b => key a ≤ key b := by
  have : Std.Total fun a b : ρ => key a ≤ key b := ⟨fun a b => le_total _ _⟩
  have : IsTrans ρ fun a b : ρ => key a ≤ key b := ⟨fun _ _ _ => le_trans⟩
  exact List.pairwise_insertionSort _ rows

/-- **Rows under distinct keys are strictly in order.** -/
theorem pairwise_lt_orderBy (h : (rows.map key).Nodup) :
    (orderBy key rows).Pairwise fun a b => key a < key b := by
  have hnodup : ((orderBy key rows).map key).Nodup := ((perm_orderBy rows).map key).nodup_iff.2 h
  rw [List.Nodup, List.pairwise_map] at hnodup
  exact (pairwise_orderBy rows).imp₂ (fun _ _ hle hne => lt_of_le_of_ne hle hne) hnodup

/-- **Ordered rows are one list**, whatever order they were found in. -/
theorem eq_orderBy {ordered : List ρ} (hperm : ordered.Perm rows)
    (hsorted : ordered.Pairwise fun a b => key a < key b) : orderBy key rows = ordered := by
  have hnodup : (rows.map key).Nodup := by
    refine (hperm.map key).nodup_iff.1 ?_
    rw [List.Nodup, List.pairwise_map]
    exact hsorted.imp fun hlt => ne_of_lt hlt
  have hasymm : ∀ a b, a ∈ orderBy key rows → b ∈ ordered →
      key a < key b → key b < key a → a = b :=
    fun a b _ _ hab hba => absurd hab (lt_asymm hba)
  have hsame : (orderBy key rows).Perm ordered := (perm_orderBy rows).trans hperm.symm
  exact hsame.eq_of_pairwise hasymm (pairwise_lt_orderBy hnodup) hsorted

/-- **Rows found in another order are ordered alike.** -/
theorem orderBy_eq_of_perm {rows' : List ρ} (hperm : rows.Perm rows')
    (h : (rows.map key).Nodup) : orderBy key rows = orderBy key rows' :=
  (eq_orderBy ((perm_orderBy rows).trans hperm) (pairwise_lt_orderBy h)).symm

/-- Selecting from ordered rows is ordering the selected. -/
theorem filter_orderBy (h : (rows.map key).Nodup) (p : ρ → Bool) :
    (orderBy key rows).filter p = orderBy key (rows.filter p) :=
  (eq_orderBy ((perm_orderBy rows).filter p) ((pairwise_lt_orderBy h).filter p)).symm

/-- Ordering rows by what is read off them and reading it is reading it and
ordering. -/
theorem map_orderBy {α : Type} (f : α → ρ) (xs : List α) :
    (orderBy (fun x => key (f x)) xs).map f = orderBy key (xs.map f) :=
  List.map_insertionSort _ _ f xs fun _ _ _ _ => Iff.rfl

theorem map_orderByDesc {α : Type} (f : α → ρ) (xs : List α) :
    (orderByDesc (fun x => key (f x)) xs).map f = orderByDesc key (xs.map f) :=
  map_orderBy f xs

/-- Two keys that order rows alike make one list of them. -/
theorem orderByDesc_congr {κ' : Type} [LinearOrder κ'] {key' : ρ → κ'}
    (h : ∀ a b, key a ≤ key b ↔ key' a ≤ key' b) (rows : List ρ) :
    orderByDesc key rows = orderByDesc key' rows := by
  unfold orderByDesc orderBy
  congr 1
  funext a b
  exact propext (h b a)

/-- **A limit takes the rows fewer than that many come before.** -/
theorem mem_take_of_pairwise {row : ρ} (hsorted : rows.Pairwise fun a b => key a < key b)
    (n : ℕ) : row ∈ rows.take n ↔
      row ∈ rows ∧ (rows.filter fun other => key other < key row).length < n := by
  induction rows generalizing n with
  | nil => simp
  | cons first rest ih =>
    rw [List.pairwise_cons] at hsorted
    obtain ⟨hfirst, hrest⟩ := hsorted
    cases n with
    | zero => simp
    | succ n =>
      rw [List.take_succ_cons, List.mem_cons, List.mem_cons, ih hrest]
      constructor
      · rintro (rfl | ⟨hmem, hlt⟩)
        · have hnone : rest.filter (fun other => key other < key row) = [] :=
            List.filter_eq_nil_iff.2 fun other hother => by
              simpa using le_of_lt (hfirst other hother)
          simp [hnone]
        · rw [List.filter_cons_of_pos (by simpa using hfirst row hmem), List.length_cons]
          exact ⟨.inr hmem, by omega⟩
      · rintro ⟨rfl | hmem, hlt⟩
        · exact .inl rfl
        · rw [List.filter_cons_of_pos (by simpa using hfirst row hmem), List.length_cons] at hlt
          exact .inr ⟨hmem, by omega⟩

/-- The rows past one of them, in order, are those behind it. -/
theorem filter_lt_of_pairwise {before after : List ρ} {row : ρ}
    (hsorted : (before ++ row :: after).Pairwise fun a b => key a < key b) :
    (before ++ row :: after).filter (fun other => key row < key other) = after := by
  rw [List.pairwise_append, List.pairwise_cons] at hsorted
  obtain ⟨-, ⟨hafter, -⟩, hbefore⟩ := hsorted
  have hnone : before.filter (fun other => key row < key other) = [] :=
    List.filter_eq_nil_iff.2 fun other hother => by
      simpa using le_of_lt (hbefore other hother row List.mem_cons_self)
  have hall : after.filter (fun other => key row < key other) = after :=
    List.filter_eq_self.2 fun other hother => by simpa using hafter other hother
  rw [List.filter_append, hnone, List.filter_cons_of_neg (by simp), hall, List.nil_append]

/-! ## Rows grouped -/

section Grouped

variable {ρ γ : Type} [DecidableEq γ] {g : ρ → γ} {rows : List ρ}

theorem nodup_groupCounts : ((groupCounts g rows).map Prod.fst).Nodup := by
  have hvalues : (groupCounts g rows).map Prod.fst = (rows.map g).dedup := by
    simp [groupCounts, Function.comp_def]
  rw [hvalues]
  exact List.nodup_dedup _

/-- **A group is a value some row has, with how many rows have it.** -/
theorem mem_groupCounts {value : γ} {count : ℕ} : (value, count) ∈ groupCounts g rows ↔
    value ∈ rows.map g ∧ rows.countP (fun row => g row = value) = count := by
  rw [groupCounts, List.mem_map]
  constructor
  · rintro ⟨value, hvalue, heq⟩
    obtain ⟨rfl, rfl⟩ := Prod.mk.inj heq
    exact ⟨List.mem_dedup.1 hvalue, rfl⟩
  · rintro ⟨hvalue, rfl⟩
    exact ⟨value, List.mem_dedup.2 hvalue, rfl⟩

/-- Rows found in another order are grouped alike. -/
theorem groupCounts_perm {rows' : List ρ} (h : rows.Perm rows') :
    (groupCounts g rows).Perm (groupCounts g rows') := by
  have hcounts : (fun value => (value, rows.countP fun row => g row = value))
      = fun value => (value, rows'.countP fun row => g row = value) :=
    funext fun value => by rw [h.countP_eq]
  rw [groupCounts, groupCounts, hcounts]
  exact (h.map g).dedup.map _

/-- **What a map of the groups says of a value**, where a value no row has is
none: how many rows have it. -/
theorem getD_eq_countP {counts : γ → Option ℕ}
    (h : ∀ value count, counts value = some count ↔ (value, count) ∈ groupCounts g rows)
    (value : γ) : (counts value).getD 0 = rows.countP fun row => g row = value := by
  cases hcount : counts value with
  | some count => exact (mem_groupCounts.1 ((h value count).1 hcount)).2.symm
  | none =>
    refine (List.countP_eq_zero.2 fun row hrow heq => ?_).symm
    have hmem : value ∈ rows.map g := of_decide_eq_true heq ▸ List.mem_map_of_mem hrow
    have hsome := (h value _).2 (mem_groupCounts.2 ⟨hmem, rfl⟩)
    rw [hcount] at hsome
    cases hsome

/-- The groups of some rows, under the values they are of. -/
def groups (g : ρ → γ) (rows : List ρ) : Table (γ × ℕ) γ Prod.fst :=
  ⟨groupCounts g rows, nodup_groupCounts⟩

/-- **What joining the groups gives a value**: how many rows have it. -/
theorem getD_find?_groups (value : γ) :
    (((groups g rows).find? value).map Prod.snd).getD 0 = rows.countP fun row => g row = value := by
  refine @getD_eq_countP _ _ _ _ _ (fun value => ((groups g rows).find? value).map Prod.snd) ?_ value
  intro value count
  rw [Option.map_eq_some_iff]
  constructor
  · rintro ⟨⟨value, count⟩, hfind, rfl⟩
    obtain ⟨hmem, rfl⟩ := Table.find?_eq_some.1 hfind
    exact hmem
  · exact fun hmem => ⟨_, Table.find?_eq_some.2 ⟨hmem, rfl⟩, rfl⟩

/-- **Rows counted under some values** are, all told, the rows of one of
them. -/
theorem sum_countP {values : List γ} (h : values.Nodup) :
    (values.map fun value => rows.countP fun row => g row = value).sum
      = rows.countP fun row => g row ∈ values := by
  induction values with
  | nil => simp
  | cons value rest ih =>
    obtain ⟨hnot, hrest⟩ := List.nodup_cons.1 h
    rw [List.map_cons, List.sum_cons, ih hrest]
    clear ih h hrest
    induction rows with
    | nil => rfl
    | cons row rows ih =>
      rw [List.countP_cons, List.countP_cons, List.countP_cons, ← ih]
      by_cases hrow : g row = value
      · have hother : g row ∉ rest := hrow ▸ hnot
        simp [hrow, hrow ▸ hother]
        omega
      · simp [hrow]
        omega

end Grouped

/-! ## Rows decoded

A read decodes the rows it selected one after another, and fails at the
first it cannot. -/

section Decoded

variable {ε β : Type} {decode : ρ → Except ε β} {rows : List ρ}

theorem mapM_eq_ok {read : List β} :
    rows.mapM decode = .ok read ↔ List.Forall₂ (fun row b => decode row = .ok b) rows read := by
  induction rows generalizing read with
  | nil => cases read <;> simp [pure, Except.pure]
  | cons row rest ih =>
    rw [List.mapM_cons]
    cases hrow : decode row with
    | error e => cases read <;> simp [bind, Except.bind, hrow]
    | ok b =>
      cases hrest : rest.mapM decode with
      | error e => cases read <;> simp [bind, Except.bind, ← ih, hrow, hrest]
      | ok bs => cases read <;> simp [bind, Except.bind, pure, Except.pure, ← ih, hrow, hrest]

/-- What each row and what it is read as agree on, the whole answer does. -/
theorem map_eq_map {α β γ : Type} {f : α → γ} {g : β → γ} {as : List α} {bs : List β}
    (h : List.Forall₂ (fun a b => f a = g b) as bs) : as.map f = bs.map g := by
  rwa [← List.forall₂_eq_eq_eq, List.forall₂_map_left_iff, List.forall₂_map_right_iff]

/-- Decoded alike, rows are read alike. -/
theorem mapM_congr {decode' : ρ → Except ε β} (h : ∀ row ∈ rows, decode row = decode' row) :
    rows.mapM decode = rows.mapM decode' := by
  induction rows with
  | nil => rfl
  | cons row rest ih =>
    rw [List.forall_mem_cons] at h
    rw [List.mapM_cons, List.mapM_cons, h.1, ih h.2]

/-- A read of rows that all decode succeeds. -/
theorem exists_mapM (h : ∀ row ∈ rows, ∃ b, decode row = .ok b) :
    ∃ read, rows.mapM decode = .ok read := by
  induction rows with
  | nil => exact ⟨[], rfl⟩
  | cons row rest ih =>
    rw [List.forall_mem_cons] at h
    obtain ⟨b, hb⟩ := h.1
    obtain ⟨bs, hbs⟩ := ih h.2
    exact ⟨b :: bs, mapM_eq_ok.2 (.cons hb (mapM_eq_ok.1 hbs))⟩

end Decoded

end Relational
