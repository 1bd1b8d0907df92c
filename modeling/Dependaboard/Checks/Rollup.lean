import Mathlib.Data.Finset.Lattice.Fold
import Dependaboard.Checks.Whole
/-!
# Checks — the rollup is a join

Statuses are ordered none, success, pending, failure, and the rollup of some
signals is the least status above what each of them stands for:
`rollupChecks_eq_sup`. What order they came in, how often each did, and on
which pages they were is then nothing to it.
-/

namespace Dependaboard

open Durable Prog

/-! ## The order of statuses -/

namespace CheckStatus

/-- How bad a status is. -/
def severity : CheckStatus → ℕ
  | none => 0
  | success => 1
  | pending => 2
  | failure => 3

theorem severity_injective : Function.Injective severity := by
  intro a b h
  cases a <;> cases b <;> first | rfl | cases h

instance : LinearOrder CheckStatus := LinearOrder.lift' severity severity_injective

instance : OrderBot CheckStatus where
  bot := none
  bot_le status := Nat.zero_le (severity status)

theorem le_failure (status : CheckStatus) : status ≤ failure := by
  cases status <;> decide

example : none < success ∧ success < pending ∧ pending < failure := by decide

end CheckStatus

/-- The status of a commit with the one signal. -/
def CheckSignal.status : CheckSignal → CheckStatus
  | .pass => .success
  | .fail => .failure
  | .pending => .pending

/-! ## The rollup -/

variable {xs ys : List CheckSignal}

/-- What was seen before the signals left is joined to them. -/
theorem rollupFrom_eq_max (sawPass sawPending : Bool) (xs : List CheckSignal) :
    rollupFrom sawPass sawPending xs = max (rollupFrom sawPass sawPending []) (rollupChecks xs) := by
  induction xs generalizing sawPass sawPending with
  | nil => exact (max_eq_left bot_le).symm
  | cons signal rest ih =>
    cases signal with
    | fail =>
      -- a failure ends the loop, and nothing is above it
      exact (max_eq_right (CheckStatus.le_failure _)).symm
    | pending =>
      have hseen : rollupFrom sawPass true [] = max (rollupFrom sawPass sawPending []) .pending := by
        cases sawPass <;> cases sawPending <;> rfl
      calc rollupFrom sawPass sawPending (.pending :: rest)
          = max (rollupFrom sawPass true []) (rollupChecks rest) := ih sawPass true
        _ = max (rollupFrom sawPass sawPending []) (max .pending (rollupChecks rest)) := by
            rw [hseen, max_assoc]
        _ = max (rollupFrom sawPass sawPending []) (rollupChecks (.pending :: rest)) :=
            congrArg _ (ih false true).symm
    | pass =>
      have hseen : rollupFrom true sawPending [] = max (rollupFrom sawPass sawPending []) .success := by
        cases sawPass <;> cases sawPending <;> rfl
      calc rollupFrom sawPass sawPending (.pass :: rest)
          = max (rollupFrom true sawPending []) (rollupChecks rest) := ih true sawPending
        _ = max (rollupFrom sawPass sawPending []) (max .success (rollupChecks rest)) := by
            rw [hseen, max_assoc]
        _ = max (rollupFrom sawPass sawPending []) (rollupChecks (.pass :: rest)) :=
            congrArg _ (ih true false).symm

theorem rollupChecks_cons (signal : CheckSignal) (xs : List CheckSignal) :
    rollupChecks (signal :: xs) = max signal.status (rollupChecks xs) := by
  cases signal with
  | fail => exact (max_eq_left (CheckStatus.le_failure _)).symm
  | pending => exact rollupFrom_eq_max false true xs
  | pass => exact rollupFrom_eq_max true false xs

/-- **The rollup is the least status above each signal's.** -/
theorem rollupChecks_eq_sup (xs : List CheckSignal) :
    rollupChecks xs = xs.toFinset.sup CheckSignal.status := by
  induction xs with
  | nil => rfl
  | cons signal rest ih =>
    rw [rollupChecks_cons, List.toFinset_cons, Finset.sup_insert, ← ih]

theorem rollupChecks_append (xs ys : List CheckSignal) :
    rollupChecks (xs ++ ys) = max (rollupChecks xs) (rollupChecks ys) := by
  rw [rollupChecks_eq_sup, List.toFinset_append, Finset.sup_union, ← rollupChecks_eq_sup,
    ← rollupChecks_eq_sup]

/-- Lists of the same signals roll up the same. -/
theorem rollupChecks_congr (h : ∀ signal, signal ∈ xs ↔ signal ∈ ys) :
    rollupChecks xs = rollupChecks ys := by
  have hset : xs.toFinset = ys.toFinset := by
    ext signal
    rw [List.mem_toFinset, List.mem_toFinset, h]
  rw [rollupChecks_eq_sup, rollupChecks_eq_sup, hset]

/-! ## Suites -/

/-- A suite signals nothing but a failure. -/
theorem checkSuiteSignal_eq_fail {suite : CheckSuite} {signal : CheckSignal}
    (h : checkSuiteSignal suite = some signal) : signal = .fail :=
  of_decide_eq_true (Option.filter_eq_some_iff.1 h).2

/-- Suites leave a rollup as it is, or make it a failure. -/
theorem rollupChecks_suites (xs : List CheckSignal) (suites : List CheckSuite) :
    rollupChecks (xs ++ suites.filterMap checkSuiteSignal)
      = if suites.filterMap checkSuiteSignal = [] then rollupChecks xs else .failure := by
  split_ifs with hsuites
  · rw [hsuites, List.append_nil]
  · obtain ⟨signal, hsignal⟩ := List.exists_mem_of_ne_nil _ hsuites
    obtain ⟨suite, -, hsuite⟩ := List.mem_filterMap.1 hsignal
    obtain rfl := checkSuiteSignal_eq_fail hsuite
    exact rollupFrom_eq_failure.2 (List.mem_append_right _ hsignal)

/-! ## Pages -/

/-- The nodes of some pages. -/
def nodesOf {T : Type} (pages : List (Connection T)) : List T := pages.flatMap Connection.nodes

/-- The signals of some contexts and some suites. -/
def signalsOf (contexts : List (Connection CheckContext)) (suites : List (Connection CheckSuite)) :
    List CheckSignal :=
  (nodesOf contexts).filterMap checkContextSignal ++ (nodesOf suites).filterMap checkSuiteSignal

/-- **The rollup is a join**: it is the same of lists of the same signals, of
two lists it is the greater of theirs, and suites leave it or fail it; so
the same contexts and suites roll up the same from whatever pages they are
on. -/
theorem rollupChecks_join :
    (∀ xs ys : List CheckSignal, (∀ signal, signal ∈ xs ↔ signal ∈ ys) →
      rollupChecks xs = rollupChecks ys) ∧
    (∀ xs ys, rollupChecks (xs ++ ys) = max (rollupChecks xs) (rollupChecks ys)) ∧
    (∀ xs (suites : List CheckSuite),
      rollupChecks (xs ++ suites.filterMap checkSuiteSignal) = rollupChecks xs ∨
        rollupChecks (xs ++ suites.filterMap checkSuiteSignal) = .failure) ∧
    (∀ contexts contexts' suites suites',
      (∀ node, node ∈ nodesOf contexts ↔ node ∈ nodesOf contexts') →
      (∀ node, node ∈ nodesOf suites ↔ node ∈ nodesOf suites') →
      ∀ signals : List CheckSignal, signals.Perm (signalsOf contexts' suites') →
        rollupChecks (signalsOf contexts suites) = rollupChecks signals) := by
  refine ⟨fun xs ys => rollupChecks_congr, rollupChecks_append, fun xs suites => ?_,
    fun contexts contexts' suites suites' hcontexts hsuites signals hperm => ?_⟩
  · rw [rollupChecks_suites]
    split_ifs
    · exact .inl rfl
    · exact .inr rfl
  · refine rollupChecks_congr fun signal => ?_
    rw [hperm.mem_iff]
    simp only [signalsOf, List.mem_append, List.mem_filterMap, hcontexts, hsuites]

end Dependaboard
