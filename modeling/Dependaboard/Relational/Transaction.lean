import Mathlib.Data.Nat.Notation
import Dependaboard.Durable.Prog
/-!
# Transactions — statements run whole or not at all

A call to a database is a program over its statements. `evaluate` is what the
statements come to one after another; `execute` is the same call made of a
database that may refuse any of them, by its place. A call in a transaction
leaves what its statements came to, or nothing: `transaction_ok` and
`transaction_error`. What one statement keeps, a call keeps
(`evaluate_keeps`), and a view of the tables that each statement respects, a
call respects (`evaluate_map`).
-/

namespace Relational

open Durable

variable {S : Signature} {ε α β σ τ : Type}

/-- What each statement does to the tables and gives back, or why it is
refused. -/
abbrev Statements (S : Signature) (ε σ : Type) : Type :=
  (op : S.Op) → σ → Except ε (S.Ans op × σ)

/-- What the statements of a call come to, one after another. -/
def evaluate (step : Statements S ε σ) : Prog S ε α → σ → Except ε (α × σ)
  | .done a, s => .ok (a, s)
  | .fail e, _ => .error e
  | .ask op k, s =>
    match step op s with
    | .ok (answer, s') => evaluate step (k answer) s'
    | .error e => .error e

/-- The call made, the statements from the `n`-th on refused where
`refusals` says: its result, the tables as it leaves them, and the place of
the statement that would come next. -/
def execute (step : Statements S ε σ) (refusals : ℕ → Option ε) :
    Prog S ε α → ℕ → σ → Except ε α × σ × ℕ
  | .done a, n, s => (.ok a, s, n)
  | .fail e, n, s => (.error e, s, n)
  | .ask op k, n, s =>
    match refusals n with
    | some e => (.error e, s, n + 1)
    | none =>
      match step op s with
      | .ok (answer, s') => execute step refusals (k answer) (n + 1) s'
      | .error e => (.error e, s, n + 1)

/-- The call made without a transaction: each statement commits by itself. -/
def autocommit (step : Statements S ε σ) (refusals : ℕ → Option ε) (p : Prog S ε α) (s : σ) :
    Except ε α × σ :=
  ((execute step refusals p 0 s).1, (execute step refusals p 0 s).2.1)

/-- The call made in a transaction, opened before its first statement and
committed behind its last. A call that fails drops it, and the working copy
with it. -/
def transaction (step : Statements S ε σ) (refusals : ℕ → Option ε) (p : Prog S ε α) (s : σ) :
    Except ε α × σ :=
  match refusals 0 with
  | some e => (.error e, s)
  | none =>
    match execute step refusals p 1 s with
    | (.error e, _, _) => (.error e, s)
    | (.ok a, working, n) =>
      match refusals n with
      | some e => (.error e, s)
      | none => (.ok a, working)

variable {step : Statements S ε σ} {refusals : ℕ → Option ε} {p : Prog S ε α} {s s' : σ}

/-! ## Evaluating a call -/

theorem evaluate_ask (op : S.Op) (k : S.Ans op → Prog S ε α) :
    evaluate step (.ask op k) s = (step op s).bind fun result => evaluate step (k result.1) result.2 := by
  rw [evaluate]
  cases step op s <;> rfl

theorem evaluate_perform (op : S.Op) : evaluate step (Prog.perform op) s = step op s := by
  rw [Prog.perform, evaluate_ask]
  cases step op s <;> rfl

/-- **A sequence comes to its first part, and then the rest.** -/
theorem evaluate_bind (f : α → Prog S ε β) :
    evaluate step (p.bind f) s
      = (evaluate step p s).bind fun result => evaluate step (f result.1) result.2 := by
  induction p generalizing s with
  | done a => rfl
  | fail e => rfl
  | ask op k ih =>
    rw [Prog.ask_bind, evaluate_ask, evaluate_ask]
    cases step op s with
    | error e => rfl
    | ok result => exact ih result.1

@[simp] theorem evaluate_ofExcept (r : Except ε α) :
    evaluate step (.ofExcept r) s = r.map fun a => (a, s) := by
  cases r <;> rfl

/-- A loop comes to its turns. -/
theorem evaluate_forEach {γ : Type} (xs : List γ) (body : γ → Prog S ε Unit) :
    evaluate step (.forEach xs body) s
      = (xs.foldlM (fun s x => (evaluate step (body x) s).map Prod.snd) s).map fun s => ((), s) := by
  induction xs generalizing s with
  | nil => rfl
  | cons x xs ih =>
    rw [Prog.forEach, evaluate_bind, List.foldlM_cons]
    cases evaluate step (body x) s with
    | error e => rfl
    | ok result => exact ih

/-- **What every statement keeps, a call keeps.** -/
theorem evaluate_keeps {R : σ → σ → Prop} (hrefl : ∀ s, R s s)
    (htrans : ∀ {a b c}, R a b → R b c → R a c)
    (hstep : ∀ op s answer s', step op s = .ok (answer, s') → R s s') {a : α}
    (h : evaluate step p s = .ok (a, s')) : R s s' := by
  induction p generalizing s with
  | done a =>
    obtain ⟨-, rfl⟩ := Prod.mk.inj (Except.ok.inj h)
    exact hrefl s
  | fail e => cases h
  | ask op k ih =>
    rw [evaluate_ask] at h
    cases hop : step op s with
    | error e =>
      rw [hop] at h
      cases h
    | ok result =>
      rw [hop] at h
      exact htrans (hstep op s result.1 result.2 hop) (ih result.1 h)

/-- **A call respects a view that every statement respects.** -/
theorem evaluate_map {step' : Statements S ε τ} {view : σ → τ}
    (hstep : ∀ op s, step' op (view s) = (step op s).map fun result => (result.1, view result.2)) :
    evaluate step' p (view s) = (evaluate step p s).map fun result => (result.1, view result.2) := by
  induction p generalizing s with
  | done a => rfl
  | fail e => rfl
  | ask op k ih =>
    rw [evaluate_ask, evaluate_ask, hstep]
    cases step op s with
    | error e => rfl
    | ok result => exact ih result.1

/-! ## Refusals -/

/-- A call that was carried out came to what it evaluates to. -/
theorem evaluate_of_execute {a : α} {n n' : ℕ}
    (h : execute step refusals p n s = (.ok a, s', n')) : evaluate step p s = .ok (a, s') := by
  induction p generalizing n s with
  | done a =>
    obtain ⟨ha, hs, -⟩ := Prod.mk.injEq .. ▸ Prod.mk.injEq .. ▸ h
    rw [evaluate, Except.ok.inj ha, hs]
  | fail e => cases h
  | ask op k ih =>
    rw [execute] at h
    split at h
    · cases h
    · split at h
      · next hop =>
        rw [evaluate_ask, hop]
        exact ih _ h
      · cases h

/-- A call none of whose statements is refused is carried out. -/
theorem execute_of_evaluate (hrefusals : ∀ n, refusals n = none) {a : α} (n : ℕ)
    (h : evaluate step p s = .ok (a, s')) :
    ∃ n', execute step refusals p n s = (.ok a, s', n') := by
  induction p generalizing n s with
  | done a =>
    obtain ⟨rfl, rfl⟩ := Prod.mk.inj (Except.ok.inj h)
    exact ⟨n, rfl⟩
  | fail e => cases h
  | ask op k ih =>
    rw [evaluate_ask] at h
    rw [execute, hrefusals n]
    cases hop : step op s with
    | error e =>
      rw [hop] at h
      cases h
    | ok result =>
      rw [hop] at h
      exact ih result.1 (n + 1) h

/-- **A transaction that succeeds leaves what its call comes to.** -/
theorem transaction_ok {a : α} (h : transaction step refusals p s = (.ok a, s')) :
    evaluate step p s = .ok (a, s') := by
  unfold transaction at h
  split at h
  · cases h
  · split at h
    · cases h
    · next hrun =>
      split at h
      · cases h
      · obtain ⟨ha, rfl⟩ := Prod.mk.inj h
        cases ha
        exact evaluate_of_execute hrun

/-- **A transaction that fails leaves the tables as they were.** -/
theorem transaction_error {e : ε} (h : transaction step refusals p s = (.error e, s')) :
    s' = s := by
  unfold transaction at h
  split at h
  · exact (Prod.mk.inj h).2.symm
  · split at h
    · exact (Prod.mk.inj h).2.symm
    · split at h
      · exact (Prod.mk.inj h).2.symm
      · cases (Prod.mk.inj h).1

/-- A transaction none of whose statements is refused succeeds where its call
does. -/
theorem transaction_of_evaluate (hrefusals : ∀ n, refusals n = none) {a : α}
    (h : evaluate step p s = .ok (a, s')) : transaction step refusals p s = (.ok a, s') := by
  obtain ⟨n, hrun⟩ := execute_of_evaluate hrefusals 1 h
  simp only [transaction, hrefusals, hrun]

/-- **A transaction commits whole or fails with the tables as they were.** -/
theorem transaction_cases (step : Statements S ε σ) (refusals : ℕ → Option ε) (p : Prog S ε α)
    (s : σ) :
    (∃ a s', transaction step refusals p s = (.ok a, s') ∧ evaluate step p s = .ok (a, s')) ∨
      ∃ e, transaction step refusals p s = (.error e, s) := by
  cases h : transaction step refusals p s with
  | mk result s' =>
    cases result with
    | ok a => exact .inl ⟨a, s', rfl, transaction_ok h⟩
    | error e => exact .inr ⟨e, by rw [transaction_error h]⟩

/-! ## One statement -/

/-- The call of one statement, its parameters checked first. -/
def once (checks : Except ε β) (op : β → S.Op) : Prog S ε Unit :=
  (Prog.ofExcept checks).bind fun b => .ask (op b) fun _ => .done ()

variable {checks : Except ε β} {op : β → S.Op}

theorem once_ok (b : β) : (once (.ok b) op : Prog S ε Unit) = .ask (op b) fun _ => .done () := rfl

theorem evaluate_once : evaluate step (once checks op) s
    = checks.bind fun b => (step (op b) s).map fun result => ((), result.2) := by
  cases checks with
  | error e => rfl
  | ok b =>
    rw [once_ok, evaluate_ask, Except.bind]
    cases step (op b) s <;> rfl

/-- A statement refused by the database leaves the tables. -/
theorem autocommit_refused {e : ε} (h : refusals 0 = some e) (b : β) :
    autocommit step refusals (once (.ok b) op) s = (.error e, s) := by
  rw [once_ok, autocommit, execute, h]

/-- One that is not does what it does. -/
theorem autocommit_statement (h : refusals 0 = none) (b : β) :
    autocommit step refusals (once (.ok b) op) s
      = match step (op b) s with
        | .ok result => (.ok (), result.2)
        | .error e => (.error e, s) := by
  rw [once_ok, autocommit, execute, h]
  cases step (op b) s <;> rfl

/-- **One statement commits whole or fails with the tables as they were.** -/
theorem autocommit_once (step : Statements S ε σ) (refusals : ℕ → Option ε)
    (checks : Except ε β) (op : β → S.Op) (s : σ) :
    (∃ s', autocommit step refusals (once checks op) s = (.ok (), s') ∧
        evaluate step (once checks op) s = .ok ((), s')) ∨
      ∃ e, autocommit step refusals (once checks op) s = (.error e, s) := by
  cases checks with
  | error e => exact .inr ⟨e, rfl⟩
  | ok b =>
    cases hrefusal : refusals 0 with
    | some e => exact .inr ⟨e, autocommit_refused hrefusal b⟩
    | none =>
      rw [autocommit_statement hrefusal, evaluate_once]
      cases hstep : step (op b) s with
      | error e => exact .inr ⟨e, rfl⟩
      | ok result =>
        refine .inl ⟨result.2, rfl, ?_⟩
        rw [Except.bind, hstep]
        rfl

end Relational
