import Mathlib.Logic.Relation
/-!
# Durable programs — handlers as trees of effects

A handler is written against an interface of effects and nothing else, so
what it is can be said without saying what answers it: a tree whose nodes
ask for an effect and whose branches are the answers. Two readings of a
tree follow. `Runs` is the run from one state to another under a relation
saying how each effect may be answered; `wp` is what must hold for every
such run to end well. `wp_iff_runs` is that they agree, and the rules of
`wp` are what a proof about a handler is assembled from.
-/

namespace Durable

/-- An interface of effects: the operations a program may ask for and the
type each is answered in. -/
structure Signature where
  /-- The operations. -/
  Op : Type
  /-- The answers to one. -/
  Ans : Op → Type

/-- A program over `S`: it ends in a value, fails, or asks for an effect
and goes on from the answer. -/
inductive Prog (S : Signature) (ε α : Type) : Type where
  /-- The program has ended. -/
  | done (a : α)
  /-- The program has failed. -/
  | fail (e : ε)
  /-- The program asks for `op` and goes on with the answer. -/
  | ask (op : S.Op) (k : S.Ans op → Prog S ε α)

namespace Prog

variable {S : Signature} {ε α β γ σ : Type}

/-- Sequencing: a failure skips the rest. -/
def bind : Prog S ε α → (α → Prog S ε β) → Prog S ε β
  | done a, f => f a
  | fail e, _ => fail e
  | ask op k, f => ask op fun a => (k a).bind f

instance : Monad (Prog S ε) where
  pure := done
  bind := bind

/-- Ask for one effect and end in its answer. -/
def perform (op : S.Op) : Prog S ε (S.Ans op) := ask op done

/-- End in a result computed elsewhere: the `?` of a handler. -/
def ofExcept : Except ε α → Prog S ε α
  | .ok a => done a
  | .error e => fail e

/-- Run `body` on each element in turn; the first failure ends the loop. -/
def forEach (xs : List β) (body : β → Prog S ε Unit) : Prog S ε Unit :=
  match xs with
  | [] => done ()
  | x :: rest => (body x).bind fun _ => forEach rest body

/-- Run a program and go on with its result, a failure too where `pick` knows
it: what matching on a result in place of `?` does. -/
def catching {δ : Type} (pick : ε → Option δ) : Prog S ε α → Prog S ε (Except δ α)
  | done a => done (.ok a)
  | fail e =>
    match pick e with
    | some d => done (.error d)
    | none => fail e
  | ask op k => ask op fun a => (k a).catching pick

/-- Run a program and go on with how it ended, whichever way. -/
def outcome {δ : Type} : Prog S ε α → Prog S δ (Except ε α)
  | done a => done (.ok a)
  | fail e => done (.error e)
  | ask op k => ask op fun a => (k a).outcome

@[simp] theorem pure_eq (a : α) : (pure a : Prog S ε α) = done a := rfl

@[simp] theorem bind_eq (p : Prog S ε α) (f : α → Prog S ε β) : p >>= f = p.bind f := rfl

@[simp] theorem done_bind (a : α) (f : α → Prog S ε β) : (done a : Prog S ε α).bind f = f a := rfl

@[simp] theorem fail_bind (e : ε) (f : α → Prog S ε β) :
    (fail e : Prog S ε α).bind f = fail e := rfl

@[simp] theorem ask_bind (op : S.Op) (k : S.Ans op → Prog S ε α) (f : α → Prog S ε β) :
    (ask op k).bind f = ask op fun a => (k a).bind f := rfl

@[simp] theorem ofExcept_ok (a : α) : (ofExcept (.ok a) : Prog S ε α) = done a := rfl

@[simp] theorem ofExcept_error (e : ε) : (ofExcept (.error e) : Prog S ε α) = fail e := rfl

@[simp] theorem bind_done (p : Prog S ε α) : p.bind done = p := by
  induction p with
  | done a => rfl
  | fail e => rfl
  | ask op k ih => simp only [ask_bind, ih]

/-- Sequencing associates. -/
theorem bind_assoc (p : Prog S ε α) (f : α → Prog S ε β) (g : β → Prog S ε γ) :
    (p.bind f).bind g = p.bind fun a => (f a).bind g := by
  induction p with
  | done a => rfl
  | fail e => rfl
  | ask op k ih => simp only [ask_bind, ih]

/-! ## Runs -/

/-- **The runs of a program**, from the state it starts in to its result and
the state it leaves, every effect answered as `sem` allows. -/
inductive Runs (sem : (op : S.Op) → σ → S.Ans op → σ → Prop) :
    Prog S ε α → σ → Except ε α → σ → Prop
  | done (a : α) (s : σ) : Runs sem (.done a) s (.ok a) s
  | fail (e : ε) (s : σ) : Runs sem (.fail e) s (.error e) s
  | ask {op : S.Op} {k : S.Ans op → Prog S ε α} {s t u : σ} {a : S.Ans op} {r : Except ε α} :
      sem op s a t → Runs sem (k a) t r u → Runs sem (.ask op k) s r u

variable {sem : (op : S.Op) → σ → S.Ans op → σ → Prop}

/-- **What must hold for every run of a program from `s` to end in
`post`.** -/
def wp (sem : (op : S.Op) → σ → S.Ans op → σ → Prop) :
    Prog S ε α → (Except ε α → σ → Prop) → σ → Prop
  | .done a, post, s => post (.ok a) s
  | .fail e, post, s => post (.error e) s
  | .ask op k, post, s => ∀ a t, sem op s a t → (k a).wp sem post t

@[simp] theorem wp_done (a : α) (post : Except ε α → σ → Prop) (s : σ) :
    (done a : Prog S ε α).wp sem post s ↔ post (.ok a) s := Iff.rfl

@[simp] theorem wp_fail (e : ε) (post : Except ε α → σ → Prop) (s : σ) :
    (fail e : Prog S ε α).wp sem post s ↔ post (.error e) s := Iff.rfl

@[simp] theorem wp_ask (op : S.Op) (k : S.Ans op → Prog S ε α) (post : Except ε α → σ → Prop)
    (s : σ) : (ask op k).wp sem post s ↔ ∀ a t, sem op s a t → (k a).wp sem post t := Iff.rfl

/-- `wp` is the condition that every run ends well. -/
theorem wp_iff_runs {p : Prog S ε α} {post : Except ε α → σ → Prop} {s : σ} :
    p.wp sem post s ↔ ∀ r t, Runs sem p s r t → post r t := by
  constructor
  · intro h r t hrun
    induction hrun with
    | done a s => exact h
    | fail e s => exact h
    | ask hsem _ ih => exact ih (h _ _ hsem)
  · intro h
    induction p generalizing s with
    | done a => exact h _ _ (.done a s)
    | fail e => exact h _ _ (.fail e s)
    | ask op k ih => exact fun a t hsem => ih a fun r u hrun => h r u (.ask hsem hrun)

/-- A run ends where `wp` says it does. -/
theorem Runs.of_wp {p : Prog S ε α} {post : Except ε α → σ → Prop} {s t : σ} {r : Except ε α}
    (hrun : Runs sem p s r t) (h : p.wp sem post s) : post r t :=
  wp_iff_runs.1 h r t hrun

theorem wp_mono {p : Prog S ε α} {post post' : Except ε α → σ → Prop} {s : σ}
    (h : p.wp sem post s) (himp : ∀ r t, post r t → post' r t) : p.wp sem post' s :=
  wp_iff_runs.2 fun r t hrun => himp r t (hrun.of_wp h)

/-- What follows a sequenced program: the rest on success, the failure
otherwise. -/
def andThen (sem : (op : S.Op) → σ → S.Ans op → σ → Prop) (f : α → Prog S ε β)
    (post : Except ε β → σ → Prop) : Except ε α → σ → Prop
  | .ok a, s => (f a).wp sem post s
  | .error e, s => post (.error e) s

@[simp] theorem andThen_ok (f : α → Prog S ε β) (post : Except ε β → σ → Prop) (a : α) (s : σ) :
    andThen sem f post (.ok a) s ↔ (f a).wp sem post s := Iff.rfl

@[simp] theorem andThen_error (f : α → Prog S ε β) (post : Except ε β → σ → Prop) (e : ε)
    (s : σ) : andThen sem f post (.error e) s ↔ post (.error e) s := Iff.rfl

/-- **The rule of sequencing.** -/
theorem wp_bind {p : Prog S ε α} {f : α → Prog S ε β} {post : Except ε β → σ → Prop} {s : σ} :
    (p.bind f).wp sem post s ↔ p.wp sem (andThen sem f post) s := by
  induction p generalizing s with
  | done a => rfl
  | fail e => rfl
  | ask op k ih => simp only [ask_bind, wp_ask, ih]

/-- What follows a caught program: the rest, a failure `pick` knows
included. -/
def caught {δ : Type} (pick : ε → Option δ) (post : Except ε (Except δ α) → σ → Prop) :
    Except ε α → σ → Prop
  | .ok a, s => post (.ok (.ok a)) s
  | .error e, s =>
    match pick e with
    | some d => post (.ok (.error d)) s
    | none => post (.error e) s

/-- **The rule of catching.** -/
theorem wp_catching {δ : Type} {pick : ε → Option δ} {p : Prog S ε α}
    {post : Except ε (Except δ α) → σ → Prop} {s : σ} :
    (p.catching pick).wp sem post s ↔ p.wp sem (caught pick post) s := by
  induction p generalizing s with
  | done a => rfl
  | fail e =>
    cases h : pick e with
    | none => simp only [catching, caught, h, wp_fail]
    | some d => simp only [catching, caught, h, wp_done, wp_fail]
  | ask op k ih => simp only [catching, wp_ask, ih]

/-- **The rule of the loop**: an invariant of what is left to do, kept by
each turn and carried to the end, whether the loop ran out or a turn
failed. -/
theorem wp_forEach {body : β → Prog S ε Unit} {post : Except ε Unit → σ → Prop}
    (inv : List β → σ → Prop) (hend : ∀ s, inv [] s → post (.ok ()) s)
    (hbody : ∀ x rest s, inv (x :: rest) s → (body x).wp sem
      (fun r t => match r with | .ok _ => inv rest t | .error e => post (.error e) t) s)
    {xs : List β} {s : σ} (h : inv xs s) : (forEach xs body).wp sem post s := by
  induction xs generalizing s with
  | nil => exact hend s h
  | cons x rest ih =>
    refine wp_bind.2 (wp_mono (hbody x rest s h) fun r t hr => ?_)
    cases r with
    | ok _ => exact ih hr
    | error e => exact hr

end Prog

end Durable
