import Dependaboard.Durable.Prog
/-!
# Durable programs — what a program exchanges

The effects a program asks for and their answers, in order, are all of a run
that the program itself decides: `Exchanges` is which lists they may be and
what result each leads to, with no word about the world that answered.
`RunsOver` is a run with its exchanges, and the two are read apart: what
holds of every list of exchanges is a fact about the program, what holds of
every answer a fact about the world.
-/

namespace Durable

/-- An effect asked for, and its answer. -/
abbrev Exchange (S : Signature) : Type := (op : S.Op) × S.Ans op

namespace Prog

variable {S : Signature} {ε α β δ σ : Type}

/-- **The exchanges of a program** that ends in a result. -/
inductive Exchanges : Prog S ε α → List (Exchange S) → Except ε α → Prop
  | done (a : α) : Exchanges (.done a) [] (.ok a)
  | fail (e : ε) : Exchanges (.fail e) [] (.error e)
  | ask {op : S.Op} {k : S.Ans op → Prog S ε α} {a : S.Ans op} {es : List (Exchange S)}
      {r : Except ε α} : Exchanges (k a) es r → Exchanges (.ask op k) (⟨op, a⟩ :: es) r

/-- A run, with its exchanges. -/
inductive RunsOver (sem : (op : S.Op) → σ → S.Ans op → σ → Prop) :
    Prog S ε α → σ → List (Exchange S) → Except ε α → σ → Prop
  | done (a : α) (s : σ) : RunsOver sem (.done a) s [] (.ok a) s
  | fail (e : ε) (s : σ) : RunsOver sem (.fail e) s [] (.error e) s
  | ask {op : S.Op} {k : S.Ans op → Prog S ε α} {a : S.Ans op} {s t u : σ}
      {es : List (Exchange S)} {r : Except ε α} :
      sem op s a t → RunsOver sem (k a) t es r u → RunsOver sem (.ask op k) s (⟨op, a⟩ :: es) r u

variable {sem : (op : S.Op) → σ → S.Ans op → σ → Prop} {p : Prog S ε α} {s t : σ}
  {es : List (Exchange S)} {r : Except ε α}

theorem RunsOver.exchanges (h : RunsOver sem p s es r t) : p.Exchanges es r := by
  induction h with
  | done a s => exact .done a
  | fail e s => exact .fail e
  | ask _ _ ih => exact .ask ih

theorem RunsOver.runs (h : RunsOver sem p s es r t) : Runs sem p s r t := by
  induction h with
  | done a s => exact .done a s
  | fail e s => exact .fail e s
  | ask hsem _ ih => exact .ask hsem ih

/-- **What the world keeps and says of each answer, it has said of all of
them when the run ends.** -/
theorem RunsOver.of_inv {I : σ → Prop} {Q : Exchange S → Prop}
    (hstep : ∀ op s a t, I s → sem op s a t → I t ∧ Q ⟨op, a⟩)
    (h : RunsOver sem p s es r t) (hs : I s) : I t ∧ ∀ e ∈ es, Q e := by
  induction h with
  | done a s => exact ⟨hs, fun e he => absurd he List.not_mem_nil⟩
  | fail e s => exact ⟨hs, fun e he => absurd he List.not_mem_nil⟩
  | ask hsem _ ih =>
    obtain ⟨ht, hq⟩ := hstep _ _ _ _ hs hsem
    obtain ⟨hu, hrest⟩ := ih ht
    exact ⟨hu, List.forall_mem_cons.2 ⟨hq, hrest⟩⟩

/-! ## Reading a program's exchanges off its parts -/

@[simp] theorem exchanges_done {a : α} :
    (done a : Prog S ε α).Exchanges es r ↔ es = [] ∧ r = .ok a := by
  constructor
  · rintro ⟨⟩
    exact ⟨rfl, rfl⟩
  · rintro ⟨rfl, rfl⟩
    exact .done a

@[simp] theorem exchanges_fail {e : ε} :
    (fail e : Prog S ε α).Exchanges es r ↔ es = [] ∧ r = .error e := by
  constructor
  · rintro ⟨⟩
    exact ⟨rfl, rfl⟩
  · rintro ⟨rfl, rfl⟩
    exact .fail e

/-- A result computed elsewhere exchanges nothing. -/
@[simp] theorem exchanges_ofExcept {x : Except ε α} :
    (ofExcept x : Prog S ε α).Exchanges es r ↔ es = [] ∧ r = x := by
  cases x with
  | error e => exact exchanges_fail
  | ok a => exact exchanges_done

theorem exchanges_ask {op : S.Op} {k : S.Ans op → Prog S ε α} :
    (ask op k).Exchanges es r ↔ ∃ a rest, es = ⟨op, a⟩ :: rest ∧ (k a).Exchanges rest r := by
  constructor
  · intro h
    cases h with
    | ask hrest => exact ⟨_, _, rfl, hrest⟩
  · rintro ⟨a, rest, rfl, hrest⟩
    exact .ask hrest

/-- **The exchanges of a sequence**: those of its first part, which fails it,
or those and the rest's. -/
theorem exchanges_bind {f : α → Prog S ε β} {r : Except ε β} :
    (p.bind f).Exchanges es r ↔
      (∃ e, r = .error e ∧ p.Exchanges es (.error e)) ∨
        ∃ a first rest, es = first ++ rest ∧ p.Exchanges first (.ok a) ∧
          (f a).Exchanges rest r := by
  -- on the first program, whatever it and the rest have exchanged
  induction p generalizing es with
  | done a =>
    constructor
    · intro h
      exact .inr ⟨a, [], es, rfl, .done a, h⟩
    · rintro (⟨e, -, hfail⟩ | ⟨b, first, rest, rfl, hfirst, hrest⟩)
      · cases hfail
      · cases hfirst
        exact hrest
  | fail e =>
    constructor
    · intro h
      obtain ⟨rfl, rfl⟩ := exchanges_fail.1 h
      exact .inl ⟨e, rfl, .fail e⟩
    · rintro (⟨e', rfl, hfail⟩ | ⟨b, first, rest, rfl, hfirst, hrest⟩)
      · cases hfail
        exact .fail e
      · cases hfirst
  | ask op k ih =>
    constructor
    · intro h
      obtain ⟨a, rest, rfl, hrest⟩ := exchanges_ask.1 h
      rcases (ih a).1 hrest with ⟨e, rfl, hfail⟩ | ⟨b, first, last, rfl, hfirst, hlast⟩
      · exact .inl ⟨e, rfl, .ask hfail⟩
      · exact .inr ⟨b, _ :: first, last, rfl, .ask hfirst, hlast⟩
    · rintro (⟨e, rfl, hfail⟩ | ⟨b, first, last, rfl, hfirst, hlast⟩)
      · obtain ⟨a, rest, rfl, hrest⟩ := exchanges_ask.1 hfail
        exact .ask ((ih a).2 (.inl ⟨e, rfl, hrest⟩))
      · obtain ⟨a, rest, rfl, hrest⟩ := exchanges_ask.1 hfirst
        exact .ask ((ih a).2 (.inr ⟨b, rest, last, rfl, hrest, hlast⟩))

/-- The exchanges of a caught program are the program's. -/
theorem exchanges_catching {pick : ε → Option δ} {r : Except ε (Except δ α)} :
    (p.catching pick).Exchanges es r ↔
      (∃ a, r = .ok (.ok a) ∧ p.Exchanges es (.ok a)) ∨
        ∃ e, p.Exchanges es (.error e) ∧
          r = match pick e with
            | some d => .ok (.error d)
            | none => .error e := by
  induction p generalizing es with
  | done a =>
    simp only [catching, exchanges_done, Except.ok.injEq]
    constructor
    · rintro ⟨rfl, rfl⟩
      exact .inl ⟨a, rfl, rfl, rfl⟩
    · rintro (⟨b, rfl, rfl, rfl⟩ | ⟨e, ⟨-, hok⟩, -⟩)
      · exact ⟨rfl, rfl⟩
      · cases hok
  | fail e =>
    cases hpick : pick e <;> simp [catching, hpick, and_assoc]
  | ask op k ih =>
    simp only [catching, exchanges_ask, ih]
    constructor
    · rintro ⟨a, rest, rfl, ⟨b, rfl, hrest⟩ | ⟨e, hrest, rfl⟩⟩
      · exact .inl ⟨b, rfl, a, rest, rfl, hrest⟩
      · exact .inr ⟨e, ⟨a, rest, rfl, hrest⟩, rfl⟩
    · rintro (⟨b, rfl, a, rest, rfl, hrest⟩ | ⟨e, ⟨a, rest, rfl, hrest⟩, rfl⟩)
      · exact ⟨a, rest, rfl, .inl ⟨b, rfl, hrest⟩⟩
      · exact ⟨a, rest, rfl, .inr ⟨e, hrest, rfl⟩⟩

/-- Going on with how a program ended exchanges what the program does. -/
theorem exchanges_outcome {r : Except δ (Except ε α)} :
    (p.outcome : Prog S δ (Except ε α)).Exchanges es r ↔ ∃ r', r = .ok r' ∧ p.Exchanges es r' := by
  induction p generalizing es with
  | done a =>
    simp only [outcome, exchanges_done]
    constructor
    · rintro ⟨rfl, rfl⟩
      exact ⟨_, rfl, rfl, rfl⟩
    · rintro ⟨r', rfl, rfl, rfl⟩
      exact ⟨rfl, rfl⟩
  | fail e =>
    simp only [outcome, exchanges_done, exchanges_fail]
    constructor
    · rintro ⟨rfl, rfl⟩
      exact ⟨_, rfl, rfl, rfl⟩
    · rintro ⟨r', rfl, rfl, rfl⟩
      exact ⟨rfl, rfl⟩
  | ask op k ih =>
    simp only [outcome, exchanges_ask, ih]
    constructor
    · rintro ⟨a, rest, rfl, r', rfl, hrest⟩
      exact ⟨r', rfl, a, rest, rfl, hrest⟩
    · rintro ⟨r', rfl, a, rest, rfl, hrest⟩
      exact ⟨a, rest, rfl, r', rfl, hrest⟩

/-! ## One run of a program -/

/-- The exchanges and the result of a program whose every effect is answered
by `answer`. -/
def answered (answer : (op : S.Op) → S.Ans op) : Prog S ε α → List (Exchange S) × Except ε α
  | done a => ([], .ok a)
  | fail e => ([], .error e)
  | ask op k =>
    let rest := (k (answer op)).answered answer
    (⟨op, answer op⟩ :: rest.1, rest.2)

variable (p) in
theorem exchanges_answered (answer : (op : S.Op) → S.Ans op) :
    p.Exchanges (p.answered answer).1 (p.answered answer).2 := by
  induction p with
  | done a => exact .done a
  | fail e => exact .fail e
  | ask op k ih => exact .ask (ih (answer op))

/-- Every effect of that run is answered so. -/
theorem eq_of_mem_answered {answer : (op : S.Op) → S.Ans op} {e : Exchange S}
    (h : e ∈ (p.answered answer).1) : e = ⟨e.1, answer e.1⟩ := by
  induction p with
  | done a => cases h
  | fail e => cases h
  | ask op k ih =>
    rcases List.mem_cons.1 h with rfl | hrest
    · rfl
    · exact ih (answer op) hrest

/-- The exchanges and the result of a program answered by a player who has
seen all that was exchanged `before`. -/
def played (answer : List (Exchange S) → (op : S.Op) → S.Ans op) (before : List (Exchange S)) :
    Prog S ε α → List (Exchange S) × Except ε α
  | done a => ([], .ok a)
  | fail e => ([], .error e)
  | ask op k =>
    let rest := (k (answer before op)).played answer (before ++ [⟨op, answer before op⟩])
    (⟨op, answer before op⟩ :: rest.1, rest.2)

variable (p) in
/-- Whoever answers, the program runs to its end. -/
theorem exchanges_played (answer : List (Exchange S) → (op : S.Op) → S.Ans op)
    (before : List (Exchange S)) :
    p.Exchanges (p.played answer before).1 (p.played answer before).2 := by
  induction p generalizing before with
  | done a => exact .done a
  | fail e => exact .fail e
  | ask op k ih => exact .ask (ih (answer before op) _)

end Prog

end Durable
