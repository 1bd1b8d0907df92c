import Dependaboard.Durable.Asks
/-!
# Durable programs — a program handled by another's effects

What a program asks for may be done by a handler: for each effect a program of
another interface, which ends in its answer and in a state the handler keeps
to itself. A handler is `Told` by the exchanges it makes of each exchange of
the program, where they are the same whatever it has kept; the exchanges of a
handled program are then the program's, each made into those
(`exchanges_handled`).
-/

namespace Durable

namespace Prog

variable {S T : Signature} {ε α σ : Type}

/-- A program with each of its effects done by `handle`, from what it keeps at
first. -/
def handled (handle : σ → (op : S.Op) → Prog T ε (S.Ans op × σ)) :
    Prog S ε α → σ → Prog T ε (α × σ)
  | done a, s => done (a, s)
  | fail e, _ => fail e
  | ask op k, s => (handle s op).bind fun answer => (k answer.1).handled handle answer.2

/-- What follows a program handled is handled with what was kept. -/
theorem handled_bind {β : Type} {handle : σ → (op : S.Op) → Prog T ε (S.Ans op × σ)} (p : Prog S ε α)
    (f : α → Prog S ε β) (s : σ) : (p.bind f).handled handle s =
      (p.handled handle s).bind fun answer => (f answer.1).handled handle answer.2 := by
  induction p generalizing s with
  | done a => rfl
  | fail e => rfl
  | ask op k ih => simp only [ask_bind, handled, bind_assoc, ih]

/-- What a program handled asks for is what its handler does. -/
theorem Asks.handled {C : S.Op → Prop} {D : T.Op → Prop}
    {handle : σ → (op : S.Op) → Prog T ε (S.Ans op × σ)} {p : Prog S ε α} (h : p.Asks C)
    (hhandle : ∀ s op, C op → (handle s op).Asks D) (s : σ) : (p.handled handle s).Asks D := by
  induction p generalizing s with
  | done a => trivial
  | fail e => trivial
  | ask op k ih => exact (hhandle s op h.1).bind fun answer => ih answer.1 (h.2 answer.1) answer.2

/-- The handler never fails; what it makes of an exchange is `makes`, and what
it keeps after it `keeps`. -/
def Told (handle : σ → (op : S.Op) → Prog T ε (S.Ans op × σ))
    (makes : Exchange S → List (Exchange T)) (keeps : σ → Exchange S → σ) : Prop :=
  ∀ s op es r, (handle s op).Exchanges es r ↔
    ∃ a, es = makes ⟨op, a⟩ ∧ r = .ok (a, keeps s ⟨op, a⟩)

variable {handle : σ → (op : S.Op) → Prog T ε (S.Ans op × σ)}
  {makes : Exchange S → List (Exchange T)} {keeps : σ → Exchange S → σ} {p : Prog S ε α}

/-- **The exchanges of a handled program** are the program's, each as the
handler makes it. -/
theorem exchanges_handled (htold : Told handle makes keeps) {s : σ} {es : List (Exchange T)}
    {r : Except ε (α × σ)} :
    (p.handled handle s).Exchanges es r ↔ ∃ run result, p.Exchanges run result ∧
      es = run.flatMap makes ∧ r = result.map fun a => (a, run.foldl keeps s) := by
  -- on the program, from whatever the handler has kept
  induction p generalizing s es with
  | done a =>
    constructor
    · intro h
      obtain ⟨rfl, rfl⟩ := exchanges_done.1 h
      exact ⟨[], .ok a, .done a, rfl, rfl⟩
    · rintro ⟨run, result, hrun, rfl, rfl⟩
      obtain ⟨rfl, rfl⟩ := exchanges_done.1 hrun
      exact .done (a, s)
  | fail e =>
    constructor
    · intro h
      obtain ⟨rfl, rfl⟩ := exchanges_fail.1 h
      exact ⟨[], .error e, .fail e, rfl, rfl⟩
    · rintro ⟨run, result, hrun, rfl, rfl⟩
      obtain ⟨rfl, rfl⟩ := exchanges_fail.1 hrun
      exact .fail e
  | ask op k ih =>
    constructor
    · intro h
      rcases exchanges_bind.1 h with ⟨e, rfl, hfail⟩ | ⟨answer, first, rest, rfl, hfirst, hrest⟩
      · obtain ⟨a, -, hr⟩ := (htold s op es _).1 hfail
        cases hr
      · obtain ⟨a, rfl, hr⟩ := (htold s op first _).1 hfirst
        obtain rfl := Except.ok.inj hr
        obtain ⟨run, result, hrun, rfl, rfl⟩ := (ih a).1 hrest
        exact ⟨⟨op, a⟩ :: run, result, .ask hrun, rfl, rfl⟩
    · rintro ⟨run, result, hrun, rfl, rfl⟩
      obtain ⟨a, run, rfl, hrest⟩ := exchanges_ask.1 hrun
      refine exchanges_bind.2 (.inr ⟨(a, keeps s ⟨op, a⟩), makes ⟨op, a⟩, run.flatMap makes,
        rfl, (htold s op _ _).2 ⟨a, rfl, rfl⟩, (ih a).2 ⟨run, result, hrest, rfl, rfl⟩⟩)

end Prog

end Durable
