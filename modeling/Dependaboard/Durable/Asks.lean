import Dependaboard.Durable.Exchange
import Dependaboard.Durable.System
/-!
# What programs ask for

Some invariants need no account of where a program stands, only of the
effects it may come to ask for. `Prog.Asks C` is that each of them is in `C`,
whatever the program is answered on the way, and `System.Reach.of_asks` is
the invariant that follows: kept by every effect in `C`, it holds in every
reachable world.

Where what was answered before does matter, `Prog.Reaches` is a program that
has exchanged some effects and asks for the next, whether or not it ever
ends.
-/

namespace Durable

variable {ε : Type}

namespace Prog

variable {S : Signature} {α β δ : Type}

/-- Every effect the program may come to ask for is in `C`. -/
def Asks (C : S.Op → Prop) : Prog S ε α → Prop
  | .done _ => True
  | .fail _ => True
  | .ask op k => C op ∧ ∀ a, (k a).Asks C

variable {C : S.Op → Prop}

@[simp] theorem asks_done (a : α) : (done a : Prog S ε α).Asks C := trivial

@[simp] theorem asks_fail (e : ε) : (fail e : Prog S ε α).Asks C := trivial

@[simp] theorem asks_ask (op : S.Op) (k : S.Ans op → Prog S ε α) :
    (ask op k).Asks C ↔ C op ∧ ∀ a, (k a).Asks C := Iff.rfl

@[simp] theorem asks_ofExcept (r : Except ε α) : (ofExcept r : Prog S ε α).Asks C := by
  cases r <;> trivial

theorem Asks.mono {D : S.Op → Prop} {p : Prog S ε α} (h : p.Asks C) (himp : ∀ op, C op → D op) :
    p.Asks D := by
  induction p with
  | done a => trivial
  | fail e => trivial
  | ask op k ih => exact ⟨himp op h.1, fun a => ih a (h.2 a)⟩

/-- What two programs in turn ask for, one of them asks for. -/
theorem Asks.bind {p : Prog S ε α} {f : α → Prog S ε β} (hp : p.Asks C)
    (hf : ∀ a, (f a).Asks C) : (p.bind f).Asks C := by
  induction p with
  | done a => exact hf a
  | fail e => trivial
  | ask op k ih => exact ⟨hp.1, fun a => ih a (hp.2 a)⟩

/-- An effect whose failure is the program's. -/
theorem asks_try {op : S.Op} {answered : S.Ans op → Except ε β} {f : β → Prog S ε α} (h : C op)
    (hf : ∀ b, (f b).Asks C) :
    (ask op fun a => (ofExcept (answered a)).bind f : Prog S ε α).Asks C :=
  ⟨h, fun _ => (asks_ofExcept _).bind hf⟩

/-- A program caught asks for what it asked for. -/
theorem Asks.catching {pick : ε → Option δ} {p : Prog S ε α} (h : p.Asks C) :
    (p.catching pick).Asks C := by
  induction p with
  | done a => trivial
  | fail e =>
    unfold Prog.catching
    split <;> trivial
  | ask op k ih => exact ⟨h.1, fun a => ih a (h.2 a)⟩

theorem Asks.outcome {p : Prog S ε α} (h : p.Asks C) :
    (p.outcome : Prog S δ (Except ε α)).Asks C := by
  induction p with
  | done a => trivial
  | fail e => trivial
  | ask op k ih => exact ⟨h.1, fun a => ih a (h.2 a)⟩

/-- A loop asks for what its turns do. -/
theorem Asks.forEach {xs : List β} {body : β → Prog S ε Unit} (h : ∀ x ∈ xs, (body x).Asks C) :
    (Prog.forEach xs body).Asks C := by
  induction xs with
  | nil => trivial
  | cons x rest ih =>
    exact (h x List.mem_cons_self).bind fun _ => ih fun y hy => h y (List.mem_cons_of_mem x hy)

/-- What a program has exchanged, it has asked for. -/
theorem Asks.exchanges {p : Prog S ε α} {es : List (Exchange S)} {r : Except ε α} (h : p.Asks C)
    (hes : p.Exchanges es r) : ∀ e ∈ es, C e.1 := by
  induction hes with
  | done a => exact fun e he => absurd he List.not_mem_nil
  | fail e => exact fun e he => absurd he List.not_mem_nil
  | ask _ ih => exact List.forall_mem_cons.2 ⟨h.1, ih (h.2 _)⟩

/-! ## Where a program has got to -/

/-- **Having exchanged `es`, the program asks for `op`.** -/
inductive Reaches : Prog S ε α → List (Exchange S) → S.Op → Prop
  | here {op : S.Op} {k : S.Ans op → Prog S ε α} : Reaches (.ask op k) [] op
  | later {op next : S.Op} {k : S.Ans op → Prog S ε α} {a : S.Ans op} {es : List (Exchange S)} :
      Reaches (k a) es next → Reaches (.ask op k) (⟨op, a⟩ :: es) next

variable {p : Prog S ε α} {es : List (Exchange S)} {op : S.Op}

@[simp] theorem not_reaches_done {a : α} : ¬ (done a : Prog S ε α).Reaches es op := nofun

@[simp] theorem not_reaches_fail {e : ε} : ¬ (fail e : Prog S ε α).Reaches es op := nofun

@[simp] theorem not_reaches_ofExcept {r : Except ε α} :
    ¬ (ofExcept r : Prog S ε α).Reaches es op := by
  cases r <;> nofun

theorem reaches_ask {first : S.Op} {k : S.Ans first → Prog S ε α} :
    (ask first k).Reaches es op ↔ (es = [] ∧ op = first) ∨
      ∃ a rest, es = ⟨first, a⟩ :: rest ∧ (k a).Reaches rest op := by
  constructor
  · intro h
    cases h with
    | here => exact .inl ⟨rfl, rfl⟩
    | later hrest => exact .inr ⟨_, _, rfl, hrest⟩
  · rintro (⟨rfl, rfl⟩ | ⟨a, rest, rfl, hrest⟩)
    · exact .here
    · exact .later hrest

@[simp] theorem reaches_ofExcept_bind {r : Except ε α} {f : α → Prog S ε β} :
    ((ofExcept r).bind f).Reaches es op ↔ ∃ a, r = .ok a ∧ (f a).Reaches es op := by
  cases r with
  | ok a => simp
  | error e => simp

/-- **Where a sequence has got to**: within its first part, or past it. -/
theorem reaches_bind {f : α → Prog S ε β} :
    (p.bind f).Reaches es op ↔ p.Reaches es op ∨ ∃ a first rest, es = first ++ rest ∧
      p.Exchanges first (.ok a) ∧ (f a).Reaches rest op := by
  induction p generalizing es with
  | done a =>
    constructor
    · exact fun h => .inr ⟨a, [], es, rfl, .done a, h⟩
    · rintro (h | ⟨b, first, rest, rfl, hfirst, hrest⟩)
      · exact absurd h not_reaches_done
      · cases hfirst
        exact hrest
  | fail e =>
    constructor
    · exact fun h => absurd h not_reaches_fail
    · rintro (h | ⟨b, first, rest, rfl, hfirst, hrest⟩)
      · exact absurd h not_reaches_fail
      · cases hfirst
  | ask asked k ih =>
    rw [ask_bind, reaches_ask, reaches_ask]
    constructor
    · rintro (⟨rfl, rfl⟩ | ⟨a, rest, rfl, hrest⟩)
      · exact .inl (.inl ⟨rfl, rfl⟩)
      · rcases (ih a).1 hrest with hwithin | ⟨b, first, last, rfl, hfirst, hlast⟩
        · exact .inl (.inr ⟨a, rest, rfl, hwithin⟩)
        · exact .inr ⟨b, _ :: first, last, rfl, .ask hfirst, hlast⟩
    · rintro ((⟨rfl, rfl⟩ | ⟨a, rest, rfl, hrest⟩) | ⟨b, first, last, rfl, hfirst, hlast⟩)
      · exact .inl ⟨rfl, rfl⟩
      · exact .inr ⟨a, rest, rfl, (ih a).2 (.inl hrest)⟩
      · obtain ⟨a, rest, rfl, hrest⟩ := exchanges_ask.1 hfirst
        exact .inr ⟨a, rest ++ last, rfl, (ih a).2 (.inr ⟨b, rest, last, rfl, hrest, hlast⟩)⟩

/-- Where a program whose end is gone on with has got to. -/
theorem reaches_outcome : (p.outcome : Prog S δ (Except ε α)).Reaches es op ↔ p.Reaches es op := by
  induction p generalizing es with
  | done a => simp [Prog.outcome]
  | fail e => simp [Prog.outcome]
  | ask first k ih => simp only [Prog.outcome, reaches_ask, ih]

/-- Every exchange was reached, by those before it. -/
theorem Exchanges.reaches {r : Except ε α} {before after : List (Exchange S)} {e : Exchange S}
    (h : p.Exchanges (before ++ e :: after) r) : p.Reaches before e.1 := by
  induction before generalizing p with
  | nil =>
    cases h
    exact .here
  | cons first before ih =>
    cases h with
    | ask hrest => exact .later (ih hrest)

theorem Asks.reaches (h : p.Asks C) (hop : p.Reaches es op) : C op := by
  induction hop with
  | here => exact h.1
  | later _ ih => exact ih (h.2 _)

end Prog

variable {ι σ : Type} {S : ι → Signature} {α : ι → Type}

/-- **The rule of what a program asks for**: an assertion the others leave
standing and every effect asked for keeps. -/
theorem Outline.Safe.of_asks {Y : System S ε α σ} {O : Outline Y} {i : ι} {γ : Type}
    {post : Except ε γ → σ → Prop} {C : (S i).Op → Prop} {P : σ → Prop}
    (hpost : ∀ r w, P w → O.inv w → post r w)
    (hstable : ∀ u v, P u → O.rely i u v → O.inv v → P v)
    (hshows : ∀ op u, C op → P u → O.inv u → O.shows i op u)
    (hsem : ∀ op u a v, C op → P u → O.inv u → Y.sem i op u a v → O.Keeps i u v ∧ P v)
    (hlose : ∀ op u v, C op → P u → O.inv u → Y.lose i op u v → O.Keeps i u v ∧ O.rely i u v)
    {p : Prog (S i) ε γ} (hp : p.Asks C) {w : σ} (hP : P w) : O.Safe i p post w := by
  induction p generalizing w with
  | done a => exact fun u hrely hinv => hpost _ u (hstable w u hP hrely hinv) hinv
  | fail e => exact fun u hrely hinv => hpost _ u (hstable w u hP hrely hinv) hinv
  | ask op k ih =>
    intro u hrely hinv
    have hPu : P u := hstable w u hP hrely hinv
    refine ⟨hshows op u hp.1 hPu hinv, fun a v hv => ?_, fun v hv => hlose op u v hp.1 hPu hinv hv⟩
    obtain ⟨hkeeps, hPv⟩ := hsem op u a v hp.1 hPu hinv hv
    exact ⟨hkeeps, ih a (hp.2 a) hPv⟩

variable [DecidableEq ι]

/-- **What every effect asked for keeps, holds in every reachable world.**
A program's own effects are known when it starts. -/
theorem System.Reach.of_asks {Y : System S ε α σ} (C : (i : ι) → (S i).Op → Prop) (I : σ → Prop)
    (hinit : ∀ w, Y.init w → I w) (henv : ∀ w w', I w → Y.env w w' → I w')
    (hstart : ∀ i p w w', I w → Y.start i p w w' → I w' ∧ p.Asks (C i))
    (hsem : ∀ i op w a w', C i op → I w → Y.sem i op w a w' → I w')
    (hlose : ∀ i op w w', C i op → I w → Y.lose i op w w' → I w')
    (hfinish : ∀ i r w w', I w → Y.finish i r w w' → I w') {s : State S ε α σ}
    (hs : Y.Reach s) : I s.world ∧ ∀ i p, s.slots i = some p → p.Asks (C i) := by
  induction hs with
  | init hw => exact ⟨hinit _ hw, nofun⟩
  | @step s t _ hst ih =>
    obtain ⟨hI, hslots⟩ := ih
    -- a slot that has moved asks for what it asked for before
    have hmoved : ∀ i (q : Option (Prog (S i) ε (α i))), (∀ p, q = some p → p.Asks (C i)) →
        ∀ j p, Function.update s.slots i q j = some p → p.Asks (C j) := by
      intro i q hq j p hp
      by_cases hj : j = i
      · subst hj
        exact hq p (by simpa using hp)
      · rw [Function.update_of_ne hj] at hp
        exact hslots j p hp
    cases hst with
    | start hidle hstarts =>
      obtain ⟨hI', hp⟩ := hstart _ _ _ _ hI hstarts
      exact ⟨hI', hmoved _ _ fun q hq => Option.some.inj hq ▸ hp⟩
    | answer hslot hsems =>
      obtain ⟨hC, hk⟩ := hslots _ _ hslot
      exact ⟨hsem _ _ _ _ _ hC hI hsems, hmoved _ _ fun q hq => Option.some.inj hq ▸ hk _⟩
    | lose hslot hlost => exact ⟨hlose _ _ _ _ (hslots _ _ hslot).1 hI hlost, hslots⟩
    | done hslot hfin => exact ⟨hfinish _ _ _ _ hI hfin, hmoved _ _ nofun⟩
    | fail hslot hfin => exact ⟨hfinish _ _ _ _ hI hfin, hmoved _ _ nofun⟩
    | env henvs => exact ⟨henv _ _ hI henvs, hslots⟩

end Durable
