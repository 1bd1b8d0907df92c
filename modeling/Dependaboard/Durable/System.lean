import Mathlib.Logic.Function.Basic
import Mathlib.Logic.Relation
import Dependaboard.Durable.Prog
/-!
# Systems of durable programs over one world

Any number of slots, each running one program at a time over an interface
of its own, act on a shared world: a slot starts a program, its effect is answered, an effect lands
without its answer ever reaching the program, the program's result is
handed over, or the world moves by itself. `System` says what each may do
and `Reach` is what can come of it, in every order.

An `Outline` is the way to an invariant: what the world keeps (`inv`),
what a slot may count on from everything else (`rely`), and that every
program a slot starts is `Safe` — at each of its effects, wherever the
others have taken the world meanwhile, what lands keeps `inv` and is
within the others' `rely`. `Outline.reach` is that `inv` then holds in
every reachable state. Where more holds than `inv` before some effects,
`shows` says what.
-/

namespace Durable

variable {ι ε σ β γ : Type} {S : ι → Signature} {α : ι → Type}

/-- What may happen: to a slot of `ι`, and to the world by itself. -/
structure System {ι : Type} (S : ι → Signature) (ε : Type) (α : ι → Type) (σ : Type) where
  /-- The worlds a run may start in. -/
  init : σ → Prop
  /-- The programs a slot may start in a world, and the world then. -/
  start : (i : ι) → Prog (S i) ε (α i) → σ → σ → Prop
  /-- How a slot's effect may be answered. -/
  sem : (i : ι) → (op : (S i).Op) → σ → (S i).Ans op → σ → Prop
  /-- How a slot's effect may land with its answer lost, so that the
  program asks again. -/
  lose : (i : ι) → (S i).Op → σ → σ → Prop
  /-- What handing over a slot's result does to the world. -/
  finish : (i : ι) → Except ε (α i) → σ → σ → Prop
  /-- What the world may do by itself. -/
  env : σ → σ → Prop

namespace System

/-- The world, and what each slot is running. -/
structure State {ι : Type} (S : ι → Signature) (ε : Type) (α : ι → Type) (σ : Type) where
  /-- The shared world. -/
  world : σ
  /-- Each slot's program, as far as it has got; `none` for an idle slot. -/
  slots : (i : ι) → Option (Prog (S i) ε (α i))

variable [DecidableEq ι] (Y : System S ε α σ)

/-- **One step**: of one slot, or of the world. -/
inductive Step : State S ε α σ → State S ε α σ → Prop
  | start {s : State S ε α σ} {i : ι} {p : Prog (S i) ε (α i)} {w : σ} :
      s.slots i = none → Y.start i p s.world w →
      Step s ⟨w, Function.update s.slots i (some p)⟩
  | answer {s : State S ε α σ} {i : ι} {op : (S i).Op}
      {k : (S i).Ans op → Prog (S i) ε (α i)} {a : (S i).Ans op} {w : σ} :
      s.slots i = some (.ask op k) → Y.sem i op s.world a w →
      Step s ⟨w, Function.update s.slots i (some (k a))⟩
  | lose {s : State S ε α σ} {i : ι} {op : (S i).Op}
      {k : (S i).Ans op → Prog (S i) ε (α i)} {w : σ} :
      s.slots i = some (.ask op k) → Y.lose i op s.world w → Step s ⟨w, s.slots⟩
  | done {s : State S ε α σ} {i : ι} {a : α i} {w : σ} :
      s.slots i = some (.done a) → Y.finish i (.ok a) s.world w →
      Step s ⟨w, Function.update s.slots i none⟩
  | fail {s : State S ε α σ} {i : ι} {e : ε} {w : σ} :
      s.slots i = some (.fail e) → Y.finish i (.error e) s.world w →
      Step s ⟨w, Function.update s.slots i none⟩
  | env {s : State S ε α σ} {w : σ} : Y.env s.world w → Step s ⟨w, s.slots⟩

/-- The states a run reaches, every slot idle at its start. -/
inductive Reach : State S ε α σ → Prop
  | init {w : σ} : Y.init w → Reach ⟨w, fun _ => none⟩
  | step {s t : State S ε α σ} : Reach s → Y.Step s t → Reach t

variable {Y}

/-- A run goes on with a slot started. -/
theorem Reach.start {s : State S ε α σ} (hs : Y.Reach s) (i : ι) (p : Prog (S i) ε (α i)) {w : σ}
    (hidle : s.slots i = none) (hstart : Y.start i p s.world w) :
    Y.Reach ⟨w, Function.update s.slots i (some p)⟩ := .step hs (.start hidle hstart)

/-- A run goes on with a slot answered. -/
theorem Reach.answer {s : State S ε α σ} (hs : Y.Reach s) (i : ι) (op : (S i).Op)
    (a : (S i).Ans op) {k : (S i).Ans op → Prog (S i) ε (α i)} {w : σ}
    (hslot : s.slots i = some (.ask op k)) (hsem : Y.sem i op s.world a w) :
    Y.Reach ⟨w, Function.update s.slots i (some (k a))⟩ := .step hs (.answer hslot hsem)

/-- A run goes on with a slot's result handed over. -/
theorem Reach.done {s : State S ε α σ} (hs : Y.Reach s) (i : ι) {a : α i} {w : σ}
    (hslot : s.slots i = some (.done a)) (hfinish : Y.finish i (.ok a) s.world w) :
    Y.Reach ⟨w, Function.update s.slots i none⟩ := .step hs (.done hslot hfinish)

end System

/-- **A proof outline**: the invariant of the world and, for each slot, what
it may count on from the rest. -/
structure Outline (Y : System S ε α σ) where
  /-- What every reachable world keeps. -/
  inv : σ → Prop
  /-- What a slot may rely on between its own effects. -/
  rely : ι → σ → σ → Prop
  rely_refl : ∀ i w, rely i w w
  rely_trans : ∀ {i u v w}, rely i u v → rely i v w → rely i u w
  /-- What the world shows wherever a slot stands before an effect. -/
  shows : (i : ι) → (S i).Op → σ → Prop := fun _ _ _ => True

namespace Outline

variable {Y : System S ε α σ} (O : Outline Y)

/-- What an effect of slot `i` must do to the world: keep the invariant, and
stay within what every other slot relies on. -/
structure Keeps (i : ι) (w w' : σ) : Prop where
  inv : O.inv w'
  rely : ∀ j, j ≠ i → O.rely j w w'

/-- **A program slot `i` may run from `w` on**, ending in `post`, whatever
the other slots do that `i` may rely on them for. -/
def Safe (i : ι) : Prog (S i) ε γ → (Except ε γ → σ → Prop) → σ → Prop
  | .done a, post, w => ∀ w', O.rely i w w' → O.inv w' → post (.ok a) w'
  | .fail e, post, w => ∀ w', O.rely i w w' → O.inv w' → post (.error e) w'
  | .ask op k, post, w => ∀ w', O.rely i w w' → O.inv w' → O.shows i op w' ∧
      (∀ a u, Y.sem i op w' a u → O.Keeps i w' u ∧ Safe i (k a) post u) ∧
        ∀ u, Y.lose i op w' u → O.Keeps i w' u ∧ O.rely i w' u

variable {O}

/-- The others moving within the rely leave a safe program safe. -/
theorem Safe.stable {i : ι} {p : Prog (S i) ε γ} {post : Except ε γ → σ → Prop} {w w' : σ}
    (h : O.Safe i p post w) (hrely : O.rely i w w') : O.Safe i p post w' := by
  cases p with
  | done a => exact fun u hu => h u (O.rely_trans hrely hu)
  | fail e => exact fun u hu => h u (O.rely_trans hrely hu)
  | ask op k => exact fun u hu => h u (O.rely_trans hrely hu)

theorem Safe.mono {i : ι} {p : Prog (S i) ε γ} {post post' : Except ε γ → σ → Prop} {w : σ}
    (h : O.Safe i p post w) (himp : ∀ r u, O.inv u → post r u → post' r u) :
    O.Safe i p post' w := by
  induction p generalizing w with
  | done a => exact fun u hu hinv => himp _ _ hinv (h u hu hinv)
  | fail e => exact fun u hu hinv => himp _ _ hinv (h u hu hinv)
  | ask op k ih =>
    intro u hu hinv
    obtain ⟨hshows, hsem, hlose⟩ := h u hu hinv
    exact ⟨hshows, fun a v hv => ⟨(hsem a v hv).1, ih a (hsem a v hv).2⟩, hlose⟩

/-- Safety from every world the rely leads to is safety. -/
theorem Safe.of_rely {i : ι} {p : Prog (S i) ε γ} {post : Except ε γ → σ → Prop} {w : σ}
    (h : ∀ u, O.rely i w u → O.inv u → O.Safe i p post u) : O.Safe i p post w := by
  cases p with
  | done a => exact fun u hu hinv => h u hu hinv u (O.rely_refl i u) hinv
  | fail e => exact fun u hu hinv => h u hu hinv u (O.rely_refl i u) hinv
  | ask op k => exact fun u hu hinv => h u hu hinv u (O.rely_refl i u) hinv

/-- **The rule of sequencing**: what follows a success is safe from the
worlds that success leaves, and a failure is the whole program's. -/
theorem Safe.bind {i : ι} {p : Prog (S i) ε β} {f : β → Prog (S i) ε γ}
    {post : Except ε γ → σ → Prop} {w : σ}
    (h : O.Safe i p (fun r u => match r with
      | .ok b => O.Safe i (f b) post u
      | .error e => post (.error e) u) w) : O.Safe i (p.bind f) post w := by
  induction p generalizing w with
  | done b => exact .of_rely h
  | fail e => exact h
  | ask op k ih =>
    intro u hu hinv
    obtain ⟨hshows, hsem, hlose⟩ := h u hu hinv
    exact ⟨hshows, fun a v hv => ⟨(hsem a v hv).1, ih a (hsem a v hv).2⟩, hlose⟩

/-- Going on with how a program ended is safe where the program is. -/
theorem Safe.outcome {i : ι} {p : Prog (S i) ε β} {post : Except ε (Except ε β) → σ → Prop} {w : σ}
    (h : O.Safe i p (fun r u => post (.ok r) u) w) : O.Safe i p.outcome post w := by
  induction p generalizing w with
  | done b => exact h
  | fail e => exact h
  | ask op k ih =>
    intro u hu hinv
    obtain ⟨hshows, hsem, hlose⟩ := h u hu hinv
    exact ⟨hshows, fun a v hv => ⟨(hsem a v hv).1, ih a (hsem a v hv).2⟩, hlose⟩

/-- **The rule of the loop**: an invariant of what is left to do, kept by
each turn and by the others. -/
theorem Safe.forEach {i : ι} {body : β → Prog (S i) ε Unit} {post : Except ε Unit → σ → Prop}
    (I : List β → σ → Prop) (hend : ∀ w, O.inv w → I [] w → post (.ok ()) w)
    (hstable : ∀ xs w u, I xs w → O.rely i w u → O.inv u → I xs u)
    (hbody : ∀ x rest w, I (x :: rest) w → O.Safe i (body x)
      (fun r u => match r with | .ok _ => I rest u | .error e => post (.error e) u) w)
    {xs : List β} {w : σ} (h : I xs w) : O.Safe i (Prog.forEach xs body) post w := by
  induction xs generalizing w with
  | nil => exact fun u hu hinv => hend u hinv (hstable [] w u h hu hinv)
  | cons x rest ih =>
    refine .bind ((hbody x rest w h).mono fun r u _ hr => ?_)
    cases r with
    | ok _ => exact ih hr
    | error e => exact hr

/-- **The rule of one effect**: an assertion the others leave standing, and
what the effect does wherever it stands, its answer never lost. -/
theorem Safe.ask {i : ι} {op : (S i).Op} {k : (S i).Ans op → Prog (S i) ε γ}
    {post : Except ε γ → σ → Prop} {P : σ → Prop} {w : σ} (hP : P w)
    (hstable : ∀ u v, P u → O.rely i u v → O.inv v → P v) (hlose : ∀ u v, ¬ Y.lose i op u v)
    (hshows : ∀ u, P u → O.inv u → O.shows i op u)
    (h : ∀ u a v, P u → O.inv u → Y.sem i op u a v →
      O.Keeps i u v ∧ O.Safe i (k a) post v) : O.Safe i (.ask op k) post w := by
  intro u hu hinv
  have hPu : P u := hstable w u hP hu hinv
  exact ⟨hshows u hPu hinv, fun a v hsem => h u a v hPu hinv hsem,
    fun v hlost => absurd hlost (hlose u v)⟩

/-- A slot whose every effect keeps the outline is safe whatever it
runs. -/
theorem Safe.of_calls {i : ι} {post : Except ε γ → σ → Prop} (hpost : ∀ r w, post r w)
    (hshows : ∀ op u, O.inv u → O.shows i op u)
    (hsem : ∀ op u a v, O.inv u → Y.sem i op u a v → O.Keeps i u v)
    (hlose : ∀ op u v, O.inv u → Y.lose i op u v → O.Keeps i u v ∧ O.rely i u v)
    (p : Prog (S i) ε γ) (w : σ) : O.Safe i p post w := by
  induction p generalizing w with
  | done a => exact fun u _ _ => hpost _ u
  | fail e => exact fun u _ _ => hpost _ u
  | ask op k ih =>
    intro u _ hinv
    exact ⟨hshows op u hinv, fun a v hv => ⟨hsem op u a v hinv hv, ih a v⟩,
      fun v hv => hlose op u v hinv hv⟩

end Outline

/-- What handing over slot `i`'s result owes the rest. -/
def Outline.handover {Y : System S ε α σ} (O : Outline Y) (i : ι) (r : Except ε (α i)) (w : σ) :
    Prop :=
  ∀ w', Y.finish i r w w' → O.Keeps i w w'

/-- **An outline that holds of its system**: it holds at the start, the world
keeps it, and what a slot may start is safe to run. -/
structure Outline.Valid {Y : System S ε α σ} (O : Outline Y) : Prop where
  init : ∀ w, Y.init w → O.inv w
  env : ∀ w w', O.inv w → Y.env w w' → O.inv w' ∧ ∀ i, O.rely i w w'
  start : ∀ i p w w', O.inv w → Y.start i p w w' →
    O.Keeps i w w' ∧ O.Safe i p (O.handover i) w'

namespace Outline.Valid

variable {Y : System S ε α σ} {O : Outline Y}

/-- What holds in every reachable state: the invariant, and that every
program in a slot is safe to go on. -/
structure Holds (O : Outline Y) (s : System.State S ε α σ) : Prop where
  inv : O.inv s.world
  safe : ∀ i p, s.slots i = some p → O.Safe i p (O.handover i) s.world

/-- What the outline shows at the effect a slot stands before. -/
theorem Holds.shows {s : System.State S ε α σ} (h : Holds O s) {i : ι} {op : (S i).Op}
    {k : (S i).Ans op → Prog (S i) ε (α i)} (hslot : s.slots i = some (.ask op k)) :
    O.shows i op s.world :=
  (h.safe i _ hslot s.world (O.rely_refl i _) h.inv).1

variable [DecidableEq ι]

/-- An effect of slot `i` that keeps the outline leaves every other slot's
program safe, whatever slot `i` then runs. -/
theorem Holds.update {s : System.State S ε α σ} (h : Holds O s) {i : ι} {w : σ}
    (hk : O.Keeps i s.world w) {q : Option (Prog (S i) ε (α i))}
    (hq : ∀ p, q = some p → O.Safe i p (O.handover i) w) :
    Holds O ⟨w, Function.update s.slots i q⟩ := by
  refine ⟨hk.inv, fun j p hp => ?_⟩
  by_cases hj : j = i
  · subst hj
    exact hq p (by simpa using hp)
  · simp only [Function.update_of_ne hj] at hp
    exact (h.safe j p hp).stable (hk.rely j hj)

/-- **One step keeps an outline.** -/
theorem step (hO : O.Valid) {s t : System.State S ε α σ} (h : Holds O s) (hst : Y.Step s t) :
    Holds O t := by
  cases hst with
  | @start i p w hidle hstart =>
    obtain ⟨hk, hsafe⟩ := hO.start i p s.world w h.inv hstart
    exact h.update hk fun q hq => by cases hq; exact hsafe
  | @answer i op k a w hslot hsem =>
    have hask := h.safe i _ hslot s.world (O.rely_refl i _) h.inv
    obtain ⟨hk, hsafe⟩ := hask.2.1 a w hsem
    exact h.update hk fun q hq => by cases hq; exact hsafe
  | @lose i op k w hslot hlose =>
    obtain ⟨hk, hrely⟩ := (h.safe i _ hslot s.world (O.rely_refl i _) h.inv).2.2 w hlose
    refine ⟨hk.inv, fun j p hp => (h.safe j p hp).stable ?_⟩
    by_cases hj : j = i
    · exact hj ▸ hrely
    · exact hk.rely j hj
  | @done i a w hslot hfin =>
    exact h.update (h.safe i _ hslot s.world (O.rely_refl i _) h.inv w hfin) nofun
  | @fail i e w hslot hfin =>
    exact h.update (h.safe i _ hslot s.world (O.rely_refl i _) h.inv w hfin) nofun
  | @env w henv =>
    obtain ⟨hinv, hrely⟩ := hO.env s.world w h.inv henv
    exact ⟨hinv, fun j p hp => (h.safe j p hp).stable (hrely j)⟩

/-- **An outline that holds, holds in every reachable state.** -/
theorem reach (hO : O.Valid) {s : System.State S ε α σ} (hs : Y.Reach s) : Holds O s := by
  induction hs with
  | init hw => exact ⟨hO.init _ hw, nofun⟩
  | step _ hst ih => exact hO.step ih hst

end Outline.Valid

end Durable
