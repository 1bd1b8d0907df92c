import Dependaboard.Durable.System
/-!
# Crash and re-run — executions that live by their journal

The runtime keeps, for every invocation, the handler it called and the
journal of the answers its effects were given. A process that dies takes
its place in the handler with it; the re-run calls the handler again and
feeds it the journal, which leads to the effect the journal ends before.
An effect that landed when the process died before the journal took its
answer is asked for again.

`Journaled.Step` is that runtime. `Journaled.reach_follows` is that it
does nothing `System.Step` does not: a crash and a re-run are no step at
all, and a lost answer is `System.Step.lose`. So an invariant of the
system's worlds is one of the journaled system's.
-/

namespace Durable

section Replay

variable {S : Signature} {ε α : Type}

/-- One journaled effect: what was asked, and what it was answered. -/
structure Entry (S : Signature) where
  /-- The effect asked for. -/
  op : S.Op
  /-- Its answer. -/
  answer : S.Ans op

/-- **Replay**: calling `p` and answering it from a journal leads to the
program it then is. -/
inductive Replays : Prog S ε α → List (Entry S) → Prog S ε α → Prop
  | nil (p : Prog S ε α) : Replays p [] p
  | cons {op : S.Op} {k : S.Ans op → Prog S ε α} {a : S.Ans op} {journal : List (Entry S)}
      {q : Prog S ε α} : Replays (k a) journal q → Replays (.ask op k) (⟨op, a⟩ :: journal) q

namespace Replays

/-- A replay taken one answer further. -/
theorem snoc {p : Prog S ε α} {journal : List (Entry S)} {op : S.Op}
    {k : S.Ans op → Prog S ε α} (h : Replays p journal (.ask op k)) (a : S.Ans op) :
    Replays p (journal ++ [⟨op, a⟩]) (k a) := by
  generalize hq : Prog.ask op k = q at h
  induction h with
  | nil p => subst hq; exact .cons (.nil _)
  | cons _ ih => exact .cons (ih hq)

/-- **Replay is deterministic**: the journal alone says where a re-run goes
on. -/
theorem det {p q q' : Prog S ε α} {journal : List (Entry S)} (h : Replays p journal q)
    (h' : Replays p journal q') : q = q' := by
  induction h with
  | nil p => cases h'; rfl
  | cons _ ih =>
    cases h' with
    | cons hrest => exact ih hrest

end Replays

/-- An invocation as the runtime holds it. -/
structure Execution (S : Signature) (ε α : Type) where
  /-- What was called. -/
  handler : Prog S ε α
  /-- The answers its effects were given. -/
  journal : List (Entry S)
  /-- Where the process running it stands; `none` once it has died. -/
  place : Option (Prog S ε α)

/-- The program an invocation's slot is running in the system: the one its
journal leads to, which is where its process stands while it lives. -/
def Place : Option (Execution S ε α) → Option (Prog S ε α) → Prop
  | none, q => q = none
  | some x, q => ∃ p, q = some p ∧ Replays x.handler x.journal p ∧
      ∀ p', x.place = some p' → p' = p

theorem Place.mk {f p : Prog S ε α} {journal : List (Entry S)}
    {place : Option (Prog S ε α)}
    (hreplay : Replays f journal p) (hplace : ∀ p', place = some p' → p' = p) :
    Place (some ⟨f, journal, place⟩) (some p) :=
  ⟨p, rfl, hreplay, hplace⟩

end Replay

variable {ι ε σ : Type} {S : ι → Signature} {α : ι → Type}

namespace Journaled

/-- The world, and each slot's invocation. -/
structure State {ι : Type} (S : ι → Signature) (ε : Type) (α : ι → Type) (σ : Type) where
  /-- The shared world. -/
  world : σ
  /-- Each slot's invocation, `none` for an idle slot. -/
  slots : (i : ι) → Option (Execution (S i) ε (α i))

variable [DecidableEq ι] (Y : System S ε α σ)

/-- **One step of the runtime.** -/
inductive Step : State S ε α σ → State S ε α σ → Prop
  | invoke {s : State S ε α σ} {i : ι} {p : Prog (S i) ε (α i)} {w : σ} :
      s.slots i = none → Y.start i p s.world w →
      Step s ⟨w, Function.update s.slots i (some ⟨p, [], some p⟩)⟩
  | answer {s : State S ε α σ} {i : ι} {h : Prog (S i) ε (α i)} {journal : List (Entry (S i))}
      {op : (S i).Op} {k : (S i).Ans op → Prog (S i) ε (α i)} {a : (S i).Ans op} {w : σ} :
      s.slots i = some ⟨h, journal, some (.ask op k)⟩ → Y.sem i op s.world a w →
      Step s ⟨w, Function.update s.slots i (some ⟨h, journal ++ [⟨op, a⟩], some (k a)⟩)⟩
  | lose {s : State S ε α σ} {i : ι} {h : Prog (S i) ε (α i)} {journal : List (Entry (S i))}
      {op : (S i).Op} {k : (S i).Ans op → Prog (S i) ε (α i)} {w : σ} :
      s.slots i = some ⟨h, journal, some (.ask op k)⟩ → Y.lose i op s.world w →
      Step s ⟨w, Function.update s.slots i (some ⟨h, journal, none⟩)⟩
  | crash {s : State S ε α σ} {i : ι} {h : Prog (S i) ε (α i)} {journal : List (Entry (S i))}
      {place : Option (Prog (S i) ε (α i))} :
      s.slots i = some ⟨h, journal, place⟩ →
      Step s ⟨s.world, Function.update s.slots i (some ⟨h, journal, none⟩)⟩
  | rerun {s : State S ε α σ} {i : ι} {h p : Prog (S i) ε (α i)} {journal : List (Entry (S i))} :
      s.slots i = some ⟨h, journal, none⟩ → Replays h journal p →
      Step s ⟨s.world, Function.update s.slots i (some ⟨h, journal, some p⟩)⟩
  | done {s : State S ε α σ} {i : ι} {h : Prog (S i) ε (α i)} {journal : List (Entry (S i))} {a : α i}
      {w : σ} :
      s.slots i = some ⟨h, journal, some (.done a)⟩ → Y.finish i (.ok a) s.world w →
      Step s ⟨w, Function.update s.slots i none⟩
  | fail {s : State S ε α σ} {i : ι} {h : Prog (S i) ε (α i)} {journal : List (Entry (S i))} {e : ε}
      {w : σ} :
      s.slots i = some ⟨h, journal, some (.fail e)⟩ → Y.finish i (.error e) s.world w →
      Step s ⟨w, Function.update s.slots i none⟩
  | env {s : State S ε α σ} {w : σ} : Y.env s.world w → Step s ⟨w, s.slots⟩

/-- The states a run of the runtime reaches. -/
inductive Reach : State S ε α σ → Prop
  | init {w : σ} : Y.init w → Reach ⟨w, fun _ => none⟩
  | step {s t : State S ε α σ} : Reach s → Step Y s t → Reach t

namespace Reach

variable {Y} {s : State S ε α σ}

/-- A run taken on by an invocation. -/
theorem invoke (hs : Reach Y s) (i : ι) (p : Prog (S i) ε (α i)) {w : σ} (hidle : s.slots i = none)
    (hstart : Y.start i p s.world w) :
    Reach Y ⟨w, Function.update s.slots i (some ⟨p, [], some p⟩)⟩ :=
  hs.step (.invoke hidle hstart)

/-- A run taken on by an answer. -/
theorem answer (hs : Reach Y s) (i : ι) (op : (S i).Op) (a : (S i).Ans op) {w : σ} {h : Prog (S i) ε (α i)}
    {journal : List (Entry (S i))} {k : (S i).Ans op → Prog (S i) ε (α i)}
    (hslot : s.slots i = some ⟨h, journal, some (.ask op k)⟩) (hsem : Y.sem i op s.world a w) :
    Reach Y ⟨w, Function.update s.slots i (some ⟨h, journal ++ [⟨op, a⟩], some (k a)⟩)⟩ :=
  hs.step (.answer hslot hsem)

/-- A run taken on by a result. -/
theorem done (hs : Reach Y s) (i : ι) (a : α i) {w : σ} {h : Prog (S i) ε (α i)}
    {journal : List (Entry (S i))} (hslot : s.slots i = some ⟨h, journal, some (.done a)⟩)
    (hfinish : Y.finish i (.ok a) s.world w) :
    Reach Y ⟨w, Function.update s.slots i none⟩ :=
  hs.step (.done hslot hfinish)

end Reach

/-- The runtime's state `s` follows the system's state `t`. -/
structure Follows (s : State S ε α σ) (t : System.State S ε α σ) : Prop where
  world : s.world = t.world
  place : ∀ i, Place (s.slots i) (t.slots i)

omit [DecidableEq ι] in
/-- A live slot's program in the system is the one its process stands at. -/
theorem Follows.live {s : State S ε α σ} {t : System.State S ε α σ} (h : Follows s t)
    {i : ι} {f p : Prog (S i) ε (α i)} {journal : List (Entry (S i))}
    (hslot : s.slots i = some ⟨f, journal, some p⟩) :
    t.slots i = some p ∧ Replays f journal p := by
  have hplace := h.place i
  rw [hslot] at hplace
  obtain ⟨q, hq, hreplay, hat⟩ := hplace
  obtain rfl := hat p rfl
  exact ⟨hq, hreplay⟩

omit [DecidableEq ι] in
/-- A dead slot's program in the system is the one its journal leads to. -/
theorem Follows.dead {s : State S ε α σ} {t : System.State S ε α σ} (h : Follows s t)
    {i : ι} {f : Prog (S i) ε (α i)} {journal : List (Entry (S i))} {place : Option (Prog (S i) ε (α i))}
    (hslot : s.slots i = some ⟨f, journal, place⟩) :
    ∃ p, t.slots i = some p ∧ Replays f journal p := by
  have hplace := h.place i
  rw [hslot] at hplace
  obtain ⟨q, hq, hreplay, -⟩ := hplace
  exact ⟨q, hq, hreplay⟩

/-- A slot changing on both sides to places that agree leaves the two
following. -/
theorem Follows.update {s : State S ε α σ} {t : System.State S ε α σ} (h : Follows s t)
    {i : ι} {x : Option (Execution (S i) ε (α i))} {q : Option (Prog (S i) ε (α i))} (hx : Place x q) {w : σ} :
    Follows ⟨w, Function.update s.slots i x⟩ ⟨w, Function.update t.slots i q⟩ := by
  refine ⟨rfl, fun j => ?_⟩
  by_cases hj : j = i
  · subst hj; simpa using hx
  · simpa [Function.update_of_ne hj] using h.place j

/-- A process dying or coming back where its journal leads changes nothing
in the system. -/
theorem Follows.replace {s : State S ε α σ} {t : System.State S ε α σ} (h : Follows s t)
    {i : ι} {f p : Prog (S i) ε (α i)} {journal : List (Entry (S i))} {place : Option (Prog (S i) ε (α i))}
    (hrun : t.slots i = some p) (hreplay : Replays f journal p)
    (hplace : ∀ p', place = some p' → p' = p) {w : σ} :
    Follows ⟨w, Function.update s.slots i (some ⟨f, journal, place⟩)⟩ ⟨w, t.slots⟩ := by
  have hx : Place (some ⟨f, journal, place⟩) (t.slots i) := ⟨p, hrun, hreplay, hplace⟩
  have := h.update (i := i) hx (w := w)
  rwa [Function.update_eq_self] at this

variable {Y}

/-- **One step of the runtime is a step of the system, or none.** -/
theorem step_follows {s s' : State S ε α σ} {t : System.State S ε α σ} (h : Follows s t)
    (hst : Step Y s s') : ∃ t', Follows s' t' ∧ (t' = t ∨ Y.Step t t') := by
  obtain ⟨w, slots⟩ := t
  obtain rfl := h.world
  cases hst with
  | @invoke i p w hidle hstart =>
    have hslot : slots i = none := by simpa [hidle, Place] using h.place i
    exact ⟨_, h.update (.mk (.nil p) fun q hq => by cases hq; rfl),
      .inr (.start hslot hstart)⟩
  | @answer i f journal op k a w hslot hsem =>
    obtain ⟨hrun, hreplay⟩ := h.live hslot
    exact ⟨_, h.update (.mk (hreplay.snoc a) fun q hq => by cases hq; rfl),
      .inr (.answer hrun hsem)⟩
  | @lose i f journal op k w hslot hlose =>
    obtain ⟨hrun, hreplay⟩ := h.live hslot
    exact ⟨_, h.replace hrun hreplay (by simp), .inr (.lose hrun hlose)⟩
  | @crash i f journal place hslot =>
    obtain ⟨p, hrun, hreplay⟩ := h.dead hslot
    exact ⟨_, h.replace hrun hreplay (by simp), .inl rfl⟩
  | @rerun i f p journal hslot hreplay =>
    obtain ⟨q, hrun, hreplay'⟩ := h.dead hslot
    obtain rfl : p = q := hreplay.det hreplay'
    exact ⟨_, h.replace hrun hreplay fun r hr => by cases hr; rfl, .inl rfl⟩
  | @done i f journal a w hslot hfin =>
    exact ⟨_, h.update (x := none) (q := none) rfl, .inr (.done (h.live hslot).1 hfin)⟩
  | @fail i f journal e w hslot hfin =>
    exact ⟨_, h.update (x := none) (q := none) rfl, .inr (.fail (h.live hslot).1 hfin)⟩
  | @env w henv => exact ⟨⟨w, slots⟩, ⟨rfl, h.place⟩, .inr (.env henv)⟩

/-- **Every state the runtime reaches follows one the system reaches.** -/
theorem reach_follows {s : State S ε α σ} (hs : Reach Y s) :
    ∃ t, Y.Reach t ∧ Follows s t := by
  induction hs with
  | @init w hw => exact ⟨⟨w, fun _ => none⟩, .init hw, rfl, fun _ => rfl⟩
  | step _ hst ih =>
    obtain ⟨t, hreach, hfollows⟩ := ih
    obtain ⟨t', hfollows', rfl | hstep⟩ := step_follows hfollows hst
    · exact ⟨t', hreach, hfollows'⟩
    · exact ⟨t', hreach.step hstep, hfollows'⟩

/-- So an outline's invariant holds in every state the runtime reaches. -/
theorem reach_inv {O : Outline Y} (hO : O.Valid) {s : State S ε α σ} (hs : Reach Y s) :
    O.inv s.world := by
  obtain ⟨t, hreach, hfollows⟩ := reach_follows hs
  exact hfollows.world ▸ (hO.reach hreach).inv

end Journaled

end Durable
