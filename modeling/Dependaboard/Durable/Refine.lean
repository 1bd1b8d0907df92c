import Dependaboard.Durable.System
/-!
# Systems seen in others

A part of a system is often a system of its own, with its own outline
already shown to hold. `System.Reach.view` carries a run of the whole to a
run of the part; `System.within` is the whole held to what is known of it
that way, and `System.Reach.within` that this loses no run. So an outline of
the whole may use, at every step, what the part's outline proved.
-/

namespace Durable

namespace System

variable {ι ι' ε ε' σ σ' : Type} {S : ι → Signature} {S' : ι' → Signature} {α : ι → Type}
  {α' : ι' → Type} [DecidableEq ι] [DecidableEq ι']

/-- **A run seen in another system**, where each step is one of its steps or
nothing to it. -/
theorem Reach.view {Y : System S ε α σ} {Y' : System S' ε' α' σ'}
    (view : State S ε α σ → State S' ε' α' σ')
    (hinit : ∀ w, Y.init w → Y'.Reach (view ⟨w, fun _ => none⟩))
    (hstep : ∀ s t, Y.Step s t → view t = view s ∨ Y'.Step (view s) (view t))
    {s : State S ε α σ} (hs : Y.Reach s) : Y'.Reach (view s) := by
  induction hs with
  | init hw => exact hinit _ hw
  | step _ hst ih =>
    rcases hstep _ _ hst with hsame | hmoved
    · rwa [hsame]
    · exact ih.step hmoved

/-- The system held to worlds that satisfy `known`. -/
def within (Y : System S ε α σ) (known : σ → Prop) : System S ε α σ where
  init w := Y.init w ∧ known w
  start i p w w' := Y.start i p w w' ∧ known w'
  sem i op w a w' := Y.sem i op w a w' ∧ known w'
  lose i op w w' := Y.lose i op w w' ∧ known w'
  finish i r w w' := Y.finish i r w w' ∧ known w'
  env w w' := Y.env w w' ∧ known w'

/-- A step to a world that satisfies `known` is a step of the system held to
it. -/
theorem Step.within {Y : System S ε α σ} {known : σ → Prop} {s t : State S ε α σ}
    (h : Y.Step s t) (hknown : known t.world) : (Y.within known).Step s t := by
  cases h with
  | start hidle hstart => exact .start hidle ⟨hstart, hknown⟩
  | answer hslot hsem => exact .answer hslot ⟨hsem, hknown⟩
  | lose hslot hlose => exact .lose hslot ⟨hlose, hknown⟩
  | done hslot hfinish => exact .done hslot ⟨hfinish, hknown⟩
  | fail hslot hfinish => exact .fail hslot ⟨hfinish, hknown⟩
  | env henv => exact .env ⟨henv, hknown⟩

/-- **What is known of every reachable world holds a system to no fewer
runs.** -/
theorem Reach.within {Y : System S ε α σ} {known : σ → Prop}
    (hknown : ∀ s, Y.Reach s → known s.world) {s : State S ε α σ} (hs : Y.Reach s) :
    (Y.within known).Reach s := by
  induction hs with
  | init hw => exact .init ⟨hw, hknown _ (.init hw)⟩
  | step hs hst ih => exact ih.step (hst.within (hknown _ (hs.step hst)))

end System

end Durable
