import Dependaboard.Core.Requests
import Dependaboard.Durable.Prog
/-!
# Service — an installation's sweep chain

`InstallationSync`, the object of one installation: `start` arms a chain of
ticks, each of which arms the next and sweeps, and `pause` and `purge` stop
it. A tick already sent cannot be recalled, so each carries the generation it
was sent under, and a stop moves the generation on.
-/

namespace Dependaboard

open Durable

/-- A message that ticks the chain; one from before generations carries
none. -/
structure SchedulerTick where
  generation : Option ℕ
  deriving DecidableEq, Repr

/-- What the object keeps. `tickPending` promises that a tick of `generation`
is on its way, which is what lets `start` do nothing. -/
structure SchedulerState where
  started : Bool
  /-- A tick for `generation` is queued or delayed. -/
  tickPending : Bool
  generation : ℕ
  deriving DecidableEq, Repr

instance : Inhabited SchedulerState := ⟨⟨false, false, 0⟩⟩

/-- A live chain with one tick for `generation`. -/
def SchedulerState.armed (generation : ℕ) : SchedulerState := ⟨true, true, generation⟩

/-- What a start did. -/
inductive SchedulerStartOutcome where
  | alreadyArmed
  | armed (generation : ℕ)
  deriving DecidableEq, Repr

/-- What a tick did. -/
inductive SchedulerTickOutcome where
  | dropped
  | swept (repositories : ℕ)
  deriving DecidableEq, Repr

/-! ## Transitions -/

/-- The generation after `current`, refused past an unsigned 64-bit
integer. -/
def nextSchedulerGeneration (current : ℕ) : Except HandlerError ℕ :=
  if current + 1 < u64Size then .ok (current + 1)
  else .error (.terminal "scheduler generation overflow")

/-- The state a start arms; `none` where the chain is already armed. -/
def schedulerStartTransition (state : SchedulerState) :
    Except HandlerError (Option SchedulerState) := do
  if state.started ∧ state.tickPending then
    return none
  let generation ←
    if state.started ∧ 0 < state.generation then pure state.generation
    else nextSchedulerGeneration state.generation
  return some (.armed generation)

/-- The state a tick arms before it sweeps; `none` where it is dropped. -/
def schedulerTickTransition (state : SchedulerState) (incoming : SchedulerTick) :
    Except HandlerError (Option SchedulerState) := do
  if !state.started then
    return none
  match incoming.generation with
  | some generation =>
    if generation = state.generation then return some (.armed generation) else return none
  | none =>
    if state.tickPending then
      return none
    return some (.armed (← nextSchedulerGeneration state.generation))

/-- The state a pause leaves. The tick on its way cannot be recalled: the next
generation is what turns it away when it comes. -/
def schedulerPauseTransition (state : SchedulerState) : Except HandlerError SchedulerState := do
  return ⟨false, false, ← nextSchedulerGeneration state.generation⟩

/-! ## Handlers -/

/-- The effects the object's handlers ask for. -/
inductive SchedulerCall where
  | readState
  | persist (state : SchedulerState)
  /-- A tick sent at once. -/
  | sendTick (tick : SchedulerTick)
  /-- A tick sent after the interval. -/
  | scheduleTick (tick : SchedulerTick)
  | sweep
  | purgeInstallation (installationId : ℕ)
  deriving DecidableEq, Repr

/-- What each is answered in; a write of state and a send cannot fail. -/
@[reducible] def SchedulerCall.Answer : SchedulerCall → Type
  | readState => Except HandlerError SchedulerState
  | persist _ | sendTick _ | scheduleTick _ => Unit
  | sweep | purgeInstallation _ => Except HandlerError ℕ

/-- The interface of the object's handlers. -/
@[reducible] def SchedulerEffects : Signature := ⟨SchedulerCall, SchedulerCall.Answer⟩

/-- A handler of the object. -/
abbrev SchedulerM (α : Type) : Type := Prog SchedulerEffects HandlerError α

namespace SchedulerM

/-- What the object keeps of its chain; never armed where it keeps nothing. -/
def readSchedulerState : SchedulerM SchedulerState :=
  Prog.ask (S := SchedulerEffects) .readState Prog.ofExcept

/-- The state is kept before anything is sent, so that no tick is in flight
the object knows nothing of. -/
def persist (state : SchedulerState) : SchedulerM Unit :=
  Prog.ask (S := SchedulerEffects) (.persist state) Prog.done

/-- A tick sent at once: the chain's first. -/
def sendTick (tick : SchedulerTick) : SchedulerM Unit :=
  Prog.ask (S := SchedulerEffects) (.sendTick tick) Prog.done

/-- The next tick is sent ahead of the sweep it follows, under its generation,
so that a sweep that fails does not break the chain. -/
def scheduleTick (generation : ℕ) : SchedulerM Unit :=
  Prog.ask (S := SchedulerEffects) (.scheduleTick ⟨some generation⟩) Prog.done

/-- The sweep of the installation, which answers with how many repositories it
told. -/
def sweep : SchedulerM ℕ :=
  Prog.ask (S := SchedulerEffects) .sweep Prog.ofExcept

/-- The purge of an installation's rows, which answers with how many
repositories went. -/
def purgeInstallation (installationId : ℕ) : SchedulerM ℕ :=
  Prog.ask (S := SchedulerEffects) (.purgeInstallation installationId) Prog.ofExcept

end SchedulerM

namespace InstallationSync

open SchedulerM

/-- Arm the chain, unless it is. -/
def start : SchedulerM SchedulerStartOutcome := do
  let state ← readSchedulerState
  match ← Prog.ofExcept (schedulerStartTransition state) with
  | none => return .alreadyArmed
  | some next =>
    persist next
    sendTick ⟨some next.generation⟩
    return .armed next.generation

/-- Arm the next tick, then sweep. -/
def runSchedulerTick (state : SchedulerState) (incoming : SchedulerTick) :
    SchedulerM SchedulerTickOutcome := do
  match ← Prog.ofExcept (schedulerTickTransition state incoming) with
  | none => return .dropped
  | some next =>
    persist next
    scheduleTick next.generation
    let repositories ← sweep
    return .swept repositories

/-- A tick is judged by the state it finds: one of a generation the object has
left is dropped. -/
def tick (incoming : SchedulerTick) : SchedulerM SchedulerTickOutcome := do
  let state ← readSchedulerState
  runSchedulerTick state incoming

/-- Sweep once, outside the chain. -/
def syncNow : SchedulerM ℕ := sweep

/-- Stop the chain: its ticks are turned away until it is started again. -/
def pause : SchedulerM Unit := do
  let state ← readSchedulerState
  persist (← Prog.ofExcept (schedulerPauseTransition state))

/-- Stop the chain, then drop what the projection holds of the installation
the object is keyed by. -/
def purge (key : String) : SchedulerM ℕ := do
  let state ← readSchedulerState
  persist (← Prog.ofExcept (schedulerPauseTransition state))
  match parseU64 key.toList with
  | none => .fail (.terminal "installation key must be an integer")
  | some installationId => purgeInstallation installationId

end InstallationSync

end Dependaboard
