import Mathlib.Data.Multiset.Count
import Mathlib.Data.Multiset.Replicate
import Dependaboard.Service.InstallationSync
/-!
# Schedule — one chain of ticks

The object of an installation and the ticks in flight to it, which nothing
recalls: they may arrive in any order and however late. `OneChain` is what
holds between any two of its handlers, and the theorem reads off it that
there is one tick of the current generation while the chain is live and none
while it is not, and that a tick sent before a stop never sweeps.
-/

namespace Dependaboard

open Durable

/-- The object's state, the ticks in flight to it and the sweeps it has
run. -/
structure ChainWorld where
  state : SchedulerState
  inFlight : Multiset SchedulerTick
  sweeps : ℕ

/-- What is asked of the object. -/
inductive ChainEvent where
  | start
  | pause
  | purge (key : String)
  | syncNow
  /-- A tick in flight arrives. -/
  | deliver (tick : SchedulerTick)
  deriving DecidableEq, Repr

namespace ChainWorld

/-- How an effect may be answered: a sweep or a purge in any way. -/
def sem : (call : SchedulerCall) → ChainWorld → SchedulerCall.Answer call → ChainWorld → Prop
  | .readState, w, answer, w' => answer = .ok w.state ∧ w' = w
  | .persist state, w, _, w' => w' = { w with state := state }
  | .sendTick tick, w, _, w' | .scheduleTick tick, w, _, w' =>
    w' = { w with inFlight := tick ::ₘ w.inFlight }
  | .sweep, w, _, w' => w' = { w with sweeps := w.sweeps + 1 }
  | .purgeInstallation _, w, _, w' => w' = w

/-- The handler an event runs. -/
def handler : ChainEvent → SchedulerM Unit
  | .start => do let _ ← InstallationSync.start
  | .pause => InstallationSync.pause
  | .purge key => do let _ ← InstallationSync.purge key
  | .syncNow => do let _ ← InstallationSync.syncNow
  | .deliver tick => do let _ ← InstallationSync.tick tick

/-- The world a handler runs in: without the tick it was delivered. -/
def Taken : ChainEvent → ChainWorld → ChainWorld → Prop
  | .deliver tick, w, taken =>
    w.inFlight = tick ::ₘ taken.inFlight ∧ taken.state = w.state ∧ taken.sweeps = w.sweeps
  | .start, w, taken | .pause, w, taken | .purge _, w, taken | .syncNow, w, taken => taken = w

/-- **One handler, from its start to its end.** -/
def Step (event : ChainEvent) (w : ChainWorld) (result : Except HandlerError Unit)
    (w' : ChainWorld) : Prop :=
  ∃ taken, Taken event w taken ∧ Prog.Runs sem (handler event) taken result w'

/-- The events that stop the chain. -/
def Stops : ChainEvent → Prop
  | .pause | .purge _ => True
  | .start | .syncNow | .deliver _ => False

/-- The transition an event makes of the state fails with `error`. -/
def Overflows (state : SchedulerState) (error : HandlerError) : ChainEvent → Prop
  | .start => schedulerStartTransition state = .error error
  | .pause | .purge _ => schedulerPauseTransition state = .error error
  | .deliver tick => schedulerTickTransition state tick = .error error
  | .syncNow => False

/-- The worlds a run passes through from `w`. -/
inductive Later (w : ChainWorld) : ChainWorld → Prop
  | refl : Later w w
  | step {v v' : ChainWorld} {event : ChainEvent} {result : Except HandlerError Unit} :
      Later w v → Step event v result v' → Later w v'

/-- Where a run starts: nothing kept, and any number of ticks from before
generations in flight. -/
def initial (legacy : ℕ) : ChainWorld := ⟨default, Multiset.replicate legacy ⟨none⟩, 0⟩

/-- The worlds a run reaches. -/
def Reach (w : ChainWorld) : Prop := ∃ legacy, Later (initial legacy) w

/-- **One chain**: a tick of the current generation is in flight exactly
while the chain is live, one of them, and none of a later generation. -/
structure OneChain (w : ChainWorld) : Prop where
  pending : w.state.tickPending = w.state.started
  current : w.inFlight.count ⟨some w.state.generation⟩ = if w.state.started then 1 else 0
  past : ∀ generation, ⟨some generation⟩ ∈ w.inFlight → generation ≤ w.state.generation
  bounded : w.state.generation < u64Size

/-! ## What a handler leaves -/

theorem nextSchedulerGeneration_cases (current : ℕ) :
    current + 1 < u64Size ∧ nextSchedulerGeneration current = .ok (current + 1) ∨
      ¬ current + 1 < u64Size ∧ nextSchedulerGeneration current
        = .error (.terminal "scheduler generation overflow") := by
  unfold nextSchedulerGeneration
  by_cases h : current + 1 < u64Size
  · exact .inl ⟨h, if_pos h⟩
  · exact .inr ⟨h, if_neg h⟩

theorem schedulerStartTransition_of_armed {state : SchedulerState} (hstarted : state.started)
    (hpending : state.tickPending) : schedulerStartTransition state = .ok none := by
  simp [schedulerStartTransition, hstarted, hpending, pure, Except.pure]

theorem schedulerStartTransition_of_stopped {state : SchedulerState}
    (hstopped : state.started = false) : schedulerStartTransition state
      = (nextSchedulerGeneration state.generation).map fun generation =>
        some (.armed generation) := by
  simp only [schedulerStartTransition, hstopped]
  cases nextSchedulerGeneration state.generation <;> rfl

theorem schedulerTickTransition_of_stopped {state : SchedulerState} {tick : SchedulerTick}
    (hstopped : state.started = false) : schedulerTickTransition state tick = .ok none := by
  simp [schedulerTickTransition, hstopped, pure, Except.pure]

theorem schedulerTickTransition_of_armed {state : SchedulerState} {tick : SchedulerTick}
    (hstarted : state.started) (hpending : state.tickPending) :
    schedulerTickTransition state tick
      = .ok (if tick = ⟨some state.generation⟩ then some (.armed state.generation) else none) := by
  obtain ⟨_ | generation⟩ := tick
  · simp [schedulerTickTransition, hstarted, hpending, pure, Except.pure]
  · by_cases h : generation = state.generation <;>
      simp [schedulerTickTransition, hstarted, h, pure, Except.pure]

/-- What a start leaves. -/
inductive StartLeaves (w : ChainWorld) : Except HandlerError Unit → ChainWorld → Prop
  | alreadyArmed : w.state.started → StartLeaves w (.ok ()) w
  | armed : w.state.started = false → w.state.generation + 1 < u64Size →
      StartLeaves w (.ok ()) ⟨.armed (w.state.generation + 1),
        ⟨some (w.state.generation + 1)⟩ ::ₘ w.inFlight, w.sweeps⟩
  | overflow : w.state.started = false → ¬ w.state.generation + 1 < u64Size →
      StartLeaves w (.error (.terminal "scheduler generation overflow")) w

/-- What a stop leaves. -/
inductive StopLeaves (w : ChainWorld) : Except HandlerError Unit → ChainWorld → Prop
  | stopped (result : Except HandlerError Unit) : w.state.generation + 1 < u64Size →
      StopLeaves w result ⟨⟨false, false, w.state.generation + 1⟩, w.inFlight, w.sweeps⟩
  | overflow : ¬ w.state.generation + 1 < u64Size →
      StopLeaves w (.error (.terminal "scheduler generation overflow")) w

/-- What a tick leaves of the world it was taken from. -/
inductive TickLeaves (tick : SchedulerTick) (w : ChainWorld) :
    Except HandlerError Unit → ChainWorld → Prop
  | dropped : (w.state.started → tick ≠ ⟨some w.state.generation⟩) →
      TickLeaves tick w (.ok ()) w
  | swept (result : Except HandlerError Unit) : w.state.started →
      tick = ⟨some w.state.generation⟩ →
      TickLeaves tick w result ⟨.armed w.state.generation, tick ::ₘ w.inFlight, w.sweeps + 1⟩

variable {w w' : ChainWorld} {result : Except HandlerError Unit}

theorem start_leaves (hpending : w.state.tickPending = w.state.started)
    (h : Prog.Runs sem (handler .start) w result w') : StartLeaves w result w' := by
  refine h.of_wp ?_
  simp only [handler, InstallationSync.start, SchedulerM.readSchedulerState, Prog.bind_eq,
    Prog.ask_bind, Prog.wp_ask]
  rintro answer v ⟨rfl, rfl⟩
  simp only [Prog.ofExcept_ok, Prog.done_bind]
  cases hstarted : v.state.started with
  | true =>
    rw [schedulerStartTransition_of_armed hstarted (hpending.trans hstarted)]
    exact .alreadyArmed hstarted
  | false =>
    rw [schedulerStartTransition_of_stopped hstarted]
    rcases nextSchedulerGeneration_cases v.state.generation with ⟨hlt, hnext⟩ | ⟨hlt, hnext⟩
    · rw [hnext]
      rintro ⟨⟩ _ rfl ⟨⟩ _ rfl
      exact .armed hstarted hlt
    · rw [hnext]
      exact .overflow hstarted hlt

theorem pause_leaves (h : Prog.Runs sem (handler .pause) w result w') : StopLeaves w result w' := by
  refine h.of_wp ?_
  simp only [handler, InstallationSync.pause, SchedulerM.readSchedulerState, Prog.bind_eq,
    Prog.ask_bind, Prog.wp_ask]
  rintro answer v ⟨rfl, rfl⟩
  simp only [Prog.ofExcept_ok, Prog.done_bind, schedulerPauseTransition]
  rcases nextSchedulerGeneration_cases v.state.generation with ⟨hlt, hnext⟩ | ⟨hlt, hnext⟩
  · rw [hnext]
    rintro ⟨⟩ _ rfl
    exact .stopped _ hlt
  · rw [hnext]
    exact .overflow hlt

theorem purge_leaves {key : String} (h : Prog.Runs sem (handler (.purge key)) w result w') :
    StopLeaves w result w' := by
  refine h.of_wp ?_
  simp only [handler, InstallationSync.purge, SchedulerM.readSchedulerState, Prog.bind_eq,
    Prog.ask_bind, Prog.wp_ask]
  rintro answer v ⟨rfl, rfl⟩
  simp only [Prog.ofExcept_ok, Prog.done_bind, schedulerPauseTransition]
  rcases nextSchedulerGeneration_cases v.state.generation with ⟨hlt, hnext⟩ | ⟨hlt, hnext⟩
  · rw [hnext]
    rintro ⟨⟩ _ rfl
    cases parseU64 key.toList with
    | none => exact .stopped _ hlt
    | some installationId =>
      rintro answer _ rfl
      cases answer <;> exact .stopped _ hlt
  · rw [hnext]
    exact .overflow hlt

theorem tick_leaves {tick : SchedulerTick} (hpending : w.state.tickPending = w.state.started)
    (h : Prog.Runs sem (handler (.deliver tick)) w result w') : TickLeaves tick w result w' := by
  refine h.of_wp ?_
  simp only [handler, InstallationSync.tick, SchedulerM.readSchedulerState, Prog.bind_eq,
    Prog.ask_bind, Prog.wp_ask]
  rintro answer v ⟨rfl, rfl⟩
  simp only [Prog.ofExcept_ok, Prog.done_bind, InstallationSync.runSchedulerTick]
  cases hstarted : v.state.started with
  | false =>
    rw [schedulerTickTransition_of_stopped hstarted]
    exact .dropped fun h => absurd h (by simp [hstarted])
  | true =>
    rw [schedulerTickTransition_of_armed hstarted (hpending.trans hstarted)]
    by_cases htick : tick = ⟨some v.state.generation⟩
    · rw [if_pos htick]
      rintro ⟨⟩ _ rfl ⟨⟩ _ rfl answer _ rfl
      subst htick
      cases answer <;> exact .swept _ hstarted rfl
    · rw [if_neg htick]
      exact .dropped fun _ => htick

theorem syncNow_leaves (h : Prog.Runs sem (handler .syncNow) w result w') :
    w' = { w with sweeps := w.sweeps + 1 } := by
  have hwp : Prog.wp sem (handler .syncNow) (fun _ w' => w' = { w with sweeps := w.sweeps + 1 })
      w := by
    simp only [handler, InstallationSync.syncNow, SchedulerM.sweep, Prog.bind_eq, Prog.ask_bind,
      Prog.wp_ask]
    rintro answer _ rfl
    cases answer <;> rfl
  exact h.of_wp hwp

/-- What a stop leaves, whichever it is. -/
theorem Stops.leaves {event : ChainEvent} (hstops : Stops event)
    (h : Step event w result w') : StopLeaves w result w' := by
  obtain ⟨taken, htaken, hruns⟩ := h
  cases event with
  | pause => exact htaken ▸ pause_leaves hruns
  | purge key => exact htaken ▸ purge_leaves hruns
  | start => exact hstops.elim
  | syncNow => exact hstops.elim
  | deliver tick => exact hstops.elim

/-- A handler that reads the state and fails on its transition leaves the world
as it found it. -/
theorem wp_of_overflows {α β : Type} {transition : SchedulerState → Except HandlerError β}
    {next : β → SchedulerM α} {error : HandlerError} (hover : transition w.state = .error error) :
    Prog.wp sem (SchedulerM.readSchedulerState.bind fun state =>
      (Prog.ofExcept (transition state)).bind next)
        (fun result w' => result = .error error ∧ w' = w) w := by
  simp only [SchedulerM.readSchedulerState, Prog.ask_bind, Prog.wp_ask]
  rintro answer v ⟨rfl, rfl⟩
  rw [Prog.ofExcept_ok, Prog.done_bind, hover]
  exact ⟨rfl, rfl⟩

/-- **A transition that fails changes nothing**: the handler ends in its
error, the state and the messages as it found them. -/
theorem leaves_of_overflows {event : ChainEvent} {error : HandlerError}
    (hover : Overflows w.state error event) (h : Prog.Runs sem (handler event) w result w') :
    result = .error error ∧ w' = w := by
  have hwp : Prog.wp sem (handler event) (fun result w' => result = .error error ∧ w' = w) w := by
    cases event with
    | syncNow => exact hover.elim
    | start =>
      simp only [handler, InstallationSync.start, Prog.bind_eq, Prog.bind_assoc]
      exact wp_of_overflows hover
    | pause => exact wp_of_overflows hover
    | purge key =>
      simp only [handler, InstallationSync.purge, Prog.bind_eq, Prog.bind_assoc]
      exact wp_of_overflows hover
    | deliver tick =>
      simp only [handler, InstallationSync.tick, InstallationSync.runSchedulerTick, Prog.bind_eq,
        Prog.bind_assoc]
      exact wp_of_overflows hover
  exact h.of_wp hwp

/-! ## One handler after another -/

theorem OneChain.initial (legacy : ℕ) : (initial legacy).OneChain where
  pending := rfl
  current := by
    rw [ChainWorld.initial, Multiset.count_eq_zero.2]
    · rfl
    · intro hmem
      cases Multiset.eq_of_mem_replicate hmem
  past generation hmem := by cases Multiset.eq_of_mem_replicate hmem
  bounded := show 0 < u64Size by decide

/-- Taking a tick leaves one chain, unless it is the chain's own. -/
theorem OneChain.dropped (h : w.OneChain) {tick : SchedulerTick} {taken : ChainWorld}
    (htaken : Taken (.deliver tick) w taken)
    (hdropped : taken.state.started → tick ≠ ⟨some taken.state.generation⟩) : taken.OneChain := by
  obtain ⟨hflight, hstate, -⟩ := htaken
  have hcurrent := h.current
  have hpast := h.past
  rw [hflight, ← hstate] at hcurrent
  refine ⟨by rw [hstate, h.pending], ?_, ?_, hstate ▸ h.bounded⟩
  · cases hstarted : taken.state.started with
    | true =>
      rw [Multiset.count_cons_of_ne (hdropped hstarted).symm, hstarted] at hcurrent
      exact hcurrent
    | false =>
      rw [Multiset.count_cons, hstarted] at hcurrent
      simp only [Bool.false_eq_true, if_false] at hcurrent ⊢
      omega
  · intro generation hmem
    rw [hstate]
    exact hpast generation (hflight ▸ Multiset.mem_cons_of_mem hmem)

/-- A tick of the generation after the current one is not in flight. -/
theorem OneChain.count_next (h : w.OneChain) :
    w.inFlight.count ⟨some (w.state.generation + 1)⟩ = 0 := by
  rw [Multiset.count_eq_zero]
  intro hmem
  have := h.past _ hmem
  omega

/-- **A handler leaves one chain.** -/
theorem OneChain.step {event : ChainEvent} (h : w.OneChain) (hstep : Step event w result w') :
    w'.OneChain := by
  by_cases hstops : Stops event
  · cases hstops.leaves hstep with
    | stopped _ hlt =>
      refine ⟨rfl, h.count_next, fun generation hmem => ?_, hlt⟩
      exact Nat.le_succ_of_le (h.past generation hmem)
    | overflow _ => exact h
  obtain ⟨taken, htaken, hruns⟩ := hstep
  cases event with
  | pause => exact absurd trivial hstops
  | purge key => exact absurd trivial hstops
  | syncNow =>
    obtain rfl : taken = w := htaken
    rw [syncNow_leaves hruns]
    exact ⟨h.pending, h.current, h.past, h.bounded⟩
  | start =>
    obtain rfl : taken = w := htaken
    cases start_leaves h.pending hruns with
    | alreadyArmed _ => exact h
    | overflow _ _ => exact h
    | armed _ hlt =>
      refine ⟨rfl, ?_, ?_, hlt⟩
      · have hone : (⟨some (taken.state.generation + 1)⟩ ::ₘ taken.inFlight).count
            (⟨some (taken.state.generation + 1)⟩ : SchedulerTick) = 1 := by
          rw [Multiset.count_cons_self, h.count_next]
        exact hone
      · intro generation hmem
        rcases Multiset.mem_cons.1 hmem with hnew | hold
        · cases hnew
          exact Nat.le_refl _
        · exact Nat.le_succ_of_le (h.past generation hold)
  | deliver tick =>
    have hpending : taken.state.tickPending = taken.state.started := by
      rw [htaken.2.1, h.pending]
    cases tick_leaves hpending hruns with
    | dropped hdropped => exact h.dropped htaken hdropped
    | swept _ hstarted _ =>
      -- the tick armed takes the place of the one that arrived
      have hcurrent := h.current
      have hpast := h.past
      have hbounded := h.bounded
      rw [htaken.1, ← htaken.2.1, hstarted] at hcurrent
      rw [htaken.1, ← htaken.2.1] at hpast
      rw [← htaken.2.1] at hbounded
      exact ⟨rfl, hcurrent, hpast, hbounded⟩

/-- **The generation never goes back.** -/
theorem OneChain.generation_le {event : ChainEvent} (h : w.OneChain)
    (hstep : Step event w result w') : w.state.generation ≤ w'.state.generation := by
  by_cases hstops : Stops event
  · cases hstops.leaves hstep with
    | stopped _ _ => exact Nat.le_succ _
    | overflow _ => exact Nat.le_refl _
  obtain ⟨taken, htaken, hruns⟩ := hstep
  cases event with
  | pause => exact absurd trivial hstops
  | purge key => exact absurd trivial hstops
  | syncNow =>
    obtain rfl : taken = w := htaken
    rw [syncNow_leaves hruns]
  | start =>
    obtain rfl : taken = w := htaken
    cases start_leaves h.pending hruns with
    | alreadyArmed _ => exact Nat.le_refl _
    | overflow _ _ => exact Nat.le_refl _
    | armed _ _ => exact Nat.le_succ _
  | deliver tick =>
    have hpending : taken.state.tickPending = taken.state.started := by
      rw [htaken.2.1, h.pending]
    rw [← htaken.2.1]
    cases tick_leaves hpending hruns with
    | dropped _ => exact Nat.le_refl _
    | swept _ _ _ => exact Nat.le_refl _

/-! ## Runs -/

theorem OneChain.later (h : w.OneChain) (hlater : Later w w') :
    w'.OneChain ∧ w.state.generation ≤ w'.state.generation := by
  induction hlater with
  | refl => exact ⟨h, Nat.le_refl _⟩
  | step _ hstep ih => exact ⟨ih.1.step hstep, Nat.le_trans ih.2 (ih.1.generation_le hstep)⟩

theorem Reach.oneChain (h : Reach w) : w.OneChain := by
  obtain ⟨legacy, hlater⟩ := h
  exact ((OneChain.initial legacy).later hlater).1

/-- **An installation has one chain of ticks.** In every world a run reaches a
tick is pending exactly while the chain is live, and then one tick of its
generation is in flight; the generation never goes back and a stop moves it
on; a tick in flight when a stop lands never sweeps after it, however late it
arrives; and a transition that would overflow the generation is an error that
leaves the state and the messages as they were. -/
theorem one_perpetual_chain :
    (∀ w, Reach w → w.state.tickPending = w.state.started ∧
      w.inFlight.count ⟨some w.state.generation⟩ = if w.state.started then 1 else 0) ∧
    (∀ w event result w', Reach w → Step event w result w' →
      w.state.generation ≤ w'.state.generation) ∧
    (∀ w stop result w', Reach w → Stops stop → Step stop w result w' →
      w.state.generation < w'.state.generation ∨ ∃ error, Overflows w.state error stop) ∧
    (∀ w tick stop result w' v result' v', Reach w → tick ∈ w.inFlight → Stops stop →
      Step stop w result w' → (¬ ∃ error, Overflows w.state error stop) → Later w' v →
      Step (.deliver tick) v result' v' → v'.sweeps = v.sweeps ∧ v'.state = v.state) ∧
    (∀ w event error result w', Overflows w.state error event → Step event w result w' →
      result = .error error ∧ Taken event w w') := by
  have hmoves : ∀ w stop result w', Stops stop → Step stop w result w' →
      w.state.generation < w'.state.generation ∨ ∃ error, Overflows w.state error stop := by
    intro w stop result w' hstops hstep
    cases hstops.leaves hstep with
    | stopped _ _ => exact .inl (Nat.lt_succ_self _)
    | overflow hlt =>
      have hover : schedulerPauseTransition w.state
          = .error (.terminal "scheduler generation overflow") := by
        rcases nextSchedulerGeneration_cases w.state.generation with ⟨hlt', -⟩ | ⟨-, hnext⟩
        · exact absurd hlt' hlt
        · simp only [schedulerPauseTransition, hnext]
          rfl
      refine .inr ⟨.terminal "scheduler generation overflow", ?_⟩
      cases stop with
      | pause => exact hover
      | purge key => exact hover
      | start => exact hstops.elim
      | syncNow => exact hstops.elim
      | deliver tick => exact hstops.elim
  refine ⟨fun w h => ⟨h.oneChain.pending, h.oneChain.current⟩,
    fun w event result w' h hstep => h.oneChain.generation_le hstep,
    fun w stop result w' _ hstops hstep => hmoves w stop result w' hstops hstep, ?_, ?_⟩
  · intro w tick stop result w' v result' v' h hmem hstops hstep hlands hlater hdeliver
    have hlt := (hmoves w stop result w' hstops hstep).resolve_right hlands
    obtain ⟨hv, hle⟩ := (h.oneChain.step hstep).later hlater
    obtain ⟨taken, htaken, hruns⟩ := hdeliver
    have hpending : taken.state.tickPending = taken.state.started := by
      rw [htaken.2.1, hv.pending]
    cases tick_leaves hpending hruns with
    | dropped _ => exact ⟨htaken.2.2, htaken.2.1⟩
    | swept _ _ htick =>
      -- its generation is behind every one since the stop
      rw [htaken.2.1] at htick
      have := h.oneChain.past v.state.generation (htick ▸ hmem)
      omega
  · rintro w event error result w' hover ⟨taken, htaken, hruns⟩
    have hstate : taken.state = w.state := by
      cases event with
      | deliver tick => exact htaken.2.1
      | start => exact congrArg ChainWorld.state htaken
      | pause => exact congrArg ChainWorld.state htaken
      | purge key => exact congrArg ChainWorld.state htaken
      | syncNow => exact congrArg ChainWorld.state htaken
    obtain ⟨hresult, rfl⟩ := leaves_of_overflows (hstate ▸ hover) hruns
    exact ⟨hresult, htaken⟩

/-- A chain armed, stopped and armed again, and the first one's tick arriving
last. -/
theorem one_perpetual_chain_sample : ∃ w w' v v', Reach w ∧ ⟨some 1⟩ ∈ w.inFlight ∧
    Step .pause w (.ok ()) w' ∧ Step .start w' (.ok ()) v ∧
    Step (.deliver ⟨some 1⟩) v (.ok ()) v' ∧ v'.sweeps = v.sweeps ∧
    v'.inFlight.count ⟨some 3⟩ = 1 := by
  have hread (w : ChainWorld) : sem .readState w (.ok w.state) w := ⟨rfl, rfl⟩
  have harm : Step .start (initial 1) (.ok ()) ⟨.armed 1, {⟨some 1⟩, ⟨none⟩}, 0⟩ :=
    ⟨_, rfl, .ask (hread _) (.ask (a := ()) rfl (.ask (a := ()) rfl (.done () _)))⟩
  have hstop : Step .pause ⟨.armed 1, {⟨some 1⟩, ⟨none⟩}, 0⟩ (.ok ())
      ⟨⟨false, false, 2⟩, {⟨some 1⟩, ⟨none⟩}, 0⟩ :=
    ⟨_, rfl, .ask (hread _) (.ask (a := ()) rfl (.done () _))⟩
  have hagain : Step .start ⟨⟨false, false, 2⟩, {⟨some 1⟩, ⟨none⟩}, 0⟩ (.ok ())
      ⟨.armed 3, {⟨some 3⟩, ⟨some 1⟩, ⟨none⟩}, 0⟩ :=
    ⟨_, rfl, .ask (hread _) (.ask (a := ()) rfl (.ask (a := ()) rfl (.done () _)))⟩
  have hlate : Step (.deliver ⟨some 1⟩) ⟨.armed 3, {⟨some 3⟩, ⟨some 1⟩, ⟨none⟩}, 0⟩ (.ok ())
      ⟨.armed 3, {⟨some 3⟩, ⟨none⟩}, 0⟩ :=
    ⟨⟨.armed 3, {⟨some 3⟩, ⟨none⟩}, 0⟩, ⟨by decide, rfl, rfl⟩, .ask (hread _) (.done () _)⟩
  have hreach : Reach ⟨.armed 1, {⟨some 1⟩, ⟨none⟩}, 0⟩ := ⟨1, .step .refl harm⟩
  obtain ⟨hone, -, -, hstale, -⟩ := one_perpetual_chain
  have hlands : ¬ ∃ error, Overflows (.armed 1) error .pause := by
    rintro ⟨error, hover⟩
    cases hover
  have hlast : Reach ⟨.armed 3, {⟨some 3⟩, ⟨none⟩}, 0⟩ :=
    ⟨1, .step (.step (.step (.step .refl harm) hstop) hagain) hlate⟩
  refine ⟨_, _, _, _, hreach, by decide, hstop, hagain, hlate, ?_, (hone _ hlast).2⟩
  exact (hstale _ ⟨some 1⟩ .pause _ _ _ _ _ hreach (by decide) trivial hstop hlands
    (.step .refl hagain) hlate).1

end ChainWorld

end Dependaboard
