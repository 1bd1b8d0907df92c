import Dependaboard.Durable.Handled
import Dependaboard.Durable.Translate
import Dependaboard.Retirement.Delivery
import Dependaboard.Schedule.Chain
/-!
# Schedule — an installation purged stays purged

A purge stops the chain and drops what the projection holds of the
installation, while ticks already sent, syncs and reconciles already queued
cannot be recalled. `purged_stays_gone` is that none of them brings anything
of it back, however late: a tick finds the chain stopped and a sync no
repository to hang its row off. Only a start, or a sync of the whole
installation, does.
-/

namespace Dependaboard

open Durable

/-- What the object's handlers ask for: of its schedule, or of what it
sweeps. -/
inductive InstallationCall where
  | schedule (call : SchedulerCall)
  | sweep (call : SweepCall)
  deriving Repr

/-- What each call is answered in. -/
@[reducible] def InstallationCall.Answer : InstallationCall → Type
  | schedule call => call.Answer
  | sweep call => call.Answer

/-- The interface of the object with its sweep run in place, as
one handler. -/
@[reducible] def InstallationEffects : Signature := ⟨InstallationCall, InstallationCall.Answer⟩

/-- A handler of the object, with the sweep it runs. -/
abbrev InstallationM (α : Type) : Type := Prog InstallationEffects HandlerError α

namespace InstallationM

/-- A sweep's call is one of the object's. -/
def ofSweep : SweepEffects.Reading InstallationEffects where
  op := .sweep
  ans _ a := a

/-- What the schedule asks for, done: a sweep is `run_installation_sync` of the
deployment's installation, a purge `run_installation_purge` of the one named. -/
def does (own : ℕ) : Unit → (call : SchedulerCall) → InstallationM (call.Answer × Unit)
  | _, .sweep => ((runInstallationSync own).translate ofSweep).outcome.bind fun swept =>
    .done (swept, ())
  | _, .purgeInstallation installationId =>
    ((runInstallationPurge installationId).translate ofSweep).outcome.bind fun purged =>
      .done (purged, ())
  | _, call => .ask (S := InstallationEffects) (.schedule call) fun answer => .done (answer, ())

/-- What an event runs, the sweep included. -/
def handler (own : ℕ) (event : ChainEvent) : InstallationM (Unit × Unit) :=
  (ChainWorld.handler event).handled (does own) ()

end InstallationM

/-- A start, or a sync of the whole installation. -/
def ChainEvent.brings : ChainEvent → Bool
  | .start | .syncNow => true
  | .pause | .purge _ | .deliver _ => false

/-- The projection, the object's state, and whether it has been purged: the
installation's rows dropped, and nothing started or synced since. -/
structure PurgeWorld where
  store : Store
  state : SchedulerState
  purged : Bool

/-- What runs: the installation's object, reconciles of repositories, and
pull requests. -/
inductive PurgeSlot where
  | installation
  | reconcile (n : ℕ)
  | pullRequest (n : ℕ)
  deriving DecidableEq, Repr

namespace PurgeSlot

/-- A repository's reconcile sweeps, and a pull request's handlers are its
own. -/
@[reducible] def Effects : PurgeSlot → Signature
  | installation => InstallationEffects
  | reconcile _ => SweepEffects
  | pullRequest _ => PullRequestEffects

/-- What each slot's program ends with. -/
@[reducible] def Result : PurgeSlot → Type
  | installation => Unit × Unit
  | reconcile _ => ℕ
  | pullRequest _ => HandlerAnswer

end PurgeSlot

/-- What a sweep's call does to the projection. -/
def SweepCall.On : (call : SweepCall) → Store → call.Answer → Store → Prop
  | .prune drop, store, answer, store' => (∃ error, answer = .error error ∧ store' = store) ∨
      ∃ pruned, drop.run store = .ok (pruned, store') ∧ answer = .ok {}
  | .pendingRetirements, store, answer, store' =>
    ((∃ error, answer = .error error) ∨ answer = .ok store.pendingRetirements) ∧ store' = store
  | .acknowledgeRetirements through, store, answer, store' =>
    (∃ error, answer = .error error ∧ store' = store) ∨
      store.acknowledgeRetirements through = .ok store' ∧ answer = .ok ()
  | _, store, _, store' => store' = store

/-- What a pull request's call does to the projection. -/
def PullRequestCall.On : (call : PullRequestCall) → Store → call.Answer → Store → Prop
  | .upsertProjection snapshot, store, answer, store' =>
    (∃ error, answer = .error error ∧ store' = store) ∨
      store.upsertPr snapshot = .ok store' ∧ answer = .ok ()
  | .deleteProjection _ key, store, answer, store' =>
    (∃ error, answer = .error error ∧ store' = store) ∨
      store' = store.deletePr key ∧ answer = .ok ()
  | _, store, _, store' => store' = store

/-- The call dropped what the projection held of `own`. -/
def SweepCall.purges (own : ℕ) : (call : SweepCall) → call.Answer → Bool
  | .prune (.purgeInstallation installationId), .ok _ => installationId = own
  | _, _ => false

namespace PurgeWorld

/-- How a call of each is answered. -/
def sem (own : ℕ) : (slot : PurgeSlot) → (call : slot.Effects.Op) → PurgeWorld →
    slot.Effects.Ans call → PurgeWorld → Prop
  | .installation, .schedule .readState, w, answer, w' =>
    ((∃ error, answer = .error error) ∨ answer = .ok w.state) ∧ w' = w
  | .installation, .schedule (.persist state), w, _, w' => w' = { w with state }
  | .installation, .schedule _, w, _, w' => w' = w
  | .installation, .sweep call, w, answer, w' => ∃ store, call.On w.store answer store ∧
      w' = { w with store, purged := w.purged || call.purges own answer }
  | .reconcile _, call, w, answer, w' =>
    ∃ store, SweepCall.On call w.store answer store ∧ w' = { w with store }
  | .pullRequest _, call, w, answer, w' =>
    ∃ store, PullRequestCall.On call w.store answer store ∧ w' = { w with store }

/-- How a call may land with its answer lost. -/
def lose : (slot : PurgeSlot) → slot.Effects.Op → PurgeWorld → PurgeWorld → Prop
  | .installation, .schedule _, _, _ => False
  | .installation, .sweep call, w, w' | .reconcile _, call, w, w' =>
    ∃ answer store, SweepCall.On call w.store answer store ∧ w' = { w with store }
  | .pullRequest _, call, w, w' =>
    ∃ answer store, PullRequestCall.On call w.store answer store ∧ w' = { w with store }

end PurgeWorld

/-- The deployment of installation `own`: ticks of any generation arrive at any
time, syncs, closes and reconciles of anything run beside, and what else
writes the projection adds no repository of `own`. -/
def purgeSystem (own : ℕ) : System PurgeSlot.Effects HandlerError PurgeSlot.Result PurgeWorld where
  init w := w.state = default ∧ w.purged = false
  start
    | .installation, p, w, w' => ∃ event, p = InstallationM.handler own event ∧
        w' = { w with purged := w.purged && !event.brings }
    | .reconcile _, p, w, w' => (∃ addressed, p = runRepoReconcile addressed) ∧ w' = w
    | .pullRequest _, p, w, w' => (∃ object invocation, Invocation.Addresses object.key invocation ∧
        p = invocation.handler object) ∧ w' = w
  sem := PurgeWorld.sem own
  lose := PurgeWorld.lose
  finish _ _ w w' := w' = w
  env w w' := ∃ store, (∀ repository ∈ store.repositories.rows, repository.installationId = own →
    repository ∈ w.store.repositories.rows) ∧ w' = { w with store }

/-! ## What each call leaves of the installation -/

variable {own : ℕ} {store store' : Store} {w w' : PurgeWorld}

namespace Store

theorem queueRetirements_repositories {keys : List PrKey} {fence : Option ℕ}
    (h : store.queueRetirements keys fence = .ok store') :
    store'.repositories = store.repositories := by
  rw [queueRetirements_ok h]
  clear h
  induction keys generalizing store with
  | nil => rfl
  | cons key keys ih => exact @ih (store.insertRetirement key fence)

end Store

/-- A prune that writes no repository leaves those it does not drop. -/
theorem Prune.mem_repositories {prune : Prune} {pruned : List PrKey}
    (h : prune.run store = .ok (pruned, store'))
    (hadds : ∀ installationId repos fence,
      prune ≠ .replaceInstallationRepos installationId repos fence) {repository : RepoRecord}
    (hmem : repository ∈ store'.repositories.rows) :
    repository ∈ store.repositories.rows ∧ prune.drops repository = false := by
  cases prune with
  | retainPrs repositoryId live fence =>
    obtain ⟨-, h₁⟩ := integer_bind_ok h
    obtain ⟨-, h₂⟩ := integer_bind_ok h₁
    obtain ⟨_, -, h₃⟩ := Except.bind_ok h₂
    obtain ⟨_, hqueue, h₄⟩ := Except.bind_ok h₃
    cases h₄
    rw [Store.queueRetirements_repositories hqueue] at hmem
    exact ⟨hmem, rfl⟩
  | replaceInstallationRepos installationId repos fence => exact absurd rfl (hadds _ _ _)
  | purgeInstallation installationId =>
    obtain ⟨-, h₁⟩ := integer_bind_ok h
    obtain ⟨_, hqueue, h₂⟩ := Except.bind_ok h₁
    cases h₂
    rw [Store.queueRetirements_repositories hqueue] at hmem
    obtain ⟨hold, hkept⟩ := Relational.Table.mem_delete.1 hmem
    exact ⟨hold, hkept⟩

namespace SweepCall

/-- It writes no repository. -/
def Spares : SweepCall → Prop
  | prune (.replaceInstallationRepos _ _ _) => False
  | _ => True

/-- It purges no installation. -/
def Keeps : SweepCall → Prop
  | prune (.purgeInstallation _) => False
  | _ => True

/-- It does neither. -/
def Aside (call : SweepCall) : Prop := call.Spares ∧ call.Keeps

variable {call : SweepCall} {answer : call.Answer}

theorem On.mem (h : call.On store answer store') (hspares : call.Spares)
    {repository : RepoRecord} (hmem : repository ∈ store'.repositories.rows) :
    repository ∈ store.repositories.rows := by
  cases call with
  | prune drop =>
    obtain ⟨_, -, rfl⟩ | ⟨pruned, hrun, -⟩ := h
    · exact hmem
    · refine (Prune.mem_repositories hrun ?_ hmem).1
      rintro installationId repos fence rfl
      exact hspares
  | acknowledgeRetirements through =>
    obtain ⟨_, -, rfl⟩ | ⟨hok, -⟩ := h
    · exact hmem
    · rw [Store.acknowledgeRetirements_ok hok] at hmem
      exact hmem
  | pendingRetirements => exact h.2 ▸ hmem
  | _ =>
    obtain rfl : store' = store := h
    exact hmem

/-- **A purge that was answered has dropped what there was.** -/
theorem On.gone (h : call.On store answer store') (hpurges : call.purges own answer)
    {repository : RepoRecord} (hmem : repository ∈ store'.repositories.rows) :
    repository.installationId ≠ own := by
  cases call with
  | prune drop =>
    cases drop with
    | purgeInstallation installationId =>
      obtain ⟨_, rfl, -⟩ | ⟨pruned, hrun, rfl⟩ := h
      · cases hpurges
      · obtain rfl : installationId = own := of_decide_eq_true hpurges
        exact of_decide_eq_false (Prune.mem_repositories hrun (fun _ _ _ h => by cases h) hmem).2
    | _ => cases hpurges
  | _ => cases hpurges

theorem Keeps.purges (h : call.Keeps) : call.purges own answer = false := by
  cases call with
  | prune drop =>
    cases drop with
    | purgeInstallation installationId => exact h.elim
    | _ => rfl
  | _ => rfl

end SweepCall

/-- A pull request's call leaves every repository. -/
theorem PullRequestCall.On.repositories {call : PullRequestCall} {answer : call.Answer}
    (h : call.On store answer store') : store'.repositories = store.repositories := by
  cases call with
  | upsertProjection snapshot =>
    obtain ⟨_, -, rfl⟩ | ⟨hok, -⟩ := h
    · rfl
    · obtain ⟨hrepo, rfl⟩ := Store.upsertPr_ok hok
      rfl
  | deleteProjection step key =>
    obtain ⟨_, -, rfl⟩ | ⟨rfl, -⟩ := h <;> rfl
  | _ => exact congrArg Store.repositories h

/-! ## The object's handlers -/

namespace InstallationCall

/-- It arms no chain and writes no repository. -/
def Quiet : InstallationCall → Prop
  | schedule (.persist state) => state.started = false
  | schedule _ => True
  | sweep call => call.Spares

/-- It purges no installation. -/
def Keeps : InstallationCall → Prop
  | schedule _ => True
  | sweep call => call.Keeps

end InstallationCall

/-- What a pause or a purge asks of the schedule. -/
def SchedulerCall.Stops : SchedulerCall → Prop
  | persist state => state.started = false
  | sweep => False
  | _ => True

/-- What everything else asks of it. -/
def SchedulerCall.Sweeps : SchedulerCall → Prop
  | purgeInstallation _ => False
  | _ => True

theorem asks_retirePending {C : SweepCall → Prop} {pruned : Pruned}
    (hpending : C .pendingRetirements)
    (hclose : ∀ key request, C (.closePullRequest key request))
    (hacknowledge : ∀ through, C (.acknowledgeRetirements through)) :
    (retirePending pruned).Asks C := by
  refine Prog.asks_try hpending fun pending => ?_
  cases pending.getLast? with
  | none => trivial
  | some last =>
    have htold : ∀ retirement ∈ pending,
        (SweepM.closePullRequest retirement.key ⟨retirement.syncedBefore⟩).Asks C :=
      fun _ _ => ⟨hclose _ _, fun _ => trivial⟩
    exact (Prog.Asks.forEach htold).bind fun _ => Prog.asks_try (hacknowledge _) fun _ => trivial

/-- A reconcile writes no repository and purges no installation. -/
theorem asks_runRepoReconcile (addressed : Addressed) :
    (runRepoReconcile addressed).Asks SweepCall.Aside := by
  have hsync (pulls : List SyncRequest) : (syncListed pulls).Asks SweepCall.Aside := by
    induction pulls with
    | nil => trivial
    | cons request rest ih =>
      refine ⟨⟨trivial, trivial⟩, fun answer => ih.bind fun failed => ?_⟩
      cases answer <;> trivial
  refine Prog.asks_try ⟨trivial, trivial⟩ fun fence => Prog.asks_try ⟨trivial, trivial⟩ fun pulls =>
    (hsync pulls).bind fun failed => Prog.asks_try ⟨trivial, trivial⟩ fun pruned =>
      (asks_retirePending ⟨trivial, trivial⟩ (fun _ _ => ⟨trivial, trivial⟩)
        fun _ => ⟨trivial, trivial⟩).bind fun _ => ?_
  split <;> trivial

theorem asks_runInstallationSync (own : ℕ) : (runInstallationSync own).Asks SweepCall.Keeps := by
  refine Prog.asks_try trivial fun _ => Prog.asks_try trivial fun repositories =>
    Prog.asks_try trivial fun _ =>
      (asks_retirePending trivial (fun _ _ => trivial) fun _ => trivial).bind fun _ => ?_
  have hfanned : ∀ repository ∈ repositories,
      (SweepM.reconcileRepository repository).Asks SweepCall.Keeps :=
    fun _ _ => ⟨trivial, fun _ => trivial⟩
  exact (Prog.Asks.forEach hfanned).bind fun _ => trivial

theorem asks_runInstallationPurge (installationId : ℕ) :
    (runInstallationPurge installationId).Asks SweepCall.Spares :=
  Prog.asks_try trivial fun _ => asks_retirePending trivial (fun _ _ => trivial) fun _ => trivial

namespace InstallationM

/-- What stops the chain writes no repository. -/
theorem asks_does_stops (call : SchedulerCall) (h : call.Stops) :
    (does own () call).Asks InstallationCall.Quiet := by
  cases call with
  | sweep => exact h.elim
  | purgeInstallation installationId =>
    exact ((asks_runInstallationPurge installationId).translate ofSweep fun _ => id).outcome.bind
      fun _ => trivial
  | persist state => exact ⟨h, fun _ => trivial⟩
  | _ => exact ⟨trivial, fun _ => trivial⟩

theorem asks_does_sweeps (call : SchedulerCall) (h : call.Sweeps) :
    (does own () call).Asks InstallationCall.Keeps := by
  cases call with
  | sweep =>
    exact ((asks_runInstallationSync own).translate ofSweep fun _ => id).outcome.bind
      fun _ => trivial
  | purgeInstallation installationId => exact h.elim
  | _ => exact ⟨trivial, fun _ => trivial⟩

end InstallationM

/-! ## The outline -/

/-- The chain is stopped and the projection has no repository of `own`. -/
structure Gone (own : ℕ) (w : PurgeWorld) : Prop where
  stopped : w.state.started = false
  repositories : ∀ repository ∈ w.store.repositories.rows, repository.installationId ≠ own

/-- A repository of the installation is there that was not before. -/
def Adds (own : ℕ) (store store' : Store) : Prop :=
  ∃ repository ∈ store'.repositories.rows, repository.installationId = own ∧
    repository ∉ store.repositories.rows

/-- The installation stays gone once purged, while its own slot alone writes
the chain's state. -/
def purgeOutline (own : ℕ) : Outline (purgeSystem own) where
  inv w := w.purged → Gone own w
  rely slot w w' := slot = .installation → w'.state = w.state ∧ w'.purged = w.purged
  rely_refl _ _ _ := ⟨rfl, rfl⟩
  rely_trans h h' hslot := ⟨(h' hslot).1.trans (h hslot).1, (h' hslot).2.trans (h hslot).2⟩

/-- An installation not purged may have anything. -/
theorem inv_of_not_purged (hw : w.purged = false) : (purgeOutline own).inv w := by
  intro hpurged
  rw [hw] at hpurged
  cases hpurged

/-- What adds no repository of the installation keeps the outline. -/
theorem keeps_store (slot : PurgeSlot) (hinv : (purgeOutline own).inv w)
    (h : ¬ Adds own w.store store) :
    (purgeOutline own).Keeps slot w { w with store } ∧
      (purgeOutline own).rely slot w { w with store } := by
  refine ⟨⟨fun hpurged => ⟨(hinv hpurged).stopped, fun repository hmem hown => ?_⟩,
    fun _ _ _ => ⟨rfl, rfl⟩⟩, fun _ => ⟨rfl, rfl⟩⟩
  refine h ⟨repository, hmem, hown, fun hold => ?_⟩
  exact (hinv hpurged).repositories repository hold hown

theorem SweepCall.On.not_adds {call : SweepCall} {answer : call.Answer}
    (h : call.On store answer store') (hspares : call.Spares) : ¬ Adds own store store' := by
  rintro ⟨repository, hmem, -, hnew⟩
  exact hnew (h.mem hspares hmem)

theorem PullRequestCall.On.not_adds {call : PullRequestCall} {answer : call.Answer}
    (h : call.On store answer store') : ¬ Adds own store store' := by
  rintro ⟨repository, hmem, -, hnew⟩
  exact hnew (h.repositories ▸ hmem)

/-- The object's own doing is nothing the others rely on. -/
theorem keeps_installation (h : (purgeOutline own).inv w') :
    (purgeOutline own).Keeps .installation w w' :=
  ⟨h, fun _ hne hslot => absurd hslot hne⟩

/-- A handler hands over nothing. -/
theorem handover_of_inv (slot : PurgeSlot) (r : Except HandlerError slot.Result)
    (hinv : (purgeOutline own).inv w) : (purgeOutline own).handover slot r w := by
  rintro _ rfl
  exact ⟨hinv, fun _ _ => (purgeOutline own).rely_refl _ _⟩

/-- **A handler that arms nothing and writes no repository** is safe once the
chain is stopped. -/
theorem safe_of_quiet {p : InstallationM (Unit × Unit)} (hp : p.Asks InstallationCall.Quiet)
    (hw : w.state.started = false) :
    (purgeOutline own).Safe .installation p ((purgeOutline own).handover .installation) w := by
  refine Outline.Safe.of_asks (O := purgeOutline own) (i := .installation)
    (C := InstallationCall.Quiet) (P := fun w => w.state.started = false)
    (fun r _ _ hinv => handover_of_inv .installation r hinv)
    (fun u v hu hrely _ => by rw [(hrely rfl).1]; exact hu) (fun _ _ _ _ _ => trivial) ?_ ?_ hp hw
  · rintro (call | call) u answer v hquiet hu hinv hsem
    · cases call with
      | persist state =>
        obtain rfl : v = { u with state } := hsem
        exact ⟨keeps_installation fun hpurged => ⟨hquiet, (hinv hpurged).repositories⟩, hquiet⟩
      | readState =>
        obtain ⟨-, rfl⟩ := hsem
        exact ⟨keeps_installation hinv, hu⟩
      | _ =>
        obtain rfl : v = u := hsem
        exact ⟨keeps_installation hinv, hu⟩
    · obtain ⟨store, hon, rfl⟩ := hsem
      refine ⟨keeps_installation fun hpurged => ⟨hu, fun repository hmem => ?_⟩, hu⟩
      rcases Bool.or_eq_true_iff.1 hpurged with hpurged | hpurges
      · exact (hinv hpurged).repositories repository (hon.mem hquiet hmem)
      · exact hon.gone hpurges hmem
  · rintro (call | call) u v hquiet - hinv hlose
    · exact hlose.elim
    · obtain ⟨answer, store, hon, rfl⟩ := hlose
      exact keeps_store _ hinv (hon.not_adds hquiet)

/-- **A handler that purges nothing** is safe where the installation is not
purged. -/
theorem safe_of_keeps {p : InstallationM (Unit × Unit)} (hp : p.Asks InstallationCall.Keeps)
    (hw : w.purged = false) :
    (purgeOutline own).Safe .installation p ((purgeOutline own).handover .installation) w := by
  refine Outline.Safe.of_asks (O := purgeOutline own) (i := .installation)
    (C := InstallationCall.Keeps) (P := fun w => w.purged = false)
    (fun r _ _ hinv => handover_of_inv .installation r hinv)
    (fun u v hu hrely _ => by rw [(hrely rfl).2]; exact hu) (fun _ _ _ _ _ => trivial) ?_ ?_ hp hw
  · rintro (call | call) u answer v hkeeps hu - hsem
    · cases call with
      | readState =>
        obtain ⟨-, rfl⟩ := hsem
        exact ⟨keeps_installation (inv_of_not_purged hu), hu⟩
      | _ =>
        obtain rfl := hsem
        exact ⟨keeps_installation (inv_of_not_purged hu), hu⟩
    · obtain ⟨store, -, rfl⟩ := hsem
      have hfalse : (u.purged || call.purges own answer) = false := by
        rw [hu, SweepCall.Keeps.purges hkeeps]
        rfl
      exact ⟨keeps_installation (inv_of_not_purged hfalse), hfalse⟩
  · rintro (call | call) u v - hu - hlose
    · exact hlose.elim
    · obtain ⟨answer, store, -, rfl⟩ := hlose
      exact ⟨keeps_installation (inv_of_not_purged hu), fun _ => ⟨rfl, rfl⟩⟩

/-- What reads the state first goes on from the state there is. -/
theorem safe_read {next : SchedulerState → SchedulerM Unit} (h : ∀ u, (purgeOutline own).inv u →
      (w.purged = false → u.purged = false) → (purgeOutline own).Safe .installation
        ((next u.state).handled (InstallationM.does own) ())
        ((purgeOutline own).handover .installation) u) :
    (purgeOutline own).Safe .installation
      ((SchedulerM.readSchedulerState.bind next).handled (InstallationM.does own) ())
      ((purgeOutline own).handover .installation) w := by
  intro u hrely hinv
  refine ⟨trivial, fun answer v hsem => ?_, fun v hlose => hlose.elim⟩
  obtain ⟨hanswer, rfl⟩ := hsem
  refine ⟨keeps_installation hinv, ?_⟩
  rcases hanswer with ⟨error, rfl⟩ | rfl
  · exact fun t _ hinv => handover_of_inv _ _ hinv
  · exact h v hinv fun hw => (hrely rfl).2.trans hw

/-- **What stops the chain first** does what is left with it stopped. -/
theorem safe_stop (next : SchedulerM Unit) (hnext : next.Asks SchedulerCall.Stops) :
    (purgeOutline own).Safe .installation
      ((SchedulerM.readSchedulerState.bind fun state =>
        (Prog.ofExcept (schedulerPauseTransition state)).bind fun stopped =>
          (SchedulerM.persist stopped).bind fun _ => next).handled (InstallationM.does own) ())
      ((purgeOutline own).handover .installation) w := by
  refine safe_read fun u _ _ => ?_
  cases hstop : schedulerPauseTransition u.state with
  | error error => exact fun t _ hinv => handover_of_inv _ _ hinv
  | ok stopped =>
    have hstopped : stopped.started = false := by
      obtain ⟨generation, -, hok⟩ := Except.bind_ok hstop
      exact congrArg SchedulerState.started (Except.ok.inj hok).symm
    intro v _ hinv
    refine ⟨trivial, fun answer t hsem => ?_, fun t hlose => hlose.elim⟩
    obtain rfl : t = { v with state := stopped } := hsem
    exact ⟨keeps_installation fun hpurged => ⟨hstopped, (hinv hpurged).repositories⟩,
      safe_of_quiet (hnext.handled (fun _ call => InstallationM.asks_does_stops call) ()) hstopped⟩

/-- **Every handler of the object is safe**, one that brings rows in from where
the installation is not purged. -/
theorem safe_installation (event : ChainEvent) (hw : event.brings → w.purged = false) :
    (purgeOutline own).Safe .installation (InstallationM.handler own event)
      ((purgeOutline own).handover .installation) w := by
  have hsweeps {p : SchedulerM Unit} (hp : p.Asks SchedulerCall.Sweeps) {u : PurgeWorld}
      (hu : u.purged = false) : (purgeOutline own).Safe .installation
        (p.handled (InstallationM.does own) ()) ((purgeOutline own).handover .installation) u :=
    safe_of_keeps (hp.handled (fun _ call => InstallationM.asks_does_sweeps call) ()) hu
  cases event with
  | start =>
    refine hsweeps ?_ (hw rfl)
    refine Prog.Asks.bind (Prog.asks_try trivial fun state =>
      (Prog.asks_ofExcept _).bind fun next => ?_) fun _ => trivial
    cases next with
    | none => trivial
    | some next => exact ⟨trivial, fun _ => ⟨trivial, fun _ => trivial⟩⟩
  | syncNow =>
    refine hsweeps ?_ (hw rfl)
    exact ⟨trivial, fun answer => ((Prog.asks_ofExcept _).bind fun _ => trivial)⟩
  | pause => exact safe_stop (.done ()) trivial
  | purge key =>
    unfold InstallationM.handler
    simp only [ChainWorld.handler, InstallationSync.purge, Prog.bind_eq, Prog.bind_assoc]
    refine safe_stop _ (Prog.Asks.bind ?_ fun _ => trivial)
    cases parseU64 key.toList with
    | none => trivial
    | some installationId => exact ⟨trivial, fun _ => Prog.asks_ofExcept _⟩
  | deliver tick =>
    unfold InstallationM.handler
    simp only [ChainWorld.handler, InstallationSync.tick, Prog.bind_eq, Prog.bind_assoc]
    refine safe_read fun u hinv _ => ?_
    cases hstarted : u.state.started with
    | false =>
      -- whatever its generation, and however late
      have hdropped : InstallationSync.runSchedulerTick u.state tick = .done .dropped := by
        unfold InstallationSync.runSchedulerTick
        rw [ChainWorld.schedulerTickTransition_of_stopped hstarted]
        rfl
      rw [hdropped]
      exact fun t _ hinv => handover_of_inv _ _ hinv
    | true =>
      have hlive : u.purged = false := by
        cases hpurged : u.purged with
        | false => rfl
        | true =>
          have hstopped := (hinv hpurged).stopped
          rw [hstarted] at hstopped
          cases hstopped
      have hasks : (InstallationSync.runSchedulerTick u.state tick).Asks SchedulerCall.Sweeps := by
        refine (Prog.asks_ofExcept _).bind fun next => ?_
        cases next with
        | none => trivial
        | some next =>
          exact ⟨trivial, fun _ => ⟨trivial, fun _ => Prog.asks_try trivial fun _ => trivial⟩⟩
      refine hsweeps ?_ hlive
      exact hasks.bind fun _ => trivial

theorem safe_reconcile (n : ℕ) (addressed : Addressed) (w : PurgeWorld) :
    (purgeOutline own).Safe (.reconcile n) (runRepoReconcile addressed)
      ((purgeOutline own).handover (.reconcile n)) w := by
  refine Outline.Safe.of_asks (O := purgeOutline own) (i := .reconcile n) (C := SweepCall.Aside)
    (P := fun _ => True) (fun r _ _ hinv => handover_of_inv (.reconcile n) r hinv)
    (fun _ _ _ _ _ => trivial) (fun _ _ _ _ _ => trivial) ?_ ?_
    (asks_runRepoReconcile addressed) trivial
  · rintro call u answer v ⟨hspares, -⟩ - hinv ⟨store, hon, rfl⟩
    exact ⟨(keeps_store _ hinv (hon.not_adds hspares)).1, trivial⟩
  · rintro call u v ⟨hspares, -⟩ - hinv ⟨answer, store, hon, rfl⟩
    exact keeps_store _ hinv (hon.not_adds hspares)

theorem safe_pullRequest (n : ℕ) (p : PullRequestM HandlerAnswer) (w : PurgeWorld) :
    (purgeOutline own).Safe (.pullRequest n) p ((purgeOutline own).handover (.pullRequest n)) w := by
  refine Outline.Safe.mono (Outline.Safe.of_calls (O := purgeOutline own) (i := .pullRequest n)
    (fun _ _ => trivial) (fun _ _ _ => trivial) ?_ ?_ p w)
    fun r u hinv _ => handover_of_inv (.pullRequest n) r hinv
  · rintro call u answer v hinv ⟨store, hon, rfl⟩
    exact (keeps_store _ hinv hon.not_adds).1
  · rintro call u v hinv ⟨answer, store, hon, rfl⟩
    exact keeps_store _ hinv hon.not_adds

theorem purgeOutline_valid (own : ℕ) : (purgeOutline own).Valid where
  init w hw := inv_of_not_purged hw.2
  env w w' hinv henv := by
    obtain ⟨store, hold, rfl⟩ := henv
    have hadds : ¬ Adds own w.store store := by
      rintro ⟨repository, hmem, hown, hnew⟩
      exact hnew (hold repository hmem hown)
    exact ⟨(keeps_store .installation hinv hadds).1.inv,
      fun slot => (keeps_store slot hinv hadds).2⟩
  start slot p w w' hinv hstart := by
    cases slot with
    | installation =>
      obtain ⟨event, rfl, rfl⟩ := hstart
      refine ⟨keeps_installation fun hpurged => ?_, safe_installation event fun hbrings => ?_⟩
      · have hgone := hinv (Bool.and_eq_true_iff.1 hpurged).1
        exact ⟨hgone.stopped, hgone.repositories⟩
      · simp [hbrings]
    | reconcile n =>
      obtain ⟨⟨addressed, rfl⟩, rfl⟩ := hstart
      exact ⟨⟨hinv, fun _ _ => (purgeOutline own).rely_refl _ _⟩, safe_reconcile n addressed w'⟩
    | pullRequest n =>
      obtain ⟨⟨object, invocation, -, rfl⟩, rfl⟩ := hstart
      exact ⟨⟨hinv, fun _ _ => (purgeOutline own).rely_refl _ _⟩, safe_pullRequest n _ w'⟩

/-- **An installation purged stays purged.** From the moment its purge is
answered until it is started or synced, whatever ticks arrive, whatever syncs,
closes and reconciles were still queued, whichever handlers die and are run
again: the chain is stopped, and the projection holds no repository of the
installation and no pull request of one. -/
theorem purged_stays_gone
    {s : Journaled.State PurgeSlot.Effects HandlerError PurgeSlot.Result PurgeWorld}
    (hs : Journaled.Reach (purgeSystem own) s) (hpurged : s.world.purged = true) :
    s.world.state.started = false ∧
      (∀ repository ∈ s.world.store.repositories.rows, repository.installationId ≠ own) ∧
      ∀ row ∈ s.world.store.pullRequests.rows, ∃ repository,
        s.world.store.repository? row.repositoryId = some repository ∧
          repository.installationId ≠ own := by
  have hgone : Gone own s.world := Journaled.reach_inv (purgeOutline_valid own) hs hpurged
  refine ⟨hgone.stopped, hgone.repositories, fun row hrow => ?_⟩
  obtain ⟨repository, hfound⟩ := Option.isSome_iff_exists.1 (s.world.store.owned row hrow)
  exact ⟨repository, hfound,
    hgone.repositories repository (Relational.Table.find?_eq_some.1 hfound).1⟩

/-- Installation 9's purge, from a projection with a pull request of it, and a
tick of the chain before that comes once the purge is over. -/
theorem purged_stays_gone_sample : ∃ s, Journaled.Reach (purgeSystem 9) s ∧
    s.slots .installation = none ∧ s.world.purged = true ∧ s.world.state.started = false ∧
      ∀ repository ∈ s.world.store.repositories.rows, repository.installationId ≠ 9 := by
  have h₀ : Journaled.Reach (purgeSystem 9)
      ⟨⟨sampleStore 15, default, false⟩, fun _ => none⟩ := .init ⟨rfl, rfl⟩
  have h₁ := h₀.invoke .installation (InstallationM.handler 9 (.purge "9")) rfl
    ⟨.purge "9", rfl, rfl⟩
  have h₂ := h₁.answer .installation (.schedule .readState) (.ok default) rfl
    ⟨.inr rfl, rfl⟩
  have h₃ := h₂.answer .installation (.schedule (.persist ⟨false, false, 1⟩)) () rfl rfl
  have h₄ := h₃.answer .installation (.sweep (.prune (.purgeInstallation 9))) (.ok {}) rfl
    ⟨samplePurged 9 [⟨1, 1⟩] (sampleStore 15), .inr ⟨[⟨1, 1⟩], rfl, rfl⟩, rfl⟩
  have h₅ := h₄.answer .installation (.sweep .pendingRetirements) (.ok _) rfl
    ⟨_, ⟨.inr rfl, rfl⟩, rfl⟩
  have h₆ := h₅.answer .installation (.sweep (.closePullRequest ⟨1, 1⟩ ⟨none⟩)) () rfl
    ⟨_, rfl, rfl⟩
  have h₇ := h₆.answer .installation (.sweep (.acknowledgeRetirements 1)) (.ok ()) rfl
    ⟨_, .inr ⟨rfl, rfl⟩, rfl⟩
  have h₈ := h₇.done .installation ((), ()) rfl rfl
  -- the tick finds the chain stopped
  have h₉ := h₈.invoke .installation (InstallationM.handler 9 (.deliver ⟨some 0⟩)) rfl
    ⟨.deliver ⟨some 0⟩, rfl, rfl⟩
  have h₁₀ := h₉.answer .installation (.schedule .readState) (.ok ⟨false, false, 1⟩) rfl
    ⟨.inr rfl, rfl⟩
  have h₁₁ := h₁₀.done .installation ((), ()) rfl rfl
  obtain ⟨hstopped, hrepositories, -⟩ := purged_stays_gone h₁₁ rfl
  exact ⟨_, h₁₁, rfl, rfl, hstopped, hrepositories⟩

end Dependaboard
