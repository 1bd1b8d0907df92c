import Dependaboard.Durable.Journal
import Dependaboard.Service.Sweep
/-!
# Retirement — the outbox under any number of sweeps

The sweeps of one or more services share a store: each prunes it and drains
its outbox, whole, in steps a crash may fall between. `OutboxWorld` is the
store with accounts kept beside it: what each service's prunes queued,
what closes each service sent its own objects and for which of the rows its
drain had read. `outboxSystem` is every order of their steps.

The argument is in two parts. What anyone may do to the outbox between a
drain's read and its acknowledgement is `Later`: rows are added above every
number given so far, rows are removed, rows are told. And a drain that
read when it might carries `Reading` to its acknowledgement: what is pending
up to its last row is what it read.
-/

namespace Dependaboard

open Durable

variable {Svc : Type}

/-- A shared store, and what the services have made of its outbox. -/
structure OutboxWorld (Svc : Type) where
  store : Store
  /-- Every row a service's prune queued. -/
  queued : List (Svc × Retirement)
  /-- Every close a service sent one of its own objects. -/
  sent : List (Svc × PrKey × ClosedRequest)
  /-- What each slot's drain last read. -/
  reads : Svc × ℕ → List Retirement
  /-- Every row a service has sent the close of, having read it. -/
  told : List (Svc × Retirement)
  /-- The rows an acknowledgement removed that its drain had not read. -/
  unread : List Retirement

namespace OutboxWorld

/-- What is pending. -/
def pending (w : OutboxWorld Svc) : List Retirement := w.store.pendingRetirements

/-- The largest number the outbox has given. -/
def last (w : OutboxWorld Svc) : ℕ := w.store.retirements.last

/-- The service `svc` has sent its own object the close `row` asks for. -/
def Sent (w : OutboxWorld Svc) (svc : Svc) (row : Retirement) : Prop :=
  (svc, row.key, (⟨row.syncedBefore⟩ : ClosedRequest)) ∈ w.sent

/-- The service `svc` has read `row` and sent its close. -/
def Told (w : OutboxWorld Svc) (svc : Svc) (row : Retirement) : Prop := (svc, row) ∈ w.told

/-- A prune of `svc` that removed `pruned`. -/
def prune (w : OutboxWorld Svc) (svc : Svc) (prune : Prune) (pruned : List PrKey)
    (store' : Store) : OutboxWorld Svc :=
  { w with
    store := store'
    queued := w.queued ++ (w.store.queuedRows pruned prune.fence).map fun row => (svc, row) }

/-- The rows a slot has read that ask for this close. -/
def asking (w : OutboxWorld Svc) (slot : Svc × ℕ) (key : PrKey) (request : ClosedRequest) :
    List Retirement :=
  (w.reads slot).filter fun row => row.key = key ∧ row.syncedBefore = request.syncedBefore

/-- A close sent by a slot's service, for the rows read that ask for it. -/
def close (w : OutboxWorld Svc) (slot : Svc × ℕ) (key : PrKey) (request : ClosedRequest) :
    OutboxWorld Svc :=
  { w with
    sent := w.sent ++ [(slot.1, key, request)]
    told := w.told ++ (w.asking slot key request).map fun row => (slot.1, row) }

/-- A slot's drain acknowledging through a number. -/
def acknowledge (w : OutboxWorld Svc) (slot : Svc × ℕ) (through : ℕ) (store' : Store) :
    OutboxWorld Svc :=
  { w with
    store := store'
    unread := w.unread
      ++ w.pending.filter fun row => row.id ≤ through ∧ row ∉ w.reads slot }

/-- A slot's drain reading what is pending. -/
def read [DecidableEq Svc] (w : OutboxWorld Svc) (slot : Svc × ℕ) : OutboxWorld Svc :=
  { w with reads := Function.update w.reads slot w.pending }

end OutboxWorld

open OutboxWorld

section System

variable [DecidableEq Svc]

/-- How a sweep's calls are answered. A store call that reports a failure
has not landed; a drain of `svc` reads where `mayRead` lets it; what a call
that is not the outbox's does is the world's to do. -/
def outboxSem (mayRead : Svc → OutboxWorld Svc → Prop) (slot : Svc × ℕ) :
    (call : SweepCall) → OutboxWorld Svc → call.Answer → OutboxWorld Svc → Prop
  | .prune prune, w, answer, w' =>
    (∃ error, answer = .error error ∧ w' = w) ∨
      ∃ pruned store', prune.run w.store = .ok (pruned, store') ∧ answer = .ok {} ∧
        w' = w.prune slot.1 prune pruned store'
  | .pendingRetirements, w, answer, w' =>
    (∃ error, answer = .error error ∧ w' = w) ∨
      mayRead slot.1 w ∧ answer = .ok w.pending ∧ w' = w.read slot
  | .closePullRequest key request, w, _, w' => w' = w.close slot key request
  | .acknowledgeRetirements through, w, answer, w' =>
    (∃ error, answer = .error error ∧ w' = w) ∨
      ∃ store', w.store.acknowledgeRetirements through = .ok store' ∧ answer = .ok () ∧
        w' = w.acknowledge slot through store'
  | .now _, w, _, w' => w' = w
  | .listPullRequests _, w, _, w' => w' = w
  | .syncPullRequest _ _, w, _, w' => w' = w
  | .listRepositories, w, _, w' => w' = w
  | .reconcileRepository _, w, _, w' => w' = w

/-- How a call may land with its answer lost. A read lost has read
nothing. -/
def outboxLose (mayRead : Svc → OutboxWorld Svc → Prop) (slot : Svc × ℕ) (call : SweepCall)
    (w w' : OutboxWorld Svc) : Prop :=
  match call with
  | .pendingRetirements => w' = w
  | call => ∃ answer, outboxSem mayRead slot call w answer w'

/-- The handlers a service runs. -/
inductive IsSweep : SweepM ℕ → Prop
  | repoReconcile (addressed : Addressed) : IsSweep (runRepoReconcile addressed)
  | installationSync (installationId : ℕ) : IsSweep (runInstallationSync installationId)
  | installationPurge (installationId : ℕ) : IsSweep (runInstallationPurge installationId)

/-- **Any number of sweeps of each service over one store.** Everything else
that writes the store — the pull requests' objects — leaves the outbox as it
is. -/
def outboxSystem (mayRead : Svc → OutboxWorld Svc → Prop) :
    System (fun _ : Svc × ℕ => SweepEffects) HandlerError (fun _ => ℕ) (OutboxWorld Svc) where
  init w := w.queued = [] ∧ w.sent = [] ∧ w.told = [] ∧ w.unread = []
  start _ handler w w' := IsSweep handler ∧ w' = w
  sem := outboxSem mayRead
  lose := outboxLose mayRead
  finish _ _ w w' := w' = w
  env w w' := ∃ store', store'.retirements = w.store.retirements ∧ w' = { w with store := store' }

end System

/-! ## What anyone may do to the outbox -/

/-- **The outbox later on**, as a slot other than those that moved sees it:
rows are added above every number given, rows are removed, and rows are
told. -/
structure Later (slot : Svc × ℕ) (w w' : OutboxWorld Svc) : Prop where
  last : w.last ≤ w'.last
  pending : ∀ row ∈ w'.pending, row ∈ w.pending ∨ w.last < row.id
  queued : ∀ entry ∈ w'.queued, entry ∈ w.queued ∨ w.last < entry.2.id
  told : ∀ entry ∈ w.told, entry ∈ w'.told
  reads : w'.reads slot = w.reads slot

namespace Later

variable {slot : Svc × ℕ} {u v w w' : OutboxWorld Svc}

theorem refl (slot : Svc × ℕ) (w : OutboxWorld Svc) : Later slot w w :=
  ⟨le_rfl, fun _ => .inl, fun _ => .inl, fun _ => id, rfl⟩

theorem trans (h : Later slot u v) (h' : Later slot v w) : Later slot u w where
  last := h.last.trans h'.last
  pending row hrow := by
    rcases h'.pending row hrow with hrow | hid
    · exact h.pending row hrow
    · exact .inr (h.last.trans_lt hid)
  queued entry hentry := by
    rcases h'.queued entry hentry with hentry | hid
    · exact h.queued entry hentry
    · exact .inr (h.last.trans_lt hid)
  told entry hentry := h'.told entry (h.told entry hentry)
  reads := h'.reads.trans h.reads

/-- A prune adds rows above every number given. -/
theorem of_prune (slot : Svc × ℕ) {svc : Svc} {prune : Prune} {pruned : List PrKey}
    {store' : Store} (h : prune.Landed w.store pruned store') :
    Later slot w (w.prune svc prune pruned store') where
  last := by
    have := h.last
    change w.store.retirements.last ≤ store'.retirements.last
    omega
  pending row hrow := by
    rcases h.mem_retirements.1 hrow with hold | hnew
    · exact .inl hold
    · exact .inr (h.of_mem_queuedRows hnew).2.2.1
  queued entry hentry := by
    rcases List.mem_append.1 hentry with hold | hnew
    · exact .inl hold
    · obtain ⟨row, hrow, rfl⟩ := List.mem_map.1 hnew
      exact .inr (h.of_mem_queuedRows hrow).2.2.1
  told _ := id
  reads := rfl

/-- A close tells the rows that ask for it. -/
theorem of_close (slot : Svc × ℕ) (w : OutboxWorld Svc) (other : Svc × ℕ) (key : PrKey)
    (request : ClosedRequest) : Later slot w (w.close other key request) :=
  ⟨le_rfl, fun _ => .inl, fun _ => .inl, fun _ h => List.mem_append_left _ h, rfl⟩

/-- A store that kept its outbox is nobody's concern. -/
theorem of_store (slot : Svc × ℕ) (w : OutboxWorld Svc) {store' : Store}
    (h : store'.retirements = w.store.retirements) : Later slot w { w with store := store' } where
  last := by simp only [OutboxWorld.last, h, le_refl]
  pending row hrow := by
    simp only [OutboxWorld.pending, Store.pendingRetirements, h] at hrow
    exact .inl hrow
  queued _ := .inl
  told _ := id
  reads := rfl

/-- An acknowledgement removes rows. -/
theorem of_acknowledge (slot other : Svc × ℕ) {through : ℕ} {store' : Store}
    (h : store' = w.store.deleteRetirements through) :
    Later slot w (w.acknowledge other through store') where
  last := by subst h; exact le_rfl
  pending row hrow := by
    subst h
    exact .inl (Relational.Numbered.mem_removeThrough.1 hrow).1
  queued _ := .inl
  told _ := id
  reads := rfl

variable [DecidableEq Svc]

/-- A read is its own slot's alone. -/
theorem of_read (w : OutboxWorld Svc) {other : Svc × ℕ} (h : slot ≠ other) :
    Later slot w (w.read other) :=
  ⟨le_rfl, fun _ => .inl, fun _ => .inl, fun _ => id, Function.update_of_ne h _ _⟩

end Later

/-! ## What every reachable world keeps -/

/-- **Nothing queued is lost, and nothing is removed unread.** -/
structure Lossless (w : OutboxWorld Svc) : Prop where
  kept : ∀ svc row, (svc, row) ∈ w.queued → row ∈ w.pending ∨ w.Told svc row
  sent : ∀ svc row, w.Told svc row → w.Sent svc row
  unread : w.unread = []

namespace Lossless

variable {w : OutboxWorld Svc}

/-- A prune queues what it reports. -/
theorem prune (hw : Lossless w) {svc : Svc} {prune : Prune} {pruned : List PrKey}
    {store' : Store} (h : prune.Landed w.store pruned store') :
    Lossless (w.prune svc prune pruned store') where
  kept other row hrow := by
    rcases List.mem_append.1 hrow with hold | hnew
    · rcases hw.kept other row hold with hpending | htold
      · exact .inl (h.mem_retirements.2 (.inl hpending))
      · exact .inr htold
    · obtain ⟨new, hmem, heq⟩ := List.mem_map.1 hnew
      cases heq
      exact .inl (h.mem_retirements.2 (.inr hmem))
  sent := hw.sent
  unread := hw.unread

theorem close (hw : Lossless w) (slot : Svc × ℕ) (key : PrKey) (request : ClosedRequest) :
    Lossless (w.close slot key request) where
  kept other row hrow := (hw.kept other row hrow).imp_right fun h => List.mem_append_left _ h
  sent other row htold := by
    rcases List.mem_append.1 htold with hold | hnew
    · exact List.mem_append_left _ (hw.sent other row hold)
    · obtain ⟨asked, hasked, heq⟩ := List.mem_map.1 hnew
      cases heq
      simp only [asking, List.mem_filter, decide_eq_true_eq] at hasked
      obtain ⟨-, rfl, hfence⟩ := hasked
      exact List.mem_append_right _ (List.mem_singleton.2 (by rw [hfence]))
  unread := hw.unread

theorem store (hw : Lossless w) {store' : Store}
    (h : store'.retirements = w.store.retirements) : Lossless { w with store := store' } where
  kept other row hrow := by
    rcases hw.kept other row hrow with hpending | htold
    · exact .inl (by simpa only [pending, Store.pendingRetirements, h] using hpending)
    · exact .inr htold
  sent := hw.sent
  unread := hw.unread

/-- **An acknowledgement loses nothing** where what is pending up to its
number has been read, and each row read has been told by the service that
queued it. -/
theorem acknowledge (hw : Lossless w) {slot : Svc × ℕ} {through : ℕ} {store' : Store}
    (h : store' = w.store.deleteRetirements through)
    (hread : ∀ row ∈ w.pending, row.id ≤ through → row ∈ w.reads slot)
    (htold : ∀ row ∈ w.reads slot, ∀ svc, (svc, row) ∈ w.queued → w.Told svc row) :
    Lossless (w.acknowledge slot through store') where
  kept svc row hrow := by
    subst h
    rcases hw.kept svc row hrow with hpending | hold
    · by_cases hid : row.id ≤ through
      · exact .inr (htold row (hread row hpending hid) svc hrow)
      · exact .inl (Relational.Numbered.mem_removeThrough.2 ⟨hpending, by omega⟩)
    · exact .inr hold
  sent := hw.sent
  unread := by
    have hnone : (w.pending.filter fun row => row.id ≤ through ∧ row ∉ w.reads slot) = [] := by
      simpa using fun row hrow hid => hread row hrow hid
    rw [OutboxWorld.acknowledge, hw.unread, hnone, List.append_nil]

theorem read [DecidableEq Svc] (hw : Lossless w) (slot : Svc × ℕ) : Lossless (w.read slot) :=
  ⟨hw.kept, hw.sent, hw.unread⟩

end Lossless

/-! ## The outline of a drain -/

/-- What a drain of `slot` knows of the rows it read, from its read to its
acknowledgement. -/
structure Reading (slot : Svc × ℕ) (rows : List Retirement) (w : OutboxWorld Svc) : Prop where
  reads : w.reads slot = rows
  /-- The rows carry numbers already given. -/
  given : ∀ row ∈ rows, row.id ≤ w.last
  /-- What is pending up to the last of them is among them. -/
  covers : ∀ last, rows.getLast? = some last → ∀ row ∈ w.pending, row.id ≤ last.id → row ∈ rows
  /-- A row another service queued has been told by it. -/
  others : ∀ row ∈ rows, ∀ svc, (svc, row) ∈ w.queued → svc = slot.1 ∨ w.Told svc row

/-- The drain's knowledge survives what the others do: what they add is
numbered past everything read. -/
theorem Reading.stable {slot : Svc × ℕ} {rows : List Retirement} {w w' : OutboxWorld Svc}
    (h : Reading slot rows w) (hlater : Later slot w w') : Reading slot rows w' where
  reads := hlater.reads.trans h.reads
  given row hrow := (h.given row hrow).trans hlater.last
  covers last hlast row hrow hid := by
    rcases hlater.pending row hrow with hold | hnew
    · exact h.covers last hlast row hold hid
    · have := h.given last (List.mem_of_getLast? hlast)
      omega
  others row hrow svc hqueued := by
    rcases hlater.queued _ hqueued with hold | hnew
    · exact (h.others row hrow svc hold).imp_right (hlater.told _)
    · have := h.given row hrow
      simp only at hnew
      omega

/-- What a drain has still to tell of the rows it read. -/
structure Telling (slot : Svc × ℕ) (rows rest : List Retirement) (w : OutboxWorld Svc) :
    Prop where
  reading : Reading slot rows w
  sub : ∀ row ∈ rest, row ∈ rows
  told : ∀ row ∈ rows, row ∈ rest ∨ w.Told slot.1 row

theorem Telling.stable {slot : Svc × ℕ} {rows rest : List Retirement} {w w' : OutboxWorld Svc}
    (h : Telling slot rows rest w) (hlater : Later slot w w') : Telling slot rows rest w' :=
  ⟨h.reading.stable hlater, h.sub, fun row hrow => (h.told row hrow).imp_right (hlater.told _)⟩

/-- Telling one row leaves the rest to tell. -/
theorem Telling.close {slot : Svc × ℕ} {rows rest : List Retirement} {row : Retirement} {w : OutboxWorld Svc}
    (h : Telling slot rows (row :: rest) w) :
    Telling slot rows rest (w.close slot row.key ⟨row.syncedBefore⟩) where
  reading := h.reading.stable (.of_close slot w _ _ _)
  sub other hother := h.sub other (List.mem_cons_of_mem row hother)
  told other hother := by
    rcases h.told other hother with hmem | htold
    · rcases List.mem_cons.1 hmem with rfl | hrest
      · have hasked : other ∈ w.asking slot other.key ⟨other.syncedBefore⟩ := by
          simpa [asking, h.reading.reads] using h.sub other List.mem_cons_self
        exact .inr (List.mem_append_right _ (List.mem_map_of_mem hasked))
      · exact .inl hrest
    · exact .inr (List.mem_append_left _ htold)

/-- Every row pending belongs to the service, or has been told by the one
that queued it. -/
def OwnOrTold (svc : Svc) (w : OutboxWorld Svc) : Prop :=
  ∀ row ∈ w.pending, ∀ other, (other, row) ∈ w.queued → other = svc ∨ w.Told other row

variable [DecidableEq Svc]

/-- A drain that reads where every row is its own, or told, knows what it
read. -/
theorem Reading.of_read {slot : Svc × ℕ} {w : OutboxWorld Svc} (h : OwnOrTold slot.1 w) :
    Reading slot w.pending (w.read slot) where
  reads := Function.update_self slot _ _
  given := w.store.retirements.le_last
  covers _ _ _ hrow _ := hrow
  others := h

variable (mayRead : Svc → OutboxWorld Svc → Prop)

/-- What the shared outbox keeps, and what a sweep may rely on. -/
def outboxOutline : Outline (outboxSystem mayRead) where
  inv := Lossless
  rely := Later
  rely_refl := Later.refl
  rely_trans := Later.trans

variable {mayRead}

/-- A program slot `slot` may run from any world. -/
def SafeAnywhere {α : Type} (mayRead : Svc → OutboxWorld Svc → Prop) (slot : Svc × ℕ)
    (p : SweepM α) : Prop :=
  ∀ w, (outboxOutline mayRead).Safe slot p (fun _ _ => True) w

namespace SafeAnywhere

variable {α β : Type} {slot : Svc × ℕ}

theorem done (a : α) : SafeAnywhere mayRead slot (.done a) := fun _ _ _ _ => trivial

theorem fail (error : HandlerError) : SafeAnywhere mayRead slot (.fail error : SweepM α) :=
  fun _ _ _ _ => trivial

theorem ofExcept (result : Except HandlerError α) :
    SafeAnywhere mayRead slot (.ofExcept result : SweepM α) := by
  cases result with
  | ok a => exact done a
  | error error => exact fail error

theorem bind {p : SweepM α} {f : α → SweepM β} (hp : SafeAnywhere mayRead slot p)
    (hf : ∀ a, SafeAnywhere mayRead slot (f a)) : SafeAnywhere mayRead slot (p.bind f) := by
  refine fun w => .bind ((hp w).mono fun r u _ _ => ?_)
  cases r with
  | ok a => exact hf a u
  | error error => trivial

/-- A call that keeps the outbox, however it is answered and whether or not
its answer is lost. -/
theorem ask {call : SweepCall} {k : call.Answer → SweepM α}
    (hkeeps : ∀ w answer w', Lossless w → outboxSem mayRead slot call w answer w' →
      Lossless w' ∧ ∀ other, Later other w w')
    (hlose : ∀ w w', outboxLose mayRead slot call w w' →
      ∃ answer, outboxSem mayRead slot call w answer w')
    (hk : ∀ answer, SafeAnywhere mayRead slot (k answer)) :
    SafeAnywhere mayRead slot (Prog.ask (S := SweepEffects) call k) := by
  intro w w₁ _ hinv
  refine ⟨trivial, ?_, ?_⟩
  · intro answer w₂ hsem
    obtain ⟨hlossless, hlater⟩ := hkeeps w₁ answer w₂ hinv hsem
    exact ⟨⟨hlossless, fun other _ => hlater other⟩, hk answer w₂⟩
  · intro w₂ hlost
    obtain ⟨answer, hsem⟩ := hlose w₁ w₂ hlost
    obtain ⟨hlossless, hlater⟩ := hkeeps w₁ answer w₂ hinv hsem
    exact ⟨⟨hlossless, fun other _ => hlater other⟩, hlater slot⟩

/-- A call the outbox does not see. -/
theorem quiet {call : SweepCall} {k : call.Answer → SweepM α}
    (hquiet : ∀ w answer w', outboxSem mayRead slot call w answer w' → w' = w)
    (hlose : ∀ w w', outboxLose mayRead slot call w w' →
      ∃ answer, outboxSem mayRead slot call w answer w')
    (hk : ∀ answer, SafeAnywhere mayRead slot (k answer)) :
    SafeAnywhere mayRead slot (Prog.ask (S := SweepEffects) call k) := by
  refine ask (fun w answer w' hw hsem => ?_) hlose hk
  obtain rfl := hquiet w answer w' hsem
  exact ⟨hw, fun other => .refl other _⟩

theorem now (step : String) : SafeAnywhere mayRead slot (SweepM.now step) :=
  quiet (fun _ _ _ h => h) (fun _ _ h => h) ofExcept

theorem listPullRequests (addressed : Addressed) :
    SafeAnywhere mayRead slot (SweepM.listPullRequests addressed) :=
  quiet (fun _ _ _ h => h) (fun _ _ h => h) ofExcept

theorem listRepositories : SafeAnywhere mayRead slot SweepM.listRepositories :=
  quiet (fun _ _ _ h => h) (fun _ _ h => h) ofExcept

theorem reconcileRepository (repository : RepoRecord) :
    SafeAnywhere mayRead slot (SweepM.reconcileRepository repository) :=
  quiet (fun _ _ _ h => h) (fun _ _ h => h) done

theorem syncListed (pulls : List SyncRequest) :
    SafeAnywhere mayRead slot (syncListed pulls) := by
  induction pulls with
  | nil => exact done []
  | cons request rest ih =>
    refine quiet (fun _ _ _ h => h) (fun _ _ h => h) fun answer => ih.bind fun failed => ?_
    cases answer with
    | ok _ => exact done failed
    | error _ => exact done (requestKey request :: failed)

/-- A prune queues what it removed, above every number given. -/
theorem prune (prune : Prune) : SafeAnywhere mayRead slot (SweepM.prune prune) := by
  refine ask (fun w answer w' hw hsem => ?_) (fun _ _ h => h) ofExcept
  rcases hsem with ⟨error, -, rfl⟩ | ⟨pruned, store', hrun, -, rfl⟩
  · exact ⟨hw, fun other => .refl other _⟩
  · have hlanded := Prune.run_ok hrun
    exact ⟨hw.prune hlanded, fun other => .of_prune other hlanded⟩

theorem forEach {xs : List β} {body : β → SweepM Unit}
    (hbody : ∀ x, SafeAnywhere mayRead slot (body x)) :
    SafeAnywhere mayRead slot (Prog.forEach xs body) := by
  induction xs with
  | nil => exact done ()
  | cons x rest ih => exact (hbody x).bind fun _ => ih

end SafeAnywhere

section Drain

variable {slot : Svc × ℕ}

/-- **The sends of a drain tell every row it read.** -/
theorem safe_closes {rows : List Retirement} {w : OutboxWorld Svc} (h : Telling slot rows rows w) :
    (outboxOutline mayRead).Safe slot
      (Prog.forEach rows fun row => SweepM.closePullRequest row.key ⟨row.syncedBefore⟩)
      (fun _ u => Telling slot rows [] u) w := by
  refine Outline.Safe.forEach (fun rest u => Telling slot rows rest u) (fun _ _ h => h)
    (fun _ _ _ h hlater _ => h.stable hlater) (fun row rest u h => ?_) h
  intro u₁ hlater hinv
  refine ⟨trivial, ?_, ?_⟩
  · rintro ⟨⟩ u₂ rfl
    refine ⟨⟨hinv.close _ _ _, fun other _ => .of_close other _ _ _ _⟩, ?_⟩
    exact fun u₃ hlater' _ => ((h.stable hlater).close).stable hlater'
  · rintro u₂ ⟨-, rfl⟩
    exact ⟨⟨hinv.close _ _ _, fun other _ => .of_close other _ _ _ _⟩, .of_close slot _ _ _ _⟩

/-- **An acknowledgement of what was read and told loses nothing.** -/
theorem safe_acknowledge {rows : List Retirement} {last : Retirement} {w : OutboxWorld Svc}
    (hlast : rows.getLast? = some last) (h : Telling slot rows [] w) :
    (outboxOutline mayRead).Safe slot (SweepM.acknowledgeRetirements last.id)
      (fun _ _ => True) w := by
  intro u hlater hinv
  obtain ⟨hreading, -, htold⟩ := h.stable hlater
  have hkeeps : ∀ answer u', outboxSem mayRead slot (.acknowledgeRetirements last.id) u answer u' →
      Lossless u' ∧ ∀ other, Later other u u' := by
    rintro answer u' (⟨error, -, rfl⟩ | ⟨store', hack, -, rfl⟩)
    · exact ⟨hinv, fun other => .refl other _⟩
    · have hstore := Store.acknowledgeRetirements_ok hack
      refine ⟨hinv.acknowledge hstore ?_ ?_, fun other => .of_acknowledge other slot hstore⟩
      · exact fun row hrow hid => hreading.reads ▸ hreading.covers last hlast row hrow hid
      · intro row hrow svc hqueued
        rw [hreading.reads] at hrow
        rcases hreading.others row hrow svc hqueued with rfl | hother
        · simpa using htold row hrow
        · exact hother
  refine ⟨trivial, ?_, ?_⟩
  · intro answer u' hsem
    obtain ⟨hlossless, hlater'⟩ := hkeeps answer u' hsem
    exact ⟨⟨hlossless, fun other _ => hlater' other⟩, SafeAnywhere.ofExcept answer u'⟩
  · rintro u' ⟨answer, hsem⟩
    obtain ⟨hlossless, hlater'⟩ := hkeeps answer u' hsem
    exact ⟨⟨hlossless, fun other _ => hlater' other⟩, hlater' slot⟩

/-- **A drain is safe** wherever it reads only what is its own or told. -/
theorem safe_retirePending (hmay : ∀ svc w, mayRead svc w → OwnOrTold svc w) (pruned : Pruned) :
    SafeAnywhere mayRead slot (retirePending pruned) := by
  intro w w₁ _ hinv
  refine ⟨trivial, ?_, ?_⟩
  · rintro answer w₂ (⟨error, rfl, rfl⟩ | ⟨hread, rfl, rfl⟩)
    · exact ⟨⟨hinv, fun other _ => .refl other _⟩, SafeAnywhere.fail error _⟩
    · refine ⟨⟨hinv.read slot, fun other hne => .of_read _ hne⟩, ?_⟩
      have hreading := Reading.of_read (hmay _ _ hread)
      simp only [Prog.ofExcept_ok, Prog.done_bind]
      cases hlast : w₁.pending.getLast? with
      | none => exact SafeAnywhere.done 0 _
      | some last =>
        refine .bind ((safe_closes ⟨hreading, fun _ => id, fun _ => .inl⟩).mono fun r u _ htelling => ?_)
        cases r with
        | error error => trivial
        | ok _ =>
          refine .bind ((safe_acknowledge hlast htelling).mono fun r u _ _ => ?_)
          cases r with
          | error error => trivial
          | ok _ => exact SafeAnywhere.done _ u
  · rintro w₂ rfl
    exact ⟨⟨hinv, fun other _ => .refl other _⟩, .refl slot _⟩

/-- Every sweep is safe. -/
theorem IsSweep.safe (hmay : ∀ svc w, mayRead svc w → OwnOrTold svc w) {handler : SweepM ℕ}
    (h : IsSweep handler) : SafeAnywhere mayRead slot handler := by
  cases h with
  | repoReconcile addressed =>
    refine (SafeAnywhere.now _).bind fun start => (SafeAnywhere.listPullRequests _).bind fun pulls =>
      (SafeAnywhere.syncListed pulls).bind fun failed => (SafeAnywhere.prune _).bind fun pruned =>
      (safe_retirePending hmay pruned).bind fun _ => ?_
    split
    · exact SafeAnywhere.done _
    · exact SafeAnywhere.fail _
  | installationSync installationId =>
    exact (SafeAnywhere.now _).bind fun start => SafeAnywhere.listRepositories.bind fun repositories =>
      (SafeAnywhere.prune _).bind fun pruned => (safe_retirePending hmay pruned).bind fun _ =>
      (SafeAnywhere.forEach SafeAnywhere.reconcileRepository).bind fun _ => SafeAnywhere.done _
  | installationPurge installationId =>
    exact (SafeAnywhere.prune _).bind fun pruned => safe_retirePending hmay pruned

/-- **The outline of the outbox holds.** -/
theorem outboxOutline_valid (hmay : ∀ svc w, mayRead svc w → OwnOrTold svc w) :
    (outboxOutline mayRead).Valid where
  init w hw := by
    obtain ⟨hqueued, -, htold, hunread⟩ := hw
    exact ⟨fun svc row hrow => by simp [hqueued] at hrow,
      fun svc row hrow => by simp [Told, htold] at hrow, hunread⟩
  env w w' hw henv := by
    obtain ⟨store', hsame, rfl⟩ := henv
    exact ⟨hw.store hsame, fun slot => .of_store slot w hsame⟩
  start slot handler w w' hw hstart := by
    obtain ⟨hsweep, rfl⟩ := hstart
    refine ⟨⟨hw, fun other _ => .refl other _⟩, (hsweep.safe hmay w').mono ?_⟩
    rintro r u hinv - u' rfl
    exact ⟨hinv, fun other _ => .refl other _⟩

end Drain

end Dependaboard
