import Dependaboard.Retirement.Fence
import Dependaboard.Retirement.Outbox
/-!
# Retirement — what the outbox delivers

One service that has the outbox to itself loses nothing, in any order of
its sweeps and whatever crashes. Services that share it lose nothing while
each drain reads only its own service's rows; a drain that reads another's
tells its own objects in the other's place, and acknowledges.
-/

namespace Dependaboard

open Durable

/-- A state of services' sweeps over one store, their processes and journals
included. -/
abbrev OutboxRun (Svc : Type) : Type :=
  Journaled.State (fun _ : Svc × ℕ => SweepEffects) HandlerError (fun _ => ℕ) (OutboxWorld Svc)

/-- **The outbox loses nothing.** Every row a prune ever queued is pending or
its close has been sent under its fence, and no acknowledgement removed a
row its drain did not read. -/
theorem queued_pending_or_sent
    {s : OutboxRun Unit}
    (hs : Journaled.Reach (outboxSystem fun _ _ => True) s) :
    (∀ row, ((), row) ∈ s.world.queued → row ∈ s.world.pending ∨ s.world.Sent () row) ∧
      s.world.unread = [] := by
  have hinv := Journaled.reach_inv
    (outboxOutline_valid fun _ _ _ _ _ other _ => .inl (Subsingleton.elim other ())) hs
  exact ⟨fun row hrow => (hinv.kept () row hrow).imp_right (hinv.sent () row), hinv.unread⟩

/-! ## Two installations on one store

Installation 9 loses its repository to a purge, whose row waits in the
outbox; installation 8 is purged next, has no repositories to lose, and
drains. -/

/-- The retirement installation 9's purge queues. -/
def sampleRetirement : Retirement := ⟨1, ⟨1, 1⟩, none⟩

/-- The store a purge of `installationId` leaves, having removed `pruned`. -/
def samplePurged (installationId : ℕ) (pruned : List PrKey) (store : Store) : Store :=
  let drops := (Prune.purgeInstallation installationId).drops
  ((store.deletePullRequests (store.hangsOff drops)).deleteRepositories drops).insertRetirements
    pruned none

/-- The world before either purge. -/
def sampleWorld {Svc : Type} : OutboxWorld Svc := ⟨sampleStore 15, [], [], fun _ => [], [], []⟩

/-- The world with installation 9's row queued by `svc`. -/
def sampleQueued {Svc : Type} (svc : Svc) : OutboxWorld Svc :=
  sampleWorld.prune svc (.purgeInstallation 9) [⟨1, 1⟩] (samplePurged 9 [⟨1, 1⟩] (sampleStore 15))

/-- A purge of installation 9 by `svc` reaches the world with its row
queued. -/
theorem sampleQueued_reach {Svc : Type} [DecidableEq Svc]
    (mayRead : Svc → OutboxWorld Svc → Prop) (svc : Svc) :
    ∃ slots, Journaled.Reach (outboxSystem mayRead) ⟨sampleQueued svc, slots⟩ ∧
      ∀ slot, slot ≠ (svc, 0) → slots slot = none := by
  have h₀ : Journaled.Reach (outboxSystem mayRead) ⟨sampleWorld, fun _ => none⟩ :=
    .init ⟨rfl, rfl, rfl, rfl⟩
  have h₁ := h₀.invoke (svc, 0) (runInstallationPurge 9) rfl ⟨.installationPurge 9, rfl⟩
  have h₂ := h₁.answer (svc, 0) (.prune (.purgeInstallation 9)) (.ok {}) (Function.update_self _ _ _)
    (.inr ⟨[⟨1, 1⟩], samplePurged 9 [⟨1, 1⟩] (sampleStore 15), rfl, rfl, rfl⟩)
  exact ⟨_, h₂, fun slot hne => by simp [Function.update_of_ne hne]⟩

/-- A purge's row, queued and pending. -/
theorem queued_pending_or_sent_sample :
    (sampleQueued ()).queued = [((), sampleRetirement)] ∧
      (∀ row, ((), row) ∈ (sampleQueued ()).queued →
        row ∈ (sampleQueued ()).pending ∨ (sampleQueued ()).Sent () row) ∧
      (sampleQueued ()).unread = [] := by
  obtain ⟨slots, hreach, -⟩ := sampleQueued_reach (fun _ _ => True) ()
  exact ⟨rfl, queued_pending_or_sent hreach⟩

/-- **Services that share the store lose nothing while each drain reads its
own rows**, or rows their own service has told. -/
theorem queued_pending_or_sent_by_own {Svc : Type} [DecidableEq Svc]
    {s : OutboxRun Svc}
    (hs : Journaled.Reach (outboxSystem OwnOrTold) s) {svc : Svc} {row : Retirement}
    (hqueued : (svc, row) ∈ s.world.queued) : row ∈ s.world.pending ∨ s.world.Sent svc row :=
  have hinv := Journaled.reach_inv (outboxOutline_valid fun _ _ h => h) hs
  (hinv.kept svc row hqueued).imp_right (hinv.sent svc row)

/-- Installation 9's row under a service that drains only its own. -/
theorem queued_pending_or_sent_by_own_sample :
    sampleRetirement ∈ (sampleQueued true).pending ∨
      (sampleQueued true).Sent true sampleRetirement := by
  obtain ⟨slots, hreach, -⟩ := sampleQueued_reach OwnOrTold true
  exact queued_pending_or_sent_by_own hreach (List.mem_singleton.2 rfl)

/-- **A drain of the other service swallows the row**: it is acknowledged,
and installation 9's object was never told. -/
theorem drain_swallows_others_row :
    ¬ ∀ (s : OutboxRun Bool),
      Journaled.Reach (outboxSystem fun _ _ => True) s → ∀ svc row,
        (svc, row) ∈ s.world.queued → row ∈ s.world.pending ∨ s.world.Sent svc row := by
  intro h
  obtain ⟨slots, h₀, hidle⟩ := sampleQueued_reach (fun _ _ => True) true
  have h₁ := h₀.invoke (false, 0) (runInstallationPurge 8) (hidle _ (by simp))
    ⟨.installationPurge 8, rfl⟩
  have h₂ := h₁.answer (false, 0) (.prune (.purgeInstallation 8)) (.ok {}) rfl
    (.inr ⟨[], samplePurged 8 [] (sampleQueued true).store, rfl, rfl, rfl⟩)
  have h₃ := h₂.answer (false, 0) .pendingRetirements (.ok [sampleRetirement]) rfl
    (.inr ⟨trivial, rfl, rfl⟩)
  have h₄ := h₃.answer (false, 0) (.closePullRequest ⟨1, 1⟩ ⟨none⟩) () rfl rfl
  have h₅ := h₄.answer (false, 0) (.acknowledgeRetirements 1) (.ok ()) rfl (.inr ⟨_, rfl, rfl, rfl⟩)
  rcases h _ h₅ true sampleRetirement (List.mem_singleton.2 rfl) with hpending | hsent
  · exact absurd hpending List.not_mem_nil
  · exact absurd (List.mem_singleton.1 hsent) (by simp)

end Dependaboard
