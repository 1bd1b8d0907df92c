import Mathlib.Data.List.Rotate
import Dependaboard.Rotation.Turns
import Dependaboard.Service.Rounds
/-!
# Service — the rounds go round the repositories

A round is filled from a ring: the queues as they stand from `start` on. One
visit takes the head of the queue at the front of the ring and puts the rest
of it at the back, empty or not (`turnOrder_visit`), so a round is the heads
of a block at the front, and the loop carries on with the ring as the block
leaves it (`fillRound_block`). The rounds together are therefore the ring
served in turn (`Lays.flatten_eq`), however many targets a round may hold.

`Lays` is the loop as the source writes it, which ends when a round comes
out empty and has no fuel.
-/

namespace Dependaboard

open Rotation

/-- The loop that lays out rounds, from the queue `start` on. -/
inductive Lays (maxConcurrent : ℕ+) : ℕ → List RepoQueue → List (List PrTarget) → Prop
  | stop {start : ℕ} {queues : List RepoQueue}
      (h : (fillRound maxConcurrent start queues.length ⟨[], queues, 0⟩).round = []) :
      Lays maxConcurrent start queues []
  | round {start : ℕ} {queues : List RepoQueue} {filled : Filling}
      {rounds : List (List PrTarget)}
      (hfilled : fillRound maxConcurrent start queues.length ⟨[], queues, 0⟩ = filled)
      (h : filled.round ≠ [])
      (hrest : Lays maxConcurrent ((start + filled.visited) % queues.length) filled.queues rounds) :
      Lays maxConcurrent start queues (filled.round :: rounds)

/-- The loop has one outcome. -/
theorem Lays.unique {maxConcurrent : ℕ+} {start : ℕ} {queues : List RepoQueue}
    {rounds rounds' : List (List PrTarget)} (h : Lays maxConcurrent start queues rounds)
    (h' : Lays maxConcurrent start queues rounds') : rounds = rounds' := by
  induction h generalizing rounds' with
  | stop hempty =>
    cases h' with
    | stop => rfl
    | round hfilled hne => exact absurd (hfilled ▸ hempty) hne
  | round hfilled hne hrest ih =>
    cases h' with
    | stop hempty => exact absurd (hfilled ▸ hempty) hne
    | round hfilled' hne' hrest' =>
      obtain rfl := hfilled.symm.trans hfilled'
      rw [ih hrest']

/-- **The loop ends**, in a turn for each target and one more. -/
theorem lays_planRounds (maxConcurrent : ℕ+) (fuel start : ℕ) (queues : List RepoQueue)
    (hfuel : (contents queues).length < fuel) :
    Lays maxConcurrent start queues (planRounds maxConcurrent fuel start queues) := by
  induction fuel generalizing start queues with
  | zero => omega
  | succ fuel ih =>
    have hlength := (fillRound_perm maxConcurrent start queues.length ⟨[], queues, 0⟩).length_eq
    unfold planRounds
    generalize hfilled : fillRound maxConcurrent start queues.length ⟨[], queues, 0⟩ = filled
      at hlength
    dsimp only
    by_cases hround : filled.round = []
    · rw [if_pos hround]
      exact .stop (hfilled ▸ hround)
    · rw [if_neg hround]
      refine .round hfilled hround (ih _ _ ?_)
      have hpos := List.length_pos_iff.2 hround
      simp only [List.nil_append, List.length_append] at hlength
      omega

theorem lays_planMergeRounds (targets : List PrTarget) (maxConcurrent : ℕ+) :
    Lays maxConcurrent 0 (repoQueues targets) (planMergeRounds targets maxConcurrent) := by
  refine lays_planRounds maxConcurrent _ _ _ ?_
  have := (contents_repoQueues targets).length_eq
  omega

/-! ## The ring -/

/-- The queues' targets in the order they are visited from `start` on. -/
def turnOrder (start : ℕ) (queues : List RepoQueue) : List (List PrTarget) :=
  (queues.map RepoQueue.targets).rotate start

@[simp] theorem length_turnOrder (start : ℕ) (queues : List RepoQueue) :
    (turnOrder start queues).length = queues.length := by
  rw [turnOrder, List.length_rotate, List.length_map]

theorem turnOrder_mod (start : ℕ) (queues : List RepoQueue) :
    turnOrder (start % queues.length) queues = turnOrder start queues := by
  have := List.rotate_mod (queues.map RepoQueue.targets) start
  rwa [List.length_map] at this

theorem flatten_turnOrder (start : ℕ) (queues : List RepoQueue) :
    (turnOrder start queues).flatten.Perm (contents queues) := by
  rw [contents, List.flatMap_def]
  exact (List.rotate_perm _ _).flatten

/-- The ring past a place is told by what is before it, at it and after it. -/
theorem turnOrder_past (before : List RepoQueue) (queue : RepoQueue) (after : List RepoQueue) :
    turnOrder (before.length + 1) (before ++ queue :: after)
      = (after ++ before).map RepoQueue.targets ++ [queue.targets] := by
  rw [turnOrder, List.map_append, List.map_cons, ← List.length_map RepoQueue.targets,
    rotate_past, List.map_append]

/-- **A visit serves the queue at the front of the ring.** -/
theorem turnOrder_visit (filling : Filling) (start : ℕ) (hpos : 0 < filling.queues.length) :
    ∃ queue rest, turnOrder start filling.queues = queue :: rest ∧
      (filling.visit (start % filling.queues.length)).round
        = filling.round ++ heads [queue] ∧
      (filling.visit (start % filling.queues.length)).queues.length = filling.queues.length ∧
      turnOrder (start + 1) (filling.visit (start % filling.queues.length)).queues
        = rest ++ [queue.tail] := by
  obtain ⟨round, queues, visited⟩ := filling
  dsimp only at hpos ⊢
  have hstart := turnOrder_mod start queues
  have hnext (queues' : List RepoQueue) (hlength : queues'.length = queues.length) :
      turnOrder (start + 1) queues' = turnOrder (start % queues.length + 1) queues' := by
    rw [← turnOrder_mod (start % queues.length + 1), ← turnOrder_mod (start + 1), hlength,
      Nat.mod_add_mod]
  obtain ⟨before, ⟨repositoryId, targets⟩, after, hsplit, hplace⟩ :=
    exists_split (Nat.mod_lt start hpos)
  rw [← hplace] at hstart hnext ⊢
  subst hsplit
  have hsame (queue : RepoQueue) : (before ++ queue :: after).length
      = (before ++ ⟨repositoryId, targets⟩ :: after).length := by
    simp only [List.length_append, List.length_cons]
  have hvisited : (before ++ ⟨repositoryId, targets⟩ :: after)[before.length]?
      = some ⟨repositoryId, targets⟩ := by
    rw [List.getElem?_append_right (Nat.le_refl _), Nat.sub_self, List.getElem?_cons_zero]
  refine ⟨targets, (after ++ before).map RepoQueue.targets, ?_, ?_⟩
  · rw [← hstart, turnOrder, List.map_append, List.map_cons, ← List.length_map RepoQueue.targets,
      rotate_at, List.map_append]
  · cases targets with
    | nil =>
      simp only [Filling.visit, hvisited]
      refine ⟨by simp [heads], trivial, ?_⟩
      rw [hnext _ rfl, turnOrder_past]
      rfl
    | cons target rest =>
      have hset : (before ++ ⟨repositoryId, target :: rest⟩ :: after).set before.length
          ⟨repositoryId, rest⟩ = before ++ ⟨repositoryId, rest⟩ :: after := by
        rw [List.set_append_right _ _ (Nat.le_refl _), Nat.sub_self, List.set_cons_zero]
      simp only [Filling.visit, hvisited, hset]
      refine ⟨by simp [heads], hsame _, ?_⟩
      rw [hnext _ (hsame _), turnOrder_past]
      rfl

/-- **A round is the heads of a block at the front of the ring**, which goes
to the back; it is of every queue unless the round is full. -/
theorem fillRound_block (maxConcurrent : ℕ+) (start left : ℕ) (filling : Filling)
    (hleft : left ≤ filling.queues.length) :
    ∃ block rest, turnOrder (start + filling.visited) filling.queues = block ++ rest ∧
      block.length ≤ left ∧
      (fillRound maxConcurrent start left filling).round = filling.round ++ heads block ∧
      turnOrder (start + (fillRound maxConcurrent start left filling).visited)
          (fillRound maxConcurrent start left filling).queues = rest ++ block.map List.tail ∧
      (fillRound maxConcurrent start left filling).queues.length = filling.queues.length ∧
      (block.length = left ∨
        maxConcurrent ≤ (fillRound maxConcurrent start left filling).round.length) := by
  induction left generalizing filling with
  | zero =>
    exact ⟨[], _, rfl, Nat.le_refl _, (List.append_nil _).symm, (List.append_nil _).symm, rfl,
      .inl rfl⟩
  | succ left ih =>
    unfold fillRound
    split
    · next hroom =>
      obtain ⟨queue, rest, horder, hround, hlength, hmoved⟩ :=
        turnOrder_visit filling (start + filling.visited) (by omega)
      have hcount := congrArg List.length horder
      rw [length_turnOrder, List.length_cons] at hcount
      generalize hvisit : filling.visit ((start + filling.visited) % filling.queues.length)
        = visit at hround hlength hmoved
      have hvisited : visit.visited = filling.visited + 1 := by rw [← hvisit, visited_visit]
      obtain ⟨block, rest', hsplit, hblock, hfilled, hring, hsame, hfull⟩ := ih visit (by omega)
      rw [hvisited, ← Nat.add_assoc, hmoved] at hsplit
      -- the block ends before the queue just put at the back
      obtain ⟨between, rfl, rfl⟩ : ∃ between, rest = block ++ between ∧
          rest' = between ++ [queue.tail] := by
        rcases List.append_eq_append_iff.1 hsplit with ⟨extra, hbeyond, hback⟩ | hwithin
        · have hnone : extra = [] := by
            rw [← List.length_eq_zero_iff]
            have := congrArg List.length hbeyond
            rw [List.length_append] at this
            omega
          subst hnone
          exact ⟨[], by simpa using hbeyond.symm, by simpa using hback.symm⟩
        · exact hwithin
      refine ⟨queue :: block, between, horder, Nat.succ_le_succ hblock, ?_, ?_, ?_, ?_⟩
      · rw [hfilled, hround, List.append_assoc, ← heads_append, List.singleton_append]
      · rw [hring, List.append_assoc, List.singleton_append, List.map_cons]
      · rw [hsame, hlength]
      · exact hfull.imp_left fun h => congrArg (· + 1) h
    · next hfull =>
      exact ⟨[], _, rfl, Nat.zero_le _, (List.append_nil _).symm, (List.append_nil _).symm, rfl,
        .inr (by omega)⟩

/-- A round is never longer than it may be. -/
theorem length_fillRound_le (maxConcurrent : ℕ+) (start left : ℕ) (filling : Filling)
    (h : filling.round.length ≤ maxConcurrent) :
    (fillRound maxConcurrent start left filling).round.length ≤ maxConcurrent := by
  induction left generalizing filling with
  | zero => exact h
  | succ left ih =>
    unfold fillRound
    split
    · next hroom =>
      refine ih _ ?_
      rcases visit_cases filling ((start + filling.visited) % filling.queues.length) with
        ⟨target, hround, -⟩ | ⟨hround, -, -⟩
      · rw [hround, List.length_append, List.length_singleton]
        omega
      · rw [hround]
        exact h
    · exact h

/-- **What a round takes and leaves**: the heads of a block at the front of
the ring, as many as there are or as the round may hold. -/
theorem round_block (maxConcurrent : ℕ+) (start : ℕ) (queues : List RepoQueue) {filled : Filling}
    (hfilled : fillRound maxConcurrent start queues.length ⟨[], queues, 0⟩ = filled) :
    ∃ block rest, turnOrder start queues = block ++ rest ∧ filled.round = heads block ∧
      turnOrder ((start + filled.visited) % queues.length) filled.queues
        = rest ++ block.map List.tail ∧
      filled.round.length = min (maxConcurrent : ℕ) (heads (turnOrder start queues)).length := by
  obtain ⟨block, rest, horder, hblock, hround, hring, hlength, hfull⟩ :=
    fillRound_block maxConcurrent start queues.length ⟨[], queues, 0⟩ (Nat.le_refl _)
  have hle := length_fillRound_le maxConcurrent start queues.length ⟨[], queues, 0⟩
    (Nat.zero_le _)
  rw [hfilled] at hround hring hlength hfull hle
  simp only [Nat.add_zero, List.nil_append] at horder hround hlength
  refine ⟨block, rest, horder, hround, ?_, ?_⟩
  · rw [← hlength, turnOrder_mod, hring]
  · have hheads : (heads (turnOrder start queues)).length
        = filled.round.length + (heads rest).length := by
      rw [horder, heads_append, List.length_append, hround]
    rcases hfull with hall | hfull
    · have hrest : rest = [] := by
        have := congrArg List.length horder
        rw [length_turnOrder, List.length_append] at this
        exact List.length_eq_zero_iff.1 (by omega)
      rw [hrest, heads_nil, List.length_nil, Nat.add_zero] at hheads
      rw [hheads]
      omega
    · rw [hheads]
      omega

/-! ## The rounds -/

namespace Lays

variable {maxConcurrent : ℕ+} {start : ℕ} {queues : List RepoQueue}
  {rounds : List (List PrTarget)}

/-- **The rounds together are the ring served in turn**, however many
targets one may hold. -/
theorem flatten_eq (h : Lays maxConcurrent start queues rounds) :
    rounds.flatten = turns (turnOrder start queues) := by
  induction h with
  | @stop start queues hempty =>
    have hperm := (turns_perm (turnOrder start queues)).trans (flatten_turnOrder start queues)
    rw [contents_of_fillRound_empty hempty] at hperm
    exact hperm.eq_nil.symm
  | round hfilled hne hrest ih =>
    obtain ⟨block, rest, horder, hround, hring, -⟩ := round_block _ _ _ hfilled
    rw [List.flatten_cons, ih, hring, hround, horder, turns_append block rest]

/-- **Each round holds a target, no more than it may, and no two of one
repository.** -/
theorem rounds_safe (h : Lays maxConcurrent start queues rounds)
    (hapart : Apart PrTarget.repositoryId (turnOrder start queues)) :
    ∀ round ∈ rounds, round ≠ [] ∧ round.length ≤ maxConcurrent ∧
      (round.map PrTarget.repositoryId).Nodup := by
  induction h with
  | stop => exact nofun
  | round hfilled hne hrest ih =>
    obtain ⟨block, rest, horder, hround, hring, hlength⟩ := round_block _ _ _ hfilled
    rw [horder] at hapart
    rw [hring] at ih
    intro round hmem
    rcases List.mem_cons.1 hmem with rfl | hlater
    · refine ⟨hne, by omega, ?_⟩
      rw [hround]
      exact (hapart.sublist (List.sublist_append_left _ _)).nodup_heads
    · exact ih hapart.served round hlater

/-- **Each round is as full as it can be**: of every repository with a
target left, or full. -/
theorem rounds_full (h : Lays maxConcurrent start queues rounds)
    (hapart : Apart PrTarget.repositoryId (turnOrder start queues))
    {before after : List (List PrTarget)} {round : List PrTarget}
    (hrounds : rounds = before ++ round :: after) :
    round.length = min (maxConcurrent : ℕ)
      ((round ++ after.flatten).map PrTarget.repositoryId).toFinset.card := by
  induction h generalizing before with
  | stop => simp at hrounds
  | @round start queues filled rounds hfilled hne hrest ih =>
    obtain ⟨block, rest, horder, hround, hring, hlength⟩ := round_block _ _ _ hfilled
    cases before with
    | nil =>
      rw [List.nil_append, List.cons.injEq] at hrounds
      obtain ⟨rfl, rfl⟩ := hrounds
      have hleft := (Lays.round hfilled hne hrest).flatten_eq
      rw [List.flatten_cons] at hleft
      have hkeys := List.toFinset_eq_of_perm _ _
        ((turns_perm (turnOrder start queues)).map PrTarget.repositoryId)
      rw [hleft, hkeys, ← hapart.length_heads]
      exact hlength
    | cons first before =>
      rw [List.cons_append, List.cons.injEq] at hrounds
      rw [hring] at ih
      rw [horder] at hapart
      exact ih hapart.served hrounds.2

end Lays

/-! ## The batch's own order -/

/-- The repositories in the order a batch first names them. -/
def firstNamed (targets : List PrTarget) : List ℕ :=
  (targets.map PrTarget.repositoryId).eraseDups

/-- The pull requests a batch names of a repository. -/
def ofRepository (targets : List PrTarget) (repositoryId : ℕ) : List PrTarget :=
  targets.filter fun target => target.repositoryId = repositoryId

theorem mem_firstNamed {targets : List PrTarget} {repositoryId : ℕ} :
    repositoryId ∈ firstNamed targets ↔
      ∃ target ∈ targets, target.repositoryId = repositoryId := by
  rw [firstNamed, List.mem_eraseDups, List.mem_map]

theorem firstNamed_append (targets : List PrTarget) (target : PrTarget) :
    firstNamed (targets ++ [target])
      = if target.repositoryId ∈ firstNamed targets then firstNamed targets
        else firstNamed targets ++ [target.repositoryId] := by
  have happend : (targets.map PrTarget.repositoryId ++ [target.repositoryId]).eraseDups = _ :=
    List.eraseDups_append
  rw [← List.map_singleton, ← List.map_append] at happend
  rw [firstNamed, happend, ← firstNamed]
  by_cases h : target.repositoryId ∈ firstNamed targets
  · have hmem : target.repositoryId ∈ targets.map PrTarget.repositoryId := List.mem_eraseDups.1 h
    rw [if_pos h, List.map_singleton, List.removeAll, List.filter_cons_of_neg (by simpa using hmem)]
    simp
  · have hnone : target.repositoryId ∉ targets.map PrTarget.repositoryId :=
      fun hmem => h (List.mem_eraseDups.2 hmem)
    rw [if_neg h, List.map_singleton, List.removeAll,
      List.filter_cons_of_pos (by simpa using hnone)]
    simp [List.eraseDups_cons]

theorem nodup_firstNamed (targets : List PrTarget) : (firstNamed targets).Nodup := by
  induction targets using List.reverseRecOn with
  | nil => exact List.nodup_nil
  | append_singleton targets target ih =>
    rw [firstNamed_append]
    split
    · exact ih
    · next hnew =>
      refine List.nodup_append.2 ⟨ih, List.nodup_singleton _, ?_⟩
      rintro id hid id' hid' rfl
      exact hnew (List.mem_singleton.1 hid' ▸ hid)

theorem ofRepository_append (targets : List PrTarget) (target : PrTarget) (repositoryId : ℕ) :
    ofRepository (targets ++ [target]) repositoryId
      = if target.repositoryId = repositoryId then ofRepository targets repositoryId ++ [target]
        else ofRepository targets repositoryId := by
  rw [ofRepository, List.filter_append]
  split
  · next h => simp [h, ofRepository]
  · next h => simp [h, ofRepository]

theorem repositoryId_of_mem {targets : List PrTarget} {repositoryId : ℕ} {target : PrTarget}
    (h : target ∈ ofRepository targets repositoryId) : target.repositoryId = repositoryId := by
  simpa using List.of_mem_filter h

/-- A queue for each of some repositories. -/
def queuesOf (targets : List PrTarget) (repositories : List ℕ) : List RepoQueue :=
  repositories.map fun id => ⟨id, ofRepository targets id⟩

/-- A target leaves the queues of the other repositories alone. -/
theorem queuesOf_append {targets : List PrTarget} {target : PrTarget} {repositories : List ℕ}
    (h : target.repositoryId ∉ repositories) :
    queuesOf (targets ++ [target]) repositories = queuesOf targets repositories := by
  refine List.map_congr_left fun id hid => ?_
  have hne : target.repositoryId ≠ id := fun heq => h (heq ▸ hid)
  rw [ofRepository_append, if_neg hne]

/-- A target of a repository with a queue goes to the end of it. -/
theorem enqueue_of_mem {targets : List PrTarget} {target : PrTarget} {repositories : List ℕ}
    (hnodup : repositories.Nodup) (h : target.repositoryId ∈ repositories) :
    enqueue target (queuesOf targets repositories)
      = queuesOf (targets ++ [target]) repositories := by
  induction repositories with
  | nil => exact absurd h List.not_mem_nil
  | cons first rest ih =>
    obtain ⟨hfirst, hrest⟩ := List.nodup_cons.1 hnodup
    by_cases heq : first = target.repositoryId
    · subst heq
      have hothers : queuesOf (targets ++ [target]) rest = queuesOf targets rest :=
        queuesOf_append hfirst
      simp only [queuesOf, List.map_cons, enqueue, if_true] at hothers ⊢
      rw [hothers, ofRepository_append, if_pos rfl]
    · have hlater : target.repositoryId ∈ rest :=
        (List.mem_cons.1 h).resolve_left fun hsame => heq hsame.symm
      have hothers := ih hrest hlater
      simp only [queuesOf, List.map_cons, enqueue, if_neg heq] at hothers ⊢
      rw [hothers, ofRepository_append, if_neg fun hsame => heq hsame.symm]

/-- A target of a repository without one starts a queue. -/
theorem enqueue_of_notMem {targets : List PrTarget} {target : PrTarget} {repositories : List ℕ}
    (h : target.repositoryId ∉ repositories) :
    enqueue target (queuesOf targets repositories)
      = queuesOf targets repositories ++ [⟨target.repositoryId, [target]⟩] := by
  induction repositories with
  | nil => rfl
  | cons first rest ih =>
    obtain ⟨hne, hrest⟩ := not_or.1 (mt List.mem_cons.2 h)
    have := ih hrest
    simp only [queuesOf, List.map_cons, enqueue, if_neg (Ne.symm hne), List.cons_append] at this ⊢
    rw [this]

/-- **The queues are the batch's repositories in the order it first names
them, each with its pull requests in batch order.** -/
theorem repoQueues_eq (targets : List PrTarget) :
    repoQueues targets = queuesOf targets (firstNamed targets) := by
  induction targets using List.reverseRecOn with
  | nil => rfl
  | append_singleton targets target ih =>
    have hstep : repoQueues (targets ++ [target]) = enqueue target (repoQueues targets) := by
      rw [repoQueues, List.foldl_concat, repoQueues]
    rw [hstep, ih, firstNamed_append]
    by_cases h : target.repositoryId ∈ firstNamed targets
    · rw [if_pos h, enqueue_of_mem (nodup_firstNamed targets) h]
    · have hnone : ofRepository targets target.repositoryId = [] := by
        rw [ofRepository, List.filter_eq_nil_iff]
        intro other hother hsame
        exact h (mem_firstNamed.2 ⟨other, hother, of_decide_eq_true hsame⟩)
      have hstarted : queuesOf (targets ++ [target]) [target.repositoryId]
          = [⟨target.repositoryId, [target]⟩] := by
        simp [queuesOf, ofRepository_append, hnone]
      rw [if_neg h, enqueue_of_notMem h, ← queuesOf_append h, ← hstarted, queuesOf, queuesOf,
        queuesOf, List.map_append]

/-- The queues of a batch, in the order they are first visited. -/
theorem turnOrder_repoQueues (targets : List PrTarget) :
    turnOrder 0 (repoQueues targets) = (firstNamed targets).map (ofRepository targets) := by
  rw [turnOrder, List.rotate_zero, repoQueues_eq, queuesOf, List.map_map]
  rfl

/-- They are told apart by their repository. -/
theorem apart_ofRepository (targets : List PrTarget) :
    Apart PrTarget.repositoryId ((firstNamed targets).map (ofRepository targets)) where
  alike := by
    intro queue hqueue x hx y hy
    obtain ⟨id, -, rfl⟩ := List.mem_map.1 hqueue
    rw [repositoryId_of_mem hx, repositoryId_of_mem hy]
  apart := by
    rw [List.pairwise_map]
    refine (nodup_firstNamed targets).imp fun hne x hx y hy heq => hne ?_
    rw [← repositoryId_of_mem hx, heq, repositoryId_of_mem hy]

/-- What some of the queues hold of one repository. -/
theorem ofRepository_flatten (targets : List PrTarget) {repositories : List ℕ}
    (hnodup : repositories.Nodup) (repositoryId : ℕ) :
    ofRepository (repositories.map (ofRepository targets)).flatten repositoryId
      = if repositoryId ∈ repositories then ofRepository targets repositoryId else [] := by
  induction repositories with
  | nil => rfl
  | cons first rest ih =>
    obtain ⟨hfirst, hrest⟩ := List.nodup_cons.1 hnodup
    have hsplit : ofRepository ((first :: rest).map (ofRepository targets)).flatten repositoryId
        = ofRepository (ofRepository targets first) repositoryId
          ++ ofRepository (rest.map (ofRepository targets)).flatten repositoryId :=
      List.filter_append _ _
    rw [hsplit, ih hrest]
    by_cases heq : first = repositoryId
    · subst heq
      have hall : ofRepository (ofRepository targets first) first = ofRepository targets first :=
        List.filter_eq_self.2 fun target htarget => decide_eq_true (repositoryId_of_mem htarget)
      rw [hall, if_neg hfirst, if_pos List.mem_cons_self, List.append_nil]
    · have hnone : ofRepository (ofRepository targets first) repositoryId = [] := by
        rw [ofRepository, List.filter_eq_nil_iff]
        intro target htarget hsame
        exact heq ((repositoryId_of_mem htarget).symm.trans (of_decide_eq_true hsame))
      have hmem : repositoryId ∈ first :: rest ↔ repositoryId ∈ rest := by
        simp [Ne.symm heq]
      simp only [hnone, List.nil_append, hmem]

/-- The queues hold of each repository what the batch does. -/
theorem ofRepository_queues (targets : List PrTarget) (repositoryId : ℕ) :
    ofRepository ((firstNamed targets).map (ofRepository targets)).flatten repositoryId
      = ofRepository targets repositoryId := by
  rw [ofRepository_flatten targets (nodup_firstNamed targets)]
  split
  · rfl
  · next hnone =>
    symm
    rw [ofRepository, List.filter_eq_nil_iff]
    intro target htarget hsame
    exact hnone (mem_firstNamed.2 ⟨target, htarget, of_decide_eq_true hsame⟩)

/-- The rounds of a batch, one after another. -/
theorem flatten_planMergeRounds (targets : List PrTarget) (maxConcurrent : ℕ+) :
    (planMergeRounds targets maxConcurrent).flatten
      = turns ((firstNamed targets).map (ofRepository targets)) := by
  rw [(lays_planMergeRounds targets maxConcurrent).flatten_eq, turnOrder_repoQueues]

/-- The batch's targets not in the first rounds are those of the others. -/
theorem diff_rounds {targets : List PrTarget} {before rest : List (List PrTarget)}
    (h : (before ++ rest).flatten.Perm targets) :
    (targets.diff before.flatten).Perm rest.flatten := by
  rw [List.flatten_append] at h
  have hrest : (before.flatten ++ rest.flatten).diff before.flatten = rest.flatten := by
    induction before.flatten with
    | nil => rfl
    | cons target sent ih => simpa using ih
  rw [← hrest]
  exact h.symm.diff_right _

/-- **Merge rounds are safe and complete.** The loop ends, in one way. No
round is empty, holds more than it may, or two pull requests of one
repository; every target is in the rounds as often as in the batch; and each
repository's come in batch order. -/
theorem planMergeRounds_safe_complete (targets : List PrTarget) (maxConcurrent : ℕ+) :
    (∀ rounds, Lays maxConcurrent 0 (repoQueues targets) rounds
      ↔ rounds = planMergeRounds targets maxConcurrent) ∧
    (∀ round ∈ planMergeRounds targets maxConcurrent, round ≠ [] ∧
      round.length ≤ maxConcurrent ∧ (round.map PrTarget.repositoryId).Nodup) ∧
    (∀ target, (planMergeRounds targets maxConcurrent).flatten.count target
      = targets.count target) ∧
    ∀ repositoryId, ofRepository (planMergeRounds targets maxConcurrent).flatten repositoryId
      = ofRepository targets repositoryId := by
  have hlays := lays_planMergeRounds targets maxConcurrent
  have hapart := apart_ofRepository targets
  refine ⟨fun rounds => ⟨fun h => h.unique hlays, fun h => h ▸ hlays⟩, ?_, ?_, ?_⟩
  · rw [← turnOrder_repoQueues] at hapart
    exact hlays.rounds_safe hapart
  · exact fun target => (planMergeRounds_flatten targets maxConcurrent).count_eq target
  · intro repositoryId
    rw [flatten_planMergeRounds, ← ofRepository_queues targets repositoryId]
    exact hapart.filter_turns repositoryId

/-- **Merge rounds are as full and as fair as they can be.** A round is of
every repository with a target not sent before it, or of as many as it may
hold. Together the rounds are the repositories served in turn, in the order
the batch first names them, whatever the bound: between two turns of one
repository every other with a target left has exactly one. -/
theorem planMergeRounds_full_fair (targets : List PrTarget) (maxConcurrent : ℕ+) :
    (∀ before round after, planMergeRounds targets maxConcurrent = before ++ round :: after →
      round.length = min (maxConcurrent : ℕ)
        ((targets.diff before.flatten).map PrTarget.repositoryId).toFinset.card) ∧
    (planMergeRounds targets maxConcurrent).flatten
      = turns ((firstNamed targets).map (ofRepository targets)) ∧
    ∀ before target between next after,
      (planMergeRounds targets maxConcurrent).flatten
        = before ++ target :: (between ++ next :: after) →
      next.repositoryId = target.repositoryId →
      (∀ other ∈ between, other.repositoryId ≠ target.repositoryId) →
      ∀ repositoryId ≠ target.repositoryId,
        repositoryId ∈ (between ++ next :: after).map PrTarget.repositoryId →
        (between.map PrTarget.repositoryId).count repositoryId = 1 := by
  have hlays := lays_planMergeRounds targets maxConcurrent
  have hapart := apart_ofRepository targets
  refine ⟨fun before round after hrounds => ?_, flatten_planMergeRounds targets maxConcurrent, ?_⟩
  · have hperm := planMergeRounds_flatten targets maxConcurrent
    rw [hrounds] at hperm
    have hkeys := List.toFinset_eq_of_perm _ _
      ((diff_rounds hperm).map PrTarget.repositoryId)
    rw [hkeys, List.flatten_cons]
    rw [← turnOrder_repoQueues] at hapart
    exact hlays.rounds_full hapart hrounds
  · intro before target between next after hflatten hnext hnone repositoryId hne hleft
    rw [flatten_planMergeRounds] at hflatten
    exact hapart.count_between hflatten hnext hnone hne hleft

end Dependaboard
