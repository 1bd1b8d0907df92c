import Mathlib.Data.PNat.Notation
import Mathlib.Data.List.Perm.Basic
import Dependaboard.Core.Requests
/-!
# Service — the rounds of a batch

A merge batch goes out in rounds that never hold two pull requests of one
repository: each round takes the next of up to `maxConcurrent` repositories,
going round them from where the last round left off. A branch-update batch
goes out in slices. Either way every target is in exactly one round, which
is `planMergeRounds_flatten` and `flatten_chunks`.

The loop that lays out rounds ends when one comes out empty; its fuel is one
round for each target and the empty one, and `planRounds_flatten` is that it
is never short.
-/

namespace Dependaboard

/-- A repository's pull requests still to be sent, in batch order. -/
structure RepoQueue where
  repositoryId : ℕ
  targets : List PrTarget
  deriving DecidableEq, Repr

/-- Put a target at the end of its repository's queue. -/
def enqueue (target : PrTarget) : List RepoQueue → List RepoQueue
  | [] => [⟨target.repositoryId, [target]⟩]
  | queue :: rest =>
    if queue.repositoryId = target.repositoryId then
      { queue with targets := queue.targets ++ [target] } :: rest
    else queue :: enqueue target rest

/-- Each repository's pull requests in batch order, the repositories in the
order the batch first names them. -/
def repoQueues (targets : List PrTarget) : List RepoQueue :=
  targets.foldl (fun queues target => enqueue target queues) []

/-- A round as it fills: what it holds, what the queues still hold, and how
many of them it has visited. -/
structure Filling where
  round : List PrTarget
  queues : List RepoQueue
  visited : ℕ
  deriving DecidableEq, Repr

/-- Visit the queue at `index`, taking its first target if it has one. -/
def Filling.visit (filling : Filling) (index : ℕ) : Filling :=
  match filling.queues[index]? with
  | some ⟨repositoryId, target :: rest⟩ =>
    { round := filling.round ++ [target]
      queues := filling.queues.set index ⟨repositoryId, rest⟩
      visited := filling.visited + 1 }
  | _ => { filling with visited := filling.visited + 1 }

/-- Fill a round from the queue `start` on, at most `left` queues more. -/
def fillRound (maxConcurrent : ℕ+) (start : ℕ) : ℕ → Filling → Filling
  | 0, filling => filling
  | left + 1, filling =>
    if filling.round.length < maxConcurrent then
      fillRound maxConcurrent start left
        (filling.visit ((start + filling.visited) % filling.queues.length))
    else filling

/-- The rounds from the queue `start` on, until one comes out empty. -/
def planRounds (maxConcurrent : ℕ+) : ℕ → ℕ → List RepoQueue → List (List PrTarget)
  | 0, _, _ => []
  | fuel + 1, start, queues =>
    let filled := fillRound maxConcurrent start queues.length ⟨[], queues, 0⟩
    if filled.round = [] then []
    else filled.round ::
      planRounds maxConcurrent fuel ((start + filled.visited) % queues.length) filled.queues

/-- The rounds a merge batch is sent in. -/
def planMergeRounds (targets : List PrTarget) (maxConcurrent : ℕ+) : List (List PrTarget) :=
  planRounds maxConcurrent (targets.length + 1) 0 (repoQueues targets)

/-- Slices of `size` elements, the last as long as what is left. -/
def chunks {α : Type} (size : ℕ+) : List α → List (List α)
  | [] => []
  | x :: rest => (x :: rest).take size :: chunks size ((x :: rest).drop size)
termination_by xs => xs.length
decreasing_by
  have hpos : 0 < (size : ℕ) := size.property
  simp only [List.length_drop, List.length_cons]
  omega

/-! ## Every target in one round -/

/-- The slices together are the list. -/
theorem flatten_chunks {α : Type} (size : ℕ+) (xs : List α) : (chunks size xs).flatten = xs := by
  fun_induction chunks size xs with
  | case1 => rfl
  | case2 x rest ih => rw [List.flatten_cons, ih, List.take_append_drop]

/-- What the queues hold. -/
def contents (queues : List RepoQueue) : List PrTarget := queues.flatMap RepoQueue.targets

theorem contents_enqueue (target : PrTarget) (queues : List RepoQueue) :
    (contents (enqueue target queues)).Perm (contents queues ++ [target]) := by
  induction queues with
  | nil => exact .refl _
  | cons queue rest ih =>
    unfold enqueue
    by_cases h : queue.repositoryId = target.repositoryId
    · rw [if_pos h]
      simp only [contents, List.flatMap_cons, List.append_assoc]
      exact List.perm_append_comm.append_left _
    · rw [if_neg h]
      simp only [contents, List.flatMap_cons, List.append_assoc] at ih ⊢
      exact ih.append_left _

/-- The queues hold the batch. -/
theorem contents_repoQueues (targets : List PrTarget) :
    (contents (repoQueues targets)).Perm targets := by
  have hfold : ∀ (rest : List PrTarget) (queues : List RepoQueue),
      (contents (rest.foldl (fun queues target => enqueue target queues) queues)).Perm
        (contents queues ++ rest) := by
    intro rest
    induction rest with
    | nil => intro queues; simp
    | cons target rest ih =>
      intro queues
      refine (ih (enqueue target queues)).trans ?_
      have := (contents_enqueue target queues).append_right rest
      simpa using this
  exact hfold targets []

/-- A queue's first target taken is the contents less it. -/
theorem contents_set {queues : List RepoQueue} {index repositoryId : ℕ} {target : PrTarget}
    {rest : List PrTarget} (h : queues[index]? = some ⟨repositoryId, target :: rest⟩) :
    (contents queues).Perm (target :: contents (queues.set index ⟨repositoryId, rest⟩)) := by
  induction queues generalizing index with
  | nil => cases h
  | cons queue tail ih =>
    cases index with
    | zero =>
      rw [List.getElem?_cons_zero, Option.some_inj] at h
      subst h
      exact .refl _
    | succ index =>
      rw [List.getElem?_cons_succ] at h
      have := (ih h).append_left queue.targets
      exact this.trans List.perm_middle

/-- **A visit moves a target from its queue to the round**, or finds the
queue empty and moves none. -/
theorem visit_cases (filling : Filling) (index : ℕ) :
    (∃ target, (filling.visit index).round = filling.round ++ [target] ∧
        (contents filling.queues).Perm (target :: contents (filling.visit index).queues)) ∨
      ((filling.visit index).round = filling.round ∧
        (filling.visit index).queues = filling.queues ∧
        ∀ queue, filling.queues[index]? = some queue → queue.targets = []) := by
  unfold Filling.visit
  split
  · next repositoryId target rest h => exact .inl ⟨target, rfl, contents_set h⟩
  · next hnone =>
    refine .inr ⟨rfl, rfl, fun queue hqueue => ?_⟩
    cases hq : queue.targets with
    | nil => rfl
    | cons target rest =>
      refine absurd ?_ (hnone queue.repositoryId target rest)
      rw [hqueue, ← hq]

@[simp] theorem visited_visit (filling : Filling) (index : ℕ) :
    (filling.visit index).visited = filling.visited + 1 := by
  unfold Filling.visit
  split <;> rfl

/-- Filling a round neither loses a target nor makes one. -/
theorem fillRound_perm (maxConcurrent : ℕ+) (start left : ℕ) (filling : Filling) :
    (filling.round ++ contents filling.queues).Perm
      ((fillRound maxConcurrent start left filling).round
        ++ contents (fillRound maxConcurrent start left filling).queues) := by
  induction left generalizing filling with
  | zero => exact .refl _
  | succ left ih =>
    unfold fillRound
    split
    · refine List.Perm.trans ?_ (ih _)
      rcases visit_cases filling ((start + filling.visited) % filling.queues.length) with
        ⟨target, hround, hperm⟩ | ⟨hround, hqueues, -⟩
      · rw [hround, List.append_assoc]
        exact hperm.append_left _
      · rw [hround, hqueues]
    · exact .refl _

/-- A round that comes out empty found every queue it visited empty. -/
theorem fillRound_empty {maxConcurrent : ℕ+} {start left : ℕ} {filling : Filling}
    (h : (fillRound maxConcurrent start left filling).round = []) :
    filling.round = [] ∧ ∀ j < left, ∀ queue,
      filling.queues[(start + (filling.visited + j)) % filling.queues.length]? = some queue →
        queue.targets = [] := by
  induction left generalizing filling with
  | zero => exact ⟨h, nofun⟩
  | succ left ih =>
    unfold fillRound at h
    split at h
    · obtain ⟨hround, hempty⟩ := ih h
      rcases visit_cases filling ((start + filling.visited) % filling.queues.length) with
        ⟨target, hmoved, -⟩ | ⟨hsame, hqueues, hnow⟩
      · simp [hround] at hmoved
      · refine ⟨hsame ▸ hround, fun j hj queue hqueue => ?_⟩
        rcases Nat.eq_zero_or_pos j with rfl | hpos
        · exact hnow queue hqueue
        · refine hempty (j - 1) (by omega) queue ?_
          have hvisited : filling.visited + 1 + (j - 1) = filling.visited + j := by omega
          rw [visited_visit, hqueues, hvisited]
          exact hqueue
    · next hfull =>
      have hpos : 0 < (maxConcurrent : ℕ) := maxConcurrent.property
      rw [h, List.length_nil] at hfull
      omega

/-- Going round `n` places from any one reaches each. -/
theorem exists_mod_eq {n i : ℕ} (start : ℕ) (h : i < n) : ∃ j < n, (start + j) % n = i := by
  have hlt : start % n < n := Nat.mod_lt _ (by omega)
  rcases Nat.lt_or_ge i (start % n) with hbehind | hahead
  · refine ⟨i + n - start % n, by omega, ?_⟩
    rw [← Nat.mod_add_mod]
    have hsum : start % n + (i + n - start % n) = i + n := by omega
    rw [hsum, Nat.add_mod_right, Nat.mod_eq_of_lt h]
  · refine ⟨i - start % n, by omega, ?_⟩
    rw [← Nat.mod_add_mod]
    have hsum : start % n + (i - start % n) = i := by omega
    rw [hsum, Nat.mod_eq_of_lt h]

/-- **A round comes out empty only when nothing is left.** -/
theorem contents_of_fillRound_empty {maxConcurrent : ℕ+} {start : ℕ} {queues : List RepoQueue}
    (h : (fillRound maxConcurrent start queues.length ⟨[], queues, 0⟩).round = []) :
    contents queues = [] := by
  obtain ⟨-, hempty⟩ := fillRound_empty h
  unfold contents
  rw [List.flatMap_eq_nil_iff]
  intro queue hqueue
  obtain ⟨i, hi, rfl⟩ := List.mem_iff_getElem.1 hqueue
  obtain ⟨j, hj, hmod⟩ := exists_mod_eq start hi
  refine hempty j hj _ ?_
  have hindex : (start + (0 + j)) % queues.length = i := by rw [Nat.zero_add, hmod]
  rw [hindex, List.getElem?_eq_getElem hi]

/-- **The rounds together are what the queues hold**, given a turn of the
loop for each target and one more. -/
theorem planRounds_flatten (maxConcurrent : ℕ+) (fuel start : ℕ) (queues : List RepoQueue)
    (hfuel : (contents queues).length < fuel) :
    (planRounds maxConcurrent fuel start queues).flatten.Perm (contents queues) := by
  induction fuel generalizing start queues with
  | zero => omega
  | succ fuel ih =>
    unfold planRounds
    have hperm := fillRound_perm maxConcurrent start queues.length ⟨[], queues, 0⟩
    rw [List.nil_append] at hperm
    generalize hfilled : fillRound maxConcurrent start queues.length ⟨[], queues, 0⟩ = filled
      at hperm
    by_cases hround : filled.round = []
    · have hempty : (fillRound maxConcurrent start queues.length ⟨[], queues, 0⟩).round = [] := by
        rw [hfilled, hround]
      have hnone := contents_of_fillRound_empty hempty
      simp only [hround, if_pos, hnone, List.flatten_nil, List.Perm.refl]
    · have hlength := hperm.length_eq
      have hpos := List.length_pos_iff.2 hround
      rw [List.length_append] at hlength
      have hrest := ih ((start + filled.visited) % queues.length) filled.queues
        (by dsimp only at hlength; omega)
      simp only [if_neg hround, List.flatten_cons]
      exact (hrest.append_left _).trans hperm.symm

/-- **Every target lands in exactly one round.** -/
theorem planMergeRounds_flatten (targets : List PrTarget) (maxConcurrent : ℕ+) :
    (planMergeRounds targets maxConcurrent).flatten.Perm targets := by
  have hcontents := contents_repoQueues targets
  refine (planRounds_flatten maxConcurrent _ _ _ ?_).trans hcontents
  have := hcontents.length_eq
  omega

end Dependaboard
