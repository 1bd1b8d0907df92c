import Mathlib.Data.List.Sort
import Mathlib.Logic.Relation
/-!
# Tasks driven at once — their answers gathered as they land

Any number of tasks are driven from one loop. Each is first asked when its
turn to be driven comes, in the order they stand; an answer lands whenever it
does, and the loop goes on to the next to land or, at an answer that stops
it, ends there with the tasks in flight dropped.

`Gathers` is what may come of it, in every order. Whether the loop is stopped
is settled by the answers alone (`Gathers.stopped_iff`), and what it gathered
when it is not is, sorted back, the answers in the order of the tasks
(`Gathers.sorted`).
-/

namespace Durable

variable {τ α : Type}

/-- An answer, with its task and the task's place. -/
structure TaskAnswer (τ α : Type) where
  place : ℕ
  task : τ
  answer : α
  deriving DecidableEq, Repr

/-- The tasks as the loop stands. -/
structure Gather (τ α : Type) where
  /-- Those not yet driven. -/
  waiting : List (τ × ℕ)
  /-- Every task asked, in order. -/
  asked : List τ
  /-- Those asked and not answered. -/
  flying : List (τ × ℕ)
  /-- The answers, as they landed. -/
  landed : List (TaskAnswer τ α)

namespace Gather

/-- The loop at its start. -/
def start (tasks : List τ) : Gather τ α := ⟨tasks.zipIdx, [], [], []⟩

/-- **One step of the loop**, `answer` saying what each task is answered and
`stops` which answers end it. -/
inductive Step (answer : τ → α) (stops : α → Prop) : Gather τ α → Gather τ α → Prop
  | ask {task : τ × ℕ} {waiting flying : List (τ × ℕ)} {asked : List τ}
      {landed : List (TaskAnswer τ α)} :
      Step answer stops ⟨task :: waiting, asked, flying, landed⟩
        ⟨waiting, asked ++ [task.1], flying ++ [task], landed⟩
  | land {task : τ × ℕ} {waiting before after : List (τ × ℕ)} {asked : List τ}
      {landed : List (TaskAnswer τ α)} : ¬stops (answer task.1) →
      Step answer stops ⟨waiting, asked, before ++ task :: after, landed⟩
        ⟨waiting, asked, before ++ after, landed ++ [⟨task.2, task.1, answer task.1⟩]⟩

/-- **How the loop ends**: at an answer that stops it, or with every task
answered. -/
inductive Ends (answer : τ → α) (stops : α → Prop) :
    Gather τ α → Except α (List (TaskAnswer τ α)) → Prop
  | stopped {s : Gather τ α} {task : τ × ℕ} : task ∈ s.flying → stops (answer task.1) →
      Ends answer stops s (.error (answer task.1))
  | landed {asked : List τ} {landed : List (TaskAnswer τ α)} :
      Ends answer stops ⟨[], asked, [], landed⟩ (.ok landed)

end Gather

/-- The answers of all the tasks, in their places. -/
def inPlaces (answer : τ → α) (tasks : List τ) : List (TaskAnswer τ α) :=
  tasks.zipIdx.map fun task => ⟨task.2, task.1, answer task.1⟩

/-- What is read off the answers and not off their places is read off the
tasks. -/
theorem filterMap_inPlaces {β : Type} (f : τ → α → Option β) (answer : τ → α) (tasks : List τ) :
    (inPlaces answer tasks).filterMap (fun landed => f landed.task landed.answer)
      = tasks.filterMap fun task => f task (answer task) := by
  conv_rhs => rw [← List.zipIdx_map_fst 0 tasks, List.filterMap_map]
  exact List.filterMap_map

namespace Gather

/-- The loop as it can stand. -/
abbrev Reach (answer : τ → α) (stops : α → Prop) (tasks : List τ) : Gather τ α → Prop :=
  Relation.ReflTransGen (Step answer stops) (start tasks)

end Gather

open Gather

/-- **What may come of tasks driven at once**: which were asked, and the
answer that stopped the loop or all of them as they landed. -/
def Gathers (answer : τ → α) (stops : α → Prop) (tasks asked : List τ)
    (result : Except α (List (TaskAnswer τ α))) : Prop :=
  ∃ s, Reach answer stops tasks s ∧ s.asked = asked ∧ Ends answer stops s result

variable {answer : τ → α} {stops : α → Prop} {tasks asked : List τ}
  {result : Except α (List (TaskAnswer τ α))}

namespace Gather

/-- The task an answer is of, with its place. -/
def placed (landed : TaskAnswer τ α) : τ × ℕ := (landed.task, landed.place)

/-- No task is lost, none is asked out of its turn, and what has landed are
answers that let the loop go on. -/
structure Sound (answer : τ → α) (stops : α → Prop) (tasks : List τ) (s : Gather τ α) : Prop where
  asked : s.asked ++ s.waiting.map Prod.fst = tasks
  accounted : (s.landed.map placed ++ s.flying ++ s.waiting).Perm tasks.zipIdx
  landed : ∀ landed ∈ s.landed, landed.answer = answer landed.task ∧ ¬stops landed.answer

theorem Sound.start : (start tasks : Gather τ α).Sound answer stops tasks where
  asked := List.zipIdx_map_fst ..
  accounted := .refl _
  landed := nofun

theorem Sound.step {s t : Gather τ α} (h : s.Sound answer stops tasks)
    (hstep : Step answer stops s t) : t.Sound answer stops tasks := by
  obtain ⟨hasked, haccounted, hlanded⟩ := h
  cases hstep with
  | ask =>
    refine ⟨?_, ?_, hlanded⟩
    · rw [List.append_assoc]
      exact hasked
    · simpa using haccounted
  | @land task waiting before after asked landed hgoes =>
    refine ⟨hasked, .trans ?_ haccounted, ?_⟩
    · -- the task moves from among those in flight to the end of the answers
      simp only [List.map_append, List.map_cons, List.map_nil, List.append_assoc, placed]
      have hmiddle : (before ++ task :: (after ++ waiting)).Perm
          (task :: (before ++ (after ++ waiting))) := List.perm_middle
      exact hmiddle.symm.append_left _
    · rw [List.forall_mem_append, List.forall_mem_singleton]
      exact ⟨hlanded, rfl, hgoes⟩

theorem Reach.sound {s : Gather τ α} (h : Reach answer stops tasks s) :
    s.Sound answer stops tasks := by
  induction h with
  | refl => exact .start
  | tail _ hstep ih => exact ih.step hstep

/-! ## The loop ends -/

/-- How many steps are left to the loop at most. -/
def left (s : Gather τ α) : ℕ := 2 * s.waiting.length + s.flying.length

theorem Step.left_lt {s t : Gather τ α} (h : Step answer stops s t) : t.left < s.left := by
  cases h with
  | ask => simp only [left, List.length_cons, List.length_append, List.length_nil]; omega
  | land => simp only [left, List.length_cons, List.length_append]; omega

/-- **The loop does not go on forever.** -/
theorem wellFounded_step (answer : τ → α) (stops : α → Prop) :
    WellFounded fun t s : Gather τ α => Step answer stops s t :=
  Subrelation.wf Step.left_lt (InvImage.wf left Nat.lt_wfRel.wf)

/-- **The loop is never stuck**: it goes on from wherever it stands, or has
ended. -/
theorem step_or_ends (answer : τ → α) (stops : α → Prop) (s : Gather τ α) :
    (∃ t, Step answer stops s t) ∨ ∃ result, Ends answer stops s result := by
  obtain ⟨waiting, asked, flying, landed⟩ := s
  cases waiting with
  | cons task waiting => exact .inl ⟨_, .ask⟩
  | nil =>
    cases flying with
    | nil => exact .inr ⟨_, .landed⟩
    | cons task flying =>
      by_cases hstops : stops (answer task.1)
      · exact .inr ⟨_, .stopped List.mem_cons_self hstops⟩
      · have hland : Step answer stops ⟨[], asked, [] ++ task :: flying, landed⟩ _ := .land hstops
        exact .inl ⟨_, hland⟩

end Gather

namespace Gathers

/-- **The tasks are asked in their order**, as far as the loop came. -/
theorem asked_prefix (h : Gathers answer stops tasks asked result) : asked <+: tasks := by
  obtain ⟨s, hreach, rfl, -⟩ := h
  exact ⟨_, hreach.sound.asked⟩

/-- A loop that was not stopped asked them all. -/
theorem asked_eq {landed : List (TaskAnswer τ α)}
    (h : Gathers answer stops tasks asked (.ok landed)) :
    asked = tasks := by
  obtain ⟨s, hreach, rfl, hends⟩ := h
  cases hends
  simpa using hreach.sound.asked

/-- What stopped the loop is a task's answer. -/
theorem of_stopped {stop : α} (h : Gathers answer stops tasks asked (.error stop)) :
    ∃ task ∈ tasks, answer task = stop ∧ stops stop := by
  obtain ⟨s, hreach, -, hends⟩ := h
  cases hends with
  | @stopped s task hflying hstops =>
    have hmem : task ∈ tasks.zipIdx := hreach.sound.accounted.mem_iff.1 (by simp [hflying])
    exact ⟨task.1, List.fst_mem_of_mem_zipIdx hmem, rfl, hstops⟩

/-- What has all landed are the tasks' answers, and none stops the loop. -/
theorem landed_perm {landed : List (TaskAnswer τ α)}
    (h : Gathers answer stops tasks asked (.ok landed)) :
    landed.Perm (inPlaces answer tasks) ∧ ∀ l ∈ landed, ¬stops l.answer := by
  obtain ⟨s, hreach, -, hends⟩ := h
  cases hends
  obtain ⟨-, haccounted, hlanded⟩ := hreach.sound
  simp only [List.append_nil] at haccounted hlanded
  refine ⟨?_, fun l hl => (hlanded l hl).2⟩
  have heq : (landed.map placed).map (fun task => ⟨task.2, task.1, answer task.1⟩) = landed := by
    rw [List.map_map]
    refine (List.map_congr_left fun l hl => ?_).trans (List.map_id landed)
    rw [Function.comp_apply, placed, ← (hlanded l hl).1]
    rfl
  rw [← heq]
  exact haccounted.map _

/-- **What has all landed is, sorted back, the answers in the order of the
tasks.** -/
theorem sorted {landed : List (TaskAnswer τ α)}
    (h : Gathers answer stops tasks asked (.ok landed)) :
    landed.mergeSort (fun a b => a.place ≤ b.place) = inPlaces answer tasks := by
  have hpairwise : (inPlaces answer tasks).Pairwise fun a b => a.place < b.place := by
    rw [inPlaces, List.pairwise_map, ← List.pairwise_map (f := Prod.snd), List.zipIdx_map_snd]
    exact List.pairwise_lt_range'
  have hsorted : (landed.mergeSort fun a b => a.place ≤ b.place).Pairwise
      fun a b => decide (a.place ≤ b.place) = true :=
    List.pairwise_mergeSort (by simpa using fun _ _ _ => Nat.le_trans)
      (by simpa using fun _ _ => Nat.le_total ..) _
  have hplaced : (inPlaces answer tasks).Pairwise fun a b => decide (a.place ≤ b.place) = true :=
    hpairwise.imp fun hlt => by simpa using Nat.le_of_lt hlt
  refine List.Perm.eq_of_pairwise ?_ hsorted hplaced
    ((List.mergeSort_perm ..).trans h.landed_perm.1)
  intro a b ha hb hab hba
  -- one place holds one answer
  have hplaces : ((inPlaces answer tasks).map TaskAnswer.place).Nodup :=
    (List.pairwise_map.2 hpairwise).imp Nat.ne_of_lt
  rw [List.mem_mergeSort, h.landed_perm.1.mem_iff] at ha
  exact List.inj_on_of_nodup_map hplaces ha hb
    (Nat.le_antisymm (of_decide_eq_true hab) (of_decide_eq_true hba))

/-- No answer that landed stops the loop. -/
theorem not_stops {landed : List (TaskAnswer τ α)}
    (h : Gathers answer stops tasks asked (.ok landed)) {task : τ} (htask : task ∈ tasks) :
    ¬stops (answer task) := by
  obtain ⟨hperm, hgoes⟩ := h.landed_perm
  rw [← List.zipIdx_map_fst 0 tasks] at htask
  obtain ⟨placed, hplaced, rfl⟩ := List.mem_map.1 htask
  exact hgoes _ (hperm.mem_iff.2 (List.mem_map_of_mem hplaced))

/-- **Whether the loop is stopped is settled by the answers alone.** -/
theorem stopped_iff (h : Gathers answer stops tasks asked result) :
    (∃ stop, result = .error stop) ↔ ∃ task ∈ tasks, stops (answer task) := by
  constructor
  · rintro ⟨stop, rfl⟩
    obtain ⟨task, htask, rfl, hstops⟩ := h.of_stopped
    exact ⟨task, htask, hstops⟩
  · rintro ⟨task, htask, hstops⟩
    cases result with
    | error stop => exact ⟨stop, rfl⟩
    | ok landed => exact absurd hstops (h.not_stops htask)

end Gathers

end Durable
