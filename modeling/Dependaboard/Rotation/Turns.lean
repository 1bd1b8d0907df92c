import Mathlib.Data.Finset.Card
import Mathlib.Data.List.Count
import Mathlib.Data.List.Perm.Basic
import Mathlib.Data.List.Rotate
/-!
# Turns — queues served round and round

Queues stand in a ring. The one at the front gives its head and goes behind
the others, and one that has run dry drops out. `turns` is what they give.
Served so, a block of queues at the front gives their heads and goes behind
the rest (`turns_append`), which is what a scheduler that serves several in
one round does.

Where the queues are told apart by a key of their elements, no element is
lost or doubled, each queue's elements keep their order (`filter_turns`), and
between two turns of one queue every other that still holds an element has
exactly one (`count_between`).
-/

namespace Rotation

variable {α κ : Type}

/-- What queues served in turn give. -/
def turns : List (List α) → List α
  | [] => []
  | [] :: rest => turns rest
  | (x :: queue) :: rest => x :: turns (rest ++ [queue])
termination_by queues => queues.flatten.length + queues.length
decreasing_by
  · simp
  · simp only [List.flatten_append, List.flatten_cons, List.flatten_nil, List.length_append,
      List.length_cons, List.length_nil]
    omega

/-- The first elements of the queues that have one. -/
def heads (queues : List (List α)) : List α := queues.filterMap List.head?

@[simp] theorem heads_nil : heads ([] : List (List α)) = [] := rfl

theorem heads_append (queues others : List (List α)) :
    heads (queues ++ others) = heads queues ++ heads others := List.filterMap_append

/-! ## A place in a ring -/

/-- What stands before a place, at it and after it. -/
theorem exists_split {xs : List α} {place : ℕ} (h : place < xs.length) :
    ∃ before x after, xs = before ++ x :: after ∧ before.length = place := by
  refine ⟨xs.take place, xs[place], xs.drop (place + 1), ?_, ?_⟩
  · rw [← List.drop_eq_getElem_cons h, List.take_append_drop]
  · rw [List.length_take]
    omega

/-- A ring turned to a place starts there. -/
theorem rotate_at (before : List α) (x : α) (after : List α) :
    (before ++ x :: after).rotate before.length = x :: (after ++ before) :=
  List.rotate_append_length_eq before (x :: after)

/-- Turned past it, the ring ends there. -/
theorem rotate_past (before : List α) (x : α) (after : List α) :
    (before ++ x :: after).rotate (before.length + 1) = after ++ before ++ [x] := by
  have hlength : (before ++ [x]).length = before.length + 1 := by simp
  rw [← hlength, List.append_cons, List.rotate_append_length_eq, List.append_assoc]

/-! ## A block of queues served -/

/-- A queue that has run dry is not missed. -/
theorem turns_nil_middle (front back : List (List α)) :
    turns (front ++ [] :: back) = turns (front ++ back) := by
  generalize hsize : (front ++ back).flatten.length + (front ++ back).length = size
  induction size using Nat.strong_induction_on generalizing front back with
  | _ size ih =>
    subst hsize
    match front with
    | [] => simp only [List.nil_append, turns]
    | [] :: front =>
      simp only [List.cons_append, turns]
      exact ih _ (by simp) front back rfl
    | (x :: queue) :: front =>
      simp only [List.cons_append, turns, List.append_assoc]
      rw [ih _ ?_ front (back ++ [queue]) rfl]
      simp only [List.flatten_append, List.flatten_cons, List.flatten_nil, List.length_append,
        List.length_cons, List.length_nil]
      omega

/-- **Queues at the front give their heads and go behind the rest.** -/
theorem turns_append (served rest : List (List α)) :
    turns (served ++ rest) = heads served ++ turns (rest ++ served.map List.tail) := by
  induction served generalizing rest with
  | nil => simp [heads]
  | cons queue served ih =>
    match queue with
    | [] =>
      rw [List.cons_append, turns, ih rest, List.map_cons, List.tail_nil, turns_nil_middle]
      rfl
    | x :: queue =>
      rw [List.cons_append, turns, List.append_assoc, ih (rest ++ [queue])]
      simp [heads]

/-! ## Nothing is lost -/

/-- What the queues give is what they hold. -/
theorem turns_perm (queues : List (List α)) : (turns queues).Perm queues.flatten := by
  fun_induction turns queues with
  | case1 => exact .refl _
  | case2 rest ih => simpa using ih
  | case3 x queue rest ih =>
    refine (ih.cons x).trans ?_
    simp only [List.flatten_append, List.flatten_cons, List.flatten_nil, List.append_nil,
      List.cons_append]
    exact List.perm_append_comm.cons x

/-- Two splits of a list at the first element of a key are one split. -/
theorem split_unique [DecidableEq κ] {key : α → κ} {k : κ} {as bs as' bs' : List α} {a b : α}
    (heq : as ++ a :: as' = bs ++ b :: bs') (ha : key a = k) (hb : key b = k)
    (has : ∀ x ∈ as, key x ≠ k) (hbs : ∀ x ∈ bs, key x ≠ k) : as = bs := by
  have hleft : (as ++ a :: as').takeWhile (fun x => key x ≠ k) = as := by
    rw [List.takeWhile_append_of_pos (by simpa using has), List.takeWhile_cons]
    simp [ha]
  have hright : (bs ++ b :: bs').takeWhile (fun x => key x ≠ k) = bs := by
    rw [List.takeWhile_append_of_pos (by simpa using hbs), List.takeWhile_cons]
    simp [hb]
  rw [← hleft, heq, hright]

/-- Queues told apart by a key: one queue holds one key's elements, and two
queues never share a key. -/
structure Apart (key : α → κ) (queues : List (List α)) : Prop where
  alike : ∀ queue ∈ queues, ∀ x ∈ queue, ∀ y ∈ queue, key x = key y
  apart : queues.Pairwise fun p q => ∀ x ∈ p, ∀ y ∈ q, key x ≠ key y

namespace Apart

variable {key : α → κ} {queues : List (List α)}

theorem perm (h : Apart key queues) {queues' : List (List α)} (hperm : queues.Perm queues') :
    Apart key queues' where
  alike queue hqueue := h.alike queue (hperm.mem_iff.2 hqueue)
  apart := (hperm.pairwise_iff fun hne x hx y hy heq => hne y hy x hx heq.symm).1 h.apart

/-- Some of them are apart too. -/
theorem sublist (h : Apart key queues) {queues' : List (List α)}
    (hsub : queues'.Sublist queues) : Apart key queues' where
  alike queue hqueue := h.alike queue (hsub.subset hqueue)
  apart := h.apart.sublist hsub

theorem of_cons {queue : List α} {rest : List (List α)} (h : Apart key (queue :: rest)) :
    Apart key rest := h.sublist (List.sublist_cons_self _ _)

/-- What the front queue holds, no other does. -/
theorem ne_of_mem_rest {queue : List α} {rest : List (List α)} (h : Apart key (queue :: rest))
    {x y : α} (hx : x ∈ queue) (hy : y ∈ rest.flatten) : key x ≠ key y := by
  obtain ⟨other, hother, hy⟩ := List.mem_flatten.1 hy
  exact (List.pairwise_cons.1 h.apart).1 other hother x hx y hy

/-- The queues after a block of them is served. -/
theorem served {block rest : List (List α)} (h : Apart key (block ++ rest)) :
    Apart key (rest ++ block.map List.tail) := by
  have hswapped : Apart key (rest ++ block) := h.perm List.perm_append_comm
  refine ⟨fun queue hqueue => ?_, ?_⟩
  · rcases List.mem_append.1 hqueue with hrest | hblock
    · exact hswapped.alike queue (List.mem_append_left _ hrest)
    · obtain ⟨old, hold, rfl⟩ := List.mem_map.1 hblock
      intro x hx y hy
      exact hswapped.alike old (List.mem_append_right _ hold) x (List.mem_of_mem_tail hx) y
        (List.mem_of_mem_tail hy)
  · obtain ⟨hrest, hblock, hcross⟩ := List.pairwise_append.1 hswapped.apart
    refine List.pairwise_append.2 ⟨hrest, ?_, fun p hp q hq => ?_⟩
    · rw [List.pairwise_map]
      exact hblock.imp fun hne x hx y hy =>
        hne x (List.mem_of_mem_tail hx) y (List.mem_of_mem_tail hy)
    · obtain ⟨old, hold, rfl⟩ := List.mem_map.1 hq
      exact fun x hx y hy => hcross p hp old hold x hx y (List.mem_of_mem_tail hy)

/-- The queues after the one at the front is served. -/
theorem turn {x : α} {queue : List α} {rest : List (List α)}
    (h : Apart key ((x :: queue) :: rest)) : Apart key (rest ++ [queue]) := by
  have hblock : Apart key ([x :: queue] ++ rest) := h
  exact hblock.served

/-! ## The heads -/

/-- No two heads are of one key. -/
theorem nodup_heads (h : Apart key queues) : ((heads queues).map key).Nodup := by
  rw [List.Nodup, List.pairwise_map, heads]
  refine h.apart.filterMap List.head? fun p q hne x hx y hy => ?_
  exact hne x (List.mem_of_mem_head? hx) y (List.mem_of_mem_head? hy)

/-- A key has a head exactly when a queue holds an element of it. -/
theorem mem_keys_heads (h : Apart key queues) {k : κ} :
    k ∈ (heads queues).map key ↔ k ∈ queues.flatten.map key := by
  simp only [List.mem_map]
  constructor
  · rintro ⟨x, hx, rfl⟩
    obtain ⟨queue, hqueue, hhead⟩ := List.mem_filterMap.1 hx
    exact ⟨x, List.mem_flatten.2 ⟨queue, hqueue, List.mem_of_mem_head? hhead⟩, rfl⟩
  · rintro ⟨x, hx, rfl⟩
    obtain ⟨queue, hqueue, hx⟩ := List.mem_flatten.1 hx
    match queue, hqueue, hx with
    | y :: rest, hqueue, hx =>
      refine ⟨y, List.mem_filterMap.2 ⟨y :: rest, hqueue, rfl⟩, ?_⟩
      exact h.alike _ hqueue y List.mem_cons_self x hx

/-- **As many heads as keys.** -/
theorem length_heads [DecidableEq κ] (h : Apart key queues) :
    (heads queues).length = (queues.flatten.map key).toFinset.card := by
  have hkeys : (queues.flatten.map key).toFinset = ((heads queues).map key).toFinset := by
    ext k
    rw [List.mem_toFinset, List.mem_toFinset, h.mem_keys_heads]
  rw [hkeys, List.toFinset_card_of_nodup h.nodup_heads, List.length_map]

/-! ## Order and fairness -/

variable [DecidableEq κ]

/-- **Each queue's elements keep their order.** -/
theorem filter_turns (h : Apart key queues) (k : κ) :
    (turns queues).filter (fun x => key x = k)
      = queues.flatten.filter fun x => key x = k := by
  fun_induction turns queues with
  | case1 => rfl
  | case2 rest ih => simpa using ih h.of_cons
  | case3 x queue rest ih =>
    rw [List.filter_cons, ih h.turn]
    simp only [List.flatten_append, List.flatten_cons, List.flatten_nil, List.append_nil,
      List.cons_append, List.filter_append, List.filter_cons]
    by_cases hx : key x = k
    · have hrest : rest.flatten.filter (fun y => key y = k) = [] := by
        rw [List.filter_eq_nil_iff]
        intro y hy
        have := h.ne_of_mem_rest List.mem_cons_self hy
        simpa [hx] using this.symm
      simp [hx, hrest]
    · have hqueue : queue.filter (fun y => key y = k) = [] := by
        rw [List.filter_eq_nil_iff]
        intro y hy
        have := h.alike _ List.mem_cons_self y (List.mem_cons_of_mem x hy) x List.mem_cons_self
        simpa [this] using hx
      simp [hx, hqueue]

/-- **Between two turns of one key, every other that still has an element
has exactly one.** -/
theorem count_between (h : Apart key queues) {before between after : List α} {x y : α}
    (hturns : turns queues = before ++ x :: (between ++ y :: after)) (hxy : key y = key x)
    (hnone : ∀ z ∈ between, key z ≠ key x) {k : κ} (hk : k ≠ key x)
    (hleft : k ∈ (between ++ y :: after).map key) : (between.map key).count k = 1 := by
  fun_induction turns queues generalizing before with
  | case1 => simp at hturns
  | case2 rest ih => exact ih h.of_cons hturns
  | case3 first queue rest ih =>
    match before with
    | first' :: before =>
      rw [List.cons_append, List.cons.injEq] at hturns
      exact ih h.turn hturns.2
    | [] =>
      rw [List.nil_append, List.cons.injEq] at hturns
      obtain ⟨rfl, hturns⟩ := hturns
      -- what is left of the front queue comes after every other's head
      have hheads : ∀ z ∈ heads rest, key z ≠ key first := by
        intro z hz
        have hmem : key z ∈ rest.flatten.map key :=
          h.of_cons.mem_keys_heads.1 (List.mem_map_of_mem hz)
        obtain ⟨w, hw, hwz⟩ := List.mem_map.1 hmem
        rw [← hwz]
        exact (h.ne_of_mem_rest List.mem_cons_self hw).symm
      have hheld (z : α) (hz : z ∈ between ++ y :: after) : z ∈ rest.flatten ∨ z ∈ queue := by
        rw [← hturns] at hz
        have := (turns_perm _).mem_iff.1 hz
        simpa using this
      have hnext : ∃ next queue', queue = next :: queue' := by
        have hy : y ∈ between ++ y :: after := by simp
        rcases hheld y hy with hrest | hqueue
        · exact absurd hxy.symm (h.ne_of_mem_rest List.mem_cons_self hrest)
        · exact List.exists_cons_of_ne_nil (List.ne_nil_of_mem hqueue)
      obtain ⟨next, queue', rfl⟩ := hnext
      have hsame : key next = key first :=
        h.alike _ List.mem_cons_self next (by simp) first List.mem_cons_self
      have hbetween : heads rest = between := by
        rw [turns_append rest [next :: queue'], List.singleton_append, turns] at hturns
        exact split_unique hturns hsame hxy hheads hnone
      have hmem : k ∈ rest.flatten.map key := by
        obtain ⟨z, hz, rfl⟩ := List.mem_map.1 hleft
        rcases hheld z hz with hrest | hqueue
        · exact List.mem_map_of_mem hrest
        · exact absurd (h.alike _ List.mem_cons_self z (List.mem_cons_of_mem _ hqueue) first
            List.mem_cons_self) hk
      rw [← hbetween]
      exact List.count_eq_one_of_mem h.of_cons.nodup_heads (h.of_cons.mem_keys_heads.2 hmem)

end Apart

end Rotation
