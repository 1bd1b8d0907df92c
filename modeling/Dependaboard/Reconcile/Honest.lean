import Dependaboard.Durable.Exchange
import Dependaboard.Service.Sweep
/-!
# Reconcile — pruned on a whole listing, reported honestly

What a repository's reconcile exchanges is one of five courses: the fence,
the listing, a sync of each pull request listed, the prune down to them under
that fence and the drain, each step ending it if it fails, the syncs apart.
`course_runRepoReconcile` reads them off the handler, and what a reconcile
prunes, drains and reports is read off them.
-/

namespace Dependaboard

open Durable

namespace Reconcile

/-- A pull request told it is gone. -/
def told (retirement : Retirement) : Exchange SweepEffects :=
  ⟨.closePullRequest retirement.key ⟨retirement.syncedBefore⟩, ()⟩

/-- A listed pull request synced, and how it went. -/
def synced (request : SyncRequest) (answer : Except HandlerError Unit) : Exchange SweepEffects :=
  ⟨.syncPullRequest (requestKey request) request, answer⟩

/-- The drain of the outbox: what is pending read, each told, and the last
one read acknowledged. -/
inductive Drains : List (Exchange SweepEffects) → Except HandlerError ℕ → Prop
  | unread (error : HandlerError) :
      Drains [⟨.pendingRetirements, .error error⟩] (.error error)
  | nothing : Drains [⟨.pendingRetirements, .ok []⟩] (.ok 0)
  | told {pending : List Retirement} {last : Retirement} (hlast : pending.getLast? = some last)
      (answer : Except HandlerError Unit) :
      Drains (⟨.pendingRetirements, .ok pending⟩ :: pending.map told
          ++ [⟨.acknowledgeRetirements last.id, answer⟩])
        (answer.map fun _ => pending.length)

/-- The exchanges of a reconcile up to its prune: the fence, the listing, and
each pull request listed, synced once. -/
def swept (addressed : Addressed) (fence : ℕ) (pulls : List SyncRequest)
    (answers : List (Except HandlerError Unit)) : List (Exchange SweepEffects) :=
  ⟨.now "repo-reconcile-clock", .ok fence⟩ :: ⟨.listPullRequests addressed, .ok pulls⟩ ::
    List.zipWith synced pulls answers

/-- The prune of a reconcile: down to the numbers listed, under its fence. -/
def pruning (addressed : Addressed) (fence : ℕ) (pulls : List SyncRequest) : SweepCall :=
  .prune (.retainPrs addressed.repositoryId (pulls.map (·.number)) fence)

/-- **The courses of a repository's reconcile.** -/
inductive Course (addressed : Addressed) :
    List (Exchange SweepEffects) → Except HandlerError ℕ → Prop
  | unclocked (error : HandlerError) :
      Course addressed [⟨.now "repo-reconcile-clock", .error error⟩] (.error error)
  | unlisted (fence : ℕ) (error : HandlerError) :
      Course addressed [⟨.now "repo-reconcile-clock", .ok fence⟩,
        ⟨.listPullRequests addressed, .error error⟩] (.error error)
  | unpruned (fence : ℕ) {pulls : List SyncRequest} {answers : List (Except HandlerError Unit)}
      (hanswers : answers.length = pulls.length) (error : HandlerError) :
      Course addressed (swept addressed fence pulls answers
        ++ [⟨pruning addressed fence pulls, .error error⟩]) (.error error)
  | undrained (fence : ℕ) {pulls : List SyncRequest} {answers : List (Except HandlerError Unit)}
      (hanswers : answers.length = pulls.length) (pruned : Pruned)
      {drain : List (Exchange SweepEffects)} {error : HandlerError}
      (hdrain : Drains drain (.error error)) :
      Course addressed (swept addressed fence pulls answers
        ++ ⟨pruning addressed fence pulls, .ok pruned⟩ :: drain) (.error error)
  /-- What is reported once the outbox is drained is how the syncs went. -/
  | drained (fence : ℕ) {pulls : List SyncRequest} {answers : List (Except HandlerError Unit)}
      (hanswers : answers.length = pulls.length) (pruned : Pruned)
      {drain : List (Exchange SweepEffects)} {count : ℕ} (hdrain : Drains drain (.ok count))
      {result : Except HandlerError ℕ}
      (hresult : if ∀ answer ∈ answers, answer.isOk then result = .ok pulls.length
        else ∃ error, result = .error error) :
      Course addressed (swept addressed fence pulls answers
        ++ ⟨pruning addressed fence pulls, .ok pruned⟩ :: drain) result

variable {es : List (Exchange SweepEffects)}

/-! ## The courses, read off the handlers -/

/-- Telling each pending pull request is a one-way send each. -/
theorem exchanges_close {pending : List Retirement} {r : Except HandlerError Unit}
    (h : (Prog.forEach pending fun retirement =>
      SweepM.closePullRequest retirement.key ⟨retirement.syncedBefore⟩).Exchanges es r) :
    es = pending.map told ∧ r = .ok () := by
  induction pending generalizing es with
  | nil => exact Prog.exchanges_done.1 h
  | cons retirement rest ih =>
    obtain ⟨answer, es', rfl, hrest⟩ := Prog.exchanges_ask.1 h
    obtain ⟨rfl, rfl⟩ := ih hrest
    exact ⟨rfl, rfl⟩

theorem drains_retirePending {pruned : Pruned} {r : Except HandlerError ℕ}
    (h : (retirePending pruned).Exchanges es r) : Drains es r := by
  obtain ⟨answer, rest, rfl, hread⟩ := Prog.exchanges_ask.1 h
  cases answer with
  | error error =>
    obtain ⟨rfl, rfl⟩ := Prog.exchanges_fail.1 hread
    exact .unread error
  | ok pending =>
    simp only [Prog.bind_eq, Prog.ofExcept_ok, Prog.done_bind] at hread
    cases hlast : pending.getLast? with
    | none =>
      rw [hlast] at hread
      obtain ⟨rfl, rfl⟩ := Prog.exchanges_done.1 hread
      obtain rfl := List.getLast?_eq_none_iff.1 hlast
      exact .nothing
    | some last =>
      rw [hlast] at hread
      rcases Prog.exchanges_bind.1 hread with
        ⟨error, -, hfail⟩ | ⟨_, closes, rest, rfl, hclose, htold⟩
      · obtain ⟨-, habsurd⟩ := exchanges_close hfail
        cases habsurd
      · obtain ⟨rfl, -⟩ := exchanges_close hclose
        obtain ⟨answer, rest, rfl, hacknowledged⟩ := Prog.exchanges_ask.1 htold
        have hended : rest = [] ∧ r = answer.map fun _ => pending.length := by
          cases answer with
          | error error => exact Prog.exchanges_fail.1 hacknowledged
          | ok => exact Prog.exchanges_done.1 hacknowledged
        obtain ⟨rfl, rfl⟩ := hended
        exact .told hlast answer

/-- The syncs are one for each pull request listed, in the listing's order,
and none of them ends the sweep. -/
theorem exchanges_syncListed {pulls : List SyncRequest} {r : Except HandlerError (List PrKey)}
    (h : (syncListed pulls).Exchanges es r) :
    ∃ answers failed, answers.length = pulls.length ∧ es = List.zipWith synced pulls answers ∧
      r = .ok failed ∧ (failed = [] ↔ ∀ answer ∈ answers, answer.isOk) := by
  induction pulls generalizing es r with
  | nil =>
    obtain ⟨rfl, rfl⟩ := Prog.exchanges_done.1 h
    exact ⟨[], [], rfl, rfl, rfl, by simp⟩
  | cons request rest ih =>
    obtain ⟨answer, es', rfl, hsynced⟩ := Prog.exchanges_ask.1 h
    rw [Prog.done_bind] at hsynced
    rcases Prog.exchanges_bind.1 hsynced with
      ⟨error, -, hfail⟩ | ⟨failed, first, last, rfl, hrest, hended⟩
    · obtain ⟨answers, failed, -, -, habsurd, -⟩ := ih hfail
      cases habsurd
    · obtain ⟨answers, failed', hlength, rfl, hfailed, hall⟩ := ih hrest
      cases hfailed
      refine ⟨answer :: answers, ?_⟩
      cases answer with
      | ok =>
        obtain ⟨rfl, rfl⟩ := Prog.exchanges_done.1 hended
        refine ⟨failed, congrArg (· + 1) hlength, by simp [synced], rfl, ?_⟩
        rw [hall, List.forall_mem_cons]
        simp [Except.isOk, Except.toBool]
      | error error =>
        obtain ⟨rfl, rfl⟩ := Prog.exchanges_done.1 hended
        refine ⟨requestKey request :: failed, congrArg (· + 1) hlength, by simp [synced], rfl, ?_⟩
        rw [List.forall_mem_cons]
        simp [Except.isOk, Except.toBool]

/-- **What a reconcile exchanges is one of its courses.** -/
theorem course_runRepoReconcile {addressed : Addressed} {r : Except HandlerError ℕ}
    (h : (runRepoReconcile addressed).Exchanges es r) : Course addressed es r := by
  obtain ⟨clock, rest, rfl, hclocked⟩ := Prog.exchanges_ask.1 h
  cases clock with
  | error error =>
    obtain ⟨rfl, rfl⟩ := Prog.exchanges_fail.1 hclocked
    exact .unclocked error
  | ok fence =>
  obtain ⟨listing, rest, rfl, hlisted⟩ := Prog.exchanges_ask.1 hclocked
  cases listing with
  | error error =>
    obtain ⟨rfl, rfl⟩ := Prog.exchanges_fail.1 hlisted
    exact .unlisted fence error
  | ok pulls =>
  rw [Prog.ofExcept_ok, Prog.done_bind] at hlisted
  rcases Prog.exchanges_bind.1 hlisted with
    ⟨error, -, hfail⟩ | ⟨failed, syncs, rest, rfl, hsyncs, hswept⟩
  · obtain ⟨answers, failed, -, -, habsurd, -⟩ := exchanges_syncListed hfail
    cases habsurd
  obtain ⟨answers, failed', hanswers, rfl, hfailed, hall⟩ := exchanges_syncListed hsyncs
  cases hfailed
  obtain ⟨prune, rest, rfl, hpruned⟩ := Prog.exchanges_ask.1 hswept
  cases prune with
  | error error =>
    obtain ⟨rfl, rfl⟩ := Prog.exchanges_fail.1 hpruned
    exact .unpruned fence hanswers error
  | ok pruned =>
  rw [Prog.ofExcept_ok, Prog.done_bind] at hpruned
  rcases Prog.exchanges_bind.1 hpruned with
    ⟨error, rfl, hdrain⟩ | ⟨count, drain, rest, rfl, hdrain, hreport⟩
  · exact .undrained fence hanswers pruned (drains_retirePending hdrain)
  · dsimp only at hreport
    have hended : rest = [] ∧ if ∀ answer ∈ answers, answer.isOk then r = .ok pulls.length
        else ∃ error, r = .error error := by
      by_cases hnone : failed = []
      · rw [if_pos hnone] at hreport
        rw [if_pos (hall.1 hnone)]
        exact Prog.exchanges_done.1 hreport
      · rw [if_neg hnone] at hreport
        rw [if_neg (mt hall.2 hnone)]
        obtain ⟨hrest, hr⟩ := Prog.exchanges_fail.1 hreport
        exact ⟨hrest, _, hr⟩
    obtain ⟨rfl, hresult⟩ := hended
    rw [List.append_nil]
    exact .drained fence hanswers pruned (drains_retirePending hdrain) hresult

/-! ## What is in them -/

/-- The exchange did not fail. -/
def succeeded : Exchange SweepEffects → Bool
  | ⟨.now _, answer⟩ => answer.isOk
  | ⟨.listPullRequests _, answer⟩ => answer.isOk
  | ⟨.syncPullRequest _ _, answer⟩ => answer.isOk
  | ⟨.listRepositories, answer⟩ => answer.isOk
  | ⟨.prune _, answer⟩ => answer.isOk
  | ⟨.reconcileRepository _, _⟩ => true
  | ⟨.pendingRetirements, answer⟩ => answer.isOk
  | ⟨.closePullRequest _ _, _⟩ => true
  | ⟨.acknowledgeRetirements _, answer⟩ => answer.isOk

/-- The call is one of a drain. -/
def drains : SweepCall → Bool
  | .pendingRetirements | .closePullRequest _ _ | .acknowledgeRetirements _ => true
  | _ => false

/-- The fence an exchange read. -/
def fenceOf : Exchange SweepEffects → Option ℕ
  | ⟨.now _, .ok fence⟩ => some fence
  | _ => none

/-- The listing an exchange was answered with. -/
def listingOf : Exchange SweepEffects → Option (Except HandlerError (List SyncRequest))
  | ⟨.listPullRequests _, answer⟩ => some answer
  | _ => none

/-- The pull request an exchange synced. -/
def syncOf : Exchange SweepEffects → Option (PrKey × SyncRequest)
  | ⟨.syncPullRequest key request, _⟩ => some (key, request)
  | _ => none

/-- The prune an exchange asked for. -/
def pruneOf : Exchange SweepEffects → Option Prune
  | ⟨.prune prune, _⟩ => some prune
  | _ => none

variable {addressed : Addressed} {fence : ℕ} {pulls : List SyncRequest}
  {answers : List (Except HandlerError Unit)} {drain : List (Exchange SweepEffects)}

theorem Drains.quiet {r : Except HandlerError ℕ} (h : Drains drain r) :
    ∀ e ∈ drain, drains e.1 := by
  cases h with
  | unread error => simp [drains]
  | nothing => simp [drains]
  | told hlast answer =>
    intro e he
    rw [List.cons_append, List.mem_cons, List.mem_append, List.mem_map, List.mem_singleton] at he
    rcases he with rfl | ⟨retirement, -, rfl⟩ | rfl <;> rfl

/-- A drain succeeds when each of its exchanges does. -/
theorem Drains.succeeded_iff {r : Except HandlerError ℕ} (h : Drains drain r) :
    (∀ e ∈ drain, succeeded e) ↔ r.isOk := by
  cases h with
  | unread error => simp [succeeded, Except.isOk, Except.toBool]
  | nothing => simp [succeeded, Except.isOk, Except.toBool]
  | told hlast answer =>
    rw [List.cons_append, List.forall_mem_cons, List.forall_mem_append, List.forall_mem_map,
      List.forall_mem_singleton]
    cases answer <;> simp [succeeded, Reconcile.told, Except.isOk, Except.toBool, Except.map]

/-- A projection of the syncs that says nothing of their answers. -/
theorem filterMap_synced {β : Type} {f : Exchange SweepEffects → Option β}
    {g : SyncRequest → Option β} (hf : ∀ request answer, f (synced request answer) = g request)
    (hlength : answers.length = pulls.length) :
    (List.zipWith synced pulls answers).filterMap f = pulls.filterMap g := by
  induction pulls generalizing answers with
  | nil => simp
  | cons request rest ih =>
    match answers, hlength with
    | answer :: answers, hlength =>
      rw [List.zipWith_cons_cons, List.filterMap_cons, List.filterMap_cons, hf,
        ih (Nat.succ.inj hlength)]

/-- The syncs succeed when each is answered so. -/
theorem succeeded_synced (hlength : answers.length = pulls.length) :
    (∀ e ∈ List.zipWith synced pulls answers, succeeded e) ↔
      ∀ answer ∈ answers, answer.isOk := by
  induction pulls generalizing answers with
  | nil => simp [List.length_eq_zero_iff.1 hlength]
  | cons request rest ih =>
    match answers, hlength with
    | answer :: answers, hlength =>
      rw [List.zipWith_cons_cons, List.forall_mem_cons, List.forall_mem_cons,
        ih (Nat.succ.inj hlength)]
      rfl

theorem filterMap_cons_toList {α β : Type} (f : α → Option β) (x : α) (xs : List α) :
    (x :: xs).filterMap f = (f x).toList ++ xs.filterMap f := by
  rw [List.filterMap_cons]
  cases f x <;> rfl

/-- A drain's exchanges read no fence and no listing, sync nothing and prune
nothing. -/
theorem silent_of_drains {e : Exchange SweepEffects} (h : drains e.1) :
    fenceOf e = none ∧ listingOf e = none ∧ syncOf e = none ∧ pruneOf e = none := by
  obtain ⟨call, answer⟩ := e
  cases call <;> first | exact ⟨rfl, rfl, rfl, rfl⟩ | cases h

/-- What a projection says of a reconcile that listed: of its fence, its
listing, its syncs and its prune, and of nothing in its drain. -/
theorem filterMap_swept {β : Type} {f : Exchange SweepEffects → Option β}
    {g : SyncRequest → Option β} (hf : ∀ request answer, f (synced request answer) = g request)
    (hquiet : ∀ e : Exchange SweepEffects, drains e.1 → f e = none)
    (hlength : answers.length = pulls.length) (hdrain : ∀ e ∈ drain, drains e.1)
    (answer : Except HandlerError Pruned) :
    (swept addressed fence pulls answers
        ++ ⟨pruning addressed fence pulls, answer⟩ :: drain).filterMap f
      = (f ⟨.now "repo-reconcile-clock", .ok fence⟩).toList
        ++ ((f ⟨.listPullRequests addressed, .ok pulls⟩).toList
        ++ (pulls.filterMap g ++ (f ⟨pruning addressed fence pulls, answer⟩).toList)) := by
  have hnone : drain.filterMap f = [] :=
    List.filterMap_eq_nil_iff.2 fun e he => hquiet e (hdrain e he)
  rw [swept, List.cons_append, List.cons_append, filterMap_cons_toList, filterMap_cons_toList,
    List.filterMap_append, filterMap_synced hf hlength, filterMap_cons_toList, hnone,
    List.append_nil]

section

variable (hlength : answers.length = pulls.length) (hdrain : ∀ e ∈ drain, drains e.1)
  (answer : Except HandlerError Pruned)

include hlength hdrain

/-- Such a reconcile read one fence. -/
theorem fences_swept : (swept addressed fence pulls answers
    ++ ⟨pruning addressed fence pulls, answer⟩ :: drain).filterMap fenceOf = [fence] := by
  rw [filterMap_swept (g := fun _ => none) (fun _ _ => rfl) (fun _ h => (silent_of_drains h).1)
    hlength hdrain answer]
  simp [fenceOf, pruning]

/-- One listing. -/
theorem listings_swept : (swept addressed fence pulls answers
    ++ ⟨pruning addressed fence pulls, answer⟩ :: drain).filterMap listingOf = [.ok pulls] := by
  rw [filterMap_swept (g := fun _ => none) (fun _ _ => rfl) (fun _ h => (silent_of_drains h).2.1)
    hlength hdrain answer]
  simp [listingOf, pruning]

/-- Synced what was listed. -/
theorem syncs_swept : (swept addressed fence pulls answers
    ++ ⟨pruning addressed fence pulls, answer⟩ :: drain).filterMap syncOf
      = pulls.map fun request => (requestKey request, request) := by
  rw [filterMap_swept (g := fun request => some (requestKey request, request)) (fun _ _ => rfl)
    (fun _ h => (silent_of_drains h).2.2.1) hlength hdrain answer]
  simp [syncOf, pruning]

/-- And pruned once, down to it. -/
theorem prunes_swept : (swept addressed fence pulls answers
    ++ ⟨pruning addressed fence pulls, answer⟩ :: drain).filterMap pruneOf
      = [.retainPrs addressed.repositoryId (pulls.map (·.number)) fence] := by
  rw [filterMap_swept (g := fun _ => none) (fun _ _ => rfl)
    (fun _ h => (silent_of_drains h).2.2.2) hlength hdrain answer]
  simp [pruneOf, pruning]

omit hdrain in
/-- It succeeded throughout when its syncs, its prune and its drain did. -/
theorem succeeded_swept : (∀ e ∈ swept addressed fence pulls answers
    ++ ⟨pruning addressed fence pulls, answer⟩ :: drain, succeeded e) ↔
      (∀ answer ∈ answers, answer.isOk) ∧ answer.isOk ∧ ∀ e ∈ drain, succeeded e := by
  rw [swept, List.forall_mem_append, List.forall_mem_cons, List.forall_mem_cons,
    List.forall_mem_cons, succeeded_synced hlength]
  simp [succeeded, pruning, Except.isOk, Except.toBool]

end

/-- **A reconcile did not list, or went on to its prune.** One that did not
list asked for nothing else and failed; one that did succeeds, with the number
listed, exactly when all it asked for does. -/
theorem Course.cases {r : Except HandlerError ℕ} (h : Course addressed es r) :
    (((∃ error, es = [⟨.now "repo-reconcile-clock", .error error⟩] ∧ r = .error error) ∨
      ∃ fence error, es = [⟨.now "repo-reconcile-clock", .ok fence⟩,
        ⟨.listPullRequests addressed, .error error⟩] ∧ r = .error error)) ∨
    ∃ fence pulls answers answer drain, answers.length = pulls.length ∧
      es = swept addressed fence pulls answers
        ++ ⟨pruning addressed fence pulls, answer⟩ :: drain ∧
      (drain = [] ∨ ∃ result, Drains drain result) ∧
      (answer.isOk → ∃ result, Drains drain result) ∧
      ∀ n, r = .ok n ↔ (∀ e ∈ es, succeeded e) ∧ n = pulls.length := by
  cases h with
  | unclocked error => exact .inl (.inl ⟨error, rfl, rfl⟩)
  | unlisted fence error => exact .inl (.inr ⟨fence, error, rfl, rfl⟩)
  | unpruned fence hanswers error =>
    refine .inr ⟨fence, _, _, .error error, [], hanswers, rfl, .inl rfl, nofun, fun n => ?_⟩
    rw [succeeded_swept hanswers]
    simp [Except.isOk, Except.toBool]
  | undrained fence hanswers pruned hdrain =>
    refine .inr ⟨fence, _, _, .ok pruned, _, hanswers, rfl, .inr ⟨_, hdrain⟩, fun _ => ⟨_, hdrain⟩,
      fun n => ?_⟩
    rw [succeeded_swept hanswers, hdrain.succeeded_iff]
    simp [Except.isOk, Except.toBool]
  | @drained fence pulls answers hanswers pruned drain count hdrain result hresult =>
    refine .inr ⟨fence, _, _, .ok pruned, _, hanswers, rfl, .inr ⟨_, hdrain⟩, fun _ => ⟨_, hdrain⟩,
      fun n => ?_⟩
    rw [succeeded_swept hanswers, hdrain.succeeded_iff]
    by_cases hall : ∀ answer ∈ answers, answer.isOk
    · rw [if_pos hall] at hresult
      rw [hresult, Except.ok.injEq]
      exact ⟨fun hn => ⟨⟨hall, rfl, rfl⟩, hn.symm⟩, fun hboth => hboth.2.symm⟩
    · rw [if_neg hall] at hresult
      obtain ⟨error, rfl⟩ := hresult
      exact ⟨nofun, fun hboth => absurd hboth.1.1 hall⟩

/-! ## Honest -/

/-- A reconcile that pruned on a whole listing only and reported how it
went. -/
structure Honest (addressed : Addressed) (es : List (Exchange SweepEffects))
    (r : Except HandlerError ℕ) : Prop where
  /-- The fence is read first, then the listing asked for; the syncs come
  before the prune, and the prune before the drain. -/
  course : Course addressed es r
  /-- Each pull request of a listing is synced once, whichever sync fails. -/
  synced : ∀ pulls, .ok pulls ∈ es.filterMap listingOf →
    es.filterMap syncOf = pulls.map fun request => (requestKey request, request)
  /-- One prune follows it, down to the numbers listed under the fence read. -/
  pruned : ∀ pulls, .ok pulls ∈ es.filterMap listingOf → ∃ fence,
    es.filterMap fenceOf = [fence] ∧
      es.filterMap pruneOf
        = [.retainPrs addressed.repositoryId (pulls.map (·.number)) fence]
  /-- Without a listing nothing is pruned and nothing drained. -/
  spared : (∀ pulls, .ok pulls ∉ es.filterMap listingOf) →
    ∀ e ∈ es, pruneOf e = none ∧ drains e.1 = false
  /-- A prune that landed is followed by a drain. -/
  drained : ∀ prune pruned, (⟨.prune prune, .ok pruned⟩ : Exchange SweepEffects) ∈ es →
    ∃ before drain result, es = before ++ ⟨.prune prune, .ok pruned⟩ :: drain ∧
      Drains drain result
  /-- The count is reported when everything asked for succeeded. -/
  reported : ∀ n, r = .ok n ↔ (∀ e ∈ es, succeeded e) ∧
    ∃ pulls, .ok pulls ∈ es.filterMap listingOf ∧ n = pulls.length

/-- The prune of a reconcile that listed is its own. -/
theorem eq_of_prune_mem (hlength : answers.length = pulls.length)
    (hdrain : ∀ e ∈ drain, drains e.1) {answer : Except HandlerError Pruned} {prune : Prune}
    {pruned : Pruned} (h : (⟨.prune prune, .ok pruned⟩ : Exchange SweepEffects) ∈
      swept addressed fence pulls answers ++ ⟨pruning addressed fence pulls, answer⟩ :: drain) :
    (⟨.prune prune, .ok pruned⟩ : Exchange SweepEffects) = ⟨pruning addressed fence pulls, answer⟩ := by
  rcases List.mem_append.1 h with hswept | hrest
  · have hnone : (swept addressed fence pulls answers).filterMap pruneOf = [] := by
      rw [swept, filterMap_cons_toList, filterMap_cons_toList,
        filterMap_synced (g := fun _ => none) (fun _ _ => rfl) hlength]
      simp [pruneOf]
    exact absurd (List.filterMap_eq_nil_iff.1 hnone _ hswept) nofun
  · rcases List.mem_cons.1 hrest with heq | hdrained
    · exact heq
    · exact absurd (hdrain _ hdrained) nofun

/-- **A repository's reconcile prunes only on a whole listing, and reports
honestly**, whatever fails. -/
theorem repo_reconcile_honest (addressed : Addressed) (es : List (Exchange SweepEffects))
    (r : Except HandlerError ℕ) (h : (runRepoReconcile addressed).Exchanges es r) :
    Honest addressed es r := by
  have hcourse := course_runRepoReconcile h
  rcases hcourse.cases with hunlisted | ⟨fence, pulls, answers, answer, drain, hlength, rfl, hquiet,
    hlanded, hreport⟩
  · have hnone : (∀ pulls, .ok pulls ∉ es.filterMap listingOf) ∧
        (∀ e ∈ es, pruneOf e = none ∧ drains e.1 = false) ∧ ∃ error, r = .error error := by
      rcases hunlisted with ⟨error, rfl, rfl⟩ | ⟨fence, error, rfl, rfl⟩ <;>
        simp [listingOf, pruneOf, drains]
    obtain ⟨hlisting, hspared, error, rfl⟩ := hnone
    refine ⟨hcourse, fun pulls hpulls => absurd hpulls (hlisting pulls),
      fun pulls hpulls => absurd hpulls (hlisting pulls), fun _ => hspared, ?_, fun n => ?_⟩
    · intro prune pruned hmem
      exact absurd (hspared _ hmem).1 nofun
    · exact ⟨nofun, fun ⟨_, pulls, hpulls, _⟩ => absurd hpulls (hlisting pulls)⟩
  · have hdrain : ∀ e ∈ drain, drains e.1 := by
      rcases hquiet with rfl | ⟨result, hdrains⟩
      · exact nofun
      · exact hdrains.quiet
    have hlistings : (swept addressed fence pulls answers
        ++ ⟨pruning addressed fence pulls, answer⟩ :: drain).filterMap listingOf = [.ok pulls] :=
      listings_swept hlength hdrain answer
    refine ⟨hcourse, ?_, ?_, ?_, ?_, ?_⟩
    · intro listed hlisted
      rw [hlistings, List.mem_singleton, Except.ok.injEq] at hlisted
      rw [hlisted]
      exact syncs_swept hlength hdrain answer
    · intro listed hlisted
      rw [hlistings, List.mem_singleton, Except.ok.injEq] at hlisted
      rw [hlisted]
      exact ⟨fence, fences_swept hlength hdrain answer, prunes_swept hlength hdrain answer⟩
    · intro hnone
      rw [hlistings] at hnone
      exact absurd (List.mem_singleton_self _) (hnone pulls)
    · intro prune pruned hmem
      have hself := eq_of_prune_mem hlength hdrain hmem
      have hok : answer.isOk := by
        cases hself
        rfl
      obtain ⟨result, hdrains⟩ := hlanded hok
      exact ⟨_, drain, result, by rw [hself], hdrains⟩
    · intro n
      rw [hreport n, hlistings]
      simp

/-- One pull request listed, whose sync fails; the prune lands, and nothing is
pending. -/
def sampleAnswer : (call : SweepCall) → call.Answer
  | .now _ => .ok 20
  | .listPullRequests _ => .ok [⟨1, "acme", "api", 7, true, none⟩]
  | .syncPullRequest _ _ => .error (.terminal "gone")
  | .listRepositories => .ok []
  | .prune _ => .ok {}
  | .reconcileRepository _ => ()
  | .pendingRetirements => .ok []
  | .closePullRequest _ _ => ()
  | .acknowledgeRetirements _ => .ok ()

theorem repo_reconcile_honest_sample :
    Honest ⟨1, "acme", "api"⟩
        ((runRepoReconcile ⟨1, "acme", "api"⟩).answered (S := SweepEffects) sampleAnswer).1
        ((runRepoReconcile ⟨1, "acme", "api"⟩).answered (S := SweepEffects) sampleAnswer).2 ∧
      ((runRepoReconcile ⟨1, "acme", "api"⟩).answered (S := SweepEffects) sampleAnswer).1.filterMap
        pruneOf = [.retainPrs 1 [7] 20] :=
  ⟨repo_reconcile_honest _ _ _ (Prog.exchanges_answered (S := SweepEffects) _ sampleAnswer), rfl⟩

end Reconcile

end Dependaboard
