import Dependaboard.PullRequest.LateClose
import Dependaboard.Reconcile.AtRest
/-!
# Reconcile — the projection comes to rest with GitHub

A sweep reads its fence, has every listed pull request synced, and prunes
down to the listing. The sync of a pull request may be coalesced behind a
trailing one, so what a sweep that succeeded leaves of an open pull request
is `Owed`: its row as GitHub shows it, or a trailing sync on its way, or a
sync that failed. What a sweep leaves of one that is not open is no row.

Nothing after takes either away. A prune spares what its listing has, and a
close carries a fence from before the row was read.
-/

namespace Dependaboard

open Durable RestWorld

variable {object : PullRequestObject} {g : AtRest object} {u v w w' : RestWorld} {slot : ℕ}

/-- The row is GitHub's, and the object knows it was read since the rest
began. -/
def Fresh (g : AtRest object) (w : RestWorld) : Prop :=
  ∃ row, w.store.row? object.key = some row ∧ g.Shows row ∧ g.since ≤ row.syncedAt ∧
    ∃ last, w.beat.held.lastSyncedAt = some last ∧ g.since ≤ last

/-- The row is GitHub's, or what is to make it so is on its way, or has
failed. -/
def Owed (g : AtRest object) (w : RestWorld) : Prop :=
  w.failed ∨ Fresh g w ∨ w.beat.trailing ≠ []

/-- What every reachable world keeps. -/
structure RestInv (g : AtRest object) (w : RestWorld) : Prop where
  since : g.since ≤ w.beat.clock
  closes : g.Open → ∀ request ∈ w.closes, Fenced g.since request.syncedBefore
  pending : g.Open → ∀ retirement ∈ w.store.pendingRetirements, retirement.key = object.key →
    Fenced g.since retirement.syncedBefore
  old : ¬ g.Open → ∀ row, w.store.row? object.key = some row → row.syncedAt < g.since
  owed : g.Open → w.beat.serving = none → w.ended → Owed g w
  swept : w.swept → (g.Open → w.ended) ∧ (¬ g.Open → w.store.row? object.key = none)

/-- What the sweeps do beside a handler of the object. -/
structure RestWorld.Beside (g : AtRest object) (w w' : RestWorld) : Prop where
  beat : ∃ n, w'.beat = w.beat.wait n
  row : w'.store.row? object.key = w.store.row? object.key ∨
    ¬ g.Open ∧ w'.store.row? object.key = none
  ended : w'.ended = w.ended
  failed : w'.failed = w.failed
  syncing : w'.syncing = w.syncing

/-- What everything else does beside a sweep. -/
structure RestWorld.Apart (g : AtRest object) (slot : ℕ) (w w' : RestWorld) : Prop where
  reconciling : w'.reconciling slot = w.reconciling slot
  ended : w.ended → w'.ended
  gone : ¬ g.Open → w.store.row? object.key = none → w'.store.row? object.key = none

namespace RestWorld

theorem Beside.refl (g : AtRest object) (w : RestWorld) : Beside g w w :=
  ⟨⟨0, rfl⟩, .inl rfl, rfl, rfl, rfl⟩

theorem Beside.trans (h : Beside g u v) (h' : Beside g v w) : Beside g u w where
  beat := by
    obtain ⟨n, hn⟩ := h.beat
    obtain ⟨m, hm⟩ := h'.beat
    exact ⟨n + m, by rw [hm, hn]; simp only [DebounceWorld.wait, Nat.add_assoc]⟩
  row := by
    rcases h'.row with hsame | hnone
    · rw [hsame]
      exact h.row
    · exact .inr hnone
  ended := h'.ended.trans h.ended
  failed := h'.failed.trans h.failed
  syncing := h'.syncing.trans h.syncing

theorem Apart.refl (g : AtRest object) (slot : ℕ) (w : RestWorld) : Apart g slot w w :=
  ⟨rfl, id, fun _ => id⟩

theorem Apart.trans (h : Apart g slot u v) (h' : Apart g slot v w) : Apart g slot u w :=
  ⟨h'.reconciling.trans h.reconciling, h'.ended ∘ h.ended,
    fun hopen hnone => h'.gone hopen (h.gone hopen hnone)⟩

/-- The row of an open pull request is left as it is. -/
theorem Beside.row_of_open (h : Beside g w w') (hopen : g.Open) :
    w'.store.row? object.key = w.store.row? object.key :=
  h.row.resolve_right fun hnone => hnone.1 hopen

theorem Beside.held (h : Beside g w w') : w'.beat.held = w.beat.held := by
  obtain ⟨n, hn⟩ := h.beat
  rw [hn]
  rfl

theorem Beside.durable (h : Beside g w w') : w'.beat.object = w.beat.object := by
  obtain ⟨n, hn⟩ := h.beat
  rw [hn]
  rfl

theorem Beside.serving (h : Beside g w w') : w'.beat.serving = w.beat.serving := by
  obtain ⟨n, hn⟩ := h.beat
  rw [hn]
  rfl

theorem Beside.trailing (h : Beside g w w') : w'.beat.trailing = w.beat.trailing := by
  obtain ⟨n, hn⟩ := h.beat
  rw [hn]
  rfl

/-- No row comes back beside a sweep. -/
theorem Beside.none_of_none (h : Beside g w w') (hnone : w.store.row? object.key = none) :
    w'.store.row? object.key = none := by
  rcases h.row with hsame | ⟨-, hgone⟩
  · rw [hsame, hnone]
  · exact hgone

end RestWorld

/-- A row that is GitHub's stays so beside the sweeps. -/
theorem Fresh.beside (h : Fresh g w) (hopen : g.Open) (hbeside : Beside g w w') :
    Fresh g w' := by
  unfold Fresh
  rw [hbeside.row_of_open hopen, hbeside.held]
  exact h

theorem Owed.beside (h : Owed g w) (hopen : g.Open) (hbeside : Beside g w w') : Owed g w' := by
  rcases h with hfailed | hfresh | htrailing
  · exact .inl (hbeside.failed ▸ hfailed)
  · exact .inr (.inl (hfresh.beside hopen hbeside))
  · exact .inr (.inr (hbeside.trailing ▸ htrailing))

/-- What keeps beside the object keeps the invariant where it keeps what is
still to be told. -/
theorem RestInv.of_beside (h : RestInv g w) (hbeside : Beside g w w')
    (hclock : w.beat.clock ≤ w'.beat.clock)
    (hcloses : g.Open → ∀ request ∈ w'.closes, Fenced g.since request.syncedBefore)
    (hpending : g.Open → ∀ retirement ∈ w'.store.pendingRetirements,
      retirement.key = object.key → Fenced g.since retirement.syncedBefore)
    (hswept : w'.swept → w.swept ∨ (g.Open → w.ended) ∧
      (¬ g.Open → w.store.row? object.key = none)) : RestInv g w' where
  since := h.since.trans hclock
  closes := hcloses
  pending := hpending
  old hopen row hrow := by
    rcases hbeside.row with hsame | ⟨-, hnone⟩
    · exact h.old hopen row (hsame ▸ hrow)
    · rw [hnone] at hrow
      cases hrow
  owed hopen hidle hended :=
    (h.owed hopen (hbeside.serving ▸ hidle) (hbeside.ended ▸ hended)).beside hopen hbeside
  swept hswept' := by
    have hleaves : (g.Open → w.ended) ∧ (¬ g.Open → w.store.row? object.key = none) := by
      rcases hswept hswept' with hbefore | hnow
      · exact h.swept hbefore
      · exact hnow
    exact ⟨fun hopen => hbeside.ended ▸ hleaves.1 hopen,
      fun hopen => hbeside.none_of_none (hleaves.2 hopen)⟩

/-! ## The listing -/

/-- Nothing slips past a page's end while nothing moves. -/
theorem AtRest.steady_caught (g : AtRest object) (last : ℕ) : g.steady.Caught last := by
  rintro pull - ⟨p, -, -, hbehind, hbefore⟩
  exact absurd hbefore (Nat.not_lt.2 hbehind)

namespace AtRest.Listed

variable {owner repo : String} {pulls : List SyncRequest}

/-- **A listing at rest has the pull request exactly when it is open.** -/
theorem mem_iff (h : g.Listed owner repo pulls) :
    object.key.number ∈ pulls.map (·.number) ↔ g.Open := by
  obtain ⟨send, fuel, hsend, hlisting⟩ := h
  constructor
  · intro hmem
    obtain ⟨last, -, -, -, hread⟩ := listDependabotPrs_ok hlisting
    rcases (hread _).1 hmem with hnone | ⟨p, hp, -, response, hok, pull, hpull, hlogin, hnumber⟩
    · exact absurd hnone List.not_mem_nil
    · rw [hsend.found_of_ok hp hok] at hpull
      exact ⟨pull, List.mem_of_mem_drop (List.mem_of_mem_take hpull), hlogin, hnumber⟩
  · rintro ⟨pull, hpull, hlogin, hnumber⟩
    obtain ⟨last, hends, hread⟩ := hsend.listing_ok hlisting
    have hcomplete : g.steady.Complete last pulls :=
      (OpenPulls.complete_iff_caught hends hread).2 (g.steady_caught last)
    exact hnumber ▸ hcomplete pull ⟨hlogin, fun _ _ _ => hpull⟩

/-- So the sweep asks the object of an open pull request to sync. -/
theorem exists_request (h : g.Listed owner repo pulls) (hopen : g.Open) :
    ∃ request ∈ pulls, requestKey request = object.key := by
  obtain ⟨request, hmem, hnumber⟩ := List.mem_map.1 (h.mem_iff.2 hopen)
  obtain ⟨send, fuel, -, hlisting⟩ := h
  have hrepository : request.repositoryId = object.key.repositoryId :=
    (listDependabotPrs_repository hlisting request hmem).resolve_left List.not_mem_nil
  exact ⟨request, hmem, congrArg₂ PrKey.mk hrepository hnumber⟩

end AtRest.Listed

/-! ## The sweeps -/

/-- A prune that takes no row of the pull request. -/
def Prune.Spares (key : PrKey) (prune : Prune) : Prop :=
  ∀ store row, Store.row? store key = some row → prune.dooms store row = false

/-- What a sweep may ask for while GitHub is at rest. -/
def SweepCall.Allowed (g : AtRest object) : SweepCall → Prop
  | .prune p => g.Open → p.Spares object.key
  | .closePullRequest key request =>
    g.Open → key = object.key → Fenced g.since request.syncedBefore
  | _ => True

/-- The row a prune leaves. -/
theorem Prune.Landed.row {prune : Prune} {store store' : Store} {pruned : List PrKey}
    (h : prune.Landed store pruned store') (key : PrKey) :
    store'.row? key = (store.row? key).filter fun row => !prune.dooms store row := by
  unfold Store.row?
  rw [h.rows, Relational.Table.find?_delete]

/-- A prune that spares the row queues nothing for it. -/
theorem Prune.Landed.not_mem_pruned {prune : Prune} {store store' : Store} {pruned : List PrKey}
    {key : PrKey} (h : prune.Landed store pruned store') (hspares : prune.Spares key) :
    key ∉ pruned := by
  intro hmem
  obtain ⟨row, hrow, hdoomed, rfl⟩ := h.mem_pruned.1 hmem
  have hfound : store.row? row.key = some row := Relational.Table.find?_eq_some.2 ⟨hrow, rfl⟩
  rw [hspares store row hfound] at hdoomed
  cases hdoomed

/-- **A reconcile's prune spares what its listing has**, and another
repository's spares every row. -/
theorem Prune.spares_retainPrs {key : PrKey} {repositoryId fence : ℕ} {live : List ℕ}
    (h : repositoryId = key.repositoryId → key.number ∈ live) :
    (Prune.retainPrs repositoryId live fence).Spares key := by
  intro store row hrow
  obtain ⟨-, rfl⟩ := Relational.Table.find?_eq_some.1 hrow
  refine decide_eq_false ?_
  rintro ⟨hrepository, -, hlive⟩
  exact hlive (h hrepository.symm)

/-- An installation's prune spares the rows of the repositories it lists. -/
theorem Prune.spares_replace {key : PrKey} {installationId fence : ℕ}
    {repositories : List RepoRecord} (h : key.repositoryId ∈ repositories.map (·.repositoryId)) :
    (Prune.replaceInstallationRepos installationId repositories fence).Spares key := by
  intro store row hrow
  obtain ⟨-, rfl⟩ := Relational.Table.find?_eq_some.1 hrow
  show store.hangsOff _ row = false
  unfold Store.hangsOff
  cases hrepository : store.repository? row.repositoryId with
  | none => rfl
  | some repository =>
    obtain ⟨-, hid⟩ := Relational.Table.find?_eq_some.1 hrepository
    have hlisted : repository.repositoryId ∈ repositories.map (·.repositoryId) := hid ▸ h
    simp [Prune.drops, hlisted]

/-- A prune allowed stays beside the object, and leaves nothing more to be
told it. -/
theorem beside_prune {prune : Prune} {pruned : List PrKey} {store' : Store}
    (hinv : RestInv g w) (hspares : g.Open → prune.Spares object.key)
    (h : prune.Landed w.store pruned store') :
    RestInv g { w with store := store' } ∧ Beside g w { w with store := store' } := by
  have hrow := h.row object.key
  have hbeside : Beside g w { w with store := store' } := by
    refine ⟨⟨0, rfl⟩, ?_, rfl, rfl, rfl⟩
    show store'.row? object.key = w.store.row? object.key ∨ ¬ g.Open ∧ store'.row? object.key = none
    cases hbefore : w.store.row? object.key with
    | none => exact .inl (by rw [hrow, hbefore]; rfl)
    | some row =>
      by_cases hopen : g.Open
      · refine .inl ?_
        rw [hrow, hbefore]
        simp [hspares hopen _ row hbefore]
      · cases hdoomed : prune.dooms w.store row with
        | true => exact .inr ⟨hopen, by rw [hrow, hbefore]; simp [hdoomed]⟩
        | false => exact .inl (by rw [hrow, hbefore]; simp [hdoomed])
  refine ⟨hinv.of_beside hbeside le_rfl hinv.closes (fun hopen retirement hmem hkey => ?_) .inl,
    hbeside⟩
  rcases h.mem_retirements.1 hmem with hold | hnew
  · exact hinv.pending hopen retirement hold hkey
  · exact absurd (hkey ▸ (h.of_mem_queuedRows hnew).1) (h.not_mem_pruned (hspares hopen))

/-- **What a sweep's call does**: it keeps the invariant, and stays beside
the object and apart from the sweeps. -/
theorem restSweep_keeps {call : SweepCall} {answer : call.Answer} (hinv : RestInv g w)
    (hallowed : call.Allowed g) (hsem : restSweep g call w answer w') :
    RestInv g w' ∧ Beside g w w' ∧ ∀ slot, Apart g slot w w' := by
  have hsame : w' = w → RestInv g w' ∧ Beside g w w' ∧ ∀ slot, Apart g slot w w' := by
    rintro rfl
    exact ⟨hinv, .refl g _, fun slot => .refl g slot _⟩
  cases call with
  | prune prune =>
    rcases hsem with ⟨-, -, rfl⟩ | ⟨pruned, store', hrun, -, rfl⟩
    · exact hsame rfl
    · obtain ⟨hkept, hbeside⟩ := beside_prune hinv hallowed (Prune.run_ok hrun)
      exact ⟨hkept, hbeside, fun slot => ⟨rfl, id, fun _ => hbeside.none_of_none⟩⟩
  | closePullRequest key request =>
    by_cases hkey : key = object.key
    · obtain rfl : w' = { w with closes := w.closes ++ [request] } :=
        (show w' = _ from hsem).trans (if_pos hkey)
      have hbeside : Beside g w { w with closes := w.closes ++ [request] } :=
        ⟨⟨0, rfl⟩, .inl rfl, rfl, rfl, rfl⟩
      refine ⟨hinv.of_beside hbeside le_rfl (fun hopen other hmem => ?_) hinv.pending .inl, hbeside,
        fun slot => ⟨rfl, id, fun _ => id⟩⟩
      rcases List.mem_append.1 hmem with hold | hnew
      · exact hinv.closes hopen other hold
      · obtain rfl := List.mem_singleton.1 hnew
        exact hallowed hopen hkey
    · exact hsame ((show w' = _ from hsem).trans (if_neg hkey))
  | acknowledgeRetirements through =>
    rcases hsem with ⟨-, -, rfl⟩ | ⟨store', hacknowledged, -, rfl⟩
    · exact hsame rfl
    · obtain rfl := Store.acknowledgeRetirements_ok hacknowledged
      have hbeside : Beside g w { w with store := w.store.deleteRetirements through } :=
        ⟨⟨0, rfl⟩, .inl rfl, rfl, rfl, rfl⟩
      refine ⟨hinv.of_beside hbeside le_rfl hinv.closes (fun hopen retirement hmem => ?_) .inl,
        hbeside, fun slot => ⟨rfl, id, fun _ => id⟩⟩
      exact hinv.pending hopen retirement (Relational.Numbered.mem_removeThrough.1 hmem).1
  | reconcileRepository repository => exact hsame hsem
  | now _ | listPullRequests _ | syncPullRequest _ _ | listRepositories | pendingRetirements =>
    exact hsame hsem.1

/-- The outline: what a handler of the object may count on beside the sweeps,
and a sweep beside everything else. What is known of the object is not its to
show. -/
def restOutline (g : AtRest object) :
    Outline ((restSystem g).within fun w => DebounceKnown object w.beat) where
  inv := RestInv g
  rely
    | none => Beside g
    | some slot => Apart g slot
  rely_refl
    | none => Beside.refl g
    | some slot => Apart.refl g slot
  rely_trans := by
    rintro (_ | slot) u v w h h'
    · exact Beside.trans h h'
    · exact Apart.trans h h'

namespace Sweeping

variable {α : Type} {post : Except HandlerError α → RestWorld → Prop}

/-- What a sweep may assert between its calls. -/
def Lasting (g : AtRest object) (slot : ℕ) (P : RestWorld → Prop) : Prop :=
  ∀ u v, P u → Apart g slot u v → P v

/-- **The rule of a sweep's call**: an assertion stands, and the answer says
what it says. -/
theorem safe_ask {call : SweepCall} {k : call.Answer → SweepM α} {P : RestWorld → Prop}
    (hP : P w) (hlasting : Lasting g slot P) (hallowed : call.Allowed g)
    (hk : ∀ u answer v, P v → RestInv g u → restSweep g call u answer v →
      (restOutline g).Safe (some slot) (k answer) post v) :
    (restOutline g).Safe (some slot) (Prog.ask (S := SweepEffects) call k) post w := by
  intro u hu hinv
  have hPu : P u := hlasting w u hP hu
  refine ⟨trivial, ?_, ?_⟩
  · rintro answer v ⟨hsem, -⟩
    obtain ⟨hkept, hbeside, hapart⟩ := restSweep_keeps hinv hallowed hsem
    refine ⟨⟨hkept, fun other hne => ?_⟩,
      hk u answer v (hlasting u v hPu (hapart slot)) hinv hsem⟩
    cases other with
    | none => exact hbeside
    | some other => exact hapart other
  · rintro v ⟨⟨answer, hsem⟩, -⟩
    obtain ⟨hkept, hbeside, hapart⟩ := restSweep_keeps hinv hallowed hsem
    refine ⟨⟨hkept, fun other hne => ?_⟩, hapart slot⟩
    cases other with
    | none => exact hbeside
    | some other => exact hapart other

theorem safe_done {P : RestWorld → Prop} (hP : P w) (hlasting : Lasting g slot P) {a : α}
    (hpost : ∀ u, P u → post (.ok a) u) :
    (restOutline g).Safe (some slot) (.done a : SweepM α) post w :=
  fun u hu _ => hpost u (hlasting w u hP hu)

/-- What a sweep that fails has left does not matter. -/
theorem safe_fail {error : HandlerError} (hpost : ∀ u, post (.error error) u) :
    (restOutline g).Safe (some slot) (.fail error : SweepM α) post w :=
  fun u _ _ => hpost u

/-- The slot sweeps `repository`, and `ended` says that the sync it waited
on has ended. -/
structure At (g : AtRest object) (slot : ℕ) (repository : Option ℕ) (ended : Prop)
    (w : RestWorld) : Prop where
  reconciling : w.reconciling slot = repository
  ended : ended → w.ended

theorem At.lasting (repository : Option ℕ) (ended : Prop) :
    Lasting g slot (At g slot repository ended) :=
  fun _ _ hu hapart => ⟨hapart.reconciling.trans hu.reconciling, fun h => hapart.ended (hu.ended h)⟩

/-- What the drain asks to be told. -/
def ToTell (g : AtRest object) (pending : List Retirement) : Prop :=
  g.Open → ∀ retirement ∈ pending, retirement.key = object.key →
    Fenced g.since retirement.syncedBefore

/-- **A drain tells the object nothing newer than the rest**, and leaves
what was asserted. -/
theorem safe_retirePending {P : RestWorld → Prop} (hP : P w) (hlasting : Lasting g slot P)
    (pruned : Pruned) : (restOutline g).Safe (some slot) (retirePending pruned)
      (fun r u => ∀ n, r = .ok n → P u) w := by
  refine safe_ask hP hlasting trivial ?_
  rintro u answer v hv hinv ⟨rfl, hpending⟩
  cases answer with
  | error error => exact safe_fail fun _ _ h => by cases h
  | ok pending =>
  obtain rfl := hpending pending rfl
  simp only [Prog.bind_eq, Prog.ofExcept_ok, Prog.done_bind]
  split
  · exact safe_done hv hlasting fun _ hu _ _ => hu
  · refine .bind (.forEach (fun rest v => ToTell g rest ∧ P v) ?_ ?_ ?_ ⟨hinv.pending, hv⟩)
    · rintro v - ⟨-, hv⟩
      refine safe_ask hv hlasting trivial fun _ answer v' hv' _ _ => ?_
      cases answer with
      | error error => exact safe_fail fun _ _ h => by cases h
      | ok _ => exact safe_done hv' hlasting fun _ hu _ _ => hu
    · rintro rest v v' ⟨htell, hv⟩ hapart -
      exact ⟨htell, hlasting v v' hv hapart⟩
    · rintro retirement rest v ⟨htell, hv⟩
      refine safe_ask hv hlasting (fun hopen hkey => htell hopen retirement List.mem_cons_self hkey)
        fun _ _ v' hv' _ _ => ?_
      exact safe_done hv' hlasting fun _ hu =>
        ⟨fun hopen other hmem => htell hopen other (List.mem_cons_of_mem _ hmem), hu⟩

/-- **Every sync that answered has ended.** -/
theorem safe_syncListed {repository : Option ℕ} {ended : Prop} (pulls : List SyncRequest)
    (hw : At g slot repository ended w) : (restOutline g).Safe (some slot) (syncListed pulls)
      (fun r u => ∀ failed, r = .ok failed → At g slot repository (ended ∨ failed = [] ∧
        ∃ request ∈ pulls, requestKey request = object.key) u) w := by
  induction pulls generalizing w ended with
  | nil =>
    refine safe_done hw (At.lasting _ _) fun u hu failed _ => ⟨hu.reconciling, fun h => hu.ended ?_⟩
    rcases h with h | ⟨-, request, hmem, -⟩
    · exact h
    · cases hmem
  | cons request rest ih =>
    refine safe_ask hw (At.lasting _ _) trivial ?_
    rintro u answer v hv - ⟨rfl, hanswered⟩
    have hv' : At g slot repository
        (ended ∨ answer = .ok () ∧ requestKey request = object.key) v := by
      refine ⟨hv.reconciling, fun h => ?_⟩
      rcases h with h | ⟨hok, hkey⟩
      · exact hv.ended h
      · exact hanswered hkey hok
    show (restOutline g).Safe (some slot) ((syncListed rest).bind _) _ v
    refine .bind ((ih hv').mono fun r u' _ hr => ?_)
    cases r with
    | error error => exact fun _ h => by cases h
    | ok failed =>
      have hfailed := hr failed rfl
      cases answer with
      | error error =>
        refine safe_done hfailed (At.lasting _ _) fun u hu _ heq =>
          ⟨hu.reconciling, fun h => hu.ended ?_⟩
        cases heq
        rcases h with h | ⟨h, -⟩
        · exact .inl (.inl h)
        · cases h
      | ok _ =>
        refine safe_done hfailed (At.lasting _ _) fun u hu _ heq =>
          ⟨hu.reconciling, fun h => hu.ended ?_⟩
        cases heq
        rcases h with h | ⟨hnil, other, hmem, hkey⟩
        · exact .inl (.inl h)
        · rcases List.mem_cons.1 hmem with rfl | hrest
          · exact .inl (.inr ⟨rfl, hkey⟩)
          · exact .inr ⟨hnil, other, hrest, hkey⟩

/-- What a reconcile of the object's repository that succeeded leaves: the
sync of an open pull request has ended, and one that is not open has no
row. -/
def Reconciled (g : AtRest object) (w : RestWorld) : Prop :=
  (g.Open → w.ended) ∧ (¬ g.Open → w.store.row? object.key = none)

/-- **A reconcile that succeeds has had the pull request synced, or has
pruned it.** -/
theorem safe_runRepoReconcile {addressed : Addressed}
    (hw : At g slot (some addressed.repositoryId) False w) :
    (restOutline g).Safe (some slot) (runRepoReconcile addressed)
      (fun r u => ∀ n, r = .ok n → u.reconciling slot = some object.key.repositoryId →
        Reconciled g u) w := by
  unfold runRepoReconcile
  refine safe_ask hw (At.lasting _ _) trivial ?_
  rintro u₁ start w₁ hw₁ hinv₁ ⟨rfl, hclock⟩
  cases start with
  | error error => exact safe_fail fun _ _ h => by cases h
  | ok start =>
  have hstart : g.since ≤ start := hclock start rfl ▸ hinv₁.since
  refine safe_ask hw₁ (At.lasting _ _) trivial ?_
  rintro u₂ listing w₂ hw₂ - ⟨rfl, hlisted⟩
  cases listing with
  | error error => exact safe_fail fun _ _ h => by cases h
  | ok pulls =>
  have hlive : addressed.repositoryId = object.key.repositoryId →
      (object.key.number ∈ pulls.map (·.number) ↔ g.Open) :=
    fun hrepository => (hlisted pulls rfl hrepository).mem_iff
  show (restOutline g).Safe (some slot) ((syncListed pulls).bind _) _ w₂
  refine .bind ((safe_syncListed pulls hw₂).mono fun r w₃ _ hr => ?_)
  cases r with
  | error error => exact fun _ h => by cases h
  | ok failed =>
  have hw₃ := hr failed rfl
  refine safe_ask hw₃ (At.lasting _ _) (fun hopen => Prune.spares_retainPrs fun hrepository =>
    (hlive hrepository).2 hopen) ?_
  rintro u₄ pruned w₄ hw₄ hinv₄ hsem
  rcases hsem with ⟨error, rfl, rfl⟩ | ⟨keys, store', hrun, rfl, rfl⟩
  · exact safe_fail fun _ _ h => by cases h
  -- what is not open is not in the listing, and its row is from before the fence
  have hgone : addressed.repositoryId = object.key.repositoryId → ¬ g.Open →
      store'.row? object.key = none := by
    intro hrepository hopen
    rw [(Prune.run_ok hrun).row object.key, Option.filter_eq_none_iff]
    intro row hrow
    have hold := hinv₄.old hopen row hrow
    obtain ⟨-, hkey⟩ := Relational.Table.find?_eq_some.1 hrow
    have hdoomed : Prune.dooms u₄.store (.retainPrs addressed.repositoryId
        (pulls.map (·.number)) start) row = true := by
      refine decide_eq_true ⟨?_, hold.trans_le hstart, fun hmem => hopen ?_⟩
      · exact (congrArg PrKey.repositoryId hkey).trans hrepository.symm
      · exact (hlive hrepository).1 (congrArg PrKey.number hkey ▸ hmem)
    simp [hdoomed]
  have hlasting : Lasting g slot fun w => At g slot (some addressed.repositoryId)
      (False ∨ failed = [] ∧ ∃ request ∈ pulls, requestKey request = object.key) w ∧
        (addressed.repositoryId = object.key.repositoryId → ¬ g.Open →
          w.store.row? object.key = none) :=
    fun u v hu hapart => ⟨At.lasting _ _ u v hu.1 hapart,
      fun hrepository hopen => hapart.gone hopen (hu.2 hrepository hopen)⟩
  show (restOutline g).Safe (some slot) ((retirePending {}).bind _) _ { u₄ with store := store' }
  refine .bind ((safe_retirePending ⟨hw₄, hgone⟩ hlasting {}).mono fun r w₅ _ hr => ?_)
  cases r with
  | error error => exact fun _ h => by cases h
  | ok told =>
  have hw₅ := hr told rfl
  show (restOutline g).Safe (some slot) (if failed = [] then _ else _) _ w₅
  split
  · rename_i hnil
    refine safe_done hw₅ hlasting fun u hu _ _ hreconciling => ?_
    have hrepository : addressed.repositoryId = object.key.repositoryId :=
      Option.some.inj (hu.1.reconciling.symm.trans hreconciling)
    refine ⟨fun hopen => hu.1.ended (.inr ⟨hnil, ?_⟩), hu.2 hrepository⟩
    exact (hlisted pulls rfl hrepository).exists_request hopen
  · exact safe_fail fun _ _ h => by cases h

/-- An installation's sync prunes no row of a repository it lists. -/
theorem safe_runInstallationSync (installationId : ℕ) {repository : Option ℕ}
    (hw : At g slot repository False w) :
    (restOutline g).Safe (some slot) (runInstallationSync installationId)
      (fun r u => ∀ n, r = .ok n → At g slot repository False u) w := by
  unfold runInstallationSync
  refine safe_ask hw (At.lasting _ _) trivial ?_
  rintro u₁ start w₁ hw₁ - ⟨rfl, -⟩
  cases start with
  | error error => exact safe_fail fun _ _ h => by cases h
  | ok start =>
  refine safe_ask hw₁ (At.lasting _ _) trivial ?_
  rintro u₂ listing w₂ hw₂ - ⟨rfl, hlisted⟩
  cases listing with
  | error error => exact safe_fail fun _ _ h => by cases h
  | ok repositories =>
  refine safe_ask hw₂ (At.lasting _ _)
    (fun _ => Prune.spares_replace (hlisted repositories rfl)) ?_
  rintro u₃ pruned w₃ hw₃ - -
  cases pruned with
  | error error => exact safe_fail fun _ _ h => by cases h
  | ok pruned =>
  show (restOutline g).Safe (some slot) ((retirePending pruned).bind _) _ w₃
  refine .bind ((safe_retirePending hw₃ (At.lasting _ _) pruned).mono fun r w₄ _ hr => ?_)
  cases r with
  | error error => exact fun _ h => by cases h
  | ok told =>
  refine .bind (.forEach (fun _ u => At g slot repository False u) ?_ ?_ ?_ (hr told rfl))
  · rintro u - hu
    exact safe_done hu (At.lasting _ _) fun _ hv _ _ => hv
  · exact fun _ u v hu hapart _ => At.lasting _ _ u v hu hapart
  · intro listed rest u hu
    refine safe_ask hu (At.lasting _ _) trivial fun _ _ v hv _ _ => ?_
    exact safe_done hv (At.lasting _ _) fun _ h => h

end Sweeping

/-! ## The object's handlers -/

/-- A call leaves the object's handler where it is. -/
theorem serving_of_debounceSem {call : PullRequestCall} {answer : call.Answer}
    {beat beat' : DebounceWorld} (h : debounceSem call beat answer beat') :
    beat'.serving = beat.serving ∧ beat.clock ≤ beat'.clock := by
  cases call with
  | fetchSnapshot request known =>
    obtain ⟨⟨n, rfl⟩, -⟩ := h
    exact ⟨rfl, Nat.le_add_right _ _⟩
  | scheduleSync key request after =>
    obtain rfl := h
    cases after <;> exact ⟨rfl, le_rfl⟩
  | setState state => obtain rfl := h; exact ⟨rfl, le_rfl⟩
  | clearState => obtain rfl := h; exact ⟨rfl, le_rfl⟩
  | now step | state => obtain ⟨rfl, -⟩ := h; exact ⟨rfl, le_rfl⟩
  | merge _ _ | postCommand _ | updateBranch _ | upsertProjection _ | deleteProjection _ _
  | repositoryMergeMethod _ => obtain rfl := h; exact ⟨rfl, le_rfl⟩

/-- What a handler's call may change: the object, and the rows. -/
structure Called (g : AtRest object) (w w' : RestWorld) : Prop where
  serving : w'.beat.serving = w.beat.serving
  clock : w.beat.clock ≤ w'.beat.clock
  retirements : w'.store.retirements = w.store.retirements
  row : w'.store.row? object.key = w.store.row? object.key ∨ g.Open ∨
    w'.store.row? object.key = none
  closes : w'.closes = w.closes
  syncing : w'.syncing = w.syncing
  ended : w'.ended = w.ended
  failed : w'.failed = w.failed
  reconciling : w'.reconciling = w.reconciling
  swept : w'.swept = w.swept

/-- **What a handler's call does.** Only the row of an open pull request is
ever written. -/
theorem restSem_called {call : PullRequestCall} {answer : call.Answer}
    (h : restSem g call w answer w')
    (hopen : ∀ snapshot, call = .upsertProjection snapshot → g.Open) : Called g w w' := by
  obtain ⟨beat', hbeat, hanswers⟩ := h
  obtain ⟨hserving, hclock⟩ := serving_of_debounceSem hbeat
  have hsame : w' = { w with beat := beat' } → Called g w w' := by
    rintro rfl
    exact ⟨hserving, hclock, rfl, .inl rfl, rfl, rfl, rfl, rfl, rfl, rfl⟩
  cases call with
  | upsertProjection snapshot =>
    rcases hanswers with ⟨-, -, rfl⟩ | ⟨store', hupsert, -, rfl⟩
    · exact hsame rfl
    · obtain ⟨hrepo, rfl⟩ := Store.upsertPr_ok hupsert
      exact ⟨hserving, hclock, rfl, .inr (.inl (hopen snapshot rfl)), rfl, rfl, rfl, rfl, rfl, rfl⟩
  | deleteProjection step key =>
    rcases hanswers with ⟨-, -, rfl⟩ | ⟨-, rfl⟩
    · exact hsame rfl
    · refine ⟨hserving, hclock, rfl, ?_, rfl, rfl, rfl, rfl, rfl, rfl⟩
      show (w.store.deletePr key).row? object.key = w.store.row? object.key ∨ _ ∨
        (w.store.deletePr key).row? object.key = none
      rw [Store.row?_deletePr]
      split
      · exact .inr (.inr rfl)
      · exact .inl rfl
  | fetchSnapshot request known => exact hsame hanswers.1
  | merge request method => exact hsame hanswers.1
  | now _ | state | setState _ | clearState | scheduleSync _ _ _ | postCommand _
  | updateBranch _ | repositoryMergeMethod _ => exact hsame hanswers

/-- A call of a handler keeps the invariant, and is nothing to a sweep. -/
theorem Called.keeps (h : Called g w w') (hinv : RestInv g w) (hbusy : w.beat.serving ≠ none) :
    (restOutline g).Keeps none w w' := by
  have hnone : ¬ g.Open → w.store.row? object.key = none → w'.store.row? object.key = none := by
    intro hopen hnone
    rcases h.row with hsame | hnow | hgone
    · rw [hsame, hnone]
    · exact absurd hnow hopen
    · exact hgone
  refine ⟨⟨hinv.since.trans h.clock, ?_, ?_, ?_, ?_, ?_⟩, ?_⟩
  · rw [h.closes]
    exact hinv.closes
  · intro hopen retirement hmem
    refine hinv.pending hopen retirement ?_
    rwa [Store.pendingRetirements, ← h.retirements]
  · intro hopen row hrow
    rcases h.row with hsame | hnow | hgone
    · exact hinv.old hopen row (hsame ▸ hrow)
    · exact absurd hnow hopen
    · rw [hgone] at hrow
      cases hrow
  · exact fun _ hidle => absurd (h.serving ▸ hidle) hbusy
  · intro hswept
    obtain ⟨hended, hgone⟩ := hinv.swept (h.swept ▸ hswept)
    exact ⟨fun hopen => h.ended ▸ hended hopen, fun hopen => hnone hopen (hgone hopen)⟩
  · rintro (_ | slot) hne
    · exact absurd rfl hne
    · exact ⟨congrFun h.reconciling slot, fun hended => h.ended ▸ hended, hnone⟩

namespace Serving

variable {α : Type} {post : Except HandlerError α → RestWorld → Prop}

/-- What a handler may assert between its calls. -/
structure Lasting (g : AtRest object) (P : RestWorld → Prop) : Prop where
  busy : ∀ w, P w → w.beat.serving ≠ none
  beside : ∀ u v, P u → Beside g u v → P v

/-- **The rule of a handler's call**: from one assertion to another. -/
theorem safe_ask {call : PullRequestCall} {k : call.Answer → PullRequestM α}
    {P : RestWorld → Prop} {Q : call.Answer → RestWorld → Prop} (hP : P w)
    (hlasting : Lasting g P) (hopen : ∀ snapshot, call = .upsertProjection snapshot → g.Open)
    (hstep : ∀ u answer v, P u → RestInv g u → Called g u v → restSem g call u answer v →
      Q answer v)
    (hk : ∀ answer v, Q answer v → (restOutline g).Safe none (k answer) post v) :
    (restOutline g).Safe none (Prog.ask (S := PullRequestEffects) call k) post w := by
  refine Outline.Safe.ask (P := P) hP (fun u v hu hbeside _ => hlasting.beside u v hu hbeside)
    (fun u v hlose => hlose.1) (fun _ _ _ => trivial) ?_
  rintro u answer v hu hinv ⟨hsem, -⟩
  have hcalled := restSem_called hsem hopen
  exact ⟨hcalled.keeps hinv (hlasting.busy u hu), hk answer v (hstep u answer v hu hinv hcalled hsem)⟩

theorem safe_done {P : RestWorld → Prop} (hP : P w) (hlasting : Lasting g P) {a : α}
    (hpost : ∀ u, P u → post (.ok a) u) :
    (restOutline g).Safe none (.done a : PullRequestM α) post w :=
  fun u hu _ => hpost u (hlasting.beside w u hP hu)

theorem safe_fail {P : RestWorld → Prop} (hP : P w) (hlasting : Lasting g P)
    {error : HandlerError} (hpost : ∀ u, P u → post (.error error) u) :
    (restOutline g).Safe none (.fail error : PullRequestM α) post w :=
  fun u hu _ => hpost u (hlasting.beside w u hP hu)

/-- The object serves `delivery`, a sync or not, and holds `held`. -/
structure At (delivery : Delivery) (syncing : Bool) (held : Option PrState) (w : RestWorld) :
    Prop where
  serving : w.beat.serving = some delivery
  syncing : w.syncing = syncing
  holds : w.beat.object = held

theorem At.beside {delivery : Delivery} {syncing : Bool} {held : Option PrState}
    (h : At delivery syncing held u) (hbeside : Beside g u v) : At delivery syncing held v :=
  ⟨hbeside.serving.trans h.serving, hbeside.syncing.trans h.syncing,
    hbeside.durable.trans h.holds⟩

theorem At.busy {delivery : Delivery} {syncing : Bool} {held : Option PrState}
    (h : At delivery syncing held w) : w.beat.serving ≠ none := by
  rw [h.serving]
  exact Option.some_ne_none _

theorem At.lasting (g : AtRest object) (delivery : Delivery) (syncing : Bool)
    (held : Option PrState) : Lasting g (At delivery syncing held) :=
  ⟨fun _ => At.busy, fun _ _ h hbeside => h.beside hbeside⟩

/-- A call that leaves the object's state as it is. -/
theorem safe_quiet {call : PullRequestCall} {k : call.Answer → PullRequestM α}
    {delivery : Delivery} {syncing : Bool} {held : Option PrState}
    (hw : At delivery syncing held w) (hcall : ∀ snapshot, call ≠ .upsertProjection snapshot)
    (hquiet : ∀ beat answer beat', debounceSem call beat answer beat' →
      beat'.object = beat.object)
    (hk : ∀ u answer v, At delivery syncing held v → restSem g call u answer v →
      (restOutline g).Safe none (k answer) post v) :
    (restOutline g).Safe none (Prog.ask (S := PullRequestEffects) call k) post w := by
  refine safe_ask (Q := fun answer v => At delivery syncing held v ∧ ∃ u, restSem g call u answer v)
    hw (At.lasting g _ _ _) (fun snapshot h => absurd h (hcall snapshot)) ?_ ?_
  · intro u answer v hu _ hcalled hsem
    obtain ⟨beat', hbeat, hanswers⟩ := hsem
    refine ⟨⟨hcalled.serving.trans hu.serving, hcalled.syncing.trans hu.syncing, ?_⟩, u, beat', hbeat,
      hanswers⟩
    rw [restAnswers_beat hanswers]
    exact (hquiet u.beat answer beat' hbeat).trans hu.holds
  · rintro answer v ⟨hv, u, hsem⟩
    exact hk u answer v hv hsem

/-- The object's own state, read. -/
theorem safe_state {f : Option PrState → PullRequestM α} {delivery : Delivery} {syncing : Bool}
    {held : Option PrState} (hw : At delivery syncing held w)
    (hk : ∀ v, At delivery syncing held v → (restOutline g).Safe none (f held) post v) :
    (restOutline g).Safe none (PullRequestM.state.bind f) post w := by
  refine safe_ask (Q := fun answer v => answer = .ok held ∧ At delivery syncing held v) hw
    (At.lasting g _ _ _) (fun _ h => by cases h) ?_ ?_
  · rintro u answer v hu - - ⟨beat', ⟨rfl, rfl⟩, rfl⟩
    exact ⟨congrArg Except.ok hu.holds, hu⟩
  · rintro answer v ⟨rfl, hv⟩
    exact hk v hv

/-- The object's state, written. -/
theorem safe_setState {state : PrState} {f : Unit → PullRequestM α} {delivery : Delivery}
    {syncing : Bool} {held : Option PrState} (hw : At delivery syncing held w)
    (hk : ∀ v, At delivery syncing (some state) v → (restOutline g).Safe none (f ()) post v) :
    (restOutline g).Safe none ((PullRequestM.setState state).bind f) post w := by
  refine safe_ask (Q := fun _ => At delivery syncing (some state)) hw (At.lasting g _ _ _)
    (fun _ h => by cases h) ?_ fun _ => hk
  rintro u answer v hu - - ⟨beat', rfl, rfl⟩
  exact ⟨hu.serving, hu.syncing, rfl⟩

/-- The object's state, forgotten. -/
theorem safe_clearState {f : Unit → PullRequestM α} {delivery : Delivery} {syncing : Bool}
    {held : Option PrState} (hw : At delivery syncing held w)
    (hk : ∀ v, At delivery syncing none v → (restOutline g).Safe none (f ()) post v) :
    (restOutline g).Safe none (PullRequestM.clearState.bind f) post w := by
  refine safe_ask (Q := fun _ => At delivery syncing none) hw (At.lasting g _ _ _)
    (fun _ h => by cases h) ?_ fun _ => hk
  rintro u answer v hu - - ⟨beat', rfl, rfl⟩
  exact ⟨hu.serving, hu.syncing, rfl⟩

/-! ### The sync -/

/-- What a sync leaves, wherever it ends: a row read is GitHub's, and a pull
request found gone is not open. -/
structure SyncLeaves (g : AtRest object) (delivery : Delivery) (r : Except HandlerError SyncOutcome)
    (w : RestWorld) : Prop where
  at_ : ∃ held, At delivery true held w
  fresh : ∀ sha, r = .ok (.synced sha) → g.Open ∧ Fresh g w
  deleted : r = .ok .deleted → ¬ g.Open

theorem SyncLeaves.beside {delivery : Delivery} {r : Except HandlerError SyncOutcome}
    (h : SyncLeaves g delivery r u) (hbeside : Beside g u v) : SyncLeaves g delivery r v where
  at_ := h.at_.imp fun _ hat => hat.beside hbeside
  fresh sha hr := ⟨(h.fresh sha hr).1, (h.fresh sha hr).2.beside (h.fresh sha hr).1 hbeside⟩
  deleted := h.deleted

/-- A sync that read nothing leaves nothing to say. -/
theorem SyncLeaves.of_unread {delivery : Delivery} {held : Option PrState}
    {r : Except HandlerError SyncOutcome} (hw : At delivery true held w)
    (hr : ∀ outcome, r = .ok outcome → outcome = .debounced) : SyncLeaves g delivery r w where
  at_ := ⟨held, hw⟩
  fresh _ h := SyncOutcome.noConfusion (hr _ h)
  deleted h := SyncOutcome.noConfusion (hr _ h)

/-- A read that finds no pull request finds it not open. -/
theorem not_open_of_eligible {request : SyncRequest} {settled : Settled (Option PrRecord)}
    (h : g.Says request settled) (hnone : eligibleSnapshot settled = .ok none) : ¬ g.Open := by
  cases settled with
  | ok found =>
    obtain rfl : found = none := Except.ok.inj hnone
    exact h
  | rejected reason response =>
    cases reason with
    | notFound => exact h
    | _ => cases hnone
  | fatal response => cases hnone
  | staleSha expected actual => cases hnone

/-- A snapshot written through, and the state that says so. -/
theorem safe_synced {request : SyncRequest} {snapshot : PrRecord} {state : PrState}
    {delivery : Delivery} {held : Option PrState} (hopen : g.Open)
    (hsaid : SnapshotOf request snapshot) (hkey : requestKey request = object.key)
    (hshows : g.Shows snapshot) (hsince : g.since ≤ snapshot.syncedAt)
    (hw : At delivery true held w) :
    (restOutline g).Safe none ((PullRequestM.upsertProjection snapshot).bind fun _ =>
      (PullRequestM.setState (state.synced request snapshot)).bind fun _ =>
        Prog.done (SyncOutcome.synced snapshot.headSha)) (SyncLeaves g delivery) w := by
  have hsnapshot : snapshot.key = object.key := hsaid.1.trans hkey
  let Written (w : RestWorld) : Prop :=
    At delivery true held w ∧ w.store.row? object.key = some snapshot
  have hwritten : Lasting g Written :=
    ⟨fun _ h => h.1.busy, fun u v h hbeside => ⟨h.1.beside hbeside,
      (hbeside.row_of_open hopen).trans h.2⟩⟩
  let Synced (w : RestWorld) : Prop := (∃ held, At delivery true held w) ∧ Fresh g w
  have hsynced : Lasting g Synced :=
    ⟨fun _ ⟨⟨_, h⟩, _⟩ => h.busy, fun u v h hbeside =>
      ⟨h.1.imp fun _ hat => hat.beside hbeside, h.2.beside hopen hbeside⟩⟩
  refine safe_ask (Q := fun answer v => At delivery true held v ∧ (answer = .ok () → Written v)) hw
    (At.lasting g _ _ _) (fun _ _ => hopen) ?_ ?_
  · rintro u answer v hu - - ⟨beat', rfl, ⟨error, rfl, rfl⟩ | ⟨store', hupsert, rfl, rfl⟩⟩
    · exact ⟨hu, fun h => by cases h⟩
    · have hat : At delivery true held { u with store := store' } :=
        ⟨hu.serving, hu.syncing, hu.holds⟩
      refine ⟨hat, fun _ => ⟨hat, ?_⟩⟩
      rw [← hsnapshot]
      exact Store.row?_upsertPr hupsert hsaid.2
  · rintro answer v ⟨hv, hok⟩
    cases answer with
    | error error =>
      exact safe_fail hv (At.lasting g _ _ _) fun u hu => .of_unread hu fun _ h => by cases h
    | ok _ =>
    refine safe_ask (Q := fun _ => Synced) (hok rfl) hwritten (fun _ h => by cases h) ?_ ?_
    · rintro u answer v ⟨hu, hrow⟩ - - ⟨beat', rfl, rfl⟩
      refine ⟨⟨_, hu.serving, hu.syncing, rfl⟩, snapshot, hrow, hshows, hsince, snapshot.syncedAt, ?_,
        hsince⟩
      exact PrState.synced_lastSyncedAt state request snapshot
    · intro answer v hv
      refine safe_done hv hsynced fun u hu => ⟨hu.1, fun _ _ => ⟨hopen, hu.2⟩, fun h => by cases h⟩

/-- **A sync reads the row GitHub shows, or finds none, or leaves another
behind it.** -/
theorem safe_runSync {request : SyncRequest} {debounce : ℕ}
    (hkey : requestKey request = object.key) {delivery : Delivery} {held : Option PrState}
    (hw : At delivery true held w) :
    (restOutline g).Safe none (runSync request debounce) (SyncLeaves g delivery) w := by
  have hunread {held' : Option PrState} {r : Except HandlerError SyncOutcome} {v : RestWorld}
      (hr : ∀ outcome, r = .ok outcome → outcome = .debounced) (hv : At delivery true held' v) :
      SyncLeaves g delivery r v := .of_unread hv hr
  unfold runSync
  refine safe_quiet hw (fun _ h => by cases h) (fun _ _ _ h => by rw [h.1]) fun _ now v₁ hv₁ _ => ?_
  cases now with
  | error error =>
    exact safe_fail hv₁ (At.lasting g _ _ _) fun u => hunread fun _ h => by cases h
  | ok now =>
  refine safe_state hv₁ fun v₂ hv₂ => ?_
  dsimp only
  split
  · split
    · refine safe_setState hv₂ fun v₃ hv₃ => ?_
      refine safe_quiet hv₃ (fun _ h => by cases h) (fun _ _ _ h => by rw [h]) fun _ _ v₄ hv₄ _ => ?_
      exact safe_done hv₄ (At.lasting g _ _ _) fun u => hunread fun _ h => by cases h; rfl
    · exact safe_done hv₂ (At.lasting g _ _ _) fun u => hunread fun _ h => by cases h; rfl
  · refine safe_setState hv₂ fun v₃ hv₃ => ?_
    refine safe_quiet hv₃ (fun _ h => by cases h)
      (fun _ _ _ h => by obtain ⟨⟨n, rfl⟩, -⟩ := h; rfl) fun _ fetched v₄ hv₄ hsem => ?_
    obtain ⟨-, -, -, hsaid⟩ := hsem
    cases fetched with
    | error error =>
      exact safe_fail hv₄ (At.lasting g _ _ _) fun u => hunread fun _ h => by cases h
    | ok settled =>
    show (restOutline g).Safe none ((Prog.ofExcept (eligibleSnapshot settled)).bind _) _ v₄
    cases heligible : eligibleSnapshot settled with
    | error error =>
      exact safe_fail hv₄ (At.lasting g _ _ _) fun u => hunread fun _ h => by cases h
    | ok found =>
    cases found with
    | none =>
      have hclosed : ¬ g.Open := not_open_of_eligible (hsaid settled rfl) heligible
      refine safe_quiet hv₄ (fun _ h => by cases h) (fun _ _ _ h => by rw [h]) fun _ done v₅ hv₅ _ => ?_
      cases done with
      | error error =>
        exact safe_fail hv₅ (At.lasting g _ _ _) fun u => hunread fun _ h => by cases h
      | ok _ =>
      refine safe_clearState hv₅ fun v₆ hv₆ => ?_
      exact safe_done hv₆ (At.lasting g _ _ _) fun u hu =>
        ⟨⟨none, hu⟩, fun _ h => (by cases h), fun _ => hclosed⟩
    | some snapshot =>
      obtain rfl := eligibleSnapshot_some heligible
      obtain ⟨hopen, hof, hshows, hsince⟩ := hsaid _ rfl
      exact safe_synced hopen hof hkey hshows hsince hv₄

/-! ### The other handlers -/

/-- A handler that is no sync holds the object, and takes nothing from an
open pull request. -/
structure Stands (g : AtRest object) (held : Option PrState) (w : RestWorld) : Prop where
  at_ : At .event false held w
  owed : g.Open → w.ended → Owed g w

theorem Stands.lasting (g : AtRest object) (held : Option PrState) :
    Lasting g (Stands g held) where
  busy _ h := h.at_.busy
  beside _ _ h hbeside := ⟨h.at_.beside hbeside,
    fun hopen hended => (h.owed hopen (hbeside.ended ▸ hended)).beside hopen hbeside⟩

/-- The object has read the pull request at no moment of the rest. -/
def Unread (g : AtRest object) (held : Option PrState) : Prop :=
  g.Open → ∀ last, (held.getD default).lastSyncedAt = some last → last < g.since

/-- What is owed of a pull request not read is no row. -/
theorem Stands.owed_of_unread {held : Option PrState} (h : Stands g held w)
    (hunread : Unread g held) (hopen : g.Open) (hended : w.ended) :
    w.failed ∨ w.beat.trailing ≠ [] := by
  rcases h.owed hopen hended with hfailed | ⟨_, -, -, -, last, hlast, hsince⟩ | htrailing
  · exact .inl hfailed
  · rw [DebounceWorld.held, h.at_.holds] at hlast
    exact absurd hsince (Nat.not_le.2 (hunread hopen last hlast))
  · exact .inr htrailing

/-- What these handlers leave. -/
def StandsAt (g : AtRest object) (w : RestWorld) : Prop := ∃ held, Stands g held w

theorem safe_over (a : α) {held : Option PrState} (hw : Stands g held w) :
    (restOutline g).Safe none (.done a : PullRequestM α) (fun _ => StandsAt g) w :=
  safe_done hw (Stands.lasting g held) fun _ hu => ⟨held, hu⟩

/-- A call the projection and the object do not see, whose failure is the
handler's. -/
theorem safe_try {β : Type} (call : PullRequestCall) {held : Option PrState}
    (answered : call.Answer → Except HandlerError β) {f : β → PullRequestM α}
    (hw : Stands g held w) (hcall : ∀ snapshot, call ≠ .upsertProjection snapshot)
    (hquiet : ∀ u answer v, restSem g call u answer v → v = u)
    (hk : ∀ u answer b v, restSem g call u answer v → answered answer = .ok b →
      Stands g held v → (restOutline g).Safe none (f b) (fun _ => StandsAt g) v) :
    (restOutline g).Safe none
      (Prog.ask (S := PullRequestEffects) call fun answer => (Prog.ofExcept (answered answer)).bind f)
      (fun _ => StandsAt g) w := by
  refine safe_ask (Q := fun answer v => Stands g held v ∧ ∃ u, restSem g call u answer v) hw
    (Stands.lasting g held) (fun snapshot h => absurd h (hcall snapshot)) ?_ ?_
  · intro u answer v hu _ _ hsem
    obtain rfl := hquiet u answer v hsem
    exact ⟨hu, _, hsem⟩
  · rintro answer v ⟨hv, u, hsem⟩
    cases hanswered : answered answer with
    | ok b => exact hk u answer b v hsem hanswered hv
    | error error => exact safe_fail hv (Stands.lasting g held) fun _ hu => ⟨held, hu⟩

/-- The object's own state, read. -/
theorem safe_read {f : Option PrState → PullRequestM α} {held : Option PrState}
    (hw : Stands g held w)
    (hk : ∀ v, Stands g held v → (restOutline g).Safe none (f held) (fun _ => StandsAt g) v) :
    (restOutline g).Safe none (PullRequestM.state.bind f) (fun _ => StandsAt g) w := by
  refine safe_ask (Q := fun answer v => answer = .ok held ∧ Stands g held v) hw
    (Stands.lasting g held) (fun _ h => by cases h) ?_ ?_
  · rintro u answer v hu - - ⟨beat', ⟨rfl, rfl⟩, rfl⟩
    exact ⟨congrArg Except.ok hu.at_.holds, hu⟩
  · rintro answer v ⟨rfl, hv⟩
    exact hk v hv

/-- The log a handler leaves says nothing of when the pull request was
read. -/
theorem safe_log {step : String} {held : Option PrState} {state : PrState} {entry : ℕ → ActionLog}
    {rest : PullRequestM α} (hw : Stands g held w)
    (hlast : state.lastSyncedAt = (held.getD default).lastSyncedAt)
    (hrest : ∀ held' v, Stands g held' v →
      (restOutline g).Safe none rest (fun _ => StandsAt g) v) :
    (restOutline g).Safe none ((PullRequestM.now step).bind fun now =>
      (PullRequestM.setState (state.pushHistory (entry now))).bind fun _ => rest)
      (fun _ => StandsAt g) w := by
  refine safe_try (.now step) id hw (fun _ h => by cases h)
    (fun u answer v h => by obtain ⟨_, ⟨rfl, -⟩, rfl⟩ := h; rfl) fun _ _ now v _ _ hv => ?_
  refine safe_ask (Q := fun _ => Stands g (some (state.pushHistory (entry now)))) hv
    (Stands.lasting g held) (fun _ h => by cases h) ?_ fun _ v' hv' => hrest _ v' hv'
  rintro u answer v' hu - - ⟨beat', rfl, rfl⟩
  refine ⟨⟨hu.at_.serving, hu.at_.syncing, rfl⟩, fun hopen hended => ?_⟩
  rcases hu.owed hopen hended with hfailed | ⟨row, hrow, hshows, hsince, last, hheld, hfresh⟩ |
    htrailing
  · exact .inl hfailed
  · refine .inr (.inl ⟨row, hrow, hshows, hsince, last, ?_, hfresh⟩)
    rw [DebounceWorld.held, hu.at_.holds] at hheld
    exact hlast.trans hheld
  · exact .inr (.inr htrailing)

/-- A row deleted of a pull request that was not read in the rest. -/
theorem safe_deleteProjection {step : String} {key : PrKey} {held : Option PrState}
    {f : Unit → PullRequestM α} (hw : Stands g held w) (hunread : Unread g held)
    (hk : ∀ v, Stands g held v → (restOutline g).Safe none (f ()) (fun _ => StandsAt g) v) :
    (restOutline g).Safe none ((PullRequestM.deleteProjection step key).bind f)
      (fun _ => StandsAt g) w := by
  refine safe_ask (Q := fun _ => Stands g held) hw (Stands.lasting g held) (fun _ h => by cases h)
    ?_ ?_
  · rintro u answer v hu - - ⟨beat', rfl, ⟨error, -, rfl⟩ | ⟨-, rfl⟩⟩
    · exact hu
    · refine ⟨⟨hu.at_.serving, hu.at_.syncing, hu.at_.holds⟩, fun hopen hended => ?_⟩
      rcases hu.owed_of_unread hunread hopen hended with hfailed | htrailing
      · exact .inl hfailed
      · exact .inr (.inr htrailing)
  · intro answer v hv
    cases answer with
    | ok _ => exact hk v hv
    | error error => exact safe_fail hv (Stands.lasting g held) fun _ hu => ⟨held, hu⟩

/-- A close from before the rest retires no pull request read in it. -/
theorem unread_of_closedRetires {held : Option PrState} {request : ClosedRequest}
    (hfence : g.Open → Fenced g.since request.syncedBefore) (h : closedRetires held request) :
    Unread g held := by
  intro hopen last hlast
  obtain ⟨f, hf, hle⟩ := hfence hopen
  exact (lt_of_closedRetires h hf hlast).trans_le hle

theorem safe_runClosed {text : String} {request : ClosedRequest} {held : Option PrState}
    (hfence : g.Open → Fenced g.since request.syncedBefore) (hw : Stands g held w) :
    (restOutline g).Safe none (runClosed text request) (fun _ => StandsAt g) w := by
  unfold runClosed
  cases (PrKey.parse text).mapError HandlerError.terminal with
  | error error => exact safe_fail hw (Stands.lasting g held) fun _ hu => ⟨held, hu⟩
  | ok key =>
  refine safe_read hw fun v₁ hv₁ => ?_
  split
  · exact safe_over ClosedOutcome.kept hv₁
  · rename_i hretires
    have hunread : Unread g held := unread_of_closedRetires hfence (by simpa using hretires)
    refine safe_deleteProjection hv₁ hunread fun v₂ hv₂ => ?_
    refine safe_ask (Q := fun _ => Stands g none) hv₂ (Stands.lasting g held) (fun _ h => by cases h)
      ?_ fun _ _ hv₃ => safe_over ClosedOutcome.retired hv₃
    rintro u answer v hu - - ⟨beat', rfl, rfl⟩
    refine ⟨⟨hu.at_.serving, hu.at_.syncing, rfl⟩, fun hopen hended => ?_⟩
    rcases hu.owed_of_unread hunread hopen hended with hfailed | htrailing
    · exact .inl hfailed
    · exact .inr (.inr htrailing)

/-- A merge that landed was of no open pull request. -/
theorem not_open_of_merged {request : MergeRequest} {method : Option MergeMethod}
    {answer : Except HandlerError (Settled Merged)} {result : Settled Merged}
    {outcome : ActionOutcome} (hsem : restSem g (.merge request method) u answer v)
    (hanswer : answer = .ok result) (houtcome : mergeResult result = .ok outcome)
    (hsucceeded : outcome.isSucceeded) : ¬ g.Open := by
  intro hopen
  obtain ⟨_, -, -, hnot⟩ := hsem
  cases result with
  | ok merged => exact hnot hopen merged hanswer
  | rejected reason response => cases houtcome; cases hsucceeded
  | staleSha expected actual => cases houtcome; cases hsucceeded
  | fatal response => cases houtcome

theorem safe_runMerge {request : MergeRequest} {held : Option PrState} (hw : Stands g held w) :
    (restOutline g).Safe none (runMerge request) (fun _ => StandsAt g) w := by
  unfold runMerge
  refine safe_read hw fun v₁ hv₁ => ?_
  dsimp only
  split
  · exact safe_over _ hv₁
  refine safe_try (.repositoryMergeMethod _) id hv₁ (fun _ h => by cases h)
    (fun _ _ _ h => by obtain ⟨_, rfl, rfl⟩ := h; rfl) fun _ _ method v₂ _ _ hv₂ => ?_
  refine safe_try (.merge request method) id hv₂ (fun _ h => by cases h)
    (fun _ _ _ h => by obtain ⟨_, rfl, rfl, -⟩ := h; rfl) fun u answer result v₃ hsem hanswer hv₃ => ?_
  cases houtcome : mergeResult result with
  | error error => exact safe_fail hv₃ (Stands.lasting g held) fun _ hu => ⟨held, hu⟩
  | ok outcome =>
  simp only [Prog.ofExcept_ok, Prog.bind_eq, Prog.done_bind]
  split
  · rename_i hsucceeded
    have hclosed : ¬ g.Open := not_open_of_merged hsem hanswer houtcome hsucceeded
    refine safe_deleteProjection hv₃ (fun hopen => absurd hopen hclosed) fun v₄ hv₄ => ?_
    exact safe_log hv₄ rfl fun _ _ hv₅ => safe_over outcome hv₅
  · exact safe_log hv₃ rfl fun _ _ hv₄ => safe_over outcome hv₄

theorem safe_runCommand {canPostCommands : Bool} {request : CommandRequest}
    {held : Option PrState} (hw : Stands g held w) :
    (restOutline g).Safe none (runCommand canPostCommands request) (fun _ => StandsAt g) w := by
  unfold runCommand
  refine safe_read hw fun v₁ hv₁ => ?_
  dsimp only
  split
  · exact safe_over _ hv₁
  refine safe_try (.postCommand request) id hv₁ (fun _ h => by cases h)
    (fun _ _ _ h => by obtain ⟨_, rfl, rfl⟩ := h; rfl) fun _ _ result v₂ _ _ hv₂ => ?_
  cases actionResult result with
  | error error => exact safe_fail hv₂ (Stands.lasting g held) fun _ hu => ⟨held, hu⟩
  | ok outcome => exact safe_log hv₂ rfl fun _ _ hv₃ => safe_over outcome hv₃

theorem safe_runUpdateBranch {request : UpdateBranchRequest} {held : Option PrState}
    (hw : Stands g held w) :
    (restOutline g).Safe none (runUpdateBranch request) (fun _ => StandsAt g) w := by
  unfold runUpdateBranch
  refine safe_read hw fun v₁ hv₁ => ?_
  dsimp only
  split
  · exact safe_over _ hv₁
  refine safe_try (.updateBranch request) id hv₁ (fun _ h => by cases h)
    (fun _ _ _ h => by obtain ⟨_, rfl, rfl⟩ := h; rfl) fun _ _ result v₂ _ _ hv₂ => ?_
  cases actionResult result with
  | error error => exact safe_fail hv₂ (Stands.lasting g held) fun _ hu => ⟨held, hu⟩
  | ok outcome =>
  refine safe_log hv₂ rfl fun held' v₃ hv₃ => ?_
  split
  · refine safe_ask (Q := fun _ => Stands g held') hv₃ (Stands.lasting g held')
      (fun _ h => by cases h) ?_ fun _ _ hv₄ => safe_over outcome hv₄
    rintro u answer v hu - - ⟨beat', rfl, rfl⟩
    exact hu
  · exact safe_over outcome hv₃

end Serving

/-! ## Their ends -/

/-- A result given up keeps the invariant where what it owes is paid. -/
theorem RestInv.release (h : RestInv g w) {result : Except HandlerError HandlerAnswer}
    (howed : g.Open → (w.release result).ended → Owed g (w.release result)) :
    (restOutline g).Keeps none w (w.release result) := by
  have hended : w.ended → (w.release result).ended := by
    intro hw
    unfold RestWorld.release
    dsimp only
    split
    · rfl
    · exact hw
  refine ⟨⟨h.since, h.closes, h.pending, h.old, fun hopen _ => howed hopen, fun hswept => ?_⟩, ?_⟩
  · obtain ⟨hbefore, hgone⟩ := h.swept hswept
    exact ⟨fun hopen => hended (hbefore hopen), hgone⟩
  · rintro (_ | slot) hne
    · exact absurd rfl hne
    · exact ⟨rfl, hended, fun _ => id⟩

/-- What a handler that is no sync leaves is owed as before. -/
theorem Serving.Stands.release {held : Option PrState} (hw : Serving.Stands g held w)
    {result : Except HandlerError HandlerAnswer} (hresult : ∀ outcome, result ≠ .ok (.sync outcome))
    (hopen : g.Open) (hended : (w.release result).ended) : Owed g (w.release result) := by
  have hremaining : w.beat.remaining = w.beat.trailing := by
    rw [DebounceWorld.remaining, hw.at_.serving]
  have hbefore : w.ended := by
    unfold RestWorld.release at hended
    dsimp only at hended
    split at hended
    · exact absurd rfl (hresult _)
    · exact hended
  rcases hw.owed hopen hbefore with hfailed | hfresh | htrailing
  · refine .inl ?_
    unfold RestWorld.release
    dsimp only
    split
    · exact absurd rfl (hresult _)
    · exact absurd rfl (hresult _)
    · simp [hfailed]
    · exact hfailed
  · exact .inr (.inl hfresh)
  · exact .inr (.inr (show w.beat.remaining ≠ [] from hremaining ▸ htrailing))

/-- **A sync leaves the row GitHub shows, another sync behind it, or its
failure.** -/
theorem Serving.SyncLeaves.release {delivery : Delivery} {r : Except HandlerError SyncOutcome}
    (hw : SyncLeaves g delivery r w)
    (hknown : DebounceKnown object (w.release (r.map .sync)).beat) (hopen : g.Open) :
    Owed g (w.release (r.map .sync)) := by
  cases r with
  | error error =>
    obtain ⟨held, hat⟩ := hw.at_
    refine .inl ?_
    show (w.failed || w.syncing) = true
    rw [hat.syncing, Bool.or_true]
  | ok outcome =>
    cases outcome with
    | synced sha => exact .inr (.inl (hw.fresh sha rfl).2)
    | deleted => exact absurd hopen (hw.deleted rfl)
    | debounced =>
      -- nothing was read or cleared since, so a trailing sync is on its way
      have hcovered := hknown.inv.covered ⟨w.beat.fetches, w.beat.clears⟩
        (List.mem_append_right _ (List.mem_singleton.2 rfl))
      rcases hcovered with hfetched | hcleared | htrailing
      · exact absurd hfetched (lt_irrefl _)
      · exact absurd hcleared (lt_irrefl _)
      · exact .inr (.inr htrailing)

/-- A handler that is no sync hands over what it leaves. -/
theorem Serving.handover {α : Type} {handler : PullRequestM α} {answer : α → HandlerAnswer}
    (hanswer : ∀ a outcome, answer a ≠ .sync outcome)
    (h : (restOutline g).Safe none handler (fun _ => StandsAt g) w) :
    (restOutline g).Safe none (handler.bind fun a => .done (answer a))
      ((restOutline g).handover none) w := by
  have hgive : ∀ u result, RestInv g u → StandsAt g u →
      (∀ outcome, result ≠ .ok (.sync outcome)) → (restOutline g).handover none result u := by
    rintro u result hinv ⟨held, hu⟩ hresult _ ⟨rfl, -⟩
    exact hinv.release fun hopen hended => hu.release hresult hopen hended
  refine .bind (h.mono fun r u hinv hu => ?_)
  cases r with
  | error error => exact hgive u _ hinv hu fun _ h => by cases h
  | ok a =>
    intro v hbeside hinv'
    obtain ⟨held, hu⟩ := hu
    refine hgive v _ hinv' ⟨held, (Stands.lasting g held).beside u v hu hbeside⟩ fun outcome h => ?_
    exact hanswer a outcome (Except.ok.inj h)

/-- A sync hands over what it leaves. -/
theorem Serving.handover_runSync {request : SyncRequest} {delivery : Delivery}
    {held : Option PrState} (hkey : requestKey request = object.key) (hw : At delivery true held w) :
    (restOutline g).Safe none ((Invocation.sync request).handler object)
      ((restOutline g).handover none) w := by
  rw [Invocation.handler_sync]
  refine .bind ((safe_runSync hkey hw).mono fun r u hinv hu => ?_)
  cases r with
  | error error =>
    rintro _ ⟨rfl, hknown⟩
    exact hinv.release fun hopen _ => hu.release hknown hopen
  | ok outcome =>
    rintro v hbeside hinv' _ ⟨rfl, hknown⟩
    exact hinv'.release fun hopen _ => (hu.beside hbeside).release hknown hopen

/-- A sweep that ended is one over. -/
theorem RestInv.sweepOver (h : RestInv g w) {result : Except HandlerError ℕ}
    (hresult : ∀ n, result = .ok n → w.reconciling slot = some object.key.repositoryId →
      Sweeping.Reconciled g w) :
    (restOutline g).Keeps (some slot) w (w.sweepOver object.key slot result) := by
  have hbeside : Beside g w (w.sweepOver object.key slot result) :=
    ⟨⟨0, rfl⟩, .inl rfl, rfl, rfl, rfl⟩
  refine ⟨h.of_beside hbeside le_rfl h.closes h.pending fun hswept => ?_, ?_⟩
  · cases result with
    | error error => exact .inl hswept
    | ok n =>
      rcases Bool.or_eq_true_iff.1 hswept with hbefore | hnow
      · exact .inl hbefore
      · exact .inr (hresult n rfl (of_decide_eq_true hnow))
  · rintro (_ | other) hne
    · exact hbeside
    · exact ⟨rfl, id, fun _ => id⟩

/-- A sweep that begins is nothing to the rest. -/
theorem RestInv.sweepBegins (h : RestInv g w) (slot : ℕ) (repository : Option ℕ) :
    (restOutline g).Keeps (some slot) w (w.sweepBegins slot repository) := by
  have hbeside : Beside g w (w.sweepBegins slot repository) :=
    ⟨⟨0, rfl⟩, .inl rfl, rfl, rfl, rfl⟩
  refine ⟨h.of_beside hbeside le_rfl h.closes h.pending .inl, ?_⟩
  rintro (_ | other) hne
  · exact hbeside
  · have hother : other ≠ slot := fun heq => hne (congrArg some heq)
    exact ⟨Function.update_of_ne hother _ _, id, fun _ => id⟩

/-- A handler that takes the object up is nothing to the sweeps. -/
theorem RestInv.serve (h : RestInv g w) (delivery : Delivery) (syncing : Bool) :
    (restOutline g).Keeps none w (w.serve delivery syncing) := by
  refine ⟨⟨h.since, h.closes, h.pending, h.old, fun _ hidle => (by cases hidle), h.swept⟩, ?_⟩
  rintro (_ | slot) hne
  · exact absurd rfl hne
  · exact ⟨rfl, id, fun _ => id⟩

/-- **The outline of a rest holds.** -/
theorem restOutline_valid (g : AtRest object) : (restOutline g).Valid where
  init w hw := by
    obtain ⟨⟨-, hsince, hcloses, hpending, hold, hended, hswept⟩, -⟩ := hw
    refine ⟨hsince, hcloses, hpending, hold, fun _ _ h => ?_, fun h => ?_⟩
    · rw [hended] at h
      cases h
    · rw [hswept] at h
      cases h
  env w w' hw henv := by
    obtain ⟨⟨n, rfl⟩ | ⟨store', hrow, hretirements, rfl⟩, -⟩ := henv
    · have hbeside : Beside g w { w with beat := w.beat.wait n } :=
        ⟨⟨n, rfl⟩, .inl rfl, rfl, rfl, rfl⟩
      refine ⟨hw.of_beside hbeside (Nat.le_add_right _ _) hw.closes hw.pending .inl, ?_⟩
      rintro (_ | slot)
      · exact hbeside
      · exact ⟨rfl, id, fun _ => id⟩
    · have hbeside : Beside g w { w with store := store' } :=
        ⟨⟨0, rfl⟩, .inl hrow, rfl, rfl, rfl⟩
      refine ⟨hw.of_beside hbeside le_rfl hw.closes (fun hopen retirement hmem => ?_) .inl, ?_⟩
      · refine hw.pending hopen retirement ?_
        rwa [Store.pendingRetirements, ← hretirements]
      · rintro (_ | slot)
        · exact hbeside
        · exact ⟨rfl, id, fun _ => hbeside.none_of_none⟩
  start i handler w w' hw hstart := by
    cases i with
    | some slot =>
      have hsafe {repository : Option ℕ} :
          Sweeping.At g slot repository False (w.sweepBegins slot repository) :=
        ⟨Function.update_self _ _ _, False.elim⟩
      obtain ⟨⟨addressed, rfl, rfl⟩ | ⟨installationId, rfl, rfl⟩, -⟩ := hstart
      · refine ⟨hw.sweepBegins slot _, (Sweeping.safe_runRepoReconcile hsafe).mono ?_⟩
        rintro r u hinv hr _ ⟨rfl, -⟩
        exact hinv.sweepOver hr
      · refine ⟨hw.sweepBegins slot _, (Sweeping.safe_runInstallationSync _ hsafe).mono ?_⟩
        rintro r u hinv hr _ ⟨rfl, -⟩
        refine hinv.sweepOver fun n hok hreconciling => ?_
        rw [(hr n hok).reconciling] at hreconciling
        cases hreconciling
    | none =>
      obtain ⟨⟨hidle, ⟨invocation, hkey, hclose, rfl, rfl⟩ | ⟨sync, hsync, -, rfl, rfl⟩⟩, hknown⟩ :=
        hstart
      · refine ⟨hw.serve .event invocation.isSync, ?_⟩
        have hstands (h : invocation.isSync = false) :
            Serving.Stands g w.beat.object (w.serve .event invocation.isSync) :=
          ⟨⟨rfl, h, rfl⟩, fun hopen hended => hw.owed hopen hidle hended⟩
        cases invocation with
        | sync request =>
          have hheld : Serving.At .event true w.beat.object (w.serve .event true) := ⟨rfl, rfl, rfl⟩
          exact Serving.handover_runSync hkey hheld
        | closed request =>
          rw [Invocation.handler_closed]
          generalize toString object.key = text
          exact Serving.handover (fun _ _ h => by cases h) (Serving.safe_runClosed
            (fun hopen => hw.closes hopen request (hclose request rfl)) (hstands rfl))
        | merge request =>
          exact Serving.handover (fun _ _ h => by cases h) (Serving.safe_runMerge (hstands rfl))
        | command request =>
          exact Serving.handover (fun _ _ h => by cases h) (Serving.safe_runCommand (hstands rfl))
        | updateBranch request =>
          exact Serving.handover (fun _ _ h => by cases h)
            (Serving.safe_runUpdateBranch (hstands rfl))
      · refine ⟨hw.serve (.trailing sync) true, ?_⟩
        have hheld : Serving.At (.trailing sync) true w.beat.object (w.serve (.trailing sync) true) :=
          ⟨rfl, rfl, rfl⟩
        exact Serving.handover_runSync (hknown.own sync hsync) hheld

/-- **The projection comes to rest with GitHub.** From any state the object
and its row come to, whatever handlers, sweeps and trailing syncs then run in
whatever order while GitHub changes nothing: wherever the object is idle with
no trailing sync on its way, and no sync has failed since one read GitHub, an
open pull request's row is as GitHub shows it once a sync of it has ended or
a reconcile of its repository has succeeded, and one that is not open has no
row once a reconcile has. -/
theorem quiet_converges {s : System.State reopenEffects HandlerError ReopenAnswer RestWorld}
    (hs : (restSystem g).Reach s) (hidle : s.slots none = none)
    (htrailing : s.world.beat.trailing = []) (hfailed : s.world.failed = false) :
    (g.Open → s.world.ended ∨ s.world.swept → ∃ row,
      s.world.store.row? object.key = some row ∧ g.Shows row ∧ g.since ≤ row.syncedAt) ∧
      (¬ g.Open → s.world.swept → s.world.store.row? object.key = none) := by
  have hwithin : ((restSystem g).within fun w => DebounceKnown object w.beat).Reach s :=
    hs.within fun _ h => (rest_debounced h).2
  have hinv : RestInv g s.world := ((restOutline_valid g).reach hwithin).inv
  have hserving : s.world.beat.serving = none :=
    DebounceWorld.serving_of_idle (rest_debounced hs).1 hidle
  refine ⟨fun hopen hread => ?_, fun hopen hswept => (hinv.swept hswept).2 hopen⟩
  have hended : s.world.ended := by
    rcases hread with hended | hswept
    · exact hended
    · exact (hinv.swept hswept).1 hopen
  rcases hinv.owed hopen hserving hended with hfail | ⟨row, hrow, hshows, hsince, -⟩ | hsent
  · rw [hfailed] at hfail
    cases hfail
  · exact ⟨row, hrow, hshows, hsince⟩
  · exact absurd htrailing hsent

/-! ## A stale row caught up

The row was read at 15; GitHub has been at rest since 20. One reconcile at
30 lists the pull request, has it synced and prunes nothing. -/

/-- GitHub with the one pull request open. -/
def sampleRest : AtRest sampleObject where
  since := 20
  pulls := [⟨1, dependabotLogin⟩]
  one := List.nodup_singleton _
  Shows row := row.headSha = "abcdef0123"

/-- The world before, the row stale. -/
def sampleLagging : RestWorld :=
  { beat := sampleStill, store := sampleStore 15, closes := [], syncing := false, ended := false,
    failed := false, reconciling := fun _ => none, swept := false }

theorem sampleRest_open : sampleRest.Open := ⟨⟨1, dependabotLogin⟩, List.mem_singleton.2 rfl, rfl, rfl⟩

theorem sampleRest_listed : sampleRest.Listed "acme" "api" [sampleSync] :=
  ⟨sampleRest.steady.serve, 2, sampleRest.steady.serve_answers _ _, by decide +kernel⟩

/-- A reconcile brings the row to 30. -/
theorem sampleRest_reach : ∃ s, (restSystem sampleRest).Reach s ∧ s.slots none = none ∧
    s.world.swept ∧ s.world.beat.trailing = [] ∧ s.world.failed = false := by
  have h₀ : (restSystem sampleRest).Reach ⟨sampleLagging, fun _ => none⟩ := by
    refine .init ⟨⟨fun _ => none, .init ⟨rfl, rfl, rfl, rfl⟩, rfl⟩, by decide, ?_, ?_, ?_, rfl, rfl⟩
    · exact fun _ _ h => absurd h List.not_mem_nil
    · exact fun _ _ h => absurd h List.not_mem_nil
    · exact fun hopen => absurd sampleRest_open hopen
  have h₁ := h₀.start (some 0) (runRepoReconcile ⟨1, "acme", "api"⟩) rfl (.inl ⟨_, rfl, rfl⟩)
  have h₂ := h₁.answer (some 0) (.now "repo-reconcile-clock") (.ok 30) rfl
    ⟨rfl, fun _ h => by cases h; rfl⟩
  have h₃ := h₂.answer (some 0) (.listPullRequests ⟨1, "acme", "api"⟩) (.ok [sampleSync]) rfl
    ⟨rfl, fun _ h _ => by cases h; exact sampleRest_listed⟩
  -- the sync it asks for
  have h₄ := h₃.start none ((Invocation.sync sampleSync).handler sampleObject) rfl
    ⟨rfl, .inl ⟨.sync sampleSync, rfl, nofun, rfl, rfl⟩⟩
  have h₅ := h₄.answer none (.now "sync-clock") (.ok 30) rfl ⟨_, ⟨rfl, .inl rfl⟩, rfl⟩
  have h₆ := h₅.answer none .state (.ok none) rfl ⟨_, ⟨rfl, rfl⟩, rfl⟩
  have h₇ := h₆.answer none (.setState default) () rfl ⟨_, rfl, rfl⟩
  have h₈ := h₇.answer none (.fetchSnapshot sampleSync false) (.ok (.ok (some (sampleRow 30)))) rfl
    ⟨_, ⟨⟨0, rfl⟩, fun snapshot h => by cases h; decide⟩, rfl,
      fun settled h => by cases h; exact ⟨sampleRest_open, ⟨rfl, rfl⟩, rfl, by decide⟩⟩
  have h₉ := h₈.answer none (.upsertProjection (sampleRow 30)) (.ok ()) rfl
    ⟨_, rfl, .inr ⟨_, rfl, rfl, rfl⟩⟩
  have h₁₀ := h₉.answer none (.setState ((default : PrState).synced sampleSync (sampleRow 30))) ()
    rfl ⟨_, rfl, rfl⟩
  have h₁₁ := h₁₀.done none rfl rfl
  have h₁₂ := h₁₁.answer (some 0) (.syncPullRequest ⟨1, 1⟩ sampleSync) (.ok ()) rfl
    ⟨rfl, fun _ _ => rfl⟩
  have h₁₃ := h₁₂.answer (some 0) (.prune (.retainPrs 1 [1] 30)) (.ok {}) rfl
    (.inr ⟨[], _, rfl, rfl, rfl⟩)
  have h₁₄ := h₁₃.answer (some 0) .pendingRetirements (.ok []) rfl
    ⟨rfl, fun _ h => by cases h; rfl⟩
  have h₁₅ := h₁₄.done (some 0) rfl rfl
  exact ⟨_, h₁₅, rfl, rfl, rfl, rfl⟩

/-- The row it leaves is the one GitHub shows. -/
theorem quiet_converges_sample : ∃ s, (restSystem sampleRest).Reach s ∧
    ∃ row, s.world.store.row? ⟨1, 1⟩ = some row ∧ row.headSha = "abcdef0123" ∧ 20 ≤ row.syncedAt := by
  obtain ⟨s, hreach, hidle, hswept, htrailing, hfailed⟩ := sampleRest_reach
  exact ⟨s, hreach, (quiet_converges hreach hidle htrailing hfailed).1 sampleRest_open (.inr hswept)⟩

end Dependaboard
