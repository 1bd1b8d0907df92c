import Dependaboard.Durable.System
import Dependaboard.PullRequest.RowFirst
import Dependaboard.Store.Keyed
import Dependaboard.Ui.PrSync
import Dependaboard.Web.Api
/-!
# The pull request — a manual sync followed to its end

A page asks for a sync and polls; the object runs its handlers one at a time,
any of them at any moment, and the sync asked for among them; what else
writes to the store may take the row or let it be. Nothing but a sync writes
the row, and it does before it records its completion id. So where the page
finds its id recorded, the row it reads next is as new as the first snapshot
a sync with that id wrote.

`AwaitedWorld.written` and `AwaitedWorld.projected` are the accounts: of every
snapshot written through, and of every row the projection has held since the
request was taken.
-/

namespace Dependaboard

open Durable Ui

/-- The two parties. -/
inductive SyncParty where
  | object
  | page
  deriving DecidableEq, Repr

/-- A snapshot a sync wrote through: the completion id the sync carried, and
the snapshot's stamp. -/
structure SyncWrite where
  completionId : Option String
  syncedAt : ℕ
  deriving DecidableEq, Repr

/-- The completion id a handler was called with. -/
def Invocation.completionId : Invocation → Option String
  | sync request => request.completionId
  | _ => none

/-- One object, the store its row is in, and a page that follows a sync of
it. -/
structure AwaitedWorld where
  clock : ℕ
  /-- The object's durable state. -/
  object : Option PrState
  store : Store
  /-- What the handler that holds the object was called with. -/
  serving : Option Invocation
  /-- The stamp of the last snapshot read of GitHub. -/
  fetched : Option ℕ
  /-- Every snapshot written through, in order. -/
  written : List SyncWrite
  /-- The completion id the page was handed. -/
  requested : Option String
  /-- Every row the projection has held since, its absence too, in order. -/
  projected : List (Option PrRecord)
  /-- How the page's sync ended. -/
  result : Option (Except SyncFailure (Option PrRecord))

namespace AwaitedWorld

/-- What the object stands for. -/
def held (w : AwaitedWorld) : PrState := w.object.getD default

/-- The clock moves on. -/
def wait (w : AwaitedWorld) (n : ℕ) : AwaitedWorld := { w with clock := w.clock + n }

/-- Another store. -/
def withStore (w : AwaitedWorld) (key : PrKey) (store' : Store) : AwaitedWorld :=
  { w with store := store', projected := w.projected ++ [store'.row? key] }

/-- A snapshot written through, for the handler that holds the object. -/
def write (w : AwaitedWorld) (key : PrKey) (snapshot : PrRecord) (store' : Store) :
    AwaitedWorld :=
  { w.withStore key store' with
    written := w.written ++ [⟨w.serving.bind Invocation.completionId, snapshot.syncedAt⟩] }

/-- The stamp of the first snapshot a sync carrying `completionId` wrote. -/
def firstWrite (w : AwaitedWorld) (completionId : String) : Option ℕ :=
  (w.written.find? fun write => write.completionId = some completionId).map SyncWrite.syncedAt

/-- What a read of the row is answered: what the projection holds, or a
refusal. -/
def row (w : AwaitedWorld) (installationId : ℕ) (key : PrKey) : Except ApiError (Option PrRecord) :=
  heldToTheInstallation key (w.store.projected installationId key)

end AwaitedWorld

open AwaitedWorld

/-- The object's slot speaks the pull request's interface, the page's the
sync's. -/
@[reducible] def awaitedEffects : SyncParty → Signature
  | .object => PullRequestEffects
  | .page => SyncEffects

/-- The object's slot ends as its handlers do, the page with the row its sync
brought or why it has none. -/
@[reducible] def AwaitedAnswer : SyncParty → Type
  | .object => HandlerAnswer
  | .page => Except SyncFailure (Option PrRecord)

/-- How the calls of the object's handlers are answered. Any may fail; a
snapshot is stamped while GitHub is read. -/
def objectCallSem (key : PrKey) : (call : PullRequestCall) → AwaitedWorld → call.Answer →
    AwaitedWorld → Prop
  | .now _, w, answer, w' => w' = w ∧ ((∃ error, answer = .error error) ∨ answer = .ok w.clock)
  | .state, w, answer, w' => w' = w ∧ ((∃ error, answer = .error error) ∨ answer = .ok w.object)
  | .setState state, w, _, w' => w' = { w with object := some state }
  | .clearState, w, _, w' => w' = { w with object := none }
  | .scheduleSync _ _ _, w, _, w' => w' = w
  | .fetchSnapshot request _, w, answer, w' =>
    (∃ n fetched, w' = { w.wait n with fetched := fetched }) ∧
      ∀ snapshot, answer = .ok (.ok (some snapshot)) → SnapshotOf request snapshot ∧
        w.clock ≤ snapshot.syncedAt ∧ snapshot.syncedAt ≤ w'.clock ∧
        w'.fetched = some snapshot.syncedAt
  | .merge _ _, w, _, w' => w' = w
  | .postCommand _, w, _, w' => w' = w
  | .updateBranch _, w, _, w' => w' = w
  | .upsertProjection snapshot, w, answer, w' =>
    (∃ error, answer = .error error ∧ w' = w) ∨
      ∃ store', w.store.upsertPr snapshot = .ok store' ∧ answer = .ok () ∧
        w' = w.write key snapshot store'
  | .deleteProjection _ other, w, answer, w' =>
    (∃ error, answer = .error error ∧ w' = w) ∨
      answer = .ok () ∧ w' = w.withStore key (w.store.deletePr other)
  | .repositoryMergeMethod _, w, _, w' => w' = w

/-- How a store step of a handler lands with its answer lost. -/
def objectCallLost (key : PrKey) : PullRequestCall → AwaitedWorld → AwaitedWorld → Prop
  | .upsertProjection snapshot, w, w' =>
    ∃ store', w.store.upsertPr snapshot = .ok store' ∧ w' = w.write key snapshot store'
  | .deleteProjection _ other, w, w' => w' = w.withStore key (w.store.deletePr other)
  | _, _, _ => False

/-- How the page's calls are answered. Any may fail; the state is asked of
the object once the projection has a row, and may have moved on by then. -/
def pageCallSem (installationId : ℕ) (key : PrKey) : (call : SyncCall) → AwaitedWorld →
    call.Answer → AwaitedWorld → Prop
  | .request, w, answer, w' =>
    (∃ fault, answer = .error fault ∧ w' = w) ∨
      ∃ completionId, answer = .ok completionId ∧
        w' = { w with requested := some completionId, projected := [w.store.row? key] }
  | .status, w, answer, w' => w' = w ∧ ((∃ fault, answer = .error fault) ∨
      w.row installationId key = .ok none ∧ answer = .ok none ∨ answer = .ok w.object)
  | .projection, w, answer, w' => w' = w ∧ ((∃ fault, answer = .error fault) ∨
      ∃ row, w.row installationId key = .ok row ∧ answer = .ok row)
  | .tick, w, _, w' => w' = w
  | .queued, w, _, w' => w' = w

/-- **One object and a page that follows a sync of it.** Any handler may be
called while the object is idle, the sync the page asked for among them; the
page follows one sync; time passes, and what else writes to the store takes
the row or lets it be. -/
def awaitedSystem (object : PullRequestObject) (installationId : ℕ) :
    System awaitedEffects HandlerError AwaitedAnswer AwaitedWorld where
  init w := w.object = none ∧ w.store.row? object.key = none ∧ w.serving = none ∧
    w.written = [] ∧ w.requested = none ∧ w.result = none
  start
    | .object, handler, w, w' => ∃ invocation : Invocation, w.serving = none ∧
        invocation.Addresses object.key ∧ handler = invocation.handler object ∧
        w' = { w with serving := some invocation }
    | .page, sync, w, w' => w.requested = none ∧ w.result = none ∧ sync = syncPr.outcome ∧ w' = w
  sem
    | .object => objectCallSem object.key
    | .page => pageCallSem installationId object.key
  lose
    | .object => objectCallLost object.key
    | .page => fun _ _ _ => False
  finish
    | .object, _, w, w' => w' = { w with serving := none }
    | .page, result, w, w' => ∃ ended, result = .ok ended ∧ w' = { w with result := some ended }
  env w w' := (∃ n, w' = w.wait n) ∨ ∃ store' : Store,
    (store'.row? object.key = w.store.row? object.key ∨ store'.row? object.key = none) ∧
      w' = w.withStore object.key store'

/-! ## The outline -/

/-- **What the page was told is true**: the projection held it since the
request was taken, and a row is no older than the first snapshot a sync with
the page's id wrote. -/
structure AwaitedWorld.Told (w : AwaitedWorld) (completionId : String) (row : Option PrRecord) :
    Prop where
  projected : row ∈ w.projected
  fresh : ∀ found, row = some found →
    ∃ stamp, w.firstWrite completionId = some stamp ∧ stamp ≤ found.syncedAt

/-- What every reachable world keeps. -/
structure AwaitedInv (key : PrKey) (w : AwaitedWorld) : Prop where
  stamped : ∀ write ∈ w.written, write.syncedAt ≤ w.clock
  newest : ∀ row, w.store.row? key = some row → ∀ write ∈ w.written, write.syncedAt ≤ row.syncedAt
  recorded : ∀ completionId ∈ w.held.completedSyncIds, (w.firstWrite completionId).isSome
  present : w.requested.isSome → w.projected.getLast? = some (w.store.row? key)
  told : ∀ row, w.result = some (.ok row) → ∃ completionId, w.requested = some completionId ∧
    w.Told completionId row

/-- What the object's handler may count on: nobody else writes the state or
the row, a write of its own that it was not told of apart. -/
structure ObjectRely (w w' : AwaitedWorld) : Prop where
  object : w'.object = w.object
  serving : w'.serving = w.serving
  fetched : w'.fetched = w.fetched
  clock : w.clock ≤ w'.clock
  kept : w.written <+: w'.written
  own : ∀ write ∈ w'.written, write ∈ w.written ∨ some write.syncedAt = w.fetched

/-- What the page may count on: what was written stays written, and what was
projected was. -/
structure PageRely (w w' : AwaitedWorld) : Prop where
  requested : w'.requested = w.requested
  result : w'.result = w.result
  written : w.written <+: w'.written
  projected : w.projected <+: w'.projected

theorem ObjectRely.refl (w : AwaitedWorld) : ObjectRely w w :=
  ⟨rfl, rfl, rfl, Nat.le_refl _, List.prefix_rfl, fun _ => .inl⟩

theorem ObjectRely.trans {u v w : AwaitedWorld} (h : ObjectRely u v) (h' : ObjectRely v w) :
    ObjectRely u w where
  object := h'.object.trans h.object
  serving := h'.serving.trans h.serving
  fetched := h'.fetched.trans h.fetched
  clock := h.clock.trans h'.clock
  kept := h.kept.trans h'.kept
  own write hwrite := by
    rcases h'.own write hwrite with hmem | hown
    · exact h.own write hmem
    · exact .inr (hown.trans h.fetched)

theorem PageRely.refl (w : AwaitedWorld) : PageRely w w :=
  ⟨rfl, rfl, List.prefix_rfl, List.prefix_rfl⟩

theorem PageRely.trans {u v w : AwaitedWorld} (h : PageRely u v) (h' : PageRely v w) :
    PageRely u w :=
  ⟨h'.requested.trans h.requested, h'.result.trans h.result, h.written.trans h'.written,
    h.projected.trans h'.projected⟩

/-- The outline. -/
def awaitedOutline (object : PullRequestObject) (installationId : ℕ) :
    Outline (awaitedSystem object installationId) where
  inv := AwaitedInv object.key
  rely
    | .object => ObjectRely
    | .page => PageRely
  rely_refl
    | .object => ObjectRely.refl
    | .page => PageRely.refl
  rely_trans {i} _ _ _ h h' := by
    cases i with
    | object => exact ObjectRely.trans h h'
    | page => exact PageRely.trans h h'

section

variable {object : PullRequestObject} {installationId : ℕ} {key : PrKey} {u v w w' : AwaitedWorld}

/-! ## What each step does to the accounts -/

/-- A row read is the row. -/
theorem AwaitedWorld.eq_of_row_ok {row : Option PrRecord} (h : w.row installationId key = .ok row) :
    row = w.store.row? key := by
  unfold AwaitedWorld.row Store.projected at h
  cases hrow : w.store.row? key with
  | none =>
    rw [hrow] at h
    exact (Except.ok.inj h).symm
  | some found =>
    rw [hrow] at h
    dsimp only at h
    split at h
    · exact (Except.ok.inj h).symm
    · cases h

/-- The first write under an id stays the first. -/
theorem AwaitedWorld.firstWrite_mono {completionId : String} {stamp : ℕ}
    (h : w.firstWrite completionId = some stamp) (hwritten : w.written <+: w'.written) :
    w'.firstWrite completionId = some stamp := by
  obtain ⟨more, hmore⟩ := hwritten
  unfold firstWrite at h ⊢
  rw [← hmore, List.find?_append]
  obtain ⟨write, hfind, rfl⟩ := Option.map_eq_some_iff.1 h
  rw [hfind, Option.some_or, Option.map_some]

theorem AwaitedWorld.isSome_firstWrite_mono {completionId : String}
    (h : (w.firstWrite completionId).isSome) (hwritten : w.written <+: w'.written) :
    (w'.firstWrite completionId).isSome := by
  obtain ⟨stamp, hstamp⟩ := Option.isSome_iff_exists.1 h
  rw [firstWrite_mono hstamp hwritten]
  rfl

/-- What the page was told stays true. -/
theorem AwaitedWorld.Told.mono {completionId : String} {row : Option PrRecord}
    (h : w.Told completionId row) (hwritten : w.written <+: w'.written)
    (hprojected : w.projected <+: w'.projected) : w'.Told completionId row where
  projected := hprojected.subset h.projected
  fresh found hfound := by
    obtain ⟨stamp, hstamp, hle⟩ := h.fresh found hfound
    exact ⟨stamp, firstWrite_mono hstamp hwritten, hle⟩

namespace AwaitedInv

theorem wait (h : AwaitedInv key w) (n : ℕ) : AwaitedInv key (w.wait n) where
  stamped write hwrite := (h.stamped write hwrite).trans (Nat.le_add_right _ _)
  newest := h.newest
  recorded := h.recorded
  present := h.present
  told row hrow := by
    obtain ⟨completionId, hid, htold⟩ := h.told row hrow
    exact ⟨completionId, hid, htold.mono List.prefix_rfl List.prefix_rfl⟩

/-- Another state with no completion the account does not know. -/
theorem setObject (h : AwaitedInv key w) (o : Option PrState)
    (hrecorded : ∀ completionId ∈ (o.getD default).completedSyncIds,
      (w.firstWrite completionId).isSome) : AwaitedInv key { w with object := o } where
  stamped := h.stamped
  newest := h.newest
  recorded := hrecorded
  present := h.present
  told row hrow := by
    obtain ⟨completionId, hid, htold⟩ := h.told row hrow
    exact ⟨completionId, hid, htold.mono List.prefix_rfl List.prefix_rfl⟩

/-- Another store, whose row is the one it was or none. -/
theorem withStore (h : AwaitedInv key w) {store' : Store}
    (hrow : store'.row? key = w.store.row? key ∨ store'.row? key = none) :
    AwaitedInv key (w.withStore key store') where
  stamped := h.stamped
  newest row hfound := by
    rcases hrow with hsame | hnone
    · exact h.newest row (hsame.symm.trans hfound)
    · rw [show (w.withStore key store').store.row? key = none from hnone] at hfound
      cases hfound
  recorded := h.recorded
  present _ := List.getLast?_concat
  told row hresult := by
    obtain ⟨completionId, hid, htold⟩ := h.told row hresult
    exact ⟨completionId, hid, htold.mono List.prefix_rfl (List.prefix_append _ _)⟩

/-- The row of any pull request, taken. -/
theorem deletePr (h : AwaitedInv key w) (other : PrKey) :
    AwaitedInv key (w.withStore key (w.store.deletePr other)) := by
  refine h.withStore ?_
  rw [Store.row?_deletePr]
  split
  · exact .inr rfl
  · exact .inl rfl

/-- **A snapshot as new as every one before it, written through.** -/
theorem write (h : AwaitedInv key w) {snapshot : PrRecord} {store' : Store}
    (hrow : store'.row? key = some snapshot) (hclock : snapshot.syncedAt ≤ w.clock)
    (hnewest : ∀ write ∈ w.written, write.syncedAt ≤ snapshot.syncedAt) :
    AwaitedInv key (w.write key snapshot store') where
  stamped := by
    rintro write hwrite
    rcases List.mem_append.1 hwrite with hold | hnew
    · exact h.stamped write hold
    · obtain rfl := List.mem_singleton.1 hnew
      exact hclock
  newest := by
    rintro row hfound write hwrite
    obtain rfl : snapshot = row := Option.some.inj (hrow.symm.trans hfound)
    rcases List.mem_append.1 hwrite with hold | hnew
    · exact hnewest write hold
    · obtain rfl := List.mem_singleton.1 hnew
      exact Nat.le_refl _
  recorded completionId hid :=
    isSome_firstWrite_mono (h.recorded completionId hid) (List.prefix_append _ _)
  present _ := List.getLast?_concat
  told row hresult := by
    obtain ⟨completionId, hid, htold⟩ := h.told row hresult
    exact ⟨completionId, hid, htold.mono (List.prefix_append _ _) (List.prefix_append _ _)⟩

end AwaitedInv

end

end Dependaboard
