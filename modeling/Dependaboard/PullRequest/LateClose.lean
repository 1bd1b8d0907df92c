import Dependaboard.PullRequest.Reopened
import Dependaboard.PullRequest.RowFirst
/-!
# The pull request — why a late close costs nothing

The object's handlers are walked once, each step beside whatever the sweeps
do meanwhile. What a sweep can do to the object is take its row, and only
where the row's stamp is before the fence; the outbox row it queues is then
numbered past every close delivered so far, so it is still to be told. That
is `Beside`. What the object and its row say of each other between handlers
is `Agrees`: equal, or the row gone and the close for it still to come.
-/

namespace Dependaboard

open Durable

namespace ReopenWorld

/-- A close is still to come for a snapshot stamped `synced`: a prune queued
it under a later fence, and it has not been delivered. -/
def Undelivered (key : PrKey) (w : ReopenWorld) (synced : ℕ) : Prop :=
  ∃ retirement, ((), retirement) ∈ w.outbox.queued ∧ retirement.key = key ∧
    (∃ f, retirement.syncedBefore = some f ∧ synced < f) ∧ retirement ∉ w.delivered

/-- **The object and its row agree**, but for a close that is still to
come. -/
structure Agrees (key : PrKey) (w : ReopenWorld) : Prop where
  row : ∀ row, w.row key = some row → w.held.snapshot = some row
  stamped : ∀ snapshot, w.held.snapshot = some snapshot →
    w.held.lastSyncedAt = some snapshot.syncedAt ∧ w.lastSync = some snapshot.syncedAt
  bare : w.held.snapshot = none → w.held = default
  gone : ∀ snapshot, w.held.snapshot = some snapshot → w.row key = none →
    w.Undelivered key snapshot.syncedAt

/-- What the sweeps may do beside a handler of the object: queue, and take
the row of a snapshot stamped before their fence. -/
structure Beside (key : PrKey) (w w' : ReopenWorld) : Prop where
  object : w'.object = w.object
  serving : w'.serving = w.serving
  lastSync : w'.lastSync = w.lastSync
  delivered : w'.delivered = w.delivered
  queued : w.outbox.queued ⊆ w'.outbox.queued
  row : w'.row key = w.row key ∨
    w'.row key = none ∧ ∀ row, w.row key = some row → w'.Undelivered key row.syncedAt

/-- **Where each close is.** A retirement of the pull request told is
delivered or on its way, a close's rows are under its fence, and every row
read carries a number already given. -/
structure Carried (key : PrKey) (w : ReopenWorld) : Prop where
  told : ∀ retirement, w.outbox.Told () retirement → retirement.key = key →
    retirement ∈ w.delivered ∨ ∃ message ∈ w.inflight, retirement ∈ message.rows
  fence : ∀ message ∈ w.messages, ∀ retirement ∈ message.rows,
    retirement.syncedBefore = message.request.syncedBefore
  read : ∀ slot, ∀ retirement ∈ w.outbox.reads slot, retirement.id ≤ w.outbox.last
  given : ∀ message ∈ w.messages, ∀ retirement ∈ message.rows, retirement.id ≤ w.outbox.last
  past : ∀ retirement ∈ w.delivered, retirement.id ≤ w.outbox.last
  served : ∀ message, w.serving = some (.closed message) → message ∈ w.messages

end ReopenWorld

open ReopenWorld

/-- What every reachable world keeps. -/
structure ReopenInv (key : PrKey) (w : ReopenWorld) : Prop where
  carried : w.Carried key
  stamped : ∀ row, w.row key = some row → w.lastSync = some row.syncedAt
  spared : w.wronged = []
  agrees : w.serving = none → w.Agrees key

variable {key : PrKey} {u v w w' : ReopenWorld}

/-! ## Beside the sweeps -/

theorem ReopenWorld.Undelivered.mono {synced : ℕ} (h : w.Undelivered key synced)
    (hqueued : w.outbox.queued ⊆ w'.outbox.queued) (hdelivered : w'.delivered = w.delivered) :
    w'.Undelivered key synced := by
  obtain ⟨retirement, hmem, hkey, hfence, hnot⟩ := h
  exact ⟨retirement, hqueued hmem, hkey, hfence, hdelivered ▸ hnot⟩

namespace ReopenWorld.Beside

theorem refl (key : PrKey) (w : ReopenWorld) : Beside key w w :=
  ⟨rfl, rfl, rfl, rfl, List.Subset.refl _, .inl rfl⟩

theorem trans (h : Beside key u v) (h' : Beside key v w) : Beside key u w where
  object := h'.object.trans h.object
  serving := h'.serving.trans h.serving
  lastSync := h'.lastSync.trans h.lastSync
  delivered := h'.delivered.trans h.delivered
  queued := List.Subset.trans h.queued h'.queued
  row := by
    rcases h.row with hsame | ⟨hnone, hgone⟩
    · rw [← hsame]; exact h'.row
    · have hnone' : w.row key = none := by
        rcases h'.row with hsame' | ⟨hnone', -⟩
        · rw [hsame', hnone]
        · exact hnone'
      exact .inr ⟨hnone', fun row hrow => (hgone row hrow).mono h'.queued h'.delivered⟩

theorem held (h : Beside key w w') : w'.held = w.held := by
  unfold ReopenWorld.held
  rw [h.object]

/-- A row that is there was there. -/
theorem row_of_some (h : Beside key w w') {row : PrRecord} (hrow : w'.row key = some row) :
    w.row key = some row := by
  rcases h.row with hsame | ⟨hnone, -⟩
  · rwa [← hsame]
  · rw [hnone] at hrow; cases hrow

/-- A row there before is there, or a close for it is still to come. -/
theorem row_of_none (h : Beside key w w') {row : PrRecord} (hrow : w.row key = some row)
    (hnone : w'.row key = none) : w'.Undelivered key row.syncedAt := by
  rcases h.row with hsame | ⟨-, hgone⟩
  · rw [hsame, hrow] at hnone; cases hnone
  · exact hgone row hrow

theorem none_of_none (h : Beside key w w') (hnone : w.row key = none) : w'.row key = none := by
  rcases h.row with hsame | ⟨hnone', -⟩
  · rw [hsame, hnone]
  · exact hnone'

/-- **The sweeps leave an agreement standing.** -/
theorem agrees (h : Beside key w w') (hw : w.Agrees key) : w'.Agrees key where
  row row hrow := by rw [h.held]; exact hw.row row (h.row_of_some hrow)
  stamped snapshot hsnapshot := by
    rw [h.held] at hsnapshot ⊢
    rw [h.lastSync]
    exact hw.stamped snapshot hsnapshot
  bare hbare := by rw [h.held] at hbare ⊢; exact hw.bare hbare
  gone snapshot hsnapshot hnone := by
    rw [h.held] at hsnapshot
    cases hrow : w.row key with
    | none => exact (hw.gone snapshot hsnapshot hrow).mono h.queued h.delivered
    | some row =>
      obtain rfl : row = snapshot := Option.some.inj ((hw.row row hrow).symm.trans hsnapshot)
      exact h.row_of_none hrow hnone

end ReopenWorld.Beside

/-- What happens beside the object keeps the invariant where it keeps the
accounts. -/
theorem ReopenInv.of_beside (hw : ReopenInv key w) (h : Beside key w w')
    (hcarried : w'.Carried key) (hspared : w'.wronged = []) : ReopenInv key w' where
  carried := hcarried
  stamped row hrow := by rw [h.lastSync]; exact hw.stamped row (h.row_of_some hrow)
  spared := hspared
  agrees hidle := h.agrees (hw.agrees (h.serving ▸ hidle))

/-! ## The sweeps -/

/-- Another store with the same row and the same outbox is nothing to the
object. -/
theorem beside_withStore {store' : Store} (hrow : store'.row? key = w.row key) :
    Beside key w (w.withStore store') :=
  ⟨rfl, rfl, rfl, rfl, List.Subset.refl _, .inl hrow⟩

theorem ReopenWorld.Carried.withStore (h : w.Carried key) {store' : Store}
    (hsame : store'.retirements = w.outbox.store.retirements) :
    (w.withStore store').Carried key := by
  have hlast : (w.withStore store').outbox.last = w.outbox.last := by
    simp only [ReopenWorld.withStore, OutboxWorld.last, hsame]
  refine ⟨h.told, h.fence, ?_, ?_, ?_, h.served⟩
  · rw [hlast]; exact h.read
  · rw [hlast]; exact h.given
  · rw [hlast]; exact h.past

/-- A reconcile's prune takes a row only from before its fence, and queues
it past every number given. -/
theorem undelivered_of_retainPrs (hw : ReopenInv key w) {repositoryId syncedBefore : ℕ}
    {live : List ℕ} {pruned : List PrKey} {store' : Store}
    (h : (Prune.retainPrs repositoryId live syncedBefore).Landed w.outbox.store pruned store')
    {row : PrRecord} (hrow : w.row key = some row) (hnone : store'.row? key = none) :
    row.syncedAt < syncedBefore ∧ ∃ retirement ∈ w.outbox.store.queuedRows pruned (some syncedBefore),
      retirement.key = key ∧ retirement.syncedBefore = some syncedBefore ∧
        retirement ∉ w.delivered := by
  obtain ⟨hmem, rfl⟩ := Relational.Table.find?_eq_some.1 hrow
  have hdoomed : (Prune.retainPrs repositoryId live syncedBefore).dooms w.outbox.store row := by
    unfold Store.row? at hnone
    rw [h.rows, Relational.Table.find?_delete] at hnone
    have hfind : w.outbox.store.pullRequests.find? row.key = some row := hrow
    simpa [hfind] using hnone
  have hstamp : row.syncedAt < syncedBefore := by
    simp only [Prune.dooms, decide_eq_true_eq] at hdoomed
    exact hdoomed.2.1
  obtain ⟨retirement, hqueued, hkey⟩ := Prune.exists_queuedRow
    (.retainPrs repositoryId live syncedBefore) w.outbox.store
    (h.mem_pruned.2 ⟨row, hmem, hdoomed, rfl⟩)
  obtain ⟨-, hfence, hnew, -⟩ := h.of_mem_queuedRows hqueued
  refine ⟨hstamp, retirement, hqueued, hkey, hfence, fun hdelivered => ?_⟩
  -- what was delivered carries a number given before this prune
  have hold : retirement.id ≤ w.outbox.store.retirements.last :=
    hw.carried.past retirement hdelivered
  omega

/-- **A reconcile's prune stays beside the object**, and takes no row synced
at or after its fence. -/
theorem ReopenInv.prune (hw : ReopenInv key w) {repositoryId syncedBefore : ℕ} {live : List ℕ}
    {pruned : List PrKey} {store' : Store} (slot : ℕ)
    (h : (Prune.retainPrs repositoryId live syncedBefore).Landed w.outbox.store pruned store') :
    let w' := w.swept key slot (.prune (.retainPrs repositoryId live syncedBefore))
      (w.outbox.prune () (.retainPrs repositoryId live syncedBefore) pruned store')
    ReopenInv key w' ∧ Beside key w w' := by
  intro w'
  have hlast : w.outbox.last ≤ store'.retirements.last := by
    have := h.last
    unfold OutboxWorld.last
    omega
  have hqueued : ∀ retirement ∈ w.outbox.store.queuedRows pruned (some syncedBefore),
      ((), retirement) ∈ w'.outbox.queued := fun retirement hmem =>
    List.mem_append_right _ (List.mem_map_of_mem hmem)
  have hbeside : Beside key w w' := by
    refine ⟨rfl, rfl, rfl, rfl, List.subset_append_left _ _, ?_⟩
    -- the row is gone behind a retirement still to be delivered, or is as it was
    cases hnone : store'.row? key with
    | none =>
      refine .inr ⟨hnone, fun row hrow => ?_⟩
      obtain ⟨hstamp, retirement, hmem, hkey, hfence, hnot⟩ :=
        undelivered_of_retainPrs hw h hrow hnone
      exact ⟨retirement, hqueued retirement hmem, hkey, ⟨_, hfence, hstamp⟩, hnot⟩
    | some row =>
      have hkept : store'.row? key = w.row key := by
        unfold Store.row? at hnone ⊢
        rw [h.rows, Relational.Table.find?_delete] at hnone ⊢
        exact hnone.trans (Option.filter_eq_some_iff.1 hnone).1.symm
      exact .inl hkept
  refine ⟨hw.of_beside hbeside ⟨hw.carried.told, hw.carried.fence, ?_, ?_, ?_, hw.carried.served⟩
    ?_, hbeside⟩
  · exact fun slot retirement hmem => (hw.carried.read slot retirement hmem).trans hlast
  · exact fun message hmem retirement hrow =>
      (hw.carried.given message hmem retirement hrow).trans hlast
  · exact fun retirement hmem => (hw.carried.past retirement hmem).trans hlast
  · have hcost : w.cost (some syncedBefore)
        ((w.row key).isSome && (store'.row? key).isNone) = [] := by
      cases hrow : w.row key with
      | none => simp [ReopenWorld.cost]
      | some row =>
        cases hnone : store'.row? key with
        | some _ => simp [ReopenWorld.cost]
        | none =>
          -- a row the prune takes was synced before its fence: it wrongs nobody
          obtain ⟨hstamp, -⟩ := undelivered_of_retainPrs hw h hrow hnone
          simp [ReopenWorld.cost, hw.stamped row hrow, hstamp]
    show w.wronged ++ w.cost (some syncedBefore)
      ((w.row key).isSome && (store'.row? key).isNone) = []
    rw [hw.spared, hcost, List.append_nil]

/-- **A close a drain sends is on its way** with the rows it was sent for. -/
theorem ReopenWorld.Carried.close (h : w.Carried key) (slot : ℕ) (request : ClosedRequest) :
    (w.swept key slot (.closePullRequest key request)
      (w.outbox.close ((), slot) key request)).Carried key := by
  have hasked : ∀ retirement ∈ (w.message slot key request).rows,
      retirement.syncedBefore = request.syncedBefore ∧ retirement.id ≤ w.outbox.last := by
    intro retirement hmem
    obtain ⟨hread, hasks⟩ := List.mem_filter.1 hmem
    obtain ⟨-, hfence⟩ : retirement.key = key ∧ retirement.syncedBefore = request.syncedBefore := by
      simpa using hasks
    exact ⟨hfence, h.read _ retirement hread⟩
  simp only [ReopenWorld.swept, if_true]
  refine ⟨fun retirement htold hkey => ?_, ?_, h.read, ?_, h.past, fun message hserving => ?_⟩
  · rcases List.mem_append.1 htold with hold | hnew
    · refine (h.told retirement hold hkey).imp_right fun ⟨message, hmem, hrow⟩ => ?_
      exact ⟨message, List.mem_append_left _ hmem, hrow⟩
    · obtain ⟨other, hrow, heq⟩ := List.mem_map.1 hnew
      cases heq
      exact .inr ⟨w.message slot key request, List.mem_append_right _ (List.mem_singleton.2 rfl),
        hrow⟩
  · intro message hmem retirement hrow
    rcases List.mem_append.1 hmem with hold | hnew
    · exact h.fence message hold retirement hrow
    · obtain rfl := List.mem_singleton.1 hnew
      exact (hasked retirement hrow).1
  · intro message hmem retirement hrow
    rcases List.mem_append.1 hmem with hold | hnew
    · exact h.given message hold retirement hrow
    · obtain rfl := List.mem_singleton.1 hnew
      exact (hasked retirement hrow).2
  · exact List.mem_append_left _ (h.served message hserving)

/-- A close sent to another object tells none of this one's rows. -/
theorem ReopenWorld.Carried.close_of_ne (h : w.Carried key) (slot : ℕ) {other : PrKey}
    (hne : other ≠ key) (request : ClosedRequest) :
    (w.swept key slot (.closePullRequest other request)
      (w.outbox.close ((), slot) other request)).Carried key := by
  simp only [ReopenWorld.swept, if_neg hne]
  refine ⟨fun retirement htold hkey => ?_, h.fence, h.read, h.given, h.past, h.served⟩
  rcases List.mem_append.1 htold with hold | hnew
  · exact h.told retirement hold hkey
  · obtain ⟨asked, hrow, heq⟩ := List.mem_map.1 hnew
    cases heq
    have hother : retirement.key = other := by
      have := (List.mem_filter.1 hrow).2
      simp only [decide_eq_true_eq] at this
      exact this.1
    exact absurd (hother.symm.trans hkey) hne

/-- A drain's read is of rows already numbered. -/
theorem ReopenWorld.Carried.read_pending (h : w.Carried key) (slot : ℕ) :
    ({ w with outbox := w.outbox.read ((), slot) } : ReopenWorld).Carried key := by
  refine ⟨h.told, h.fence, fun other retirement hmem => ?_, h.given, h.past, h.served⟩
  by_cases heq : other = ((), slot)
  · subst heq
    simp only [OutboxWorld.read, Function.update_self] at hmem
    exact w.outbox.store.retirements.le_last retirement hmem
  · simp only [OutboxWorld.read, Function.update_of_ne heq] at hmem
    exact h.read other retirement hmem

/-- **A sweep's step stays beside the object** and keeps the invariant. -/
theorem ReopenInv.sweep (hw : ReopenInv key w) (slot : ℕ) {call : SweepCall} (hcall : call.OfRepository)
    {answer : call.Answer} {outbox' : OutboxWorld Unit}
    (hsem : outboxSem (fun _ _ => True) ((), slot) call w.outbox answer outbox') :
    ReopenInv key (w.swept key slot call outbox') ∧
      Beside key w (w.swept key slot call outbox') := by
  have hsame : ∀ call' : SweepCall, w.swept key slot call' w.outbox = w →
      ReopenInv key (w.swept key slot call' w.outbox) ∧
        Beside key w (w.swept key slot call' w.outbox) := by
    intro call' heq
    rw [heq]
    exact ⟨hw, .refl key w⟩
  -- a refused call changes nothing; of the others only a prune may take the row
  cases call with
  | prune prune =>
    rcases hsem with ⟨error, -, rfl⟩ | ⟨pruned, store', hrun, -, rfl⟩
    · refine hsame _ ?_
      have hcost : w.cost prune.fence
          ((w.row key).isSome && (w.outbox.store.row? key).isNone) = [] := by
        unfold ReopenWorld.cost ReopenWorld.row
        cases w.outbox.store.row? key <;> cases prune.fence <;> simp
      simp only [ReopenWorld.swept, hcost, List.append_nil]
    · cases prune with
      | retainPrs repositoryId live syncedBefore => exact hw.prune slot (Prune.run_ok hrun)
      | replaceInstallationRepos _ _ _ => exact hcall.elim
      | purgeInstallation _ => exact hcall.elim
  | pendingRetirements =>
    rcases hsem with ⟨error, -, rfl⟩ | ⟨-, -, rfl⟩
    · exact hsame _ rfl
    · have hbeside : Beside key w { w with outbox := w.outbox.read ((), slot) } :=
        ⟨rfl, rfl, rfl, rfl, List.Subset.refl _, .inl rfl⟩
      exact ⟨hw.of_beside hbeside (hw.carried.read_pending slot) hw.spared, hbeside⟩
  | closePullRequest other request =>
    obtain rfl := hsem
    by_cases hkey : other = key
    · subst hkey
      have hbeside : Beside other w (w.swept other slot (.closePullRequest other request)
          (w.outbox.close ((), slot) other request)) := by
        simp only [ReopenWorld.swept, if_true]
        exact ⟨rfl, rfl, rfl, rfl, List.Subset.refl _, .inl rfl⟩
      refine ⟨hw.of_beside hbeside (hw.carried.close slot request) ?_, hbeside⟩
      simpa only [ReopenWorld.swept, if_true] using hw.spared
    · have hbeside : Beside key w (w.swept key slot (.closePullRequest other request)
          (w.outbox.close ((), slot) other request)) := by
        simp only [ReopenWorld.swept, if_neg hkey]
        exact ⟨rfl, rfl, rfl, rfl, List.Subset.refl _, .inl rfl⟩
      refine ⟨hw.of_beside hbeside (hw.carried.close_of_ne slot hkey request) ?_, hbeside⟩
      simpa only [ReopenWorld.swept, if_neg hkey] using hw.spared
  | acknowledgeRetirements through =>
    rcases hsem with ⟨error, -, rfl⟩ | ⟨store', hack, -, rfl⟩
    · exact hsame _ rfl
    · obtain rfl := Store.acknowledgeRetirements_ok hack
      have hbeside : Beside key w (w.swept key slot (.acknowledgeRetirements through)
          (w.outbox.acknowledge ((), slot) through (w.outbox.store.deleteRetirements through))) :=
        ⟨rfl, rfl, rfl, rfl, List.Subset.refl _, .inl rfl⟩
      obtain ⟨htold, hfence, hread, hgiven, hpast, hserved⟩ := hw.carried
      exact ⟨hw.of_beside hbeside ⟨htold, hfence, hread, hgiven, hpast, hserved⟩ hw.spared, hbeside⟩
  | now _ | listPullRequests _ | syncPullRequest _ _ | listRepositories | reconcileRepository _ =>
    obtain rfl := hsem
    exact hsame _ rfl

/-- So does one whose answer is lost. -/
theorem ReopenInv.sweep_lost (hw : ReopenInv key w) (slot : ℕ) {call : SweepCall}
    (hcall : call.OfRepository) {outbox' : OutboxWorld Unit}
    (hlose : outboxLose (fun _ _ => True) ((), slot) call w.outbox outbox') :
    ReopenInv key (w.swept key slot call outbox') ∧
      Beside key w (w.swept key slot call outbox') := by
  cases call with
  | pendingRetirements =>
    obtain rfl := hlose
    exact ⟨hw, .refl key w⟩
  | prune _ | closePullRequest _ _ | acknowledgeRetirements _ | now _ | listPullRequests _
  | syncPullRequest _ _ | listRepositories | reconcileRepository _ =>
    obtain ⟨answer, hsem⟩ := hlose
    exact hw.sweep slot hcall hsem

/-! ## The object's handlers -/

/-- The outline: the invariant, and the object beside its sweeps. -/
def reopenOutline (object : PullRequestObject) : Outline (reopenSystem object) where
  inv := ReopenInv object.key
  rely
    | none => Beside object.key
    | some _ => fun _ _ => True
  rely_refl i w := by
    cases i with
    | none => exact .refl object.key w
    | some _ => trivial
  rely_trans {i} _ _ _ h h' := by
    cases i with
    | none => exact ReopenWorld.Beside.trans h h'
    | some _ => trivial

/-- What a handler of the object may assert between its calls: it holds
while the handler is served, and the sweeps leave it standing. -/
structure Assertion (key : PrKey) (P : ReopenWorld → Prop) : Prop where
  busy : ∀ w, P w → w.serving ≠ none
  beside : ∀ w w', P w → Beside key w w' → P w'

/-- The object serves `serving` and agrees with its row. -/
structure Serves (key : PrKey) (handler : Serving) (w : ReopenWorld) : Prop where
  serving : w.serving = some handler
  agrees : w.Agrees key

/-- The object serves `serving`, agrees with its row, and holds `state`. -/
def Holds (key : PrKey) (serving : Serving) (state : Option PrState) (w : ReopenWorld) : Prop :=
  Serves key serving w ∧ w.object = state

/-- The object's row has gone, and its state is to follow at no cost. -/
structure Dropped (key : PrKey) (handler : Serving) (w : ReopenWorld) : Prop where
  serving : w.serving = some handler
  row : w.row key = none
  free : w.cost handler.fence (w.held ≠ default) = []

/-- The snapshot is in the row, or a sweep has taken it since, and the
state is to follow. -/
structure Written (key : PrKey) (snapshot : PrRecord) (w : ReopenWorld) : Prop where
  serving : w.serving = some .sync
  lastSync : w.lastSync = some snapshot.syncedAt
  row : ∀ row, w.row key = some row → row = snapshot
  gone : w.row key = none → w.Undelivered key snapshot.syncedAt

theorem Serves.assertion (key : PrKey) (serving : Serving) : Assertion key (Serves key serving) where
  busy w hw := by rw [hw.serving]; exact Option.some_ne_none _
  beside w w' hw h := ⟨h.serving.trans hw.serving, h.agrees hw.agrees⟩

theorem Holds.assertion (key : PrKey) (serving : Serving) (state : Option PrState) :
    Assertion key (Holds key serving state) where
  busy w hw := (Serves.assertion key serving).busy w hw.1
  beside w w' hw h :=
    ⟨(Serves.assertion key serving).beside w w' hw.1 h, h.object.trans hw.2⟩

theorem Dropped.assertion (key : PrKey) (serving : Serving) :
    Assertion key (Dropped key serving) where
  busy w hw := by rw [hw.serving]; exact Option.some_ne_none _
  beside w w' hw h := by
    refine ⟨h.serving.trans hw.serving, h.none_of_none hw.row, ?_⟩
    have hfree := hw.free
    unfold ReopenWorld.cost at hfree ⊢
    rwa [h.lastSync, h.held]

theorem Written.assertion (key : PrKey) (snapshot : PrRecord) :
    Assertion key (Written key snapshot) where
  busy w hw := by rw [hw.serving]; exact Option.some_ne_none _
  beside w w' hw h := by
    refine ⟨h.serving.trans hw.serving, h.lastSync.trans hw.lastSync,
      fun row hrow => hw.row row (h.row_of_some hrow), fun hnone => ?_⟩
    cases hrow : w.row key with
    | none => exact (hw.gone hrow).mono h.queued h.delivered
    | some row =>
      obtain rfl := hw.row row hrow
      exact h.row_of_none hrow hnone

/-- What a handler's call leaves of the accounts. -/
theorem objectSem_carried {call : PullRequestCall} {answer : call.Answer}
    (h : objectSem key call w answer w') (hw : w.Carried key) :
    w'.Carried key ∧ w'.serving = w.serving := by
  obtain ⟨htold, hfence, hread, hgiven, hpast, hserved⟩ := hw
  cases call with
  | upsertProjection snapshot =>
    rcases h with ⟨error, -, rfl⟩ | ⟨store', hupsert, -, rfl⟩
    · exact ⟨⟨htold, hfence, hread, hgiven, hpast, hserved⟩, rfl⟩
    · obtain ⟨hrepo, rfl⟩ := Store.upsertPr_ok hupsert
      exact ⟨⟨htold, hfence, hread, hgiven, hpast, hserved⟩, rfl⟩
  | deleteProjection step other =>
    rcases h with ⟨error, -, rfl⟩ | ⟨-, rfl⟩
    · exact ⟨⟨htold, hfence, hread, hgiven, hpast, hserved⟩, rfl⟩
    · exact ⟨⟨htold, hfence, hread, hgiven, hpast, hserved⟩, rfl⟩
  | state | fetchSnapshot _ _ =>
    obtain ⟨rfl, -⟩ := h
    exact ⟨⟨htold, hfence, hread, hgiven, hpast, hserved⟩, rfl⟩
  | clearState | setState _ | now _ | scheduleSync _ _ _ | merge _ _ | postCommand _
  | updateBranch _ | repositoryMergeMethod _ =>
    obtain rfl := h
    exact ⟨⟨htold, hfence, hread, hgiven, hpast, hserved⟩, rfl⟩

section Handlers

variable {object : PullRequestObject}

/-- **The rule of a handler's call**: from one assertion to another, the row
stamped and nothing wronged. -/
theorem safe_ask {α : Type} {call : PullRequestCall} {k : call.Answer → PullRequestM α}
    {post : Except HandlerError α → ReopenWorld → Prop} {P : ReopenWorld → Prop}
    {Q : call.Answer → ReopenWorld → Prop} (hP : P w) (hassert : Assertion object.key P)
    (hstep : ∀ u answer v, P u → ReopenInv object.key u → objectSem object.key call u answer v →
      (∀ row, v.row object.key = some row → v.lastSync = some row.syncedAt) ∧ v.wronged = [] ∧
        Q answer v)
    (hk : ∀ answer v, Q answer v → (reopenOutline object).Safe none (k answer) post v) :
    (reopenOutline object).Safe none (Prog.ask (S := PullRequestEffects) call k) post w := by
  refine Outline.Safe.ask hP (fun u v hu h _ => hassert.beside u v hu h) (fun _ _ => id)
    (fun _ _ _ => trivial) ?_
  intro u answer v hu hinv hsem
  obtain ⟨hstamped, hspared, hQ⟩ := hstep u answer v hu hinv hsem
  obtain ⟨hcarried, hserving⟩ := objectSem_carried hsem hinv.carried
  have hbusy : v.serving ≠ none := hserving ▸ hassert.busy u hu
  refine ⟨⟨⟨hcarried, hstamped, hspared, fun hidle => absurd hidle hbusy⟩, ?_⟩, hk answer v hQ⟩
  intro j hj
  cases j with
  | none => exact absurd rfl hj
  | some _ => trivial

/-- A call that leaves the world as it is. -/
theorem safe_quiet {α : Type} {call : PullRequestCall} {k : call.Answer → PullRequestM α}
    {post : Except HandlerError α → ReopenWorld → Prop} {P : ReopenWorld → Prop} (hP : P w)
    (hassert : Assertion object.key P)
    (hquiet : ∀ u answer v, objectSem object.key call u answer v → v = u)
    (hk : ∀ answer v, P v → (reopenOutline object).Safe none (k answer) post v) :
    (reopenOutline object).Safe none (Prog.ask (S := PullRequestEffects) call k) post w := by
  refine safe_ask (Q := fun _ => P) hP hassert (fun u answer v hu hinv hsem => ?_) hk
  obtain rfl := hquiet u answer v hsem
  exact ⟨hinv.stamped, hinv.spared, hu⟩

/-- A handler ends where its assertion holds. -/
theorem safe_done {α : Type} {P : ReopenWorld → Prop} (hassert : Assertion object.key P) (hP : P w)
    (a : α) : (reopenOutline object).Safe none (.done a) (fun _ u => P u) w :=
  fun u hu _ => hassert.beside w u hP hu

theorem safe_fail {α : Type} {P : ReopenWorld → Prop} (hassert : Assertion object.key P) (hP : P w)
    (error : HandlerError) :
    (reopenOutline object).Safe none (.fail error : PullRequestM α) (fun _ u => P u) w :=
  fun u hu _ => hassert.beside w u hP hu

/-! ### What the calls do -/

/-- A state that says the same of the snapshot agrees as well. -/
theorem ReopenWorld.Agrees.setState (h : w.Agrees key) {state : PrState}
    (hsnapshot : state.snapshot = w.held.snapshot)
    (hlast : state.lastSyncedAt = w.held.lastSyncedAt)
    (hbare : w.held.snapshot = none → state = default) :
    ({ w with object := some state } : ReopenWorld).Agrees key where
  row row hrow := hsnapshot.trans (h.row row hrow)
  stamped snapshot hheld := by
    obtain ⟨hstamp, hsync⟩ := h.stamped snapshot (hsnapshot.symm.trans hheld)
    exact ⟨hlast.trans hstamp, hsync⟩
  bare hnone := hbare (hsnapshot.symm.trans hnone)
  gone snapshot hheld hnone := h.gone snapshot (hsnapshot.symm.trans hheld) hnone

/-- The state catches up with the row. -/
theorem Written.setState {snapshot : PrRecord} (h : Written key snapshot w) {state : PrState}
    (hsnapshot : state.snapshot = some snapshot)
    (hlast : state.lastSyncedAt = some snapshot.syncedAt) :
    ({ w with object := some state } : ReopenWorld).Agrees key where
  row row hrow := by rw [h.row row hrow]; exact hsnapshot
  stamped other hheld := by
    obtain rfl : snapshot = other := Option.some.inj (hsnapshot.symm.trans hheld)
    exact ⟨hlast, h.lastSync⟩
  bare hnone := absurd (hsnapshot.symm.trans hnone) (Option.some_ne_none _)
  gone other hheld hnone := by
    obtain rfl : snapshot = other := Option.some.inj (hsnapshot.symm.trans hheld)
    exact h.gone hnone

/-- An object forgotten and a row gone agree. -/
theorem Dropped.forget {serving : Serving} (h : Dropped key serving w) : w.forget.Agrees key where
  row _ hrow := absurd (h.row.symm.trans hrow) nofun
  stamped _ hheld := absurd hheld nofun
  bare _ := rfl
  gone _ hheld := absurd hheld nofun

/-- **Taking what the object agrees to retire costs nothing.** -/
theorem ReopenWorld.Agrees.cost_eq_nil (h : w.Agrees key) {fence : Option ℕ} {took : Bool}
    (hretires : ∀ f last, fence = some f → w.held.lastSyncedAt = some last → last < f)
    (htook : took → w.held.snapshot.isSome) : w.cost fence took = [] := by
  cases fence with
  | none => rfl
  | some f =>
    cases took with
    | false => rfl
    | true =>
      obtain ⟨snapshot, hheld⟩ := Option.isSome_iff_exists.1 (htook rfl)
      obtain ⟨hstamp, hsync⟩ := h.stamped snapshot hheld
      have hlt : snapshot.syncedAt < f := hretires f snapshot.syncedAt rfl hstamp
      simp [ReopenWorld.cost, hsync, hlt]

/-- The row dropped from an object that agrees to it. -/
theorem safe_dropRow {serving : Serving} {state : Option PrState} {step : String}
    {α : Type} {f : Unit → PullRequestM α} {post : Except HandlerError α → ReopenWorld → Prop}
    (hw : Holds object.key serving state w)
    (hretires : ∀ fence last, serving.fence = some fence →
      (state.getD default).lastSyncedAt = some last → last < fence)
    (hfail : ∀ u error, Serves object.key serving u →
      (reopenOutline object).Safe none (.fail error) post u)
    (hk : ∀ u, Dropped object.key serving u → (reopenOutline object).Safe none (f ()) post u) :
    (reopenOutline object).Safe none ((PullRequestM.deleteProjection step object.key).bind f) post
      w := by
  refine safe_ask (Q := fun answer v => match answer with
    | .ok _ => Dropped object.key serving v
    | .error _ => Serves object.key serving v) hw (Holds.assertion object.key serving state) ?_ ?_
  · rintro u answer v ⟨hserves, hobject⟩ hinv (⟨error, rfl, rfl⟩ | ⟨rfl, rfl⟩)
    · exact ⟨hinv.stamped, hinv.spared, hserves⟩
    · have hnone : (u.outbox.store.deletePr object.key).row? object.key = none := by
        rw [Store.row?_deletePr, if_pos rfl]
      have hretires' : ∀ fence last, serving.fence = some fence →
          u.held.lastSyncedAt = some last → last < fence := by
        unfold ReopenWorld.held
        rwa [hobject]
      -- the row taken and the state kept were both synced before the close was sent
      have hcost : u.cost (u.serving.bind Serving.fence) (u.row object.key).isSome = [] := by
        rw [hserves.serving]
        refine hserves.agrees.cost_eq_nil hretires' fun hrow => ?_
        obtain ⟨row, hrow⟩ := Option.isSome_iff_exists.1 hrow
        rw [hserves.agrees.row row hrow]; rfl
      have hfree : u.cost serving.fence (u.held ≠ default) = [] := by
        refine hserves.agrees.cost_eq_nil hretires' fun hheld => ?_
        have hne : u.held ≠ default := by simpa using hheld
        exact Option.isSome_iff_ne_none.2 fun hbare => hne (hserves.agrees.bare hbare)
      refine ⟨fun row hrow => absurd (hnone.symm.trans hrow) nofun, ?_, hserves.serving, hnone, hfree⟩
      show u.wronged ++ u.cost (u.serving.bind Serving.fence) (u.row object.key).isSome = []
      rw [hinv.spared, hcost, List.append_nil]
  · intro answer v hv
    cases answer with
    | ok _ => exact hk v hv
    | error error => exact hfail v error hv

/-- The state forgotten once the row has gone. -/
theorem safe_forget {serving : Serving} {α : Type} {f : Unit → PullRequestM α}
    {post : Except HandlerError α → ReopenWorld → Prop} (hw : Dropped object.key serving w)
    (hk : ∀ u, Holds object.key serving none u →
      (reopenOutline object).Safe none (f ()) post u) :
    (reopenOutline object).Safe none (PullRequestM.clearState.bind f) post w := by
  refine safe_ask (Q := fun _ => Holds object.key serving none) hw
    (Dropped.assertion object.key serving) ?_ fun _ v hv => hk v hv
  rintro u answer v hu hinv rfl
  refine ⟨hinv.stamped, ?_, ⟨hu.serving, hu.forget⟩, rfl⟩
  have hcost : u.cost (u.serving.bind Serving.fence) (u.held ≠ default) = [] := by
    rw [hu.serving]
    exact hu.free
  show u.wronged ++ u.cost (u.serving.bind Serving.fence) (u.held ≠ default) = []
  rw [hinv.spared, hcost, List.append_nil]

/-- A state written that says the same of the snapshot. -/
theorem safe_setState {serving : Serving} {held : Option PrState} {state : PrState} {α : Type}
    {f : Unit → PullRequestM α} {post : Except HandlerError α → ReopenWorld → Prop}
    (hw : Holds object.key serving held w)
    (hsnapshot : state.snapshot = (held.getD default).snapshot)
    (hlast : state.lastSyncedAt = (held.getD default).lastSyncedAt)
    (hbare : held.getD default = default → state = default)
    (hk : ∀ u, Holds object.key serving (some state) u →
      (reopenOutline object).Safe none (f ()) post u) :
    (reopenOutline object).Safe none ((PullRequestM.setState state).bind f) post w := by
  refine safe_ask (Q := fun _ => Holds object.key serving (some state)) hw
    (Holds.assertion object.key serving held) ?_ fun _ v hv => hk v hv
  rintro u answer v ⟨hserves, rfl⟩ hinv rfl
  refine ⟨hinv.stamped, hinv.spared, ⟨hserves.serving, ?_⟩, rfl⟩
  exact hserves.agrees.setState hsnapshot hlast fun hnone => hbare (hserves.agrees.bare hnone)

/-- The object's own state, read. -/
theorem safe_state {serving : Serving} {α : Type} {f : Option PrState → PullRequestM α}
    {post : Except HandlerError α → ReopenWorld → Prop} (hw : Serves object.key serving w)
    (hfail : ∀ u error, Serves object.key serving u →
      (reopenOutline object).Safe none (.fail error) post u)
    (hk : ∀ held u, Holds object.key serving held u →
      (reopenOutline object).Safe none (f held) post u) :
    (reopenOutline object).Safe none (PullRequestM.state.bind f) post w := by
  refine safe_ask (Q := fun answer v => match answer with
    | .ok held => Holds object.key serving held v
    | .error _ => Serves object.key serving v) hw (Serves.assertion object.key serving) ?_ ?_
  · rintro u answer v hu hinv ⟨rfl, ⟨error, rfl⟩ | rfl⟩
    · exact ⟨hinv.stamped, hinv.spared, hu⟩
    · exact ⟨hinv.stamped, hinv.spared, hu, rfl⟩
  · intro answer v hv
    cases answer with
    | ok held => exact hk held v hv
    | error error => exact hfail v error hv

/-- A snapshot of the pull request written through. -/
theorem safe_upsert {held : Option PrState} {snapshot : PrRecord} {α : Type}
    {f : Unit → PullRequestM α} {post : Except HandlerError α → ReopenWorld → Prop}
    (hw : Holds object.key .sync held w) (hkey : snapshot.key = object.key)
    (hid : snapshot.id = toString snapshot.key)
    (hfail : ∀ u error, Serves object.key .sync u →
      (reopenOutline object).Safe none (.fail error) post u)
    (hk : ∀ u, Written object.key snapshot u → (reopenOutline object).Safe none (f ()) post u) :
    (reopenOutline object).Safe none ((PullRequestM.upsertProjection snapshot).bind f) post w := by
  refine safe_ask (Q := fun answer v => match answer with
    | .ok _ => Written object.key snapshot v
    | .error _ => Serves object.key .sync v) hw (Holds.assertion object.key .sync held) ?_ ?_
  · rintro u answer v ⟨hserves, -⟩ hinv (⟨error, rfl, rfl⟩ | ⟨store', hupsert, rfl, rfl⟩)
    · exact ⟨hinv.stamped, hinv.spared, hserves⟩
    · have hrow : store'.row? object.key = some snapshot := hkey ▸ Store.row?_upsertPr hupsert hid
      refine ⟨fun row hfound => ?_, hinv.spared, hserves.serving, rfl, fun row hfound => ?_, ?_⟩
      · exact congrArg (some ·.syncedAt) (Option.some.inj (hrow.symm.trans hfound))
      · exact (Option.some.inj (hrow.symm.trans hfound)).symm
      · exact fun hnone => absurd (hrow.symm.trans hnone) (Option.some_ne_none _)
  · intro answer v hv
    cases answer with
    | ok _ => exact hk v hv
    | error error => exact hfail v error hv

/-- The state written once the row has been. -/
theorem safe_catchUp {snapshot : PrRecord} {state : PrState} {α : Type}
    {f : Unit → PullRequestM α} {post : Except HandlerError α → ReopenWorld → Prop}
    (hw : Written object.key snapshot w) (hsnapshot : state.snapshot = some snapshot)
    (hlast : state.lastSyncedAt = some snapshot.syncedAt)
    (hk : ∀ u, Serves object.key .sync u → (reopenOutline object).Safe none (f ()) post u) :
    (reopenOutline object).Safe none ((PullRequestM.setState state).bind f) post w := by
  refine safe_ask (Q := fun _ => Serves object.key .sync) hw
    (Written.assertion object.key snapshot) ?_ fun _ v hv => hk v hv
  rintro u answer v hu hinv rfl
  exact ⟨hinv.stamped, hinv.spared, hu.serving, hu.setState hsnapshot hlast⟩

/-! ### The handlers -/

/-- An event is coalesced only where the object has been synced. -/
theorem lastSyncedAt_of_debounced {bypass : Bool} {last : Option ℕ} {now debounce : ℕ}
    (h : shouldDebounceSync bypass last now debounce) : last ≠ none := by
  rintro rfl
  simp [shouldDebounceSync] at h

/-- **A sync leaves the object and its row agreeing**, wherever it ends. -/
theorem safe_runSync {request : SyncRequest} (hkey : requestKey request = object.key)
    (hw : Serves object.key .sync w) : (reopenOutline object).Safe none
      (runSync request object.debounce) (fun _ u => Serves object.key .sync u) w := by
  have hserves := Serves.assertion object.key .sync
  unfold runSync
  refine safe_quiet hw hserves (fun _ _ _ h => h) fun now w₁ hw₁ => ?_
  cases now with
  | error error => exact safe_fail hserves hw₁ error
  | ok now =>
    refine safe_state hw₁ (fun u error hu => safe_fail hserves hu error) fun held w₂ hw₂ => ?_
    dsimp only
    split
    · rename_i hdebounced
      split
      · refine safe_setState hw₂ rfl rfl (fun hdefault => ?_) fun w₃ hw₃ => ?_
        · -- an object never synced debounces nothing
          exact absurd (congrArg PrState.lastSyncedAt hdefault)
            (lastSyncedAt_of_debounced hdebounced)
        · exact safe_quiet hw₃.1 hserves (fun _ _ _ h => h) fun _ w₄ hw₄ => safe_done hserves hw₄ _
      · exact safe_done hserves hw₂.1 _
    · refine safe_setState hw₂ rfl rfl (fun hdefault => by rw [hdefault]; rfl) fun w₃ hw₃ => ?_
      refine safe_ask (Q := fun answer v =>
        Holds object.key .sync (some { held.getD default with syncPending := false }) v ∧
        ∀ snapshot, answer = .ok (.ok (some snapshot)) →
          snapshot.key = object.key ∧ snapshot.id = toString snapshot.key) hw₃
        (Holds.assertion object.key .sync _) ?_ ?_
      · rintro u answer v hu hinv ⟨rfl, hof⟩
        exact ⟨hinv.stamped, hinv.spared, hu, fun snapshot h => hkey ▸ hof snapshot h⟩
      · rintro answer w₄ ⟨hw₄, hof⟩
        cases answer with
        | error error => exact safe_fail hserves hw₄.1 error
        | ok fetched =>
          simp only [Prog.ofExcept_ok, Prog.done_bind]
          cases heligible : eligibleSnapshot fetched with
          | error error => exact safe_fail hserves hw₄.1 error
          | ok snapshot =>
            cases snapshot with
            | none =>
              refine hkey ▸ safe_dropRow hw₄ nofun (fun u error hu => safe_fail hserves hu error)
                fun w₅ hw₅ => ?_
              exact safe_forget hw₅ fun w₆ hw₆ => safe_done hserves hw₆.1 _
            | some snapshot =>
              obtain ⟨hsnapshot, hid⟩ := hof snapshot
                (congrArg Except.ok (eligibleSnapshot_some heligible))
              refine safe_upsert hw₄ hsnapshot hid (fun u error hu => safe_fail hserves hu error)
                fun w₅ hw₅ => ?_
              exact safe_catchUp hw₅ (PrState.synced_snapshot _ _ _)
                (PrState.synced_lastSyncedAt _ _ _) fun w₆ hw₆ => safe_done hserves hw₆ _

/-- What a close that was answered leaves: no snapshot, or one synced at or
after its fence. -/
structure Closed (key : PrKey) (message : CloseMessage) (w : ReopenWorld) : Prop where
  serves : Serves key (.closed message) w
  answered : ∀ snapshot, w.held.snapshot = some snapshot →
    ∃ f, message.request.syncedBefore = some f ∧ f ≤ snapshot.syncedAt

theorem Closed.assertion (key : PrKey) (message : CloseMessage) :
    Assertion key (Closed key message) where
  busy w hw := (Serves.assertion key _).busy w hw.serves
  beside w w' hw h := by
    refine ⟨(Serves.assertion key _).beside w w' hw.serves h, fun snapshot hsnapshot => ?_⟩
    rw [h.held] at hsnapshot
    exact hw.answered snapshot hsnapshot

/-- What an object that agrees to a close has not reached is its fence. -/
theorem lt_of_closedRetires {state : Option PrState} {request : ClosedRequest}
    (h : closedRetires state request) {f last : ℕ} (hfence : request.syncedBefore = some f)
    (hlast : (state.getD default).lastSyncedAt = some last) : last < f := by
  have hbind : state.bind (·.lastSyncedAt) = some last := by
    cases state with
    | none => exact hlast
    | some state => exact hlast
  exact (closedRetires_iff hbind request.syncedBefore).1 h f hfence

/-- **A close leaves the object and its row agreeing**, and if it succeeds,
no snapshot from before its fence. -/
theorem safe_runClosed {message : CloseMessage} {text : String}
    (hparse : PrKey.parse text = .ok object.key) (hw : Serves object.key (.closed message) w) :
    (reopenOutline object).Safe none (runClosed text message.request)
      (fun r u => match r with
        | .ok _ => Closed object.key message u
        | .error _ => Serves object.key (.closed message) u) w := by
  have hserves := Serves.assertion object.key (.closed message)
  have hclosed := Closed.assertion object.key message
  unfold runClosed
  rw [hparse]
  refine safe_state hw (fun u error hu v hv _ => hserves.beside u v hu hv) fun held w₁ hw₁ => ?_
  -- a close that retires nothing ends here; one that does drops the row, then the state
  split
  · rename_i hkept
    have hkept : closedRetires held message.request = false := by simpa using hkept
    refine fun u hu _ => hclosed.beside w₁ u ⟨hw₁.1, fun snapshot hsnapshot => ?_⟩ hu
    obtain ⟨hstamp, -⟩ := hw₁.1.agrees.stamped snapshot hsnapshot
    have hbind : held.bind (·.lastSyncedAt) = some snapshot.syncedAt := by
      rw [← hw₁.2]
      unfold ReopenWorld.held at hstamp
      cases hobject : w₁.object with
      | none => rw [hobject] at hstamp; exact hstamp
      | some state => rw [hobject] at hstamp; exact hstamp
    have hnot : ¬ ∀ f, message.request.syncedBefore = some f → snapshot.syncedAt < f := by
      rw [← closedRetires_iff hbind]
      exact Bool.eq_false_iff.1 hkept
    push Not at hnot
    exact hnot
  · rename_i hretires
    have hretires : closedRetires held message.request := by simpa using hretires
    refine safe_dropRow hw₁ (fun f last => lt_of_closedRetires hretires)
      (fun u error hu v hv _ => hserves.beside u v hu hv) fun w₂ hw₂ => ?_
    refine safe_forget hw₂ fun w₃ hw₃ => fun u hu _ => hclosed.beside w₃ u ⟨hw₃.1, ?_⟩ hu
    intro snapshot hsnapshot
    unfold ReopenWorld.held at hsnapshot
    rw [hw₃.2] at hsnapshot
    cases hsnapshot

/-! ### Their ends -/

/-- A handler over leaves the object idle and agreeing. -/
theorem Serves.idle {serving : Serving} (hw : Serves key serving w) (hinv : ReopenInv key w) :
    ReopenInv key { w with serving := none } where
  carried := by
    obtain ⟨htold, hfence, hread, hgiven, hpast, -⟩ := hinv.carried
    exact ⟨htold, hfence, hread, hgiven, hpast, nofun⟩
  stamped := hinv.stamped
  spared := hinv.spared
  agrees _ := ⟨hw.agrees.row, hw.agrees.stamped, hw.agrees.bare, hw.agrees.gone⟩

/-- **A close delivered is still to come for no snapshot it left.** -/
theorem Closed.deliver {message : CloseMessage} (hw : Closed key message w)
    (hinv : ReopenInv key w) :
    ReopenInv key { w with
      serving := none
      inflight := w.inflight.erase message
      delivered := w.delivered ++ message.rows } where
  carried := by
    have hmem : message ∈ w.messages := hinv.carried.served message hw.serves.serving
    refine ⟨fun retirement htold hkey => ?_, hinv.carried.fence, hinv.carried.read,
      hinv.carried.given, fun retirement hdelivered => ?_, nofun⟩
    · rcases hinv.carried.told retirement htold hkey with hpast | ⟨other, hother, hrow⟩
      · exact .inl (List.mem_append_left _ hpast)
      · by_cases heq : other = message
        · exact .inl (List.mem_append_right _ (heq ▸ hrow))
        · exact .inr ⟨other, (List.mem_erase_of_ne heq).2 hother, hrow⟩
    · rcases List.mem_append.1 hdelivered with hold | hnew
      · exact hinv.carried.past retirement hold
      · exact hinv.carried.given message hmem retirement hnew
  stamped := hinv.stamped
  spared := hinv.spared
  agrees _ := by
    have hmem : message ∈ w.messages := hinv.carried.served message hw.serves.serving
    obtain ⟨hrow, hstamped, hbare, hgone⟩ := hw.serves.agrees
    refine ⟨hrow, hstamped, hbare, fun snapshot hsnapshot hnone => ?_⟩
    obtain ⟨retirement, hqueued, hkey, ⟨g, hfence, hlt⟩, hnot⟩ := hgone snapshot hsnapshot hnone
    obtain ⟨f, hf, hle⟩ := hw.answered snapshot hsnapshot
    refine ⟨retirement, hqueued, hkey, ⟨g, hfence, hlt⟩, fun hdelivered => ?_⟩
    rcases List.mem_append.1 hdelivered with hold | hnew
    · exact hnot hold
    · -- its rows are under its own fence, which the snapshot has reached
      have hown := hinv.carried.fence message hmem retirement hnew
      rw [hfence, hf, Option.some.injEq] at hown
      omega

/-- Nothing else relies on the object. -/
theorem ReopenInv.keeps (h : ReopenInv object.key w') :
    (reopenOutline object).Keeps none w w' := by
  refine ⟨h, fun j hj => ?_⟩
  cases j with
  | none => exact absurd rfl hj
  | some _ => trivial

/-- A sync hands over what it leaves. -/
theorem Serves.handover_sync {r : Except HandlerError HandlerAnswer}
    (hw : Serves object.key .sync w) (hinv : ReopenInv object.key w) :
    (reopenOutline object).handover none r w := by
  rintro w' (rfl | ⟨message, answer, hserving, -, -⟩)
  · exact (hw.idle hinv).keeps
  · rw [hw.serving] at hserving
    cases hserving

/-- A close that failed is still to be delivered. -/
theorem Serves.handover_error {message : CloseMessage} {error : HandlerError}
    (hw : Serves object.key (.closed message) w) (hinv : ReopenInv object.key w) :
    (reopenOutline object).handover none (.error error) w := by
  rintro w' (rfl | ⟨other, answer, -, hok, -⟩)
  · exact (hw.idle hinv).keeps
  · cases hok

/-- A close that succeeded is delivered, or is to be once more. -/
theorem Closed.handover {message : CloseMessage} {r : Except HandlerError HandlerAnswer}
    (hw : Closed object.key message w) (hinv : ReopenInv object.key w) :
    (reopenOutline object).handover none r w := by
  rintro w' (rfl | ⟨other, answer, hserving, -, rfl⟩)
  · exact (hw.serves.idle hinv).keeps
  · rw [hw.serves.serving, Option.some.injEq, Serving.closed.injEq] at hserving
    exact hserving ▸ (hw.deliver hinv).keeps

/-- **The outline of the reopened pull request holds.** -/
theorem reopenOutline_valid (object : PullRequestObject) : (reopenOutline object).Valid where
  init w hw := by
    obtain ⟨hqueued, -, htold, -, hreads, hrow, hobject, hidle, -, hmessages, -, hdelivered,
      hspared⟩ := hw
    have hheld : w.held = default := by unfold ReopenWorld.held; rw [hobject]; rfl
    have hbare : ∀ snapshot, w.held.snapshot ≠ some snapshot := by
      rw [hheld]
      exact fun _ h => Option.some_ne_none _ h.symm
    refine ⟨⟨?_, ?_, ?_, ?_, ?_, ?_⟩, ?_, hspared, fun _ => ⟨?_, ?_, fun _ => hheld, ?_⟩⟩
    · intro retirement hmem
      simp [OutboxWorld.Told, htold] at hmem
    · simp [hmessages]
    · simp [hreads]
    · simp [hmessages]
    · simp [hdelivered]
    · simp [hidle]
    · simp [hrow]
    · simp [hrow]
    · exact fun snapshot hsnapshot => absurd hsnapshot (hbare snapshot)
    · exact fun snapshot hsnapshot => absurd hsnapshot (hbare snapshot)
  env w w' hw henv := by
    obtain ⟨store', hsame, hrow, rfl⟩ := henv
    have hbeside : Beside object.key w (w.withStore store') := beside_withStore hrow
    refine ⟨hw.of_beside hbeside (hw.carried.withStore hsame) hw.spared, fun i => ?_⟩
    -- what the sweeps or other keys' writers do, the object runs beside
    cases i with
    | none => exact hbeside
    | some _ => trivial
  start i handler w w' hw hstart := by
    cases i with
    | none =>
      obtain ⟨hidle, ⟨request, hkey, rfl, rfl⟩ | ⟨message, hmem, rfl, rfl⟩⟩ := hstart
      · have hagrees := hw.agrees hidle
        obtain ⟨htold, hfence, hread, hgiven, hpast, -⟩ := hw.carried
        have hserves : Serves object.key .sync { w with serving := some .sync } :=
          ⟨rfl, hagrees.row, hagrees.stamped, hagrees.bare, hagrees.gone⟩
        have hserved : ∀ message, some Serving.sync = some (.closed message) →
            message ∈ w.messages := by rintro _ ⟨⟩
        refine ⟨ReopenInv.keeps ⟨⟨htold, hfence, hread, hgiven, hpast, hserved⟩, hw.stamped,
          hw.spared, fun hnone => absurd hnone (Option.some_ne_none _)⟩, ?_⟩
        -- the sync starts on a row that agrees with the state, and hands over what it leaves
        rw [Invocation.handler_sync]
        refine .bind ((safe_runSync hkey hserves).mono fun r u hinv hu => ?_)
        cases r with
        | ok outcome => exact fun v hv hinv => ((Serves.assertion _ _).beside u v hu hv).handover_sync hinv
        | error error => exact hu.handover_sync hinv
      · have hagrees := hw.agrees hidle
        obtain ⟨htold, hfence, hread, hgiven, hpast, -⟩ := hw.carried
        have hserves : Serves object.key (.closed message)
            { w with serving := some (.closed message) } :=
          ⟨rfl, hagrees.row, hagrees.stamped, hagrees.bare, hagrees.gone⟩
        have hserved : ∀ other, some (Serving.closed message) = some (.closed other) →
            other ∈ w.messages := by
          rintro other ⟨⟩
          exact hmem
        refine ⟨ReopenInv.keeps ⟨⟨htold, hfence, hread, hgiven, hpast, hserved⟩, hw.stamped,
          hw.spared, fun hnone => absurd hnone (Option.some_ne_none _)⟩, ?_⟩
        have hparse := PrKey.parse_toString object.valid
        rw [Invocation.handler_closed]
        -- only that the text parses to the key matters from here on
        generalize toString object.key = text at hparse ⊢
        refine .bind ((safe_runClosed hparse hserves).mono fun r u hinv hu => ?_)
        cases r with
        | ok outcome =>
          exact fun v hv hinv => ((Closed.assertion _ _).beside u v hu hv).handover hinv
        | error error => exact hu.handover_error hinv
    | some slot =>
      obtain ⟨⟨addressed, rfl⟩, rfl⟩ := hstart
      -- a sweep reads and prunes the store, never the object's state
      have hkeeps : ∀ u v, ReopenInv object.key v ∧ Beside object.key u v →
          (reopenOutline object).Keeps (some slot) u v := by
        rintro u v ⟨hinv, hbeside⟩
        refine ⟨hinv, fun j _ => ?_⟩
        cases j with
        | none => exact hbeside
        | some _ => trivial
      have hsafe : (reopenOutline object).Safe (some slot) (runRepoReconcile addressed)
          (fun _ _ => True) w' := by
        refine Outline.Safe.of_calls (fun _ _ => trivial) (fun _ _ _ => trivial) ?_ ?_ _ w'
        · rintro call u answer v hinv ⟨hcall, outbox', hsem, rfl⟩
          exact hkeeps _ _ (hinv.sweep slot hcall hsem)
        · rintro call u v hinv ⟨hcall, outbox', hlose, rfl⟩
          exact ⟨hkeeps _ _ (hinv.sweep_lost slot hcall hlose), trivial⟩
      refine ⟨hkeeps w' w' ⟨hw, .refl _ _⟩, hsafe.mono ?_⟩
      rintro r u hinv - u' rfl
      exact hkeeps _ _ ⟨hinv, .refl _ _⟩

/-- No handler runs in an idle object. -/
theorem serving_of_idle {s : System.State reopenEffects HandlerError ReopenAnswer ReopenWorld}
    (hs : (reopenSystem object).Reach s) : s.slots none = none → s.world.serving = none := by
  have hswept : ∀ (u : ReopenWorld) slot call outbox',
      (u.swept object.key slot call outbox').serving = u.serving := by
    intro u slot call outbox'
    unfold ReopenWorld.swept
    split
    · split <;> rfl
    · rfl
    · rfl
  -- only the object's own start and end touch `serving`
  induction hs with
  | init hw =>
    obtain ⟨-, -, -, -, -, -, -, hserving, -⟩ := hw
    exact fun _ => hserving
  | step _ hst ih =>
    cases hst with
    | @start i handler w' hslot hstart =>
      cases i with
      | none => intro hidle; simp at hidle
      | some slot => obtain ⟨-, rfl⟩ := hstart; exact ih
    | @answer i call k answer w' hslot hsem =>
      cases i with
      | none => intro hidle; simp at hidle
      | some slot =>
        obtain ⟨-, outbox', -, rfl⟩ := hsem
        rw [hswept]
        exact ih
    | @lose i call k w' hslot hlose =>
      cases i with
      | none => exact hlose.elim
      | some slot =>
        obtain ⟨-, outbox', -, rfl⟩ := hlose
        rw [hswept]
        exact ih
    | @done i a w' hslot hfinish =>
      cases i with
      | none => rcases hfinish with rfl | ⟨_, _, -, -, rfl⟩ <;> exact fun _ => rfl
      | some slot => obtain rfl := hfinish; exact ih
    | @fail i e w' hslot hfinish =>
      cases i with
      | none => rcases hfinish with rfl | ⟨_, _, -, -, rfl⟩ <;> exact fun _ => rfl
      | some slot => obtain rfl := hfinish; exact ih
    | @env w' henv => obtain ⟨store', -, -, rfl⟩ := henv; exact ih

/-- **Late closes and concurrent sweeps never cost a reopened pull
request.** No prune and no close takes the row or the state of a pull
request last synced at or after its fence; and an idle object that holds a
snapshot holds its row, unless its key is pending in the outbox or a close
for it is in flight. -/
theorem reopened_spared {s : System.State reopenEffects HandlerError ReopenAnswer ReopenWorld}
    (hs : (reopenSystem object).Reach s) :
    s.world.wronged = [] ∧
      (s.slots none = none → ∀ state snapshot, s.world.object = some state →
        state.snapshot = some snapshot →
          s.world.row object.key = some snapshot ∨
            (∃ retirement ∈ s.world.outbox.pending, retirement.key = object.key) ∨
            ∃ message ∈ s.world.inflight, ∃ retirement ∈ message.rows,
              retirement.key = object.key) := by
  have hinv : ReopenInv object.key s.world := ((reopenOutline_valid object).reach hs).inv
  have hlossless := reopen_lossless hs
  refine ⟨hinv.spared, fun hidle state snapshot hobject hsnapshot => ?_⟩
  have hagrees := hinv.agrees (serving_of_idle hs hidle)
  have hheld : s.world.held.snapshot = some snapshot := by
    unfold ReopenWorld.held
    rw [hobject]
    exact hsnapshot
  cases hrow : s.world.row object.key with
  | some row => exact .inl (by rw [← hagrees.row row hrow, hheld])
  | none =>
    obtain ⟨retirement, hqueued, hkey, -, hnot⟩ := hagrees.gone snapshot hheld hrow
    rcases hlossless.kept () retirement hqueued with hpending | htold
    · exact .inr (.inl ⟨retirement, hpending, hkey⟩)
    · rcases hinv.carried.told retirement htold hkey with hpast | ⟨message, hmem, hmine⟩
      · exact absurd hpast hnot
      · exact .inr (.inr ⟨message, hmem, retirement, hmine, hkey⟩)

end Handlers

/-! ## A row swept between two syncs

The pull request is synced at 30; a listing fenced at 40 no longer shows it
and its row goes. The object holds the snapshot still, and the close for it
is pending. -/

/-- The world before, the repository in the table. -/
def sampleUnsynced : ReopenWorld :=
  ⟨⟨Store.empty.writeRepository sampleRepo, [], [], fun _ => [], [], []⟩,
    none, none, none, [], [], [], []⟩

/-- The world once the pull request is synced. -/
def sampleSynced : ReopenWorld :=
  { sampleUnsynced with
    outbox := { sampleUnsynced.outbox with store := sampleStore 30 }
    object := some ((default : PrState).synced sampleSync (sampleRow 30))
    lastSync := some 30 }

/-- The store once its row is swept. -/
def sampleSweptStore : Store :=
  ((sampleStore 30).deletePullRequests fun row =>
    row.repositoryId = 1 ∧ row.syncedAt < 40 ∧ row.number ∉ []).insertRetirements [⟨1, 1⟩] (some 40)

/-- The world once its row is swept. -/
def sampleSwept : ReopenWorld :=
  sampleSynced.swept ⟨1, 1⟩ 0 (.prune (.retainPrs 1 [] 40))
    (sampleSynced.outbox.prune () (.retainPrs 1 [] 40) [⟨1, 1⟩] sampleSweptStore)

theorem sampleSwept_reach : ∃ slots, (reopenSystem sampleObject).Reach ⟨sampleSwept, slots⟩ ∧
    slots none = none := by
  have h₀ : (reopenSystem sampleObject).Reach ⟨sampleUnsynced, fun _ => none⟩ :=
    .init ⟨rfl, rfl, rfl, rfl, fun _ => rfl, rfl, rfl, rfl, rfl, rfl, rfl, rfl, rfl⟩
  have h₁ := h₀.start none ((Invocation.sync sampleSync).handler sampleObject) rfl
    ⟨rfl, .inl ⟨sampleSync, rfl, rfl, rfl⟩⟩
  have h₂ := h₁.answer none (.now "sync-clock") (.ok 30) rfl rfl
  have h₃ := h₂.answer none .state (.ok none) rfl ⟨rfl, .inr rfl⟩
  have h₄ := h₃.answer none (.setState default) () rfl rfl
  have h₅ := h₄.answer none (.fetchSnapshot sampleSync false) (.ok (.ok (some (sampleRow 30)))) rfl
    ⟨rfl, fun snapshot h => by cases h; exact ⟨rfl, rfl⟩⟩
  have h₆ := h₅.answer none (.upsertProjection (sampleRow 30)) (.ok ()) rfl
    (.inr ⟨sampleStore 30, rfl, rfl, rfl⟩)
  have h₇ := h₆.answer none (.setState ((default : PrState).synced sampleSync (sampleRow 30))) ()
    rfl rfl
  have h₈ := h₇.done none rfl (.inl rfl)
  have h₉ := h₈.start (some 0) (runRepoReconcile ⟨1, "acme", "api"⟩) rfl ⟨⟨_, rfl⟩, rfl⟩
  have h₁₀ := h₉.answer (some 0) (.now "repo-reconcile-clock") (.ok 40) rfl
    ⟨trivial, _, rfl, rfl⟩
  have h₁₁ := h₁₀.answer (some 0) (.listPullRequests ⟨1, "acme", "api"⟩) (.ok []) rfl
    ⟨trivial, _, rfl, rfl⟩
  have h₁₂ := h₁₁.answer (some 0) (.prune (.retainPrs 1 [] 40)) (.ok {}) rfl
    ⟨trivial, _, .inr ⟨[⟨1, 1⟩], sampleSweptStore, rfl, rfl, rfl⟩, rfl⟩
  exact ⟨_, h₁₂, rfl⟩

/-- The object holds its snapshot without a row, its key pending. -/
theorem reopened_spared_sample :
    sampleSwept.wronged = [] ∧ sampleSwept.held.snapshot = some (sampleRow 30) ∧
      (sampleSwept.row ⟨1, 1⟩ = some (sampleRow 30) ∨
        (∃ retirement ∈ sampleSwept.outbox.pending, retirement.key = ⟨1, 1⟩) ∨
        ∃ message ∈ sampleSwept.inflight, ∃ retirement ∈ message.rows,
          retirement.key = ⟨1, 1⟩) := by
  obtain ⟨slots, hreach, hidle⟩ := sampleSwept_reach
  obtain ⟨hspared, hholds⟩ := reopened_spared hreach
  exact ⟨hspared, rfl, hholds hidle _ (sampleRow 30) rfl rfl⟩

end Dependaboard
