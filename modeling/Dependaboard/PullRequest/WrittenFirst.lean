import Dependaboard.PullRequest.Awaited
/-!
# The pull request — the row written before the completion

The object's handlers beside a page that polls. A snapshot read is as new as
any written, for nothing else writes while a handler holds the object; and a
sync writes it under its completion id before it records the id
(`SafeHandler.runSync`). The other handlers record no completion.
-/

namespace Dependaboard

open Durable Ui AwaitedWorld

section

variable {object : PullRequestObject} {installationId : ℕ} {u v w : AwaitedWorld}

/-! ## The object's handlers -/

/-- The handler called with `invocation` holds the object, whose state is
`held`. -/
structure HeldBy (held : Option PrState) (invocation : Invocation) (w : AwaitedWorld) : Prop where
  holds : w.object = held
  serving : w.serving = some invocation

/-- A snapshot has been read, as new as any written. -/
structure ReadFresh (held : Option PrState) (invocation : Invocation) (snapshot : PrRecord)
    (w : AwaitedWorld) : Prop where
  heldBy : HeldBy held invocation w
  fetched : w.fetched = some snapshot.syncedAt
  newest : ∀ write ∈ w.written, write.syncedAt ≤ snapshot.syncedAt
  clock : snapshot.syncedAt ≤ w.clock

/-- A snapshot has been written under the handler's completion id. -/
structure WroteUnder (held : Option PrState) (invocation : Invocation) (w : AwaitedWorld) :
    Prop where
  heldBy : HeldBy held invocation w
  wrote : ∀ completionId, invocation.completionId = some completionId →
    (w.firstWrite completionId).isSome

variable {held : Option PrState} {invocation : Invocation} {snapshot : PrRecord}

theorem HeldBy.stable (h : HeldBy held invocation u) (hrely : ObjectRely u v) :
    HeldBy held invocation v :=
  ⟨hrely.object.trans h.holds, hrely.serving.trans h.serving⟩

theorem ReadFresh.stable (h : ReadFresh held invocation snapshot u) (hrely : ObjectRely u v) :
    ReadFresh held invocation snapshot v where
  heldBy := h.heldBy.stable hrely
  fetched := hrely.fetched.trans h.fetched
  newest write hwrite := by
    rcases hrely.own write hwrite with hold | hown
    · exact h.newest write hold
    · exact Nat.le_of_eq (Option.some.inj (hown.trans h.fetched))
  clock := h.clock.trans hrely.clock

theorem WroteUnder.stable (h : WroteUnder held invocation u) (hrely : ObjectRely u v) :
    WroteUnder held invocation v :=
  ⟨h.heldBy.stable hrely, fun completionId hid =>
    isSome_firstWrite_mono (h.wrote completionId hid) hrely.kept⟩

/-- A program the object's handler may run, wherever it ends. -/
abbrev SafeHandler {α : Type} (object : PullRequestObject) (installationId : ℕ)
    (p : PullRequestM α) (w : AwaitedWorld) : Prop :=
  (awaitedOutline object installationId).Safe .object p (fun _ u => AwaitedInv object.key u) w

/-- A completion remembered adds itself. -/
theorem PrState.mem_completeSync {state : PrState} {completionId id : String}
    (h : id ∈ (state.completeSync completionId).completedSyncIds) :
    id = completionId ∨ id ∈ state.completedSyncIds := by
  unfold PrState.completeSync keepLast at h
  have hmem := List.mem_of_mem_drop h
  split at hmem
  · exact .inr hmem
  · simpa [or_comm] using hmem

/-- What a sync records is its own completion, and what was recorded. -/
theorem PrState.mem_synced {state : PrState} {request : SyncRequest} {id : String}
    (h : id ∈ (state.synced request snapshot).completedSyncIds) :
    request.completionId = some id ∨ id ∈ state.completedSyncIds := by
  unfold PrState.synced at h
  cases hrequest : request.completionId with
  | none =>
    rw [hrequest] at h
    exact .inr h
  | some completionId =>
    rw [hrequest] at h
    rcases mem_completeSync h with rfl | hold
    · exact .inl rfl
    · exact .inr hold

namespace SafeHandler

variable {α : Type}

theorem done (a : α) (w : AwaitedWorld) :
    SafeHandler object installationId (.done a : PullRequestM α) w :=
  fun _ _ hinv => hinv

theorem fail (error : HandlerError) (w : AwaitedWorld) :
    SafeHandler object installationId (.fail error : PullRequestM α) w :=
  fun _ _ hinv => hinv

/-- **The rule of a handler's call**, from one assertion to another. -/
theorem ask {call : PullRequestCall} {k : call.Answer → PullRequestM α}
    {P : AwaitedWorld → Prop} {Q : call.Answer → AwaitedWorld → Prop} (hP : P w)
    (hstable : ∀ u v, P u → ObjectRely u v → P v)
    (hstep : ∀ u answer v, P u → AwaitedInv object.key u → objectCallSem object.key call u answer v →
      AwaitedInv object.key v ∧ PageRely u v ∧ Q answer v)
    (hlost : ∀ u v, P u → AwaitedInv object.key u → objectCallLost object.key call u v →
      AwaitedInv object.key v ∧ PageRely u v ∧ ObjectRely u v)
    (hk : ∀ answer v, Q answer v → SafeHandler object installationId (k answer) v) :
    SafeHandler object installationId (Prog.ask (S := PullRequestEffects) call k) w := by
  have hothers {u v : AwaitedWorld} (hv : AwaitedInv object.key v) (hpage : PageRely u v) :
      (awaitedOutline object installationId).Keeps .object u v := by
    refine ⟨hv, ?_⟩
    rintro (_ | _) hother
    · exact absurd rfl hother
    · exact hpage
  intro u hu hinv
  have hPu : P u := hstable w u hP hu
  refine ⟨trivial, fun answer v hsem => ?_, fun v hlose => ?_⟩
  · obtain ⟨hv, hpage, hQ⟩ := hstep u answer v hPu hinv hsem
    exact ⟨hothers hv hpage, hk answer v hQ⟩
  · obtain ⟨hv, hpage, hself⟩ := hlost u v hPu hinv hlose
    exact ⟨hothers hv hpage, hself⟩

/-- A call nobody sees. -/
theorem quiet {β : Type} (call : PullRequestCall) (answered : call.Answer → Except HandlerError β)
    {f : β → PullRequestM α}
    (hquiet : ∀ u answer v, objectCallSem object.key call u answer v → v = u)
    (hlost : ∀ u v, ¬objectCallLost object.key call u v) (hw : HeldBy held invocation w)
    (hk : ∀ result v, HeldBy held invocation v → SafeHandler object installationId (f result) v) :
    SafeHandler object installationId
      ((Prog.ask (S := PullRequestEffects) call fun answer => Prog.ofExcept (answered answer)).bind
        f) w := by
  refine ask (P := HeldBy held invocation) (Q := fun _ => HeldBy held invocation) hw
    (fun _ _ => HeldBy.stable) (fun u answer v hu hinv hsem => ?_)
    (fun u v _ _ h => absurd h (hlost u v)) fun answer v hv => ?_
  · obtain rfl := hquiet u answer v hsem
    exact ⟨hinv, .refl _, hu⟩
  · show SafeHandler object installationId ((Prog.ofExcept (answered answer)).bind f) v
    cases answered answer with
    | error error => exact fail error v
    | ok result => exact hk result v hv

/-- The object's own state, read. -/
theorem state {f : Option PrState → PullRequestM α} (hw : HeldBy held invocation w)
    (hk : ∀ v, HeldBy held invocation v → SafeHandler object installationId (f held) v) :
    SafeHandler object installationId (PullRequestM.state.bind f) w := by
  refine ask (P := HeldBy held invocation)
    (Q := fun answer v => ((∃ error, answer = .error error) ∨ answer = .ok held) ∧
      HeldBy held invocation v) hw (fun _ _ => HeldBy.stable) ?_ (fun _ _ _ _ h => h.elim) ?_
  · rintro u answer v hu hinv ⟨rfl, hanswer⟩
    exact ⟨hinv, .refl _, hu.holds ▸ hanswer, hu⟩
  · rintro answer v ⟨⟨error, rfl⟩ | rfl, hv⟩
    · exact fail error v
    · exact hk v hv

/-- A state written with no completion that was not recorded. -/
theorem setState {state : PrState} {f : Unit → PullRequestM α}
    {P : AwaitedWorld → Prop} (hP : P w) (hstable : ∀ u v, P u → ObjectRely u v → P v)
    (hheld : ∀ u, P u → HeldBy held invocation u)
    (hrecorded : ∀ u, P u → AwaitedInv object.key u →
      ∀ completionId ∈ state.completedSyncIds, (u.firstWrite completionId).isSome)
    (hk : ∀ v, HeldBy (some state) invocation v → SafeHandler object installationId (f ()) v) :
    SafeHandler object installationId ((PullRequestM.setState state).bind f) w := by
  refine ask (P := P) (Q := fun _ => HeldBy (some state) invocation) hP hstable ?_
    (fun _ _ _ _ h => h.elim) fun _ => hk
  rintro u answer v hu hinv rfl
  exact ⟨hinv.setObject (some state) (hrecorded u hu hinv), ⟨rfl, rfl, List.prefix_rfl, List.prefix_rfl⟩,
    rfl, (hheld u hu).serving⟩

/-- A state written with the completions it had. -/
theorem setState_of_subset {state : PrState} {f : Unit → PullRequestM α}
    (hw : HeldBy held invocation w)
    (hids : state.completedSyncIds ⊆ (held.getD default).completedSyncIds)
    (hk : ∀ v, HeldBy (some state) invocation v → SafeHandler object installationId (f ()) v) :
    SafeHandler object installationId ((PullRequestM.setState state).bind f) w := by
  refine setState hw (fun _ _ => HeldBy.stable) (fun _ => id) (fun u hu hinv id hid => ?_) hk
  refine hinv.recorded id ?_
  rw [AwaitedWorld.held, hu.holds]
  exact hids hid

theorem clearState {f : Unit → PullRequestM α} (hw : HeldBy held invocation w)
    (hk : ∀ v, HeldBy none invocation v → SafeHandler object installationId (f ()) v) :
    SafeHandler object installationId (PullRequestM.clearState.bind f) w := by
  refine ask (P := HeldBy held invocation) (Q := fun _ => HeldBy none invocation) hw
    (fun _ _ => HeldBy.stable) ?_ (fun _ _ _ _ h => h.elim) fun _ => hk
  rintro u answer v hu hinv rfl
  exact ⟨hinv.setObject none fun _ h => absurd h List.not_mem_nil,
    ⟨rfl, rfl, List.prefix_rfl, List.prefix_rfl⟩, rfl, hu.serving⟩

theorem deleteProjection {step : String} {other : PrKey} {f : Unit → PullRequestM α}
    (hw : HeldBy held invocation w)
    (hk : ∀ v, HeldBy held invocation v → SafeHandler object installationId (f ()) v) :
    SafeHandler object installationId ((PullRequestM.deleteProjection step other).bind f) w := by
  refine ask (P := HeldBy held invocation) (Q := fun _ => HeldBy held invocation) hw
    (fun _ _ => HeldBy.stable) ?_ ?_ fun answer v hv => ?_
  · rintro u answer v hu hinv (⟨error, rfl, rfl⟩ | ⟨rfl, rfl⟩)
    · exact ⟨hinv, .refl _, hu⟩
    · exact ⟨hinv.deletePr other, ⟨rfl, rfl, List.prefix_rfl, List.prefix_append _ _⟩,
        hu.holds, hu.serving⟩
  · rintro u v hu hinv rfl
    exact ⟨hinv.deletePr other, ⟨rfl, rfl, List.prefix_rfl, List.prefix_append _ _⟩,
      ⟨rfl, rfl, rfl, Nat.le_refl _, List.prefix_rfl, fun _ => .inl⟩⟩
  · cases answer with
    | error error => exact fail error v
    | ok _ => exact hk v hv

/-- **A snapshot read is as new as any written**: GitHub was read after. -/
theorem fetchSnapshot {request : SyncRequest} {known : Bool}
    {f : Settled (Option PrRecord) → PullRequestM α} (hw : HeldBy held invocation w)
    (hk : ∀ fetched v, HeldBy held invocation v →
      (∀ snapshot, fetched = .ok (some snapshot) →
        SnapshotOf request snapshot ∧ ReadFresh held invocation snapshot v) →
      SafeHandler object installationId (f fetched) v) :
    SafeHandler object installationId ((PullRequestM.fetchSnapshot request known).bind f) w := by
  refine ask (P := HeldBy held invocation)
    (Q := fun answer v => HeldBy held invocation v ∧ ∀ snapshot, answer = .ok (.ok (some snapshot)) →
      SnapshotOf request snapshot ∧ ReadFresh held invocation snapshot v) hw
    (fun _ _ => HeldBy.stable) ?_ (fun _ _ _ _ h => h.elim) ?_
  · rintro u answer v hu hinv ⟨⟨n, fetched, rfl⟩, hsnapshot⟩
    have hv : HeldBy held invocation { u.wait n with fetched := fetched } := ⟨hu.holds, hu.serving⟩
    refine ⟨?_, ⟨rfl, rfl, List.prefix_rfl, List.prefix_rfl⟩, hv, fun snapshot hanswer => ?_⟩
    · obtain ⟨hstamped, hnewest, hrecorded, hpresent, htold⟩ := hinv.wait n
      refine ⟨hstamped, hnewest, hrecorded, hpresent, fun row hrow => ?_⟩
      obtain ⟨completionId, hid, htold⟩ := htold row hrow
      exact ⟨completionId, hid, htold.mono List.prefix_rfl List.prefix_rfl⟩
    · obtain ⟨hof, hafter, hbefore, hfetched⟩ := hsnapshot snapshot hanswer
      exact ⟨hof, hv, hfetched, fun write hwrite => (hinv.stamped write hwrite).trans hafter, hbefore⟩
  · rintro (error | fetched) v ⟨hv, hsnapshot⟩
    · exact fail error v
    · exact hk fetched v hv fun snapshot h => hsnapshot snapshot (congrArg Except.ok h)

/-- **The row is written under the completion id** before it is recorded. -/
theorem upsertProjection {f : Unit → PullRequestM α}
    (hw : ReadFresh held invocation snapshot w) (hkey : snapshot.key = object.key)
    (hid : snapshot.id = toString snapshot.key)
    (hk : ∀ v, WroteUnder held invocation v → SafeHandler object installationId (f ()) v) :
    SafeHandler object installationId ((PullRequestM.upsertProjection snapshot).bind f) w := by
  have hwrite {u : AwaitedWorld} {store' : Store} (hu : ReadFresh held invocation snapshot u)
      (hinv : AwaitedInv object.key u) (hupsert : u.store.upsertPr snapshot = .ok store') :
      AwaitedInv object.key (u.write object.key snapshot store') ∧
        PageRely u (u.write object.key snapshot store') :=
    ⟨hinv.write (hkey ▸ Store.row?_upsertPr hupsert hid) hu.clock hu.newest,
      rfl, rfl, List.prefix_append _ _, List.prefix_append _ _⟩
  refine ask (P := ReadFresh held invocation snapshot)
    (Q := fun answer v => (∃ error, answer = .error error) ∨ answer = .ok () ∧
      WroteUnder held invocation v) hw (fun _ _ => ReadFresh.stable) ?_ ?_ ?_
  · rintro u answer v hu hinv (⟨error, rfl, rfl⟩ | ⟨store', hupsert, rfl, rfl⟩)
    · exact ⟨hinv, .refl _, .inl ⟨error, rfl⟩⟩
    · obtain ⟨hv, hpage⟩ := hwrite hu hinv hupsert
      refine ⟨hv, hpage, .inr ⟨rfl, ⟨hu.heldBy.holds, hu.heldBy.serving⟩, fun id hid => ?_⟩⟩
      rw [firstWrite, Option.isSome_map, List.find?_isSome]
      refine ⟨_, List.mem_append_right _ (List.mem_singleton_self _), ?_⟩
      rw [hu.heldBy.serving, Option.bind_some, hid]
      exact decide_eq_true rfl
  · rintro u v hu hinv ⟨store', hupsert, rfl⟩
    obtain ⟨hv, hpage⟩ := hwrite hu hinv hupsert
    refine ⟨hv, hpage, ⟨rfl, rfl, rfl, Nat.le_refl _, List.prefix_append _ _, ?_⟩⟩
    intro write hmem
    rcases List.mem_append.1 hmem with hold | hnew
    · exact .inl hold
    · obtain rfl := List.mem_singleton.1 hnew
      exact .inr hu.fetched.symm
  · rintro answer v (⟨error, rfl⟩ | ⟨rfl, hv⟩)
    · exact fail error v
    · exact hk v hv

/-- A clock reading. -/
theorem now {step : String} {f : ℕ → PullRequestM α} (hw : HeldBy held invocation w)
    (hk : ∀ now v, HeldBy held invocation v → SafeHandler object installationId (f now) v) :
    SafeHandler object installationId ((PullRequestM.now step).bind f) w :=
  quiet (.now step) id (fun _ _ _ h => h.1) (fun _ _ h => h) hw hk

/-- A sync sent is nothing to the object until it is delivered. -/
theorem scheduleSync {other : PrKey} {request : SyncRequest} {after : Option ℕ}
    {f : Unit → PullRequestM α} (hw : HeldBy held invocation w)
    (hk : ∀ v, HeldBy held invocation v → SafeHandler object installationId (f ()) v) :
    SafeHandler object installationId
      ((PullRequestM.scheduleSync other request after).bind f) w :=
  quiet (.scheduleSync other request after) Except.ok (fun _ _ _ h => h) (fun _ _ h => h) hw
    fun _ => hk

/-! ### Each handler -/

/-- **A sync writes under its id, then records it.** -/
theorem runSync {request : SyncRequest} (hkey : requestKey request = object.key) (debounce : ℕ)
    (hw : HeldBy held (.sync request) w) :
    SafeHandler object installationId (Dependaboard.runSync request debounce) w := by
  unfold Dependaboard.runSync
  simp only [Prog.bind_eq]
  refine now hw fun now u hu => state hu fun u hu => ?_
  split
  · -- coalesced behind another sync
    split
    · refine setState_of_subset hu (List.Subset.refl _) fun u hu => ?_
      exact scheduleSync hu fun u _ => done _ u
    · exact done _ u
  · refine setState_of_subset hu (List.Subset.refl _) fun u hu => ?_
    refine fetchSnapshot hu fun fetched u hu hfetched => ?_
    cases heligible : eligibleSnapshot fetched with
    | error error => exact fail error u
    | ok snapshot =>
      cases snapshot with
      | none => exact deleteProjection hu fun u hu => clearState hu fun u _ => done _ u
      | some snapshot =>
        obtain ⟨⟨hsame, hid⟩, hfresh⟩ := hfetched snapshot (eligibleSnapshot_some heligible)
        refine upsertProjection hfresh (hsame.trans hkey) hid fun u hu => ?_
        refine setState hu (fun _ _ => WroteUnder.stable) (fun _ h => h.heldBy) ?_
          fun u _ => done _ u
        intro v hv hinv id hid
        rcases PrState.mem_synced hid with hown | hold
        · exact hv.wrote id hown
        · refine hinv.recorded id ?_
          rw [AwaitedWorld.held, hv.heldBy.holds]
          exact hold

theorem runClosed {text : String} {request : ClosedRequest} (hw : HeldBy held invocation w) :
    SafeHandler object installationId (Dependaboard.runClosed text request) w := by
  unfold Dependaboard.runClosed
  simp only [Prog.bind_eq]
  cases (PrKey.parse text).mapError HandlerError.terminal with
  | error error => exact fail error w
  | ok key =>
    refine state hw fun u hu => ?_
    split
    · exact done _ u
    · exact deleteProjection hu fun u hu => clearState hu fun u _ => done _ u

theorem runMerge {request : MergeRequest} (hw : HeldBy held invocation w) :
    SafeHandler object installationId (Dependaboard.runMerge request) w := by
  unfold Dependaboard.runMerge
  simp only [Prog.bind_eq]
  refine state hw fun u hu => ?_
  split
  · exact done _ u
  · refine quiet (.repositoryMergeMethod _) id (fun _ _ _ h => h) (fun _ _ h => h) hu
      fun mergeMethod u hu => ?_
    refine quiet (.merge _ _) id (fun _ _ _ h => h) (fun _ _ h => h) hu fun result u hu => ?_
    cases mergeResult result with
    | error error => exact fail error u
    | ok outcome =>
      rw [Prog.ofExcept_ok, Prog.done_bind]
      split
      · refine deleteProjection hu fun u hu => now hu fun logAt u hu => ?_
        exact setState_of_subset hu (List.Subset.refl _) fun u _ => done _ u
      · refine now hu fun logAt u hu => ?_
        exact setState_of_subset hu (List.Subset.refl _) fun u _ => done _ u

theorem runCommand {canPostCommands : Bool} {request : CommandRequest}
    (hw : HeldBy held invocation w) :
    SafeHandler object installationId (Dependaboard.runCommand canPostCommands request) w := by
  unfold Dependaboard.runCommand
  simp only [Prog.bind_eq]
  refine state hw fun u hu => ?_
  split
  · exact done _ u
  · refine quiet (.postCommand _) id (fun _ _ _ h => h) (fun _ _ h => h) hu fun result u hu => ?_
    cases actionResult result with
    | error error => exact fail error u
    | ok outcome =>
      refine now hu fun logAt u hu => ?_
      exact setState_of_subset hu (List.Subset.refl _) fun u _ => done _ u

theorem runUpdateBranch {request : UpdateBranchRequest} (hw : HeldBy held invocation w) :
    SafeHandler object installationId (Dependaboard.runUpdateBranch request) w := by
  unfold Dependaboard.runUpdateBranch
  simp only [Prog.bind_eq]
  refine state hw fun u hu => ?_
  split
  · exact done _ u
  · refine quiet (.updateBranch _) id (fun _ _ _ h => h) (fun _ _ h => h) hu fun result u hu => ?_
    cases actionResult result with
    | error error => exact fail error u
    | ok outcome =>
      refine now hu fun logAt u hu => ?_
      refine setState_of_subset hu (List.Subset.refl _) fun u hu => ?_
      split
      · exact scheduleSync hu fun u _ => done _ u
      · exact done _ u

end SafeHandler

/-- A handler may end anywhere. -/
theorem handover_object (r : Except HandlerError HandlerAnswer) (hinv : AwaitedInv object.key w) :
    (awaitedOutline object installationId).handover .object r w := by
  rintro w' rfl
  refine ⟨⟨hinv.stamped, hinv.newest, hinv.recorded, hinv.present, fun row hrow => ?_⟩, ?_⟩
  · obtain ⟨completionId, hid, htold⟩ := hinv.told row hrow
    exact ⟨completionId, hid, htold.mono List.prefix_rfl List.prefix_rfl⟩
  · rintro (_ | _) hother
    · exact absurd rfl hother
    · exact ⟨rfl, rfl, List.prefix_rfl, List.prefix_rfl⟩

/-- **Whatever handler is called, it keeps the outline.** -/
theorem safe_handler {invocation : Invocation} (haddresses : invocation.Addresses object.key)
    (hw : w.serving = some invocation) :
    (awaitedOutline object installationId).Safe .object (invocation.handler object)
      ((awaitedOutline object installationId).handover .object) w := by
  have hheld : HeldBy w.object invocation w := ⟨rfl, hw⟩
  have hends {α : Type} {p : PullRequestM α} {f : α → HandlerAnswer}
      (hp : SafeHandler object installationId p w) :
      (awaitedOutline object installationId).Safe .object (p.bind fun a => .done (f a))
        ((awaitedOutline object installationId).handover .object) w := by
    refine .bind (hp.mono fun r u _ hinv => ?_)
    cases r with
    | ok a => exact fun _ _ hinv => handover_object _ hinv
    | error error => exact handover_object _ hinv
  cases invocation with
  | sync request => exact hends (SafeHandler.runSync haddresses _ hheld)
  | closed request => exact hends (SafeHandler.runClosed hheld)
  | merge request => exact hends (SafeHandler.runMerge hheld)
  | command request => exact hends (SafeHandler.runCommand hheld)
  | updateBranch request => exact hends (SafeHandler.runUpdateBranch hheld)

end

end Dependaboard
