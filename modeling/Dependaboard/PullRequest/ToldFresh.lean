import Dependaboard.PullRequest.WrittenFirst
/-!
# The pull request — what a page that syncs is told

The page polls until the object has recorded its completion id and reads the
row then. The id is recorded only after a snapshot was written under it, and
the row is as new as anything written, so what the page is told is no older
than its own sync: `manual_sync_fresh`.
-/

namespace Dependaboard

open Durable Ui AwaitedWorld

section

variable {object : PullRequestObject} {installationId : ℕ} {u v w : AwaitedWorld}

/-! ## The page -/

/-- The page has been handed `completionId`. -/
def Following (completionId : String) (w : AwaitedWorld) : Prop := w.requested = some completionId

/-- It has found the id recorded. -/
structure FoundRecorded (completionId : String) (w : AwaitedWorld) : Prop where
  following : Following completionId w
  wrote : (w.firstWrite completionId).isSome

variable {completionId : String}

theorem Following.stable (h : Following completionId u) (hrely : PageRely u v) :
    Following completionId v := hrely.requested.trans h

theorem FoundRecorded.stable (h : FoundRecorded completionId u) (hrely : PageRely u v) :
    FoundRecorded completionId v :=
  ⟨h.following.stable hrely, isSome_firstWrite_mono h.wrote hrely.written⟩

/-- A sync the page may follow, as far as it has got. -/
abbrev SafePage (object : PullRequestObject) (installationId : ℕ)
    (sync : SyncM (Option PrRecord)) (w : AwaitedWorld) : Prop :=
  (awaitedOutline object installationId).Safe .page sync.outcome
    ((awaitedOutline object installationId).handover .page) w

/-- A completion found is one the object's state has recorded. -/
theorem mem_of_syncIdCompleted {state : Option PrState} (h : syncIdCompleted state completionId) :
    completionId ∈ (state.getD default).completedSyncIds := by
  cases state with
  | none => cases h
  | some state => simpa [syncIdCompleted] using h

namespace SafePage

/-- A sync may fail anywhere. -/
theorem fail (failure : SyncFailure) (w : AwaitedWorld) :
    SafePage object installationId (.fail failure) w := by
  rintro u - hinv _ ⟨_, hended, rfl⟩
  obtain rfl := Except.ok.inj hended
  refine ⟨⟨hinv.stamped, hinv.newest, hinv.recorded, hinv.present, fun row hrow => ?_⟩, ?_⟩
  · cases Option.some.inj hrow
  rintro (_ | _) hother
  · exact ⟨rfl, rfl, rfl, Nat.le_refl _, List.prefix_rfl, fun _ => .inl⟩
  · exact absurd rfl hother

/-- It may end in what the page was truly told. -/
theorem done {row : Option PrRecord} (hw : Following completionId w)
    (htold : w.Told completionId row) : SafePage object installationId (.done row) w := by
  rintro u (hu : PageRely w u) hinv _ ⟨_, hended, rfl⟩
  obtain rfl := Except.ok.inj hended
  refine ⟨⟨hinv.stamped, hinv.newest, hinv.recorded, hinv.present, fun found hfound => ?_⟩, ?_⟩
  · obtain rfl := Except.ok.inj (Option.some.inj hfound)
    obtain ⟨hprojected, hfresh⟩ := htold.mono hu.written hu.projected
    exact ⟨completionId, Following.stable (v := u) hw hu, hprojected, hfresh⟩
  · rintro (_ | _) hother
    · exact ⟨rfl, rfl, rfl, Nat.le_refl _, List.prefix_rfl, fun _ => .inl⟩
    · exact absurd rfl hother

/-- **The rule of a call that only reads.** -/
theorem reads {call : SyncCall} {k : call.Answer → SyncM (Option PrRecord)}
    {P : AwaitedWorld → Prop} (hP : P w) (hstable : ∀ u v, P u → PageRely u v → P v)
    (hquiet : ∀ u answer v, pageCallSem installationId object.key call u answer v → v = u)
    (hk : ∀ u answer, P u → AwaitedInv object.key u →
      pageCallSem installationId object.key call u answer u →
      SafePage object installationId (k answer) u) :
    SafePage object installationId (Prog.ask (S := SyncEffects) call k) w := by
  intro u hu hinv
  have hPu := hstable w u hP hu
  refine ⟨trivial, fun answer v hsem => ?_, fun _ h => h.elim⟩
  obtain rfl := hquiet u answer v hsem
  refine ⟨⟨hinv, ?_⟩, hk _ answer hPu hinv hsem⟩
  rintro (_ | _) hother
  · exact .refl _
  · exact absurd rfl hother

/-- What a read of the projection says is so. -/
theorem told_of_row {row : Option PrRecord} (hw : Following completionId w)
    (hinv : AwaitedInv object.key w) (hrow : w.row installationId object.key = .ok row)
    (hfresh : row.isSome → (w.firstWrite completionId).isSome) : w.Told completionId row := by
  obtain rfl := eq_of_row_ok hrow
  have hpresent := hinv.present (by rw [show w.requested = some completionId from hw]; rfl)
  refine ⟨List.mem_of_getLast? hpresent, fun found hfound => ?_⟩
  obtain ⟨stamp, hstamp⟩ := Option.isSome_iff_exists.1 (hfresh (by rw [hfound]; rfl))
  obtain ⟨write, hfind, rfl⟩ := Option.map_eq_some_iff.1 hstamp
  exact ⟨_, hstamp, hinv.newest found hfound write (List.mem_of_find?_eq_some hfind)⟩

/-- **The polls**: a row is answered only once the id is recorded. -/
theorem pollSync (left : ℕ) (lastFault : Option Fault) (hw : Following completionId w) :
    SafePage object installationId (Ui.pollSync completionId left lastFault) w := by
  induction left generalizing lastFault w with
  | zero => exact fail _ w
  | succ left ih =>
    have hwaited {u : AwaitedWorld} (fault : Fault) (hu : Following completionId u) :
        SafePage object installationId
          (if fault = .signedOut then .fail (.unconfirmed fault)
            else Ui.pollSync completionId left (some fault)) u := by
      split
      · exact fail _ u
      · exact ih (some fault) hu
    refine reads hw (fun _ _ => Following.stable) (fun _ _ _ h => h) fun u _ hu _ _ => ?_
    refine reads hu (fun _ _ => Following.stable) (fun _ _ _ h => h.1) fun u answer hu hinv hsem => ?_
    cases answer with
    | error fault => exact hwaited fault hu
    | ok state =>
      dsimp only
      split
      · -- the id is recorded, so it was written under
        rename_i hcompleted
        have hfound : FoundRecorded completionId u := by
          refine ⟨hu, hinv.recorded completionId ?_⟩
          obtain ⟨-, ⟨fault, hfault⟩ | ⟨-, hnone⟩ | hstate⟩ := hsem
          · cases hfault
          · obtain rfl := Except.ok.inj hnone
            cases hcompleted
          · obtain rfl := Except.ok.inj hstate
            exact mem_of_syncIdCompleted hcompleted
        refine reads hfound (fun _ _ => FoundRecorded.stable) (fun _ _ _ h => h.1)
          fun u answer hu hinv hsem => ?_
        obtain ⟨-, ⟨fault, rfl⟩ | ⟨row, hrow, rfl⟩⟩ := hsem
        · exact hwaited fault hu.following
        · exact done hu.following (told_of_row hu.following hinv hrow fun _ => hu.wrote)
      · refine reads hu (fun _ _ => Following.stable) (fun _ _ _ h => h.1)
          fun u answer hu hinv hsem => ?_
        obtain ⟨-, ⟨fault, rfl⟩ | ⟨row, hrow, rfl⟩⟩ := hsem
        · exact hwaited fault hu
        · cases row with
          | none => exact done hu (told_of_row hu hinv hrow nofun)
          | some row => exact ih none hu

/-- **A sync the page follows keeps the outline.** -/
theorem syncPr (hw : w.result = none) : SafePage object installationId Ui.syncPr w := by
  rintro u (hu : PageRely w u) hinv
  refine ⟨trivial, fun answer v hsem => ?_, fun _ h => h.elim⟩
  have hothers {v : AwaitedWorld} (hrely : ObjectRely u v) (j : SyncParty) (hother : j ≠ .page) :
      (awaitedOutline object installationId).rely j u v := by
    cases j with
    | object => exact hrely
    | page => exact absurd rfl hother
  rcases hsem with ⟨fault, rfl, rfl⟩ | ⟨completionId, rfl, rfl⟩
  · exact ⟨⟨hinv, hothers (.refl _)⟩, fail _ _⟩
  · refine ⟨⟨⟨hinv.stamped, hinv.newest, hinv.recorded, fun _ => rfl, fun row hrow => ?_⟩,
      hothers ⟨rfl, rfl, rfl, Nat.le_refl _, List.prefix_rfl, fun _ => .inl⟩⟩, ?_⟩
    · rw [show u.result = none from hu.result.trans hw] at hrow
      cases hrow
    · refine reads (P := Following completionId) rfl (fun _ _ => Following.stable)
        (fun _ _ _ h => h) fun v _ hv _ _ => pollSync syncPolls none hv

end SafePage

/-- **The outline holds.** -/
theorem awaitedOutline_valid (object : PullRequestObject) (installationId : ℕ) :
    (awaitedOutline object installationId).Valid where
  init := by
    rintro w ⟨hobject, hrow, -, hwritten, hrequested, hresult⟩
    refine ⟨?_, ?_, ?_, ?_, ?_⟩
    · rw [hwritten]
      exact fun _ h => absurd h List.not_mem_nil
    · rw [hrow]
      exact fun _ h => absurd h.symm (Option.some_ne_none _)
    · rw [AwaitedWorld.held, hobject]
      exact fun _ h => absurd h List.not_mem_nil
    · rw [hrequested]
      exact fun h => absurd h Bool.false_ne_true
    · rw [hresult]
      exact fun _ h => absurd h.symm (Option.some_ne_none _)
  env := by
    rintro w w' hinv (⟨n, rfl⟩ | ⟨store', hrow, rfl⟩)
    · refine ⟨hinv.wait n, ?_⟩
      rintro (_ | _)
      · exact ⟨rfl, rfl, rfl, Nat.le_add_right _ _, List.prefix_rfl, fun _ => .inl⟩
      · exact ⟨rfl, rfl, List.prefix_rfl, List.prefix_rfl⟩
    · refine ⟨hinv.withStore hrow, ?_⟩
      rintro (_ | _)
      · exact ⟨rfl, rfl, rfl, Nat.le_refl _, List.prefix_rfl, fun _ => .inl⟩
      · exact ⟨rfl, rfl, List.prefix_rfl, List.prefix_append _ _⟩
  start := by
    rintro (_ | _) p w w' hinv hstart
    · obtain ⟨invocation, -, haddresses, rfl, rfl⟩ := hstart
      refine ⟨⟨?_, ?_⟩, safe_handler haddresses rfl⟩
      · refine ⟨hinv.stamped, hinv.newest, hinv.recorded, hinv.present, fun row hrow => ?_⟩
        obtain ⟨completionId, hid, htold⟩ := hinv.told row hrow
        exact ⟨completionId, hid, htold.mono List.prefix_rfl List.prefix_rfl⟩
      · rintro (_ | _) hother
        · exact absurd rfl hother
        · exact ⟨rfl, rfl, List.prefix_rfl, List.prefix_rfl⟩
    · obtain ⟨-, hresult, rfl, rfl⟩ := hstart
      refine ⟨⟨hinv, ?_⟩, SafePage.syncPr hresult⟩
      rintro (_ | _) hother
      · exact .refl _
      · exact absurd rfl hother

end

/-- **A manual sync yields a row at least as new as itself.** By any script of
answers it is said to be queued once if Restate took it, polls no longer than
it waits, and calls nothing once it is refused. And beside the object, with
other syncs, closes and merges at any moment: a row it yields is no older
than the first snapshot a sync with its completion id wrote, and it yields
none only where the projection has held none since the request was taken. -/
theorem manual_sync_fresh :
    (∀ es r, syncPr.Exchanges es r → SyncKept es) ∧
    ∀ (object : PullRequestObject) (installationId : ℕ) s,
      (awaitedSystem object installationId).Reach s →
      (∀ row, s.world.result = some (.ok (some row)) →
        ∃ completionId stamp, s.world.requested = some completionId ∧
          s.world.firstWrite completionId = some stamp ∧ stamp ≤ row.syncedAt) ∧
      (s.world.result = some (.ok none) →
        s.world.requested.isSome ∧ none ∈ s.world.projected) := by
  refine ⟨fun es r => kept_syncPr, fun object installationId s hs => ?_⟩
  have hinv := ((awaitedOutline_valid object installationId).reach hs).inv
  constructor
  · intro row hrow
    obtain ⟨completionId, hid, htold⟩ := hinv.told (some row) hrow
    obtain ⟨stamp, hstamp, hle⟩ := htold.fresh row rfl
    exact ⟨completionId, stamp, hid, hstamp, hle⟩
  · intro hnone
    obtain ⟨completionId, hid, htold⟩ := hinv.told none hnone
    exact ⟨by rw [hid]; rfl, htold.projected⟩

end Dependaboard
