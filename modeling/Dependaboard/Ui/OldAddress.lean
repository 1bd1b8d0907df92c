import Dependaboard.Ui.Converge
/-!
# Ui — an old address does not take a batch up again

The batch an address names is taken up once, where the dashboard opens. What
says that it has is set where an address names one, and not where the
dashboard opened, so that a dashboard opened on an address that names none
takes up the first the browser comes back to. `taken_up_once_iff` is that this
is the one way.
-/

namespace Dependaboard

namespace Ui

open Synced UrlState

/-- Where a step lands the browser. -/
def Turn.landing? : Turn → Option String
  | .browse landed => some landed.current
  | .change _ => none

/-- **A batch is taken up once**, from the address the dashboard opened at and
while it did. -/
structure TakenUpOnce (readers : Readers) (opening : History) (s : Synced) : Prop where
  once : s.adopted.length ≤ 1
  named : ∀ batch ∈ s.adopted, (fromRoute readers opening.current).batch = some batch
  opening : s.adopted = ((openAt readers opening).settle readers).2.adopted

/-- The address the dashboard opened at names a batch, or none that the
browser came back to does. -/
def NamedAtOpening (readers : Readers) (opening : History) (turns : List Turn) : Prop :=
  (fromRoute readers opening.current).batch ≠ none ∨
    ∀ route ∈ turns.filterMap Turn.landing?, (fromRoute readers route).batch = none

variable {readers : Readers}

/-! ## What the effects take up -/

theorem leadBrowser_batches (s : Synced) :
    (s.leadBrowser readers).2.followed = s.followed ∧
      (s.leadBrowser readers).2.opened = s.opened ∧
      (s.leadBrowser readers).2.adopted = s.adopted := ⟨rfl, rfl, rfl⟩

/-- The browser led, or not, takes up nothing. -/
theorem settle_batches {s : Synced} (hmoved : s.browserMoved = false) :
    (s.settle readers).2.followed = s.followed ∧ (s.settle readers).2.opened = s.opened ∧
      (s.settle readers).2.adopted = s.adopted := by
  cases hchanged : s.changed with
  | true =>
    rw [settle_lead hmoved hchanged]
    exact leadBrowser_batches s
  | false =>
    rw [settle_rest hmoved hchanged]
    exact ⟨rfl, rfl, rfl⟩

/-- **A browser that moved has a batch taken up where none was.** -/
theorem browsed_batches {s : Synced} (hmoved : s.browserMoved = true) :
    (s.settle readers).2.followed = (s.takesUp readers).or s.followed ∧
      (s.settle readers).2.opened = (s.opened || (s.takesUp readers).isSome) ∧
      (s.settle readers).2.adopted = s.adopted ++ (s.takesUp readers).toList := by
  obtain ⟨hfollowed, hopened, hadopted⟩ :=
    settle_batches (@followBrowser_browserMoved readers s)
  rw [settle_follow hmoved, hfollowed, hopened, hadopted, followBrowser_eq]
  exact ⟨rfl, rfl, rfl⟩

theorem settle_browserMoved (s : Synced) : (s.settle readers).2.browserMoved = false := by
  have hrests (s : Synced) (hmoved : s.browserMoved = false) :
      (s.settle readers).2.browserMoved = false := by
    cases hchanged : s.changed with
    | true => rw [settle_lead hmoved hchanged]; exact hmoved
    | false => rw [settle_rest hmoved hchanged]; exact hmoved
  cases hmoved : s.browserMoved with
  | true => rw [settle_follow hmoved]; exact hrests _ (followBrowser_browserMoved s)
  | false => exact hrests s hmoved

theorem make_batches (s : Synced) (change : Change) :
    (s.make change).opened = s.opened ∧ (s.make change).adopted = s.adopted := by
  cases change <;> exact ⟨rfl, rfl⟩

/-! ## Along a run -/

/-- The batches named where the dashboard opened, and where the browser came
to since. -/
def namedBatches (readers : Readers) (opening : History) (turns : List Turn) : List String :=
  (opening.current :: turns.filterMap Turn.landing?).filterMap fun route =>
    (fromRoute readers route).batch

theorem namedBatches_append (opening : History) (turns : List Turn) (turn : Turn) :
    namedBatches readers opening (turns ++ [turn]) = namedBatches readers opening turns ++
      (turn.landing?.bind fun route => (fromRoute readers route).batch).toList := by
  rw [namedBatches, List.filterMap_append, ← List.cons_append, List.filterMap_append]
  cases turn with
  | change change => rfl
  | browse landed =>
    cases hbatch : (fromRoute readers landed.current).batch <;>
      simp [namedBatches, Turn.landing?, hbatch]

variable {Allowed : Synced → Turn → Prop} {opening : History} {turns : List Turn} {s : Synced}

theorem eq_settle {s s' : Synced} {moves : List HistoryMove} (h : Settles readers s moves s') :
    s' = (s.settle readers).2 := by
  rw [settles_iff.1 h]

/-- **The first batch named is the one taken up.** -/
theorem Run.takes_first (h : Run readers Allowed opening turns s) :
    s.browserMoved = false ∧ s.opened = (namedBatches readers opening turns).head?.isSome ∧
      s.adopted = (namedBatches readers opening turns).head?.toList := by
  induction h with
  | opened h =>
    obtain ⟨-, hopened, hadopted⟩ := @browsed_batches readers (openAt readers opening) rfl
    have htakes : (openAt readers opening).takesUp readers =
        (namedBatches readers opening []).head? := by
      cases hbatch : (fromRoute readers opening.current).batch <;>
        simp [takesUp, openAt, namedBatches, hbatch]
    rw [eq_settle h, hopened, hadopted, htakes]
    exact ⟨settle_browserMoved _, rfl, rfl⟩
  | @step turns turn _ s s' _ _ _ h ih =>
    obtain ⟨hrest, hopened, hadopted⟩ := ih
    rw [eq_settle h, namedBatches_append]
    refine ⟨settle_browserMoved _, ?_⟩
    -- A change names nothing; a landing names a batch that counts if it is the first.
    cases turn with
    | change change =>
      obtain ⟨-, hopened', hadopted'⟩ := @settle_batches readers (s.take (.change change))
        ((make_frame s change).2.2.trans hrest)
      rw [hopened', hadopted']
      simpa [take, make_batches, Turn.landing?] using ⟨hopened, hadopted⟩
    | browse landed =>
      obtain ⟨-, hopened', hadopted'⟩ := @browsed_batches readers (s.take (.browse landed)) rfl
      have htakes : (s.take (.browse landed)).takesUp readers =
          if s.opened then none else (fromRoute readers landed.current).batch := rfl
      rw [hopened', hadopted', htakes]
      change (s.opened || _) = _ ∧ s.adopted ++ _ = _
      rw [hadopted, hopened]
      cases namedBatches readers opening turns with
      | nil => cases hbatch : (fromRoute readers landed.current).batch <;>
          simp [Turn.landing?, hbatch]
      | cons batch batches => simp

/-- What the opening takes up is what its address names. -/
theorem adopted_openAt (opening : History) :
    ((openAt readers opening).settle readers).2.adopted =
      (fromRoute readers opening.current).batch.toList := by
  rw [(@browsed_batches readers (openAt readers opening) rfl).2.2]
  rfl

/-- The opening names the first batch, where it names one, or there is none. -/
theorem namedAtOpening_iff :
    NamedAtOpening readers opening turns ↔
      (namedBatches readers opening turns).head? = (fromRoute readers opening.current).batch := by
  unfold NamedAtOpening namedBatches
  cases hbatch : (fromRoute readers opening.current).batch <;> simp [hbatch]

/-- A browser that comes back takes up none where the opening did, or where it
comes back to none. -/
theorem Run.takesUp_eq_none (h : Run readers Allowed opening turns s) (landed : History)
    (hnamed : NamedAtOpening readers opening (turns ++ [.browse landed])) :
    (s.take (.browse landed)).takesUp readers = none := by
  have htakes : (s.take (.browse landed)).takesUp readers =
      if s.opened then none else (fromRoute readers landed.current).batch := rfl
  rw [htakes, h.takes_first.2.1]
  rcases hnamed with hopening | hlandings
  · obtain ⟨batch, hbatch⟩ := Option.ne_none_iff_exists'.1 hopening
    simp [namedBatches, hbatch]
  · have hlanded := hlandings landed.current (by simp [Turn.landing?])
    simp [hlanded]

/-- **An old address takes no batch up again** exactly where the dashboard
opened on an address that names one, or the browser comes back to none that
does. -/
theorem taken_up_once_iff (h : Run readers Allowed opening turns s) :
    (TakenUpOnce readers opening s ↔ NamedAtOpening readers opening turns) ∧
      ∀ landed moves s', NamedAtOpening readers opening (turns ++ [.browse landed]) →
        Settles readers (s.take (.browse landed)) moves s' → s'.followed = s.followed := by
  obtain ⟨-, -, hadopted⟩ := h.takes_first
  refine ⟨?_, fun landed moves s' hnamed hsettles => ?_⟩
  · rw [namedAtOpening_iff]
    constructor
    · intro honce
      have hopening := congrArg List.head? honce.opening
      simpa [adopted_openAt, hadopted] using hopening
    · intro hfirst
      rw [hfirst] at hadopted
      refine ⟨?_, ?_, by rw [adopted_openAt, hadopted]⟩
      · rw [hadopted]
        exact Option.length_toList_le
      · rw [hadopted]
        exact fun batch hbatch => Option.mem_toList.1 hbatch
  · have hfollowed := (@browsed_batches readers (s.take (.browse landed)) rfl).1
    rw [h.takesUp_eq_none landed hnamed, Option.none_or] at hfollowed
    rw [eq_settle hsettles, hfollowed]
    rfl

theorem taken_up_once_iff_sample : TakenUpOnce sampleReaders ⟨[], "/", []⟩
    (shown sampleReaders default (some sampleBatch) [attentionRoute, "/"] [] false []) :=
  (taken_up_once_iff run_sample).1.2 (.inr nofun)

/-! ## The dashboard opened at an address that names none -/

/-- The address of the first batch of the samples. -/
def batchRoute : String :=
  UrlState.toRoute sampleReaders ⟨default, none, none, some sampleBatch⟩

/-- A batch followed, the view turned on, and another batch followed. -/
theorem run_followed : Run sampleReaders (Answerable sampleReaders) ⟨[], "/", []⟩
    [.change (.followed (some sampleBatch)), .change (.filter attention),
      .change (.followed (some otherBatch))]
    (shown sampleReaders attention (some otherBatch) [batchRoute] [] false []) := by
  have hnone : ∀ id ∈ (none : Option String), id = sampleBatch ∨ id = otherBatch := nofun
  have hsome : ∀ id ∈ some sampleBatch, id = sampleBatch ∨ id = otherBatch := by simp
  have hother : ∀ id ∈ some otherBatch, id = sampleBatch ∨ id = otherBatch := by simp
  have hhome := built_sample (.inl rfl) hnone
  have hbatch := built_sample (.inl rfl) hsome
  have hattention := built_sample (.inr rfl) hsome
  have hfollows : Settles sampleReaders ((shown sampleReaders default none [] [] false []).take
      (.change (.followed (some sampleBatch)))) [.replace]
      (shown sampleReaders default (some sampleBatch) [] [] false []) :=
    settles_iff.2 (settle_batch (some sampleBatch) nofun hhome)
  have hon : Settles sampleReaders ((shown sampleReaders default (some sampleBatch) [] [] false
      []).take (.change (.filter attention))) [.push]
      (shown sampleReaders attention (some sampleBatch) [batchRoute] [] false []) :=
    settles_iff.2 (settle_filter attention (by decide) rfl hbatch)
  have hreplaces : Settles sampleReaders ((shown sampleReaders attention (some sampleBatch)
      [batchRoute] [] false []).take (.change (.followed (some otherBatch)))) [.replace]
      (shown sampleReaders attention (some otherBatch) [batchRoute] [] false []) :=
    settles_iff.2 (settle_batch (some otherBatch) (by decide) hattention)
  have hopened : Run sampleReaders (Answerable sampleReaders) ⟨[], "/", []⟩ [] _ :=
    .opened (settles_iff.2 (settle_openAt "/" [] [] home_eq))
  have hfollowing := hopened.changed (.followed (some sampleBatch)) hbatch hfollows
  have hturnedOn := hfollowing.changed (.filter attention) hattention hon
  exact hturnedOn.changed (.followed (some otherBatch)) (built_sample (.inr rfl) hother) hreplaces

/-- **A batch that another replaced is taken up again**, from the address of
before. -/
theorem old_batch_taken_up : ¬ ∀ (readers : Readers) (opening : History) (turns : List Turn)
    (s : Synced), Run readers (Builds readers) opening turns s →
      TakenUpOnce readers opening s := by
  intro hclaim
  have hsome : ∀ id ∈ some sampleBatch, id = sampleBatch ∨ id = otherBatch := by simp
  have hother : ∀ id ∈ some otherBatch, id = sampleBatch ∨ id = otherBatch := by simp
  have hhome : fromRoute sampleReaders "/" = ⟨default, none, none, none⟩ :=
    home_eq ▸ (@built_default sampleReaders).fromRoute_toRoute
  have hnamed : fromRoute sampleReaders batchRoute = ⟨default, none, none, some sampleBatch⟩ :=
    (built_sample (.inl rfl) hsome).fromRoute_toRoute
  let ahead := UrlState.toRoute sampleReaders ⟨attention, none, none, some otherBatch⟩
  let back : Turn := .browse ⟨[], batchRoute, [ahead]⟩
  have hrun := @Run.step sampleReaders (Builds sampleReaders) _ _ back _ _ _
    (run_followed.mono fun _ _ => And.left) (.go rfl) (built_sample (.inr rfl) hother)
    (settles_settle _)
  have hfirst : ["/", batchRoute].filterMap (fun route => (fromRoute sampleReaders route).batch) =
      [sampleBatch] := by simp [hhome, hnamed]
  have hadopted := hrun.takes_first.2.2.trans (congrArg (fun named => named.head?.toList) hfirst)
  have hopening := (hclaim _ _ _ _ hrun).named sampleBatch (hadopted ▸ List.mem_singleton_self _)
  rw [hhome] at hopening
  cases hopening

end Ui

end Dependaboard
