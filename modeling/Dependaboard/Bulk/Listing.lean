import Dependaboard.Bulk.Verdicts
/-!
# Bulk action — its listing ends rightly

A batch is listed as running from its first step. However it ends, and
whichever of its effects fail: one that ends well has written its record, by
which the listing goes; one that fails with a target unsettled takes the
listing away itself; and one that fails with every target settled leaves it.
The listing's own failures change nothing else.

What decides the clean-up is the completed flag, and `completed_iff_landed`
is that it says of a batch over distinct keys that every target landed.
-/

namespace Dependaboard

open Durable

/-- The action on this pull request ended, one way or another. -/
def Landed (es : List (Exchange BulkEffects)) (key : PrKey) : Prop :=
  ∃ landing ∈ es.flatMap landed, landing.1 = key

theorem isSome_verdictIn {log : List (PrKey × Except String ActionOutcome)} {key : PrKey} :
    (verdictIn log key).isSome ↔ ∃ landing ∈ log, landing.1 = key := by
  unfold verdictIn
  rw [Option.isSome_map, List.find?_isSome]
  simp

/-- **The flag of a batch over distinct keys says that every target
landed.** -/
theorem completed_iff_landed {request : BulkRequest} {batchId : String} (hne : request.targets ≠ [])
    (hnodup : (request.targets.map PrTarget.key).Nodup) {es : List (Exchange BulkEffects)}
    {shown : List BatchProgress} {progress : BatchProgress}
    (h : Follows (.queued batchId request.action request.targets) (es.flatMap landed) shown
      progress) :
    (progress.completed ↔ ∀ target ∈ request.targets, Landed es target.key) ∧
      (progress.completed ↔ ∀ item ∈ progress.targets, item.state.outcome.isSome) := by
  obtain ⟨states, hshows, hstates⟩ := h.moves.settles request.targets _ hnodup
    (BatchProgress.shows_queued batchId request.action request.targets)
  have hnonempty : progress.targets ≠ [] := by
    rw [hshows]
    simpa using hne
  have hflag := (h.moves.tallied (.queued batchId request.action _)).completed hnonempty
  refine ⟨hflag.trans ?_, hflag⟩
  have hsettled : ∀ key, (states key).outcome.isSome ↔ Landed es key := fun key => by
    rw [hstates key]
    exact isSome_verdictIn
  rw [hshows]
  simp only [List.forall_mem_map, hsettled]

/-- A record is kept only of a batch all of whose targets have settled. -/
theorem settled_of_completedRecord {progress : BatchProgress} {installationId : ℕ}
    {requestedBy : String} {retriedFrom : Option String} {startedAt completedAt : ℕ}
    {record : BatchRecord}
    (h : progress.completedRecord installationId requestedBy retriedFrom startedAt completedAt
      = some record) : ∀ item ∈ progress.targets, item.state.outcome.isSome := by
  intro item hitem
  by_contra hnone
  rw [BatchProgress.completedRecord_eq_none hitem (by simpa using hnone)] at h
  cases h

/-- What closes a batch lands nothing and asks nothing of the listing. -/
theorem Finished.quiet {installationId : ℕ} {request : BulkRequest} {startedAt : ℕ}
    {progress : BatchProgress} {es : List (Exchange BulkEffects)}
    {r : Except (HandlerError × BatchProgress) BatchProgress}
    (h : Finished installationId request startedAt progress es r) :
    es.flatMap landed = [] ∧ es.flatMap unlisted = [] ∧ es.flatMap sent = [] ∧
      leftAt r = progress := by
  cases h <;> exact ⟨rfl, rfl, rfl, rfl⟩

/-- **How driving a batch ends**, for the listing: the flag says whether every
target landed; what ends well has written one record; what has attempted one
had every target settled. -/
structure DriveEnds (request : BulkRequest) (es : List (Exchange BulkEffects))
    (driven : Except (HandlerError × BatchProgress) BatchProgress) : Prop where
  completed : (leftAt driven).completed ↔ ∀ target ∈ request.targets, Landed es target.key
  recorded : ∀ progress, driven = .ok progress →
    ∃ record, es.flatMap recorded = [(record, .ok ())]
  attempted : es.flatMap Dependaboard.recorded ≠ [] → (leftAt driven).completed
  unlisted : es.flatMap unlisted = []

theorem driveEnds {installationId : ℕ} {request : BulkRequest} {startedAt : ℕ} {batchId : String}
    (hne : request.targets ≠ []) (hnodup : (request.targets.map PrTarget.key).Nodup)
    {es : List (Exchange BulkEffects)}
    {driven : Except (HandlerError × BatchProgress) BatchProgress}
    (h : (drive installationId request startedAt
      (.queued batchId request.action request.targets)).Exchanges es driven) :
    DriveEnds request es driven := by
  -- the targets failed part way, or were driven to the end and then finished
  rcases drive_cases h with
    ⟨⟨error, progress⟩, rfl, hfail⟩ | ⟨progress, first, tail, rfl, hfirst, hfinished⟩
  · obtain ⟨order, -, hdriven⟩ := driven_driveTargets hfail
    obtain ⟨hnoRecord, hnoUnlist, -⟩ := quiet_of_drives hdriven.drives
    exact ⟨(completed_iff_landed hne hnodup hdriven.follows).1, nofun,
      fun hsome => absurd hnoRecord hsome, hnoUnlist⟩
  · obtain ⟨order, -, hdriven⟩ := driven_driveTargets hfirst
    obtain ⟨hnoRecord, hnoUnlist, -⟩ := quiet_of_drives hdriven.drives
    obtain ⟨hlanded, hunlisted, -, hleft⟩ := hfinished.quiet
    obtain ⟨hflag, hitems⟩ := completed_iff_landed hne hnodup hdriven.follows
    have hsame : ∀ key, Landed (first ++ tail) key ↔ Landed first key := fun key => by
      unfold Landed
      rw [List.flatMap_append, hlanded, List.append_nil]
    refine ⟨?_, ?_, ?_, ?_⟩
    · simp only [hleft, hsame]
      exact hflag
    · rintro after rfl
      cases hfinished with
      | @recorded completedAt record hrecord =>
        refine ⟨record, ?_⟩
        rw [List.flatMap_append, hnoRecord, List.nil_append]
        rfl
    · intro hsome
      rw [List.flatMap_append, hnoRecord, List.nil_append] at hsome
      rw [hleft]
      cases hfinished with
      | clockless error => exact absurd rfl hsome
      | incomplete message hrecord => exact absurd rfl hsome
      | unrecorded error hrecord => exact hitems.2 (settled_of_completedRecord hrecord)
      | recorded hrecord => exact hitems.2 (settled_of_completedRecord hrecord)
    · rw [List.flatMap_append, hnoUnlist, hunlisted]
      rfl

/-! ## The listing's own failures -/

/-- The call is one of those that keep the listing. -/
def BulkCall.lists : BulkCall → Bool
  | startBatch _ => true
  | unlistBatch => true
  | _ => false

/-- Two exchanges of one call, answered alike but for a call that keeps the
listing. -/
def SameButListing (e' e : Exchange BulkEffects) : Prop :=
  e'.1 = e.1 ∧ (¬ e.1.lists → e' = e)

/-- Driving a batch never asks anything of the listing. -/
theorem drive_not_lists {installationId : ℕ} {request : BulkRequest} {startedAt : ℕ}
    {p : BatchProgress} {es : List (Exchange BulkEffects)}
    {driven : Except (HandlerError × BatchProgress) BatchProgress}
    (h : (drive installationId request startedAt p).Exchanges es driven) :
    ∀ e ∈ es, ¬ e.1.lists := by
  have hdrives : ∀ call : BulkCall, call.drives → ¬ call.lists := by
    intro call hdrives
    cases call <;> simp_all [BulkCall.drives, BulkCall.lists]
  rcases drive_cases h with
    ⟨failure, rfl, hfail⟩ | ⟨progress, first, tail, rfl, hfirst, hfinished⟩
  · obtain ⟨order, -, hdriven⟩ := driven_driveTargets hfail
    exact fun e he => hdrives e.1 (hdriven.drives e he)
  · obtain ⟨order, -, hdriven⟩ := driven_driveTargets hfirst
    refine List.forall_mem_append.2 ⟨fun e he => hdrives e.1 (hdriven.drives e he), ?_⟩
    cases hfinished <;> simp [BulkCall.lists]

/-- Away from the listing, answered alike is the same. -/
theorem eq_of_sameButListing {es es' : List (Exchange BulkEffects)}
    (h : List.Forall₂ SameButListing es' es) (hes : ∀ e ∈ es, ¬ e.1.lists) : es' = es := by
  induction h with
  | nil => rfl
  | cons hsame _ ih =>
    rw [List.forall_mem_cons] at hes
    rw [hsame.2 hes.1, ih hes.2]

/-- **Whatever the listing answers, the workflow does the same.** -/
theorem exchanges_of_sameButListing {batchId : String} {installationId : ℕ}
    {request : BulkRequest} {es es' : List (Exchange BulkEffects)}
    {r : Except HandlerError BatchProgress}
    (hrun : (runBulkAction batchId installationId request).Exchanges es r)
    (h : List.Forall₂ SameButListing es' es) :
    (runBulkAction batchId installationId request).Exchanges es' r := by
  rcases runBulkAction_exchanges.1 hrun with
    ⟨error, rfl, rfl⟩ | ⟨startedAt, listed, driven, body, last, rfl, hdrive, hcleaned⟩
  · rw [eq_of_sameButListing h (by simp [BulkCall.lists])]
    exact hrun
  obtain ⟨clock, es₁, hclock, h₁, rfl⟩ := List.forall₂_cons_right_iff.1 h
  obtain ⟨shown, es₂, hshown, h₂, rfl⟩ := List.forall₂_cons_right_iff.1 h₁
  obtain ⟨⟨call, listed'⟩, rest, hlisted, h₃, rfl⟩ := List.forall₂_cons_right_iff.1 h₂
  obtain ⟨rfl, -⟩ := hlisted
  rw [hclock.2 nofun, hshown.2 nofun]
  have hbody := eq_of_sameButListing (List.forall₂_take_append _ _ _ h₃) (drive_not_lists hdrive)
  have hlast := List.forall₂_drop_append _ _ _ h₃
  refine runBulkAction_exchanges.2 (.inr ⟨startedAt, listed', driven, body,
    rest.drop body.length, ?_, hdrive, ?_⟩)
  · have hsplit : rest = body ++ rest.drop body.length := by
      conv_lhs => rw [← List.take_append_drop body.length rest, hbody]
    rw [← hsplit]
  · generalize rest.drop body.length = last' at hlast
    cases hcleaned with
    | ended progress =>
      rw [List.forall₂_nil_right_iff.1 hlast]
      exact .ended progress
    | kept error hflag =>
      rw [List.forall₂_nil_right_iff.1 hlast]
      exact .kept error hflag
    | unlisted error hflag answer =>
      obtain ⟨⟨call, answer'⟩, none, hunlist, hnone, rfl⟩ := List.forall₂_cons_right_iff.1 hlast
      obtain ⟨rfl, -⟩ := hunlist
      rw [List.forall₂_nil_right_iff.1 hnone]
      exact .unlisted error hflag answer'

/-- What is read of a call, not of its answer, is read the same. -/
theorem flatMap_of_sameButListing {α : Type} {read : Exchange BulkEffects → List α}
    (hread : ∀ e' e, SameButListing e' e → read e' = read e) {es es' : List (Exchange BulkEffects)}
    (h : List.Forall₂ SameButListing es' es) : es'.flatMap read = es.flatMap read := by
  induction h with
  | nil => rfl
  | cons hsame _ ih => rw [List.flatMap_cons, List.flatMap_cons, hread _ _ hsame, ih]

theorem sent_of_sameButListing {e' e : Exchange BulkEffects} (h : SameButListing e' e) :
    sent e' = sent e := by
  obtain ⟨call, answer⟩ := e
  obtain ⟨call', answer'⟩ := e'
  obtain ⟨rfl, -⟩ : call' = call ∧ _ := h
  cases call' <;> rfl

theorem published_of_sameButListing {e' e : Exchange BulkEffects} (h : SameButListing e' e) :
    published e' = published e := by
  obtain ⟨call, answer⟩ := e
  obtain ⟨call', answer'⟩ := e'
  obtain ⟨rfl, -⟩ : call' = call ∧ _ := h
  cases call' <;> rfl

/-- **A batch's listing ends rightly**, whichever of its effects fail and
after whichever targets landed. It ends well only with its record written
once and the listing left to that; it fails with a target unsettled, once its
start clock was read, only after asking once for the listing to be taken away
and never for a record; it fails with every target settled without asking for
that; and other answers to the listing's two calls leave what it sends, what
it publishes and how it ends as they are. -/
theorem batch_listing_ends_rightly {validBatchId : String → Bool} {batchId : String}
    {installationId : ℕ} {request : BulkRequest} {es : List (Exchange BulkEffects)}
    {r : Except HandlerError BatchProgress}
    (hvalid : request.validate validBatchId batchId = .ok ())
    (hrun : (runBulkAction batchId installationId request).Exchanges es r) :
    (∀ progress, r = .ok progress →
      (∃ record, es.flatMap recorded = [(record, .ok ())]) ∧ es.flatMap unlisted = []) ∧
    (∀ error startedAt, r = .error error →
      ("batch-start-clock", .ok startedAt) ∈ es.flatMap clocks →
      (∃ target ∈ request.targets, ¬ Landed es target.key) →
        (es.flatMap unlisted).length = 1 ∧ es.flatMap recorded = []) ∧
    (∀ error, r = .error error → (∀ target ∈ request.targets, Landed es target.key) →
      es.flatMap unlisted = []) ∧
    ∀ es', List.Forall₂ SameButListing es' es →
      (runBulkAction batchId installationId request).Exchanges es' r ∧
        es'.flatMap sent = es.flatMap sent ∧ es'.flatMap published = es.flatMap published := by
  obtain ⟨hne, hnodup⟩ := request.of_validate hvalid
  have hsame : ∀ es', List.Forall₂ SameButListing es' es →
      (runBulkAction batchId installationId request).Exchanges es' r ∧
        es'.flatMap sent = es.flatMap sent ∧ es'.flatMap published = es.flatMap published :=
    fun es' h => ⟨exchanges_of_sameButListing hrun h,
      flatMap_of_sameButListing (fun _ _ => sent_of_sameButListing) h,
      flatMap_of_sameButListing (fun _ _ => published_of_sameButListing) h⟩
  rcases runBulkAction_exchanges.1 hrun with
    ⟨error, rfl, rfl⟩ | ⟨startedAt, listed, driven, body, last, rfl, hdrive, hcleaned⟩
  · refine ⟨nofun, fun _ startedAt _ hclock => ?_, fun _ _ _ => rfl, hsame⟩
    simp [clocks] at hclock
  have hends := driveEnds hne hnodup hdrive
  -- the first three exchanges and the clean-up land and record nothing
  have hlast : last.flatMap landed = [] ∧ last.flatMap recorded = [] := by
    cases hcleaned <;> exact ⟨rfl, rfl⟩
  have hlanded : ∀ key, Landed (⟨.now "batch-start-clock", .ok startedAt⟩ ::
      ⟨.publish (.queued batchId request.action request.targets), ()⟩ ::
      ⟨.startBatch (request.running batchId installationId startedAt), listed⟩ ::
        (body ++ last)) key ↔ Landed body key := fun key => by
    simp [Landed, List.flatMap_cons, hlast.1, landed]
  have hread : ∀ {α : Type} (read : Exchange BulkEffects → List α),
      read ⟨.now "batch-start-clock", .ok startedAt⟩ = [] →
      read ⟨.publish (.queued batchId request.action request.targets), ()⟩ = [] →
      read ⟨.startBatch (request.running batchId installationId startedAt), listed⟩ = [] →
      (⟨.now "batch-start-clock", .ok startedAt⟩ ::
        ⟨.publish (.queued batchId request.action request.targets), ()⟩ ::
        ⟨.startBatch (request.running batchId installationId startedAt), listed⟩ ::
          (body ++ last) : List (Exchange BulkEffects)).flatMap read
        = body.flatMap read ++ last.flatMap read := by
    intro α read h₁ h₂ h₃
    simp [List.flatMap_cons, List.flatMap_append, h₁, h₂, h₃]
  rw [hread unlisted rfl rfl rfl, hread recorded rfl rfl rfl, hends.unlisted, hlast.2,
    List.nil_append, List.append_nil]
  simp only [hlanded]
  refine ⟨?_, ?_, ?_, hsame⟩
  · rintro progress rfl
    cases hcleaned
    exact ⟨hends.recorded progress rfl, rfl⟩
  · rintro error _ rfl - ⟨target, htarget, hnot⟩
    have hflag : (leftAt driven).completed = false := by
      rw [Bool.eq_false_iff]
      exact fun h => hnot (hends.completed.1 h target htarget)
    refine ⟨?_, ?_⟩
    · cases hcleaned with
      | kept error h =>
        have hcontra : (true : Bool) = false := h.symm.trans hflag
        cases hcontra
      | unlisted error h answer => rfl
    · by_contra hsome
      rw [hends.attempted hsome] at hflag
      cases hflag
  · rintro error rfl hall
    have hflag := hends.completed.2 hall
    cases hcleaned with
    | kept error h => rfl
    | unlisted error h answer =>
      have hcontra : (false : Bool) = true := h.symm.trans hflag
      cases hcontra

/-- A batch whose rounds end before anything lands. -/
def nothingLands : (call : BulkCall) → call.Answer
  | .round _ _ => ([], .error "cancelled")
  | call => undisturbedAnswer sampleResults call

theorem batch_listing_ends_rightly_sample :
    let run := (runBulkAction sampleBatchId 5 (sampleBulk .merge)).answered nothingLands
    run.2 = .error (.terminal "cancelled") ∧ (run.1.flatMap unlisted).length = 1 ∧
      run.1.flatMap recorded = [] := by
  have hrun := (runBulkAction sampleBatchId 5 (sampleBulk .merge)).exchanges_answered nothingLands
  obtain ⟨-, hunlisted, -⟩ := batch_listing_ends_rightly (sampleBulk_valid .merge) hrun
  have hresult : ((runBulkAction sampleBatchId 5 (sampleBulk .merge)).answered nothingLands).2
      = .error (.terminal "cancelled") := rfl
  refine ⟨hresult, hunlisted _ 17 hresult (by decide) ⟨_, List.mem_cons_self, ?_⟩⟩
  rintro ⟨landing, hlanding, -⟩
  have hnone : ((runBulkAction sampleBatchId 5 (sampleBulk .merge)).answered
    nothingLands).1.flatMap landed = [] := rfl
  rw [hnone] at hlanding
  cases hlanding

end Dependaboard
