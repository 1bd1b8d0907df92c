import Dependaboard.Bulk.Course
/-!
# Bulk action — every target once, and recorded as it went

A batch no effect of which fails, but for its listing, and each of whose
targets lands once with a result of its own. Whichever way its action drives
it, each target is sent once, the progress it ends with has each target at
its own result, and the one record written is that progress's.

The argument reads the verdicts off what landed: every landing carries its
key's result (`Undisturbed`), every target sent has one, so the first landing
of each key, which is its verdict, is its result.
-/

namespace Dependaboard

open Durable

/-- **An exchange of a batch nothing disturbs**: the clock is read, each round
ends and each of its places lands once, and every action ends as `results`
says. The listing may fail. -/
def Undisturbed (results : PrKey → Except String ActionOutcome) : Exchange BulkEffects → Prop
  | ⟨.now _, answer⟩ => ∃ reading, answer = .ok reading
  | ⟨.round _ targets, answer⟩ =>
    answer.2 = .ok () ∧ (answer.1.map Prod.fst).Perm (List.finRange targets.length) ∧
      ∀ landing ∈ answer.1, landing.2 = results (targets.get landing.1).key
  | ⟨.rebase target, outcome⟩ => outcome = results target.key
  | ⟨.pause, answer⟩ => answer = .ok ()
  | ⟨.recordBatch _, answer⟩ => answer = .ok ()
  | _ => True

variable {results : PrKey → Except String ActionOutcome}

/-- An undisturbed exchange does not fail what asked for it. -/
theorem Undisturbed.not_fails {e : Exchange BulkEffects} (h : Undisturbed results e) :
    ¬ Fails e := by
  intro hfails
  obtain ⟨call, answer⟩ := e
  cases call with
  | now step =>
    obtain ⟨reading, rfl⟩ := h
    obtain ⟨error, herror⟩ := hfails
    cases herror
  | round kind targets =>
    obtain ⟨message, hmessage⟩ := hfails
    have hok : answer.2 = .ok () := h.1
    rw [hok] at hmessage
    cases hmessage
  | pause =>
    obtain ⟨message, rfl⟩ := hfails
    cases h
  | recordBatch record =>
    obtain ⟨error, rfl⟩ := hfails
    cases h
  | publish progress => exact hfails
  | startBatch batch => exact hfails
  | rebase target => exact hfails
  | unlistBatch => exact hfails

/-- What lands undisturbed is its key's result. -/
theorem Undisturbed.landed {e : Exchange BulkEffects} (h : Undisturbed results e)
    {landing : PrKey × Except String ActionOutcome} (hmem : landing ∈ landed e) :
    landing.2 = results landing.1 := by
  obtain ⟨call, answer⟩ := e
  cases call with
  | round kind targets =>
    obtain ⟨place, hplace, rfl⟩ := List.mem_map.1 hmem
    exact h.2.2 place hplace
  | rebase target =>
    rw [List.mem_singleton.1 hmem]
    exact h
  | now step => cases hmem
  | publish progress => cases hmem
  | startBatch batch => cases hmem
  | pause => cases hmem
  | unlistBatch => cases hmem
  | recordBatch record => cases hmem

/-- What is sent undisturbed lands. -/
theorem Undisturbed.lands {e : Exchange BulkEffects} (h : Undisturbed results e)
    {sending : BulkActionKind × PrTarget} (hmem : sending ∈ sent e) :
    ∃ landing ∈ Dependaboard.landed e, landing.1 = sending.2.key := by
  obtain ⟨call, answer⟩ := e
  cases call with
  | round kind targets =>
    obtain ⟨target, htarget, rfl⟩ := List.mem_map.1 hmem
    obtain ⟨index, rfl⟩ := List.mem_iff_get.1 htarget
    have hindex : index ∈ answer.1.map Prod.fst := h.2.1.mem_iff.2 (List.mem_finRange index)
    obtain ⟨place, hplace, rfl⟩ := List.mem_map.1 hindex
    exact ⟨_, List.mem_map_of_mem hplace, rfl⟩
  | rebase target =>
    rw [List.mem_singleton.1 hmem]
    exact ⟨_, List.mem_singleton_self _, rfl⟩
  | now step => cases hmem
  | publish progress => cases hmem
  | startBatch batch => cases hmem
  | pause => cases hmem
  | unlistBatch => cases hmem
  | recordBatch record => cases hmem

/-- The verdict of a key that landed, where every landing carries its key's
result. -/
theorem verdictIn_eq {log : List (PrKey × Except String ActionOutcome)} {key : PrKey}
    (hlog : ∀ landing ∈ log, landing.2 = results landing.1)
    (hkey : ∃ landing ∈ log, landing.1 = key) :
    verdictIn log key = some (verdictOf (results key)) := by
  obtain ⟨landing, hlanding, hsame⟩ := hkey
  obtain ⟨first, hfirst⟩ := Option.isSome_iff_exists.1
    (List.find?_isSome.2 ⟨landing, hlanding, decide_eq_true hsame⟩ :
      (log.find? fun landing => landing.1 = key).isSome)
  have hfirstKey : first.1 = key := by simpa using List.find?_some hfirst
  have hfirstResult := hlog first (List.mem_of_find?_eq_some hfirst)
  rw [verdictIn, hfirst, Option.map_some, hfirstResult, hfirstKey]

/-- What a batch that may run is promised: a target, and distinct keys. -/
theorem BulkRequest.of_validate {validBatchId : String → Bool} {request : BulkRequest}
    {batchId : String} (h : request.validate validBatchId batchId = .ok ()) :
    request.targets ≠ [] ∧ (request.targets.map PrTarget.key).Nodup := by
  obtain ⟨-, -, hne, -, hnodup⟩ := validateBatch_eq_ok.1 h
  exact ⟨fun hnil => hne (by rw [hnil, List.map_nil]), hnodup⟩

/-- **Driven undisturbed, every target is at its own result.** -/
theorem shows_results {request : BulkRequest} {batchId : String}
    (hnodup : (request.targets.map PrTarget.key).Nodup) {es : List (Exchange BulkEffects)}
    {progress : BatchProgress} {order : List PrTarget} (horder : order.Perm request.targets)
    (hdriven : Driven (.queued batchId request.action request.targets)
      (order.map fun target => (request.action, target)) es (.ok progress))
    (hes : ∀ e ∈ es, Undisturbed results e) :
    progress.targets = request.targets.map fun target =>
      ⟨target, .ofOutcome (verdictOf (results target.key))⟩ := by
  obtain ⟨states, hshows, hstates⟩ := hdriven.follows.moves.settles request.targets _ hnodup
    (BatchProgress.shows_queued batchId request.action request.targets)
  have hlog : ∀ landing ∈ es.flatMap landed, landing.2 = results landing.1 := by
    intro landing hlanding
    obtain ⟨e, he, hmem⟩ := List.mem_flatMap.1 hlanding
    exact (hes e he).landed hmem
  have hsent := hdriven.sends progress rfl
  refine Eq.trans hshows (List.map_congr_left fun target htarget => ?_)
  have hsending : (request.action, target) ∈ es.flatMap sent := by
    rw [hsent]
    exact List.mem_map_of_mem (horder.mem_iff.2 htarget)
  obtain ⟨e, he, hmem⟩ := List.mem_flatMap.1 hsending
  obtain ⟨landing, hlanding, hsame⟩ := (hes e he).lands hmem
  have hverdict := verdictIn_eq hlog ⟨landing, List.mem_flatMap.2 ⟨e, he, hlanding⟩, hsame⟩
  have hstate := hstates target.key
  rw [hverdict] at hstate
  rw [TargetProgressState.eq_ofOutcome hstate]

/-- **A batch acts on every target once and records what happened.** Of a
request that may run, with any result for each target and any landing order
in which each place of a round lands once, no effect but the listing failing:
the action is sent for each target exactly once; the workflow ends with a
completed progress, each target at its own result; it writes one record, that
progress's, stamped by the two readings of the clock; it never takes the
batch off the list; and of what it publishes each progress keeps the verdicts
of those before it and has no fewer settled. -/
theorem batch_recorded_as_it_went {validBatchId : String → Bool} {batchId : String}
    {installationId : ℕ} {request : BulkRequest}
    {results : PrKey → Except String ActionOutcome} {es : List (Exchange BulkEffects)}
    {r : Except HandlerError BatchProgress}
    (hvalid : request.validate validBatchId batchId = .ok ())
    (hrun : (runBulkAction batchId installationId request).Exchanges es r)
    (hes : ∀ e ∈ es, Undisturbed results e) :
    ∃ progress startedAt completedAt, r = .ok progress ∧
      (es.flatMap sent).Perm (request.targets.map fun target => (request.action, target)) ∧
      progress.completed = true ∧
      progress.targets = request.targets.map (fun target =>
        ⟨target, .ofOutcome (verdictOf (results target.key))⟩) ∧
      progress.Tallied ∧
      es.flatMap clocks = [("batch-start-clock", .ok startedAt),
        ("batch-finish-clock", .ok completedAt)] ∧
      es.flatMap recorded = [({
        batchId := batchId
        installationId := installationId
        action := request.action
        requestedBy := request.userId
        retriedFrom := request.retriedFrom
        startedAt := startedAt
        completedAt := completedAt
        succeeded := progress.succeeded
        rejected := progress.rejected
        failed := progress.failed
        targets := request.targets.map fun target =>
          target.recorded (verdictOf (results target.key)) }, .ok ())] ∧
      es.flatMap unlisted = [] ∧
      (es.flatMap published).getLast? = some progress ∧
      (es.flatMap published).Pairwise BatchProgress.Advances := by
  obtain ⟨hne, hnodup⟩ := request.of_validate hvalid
  rcases runBulkAction_exchanges.1 hrun with
    ⟨error, rfl, -⟩ | ⟨startedAt, listed, driven, body, last, rfl, hdrive, hcleaned⟩
  · obtain ⟨reading, hreading⟩ := hes _ List.mem_cons_self
    cases hreading
  have hbody : ∀ e ∈ body, Undisturbed results e := fun e he => hes e (by simp [he])
  rcases drive_cases hdrive with
    ⟨failure, rfl, hfail⟩ | ⟨progress, first, tail, rfl, hfirst, hfinished⟩
  · -- a failure would be an exchange that failed
    obtain ⟨order, -, hdriven⟩ := driven_driveTargets hfail
    obtain ⟨e, he, hfails⟩ := hdriven.fails failure rfl
    exact absurd hfails (hbody e he).not_fails
  obtain ⟨order, horder, hdriven⟩ := driven_driveTargets hfirst
  have hstates := shows_results hnodup horder hdriven fun e he =>
    hbody e (List.mem_append_left tail he)
  have hmoves := hdriven.follows.moves
  have htallied : progress.Tallied := hmoves.tallied (.queued batchId request.action _)
  have hcompleted : progress.completed = true := by
    refine (htallied.completed (by simpa [hstates] using hne)).2 fun item hitem => ?_
    rw [hstates] at hitem
    obtain ⟨target, -, rfl⟩ := List.mem_map.1 hitem
    simp
  have hshows : progress.Shows request.targets fun key => .ofOutcome (verdictOf (results key)) :=
    hstates
  have hsettled : ∀ target ∈ request.targets,
      (TargetProgressState.ofOutcome (verdictOf (results target.key))).outcome
        = some (verdictOf (results target.key)) :=
    fun target _ => TargetProgressState.outcome_ofOutcome _
  have hrecord := hshows.completedRecord (fun key => verdictOf (results key)) hsettled
    installationId request.userId request.retriedFrom startedAt
  obtain ⟨hheaderId, hheaderAction⟩ := hmoves.header
  obtain ⟨hnoRecord, hnoUnlist, hnoClock⟩ := quiet_of_drives hdriven.drives
  have htail : ∀ e ∈ tail, Undisturbed results e := fun e he =>
    hbody e (List.mem_append_right first he)
  have hlast := hdriven.follows.getLast
  have hpairwise := hdriven.follows.pairwise
  cases hfinished with
  | clockless error =>
    obtain ⟨reading, hreading⟩ := htail _ List.mem_cons_self
    cases hreading
  | incomplete message h =>
    rw [hrecord] at h
    cases h
  | unrecorded error h =>
    have hwritten := htail _ (List.mem_cons_of_mem _ List.mem_cons_self)
    cases hwritten
  | @recorded completedAt record h =>
    rw [hrecord, Option.some_inj] at h
    cases hcleaned
    refine ⟨progress, startedAt, completedAt, rfl, ?_, hcompleted, hstates, htallied, ?_, ?_, ?_,
      ?_, ?_⟩
    · have hsent := hdriven.sends progress rfl
      simp only [List.flatMap_cons, List.flatMap_append, List.flatMap_nil, sent, List.nil_append,
        List.append_nil, hsent]
      exact horder.map _
    · simp [List.flatMap_cons, List.flatMap_append, clocks, hnoClock]
    · have hid : progress.batchId = batchId := hheaderId
      have haction : progress.action = request.action := hheaderAction
      simp only [List.flatMap_cons, List.flatMap_append, List.flatMap_nil, recorded,
        List.nil_append, List.append_nil, hnoRecord, ← h, hid, haction]
    · simp [List.flatMap_cons, List.flatMap_append, unlisted, hnoUnlist]
    · simpa [List.flatMap_cons, List.flatMap_append, published, leftAt] using hlast
    · simpa [List.flatMap_cons, List.flatMap_append, published] using hpairwise

/-- A world in which nothing disturbs a batch but its listing: rounds land
from their last place to their first. -/
def undisturbedAnswer (results : PrKey → Except String ActionOutcome) :
    (call : BulkCall) → call.Answer
  | .now step => .ok step.length
  | .publish _ => ()
  | .startBatch _ => .error (.terminal "the store is away")
  | .round _ targets =>
    ((List.finRange targets.length).reverse.map fun index =>
      (index, results (targets.get index).key), .ok ())
  | .rebase target => results target.key
  | .pause => .ok ()
  | .unlistBatch => .ok ()
  | .recordBatch _ => .ok ()

theorem undisturbed_undisturbedAnswer (results : PrKey → Except String ActionOutcome)
    (call : BulkCall) : Undisturbed results ⟨call, undisturbedAnswer results call⟩ := by
  cases call with
  | now step => exact ⟨_, rfl⟩
  | publish progress => trivial
  | startBatch batch => trivial
  | round kind targets =>
    refine ⟨rfl, ?_, ?_⟩
    · have hplaces : ((undisturbedAnswer results (.round kind targets)).1.map Prod.fst)
          = (List.finRange targets.length).reverse := by
        simp [undisturbedAnswer, List.map_map, Function.comp_def]
      rw [hplaces]
      exact List.reverse_perm _
    · intro landing hlanding
      obtain ⟨index, -, rfl⟩ := List.mem_map.1 hlanding
      rfl
  | rebase target => rfl
  | pause => rfl
  | unlistBatch => trivial
  | recordBatch record => rfl

/-- **Every batch has an undisturbed run**, whatever its targets' results. -/
theorem exists_undisturbed (results : PrKey → Except String ActionOutcome) (batchId : String)
    (installationId : ℕ) (request : BulkRequest) :
    ∃ es r, (runBulkAction batchId installationId request).Exchanges es r ∧
      ∀ e ∈ es, Undisturbed results e := by
  refine ⟨_, _, Prog.exchanges_answered _ (undisturbedAnswer results), fun e he => ?_⟩
  rw [Prog.eq_of_mem_answered he]
  exact undisturbed_undisturbedAnswer results e.1

/-- A batch over two repositories, two of its pull requests in one. -/
def sampleBulk (action : BulkActionKind) : BulkRequest where
  action := action
  targets := [⟨7, "o", "a", 1, "s1", "bump a", "u1"⟩, ⟨7, "o", "a", 2, "s2", "bump b", "u2"⟩,
    ⟨8, "o", "b", 1, "s3", "bump c", "u3"⟩]
  userId := "u"
  retriedFrom := none

/-- The id the batch runs under, a version 7 UUID. -/
def sampleBatchId : String := "0190163d-8694-739b-aea5-966c26f8ad91"

theorem sampleBulk_valid (action : BulkActionKind) :
    (sampleBulk action).validate (fun id => id == sampleBatchId) sampleBatchId = .ok () := by
  cases action <;> decide

/-- One target is done, one refused, one fails. -/
def sampleResults (key : PrKey) : Except String ActionOutcome :=
  if key = ⟨7, 1⟩ then .ok (.succeeded "merged" (some "c1"))
  else if key = ⟨7, 2⟩ then .ok (.rejected .notMergeable)
  else .error "the call failed"

theorem batch_recorded_as_it_went_sample : ∃ es progress,
    (runBulkAction sampleBatchId 5 (sampleBulk .merge)).Exchanges es (.ok progress) ∧
      progress.completed = true ∧ es.flatMap unlisted = [] := by
  obtain ⟨es, r, hrun, hes⟩ := exists_undisturbed sampleResults sampleBatchId 5 (sampleBulk .merge)
  obtain ⟨progress, -, -, rfl, -, hcompleted, -, -, -, -, hunlisted, -, -⟩ :=
    batch_recorded_as_it_went (sampleBulk_valid .merge) hrun hes
  exact ⟨es, progress, hrun, hcompleted, hunlisted⟩

end Dependaboard
