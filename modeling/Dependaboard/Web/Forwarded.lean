import Dependaboard.Durable.Exchange
import Dependaboard.Service.BulkAction
import Dependaboard.Store.Keyed
import Dependaboard.Web.Api
import Dependaboard.Dashboard.Pages
/-!
# Web — what is forwarded is run

The rows come back in the keys' places, so the loop over the submitted
targets splits them by whether they have one, and keeps the order of both
halves. A row stands under its own key, so the keys forwarded are among those
submitted: as few, as distinct, and under the same id, which is all the
workflow asks of them. `submission_refused_or_run` is the whole of it.
-/

namespace Dependaboard

open Durable Prog Relational ProjectionReader

/-! ## What the projection holds -/

namespace Store

variable {store : Store} {installationId : ℕ} {key : PrKey}

/-- A row given for a key is the row under it. -/
theorem row?_of_projected {row : PrRecord} (h : store.projected installationId key = .row row) :
    store.row? key = some row := by
  unfold projected at h
  cases hrow : store.row? key with
  | none => simp [hrow] at h
  | some found =>
    simp only [hrow] at h
    split at h
    · rw [ProjectedPr.row.inj h]
    · cases h

theorem projected_eq_absent :
    store.projected installationId key = .absent ↔ store.row? key = none := by
  unfold projected
  cases hrow : store.row? key with
  | none => simp
  | some row =>
    refine iff_of_false (fun h => ?_) (Option.some_ne_none row)
    dsimp only at h
    split at h <;> cases h

/-- **A key that is not another installation's** is its row's, or has
none. -/
theorem projected_of_ne_foreign (h : store.projected installationId key ≠ .foreign) :
    store.projected installationId key = (store.row? key).elim .absent .row := by
  cases hheld : store.projected installationId key with
  | row row => rw [row?_of_projected hheld]; rfl
  | absent => rw [projected_eq_absent.1 hheld]; rfl
  | foreign => exact absurd hheld h

end Store

/-! ## The resolution -/

section Resolution

variable {store : Store} {installationId : ℕ}

/-- **The rows of the keys**, in their places, unless one is another
installation's: the first that is refuses them all. -/
theorem projectedPrs_getPrs (store : Store) (installationId : ℕ) (keys : List PrKey) :
    projectedPrs keys (.ok (getPrs store installationId keys))
      = match keys.find? fun key => store.projected installationId key = .foreign with
        | some key => .error (.invalidRequest (.foreignInstallation key))
        | none => .ok (keys.map store.row?) := by
  rw [getPrs_eq, projectedPrs, ← List.map_prod_right_eq_zip, List.mapM_map]
  induction keys with
  | nil => rfl
  | cons key rest ih =>
    rw [List.mapM_cons, ih, List.find?_cons, Function.comp_apply]
    by_cases hforeign : store.projected installationId key = .foreign
    · simp only [hforeign, decide_true]
      rfl
    · have hrow : heldToTheInstallation key (store.projected installationId key)
          = .ok (store.row? key) := by
        rw [store.projected_of_ne_foreign hforeign]
        cases store.row? key <;> rfl
      simp only [hforeign, decide_false, hrow, Except.ok_bind]
      cases rest.find? fun key => store.projected installationId key = .foreign <;> rfl

/-- **The loop splits the targets by whether they have a row**, each half in
the order it was submitted. -/
theorem resolveTargets_eq (rowOf : SubmittedTarget → Option PrRecord)
    (targets : List SubmittedTarget) : resolveTargets targets (targets.map rowOf)
      = (targets.filterMap fun target => (rowOf target).map target.resolved,
        (targets.filter fun target => (rowOf target).isNone).map SubmittedTarget.key) := by
  have hloop (resolved : List PrTarget) (leftOut : List PrKey) :
      (targets.zip (targets.map rowOf)).foldl resolveTarget (resolved, leftOut)
        = (resolved ++ targets.filterMap fun target => (rowOf target).map target.resolved,
          leftOut ++ (targets.filter fun target => (rowOf target).isNone).map
            SubmittedTarget.key) := by
    induction targets generalizing resolved leftOut with
    | nil => simp
    | cons target rest ih =>
      rw [List.map_cons, List.zip_cons_cons, List.foldl_cons]
      cases hrow : rowOf target <;> simp [resolveTarget, ih, hrow]
  exact hloop [] []

/-- A target resolved is the row's pull request. -/
theorem key_resolved {target : SubmittedTarget} {row : PrRecord}
    (h : store.row? target.key = some row) : (target.resolved row).key = target.key :=
  (Table.find?_eq_some.1 h).2

/-- The keys resolved are the keys with a row. -/
theorem map_key_resolved (store : Store) (targets : List SubmittedTarget) :
    (targets.filterMap fun target => (store.row? target.key).map target.resolved).map PrTarget.key
      = (targets.map SubmittedTarget.key).filter fun key => (store.row? key).isSome := by
  induction targets with
  | nil => rfl
  | cons target rest ih =>
    cases hrow : store.row? target.key with
    | none => simp [hrow, ih]
    | some row => simp [hrow, ih, key_resolved hrow]

end Resolution

/-! ## The submission -/

/-- A read that is answered is answered with what the projection holds. -/
def ReadsFrom (store : Store) : Exchange SubmitEffects → Prop
  | ⟨.getPrs installationId keys, .ok projected⟩ =>
    projected = getPrs store installationId keys
  | _ => True

/-- What is forwarded: a request, and the batch it is to run as. -/
def forwarded (es : List (Exchange SubmitEffects)) : List (String × BulkRequest) :=
  es.filterMap fun
    | ⟨.runBatch batchId request, _⟩ => some (batchId, request)
    | ⟨.getPrs _ _, _⟩ => none

/-- Why a submission of some keys may be refused. -/
inductive Refusal (validBatchId : String → Bool) (store : Store) (installationId : ℕ)
    (batchId : String) (retriedFrom : Option String) (keys : List PrKey)
    (es : List (Exchange SubmitEffects)) : ApiError → Prop
  | invalid {invalid} : validateBatch validBatchId batchId retriedFrom keys = .error invalid →
      Refusal validBatchId store installationId batchId retriedFrom keys es
        (.invalidRequest (.batch invalid))
  /-- The first key of another installation's. -/
  | foreign {key} :
      keys.find? (fun key => store.projected installationId key = .foreign) = some key →
      Refusal validBatchId store installationId batchId retriedFrom keys es
        (.invalidRequest (.foreignInstallation key))
  | nothingLeft : (∀ key ∈ keys, store.row? key = none) →
      Refusal validBatchId store installationId batchId retriedFrom keys es
        (.invalidRequest (.nothingLeftToRun keys.length))
  /-- The projection could not be read. -/
  | unread {error} : ⟨.getPrs installationId keys, .error error⟩ ∈ es →
      Refusal validBatchId store installationId batchId retriedFrom keys es (.ofStore error)

/-- **What a batch carries of a submission**: the keys with a row, the others
left out, both as they were submitted, and each target as its row has it
against the head the browser saw. -/
structure Resolves (store : Store) (installationId : ℕ) (targets : List SubmittedTarget)
    (carried : List PrTarget) (leftOut : List PrKey) : Prop where
  own : ∀ key ∈ targets.map SubmittedTarget.key, store.projected installationId key ≠ .foreign
  partition : (carried.map PrTarget.key ++ leftOut).Perm (targets.map SubmittedTarget.key)
  carried_eq : carried.map PrTarget.key
    = (targets.map SubmittedTarget.key).filter fun key => (store.row? key).isSome
  leftOut_eq : leftOut
    = (targets.map SubmittedTarget.key).filter fun key => (store.row? key).isNone
  resolved : ∀ target ∈ carried, ∃ submitted ∈ targets, ∃ row,
    store.projected installationId submitted.key = .row row ∧
      target.key = submitted.key ∧ target.expectedSha = submitted.expectedSha ∧
      target.owner = row.owner ∧ target.repo = row.repo ∧ target.title = row.title ∧
      target.htmlUrl = row.htmlUrl

section Submission

variable {validBatchId : String → Bool} {store : Store} {installationId : ℕ}
  {user batchId : String} {action : BulkActionKind} {targets : List SubmittedTarget}
  {retriedFrom : Option String}

theorem resolves_resolveTargets (hown : ∀ key ∈ targets.map SubmittedTarget.key,
      store.projected installationId key ≠ .foreign) :
    Resolves store installationId targets
      (targets.filterMap fun target => (store.row? target.key).map target.resolved)
      ((targets.filter fun target => (store.row? target.key).isNone).map SubmittedTarget.key) where
  own := hown
  partition := by
    rw [map_key_resolved, List.filter_map, ← List.map_append]
    refine List.Perm.map _ ?_
    have hsplit := List.filter_append_perm (fun target => (store.row? target.key).isSome) targets
    simpa [Function.comp_def] using hsplit
  carried_eq := map_key_resolved store targets
  leftOut_eq := by rw [List.filter_map]; rfl
  resolved target htarget := by
    obtain ⟨submitted, hsubmitted, hresolved⟩ := List.mem_filterMap.1 htarget
    obtain ⟨row, hrow, rfl⟩ := Option.map_eq_some_iff.1 hresolved
    refine ⟨submitted, hsubmitted, row, ?_, key_resolved hrow, rfl, rfl, rfl, rfl, rfl⟩
    rw [store.projected_of_ne_foreign (hown _ (List.mem_map_of_mem hsubmitted)), hrow]
    rfl

/-- **Some of a valid batch's keys are a valid batch**, in any order they
keep. -/
theorem validateBatch_filter {keys : List PrKey} {p : PrKey → Bool}
    (h : validateBatch validBatchId batchId retriedFrom keys = .ok ()) (hne : keys.filter p ≠ []) :
    validateBatch validBatchId batchId retriedFrom (keys.filter p) = .ok () := by
  obtain ⟨hid, hretried, -, hcount, hnodup⟩ := validateBatch_eq_ok.1 h
  exact validateBatch_eq_ok.2 ⟨hid, hretried, hne,
    (List.length_filter_le p keys).trans hcount, hnodup.filter p⟩

/-- A batch is forwarded once, and its receipt names those left out. -/
theorem exchanges_forwardBatch {request : BulkRequest} {leftOut : List PrKey}
    {es : List (Exchange SubmitEffects)} {r : Except ApiError BatchReceipt}
    (h : (forwardBatch batchId request leftOut).Exchanges es r) :
    forwarded es = [(batchId, request)] ∧ ∀ receipt, r = .ok receipt → receipt = ⟨leftOut⟩ := by
  obtain ⟨answer, rest, rfl, hrest⟩ := exchanges_ask.1 h
  cases answer with
  | error error =>
    obtain ⟨rfl, rfl⟩ := exchanges_fail.1 hrest
    exact ⟨rfl, fun receipt hr => by cases hr⟩
  | ok _ =>
    obtain ⟨rfl, rfl⟩ := exchanges_done.1 hrest
    exact ⟨rfl, fun receipt hr => (Except.ok.inj hr).symm⟩

/-- **What the edge forwards, the workflow runs.** A submission is refused
and nothing of it forwarded, for what is wrong with it or because the
projection could not be read; or one request is forwarded, of the submitted
keys that have a row, and the workflow takes it under the same id. -/
theorem submission_refused_or_run {es : List (Exchange SubmitEffects)}
    {r : Except ApiError BatchReceipt}
    (h : (submitBatchIn validBatchId installationId user batchId action targets
      retriedFrom).Exchanges es r)
    (hreads : ∀ e ∈ es, ReadsFrom store e) :
    (forwarded es = [] ∧ ∃ error, r = .error error ∧
      Refusal validBatchId store installationId batchId retriedFrom
        (targets.map SubmittedTarget.key) es error) ∨
    ∃ request leftOut, forwarded es = [(batchId, request)] ∧
      validateBatch validBatchId batchId retriedFrom (targets.map SubmittedTarget.key) = .ok () ∧
      Resolves store installationId targets request.targets leftOut ∧
      request.action = action ∧ request.userId = user ∧ request.retriedFrom = retriedFrom ∧
      request.validate validBatchId batchId = .ok () ∧
      (∀ installationId, BulkAction.run validBatchId batchId installationId request
        = runBulkAction batchId installationId request) ∧
      ∀ receipt, r = .ok receipt → receipt = ⟨leftOut⟩ := by
  -- one refusal for each check, in the order the edge makes them
  dsimp only [submitBatchIn] at h
  cases hvalid : validateBatch validBatchId batchId retriedFrom
      (targets.map SubmittedTarget.key) with
  | error invalid =>
    rw [hvalid] at h
    obtain ⟨rfl, rfl⟩ := exchanges_fail.1 h
    exact .inl ⟨rfl, _, rfl, .invalid hvalid⟩
  | ok _ =>
    rw [hvalid] at h
    obtain ⟨answer, rest, rfl, hrest⟩ := exchanges_ask.1 h
    cases answer with
    | error error =>
      obtain ⟨rfl, rfl⟩ := exchanges_fail.1 hrest
      exact .inl ⟨rfl, _, rfl, .unread List.mem_cons_self⟩
    | ok projected =>
      obtain rfl : projected = getPrs store installationId _ :=
        hreads _ List.mem_cons_self
      rw [projectedPrs_getPrs] at hrest
      cases hforeign : (targets.map SubmittedTarget.key).find? fun key =>
          store.projected installationId key = .foreign with
      | some key =>
        rw [hforeign] at hrest
        obtain ⟨rfl, rfl⟩ := exchanges_fail.1 hrest
        exact .inl ⟨rfl, _, rfl, .foreign hforeign⟩
      | none =>
        have hown : ∀ key ∈ targets.map SubmittedTarget.key,
            store.projected installationId key ≠ .foreign := by
          simpa using List.find?_eq_none.1 hforeign
        have hresolves := resolves_resolveTargets hown
        rw [hforeign] at hrest
        simp only [List.map_map, Function.comp_def, resolveTargets_eq] at hrest
        split at hrest
        · rename_i hnone
          obtain ⟨rfl, rfl⟩ := exchanges_fail.1 hrest
          refine .inl ⟨rfl, _, rfl, ?_⟩
          have hleft : ∀ key ∈ targets.map SubmittedTarget.key, store.row? key = none := by
            rw [List.forall_mem_map]
            exact fun target htarget =>
              Option.map_eq_none_iff.1 (List.filterMap_eq_nil_iff.1 hnone target htarget)
          rw [← List.length_map SubmittedTarget.key]
          exact .nothingLeft hleft
        · rename_i hsome
          obtain ⟨hforwarded, hreceipt⟩ := exchanges_forwardBatch hrest
          -- leaving keys out keeps a valid batch valid, as long as some key is left
          have hrun : validateBatch validBatchId batchId retriedFrom
              ((targets.filterMap fun target =>
                (store.row? target.key).map target.resolved).map PrTarget.key) = .ok () := by
            rw [map_key_resolved]
            refine validateBatch_filter hvalid fun hnone => hsome ?_
            rw [← map_key_resolved] at hnone
            exact List.map_eq_nil_iff.1 hnone
          refine .inr ⟨_, _, hforwarded, rfl, hresolves, rfl, rfl, rfl, hrun, fun installationId => ?_,
            hreceipt⟩
          rw [BulkAction.run, BulkRequest.validate, hrun]

end Submission

/-! ## A sample -/

/-- Three pull requests, the second no longer in the projection. -/
def sampleSubmission : List SubmittedTarget :=
  [⟨1, 3, "abc123"⟩, ⟨1, 4, "def456"⟩, ⟨1, 9, "fed321"⟩]

/-- Its submission as a merge, taken. -/
def sampleForwarding : List (Exchange SubmitEffects) :=
  [⟨.getPrs 9 [⟨1, 3⟩, ⟨1, 4⟩, ⟨1, 9⟩], .ok [.row (samplePr 3 30), .absent, .row (samplePr 9 20)]⟩,
    ⟨.runBatch "batch-1" ⟨.merge, [⟨1, "acme", "api", 3, "abc123",
        "Bump serde from 1.0.0 to 1.1.0", "https://github.com/acme/api/pull/1"⟩,
      ⟨1, "acme", "api", 9, "fed321", "Bump serde from 1.0.0 to 1.1.0",
        "https://github.com/acme/api/pull/1"⟩], "dashboard", none⟩, .ok ()⟩]

theorem readsFrom_sampleForwarding : ∀ e ∈ sampleForwarding, ReadsFrom sampleProjection e := by
  refine List.forall_mem_cons.2 ⟨?_, List.forall_mem_singleton.2 trivial⟩
  show _ = _
  rw [getPrs_eq]
  decide

theorem submission_refused_or_run_sample : ∃ request leftOut,
    forwarded sampleForwarding = [("batch-1", request)] ∧
      Resolves sampleProjection 9 sampleSubmission request.targets leftOut := by
  have hrun : (submitBatchIn (fun id => id == "batch-1") 9 "dashboard" "batch-1" .merge
      sampleSubmission none).Exchanges sampleForwarding (.ok ⟨[⟨1, 4⟩]⟩) := .ask (.ask (.done _))
  rcases submission_refused_or_run hrun readsFrom_sampleForwarding with
    ⟨hnone, -⟩ | ⟨request, leftOut, hforwarded, -, hresolves, -⟩
  · cases hnone
  · exact ⟨request, leftOut, hforwarded, hresolves⟩

end Dependaboard
