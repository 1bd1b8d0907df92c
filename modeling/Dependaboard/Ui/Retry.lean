import Dependaboard.Durable.Gather
import Dependaboard.Ui.PrSync
/-!
# Ui — the retry of what a batch rejected

The targets a batch rejected are refreshed all at once, those a fresh attempt
can cure, and sorted into the rows to submit again and the targets left out.
A refusal of the credentials gives the retry up; otherwise what becomes of
each target is settled by the answers, whatever order they land in:
`refreshRejected_retried`.
-/

namespace Dependaboard

open Durable

namespace Ui

/-! ## What is left out, and why -/

/-- Why a target is not in the retry, or the batch. -/
inductive LeftOutReason where
  /-- The pull request was closed or merged. -/
  | noLongerOpen
  /-- The rejection was over the configuration, not the head. -/
  | wouldBeRejectedAgain (reason : RejectReason)
  /-- The refresh itself failed. -/
  | couldNotRefresh (error : String)
  deriving DecidableEq, Repr

/-- A target a retry, or a batch, does not carry. -/
structure LeftOut where
  target : PrTarget
  why : LeftOutReason
  deriving DecidableEq, Repr

/-- A pull request that has left the projection needs no reason of its own. -/
def LeftOut.noLongerOpen (target : PrTarget) : LeftOut := ⟨target, .noLongerOpen⟩

/-- Whether a fresh attempt can cure the rejection. -/
def worthRetrying : RejectReason → Bool
  | .staleSha _ _ | .notMergeable => true
  | .forbidden | .mergeMethodDisallowed | .notFound | .noUserToken => false

/-- Whether there is anything for a retry to take. -/
def canRetry (progress : BatchProgress) : Bool :=
  progress.completed && progress.rejectedTargets.any fun (_, reason) => worthRetrying reason

/-- The target left out unrefreshed, if it is. -/
def leftOutUnasked : PrTarget × RejectReason → Option LeftOut
  | (target, reason) =>
    if reason = .notFound then some (.noLongerOpen target)
    else if !worthRetrying reason then some ⟨target, .wouldBeRejectedAgain reason⟩
    else none

/-- The targets to refresh, in batch order. -/
def toRefresh (progress : BatchProgress) : List PrTarget :=
  (progress.rejectedTargets.filter fun rejected => (leftOutUnasked rejected).isNone).map Prod.fst

/-! ## The refreshes -/

/-- How a refresh is answered: the row read back, that it is gone, or why it
failed. -/
abbrev RefreshAnswer : Type := Except SyncFailure (Option PrRecord)

namespace RefreshAnswer

/-- The credentials were refused. -/
def signedOut : RefreshAnswer → Bool
  | .error failure => failure.signedOut
  | .ok _ => false

/-- The row to submit again. -/
def row? : RefreshAnswer → Option PrRecord
  | .ok row => row
  | .error _ => none

/-- Why there is none. -/
def why? : RefreshAnswer → Option LeftOutReason
  | .ok (some _) => none
  | .ok none => some .noLongerOpen
  | .error failure => some (.couldNotRefresh (toString failure))

end RefreshAnswer

/-- The retry was given up: the credentials of a refresh were refused. -/
inductive SignedOut where
  | signedOut
  deriving DecidableEq, Repr

/-- The rejected targets of a batch once they have been refreshed. -/
structure Refreshed where
  batchId : String
  action : BulkActionKind
  /-- Those to submit, at their current heads. -/
  rows : List PrRecord
  leftOut : List LeftOut
  deriving DecidableEq, Repr

/-- The target of a row, at its head. -/
def prTarget (row : PrRecord) : PrTarget where
  repositoryId := row.repositoryId
  owner := row.owner
  repo := row.repo
  number := row.number
  expectedSha := row.headSha
  title := row.title
  htmlUrl := row.htmlUrl

/-- A bulk action to be submitted. -/
structure PendingAction where
  action : BulkActionKind
  rows : List PrRecord
  /-- The batch whose rejected targets these are. -/
  retriedFrom : Option String
  deriving DecidableEq, Repr

/-- What a confirmed action is submitted for, each row under the head on
screen. -/
def PendingAction.targets (pending : PendingAction) : List PrTarget := pending.rows.map prTarget

/-- The batch to queue, if any row is left. -/
def Refreshed.retry (refreshed : Refreshed) : Option PendingAction :=
  if refreshed.rows = [] then none
  else some ⟨refreshed.action, refreshed.rows, some refreshed.batchId⟩

/-- The answers, sorted back into the batch's order and into what they
say. -/
def sortRefreshed (progress : BatchProgress) (answered : List (TaskAnswer PrTarget RefreshAnswer)) :
    Refreshed :=
  let answered := answered.mergeSort fun a b => a.place ≤ b.place
  { batchId := progress.batchId
    action := progress.action
    rows := answered.filterMap fun landed => landed.answer.row?
    leftOut := progress.rejectedTargets.filterMap leftOutUnasked
      ++ answered.filterMap fun landed => landed.answer.why?.map fun why => ⟨landed.task, why⟩ }

/-- **What may come of a retry** whose targets are refreshed all at once, each
answered as `answer` says: those asked, and the result. -/
def RefreshRejected (answer : PrTarget → RefreshAnswer) (progress : BatchProgress)
    (asked : List PrTarget) (result : Except SignedOut Refreshed) : Prop :=
  ∃ gathered, Gathers answer (fun answer => answer.signedOut) (toRefresh progress) asked gathered ∧
    result = match gathered with
      | .error _ => .error .signedOut
      | .ok answered => .ok (sortRefreshed progress answered)

/-! ## What they come to -/

/-- The targets rejected for a head that moved or as not mergeable, in batch
order. -/
def curable (progress : BatchProgress) : List PrTarget :=
  progress.targets.filterMap fun item =>
    match item.state with
    | .rejected (.staleSha _ _) | .rejected .notMergeable => some item.target
    | _ => none

/-- What a target is left out for. -/
def LeftOut.Because (progress : BatchProgress) (answer : PrTarget → RefreshAnswer)
    (left : LeftOut) : Prop :=
  match left.why with
  | .noLongerOpen => (left.target, .notFound) ∈ progress.rejectedTargets ∨
      left.target ∈ curable progress ∧ answer left.target = .ok none
  | .wouldBeRejectedAgain reason => (left.target, reason) ∈ progress.rejectedTargets ∧
      (reason = .forbidden ∨ reason = .mergeMethodDisallowed ∨ reason = .noUserToken)
  | .couldNotRefresh error => left.target ∈ curable progress ∧
      ∃ failure, answer left.target = .error failure ∧ error = toString failure

/-- **The rejected targets, each in one place**: its row to be submitted
again, in batch order, or left out for its own cause. -/
structure Partitioned (progress : BatchProgress) (answer : PrTarget → RefreshAnswer)
    (refreshed : Refreshed) : Prop where
  header : refreshed.batchId = progress.batchId ∧ refreshed.action = progress.action
  rows : refreshed.rows = (curable progress).filterMap fun target => (answer target).row?
  /-- No target is lost, and none is in two places. -/
  whole : ((curable progress).filter (fun target => (answer target).row?.isSome)
      ++ refreshed.leftOut.map LeftOut.target).Perm (progress.rejectedTargets.map Prod.fst)
  distinct : ((progress.rejectedTargets.map Prod.fst).map PrTarget.key).Nodup
  because : ∀ left ∈ refreshed.leftOut, left.Because progress answer

/-- **What a retry of `progress` is.** -/
structure Retried (validBatchId : String → Bool) (progress : BatchProgress)
    (answer : PrTarget → RefreshAnswer) : Prop where
  /-- However the refreshes are driven, there is an end to it. -/
  ends : WellFounded (fun t s => Gather.Step answer (fun answer => answer.signedOut) s t) ∧
    ∀ s, Gather.Reach answer (fun answer => answer.signedOut) (toRefresh progress) s →
      (∃ t, Gather.Step answer (fun answer => answer.signedOut) s t) ∨
        ∃ gathered, Gather.Ends answer (fun answer => answer.signedOut) s gathered
  /-- Only targets a fresh attempt can cure are asked for, in batch order, each
  once; all of them, unless the retry is given up. -/
  asked : ∀ {asked result}, RefreshRejected answer progress asked result →
    asked <+: curable progress ∧ (result ≠ .error .signedOut → asked = curable progress)
  signedOut : ∀ {asked result}, RefreshRejected answer progress asked result →
    (result = .error .signedOut ↔ ∃ target ∈ curable progress, (answer target).signedOut)
  sorted : ∀ {asked refreshed}, RefreshRejected answer progress asked (.ok refreshed) →
    Partitioned progress answer refreshed
  /-- The order the answers land in is nothing to it. -/
  same : ∀ {asked asked' result result'}, RefreshRejected answer progress asked result →
    RefreshRejected answer progress asked' result' → result = result'
  offered : canRetry progress ↔ progress.completed ∧ curable progress ≠ []
  /-- What is queued may run, where each row is of the pull request asked
  for. -/
  valid : (∀ target row, answer target = .ok (some row) → row.key = target.key) →
    ∀ {asked refreshed pending}, RefreshRejected answer progress asked (.ok refreshed) →
      refreshed.retry = some pending → ∀ retryId, validBatchId retryId →
        validateBatch validBatchId retryId pending.retriedFrom
          (pending.targets.map PrTarget.key) = .ok ()

section

variable {progress : BatchProgress} {answer : PrTarget → RefreshAnswer} {asked : List PrTarget}

/-- The targets refreshed are those a fresh attempt can cure. -/
theorem toRefresh_eq (progress : BatchProgress) : toRefresh progress = curable progress := by
  rw [toRefresh, BatchProgress.rejectedTargets, curable, List.filter_filterMap,
    List.map_filterMap]
  refine List.filterMap_congr fun item _ => ?_
  cases item.state with
  | rejected reason => cases reason <;> rfl
  | queued | running | succeeded | failed => rfl

/-- What comes of a retry that is not given up, by the answers alone. -/
def refreshedBy (answer : PrTarget → RefreshAnswer) (progress : BatchProgress) : Refreshed where
  batchId := progress.batchId
  action := progress.action
  rows := (curable progress).filterMap fun target => (answer target).row?
  leftOut := progress.rejectedTargets.filterMap leftOutUnasked
    ++ (curable progress).filterMap fun target => (answer target).why?.map fun why => ⟨target, why⟩

namespace RefreshRejected

/-- The answers sorted back are those of the targets refreshed. -/
theorem eq_refreshedBy {refreshed : Refreshed}
    (h : RefreshRejected answer progress asked (.ok refreshed)) :
    refreshed = refreshedBy answer progress := by
  obtain ⟨gathered, hgathers, hresult⟩ := h
  cases gathered with
  | error stop => cases hresult
  | ok answered =>
    obtain rfl := Except.ok.inj hresult
    rw [sortRefreshed, hgathers.sorted, toRefresh_eq]
    simp only [refreshedBy, filterMap_inPlaces fun _ (answer : RefreshAnswer) => answer.row?,
      filterMap_inPlaces fun target (answer : RefreshAnswer) =>
        answer.why?.map fun why => (⟨target, why⟩ : LeftOut)]

/-- **A retry is given up exactly when the credentials of a refresh were
refused.** -/
theorem signedOut_iff {result : Except SignedOut Refreshed}
    (h : RefreshRejected answer progress asked result) :
    result = .error .signedOut ↔ ∃ target ∈ curable progress, (answer target).signedOut := by
  obtain ⟨gathered, hgathers, rfl⟩ := h
  rw [← toRefresh_eq, ← hgathers.stopped_iff]
  cases gathered <;> simp

theorem asked_eq {result : Except SignedOut Refreshed}
    (h : RefreshRejected answer progress asked result) :
    asked <+: curable progress ∧ (result ≠ .error .signedOut → asked = curable progress) := by
  obtain ⟨gathered, hgathers, rfl⟩ := h
  rw [← toRefresh_eq]
  refine ⟨hgathers.asked_prefix, fun hresult => ?_⟩
  cases gathered with
  | error stop => exact absurd rfl hresult
  | ok answered => exact hgathers.asked_eq

/-- The result is one whatever order the answers land in. -/
theorem same {asked' : List PrTarget} {result result' : Except SignedOut Refreshed}
    (h : RefreshRejected answer progress asked result)
    (h' : RefreshRejected answer progress asked' result') : result = result' := by
  have hiff := h.signedOut_iff.trans h'.signedOut_iff.symm
  cases result with
  | error e => exact (hiff.1 rfl).symm
  | ok refreshed =>
    cases result' with
    | error e => exact hiff.2 rfl
    | ok refreshed' => rw [h.eq_refreshedBy, h'.eq_refreshedBy]

end RefreshRejected

/-! ## Each rejected target in one place -/

/-- What some elements are made into, read back as those elements. -/
theorem map_filterMap_eq {α β γ : Type} {f : α → Option β} {g : β → γ} {k : α → γ}
    (h : ∀ a b, f a = some b → g b = k a) (xs : List α) :
    (xs.filterMap f).map g = (xs.filter fun a => (f a).isSome).map k := by
  induction xs with
  | nil => rfl
  | cons x rest ih =>
    cases hx : f x with
    | none => simp [hx, ih]
    | some b => simp [hx, ih, h x b hx]

theorem leftOutUnasked_target {rejected : PrTarget × RejectReason} {left : LeftOut}
    (h : leftOutUnasked rejected = some left) : left.target = rejected.1 := by
  obtain ⟨target, reason⟩ := rejected
  cases reason <;> cases h <;> rfl

/-- An answer with no row to submit says why, and only such. -/
theorem RefreshAnswer.isSome_why? (answer : RefreshAnswer) :
    answer.why?.isSome = !answer.row?.isSome := by
  cases answer with
  | error failure => rfl
  | ok row => cases row <;> rfl

/-- **No rejected target is lost or in two places.** -/
theorem refreshedBy_whole (answer : PrTarget → RefreshAnswer) (progress : BatchProgress) :
    ((curable progress).filter (fun target => (answer target).row?.isSome)
      ++ (refreshedBy answer progress).leftOut.map LeftOut.target).Perm
        (progress.rejectedTargets.map Prod.fst) := by
  have hunasked : (progress.rejectedTargets.filterMap leftOutUnasked).map LeftOut.target
      = (progress.rejectedTargets.filter fun r => (leftOutUnasked r).isSome).map Prod.fst :=
    map_filterMap_eq (fun _ _ => leftOutUnasked_target) _
  have hanswered : ((curable progress).filterMap fun target =>
        (answer target).why?.map fun why => (⟨target, why⟩ : LeftOut)).map LeftOut.target
      = (curable progress).filter fun target => !(answer target).row?.isSome := by
    rw [map_filterMap_eq (k := id), List.map_id]
    · simp only [Option.isSome_map, RefreshAnswer.isSome_why?]
    · rintro target left h
      obtain ⟨why, -, rfl⟩ := Option.map_eq_some_iff.1 h
      rfl
  have hrejected := (List.filter_append_perm (fun r => (leftOutUnasked r).isNone)
    progress.rejectedTargets).map Prod.fst
  rw [List.map_append, ← toRefresh, toRefresh_eq] at hrejected
  simp only [Option.not_isNone] at hrejected
  rw [refreshedBy, List.map_append, hunasked, hanswered]
  -- the cured come first, then what is left out unasked, then what an answer leaves out
  refine .trans (List.perm_append_comm.append_left _) ?_
  rw [← List.append_assoc]
  exact ((List.filter_append_perm _ _).append_right _).trans hrejected

/-- What is left out is left out for its cause. -/
theorem refreshedBy_because {left : LeftOut}
    (h : left ∈ (refreshedBy answer progress).leftOut) : left.Because progress answer := by
  rcases List.mem_append.1 h with h | h
  · obtain ⟨⟨target, reason⟩, hrejected, hleft⟩ := List.mem_filterMap.1 h
    cases reason <;> cases hleft
    · exact ⟨hrejected, .inr (.inl rfl)⟩
    · exact ⟨hrejected, .inl rfl⟩
    · exact .inl hrejected
    · exact ⟨hrejected, .inr (.inr rfl)⟩
  · obtain ⟨target, hcurable, hleft⟩ := List.mem_filterMap.1 h
    obtain ⟨why, hwhy, rfl⟩ := Option.map_eq_some_iff.1 hleft
    cases hanswer : answer target with
    | error failure =>
      rw [hanswer, RefreshAnswer.why?, Option.some_inj] at hwhy
      exact hwhy ▸ ⟨hcurable, failure, hanswer, rfl⟩
    | ok row =>
      cases row with
      | none =>
        rw [hanswer, RefreshAnswer.why?, Option.some_inj] at hwhy
        exact hwhy ▸ .inr ⟨hcurable, hanswer⟩
      | some row => simp [hanswer, RefreshAnswer.why?] at hwhy

/-- The offer is made of what would be asked for. -/
theorem canRetry_iff (progress : BatchProgress) :
    canRetry progress ↔ progress.completed ∧ curable progress ≠ [] := by
  have hworth : (progress.rejectedTargets.any fun (_, reason) => worthRetrying reason)
      ↔ curable progress ≠ [] := by
    rw [← toRefresh_eq, toRefresh, List.any_eq_true, ne_eq, List.map_eq_nil_iff,
      List.filter_eq_nil_iff]
    push Not
    refine exists_congr fun ⟨target, reason⟩ => and_congr_right fun _ => ?_
    cases reason <;> simp [worthRetrying, leftOutUnasked]
  rw [canRetry, Bool.and_eq_true, hworth]

end

/-! ## The batch queued -/

/-- The targets rejected are some of the batch's, in its order. -/
theorem rejected_sublist (progress : BatchProgress) :
    (progress.rejectedTargets.map Prod.fst).Sublist
      (progress.targets.map TargetProgress.target) := by
  rw [BatchProgress.rejectedTargets, map_filterMap_eq (k := TargetProgress.target)]
  · exact List.filter_sublist.map _
  · rintro ⟨target, state⟩ rejected h
    cases state <;> cases h
    rfl

/-- So are those of the rows to submit. -/
theorem keys_refreshedBy (progress : BatchProgress) {answer : PrTarget → RefreshAnswer}
    (h : ∀ target row, answer target = .ok (some row) → row.key = target.key) :
    ((refreshedBy answer progress).rows.map PrRecord.key).Sublist
      ((progress.targets.map TargetProgress.target).map PrTarget.key) := by
  have hrefreshed : (curable progress).Sublist (progress.rejectedTargets.map Prod.fst) := by
    rw [← toRefresh_eq]
    exact List.filter_sublist.map _
  rw [refreshedBy, map_filterMap_eq (k := PrTarget.key)]
  · exact (List.filter_sublist.trans (hrefreshed.trans (rejected_sublist progress))).map _
  · intro target row hrow
    cases hanswer : answer target with
    | error failure => simp [hanswer, RefreshAnswer.row?] at hrow
    | ok read =>
      rw [hanswer] at hrow
      exact h target row (hanswer.trans (congrArg Except.ok hrow))

/-- **A retry is what the rejections and the answers make it**, in whatever
order the refreshes land: over a batch that may run, however its calls went,
only targets a fresh attempt can cure are asked for, a refusal of the
credentials gives the retry up, and otherwise each rejected target is in one
place and what is queued may run. -/
theorem refreshRejected_retried {validBatchId : String → Bool} {batchId : String}
    {retriedFrom : Option String} {targets : List PrTarget}
    (h : validateBatch validBatchId batchId retriedFrom (targets.map PrTarget.key) = .ok ())
    (action : BulkActionKind) (calls : List ProgressCall) (answer : PrTarget → RefreshAnswer) :
    Retried validBatchId ((BatchProgress.queued batchId action targets).after calls) answer := by
  obtain ⟨hid, -, -, hbound, hnodup⟩ := validateBatch_eq_ok.1 h
  have hbatchId := BatchProgress.batchId_after (.queued batchId action targets) calls
  have hsame := (BatchProgress.accounts_after batchId action targets calls).same
  generalize (BatchProgress.queued batchId action targets).after calls = progress at hbatchId hsame
  subst hsame
  refine ⟨⟨Gather.wellFounded_step .., fun s _ => s.step_or_ends ..⟩, RefreshRejected.asked_eq,
    RefreshRejected.signedOut_iff, ?_, RefreshRejected.same, canRetry_iff progress, ?_⟩
  · rintro asked refreshed hrefreshed
    obtain rfl := hrefreshed.eq_refreshedBy
    exact ⟨⟨rfl, rfl⟩, rfl, refreshedBy_whole answer progress,
      hnodup.sublist ((rejected_sublist progress).map _), fun _ => refreshedBy_because⟩
  · rintro hkeys asked refreshed pending hrefreshed hretry retryId hretryId
    obtain rfl := hrefreshed.eq_refreshedBy
    obtain ⟨hrows, hpending⟩ := Option.ite_none_left_eq_some.1 hretry
    obtain rfl := Option.some.inj hpending
    have hsub := keys_refreshedBy progress hkeys
    have heq (pending : PendingAction) : pending.targets.map PrTarget.key
        = pending.rows.map PrRecord.key := List.map_map
    rw [heq]
    refine validateBatch_eq_ok.2 ⟨hretryId, ?_, ?_, ?_, hnodup.sublist hsub⟩
    · rintro _ ⟨⟩
      rw [refreshedBy, hbatchId]
      exact hid
    · rwa [ne_eq, List.map_eq_nil_iff]
    · exact hsub.length_le.trans hbound

/-- Two pull requests of one repository. -/
def retryTargets : List PrTarget :=
  [⟨7, "o", "a", 1, "s1", "bump a", "u1"⟩, ⟨7, "o", "a", 2, "s2", "bump b", "u2"⟩]

/-- The id of a batch over them, a version 7 UUID. -/
def retriedBatchId : String := "0190163d-8694-739b-aea5-966c26f8ad91"

/-- Both rejected as not mergeable. -/
def retryCalls : List ProgressCall :=
  [.record ⟨7, 1⟩ (.rejected .notMergeable), .record ⟨7, 2⟩ (.rejected .notMergeable)]

/-- The batch, both of its targets rejected. -/
def retryProgress : BatchProgress :=
  (BatchProgress.queued retriedBatchId .merge retryTargets).after retryCalls

/-- The first pull request, pushed to since. -/
def retryRow : PrRecord :=
  ⟨"7#1", 7, "o", "a", 1, "bump a", "u1", none, none, none, [], .unknown, "s3", .success, .clean,
    [], 10, 20, 30⟩

/-- The first is read back at its new head; the second is gone. -/
def retryAnswer (target : PrTarget) : RefreshAnswer :=
  .ok (if target.number = 1 then some retryRow else none)

/-- Both are asked, and the second lands first. -/
theorem refreshRejected_retry : ∃ refreshed,
    RefreshRejected retryAnswer retryProgress retryTargets (.ok refreshed) := by
  have hgo (target : PrTarget) : ¬ (retryAnswer target).signedOut := Bool.false_ne_true
  have hasked : Gather.Reach retryAnswer (fun answer => answer.signedOut) (toRefresh retryProgress)
      ⟨[], retryTargets, retryTargets.zipIdx, []⟩ :=
    .tail (.tail .refl (show Gather.Step _ _ (Gather.start retryTargets) _ from .ask)) .ask
  have hsecond := hasked.tail (@Gather.Step.land _ _ _ _ (retryTargets[1], 1) [] [(retryTargets[0], 0)]
    [] _ _ (hgo _))
  have hfirst := hsecond.tail (@Gather.Step.land _ _ _ _ (retryTargets[0], 0) [] [] [] _ _ (hgo _))
  exact ⟨_, _, ⟨_, hfirst, rfl, .landed⟩, rfl⟩

/-- The first is queued again at its new head, the second left out. -/
theorem refreshRejected_retried_sample : ∃ refreshed,
    RefreshRejected retryAnswer retryProgress retryTargets (.ok refreshed) ∧
      Partitioned retryProgress retryAnswer refreshed ∧ refreshed.rows = [retryRow] ∧
      refreshed.leftOut.map LeftOut.target = [retryTargets[1]] := by
  have h : validateBatch (fun id => id == retriedBatchId) retriedBatchId none
      (retryTargets.map PrTarget.key) = .ok () := by decide
  have hretried : Retried (fun id => id == retriedBatchId) retryProgress retryAnswer :=
    refreshRejected_retried h .merge retryCalls retryAnswer
  obtain ⟨refreshed, hrefreshed⟩ := refreshRejected_retry
  have hpartitioned := hretried.sorted hrefreshed
  refine ⟨refreshed, hrefreshed, hpartitioned, hpartitioned.rows.trans (by decide), ?_⟩
  rw [hrefreshed.eq_refreshedBy]
  decide

/-- **A retry refused at its first target asks for no other.** -/
theorem refreshRejected_refused_first :
    validateBatch (fun id => id == retriedBatchId) retriedBatchId none
        (retryTargets.map PrTarget.key) = .ok () ∧
      ∃ asked, RefreshRejected (fun _ => .error (.notQueued .signedOut))
          ((BatchProgress.queued retriedBatchId .merge retryTargets).after retryCalls)
          asked (.error .signedOut) ∧
        asked ≠ curable ((BatchProgress.queued retriedBatchId .merge retryTargets).after
          retryCalls) := by
  refine ⟨by decide, [⟨7, "o", "a", 1, "s1", "bump a", "u1"⟩], ?_, by decide⟩
  refine ⟨.error (.error (.notQueued .signedOut)), ⟨_, .single .ask, rfl, ?_⟩, rfl⟩
  exact .stopped List.mem_cons_self rfl

end Ui

end Dependaboard
