import Mathlib.Data.List.Forall2
import Mathlib.Data.List.Pairwise
import Dependaboard.Core.Requests
/-!
# Dependaboard — bulk requests, and where a batch stands

A bulk request names the pull requests one action is for. Its progress holds
a state for each of them and a tally beside the states; a verdict is final,
and the tally is moved only with the state it counts. `Tallied` is that the
tally counts the states, `Advances` that what was settled stays settled as it
was, and `Shows` reads a progress over distinct keys as a function from keys
to states, which is how a batch is reasoned about once its keys are known to
differ.
-/

namespace Dependaboard

/-- The most pull requests one batch takes. -/
def maxBatchTargets : ℕ := 100

/-- What a batch does to each of its pull requests. -/
inductive BulkActionKind where
  | merge
  | rebase
  | updateBranch
  deriving DecidableEq, Repr

/-- The form the store keeps, with a space where the wire has an underscore. -/
instance : ToString BulkActionKind where
  toString
    | .merge => "merge"
    | .rebase => "rebase"
    | .updateBranch => "update branch"

/-- An action read back from its stored form. -/
def BulkActionKind.fromStr (value : String) : Option BulkActionKind :=
  match value with
  | "merge" => some .merge
  | "rebase" => some .rebase
  | "update branch" => some .updateBranch
  | _ => none

@[simp] theorem BulkActionKind.fromStr_toString (action : BulkActionKind) :
    fromStr (toString action) = some action := by
  cases action <;> rfl

/-- What is asked of `BulkAction.run`: one action on every target, each under
the head it was picked at. -/
structure BulkRequest where
  action : BulkActionKind
  targets : List PrTarget
  userId : String
  /-- The batch this one retries the rejected targets of. -/
  retriedFrom : Option String
  deriving DecidableEq, Repr

/-- Why a batch request cannot run. -/
inductive InvalidBatch where
  | batchId
  | retriedFrom
  | targetCount
  | duplicateTargets
  deriving DecidableEq, Repr

instance : ToString InvalidBatch where
  toString
    | .batchId => "batch id must be a UUIDv7"
    | .retriedFrom => "the batch retried must be named by a UUIDv7"
    | .targetCount =>
      "batch must contain between 1 and " ++ toString maxBatchTargets ++ " targets"
    | .duplicateTargets => "batch contains duplicate pull requests"

/-- Whether pull requests `keys` may run as batch `batchId`, `validBatchId`
saying which texts are a version 7 UUID. -/
def validateBatch (validBatchId : String → Bool) (batchId : String) (retriedFrom : Option String)
    (keys : List PrKey) : Except InvalidBatch Unit :=
  if ¬ validBatchId batchId then .error .batchId
  else if retriedFrom.any fun retried => !validBatchId retried then .error .retriedFrom
  else if keys = [] ∨ maxBatchTargets < keys.length then .error .targetCount
  else if ¬ keys.Nodup then .error .duplicateTargets
  else .ok ()

/-- Whether the request may run as batch `batchId`. -/
def BulkRequest.validate (validBatchId : String → Bool) (request : BulkRequest)
    (batchId : String) : Except InvalidBatch Unit :=
  validateBatch validBatchId batchId request.retriedFrom (request.targets.map PrTarget.key)

/-- **What a batch that may run is**: its ids are well formed, its targets
within the bound and no two of one pull request. -/
theorem validateBatch_eq_ok {validBatchId : String → Bool} {batchId : String}
    {retriedFrom : Option String} {keys : List PrKey} :
    validateBatch validBatchId batchId retriedFrom keys = .ok () ↔
      validBatchId batchId ∧ (∀ retried ∈ retriedFrom, validBatchId retried) ∧
        keys ≠ [] ∧ keys.length ≤ maxBatchTargets ∧ keys.Nodup := by
  unfold validateBatch
  by_cases hid : validBatchId batchId
  case neg => simp [hid]
  by_cases hretried : retriedFrom.any fun retried => !validBatchId retried
  case pos => cases retriedFrom <;> simp_all
  by_cases hcount : keys = [] ∨ maxBatchTargets < keys.length
  case pos =>
    rw [if_neg (by simpa using hid), if_neg hretried, if_pos hcount]
    constructor
    · nofun
    · rintro ⟨-, -, hne, hle, -⟩
      rcases hcount with h | h
      · exact absurd h hne
      · omega
  rw [if_neg (by simpa using hid), if_neg hretried, if_neg hcount]
  have hany : ∀ retried, retriedFrom = some retried → validBatchId retried = true := by
    cases retriedFrom <;> simp_all
  rw [not_or, Nat.not_lt] at hcount
  by_cases hnodup : keys.Nodup
  · simpa [hnodup, hid, hcount] using hany
  · simp [hnodup]

/-! ## Verdicts -/

/-- How one target's action ended, for good. -/
inductive TargetOutcome where
  | succeeded (detail : String) (mergeSha : Option String)
  | rejected (reason : RejectReason)
  | failed (detail : String)
  deriving DecidableEq, Repr

/-- Where one target stands: on its way, or at its verdict. -/
inductive TargetProgressState where
  | queued
  | running
  | succeeded (detail : String) (mergeSha : Option String)
  | rejected (reason : RejectReason)
  | failed (detail : String)
  deriving DecidableEq, Repr

namespace TargetProgressState

/-- The verdict the state is, if it is one. -/
def outcome : TargetProgressState → Option TargetOutcome
  | queued | running => none
  | succeeded detail mergeSha => some (.succeeded detail mergeSha)
  | rejected reason => some (.rejected reason)
  | failed detail => some (.failed detail)

/-- The state a verdict is. -/
def ofOutcome : TargetOutcome → TargetProgressState
  | .succeeded detail mergeSha => succeeded detail mergeSha
  | .rejected reason => rejected reason
  | .failed detail => failed detail

@[simp] theorem outcome_queued : queued.outcome = none := rfl

@[simp] theorem outcome_ofOutcome (verdict : TargetOutcome) :
    (ofOutcome verdict).outcome = some verdict := by
  cases verdict <;> rfl

/-- A state with a verdict is that verdict's. -/
theorem eq_ofOutcome {state : TargetProgressState} {verdict : TargetOutcome}
    (h : state.outcome = some verdict) : state = ofOutcome verdict := by
  cases state <;> simp_all [outcome] <;> subst h <;> rfl

/-- The column of the tally a verdict is counted in. -/
def isSucceeded : TargetProgressState → Bool
  | succeeded _ _ => true
  | _ => false

/-- A verdict GitHub, or a guard, gave against the target. -/
def isRejected : TargetProgressState → Bool
  | rejected _ => true
  | _ => false

/-- No verdict could be had: the attempt itself failed. -/
def isFailed : TargetProgressState → Bool
  | failed _ => true
  | _ => false

/-- A state is in one column exactly if it is a verdict. -/
theorem columns (state : TargetProgressState) :
    (if state.isSucceeded then 1 else 0) + (if state.isRejected then 1 else 0)
      + (if state.isFailed then 1 else 0) = if state.outcome.isSome then 1 else 0 := by
  cases state <;> rfl

end TargetProgressState

/-! ## Progress -/

/-- A target, and where it stands. -/
structure TargetProgress where
  target : PrTarget
  state : TargetProgressState
  deriving DecidableEq, Repr

/-- Where a bulk action stands: one state a target, and the running
tally. -/
structure BatchProgress where
  batchId : String
  action : BulkActionKind
  targets : List TargetProgress
  completed : Bool
  succeeded : ℕ
  rejected : ℕ
  failed : ℕ
  deriving DecidableEq, Repr

/-- The first of the targets under `key` moved to `state`, unless there is
none or it has settled. -/
def moveTarget (key : PrKey) (state : TargetProgressState) :
    List TargetProgress → Option (List TargetProgress)
  | [] => none
  | item :: rest =>
    if item.target.key = key then
      if item.state.outcome.isSome then none else some ({ item with state := state } :: rest)
    else (moveTarget key state rest).map (item :: ·)

namespace BatchProgress

/-- A batch before its first target is sent. -/
def queued (batchId : String) (action : BulkActionKind) (targets : List PrTarget) :
    BatchProgress where
  batchId := batchId
  action := action
  targets := targets.map fun target => ⟨target, .queued⟩
  completed := false
  succeeded := 0
  rejected := 0
  failed := 0

/-- How many targets have reached a verdict, by the tally. -/
def settled (progress : BatchProgress) : ℕ :=
  progress.succeeded + progress.rejected + progress.failed

/-- The tally with one more target in `state`. -/
def tally (progress : BatchProgress) : TargetProgressState → BatchProgress
  | .succeeded _ _ => { progress with succeeded := progress.succeeded + 1 }
  | .rejected _ => { progress with rejected := progress.rejected + 1 }
  | .failed _ => { progress with failed := progress.failed + 1 }
  | .queued | .running => progress

/-- Move a target to `state`, the tally with it. A key the batch does not
contain changes nothing, nor does a target that has settled. -/
def setState (progress : BatchProgress) (key : PrKey) (state : TargetProgressState) :
    BatchProgress :=
  match moveTarget key state progress.targets with
  | none => progress
  | some targets =>
    let tallied := progress.tally state
    { tallied with
      targets := targets
      completed := tallied.settled = targets.length }

/-- The target's action has been sent. -/
def start (progress : BatchProgress) (key : PrKey) : BatchProgress :=
  progress.setState key .running

/-- The target's action completed: done, or refused for good. -/
def record (progress : BatchProgress) (key : PrKey) : ActionOutcome → BatchProgress
  | .succeeded detail mergeSha => progress.setState key (.succeeded detail mergeSha)
  | .rejected reason => progress.setState key (.rejected reason)

/-- The target's action failed without an outcome. -/
def recordFailure (progress : BatchProgress) (key : PrKey) (detail : String) : BatchProgress :=
  progress.setState key (.failed detail)

end BatchProgress

/-- One target of a finished batch as the projection keeps it. -/
structure BatchTargetRecord where
  repositoryId : ℕ
  owner : String
  repo : String
  number : ℕ
  title : String
  htmlUrl : String
  /-- The head the target was sent against. -/
  headSha : Option String
  outcome : TargetOutcome
  deriving DecidableEq, Repr

/-- A finished bulk action as the projection keeps it. -/
structure BatchRecord where
  batchId : String
  installationId : ℕ
  action : BulkActionKind
  requestedBy : String
  retriedFrom : Option String
  startedAt : ℕ
  completedAt : ℕ
  succeeded : ℕ
  rejected : ℕ
  failed : ℕ
  targets : List BatchTargetRecord
  deriving DecidableEq, Repr

/-- A bulk action the workflow is running, as the projection lists it. -/
structure RunningBatch where
  batchId : String
  installationId : ℕ
  action : BulkActionKind
  requestedBy : String
  retriedFrom : Option String
  startedAt : ℕ
  targetCount : ℕ
  deriving DecidableEq, Repr

/-- What the projection keeps of a target at its verdict. -/
def PrTarget.recorded (target : PrTarget) (verdict : TargetOutcome) : BatchTargetRecord where
  repositoryId := target.repositoryId
  owner := target.owner
  repo := target.repo
  number := target.number
  title := target.title
  htmlUrl := target.htmlUrl
  headSha := some target.expectedSha
  outcome := verdict

/-- The batch as the projection keeps it once it has run; `none` while a
target is on its way. -/
def BatchProgress.completedRecord (progress : BatchProgress) (installationId : ℕ)
    (requestedBy : String) (retriedFrom : Option String) (startedAt completedAt : ℕ) :
    Option BatchRecord := do
  let targets ← progress.targets.mapM fun item => item.state.outcome.map item.target.recorded
  return {
    batchId := progress.batchId
    installationId := installationId
    action := progress.action
    requestedBy := requestedBy
    retriedFrom := retriedFrom
    startedAt := startedAt
    completedAt := completedAt
    succeeded := progress.succeeded
    rejected := progress.rejected
    failed := progress.failed
    targets := targets }

/-! ## What one move does -/

/-- **A move moves one target**: the first under its key, which had not
settled. -/
theorem moveTarget_eq_some {key : PrKey} {state : TargetProgressState}
    {targets moved : List TargetProgress} (h : moveTarget key state targets = some moved) :
    ∃ before item after, targets = before ++ item :: after ∧
      (∀ other ∈ before, other.target.key ≠ key) ∧ item.target.key = key ∧
      item.state.outcome = none ∧ moved = before ++ { item with state := state } :: after := by
  induction targets generalizing moved with
  | nil => cases h
  | cons item rest ih =>
    unfold moveTarget at h
    by_cases hkey : item.target.key = key
    · by_cases hsettled : item.state.outcome.isSome
      · simp [hkey, hsettled] at h
      · rw [if_pos hkey, if_neg hsettled, Option.some_inj] at h
        have hnone : item.state.outcome = none := by simpa using hsettled
        exact ⟨[], item, rest, rfl, nofun, hkey, hnone, h.symm⟩
    · rw [if_neg hkey, Option.map_eq_some_iff] at h
      obtain ⟨tail, htail, rfl⟩ := h
      obtain ⟨before, found, after, rfl, hbefore, hfound, hnone, rfl⟩ := ih htail
      exact ⟨item :: before, found, after, rfl, List.forall_mem_cons.2 ⟨hkey, hbefore⟩, hfound,
        hnone, rfl⟩

/-- The states of distinct targets after a move: the one named, if it is
there and on its way, is where it was moved. -/
def moveState (states : PrKey → TargetProgressState) (key : PrKey) (state : TargetProgressState) :
    PrKey → TargetProgressState := fun k =>
  if k = key ∧ (states k).outcome = none then state else states k

theorem moveTarget_map (states : PrKey → TargetProgressState) (key : PrKey)
    (state : TargetProgressState) {targets : List PrTarget}
    (hnodup : (targets.map PrTarget.key).Nodup) :
    (moveTarget key state (targets.map fun target => ⟨target, states target.key⟩)).getD
        (targets.map fun target => ⟨target, states target.key⟩)
      = targets.map fun target => ⟨target, moveState states key state target.key⟩ := by
  induction targets with
  | nil => rfl
  | cons target rest ih =>
    rw [List.map_cons, List.nodup_cons] at hnodup
    obtain ⟨hnew, hrest⟩ := hnodup
    rw [List.map_cons, moveTarget]
    by_cases hkey : target.key = key
    · -- the keys differ, so what stands behind the target moved is elsewhere
      have hsame : ∀ other ∈ rest, moveState states key state other.key = states other.key := by
        intro other hother
        refine if_neg fun h => hnew ?_
        rw [hkey, ← h.1]
        exact List.mem_map_of_mem hother
      have htail : rest.map (fun other => (⟨other, states other.key⟩ : TargetProgress))
          = rest.map fun other => ⟨other, moveState states key state other.key⟩ :=
        List.map_congr_left fun other hother => by rw [hsame other hother]
      rw [List.map_cons, ← htail, hkey, if_pos rfl]
      by_cases hsettled : (states key).outcome = none
      · have hmoved : moveState states key state key = state := if_pos ⟨rfl, hsettled⟩
        rw [hmoved, hsettled]
        rfl
      · have hstay : moveState states key state key = states key := if_neg fun h => hsettled h.2
        rw [hstay, if_pos (Option.isSome_iff_ne_none.2 hsettled)]
        rfl
    · have hstay : moveState states key state target.key = states target.key :=
        if_neg fun h => hkey h.1
      rw [if_neg hkey, List.map_cons, hstay, ← ih hrest]
      cases moveTarget key state (rest.map fun target => ⟨target, states target.key⟩) <;> rfl

namespace BatchProgress

/-- A move leaves the targets as `moveTarget` says. -/
theorem setState_targets (progress : BatchProgress) (key : PrKey) (state : TargetProgressState) :
    (progress.setState key state).targets
      = (moveTarget key state progress.targets).getD progress.targets := by
  unfold setState
  cases moveTarget key state progress.targets <;> rfl

/-- A move leaves the batch's name and action. -/
theorem setState_header (progress : BatchProgress) (key : PrKey) (state : TargetProgressState) :
    (progress.setState key state).batchId = progress.batchId ∧
      (progress.setState key state).action = progress.action := by
  unfold setState
  cases moveTarget key state progress.targets with
  | none => exact ⟨rfl, rfl⟩
  | some targets => cases state <;> exact ⟨rfl, rfl⟩

/-! ## The tally counts the states -/

/-- **The tally counts the states**, and the batch is complete when every
target has settled. -/
structure Tallied (progress : BatchProgress) : Prop where
  succeeded : progress.succeeded = progress.targets.countP (·.state.isSucceeded)
  rejected : progress.rejected = progress.targets.countP (·.state.isRejected)
  failed : progress.failed = progress.targets.countP (·.state.isFailed)
  /-- The flag says it of a batch with a target. -/
  completed : progress.targets ≠ [] →
    (progress.completed ↔ ∀ item ∈ progress.targets, item.state.outcome.isSome)

theorem countP_columns (targets : List TargetProgress) :
    targets.countP (·.state.isSucceeded) + targets.countP (·.state.isRejected)
      + targets.countP (·.state.isFailed) = targets.countP (·.state.outcome.isSome) := by
  induction targets with
  | nil => rfl
  | cons item rest ih =>
    have := item.state.columns
    simp only [List.countP_cons]
    omega

/-- The settled count is the number of targets at a verdict. -/
theorem Tallied.settled_eq {progress : BatchProgress} (h : progress.Tallied) :
    progress.settled = progress.targets.countP (·.state.outcome.isSome) := by
  rw [settled, h.succeeded, h.rejected, h.failed, countP_columns]

/-- A batch just queued has its targets in no column. -/
theorem countP_queued {column : TargetProgressState → Bool} (h : column .queued = false)
    (targets : List PrTarget) :
    0 = (targets.map fun target => (⟨target, .queued⟩ : TargetProgress)).countP
      (column ·.state) := by
  rw [eq_comm, List.countP_eq_zero]
  intro item hitem
  obtain ⟨target, -, rfl⟩ := List.mem_map.1 hitem
  simp [h]

theorem Tallied.queued (batchId : String) (action : BulkActionKind) (targets : List PrTarget) :
    (queued batchId action targets).Tallied where
  succeeded := countP_queued rfl targets
  rejected := countP_queued rfl targets
  failed := countP_queued rfl targets
  completed := by
    intro hne
    cases targets with
    | nil => exact absurd rfl hne
    | cons target rest => simp [BatchProgress.queued]

/-- The counts of a state's column once one target is in it. -/
theorem tally_counts (progress : BatchProgress) (state : TargetProgressState) :
    (progress.tally state).succeeded = progress.succeeded + (if state.isSucceeded then 1 else 0) ∧
      (progress.tally state).rejected = progress.rejected + (if state.isRejected then 1 else 0) ∧
      (progress.tally state).failed = progress.failed + (if state.isFailed then 1 else 0) := by
  cases state <;> exact ⟨rfl, rfl, rfl⟩

/-- A target on its way is in no column. -/
theorem columns_of_none {state : TargetProgressState} (h : state.outcome = none) :
    state.isSucceeded = false ∧ state.isRejected = false ∧ state.isFailed = false := by
  cases state <;> first | exact ⟨rfl, rfl, rfl⟩ | exact absurd h nofun

/-- **A move keeps the tally.** -/
theorem Tallied.setState {progress : BatchProgress} (h : progress.Tallied) (key : PrKey)
    (state : TargetProgressState) : (progress.setState key state).Tallied := by
  unfold BatchProgress.setState
  cases hmove : moveTarget key state progress.targets with
  | none => exact h
  | some moved =>
    obtain ⟨before, item, after, htargets, -, -, hnone, rfl⟩ := moveTarget_eq_some hmove
    obtain ⟨hs, hr, hf⟩ := columns_of_none hnone
    obtain ⟨hcs, hcr, hcf⟩ := progress.tally_counts state
    have hsucceeded := h.succeeded
    have hrejected := h.rejected
    have hfailed := h.failed
    rw [htargets] at hsucceeded hrejected hfailed
    simp only [List.countP_append, List.countP_cons, hs, hr, hf] at hsucceeded hrejected hfailed
    -- the target left no column, so its new state's column is one more
    have hmoved : (progress.tally state).succeeded
          = (before ++ { item with state := state } :: after).countP (·.state.isSucceeded) ∧
        (progress.tally state).rejected
          = (before ++ { item with state := state } :: after).countP (·.state.isRejected) ∧
        (progress.tally state).failed
          = (before ++ { item with state := state } :: after).countP (·.state.isFailed) := by
      simp only [List.countP_append, List.countP_cons, hcs, hcr, hcf]
      simp only [Bool.false_eq_true, if_false] at hsucceeded hrejected hfailed
      refine ⟨?_, ?_, ?_⟩ <;> omega
    refine ⟨hmoved.1, hmoved.2.1, hmoved.2.2, fun _ => ?_⟩
    have hsettled : (progress.tally state).settled
        = (before ++ { item with state := state } :: after).countP (·.state.outcome.isSome) := by
      rw [settled, hmoved.1, hmoved.2.1, hmoved.2.2, countP_columns]
    rw [decide_eq_true_iff, hsettled, List.countP_eq_length]

/-! ## What was settled stays settled -/

/-- The target is the one it was, and at its verdict if it had one. -/
def Keeps (before after : TargetProgress) : Prop :=
  after.target = before.target ∧
    ∀ verdict, before.state.outcome = some verdict → after.state = before.state

theorem Keeps.refl (item : TargetProgress) : Keeps item item := ⟨rfl, fun _ _ => rfl⟩

theorem Keeps.trans {a b c : TargetProgress} (hab : Keeps a b) (hbc : Keeps b c) : Keeps a c := by
  refine ⟨hbc.1.trans hab.1, fun verdict h => ?_⟩
  have hb := hab.2 verdict h
  have hc := hbc.2 verdict (by rw [hb, h])
  rw [hc, hb]

/-- **One progress comes after another**: the same targets, no verdict
changed or gone, no fewer settled. -/
structure Advances (before after : BatchProgress) : Prop where
  keeps : List.Forall₂ Keeps before.targets after.targets
  settled : before.settled ≤ after.settled

theorem Advances.refl (progress : BatchProgress) : Advances progress progress :=
  ⟨List.forall₂_same.2 fun item _ => Keeps.refl item, Nat.le_refl _⟩

theorem Advances.trans {a b c : BatchProgress} (hab : Advances a b) (hbc : Advances b c) :
    Advances a c := by
  refine ⟨List.forall₂_iff_get.2 ?_, Nat.le_trans hab.settled hbc.settled⟩
  obtain ⟨hlength, hkeeps⟩ := List.forall₂_iff_get.1 hab.keeps
  obtain ⟨hlength', hkeeps'⟩ := List.forall₂_iff_get.1 hbc.keeps
  refine ⟨hlength.trans hlength', fun i ha hc => ?_⟩
  exact (hkeeps i ha (hlength ▸ ha)).trans (hkeeps' i (hlength ▸ ha) hc)

theorem settled_tally (progress : BatchProgress) (state : TargetProgressState) :
    progress.settled ≤ (progress.tally state).settled := by
  have := progress.tally_counts state
  unfold settled
  omega

/-- **A move only advances a batch.** -/
theorem advances_setState (progress : BatchProgress) (key : PrKey) (state : TargetProgressState) :
    Advances progress (progress.setState key state) := by
  unfold setState
  cases hmove : moveTarget key state progress.targets with
  | none => exact Advances.refl progress
  | some moved =>
    obtain ⟨before, item, after, htargets, -, -, hnone, rfl⟩ := moveTarget_eq_some hmove
    refine ⟨?_, settled_tally progress state⟩
    show List.Forall₂ Keeps progress.targets _
    rw [htargets]
    refine List.rel_append (List.forall₂_same.2 fun other _ => Keeps.refl other) (.cons ?_
      (List.forall₂_same.2 fun other _ => Keeps.refl other))
    exact ⟨rfl, fun verdict h => by rw [hnone] at h; cases h⟩

/-! ## Progress over distinct keys -/

/-- The batch's targets are `targets`, each in the state of its key. -/
def Shows (progress : BatchProgress) (targets : List PrTarget)
    (states : PrKey → TargetProgressState) : Prop :=
  progress.targets = targets.map fun target => ⟨target, states target.key⟩

theorem shows_queued (batchId : String) (action : BulkActionKind) (targets : List PrTarget) :
    (queued batchId action targets).Shows targets fun _ => .queued := rfl

/-- **A move over distinct keys** moves the state of its key. -/
theorem Shows.setState {progress : BatchProgress} {targets : List PrTarget}
    {states : PrKey → TargetProgressState} (h : progress.Shows targets states)
    (hnodup : (targets.map PrTarget.key).Nodup) (key : PrKey) (state : TargetProgressState) :
    (progress.setState key state).Shows targets (moveState states key state) := by
  unfold Shows at h ⊢
  rw [setState_targets, h]
  exact moveTarget_map states key state hnodup

/-- A map that succeeds of every element. -/
theorem mapM_eq_some_map {α β : Type} {f : α → Option β} {g : α → β} {xs : List α}
    (h : ∀ x ∈ xs, f x = some (g x)) : xs.mapM f = some (xs.map g) := by
  induction xs with
  | nil => rfl
  | cons x xs ih =>
    obtain ⟨hx, hxs⟩ := List.forall_mem_cons.1 h
    simp [hx, ih hxs]

/-- **A batch at its verdicts is recorded as they are.** -/
theorem Shows.completedRecord {progress : BatchProgress} {targets : List PrTarget}
    {states : PrKey → TargetProgressState} (h : progress.Shows targets states)
    (verdicts : PrKey → TargetOutcome)
    (hsettled : ∀ target ∈ targets, (states target.key).outcome = some (verdicts target.key))
    (installationId : ℕ) (requestedBy : String) (retriedFrom : Option String)
    (startedAt completedAt : ℕ) :
    progress.completedRecord installationId requestedBy retriedFrom startedAt completedAt
      = some {
        batchId := progress.batchId
        installationId := installationId
        action := progress.action
        requestedBy := requestedBy
        retriedFrom := retriedFrom
        startedAt := startedAt
        completedAt := completedAt
        succeeded := progress.succeeded
        rejected := progress.rejected
        failed := progress.failed
        targets := targets.map fun target => target.recorded (verdicts target.key) } := by
  have hmap : progress.targets.mapM (fun item => item.state.outcome.map item.target.recorded)
      = some (targets.map fun target => target.recorded (verdicts target.key)) := by
    rw [h, List.mapM_map]
    exact mapM_eq_some_map fun target htarget => by simp [hsettled target htarget]
  simp [BatchProgress.completedRecord, hmap]

/-- No record is kept of a batch with a target on its way. -/
theorem completedRecord_eq_none {progress : BatchProgress} {item : TargetProgress}
    (hmem : item ∈ progress.targets) (hnone : item.state.outcome = none) (installationId : ℕ)
    (requestedBy : String) (retriedFrom : Option String) (startedAt completedAt : ℕ) :
    progress.completedRecord installationId requestedBy retriedFrom startedAt completedAt
      = none := by
  have hmap : progress.targets.mapM (fun item => item.state.outcome.map item.target.recorded)
      = none := by
    generalize progress.targets = targets at hmem
    induction targets with
    | nil => cases hmem
    | cons first rest ih =>
      rcases List.mem_cons.1 hmem with rfl | hrest
      · simp [hnone]
      · cases first.state.outcome <;> simp [ih hrest]
  simp [BatchProgress.completedRecord, hmap]

end BatchProgress

example : (((BatchProgress.queued "b" .merge [⟨1, "o", "r", 2, "s", "t", "u"⟩]).start ⟨1, 2⟩).record
    ⟨1, 2⟩ (.rejected .forbidden)).completed = true := by decide

end Dependaboard
