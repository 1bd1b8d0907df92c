import Dependaboard.Core.Batch
import Dependaboard.Durable.Prog
import Dependaboard.Store.Reader
/-!
# Web — the submission of a batch

The browser names each target by its key and the head it saw; the rest is
filled in from the projection. A target the projection no longer has is left
out of the batch, one of another installation refuses it, and what is left is
sent to the workflow under the batch's own id.
-/

namespace Dependaboard

open Durable

/-- A target as the browser submits it. -/
structure SubmittedTarget where
  repositoryId : ℕ
  number : ℕ
  expectedSha : String
  deriving DecidableEq, Repr

/-- The object a target is for, by the ids the browser sent. -/
def SubmittedTarget.key (target : SubmittedTarget) : PrKey := ⟨target.repositoryId, target.number⟩

/-- What the browser is given for a batch that was taken: the targets it does
not carry. -/
structure BatchReceipt where
  leftOut : List PrKey
  deriving DecidableEq, Repr

/-! ## Refusals -/

/-- What a request to the Restate ingress can fail with. -/
inductive RestateIngressError where
  | transport (cause : String)
  | status (code : ℕ) (body : String)
  | decode (cause : String)
  deriving DecidableEq, Repr

/-- A request the dashboard should not have sent. -/
inductive InvalidRequest where
  | batch (invalid : InvalidBatch)
  | cursor
  | foreignInstallation (key : PrKey)
  | noLongerInTheDashboard (key : PrKey)
  | nothingLeftToRun (submitted : ℕ)
  deriving DecidableEq, Repr

instance : ToString InvalidRequest where
  toString
    | .batch invalid => toString invalid
    | .cursor => "invalid page cursor"
    | .foreignInstallation key => "pull request #" ++ toString key.number
        ++ " does not belong to the configured installation"
    | .noLongerInTheDashboard key => "pull request #" ++ toString key.number
        ++ " is no longer in the dashboard"
    | .nothingLeftToRun submitted => "none of the " ++ toString submitted
        ++ " pull requests submitted are still in the dashboard"

/-- A part of the deployment the dashboard cannot answer without. -/
inductive Upstream where
  | readModel
  | restate
  deriving DecidableEq, Repr

/-- What the user reads of a part that is down, its cause left to the log. -/
def Upstream.unavailable : Upstream → String
  | readModel => "The read model is unavailable"
  | restate => "Restate is unavailable"

/-- Why a request was not served. The cause behind a part that did not answer
is for the log alone. -/
inductive ApiError where
  | invalidRequest (invalid : InvalidRequest)
  | unavailable (component : Upstream) (cause : StoreError ⊕ RestateIngressError)
  deriving DecidableEq, Repr

instance : ToString ApiError where
  toString
    | .invalidRequest invalid => toString invalid
    | .unavailable component _ => component.unavailable

/-- A read that failed. A cursor that does not parse is the browser's. -/
def ApiError.ofStore : StoreError → ApiError
  | .cursor => .invalidRequest .cursor
  | error => .unavailable .readModel (.inl error)

/-- Whatever Restate failed with, the browser hears that it is unavailable. -/
def ApiError.ofIngress (error : RestateIngressError) : ApiError :=
  .unavailable .restate (.inr error)

/-! ## Resolution -/

/-- What the projection holds for a key, or the refusal of a key of another
installation. -/
def heldToTheInstallation (key : PrKey) : ProjectedPr → Except ApiError (Option PrRecord)
  | .row row => .ok (some row)
  | .absent => .ok none
  | .foreign => .error (.invalidRequest (.foreignInstallation key))

/-- What the projection holds for every key, in the keys' order, by what its
read was answered. -/
def projectedPrs (keys : List PrKey) (answer : Except StoreError (List ProjectedPr)) :
    Except ApiError (List (Option PrRecord)) :=
  match answer with
  | .error error => .error (.ofStore error)
  | .ok projected => (projected.zip keys).mapM fun pair => heldToTheInstallation pair.2 pair.1

/-- The target as the projection's row has it, against the head the browser
saw. -/
def SubmittedTarget.resolved (target : SubmittedTarget) (row : PrRecord) : PrTarget where
  repositoryId := row.repositoryId
  owner := row.owner
  repo := row.repo
  number := row.number
  expectedSha := target.expectedSha
  title := row.title
  htmlUrl := row.htmlUrl

/-- One target more, beside those resolved and those left out. -/
def resolveTarget (sofar : List PrTarget × List PrKey) :
    SubmittedTarget × Option PrRecord → List PrTarget × List PrKey
  | (target, none) => (sofar.1, sofar.2 ++ [target.key])
  | (target, some row) => (sofar.1 ++ [target.resolved row], sofar.2)

/-- The targets resolved, and those left out, by their rows. -/
def resolveTargets (targets : List SubmittedTarget) (rows : List (Option PrRecord)) :
    List PrTarget × List PrKey :=
  (targets.zip rows).foldl resolveTarget ([], [])

/-! ## The submission -/

/-- What a submission asks for. -/
inductive SubmitCall where
  | getPrs (installationId : ℕ) (keys : List PrKey)
  | runBatch (batchId : String) (request : BulkRequest)
  deriving DecidableEq, Repr

/-- What each is answered in. -/
@[reducible] def SubmitCall.Answer : SubmitCall → Type
  | getPrs _ _ => Except StoreError (List ProjectedPr)
  | runBatch _ _ => Except RestateIngressError Unit

/-- The interface of a submission. -/
@[reducible] def SubmitEffects : Signature := ⟨SubmitCall, SubmitCall.Answer⟩

/-- A submission. -/
abbrev SubmitM (α : Type) : Type := Prog SubmitEffects ApiError α

/-- The batch is sent to the workflow, and those it does not carry named. -/
def forwardBatch (batchId : String) (request : BulkRequest) (leftOut : List PrKey) :
    SubmitM BatchReceipt :=
  Prog.ask (S := SubmitEffects) (.runBatch batchId request) fun
    | .error error => .fail (.ofIngress error)
    | .ok () => .done ⟨leftOut⟩

/-- `submit_batch`: held to the batch rules, then resolved in one read, then
sent. -/
def submitBatchIn (validBatchId : String → Bool) (installationId : ℕ) (user batchId : String)
    (action : BulkActionKind) (targets : List SubmittedTarget) (retriedFrom : Option String) :
    SubmitM BatchReceipt :=
  let keys := targets.map SubmittedTarget.key
  match validateBatch validBatchId batchId retriedFrom keys with
  | .error invalid => .fail (.invalidRequest (.batch invalid))
  | .ok () =>
    Prog.ask (S := SubmitEffects) (.getPrs installationId keys) fun answer =>
      match projectedPrs keys answer with
      | .error error => .fail error
      | .ok rows =>
        let (resolved, leftOut) := resolveTargets targets rows
        if resolved = [] then .fail (.invalidRequest (.nothingLeftToRun targets.length))
        else forwardBatch batchId ⟨action, resolved, user, retriedFrom⟩ leftOut

end Dependaboard
