import Dependaboard.Core.PrState
import Dependaboard.Durable.Translate
import Dependaboard.Store.Batches
import Dependaboard.Web.Api
/-!
# Web — the server functions

What the browser may ask of the dashboard's server. Each function reads the
projection for the installation the deployment is configured with, or enqueues
on Restate, or reads first and then enqueues; the installation is never the
browser's to name.
-/

namespace Dependaboard

open Durable

/-- How many finished batches are listed at most. -/
def maxRecentBatches : ℕ := 200

/-- The batches of the audit view. -/
structure BatchList where
  running : List RunningBatch
  finished : List BatchRecord
  deriving DecidableEq, Repr

/-! ## What the server asks -/

/-- The reads of the projection, the invocations of Restate, and a batch id
minted. -/
inductive EdgeCall where
  | listPrs (installationId : ℕ) (filter : PrFilter) (page : Page)
  | dashboardSummary (installationId : ℕ) (filter : PrFilter)
  | projectionRevision
  | getPr (installationId : ℕ) (key : PrKey)
  | getPrs (installationId : ℕ) (keys : List PrKey)
  | runningBatches (installationId : ℕ)
  | recentBatches (installationId limit : ℕ)
  | getBatch (installationId : ℕ) (batchId : String)
  | capabilities
  | runBatch (batchId : String) (request : BulkRequest)
  | batchProgress (batchId : String)
  | pullRequestStatus (key : PrKey)
  | syncInstallation
  | syncPullRequest (request : ManualSyncRequest)
  | newBatchId

/-- What each is answered in. -/
@[reducible] def EdgeCall.Answer : EdgeCall → Type
  | listPrs _ _ _ => Except StoreError DashboardPage
  | dashboardSummary _ _ => Except StoreError DashboardSummary
  | projectionRevision => Except StoreError ProjectionRevision
  | getPr _ _ => Except StoreError ProjectedPr
  | getPrs _ _ => Except StoreError (List ProjectedPr)
  | runningBatches _ => Except StoreError (List RunningBatch)
  | recentBatches _ _ => Except StoreError (List BatchRecord)
  | getBatch _ _ => Except StoreError (Option ProjectedBatch)
  | capabilities => Except RestateIngressError Capabilities
  | runBatch _ _ => Except RestateIngressError Unit
  | batchProgress _ => Except RestateIngressError (Option BatchProgress)
  | pullRequestStatus _ => Except RestateIngressError (Option PrState)
  | syncInstallation => Except RestateIngressError Unit
  | syncPullRequest _ => Except RestateIngressError Unit
  | newBatchId => String

/-- The interface of a server function. -/
@[reducible] def EdgeEffects : Signature := ⟨EdgeCall, EdgeCall.Answer⟩

/-- A server function. -/
abbrev EdgeM (α : Type) : Type := Prog EdgeEffects ApiError α

/-- What the projection answers; its failures are the read model's, and only a
cursor's is the browser's. -/
def EdgeM.ofStore {α : Type} (answer : Except StoreError α) : EdgeM α :=
  .ofExcept (answer.mapError ApiError.ofStore)

/-- What Restate answers; whatever its failure, the browser hears that it is
unavailable. -/
def EdgeM.ofIngress {α : Type} (answer : Except RestateIngressError α) : EdgeM α :=
  .ofExcept (answer.mapError ApiError.ofIngress)

/-- A submission asks for what a server function may. -/
def submitReading : SubmitEffects.Reading EdgeEffects where
  op
    | .getPrs installationId keys => .getPrs installationId keys
    | .runBatch batchId request => .runBatch batchId request
  ans
    | .getPrs _ _, answer => answer
    | .runBatch _ _, answer => answer

/-! ## The functions -/

/-- Where the batch stands: a workflow Restate never had is answered with a
404, which is no batch rather than a failure. -/
def readProgress : Except RestateIngressError (Option BatchProgress) →
    Except RestateIngressError (Option BatchProgress)
  | .error (.status 404 _) => .ok none
  | answer => answer

section

variable (validBatchId : String → Bool) (installationId : ℕ)

/-- A batch id of the shape the dashboard mints. -/
def mintedHere (batchId : String) : EdgeM Unit :=
  if validBatchId batchId then .done () else .fail (.invalidRequest (.batch .batchId))

/-- The pull request the browser named, as the projection has it. -/
def projectedPr (key : PrKey) : EdgeM (Option PrRecord) :=
  Prog.ask (S := EdgeEffects) (.getPr installationId key) fun answer => do
    let projected ← EdgeM.ofStore answer
    Prog.ofExcept (heldToTheInstallation key projected)

/-- One page of the rows a filter matches, of the server's
installation alone. -/
def loadDashboardIn (filter : PrFilter) (page : Page) : EdgeM DashboardPage :=
  Prog.ask (S := EdgeEffects) (.listPrs installationId filter page) EdgeM.ofStore

/-- The totals and facets of a filter. -/
def loadSummaryIn (filter : PrFilter) : EdgeM DashboardSummary :=
  Prog.ask (S := EdgeEffects) (.dashboardSummary installationId filter) EdgeM.ofStore

/-- The newest rows a filter matches, as many as one batch takes. -/
def loadMatchingIn (filter : PrFilter) : EdgeM DashboardPage :=
  Prog.ask (S := EdgeEffects) (.listPrs installationId filter ⟨maxBatchTargets, none⟩) EdgeM.ofStore

/-- The revision the page polls, which is the store's and not one
installation's. -/
def loadProjectionRevisionIn : EdgeM ProjectionRevision :=
  Prog.ask (S := EdgeEffects) .projectionRevision EdgeM.ofStore

/-- What the deployment can do, which Restate's side knows. -/
def loadCapabilitiesIn : EdgeM Capabilities :=
  Prog.ask (S := EdgeEffects) .capabilities EdgeM.ofIngress

/-- Where a batch stands. Its id is a path segment of Restate's, so only one
of the shape minted here is asked after. -/
def loadBatchProgressIn (batchId : String) : EdgeM (Option BatchProgress) := do
  mintedHere validBatchId batchId
  Prog.ask (S := EdgeEffects) (.batchProgress batchId) fun answer =>
    EdgeM.ofIngress (readProgress answer)

/-- The installation's batches: the running ones, then the newest finished
ones, as many as the limit, held to `maxRecentBatches`. -/
def loadRecentBatchesIn (limit : ℕ) : EdgeM BatchList :=
  Prog.ask (S := EdgeEffects) (.runningBatches installationId) fun answer => do
    let running ← EdgeM.ofStore answer
    Prog.ask (S := EdgeEffects) (.recentBatches installationId (max 1 (min limit maxRecentBatches)))
      fun answer => do
        let finished ← EdgeM.ofStore answer
        return ⟨running, finished⟩

/-- A recorded batch, if it is the installation's. -/
def loadBatchProjectionIn (batchId : String) : EdgeM (Option ProjectedBatch) := do
  mintedHere validBatchId batchId
  Prog.ask (S := EdgeEffects) (.getBatch installationId batchId) EdgeM.ofStore

/-- The object of a pull request knows nothing of installations: its key is
held to the projection before Restate is asked. -/
def loadPrStatusIn (key : PrKey) : EdgeM (Option PrState) := do
  match ← projectedPr installationId key with
  | none => return none
  | some _ => Prog.ask (S := EdgeEffects) (.pullRequestStatus key) EdgeM.ofIngress

/-- One pull request's row, if it is the installation's. -/
def loadPrProjectionIn (key : PrKey) : EdgeM (Option PrRecord) := projectedPr installationId key

/-- A sync of the installation, handed to Restate and not waited for. -/
def requestSyncIn : EdgeM Unit :=
  Prog.ask (S := EdgeEffects) .syncInstallation EdgeM.ofIngress

/-- A refresh of the projection's row, and the id it will be recorded under. -/
def requestPrSyncIn (key : PrKey) : EdgeM String := do
  match ← projectedPr installationId key with
  | none => .fail (.invalidRequest (.noLongerInTheDashboard key))
  | some row =>
    Prog.ask (S := EdgeEffects) .newBatchId fun completionId =>
      Prog.ask (S := EdgeEffects)
        (.syncPullRequest ⟨row.repositoryId, row.owner, row.repo, row.number, completionId⟩)
        fun answer => do
          EdgeM.ofIngress answer
          return completionId

end

/-! ## A request -/

/-- What the browser sends. -/
inductive EdgeRequest where
  | loadDashboard (filter : PrFilter) (page : Page)
  | loadSummary (filter : PrFilter)
  | loadMatching (filter : PrFilter)
  | loadProjectionRevision
  | loadSignedInUser
  | loadCapabilities
  | submitBatch (batchId : String) (action : BulkActionKind) (targets : List SubmittedTarget)
    (retriedFrom : Option String)
  | loadBatchProgress (batchId : String)
  | loadRecentBatches (limit : ℕ)
  | loadBatchProjection (batchId : String)
  | loadPrStatus (key : PrKey)
  | loadPrProjection (key : PrKey)
  | requestSync
  | requestPrSync (key : PrKey)

namespace EdgeRequest

/-- What each is served with. -/
@[reducible] def Response : EdgeRequest → Type
  | loadDashboard _ _ | loadMatching _ => DashboardPage
  | loadSummary _ => DashboardSummary
  | loadProjectionRevision => ProjectionRevision
  | loadSignedInUser => String
  | loadCapabilities => Capabilities
  | submitBatch _ _ _ _ => BatchReceipt
  | loadBatchProgress _ => Option BatchProgress
  | loadRecentBatches _ => BatchList
  | loadBatchProjection _ => Option ProjectedBatch
  | loadPrStatus _ => Option PrState
  | loadPrProjection _ => Option PrRecord
  | requestSync => Unit
  | requestPrSync _ => String

/-- A request of `user`, the identity it was let through as. -/
def serve (validBatchId : String → Bool) (installationId : ℕ) (user : String) :
    (request : EdgeRequest) → EdgeM request.Response
  | loadDashboard filter page => loadDashboardIn installationId filter page
  | loadSummary filter => loadSummaryIn installationId filter
  | loadMatching filter => loadMatchingIn installationId filter
  | loadProjectionRevision => loadProjectionRevisionIn
  | loadSignedInUser => .done user
  | loadCapabilities => loadCapabilitiesIn
  | submitBatch batchId action targets retriedFrom =>
    (submitBatchIn validBatchId installationId user batchId action targets retriedFrom).translate
      submitReading
  | loadBatchProgress batchId => loadBatchProgressIn validBatchId batchId
  | loadRecentBatches limit => loadRecentBatchesIn installationId limit
  | loadBatchProjection batchId => loadBatchProjectionIn validBatchId installationId batchId
  | loadPrStatus key => loadPrStatusIn installationId key
  | loadPrProjection key => loadPrProjectionIn installationId key
  | requestSync => requestSyncIn
  | requestPrSync key => requestPrSyncIn installationId key

/-- The pull requests the browser names. -/
def keys : EdgeRequest → List PrKey
  | submitBatch _ _ targets _ => targets.map SubmittedTarget.key
  | loadPrStatus key | loadPrProjection key | requestPrSync key => [key]
  | _ => []

end EdgeRequest

end Dependaboard
