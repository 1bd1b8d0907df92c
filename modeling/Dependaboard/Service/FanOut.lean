import Mathlib.Data.List.Dedup
import Mathlib.Data.List.Sort
import Dependaboard.Core.Records
import Dependaboard.Durable.Prog
import Dependaboard.Service.Ingress
/-!
# Service — a delivery's handlers

The dispatcher sends what a delivery is routed to, once it is routed. A commit's
change of status goes to its repository, which fans it out to the pull requests
at the commit: those GitHub named, and those the projection has at that head.
-/

namespace Dependaboard

open Durable

/-- What the handlers ask for. A one-way send cannot fail. -/
inductive DeliveryCall where
  /-- The repository's pull requests at a head, as the projection has them. -/
  | pullRequestsAt (repositoryId : ℕ) (sha : String)
  | send (message : Sent)
  deriving DecidableEq, Repr

/-- What each is answered in; a send cannot fail. -/
@[reducible] def DeliveryCall.Answer : DeliveryCall → Type
  | pullRequestsAt _ _ => Except HandlerError (List PrRecord)
  | send _ => Unit

/-- The interface of the handlers. -/
@[reducible] def DeliveryEffects : Signature := ⟨DeliveryCall, DeliveryCall.Answer⟩

/-- A handler that takes a delivery on. -/
abbrev DeliveryM (α : Type) : Type := Prog DeliveryEffects HandlerError α

/-- A message sent one way: the handler goes on without its answer. -/
def sendMessage (message : Sent) : DeliveryM Unit :=
  Prog.ask (S := DeliveryEffects) (.send message) Prog.done

/-- `WebhookIngress.dispatch`: nothing is sent of a delivery that is not
routed. -/
def dispatchDelivery (installationId : ℕ) (event : WebhookEvent) : DeliveryM (Option Sent) :=
  (Prog.ofExcept (dispatch installationId event)).bind fun sent =>
    match sent with
    | some message => (sendMessage message).bind fun () => .done sent
    | none => .done none

/-- The pull requests told of a commit, each once, in the order of their
numbers. -/
def toldNumbers (request : SyncShaRequest) (atHead : List PrRecord) : List ℕ :=
  (request.pullRequests ++ atHead.map PrRecord.number).dedup.insertionSort (· ≤ ·)

/-- The sync one of them is sent. -/
def SyncShaRequest.sync (request : SyncShaRequest) (number : ℕ) : SyncRequest where
  repositoryId := request.repositoryId
  owner := request.owner
  repo := request.repo
  number := number
  bypassDebounce := false
  completionId := none

/-- The message it is sent by. -/
def SyncShaRequest.tell (request : SyncShaRequest) (number : ℕ) : Sent :=
  .sync (requestKey (request.sync number)) (request.sync number)

/-- `RepoSync.sync_sha`, which answers with how many were told. -/
def runSyncSha (request : SyncShaRequest) : DeliveryM ℕ :=
  Prog.ask (S := DeliveryEffects) (.pullRequestsAt request.repositoryId request.sha) fun answer =>
    (Prog.ofExcept answer).bind fun atHead =>
      (Prog.forEach (toldNumbers request atHead) fun number =>
        sendMessage (request.tell number)).bind fun () =>
          .done (toldNumbers request atHead).length

/-! ## Who is told -/

theorem nodup_toldNumbers (request : SyncShaRequest) (atHead : List PrRecord) :
    (toldNumbers request atHead).Nodup :=
  (List.perm_insertionSort _ _).nodup_iff.2 (List.nodup_dedup _)

theorem SyncShaRequest.tell_injective (request : SyncShaRequest) :
    Function.Injective request.tell := by
  intro number number' h
  simpa [tell, sync, requestKey] using h

end Dependaboard
