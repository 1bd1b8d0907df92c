import Dependaboard.Text.UrlPath
import Dependaboard.Web.Confined
/-!
# Web — where Restate is asked

An invocation is a POST to a path that names the service, the key where there
is one, and the handler. A key is written into its segment escaped, or is of a
shape that needs no escape; `edge_addresses` is that no request of the browser
makes a path that Restate reads as another handler's, or another object's.
-/

namespace Dependaboard

open Durable Prog

/-! ## The names both ends use -/

namespace Restate

/-- The workflow a batch runs as, under the batch's id. -/
def bulkAction : String := "BulkAction"

/-- Its one run, of which there is one for each key. -/
def bulkActionRun : String := "run"

/-- Its shared handler, which may be asked while it runs and after. -/
def bulkActionProgress : String := "progress"

/-- The object each pull request is, under its key. -/
def pullRequest : String := "PullRequest"

/-- What the object knows, as the drawer asks it. -/
def pullRequestStatus : String := "status"

/-- The service the browser's own requests go through. -/
def dashboardIngress : String := "DashboardIngress"

/-- What this deployment can do: whether it has a user to post commands as. -/
def dashboardCapabilities : String := "capabilities"

/-- A sync of the whole installation, asked for by hand. -/
def dashboardSyncInstallation : String := "sync_installation"

/-- A sync of one pull request, asked for by hand. -/
def dashboardSyncPullRequest : String := "sync_pull_request"

end Restate

/-! ## Paths -/

/-- A key, for a segment. A `#` in it would end the path, and a `/` address
another handler. -/
def encodeObjectKey (key : String) : String := String.ofList (UrlPath.encode key)

/-- A service has no key: its handlers are addressed by name alone. -/
def handlerPath (service handler : String) : String := service ++ "/" ++ handler

/-- The key is encoded: it is the one part of the path that is not a name of
the program's own. -/
def keyedHandlerPath (service key handler : String) : String :=
  service ++ "/" ++ encodeObjectKey key ++ "/" ++ handler

/-- Where the object of a pull request is addressed. -/
def prStatusPath (repositoryId number : ℕ) : String :=
  Restate.pullRequest ++ "/" ++ toString repositoryId ++ "%23" ++ toString number ++ "/"
    ++ Restate.pullRequestStatus

/-- What is posted to, below the ingress: `send` one way, or `call`. -/
def postTarget (route path : String) : String := "/restate/" ++ route ++ "/" ++ path

namespace EdgeCall

open Restate

/-- The route and the path an invocation is posted to. -/
def post : EdgeCall → Option (String × String)
  | capabilities => some ("call", dashboardIngress ++ "/" ++ dashboardCapabilities)
  | runBatch batchId _ => some ("send", bulkAction ++ "/" ++ batchId ++ "/" ++ bulkActionRun)
  | batchProgress batchId =>
    some ("call", bulkAction ++ "/" ++ batchId ++ "/" ++ bulkActionProgress)
  | pullRequestStatus key => some ("call", prStatusPath key.repositoryId key.number)
  | syncInstallation => some ("send", dashboardIngress ++ "/" ++ dashboardSyncInstallation)
  | syncPullRequest _ => some ("send", dashboardIngress ++ "/" ++ dashboardSyncPullRequest)
  | _ => none

/-- The handler an invocation is of: its service, its key if it has one, and its
name. -/
def invoked : EdgeCall → Option (List String)
  | capabilities => some [dashboardIngress, dashboardCapabilities]
  | runBatch batchId _ => some [bulkAction, batchId, bulkActionRun]
  | batchProgress batchId => some [bulkAction, batchId, bulkActionProgress]
  | pullRequestStatus key => some [pullRequest, toString key, Restate.pullRequestStatus]
  | syncInstallation => some [dashboardIngress, dashboardSyncInstallation]
  | syncPullRequest _ => some [dashboardIngress, dashboardSyncPullRequest]
  | _ => none

end EdgeCall

/-! ## Reading them -/

/-- A text of a segment's plain characters. -/
def PlainName (name : String) : Prop :=
  ∀ c ∈ name.toList, UrlPath.isInner c = true ∧ c ≠ '%' ∧ c ≠ '.'

instance (name : String) : Decidable (PlainName name) :=
  List.decidableBAll _ name.toList

theorem plain_restate : PlainName "restate" := by decide

section Handlers

variable {route service key handler : String}

/-- The segments of a target, of those of its path. -/
theorem toList_postTarget {path : String} {segments : List (List Char)}
    (h : '/' :: path.toList = UrlPath.join segments) :
    (postTarget route path).toList = UrlPath.join ("restate".toList :: route.toList :: segments) := by
  simp [postTarget, UrlPath.join] at h ⊢
  exact h

/-- **A path of plain segments is read as they are.** -/
theorem read_postTarget {path : String} {segments : List (List Char)} {texts : List String}
    (hroute : PlainName route) (hpath : '/' :: path.toList = UrlPath.join segments)
    (h : List.Forall₂ UrlPath.Names segments texts) :
    UrlPath.read (postTarget route path).toList = some ("restate" :: route :: texts) := by
  rw [toList_postTarget hpath]
  exact UrlPath.read_join (List.cons_ne_nil _ _)
    (.cons (UrlPath.names_plain plain_restate) (.cons (UrlPath.names_plain hroute) h))

/-- The segments of a keyed handler's path. -/
theorem toList_keyedHandlerPath : '/' :: (keyedHandlerPath service key handler).toList =
    UrlPath.join [service.toList, UrlPath.encode key, handler.toList] := by
  simp [keyedHandlerPath, encodeObjectKey, UrlPath.join]

/-- A handler without a key is read as it was addressed. -/
theorem read_handlerPath (hroute : PlainName route) (hservice : PlainName service)
    (hhandler : PlainName handler) :
    UrlPath.read (postTarget route (handlerPath service handler)).toList =
      some ["restate", route, service, handler] :=
  read_postTarget hroute (by simp [handlerPath, UrlPath.join])
    (.cons (UrlPath.names_plain hservice) (.cons (UrlPath.names_plain hhandler) .nil))

/-- A key that needs no escape is read as it stands. -/
theorem read_plainKey (hroute : PlainName route) (hservice : PlainName service)
    (hkey : PlainName key) (hhandler : PlainName handler) :
    UrlPath.read (postTarget route (service ++ "/" ++ key ++ "/" ++ handler)).toList =
      some ["restate", route, service, key, handler] :=
  read_postTarget hroute (by simp [UrlPath.join]) (.cons (UrlPath.names_plain hservice)
    (.cons (UrlPath.names_plain hkey) (.cons (UrlPath.names_plain hhandler) .nil)))

/-- Any other is read as it was before it was escaped. -/
theorem read_keyedHandlerPath (hroute : PlainName route) (hservice : PlainName service)
    (hhandler : PlainName handler) (hdot : key ≠ ".") (hdouble : key ≠ "..") :
    UrlPath.read (postTarget route (keyedHandlerPath service key handler)).toList =
      some ["restate", route, service, key, handler] :=
  read_postTarget hroute toList_keyedHandlerPath (.cons (UrlPath.names_plain hservice)
    (.cons (UrlPath.names_encode hdot hdouble) (.cons (UrlPath.names_plain hhandler) .nil)))

/-- A dot for a key names the service's own handler. -/
theorem read_dot {root : String} (hroot : PlainName root) (hroute : PlainName route)
    (hservice : PlainName service) (hhandler : PlainName handler) :
    UrlPath.read (UrlPath.join [root.toList, route.toList, service.toList, UrlPath.encode ".",
      handler.toList]) = some [root, route, service, handler] := by
  obtain ⟨hroot, hrootText⟩ := UrlPath.names_plain hroot
  obtain ⟨hroute, hrouteText⟩ := UrlPath.names_plain hroute
  obtain ⟨hservice, hserviceText⟩ := UrlPath.names_plain hservice
  obtain ⟨hhandler, hhandlerText⟩ := UrlPath.names_plain hhandler
  rw [UrlPath.read_join_eq (List.cons_ne_nil _ _)]
  · simp [UrlPath.resolve, UrlPath.isDot_encode, UrlPath.isDoubleDot_encode, hroot.dot,
      hroot.doubleDot, hroute.dot, hroute.doubleDot, hservice.dot, hservice.doubleDot,
      hhandler.dot, hhandler.doubleDot, hrootText, hrouteText, hserviceText, hhandlerText]
  · simp only [List.mem_cons, List.not_mem_nil, or_false]
    rintro s (rfl | rfl | rfl | rfl | rfl)
    exacts [hroot.inner, hroute.inner, hservice.inner, UrlPath.inner_encode _, hhandler.inner]

/-- Two dots for a key take the service away with them. -/
theorem read_doubleDot {root : String} (hroot : PlainName root) (hroute : PlainName route)
    (hservice : PlainName service) (hhandler : PlainName handler) :
    UrlPath.read (UrlPath.join [root.toList, route.toList, service.toList, UrlPath.encode "..",
      handler.toList]) = some [root, route, handler] := by
  obtain ⟨hroot, hrootText⟩ := UrlPath.names_plain hroot
  obtain ⟨hroute, hrouteText⟩ := UrlPath.names_plain hroute
  obtain ⟨hservice, hserviceText⟩ := UrlPath.names_plain hservice
  obtain ⟨hhandler, hhandlerText⟩ := UrlPath.names_plain hhandler
  rw [UrlPath.read_join_eq (List.cons_ne_nil _ _)]
  · simp [UrlPath.resolve, UrlPath.isDoubleDot_encode, hroot.dot,
      hroot.doubleDot, hroute.dot, hroute.doubleDot, hservice.dot, hservice.doubleDot,
      hhandler.dot, hhandler.doubleDot, hrootText, hrouteText, hhandlerText]
  · simp only [List.mem_cons, List.not_mem_nil, or_false]
    rintro s (rfl | rfl | rfl | rfl | rfl)
    exacts [hroot.inner, hroute.inner, hservice.inner, UrlPath.inner_encode _, hhandler.inner]

/-- **A key reaches Restate as it is**, whatever text it is, but for the two a
URL resolves: `.` and `..` are not segments, and the path is another's. -/
theorem keyed_path_read_iff (hroute : PlainName route) (hservice : PlainName service)
    (hhandler : PlainName handler) :
    UrlPath.read (postTarget route (keyedHandlerPath service key handler)).toList =
      some ["restate", route, service, key, handler] ↔ key ≠ "." ∧ key ≠ ".." := by
  constructor
  · intro h
    rw [toList_postTarget toList_keyedHandlerPath] at h
    constructor
    · rintro rfl
      rw [read_dot plain_restate hroute hservice hhandler] at h
      simp at h
    · rintro rfl
      rw [read_doubleDot plain_restate hroute hservice hhandler] at h
      simp at h
  · rintro ⟨hdot, hdouble⟩
    exact read_keyedHandlerPath hroute hservice hhandler hdot hdouble

/-- What a URL would take for its own is read back; a single dot is not. -/
theorem keyed_path_read_iff_sample :
    UrlPath.read (postTarget "send" (keyedHandlerPath "PullRequest" "a/b#c%2F" "sync")).toList =
        some ["restate", "send", "PullRequest", "a/b#c%2F", "sync"] ∧
      UrlPath.read (postTarget "send" (keyedHandlerPath "PullRequest" "." "sync")).toList ≠
        some ["restate", "send", "PullRequest", ".", "sync"] := by
  refine ⟨(keyed_path_read_iff (by decide) (by decide) (by decide)).2 (by decide), fun h => ?_⟩
  exact ((keyed_path_read_iff (by decide) (by decide) (by decide)).1 h).1 rfl

/-- A number is written in its digits. -/
theorem encode_toString (n : ℕ) : UrlPath.encode (toString n) = (toString n).toList := by
  have hdigits : ∀ c ∈ (toString n).toList, c.toNat < 256 ∧ UrlPath.isUnreserved c.toNat = true := by
    intro c hc
    have hdigit : c.isDigit = true := by
      rw [show toString n = Nat.repr n from rfl, Nat.toList_repr] at hc
      exact Nat.isDigit_of_mem_toDigits (by decide) (by decide) hc
    have hrange : 48 ≤ c.toNat ∧ c.toNat ≤ 57 := by
      simpa [Char.isDigit, UInt32.le_iff_toNat_le] using hdigit
    simp [UrlPath.isUnreserved]
    omega
  rw [← String.ofList_toList (s := toString n), UrlPath.encode_of_unreserved hdigits,
    String.toList_ofList]

/-- The path of a pull request's object is its key's. -/
theorem prStatusPath_eq (key : PrKey) : prStatusPath key.repositoryId key.number =
    keyedHandlerPath Restate.pullRequest (toString key) Restate.pullRequestStatus := by
  have hhash : UrlPath.encode "#" = "%23".toList := by decide
  have hkey : UrlPath.encode (toString key) =
      (toString key.repositoryId ++ "%23" ++ toString key.number).toList := by
    rw [show toString key = toString key.repositoryId ++ "#" ++ toString key.number from rfl,
      UrlPath.encode_append, UrlPath.encode_append, encode_toString, encode_toString, hhash,
      String.toList_append, String.toList_append]
  rw [keyedHandlerPath, encodeObjectKey, hkey, String.ofList_toList]
  simp [prStatusPath, String.append_assoc]

end Handlers

/-! ## The requests of the browser -/

section Requests

variable {validBatchId : String → Bool} {codec : CursorCodec} {outcomes : OutcomeCodec}
  {store : Store} {tables : BatchTables outcomes} {installationId : ℕ} {user : String}
  {es : List (Exchange EdgeEffects)} {op : EdgeCall}

/-- How a UUID may be spelled: its digits and hyphens, in braces, or as a URN. -/
def UuidSpelled (id : String) : Prop :=
  ∀ c ∈ id.toList, c.isAlphanum = true ∨ c = '-' ∨ c = ':' ∨ c = '\x7b' ∨ c = '\x7d'

instance (id : String) : Decidable (UuidSpelled id) := List.decidableBAll _ id.toList

/-- A UUID needs no escape. -/
theorem UuidSpelled.plain {id : String} (h : UuidSpelled id) : PlainName id := by
  intro c hc
  have hother (other : Char) (hnot : other.isAlphanum = false) (hne : other ≠ '-' ∧ other ≠ ':' ∧
      other ≠ '\x7b' ∧ other ≠ '\x7d') : c ≠ other := by
    rintro rfl
    rcases h c hc with halnum | heq | heq | heq | heq
    · rw [hnot] at halnum
      cases halnum
    · exact hne.1 heq
    · exact hne.2.1 heq
    · exact hne.2.2.1 heq
    · exact hne.2.2.2 heq
  have hslash := hother '/' (by decide) (by decide)
  have hback := hother '\\' (by decide) (by decide)
  have hquery := hother '?' (by decide) (by decide)
  have hhash := hother '#' (by decide) (by decide)
  refine ⟨?_, hother '%' (by decide) (by decide), hother '.' (by decide) (by decide)⟩
  simp [UrlPath.isInner, UrlPath.isSeparator, UrlPath.endsPath, hslash, hback, hquery, hhash]

/-- **What the browser asks for reaches the handler it is for.** Every
invocation a request comes to is posted to a path that is read as the service,
the key and the handler it means: a batch id goes into its path as it is, once it
is held to be a UUID, and a pull request's key escaped. -/
theorem edge_addresses (hspelled : ∀ id, validBatchId id = true → UuidSpelled id)
    {request : EdgeRequest} (h : (request.serve validBatchId installationId user).Reaches es op)
    (hreads : ∀ e ∈ es, ReadOf codec store tables e) {route path : String}
    (hpost : op.post = some (route, path)) :
    ∃ invoked, op.invoked = some invoked ∧
      UrlPath.read (postTarget route path).toList = some ("restate" :: route :: invoked) := by
  have hconfined := confined_serve h hreads
  cases op with
  | capabilities =>
    obtain ⟨rfl, rfl⟩ := Prod.mk.inj (Option.some.inj hpost)
    exact ⟨_, rfl, read_handlerPath (by decide) (by decide) (by decide)⟩
  | runBatch batchId batch =>
    obtain ⟨rfl, rfl⟩ := Prod.mk.inj (Option.some.inj hpost)
    exact ⟨_, rfl, read_plainKey (by decide) (by decide) (hspelled _ hconfined.1).plain (by decide)⟩
  | batchProgress batchId =>
    obtain ⟨rfl, rfl⟩ := Prod.mk.inj (Option.some.inj hpost)
    exact ⟨_, rfl, read_plainKey (by decide) (by decide) (hspelled _ hconfined).plain (by decide)⟩
  | pullRequestStatus key =>
    obtain ⟨rfl, rfl⟩ := Prod.mk.inj (Option.some.inj hpost)
    have hkey : '#' ∈ (toString key).toList := by
      rw [PrKey.toList_toString]
      exact List.mem_append_right _ List.mem_cons_self
    have hdots : toString key ≠ "." ∧ toString key ≠ ".." := by
      constructor <;> intro heq <;> rw [heq] at hkey <;> revert hkey <;> decide
    refine ⟨_, rfl, ?_⟩
    rw [prStatusPath_eq]
    exact read_keyedHandlerPath (by decide) (by decide) (by decide) hdots.1 hdots.2
  | syncInstallation =>
    obtain ⟨rfl, rfl⟩ := Prod.mk.inj (Option.some.inj hpost)
    exact ⟨_, rfl, read_handlerPath (by decide) (by decide) (by decide)⟩
  | syncPullRequest request =>
    obtain ⟨rfl, rfl⟩ := Prod.mk.inj (Option.some.inj hpost)
    exact ⟨_, rfl, read_handlerPath (by decide) (by decide) (by decide)⟩
  | _ => cases hpost

end Requests

/-- The id of a batch, as the dashboard mints them. -/
def sampleUuid : String := "01926e3a-7c1e-7b7d-9f8b-2b4c6d8e0f1c"

/-- Its progress is asked of its own workflow. -/
theorem edge_addresses_sample : ∃ invoked,
    (EdgeCall.batchProgress sampleUuid).invoked = some invoked ∧
      UrlPath.read (postTarget "call" (Restate.bulkAction ++ "/" ++ sampleUuid ++ "/"
        ++ Restate.bulkActionProgress)).toList = some ("restate" :: "call" :: invoked) := by
  have hspelled : ∀ id, decide (id = sampleUuid) = true → UuidSpelled id := by
    intro id hid
    rw [of_decide_eq_true hid]
    decide
  have hreaches : ((EdgeRequest.loadBatchProgress sampleUuid).serve
      (fun id => decide (id = sampleUuid)) 9 "alice").Reaches [] (.batchProgress sampleUuid) := by
    rw [EdgeRequest.serve, loadBatchProgressIn, mintedHere, if_pos (decide_eq_true rfl)]
    exact .here
  have hreads : ∀ e ∈ ([] : List (Exchange EdgeEffects)),
      ReadOf cursorJson ProjectionReader.sampleProjection ProjectionReader.sampleForeign e :=
    fun e he => absurd he List.not_mem_nil
  have hpost : (EdgeCall.batchProgress sampleUuid).post = some ("call",
      Restate.bulkAction ++ "/" ++ sampleUuid ++ "/" ++ Restate.bulkActionProgress) := rfl
  exact edge_addresses hspelled hreaches hreads hpost

end Dependaboard
