import Dependaboard.Core.Spelling
import Dependaboard.Text.Base64Padded
import Dependaboard.Text.JsonSpelling
import Dependaboard.Web.Confined
import Dependaboard.Web.Webhook
/-!
# Web — the gate

Every request the server is sent is GitHub's delivery, which answers to its
signature, or goes to the dashboard, which is one user's: it carries that user's
credentials, and if it may change anything it was not sent by another site's
page. `gate_lets_through` is all a request can come to.

How a signature is verified and which server functions a request calls are left
open.
-/

namespace Dependaboard

open Durable Prog

/-! ## Requests -/

/-- The methods the edge tells apart: what changes nothing passes the site
check. -/
inductive RequestMethod where
  | get
  | head
  | options
  | post
  | other (word : String)
  deriving DecidableEq, Repr

/-- The headers of a request, their names in lower case. -/
abbrev HeaderMap : Type := List (String × List UInt8)

/-- The first header of a name. -/
def HeaderMap.get (headers : HeaderMap) (name : String) : Option (List UInt8) :=
  (headers.find? fun header => header.1 = name).map Prod.snd

/-- A request as it reaches the edge, before anything of it is believed. -/
structure HttpMessage where
  method : RequestMethod
  path : String
  /-- The authority of the request's URI. -/
  authority : Option String
  headers : HeaderMap
  body : List UInt8
  deriving DecidableEq, Repr

/-- The text of a header, of visible ASCII. -/
def headerText (value : List UInt8) : Option (List Char) :=
  if value.all fun b => 32 ≤ b && b < 127 || b = 9 then some (value.map Char.ofUInt8) else none

/-- What follows `start` in a text that begins with it. -/
def stripStart (start text : List Char) : Option (List Char) :=
  if start <+: text then some (text.drop start.length) else none

/-- A text after the first `sep` in it. -/
def afterFirst (sep : List Char) : List Char → Option (List Char)
  | [] => if sep = [] then some [] else none
  | c :: rest => if sep <+: c :: rest then some ((c :: rest).drop sep.length) else afterFirst sep rest

/-! ## The checks -/

/-- The user a request carries the credentials of. -/
def authenticatedDashboardUser (headers : HeaderMap) (username password : String) :
    Option String := do
  let value ← headers.get "authorization"
  let text ← headerText value
  let encoded ← stripStart "Basic ".toList text
  let bytes ← Base64.decodePadded encoded
  let credentials ← String.fromUTF8? bytes.toByteArray
  let halves ← splitOnce ':' credentials.toList
  if halves.1 = username.toList ∧ halves.2 = password.toList then some (String.ofList halves.1)
  else none

/-- The host a request was sent to, as the browser names it. -/
def HttpMessage.host (request : HttpMessage) : Option (List Char) :=
  ((request.headers.get "host").bind headerText).or (request.authority.map String.toList)

/-- The authority of an origin. -/
def originAuthority (origin : List UInt8) : Option (List Char) :=
  (headerText origin).bind (afterFirst "://".toList)

/-- The method cannot change state, so another site may send it. -/
def RequestMethod.ReadsOnly (method : RequestMethod) : Prop :=
  method = .get ∨ method = .head ∨ method = .options

instance (method : RequestMethod) : Decidable method.ReadsOnly :=
  inferInstanceAs (Decidable (_ ∨ _))

/-- Whether a request was sent from another site. The scheme of an origin is
left out of the comparison. -/
def crossSite (request : HttpMessage) : Bool :=
  if request.method.ReadsOnly then false
  else
    match request.headers.get "sec-fetch-site" with
    | some site => site ≠ JsonBytes.ascii "same-origin".toList ∧ site ≠ JsonBytes.ascii "none".toList
    | none =>
      match request.headers.get "origin" with
      | none => false
      | some origin =>
        match originAuthority origin, request.host with
        | some origin, some host => origin.map Char.toLower ≠ host.map Char.toLower
        | _, _ => true

/-! ## The server -/

/-- What the server asks for: of the projection and Restate for a server
function, or of Restate for a delivery, under its id. -/
inductive ServerCall where
  | edge (call : EdgeCall)
  | dispatchWebhook (event : WebhookEvent) (deliveryId : String)

/-- What each is answered in; what the edge asks is answered as
it is there. -/
@[reducible] def ServerCall.Answer : ServerCall → Type
  | edge call => call.Answer
  | dispatchWebhook _ _ => Except RestateIngressError Unit

/-- The interface of the server, its webhook route among it. -/
@[reducible] def ServerEffects : Signature := ⟨ServerCall, ServerCall.Answer⟩

/-- How a request is answered: with a status and a body, or by the server
functions it calls. -/
inductive ServerAnswer where
  | status (code : ℕ) (body : String)
  | called (results : List ((request : EdgeRequest) × Except ApiError request.Response))

/-- The server never fails to answer. -/
abbrev ServerM (α : Type) : Type := Prog ServerEffects Empty α

/-- A server function asks for what the server may. -/
def edgeReading : EdgeEffects.Reading ServerEffects where
  op := .edge
  ans _ answer := answer

/-- What the server is built with. -/
structure Server where
  username : String
  password : String
  installationId : ℕ
  validBatchId : String → Bool
  /-- A delivery's id and envelope, once its signature is verified, or the status
  it is rejected with. -/
  fromSigned : HeaderMap → List UInt8 → Except ℕ (String × Envelope)
  payloads : Payloads
  /-- The server functions a request calls. -/
  app : HttpMessage → List EdgeRequest

namespace Server

/-- Where GitHub delivers: served without credentials, the delivery's
signature standing in for them. -/
def webhookPath : String := "/api/webhooks/github"

variable (server : Server)

/-- A delivery is believed by its signature alone, and answered once Restate
has it: GitHub sends again what was not accepted. -/
def githubWebhook (request : HttpMessage) : ServerM ServerAnswer :=
  match server.fromSigned request.headers request.body with
  | .error status => .done (.status status "webhook delivery was rejected")
  | .ok (deliveryId, envelope) =>
    match routeDelivery server.payloads envelope with
    | .ok (.forward event) =>
      Prog.ask (S := ServerEffects) (.dispatchWebhook event deliveryId) fun
        | .ok () => .done (.status 200 "")
        | .error _ => .done (.status 502 "could not enqueue webhook")
    | .ok .acknowledge => .done (.status 204 "")
    | .error _ => .done (.status 400 "invalid GitHub webhook payload")

/-- Call some server functions, each to its end. -/
def callAll (user : String) : List EdgeRequest →
    ServerM (List ((request : EdgeRequest) × Except ApiError request.Response))
  | [] => .done []
  | request :: rest =>
    ((request.serve server.validBatchId server.installationId user).translate
      edgeReading).outcome.bind fun result =>
        (callAll user rest).bind fun results => .done (⟨request, result⟩ :: results)

/-- The dashboard: a request is authenticated, then held to the origin policy,
and only then reaches a server function. -/
def dashboard (request : HttpMessage) : ServerM ServerAnswer :=
  match authenticatedDashboardUser request.headers server.username server.password with
  | none => .done (.status 401 "authentication required")
  | some user =>
    if crossSite request then .done (.status 403 "cross-site request refused")
    else (server.callAll user (server.app request)).bind fun results => .done (.called results)

/-- `router`: the webhook's route beside the dashboard. -/
def router (request : HttpMessage) : ServerM ServerAnswer :=
  if request.path = webhookPath then
    if request.method = .post then server.githubWebhook request else .done (.status 405 "")
  else server.dashboard request

end Server

/-! ## Who is let through -/

/-- What a header names a user's credentials by. -/
def basicCredentials (username password : String) : List UInt8 :=
  JsonBytes.ascii ("Basic ".toList ++
    Base64.encodePadded (JsonBytes.utf8 (username.toList ++ ':' :: password.toList)))

theorem headerText_eq_some {value : List UInt8} {text : List Char} (h : headerText value = some text) :
    value = JsonBytes.ascii text := by
  unfold headerText at h
  split at h
  · rw [← Option.some.inj h, JsonBytes.ascii_map_ofUInt8]
  · cases h

theorem headerText_ascii {text : List Char} (h : ∀ c ∈ text, 32 ≤ c.toNat ∧ c.toNat < 127) :
    headerText (JsonBytes.ascii text) = some text := by
  have hall : ∀ n < 127, 32 ≤ n → (Char.ofUInt8 (Char.ofNat n).toUInt8 = Char.ofNat n ∧
      32 ≤ (Char.ofNat n).toUInt8 ∧ (Char.ofNat n).toUInt8 < 127) := by decide
  have hchar (c : Char) (hc : c ∈ text) : Char.ofUInt8 c.toUInt8 = c ∧
      32 ≤ c.toUInt8 ∧ c.toUInt8 < 127 := by
    have := hall c.toNat (h c hc).2 (h c hc).1
    rwa [Char.ofNat_toNat] at this
  have hvisible : (JsonBytes.ascii text).all fun b => 32 ≤ b && b < 127 || b = 9 := by
    simp only [JsonBytes.ascii, List.all_map, List.all_eq_true]
    intro c hc
    simp [(hchar c hc).2]
  rw [headerText, if_pos hvisible, JsonBytes.ascii, List.map_map]
  exact congrArg some ((List.map_congr_left fun c hc => (hchar c hc).1).trans (List.map_id _))

/-- What stands before the first separator holds none. -/
theorem notMem_of_splitOnce {sep : Char} {text before after : List Char}
    (h : splitOnce sep text = some (before, after)) : sep ∉ before := by
  induction text generalizing before with
  | nil => cases h
  | cons c rest ih =>
    unfold splitOnce at h
    split_ifs at h with hc
    · obtain ⟨rfl, rfl⟩ := Prod.mk.inj (Option.some.inj h)
      exact List.not_mem_nil
    · obtain ⟨halves, hhalves, heq⟩ := Option.map_eq_some_iff.1 h
      obtain ⟨rfl, rfl⟩ := Prod.mk.inj heq
      exact fun hmem => (List.mem_cons.1 hmem).elim (fun hsep => hc hsep.symm) (ih hhalves)

theorem stripStart_eq_some {start text rest : List Char} (h : stripStart start text = some rest) :
    start ++ rest = text := by
  unfold stripStart at h
  split at h
  · rename_i hstart
    obtain ⟨other, rfl⟩ := hstart
    simpa using h.symm
  · cases h

@[simp] theorem stripStart_append (start rest : List Char) :
    stripStart start (start ++ rest) = some rest := by
  simp [stripStart]

/-- **One header lets a request through**, and only as the configured user: none
does for a username with a colon in it. -/
theorem authenticatedDashboardUser_eq_some {headers : HeaderMap} {username password user : String} :
    authenticatedDashboardUser headers username password = some user ↔
      headers.get "authorization" = some (basicCredentials username password) ∧
        ':' ∉ username.toList ∧ user = username := by
  constructor
  · intro h
    obtain ⟨value, hvalue, h⟩ := Option.bind_eq_some_iff.1 h
    obtain ⟨text, htext, h⟩ := Option.bind_eq_some_iff.1 h
    obtain ⟨encoded, hencoded, h⟩ := Option.bind_eq_some_iff.1 h
    obtain ⟨bytes, hbytes, h⟩ := Option.bind_eq_some_iff.1 h
    obtain ⟨credentials, hcredentials, h⟩ := Option.bind_eq_some_iff.1 h
    obtain ⟨halves, hsplit, h⟩ := Option.bind_eq_some_iff.1 h
    split at h
    · rename_i hsame
      have hwhole : credentials.toList = username.toList ++ ':' :: password.toList := by
        rw [splitOnce_eq_some hsplit, hsame.1, hsame.2]
      refine ⟨?_, hsame.1 ▸ notMem_of_splitOnce hsplit, ?_⟩
      · rw [hvalue, headerText_eq_some htext, basicCredentials, ← hwhole,
          ← JsonBytes.eq_utf8_of_fromUTF8? hcredentials, Base64.encodePadded_of_decodePadded hbytes,
          stripStart_eq_some hencoded]
      · rw [← Option.some.inj h, hsame.1, String.ofList_toList]
    · cases h
  · rintro ⟨hvalue, hcolon, rfl⟩
    have htext : headerText (basicCredentials user password) = some ("Basic ".toList ++
        Base64.encodePadded (JsonBytes.utf8 (user.toList ++ ':' :: password.toList))) := by
      refine headerText_ascii fun c hc => ?_
      rcases List.mem_append.1 hc with hword | hencoded
      · have hall : "Basic ".toList.all (fun c => decide (32 ≤ c.toNat ∧ c.toNat < 127)) = true := by
          decide
        exact of_decide_eq_true (List.all_eq_true.1 hall c hword)
      · exact Base64.visible_of_mem_encodePadded hencoded
    have hutf8 := JsonBytes.fromUTF8?_utf8 (String.ofList (user.toList ++ ':' :: password.toList))
    rw [String.toList_ofList] at hutf8
    simp only [authenticatedDashboardUser, hvalue, htext, stripStart_append,
      Base64.decodePadded_encodePadded, hutf8, String.toList_ofList, splitOnce_append hcolon,
      Option.bind_eq_bind, Option.bind_some, and_self, if_true, String.ofList_toList]

/-- **A request is not another site's**: the browser says so, or says nothing of
where it came from, or names the page's origin, which is the host it was sent
to. -/
inductive HttpMessage.OwnSite (request : HttpMessage) : Prop
  | sameOrigin : request.headers.get "sec-fetch-site" = some (JsonBytes.ascii "same-origin".toList) →
      OwnSite request
  | userInitiated : request.headers.get "sec-fetch-site" = some (JsonBytes.ascii "none".toList) →
      OwnSite request
  | unnamed : request.headers.get "sec-fetch-site" = none → request.headers.get "origin" = none →
      OwnSite request
  | ofOrigin (origin : List UInt8) (authority host : List Char) :
      request.headers.get "sec-fetch-site" = none → request.headers.get "origin" = some origin →
      originAuthority origin = some authority → request.host = some host →
      authority.map Char.toLower = host.map Char.toLower → OwnSite request

theorem crossSite_eq_false {request : HttpMessage} :
    crossSite request = false ↔ request.method.ReadsOnly ∨ request.OwnSite := by
  unfold crossSite
  by_cases hreads : request.method.ReadsOnly
  · simp [hreads]
  rw [if_neg hreads]
  constructor
  · intro h
    refine .inr ?_
    cases hsite : request.headers.get "sec-fetch-site" with
    | some site =>
      simp only [hsite, decide_eq_false_iff_not, not_and_or, not_not] at h
      rcases h with rfl | rfl
      exacts [.sameOrigin hsite, .userInitiated hsite]
    | none =>
      simp only [hsite] at h
      cases horigin : request.headers.get "origin" with
      | none => exact .unnamed hsite horigin
      | some origin =>
        simp only [horigin] at h
        split at h
        · rename_i authority host hauthority hhost
          exact .ofOrigin origin authority host hsite horigin hauthority hhost
            (not_not.1 (of_decide_eq_false h))
        · cases h
  · rintro (hmethod | hown)
    · exact absurd hmethod hreads
    · cases hown with
      | sameOrigin hsite => simp [hsite]
      | userInitiated hsite => simp [hsite]
      | unnamed hsite horigin => simp [hsite, horigin]
      | ofOrigin origin authority host hsite horigin hauthority hhost hsame =>
        simp [hsite, horigin, hauthority, hhost, hsame]

/-! ## What is let through -/

/-- The server function asks to change something. -/
def EdgeRequest.Changes : EdgeRequest → Prop
  | submitBatch _ _ _ _ | requestSync | requestPrSync _ => True
  | _ => False

/-- The call changes something. -/
def EdgeCall.Changes : EdgeCall → Prop
  | runBatch _ _ | syncInstallation | syncPullRequest _ => True
  | _ => False

/-- What leaves everything outside the server as it was. -/
def EdgeCall.Reads (call : EdgeCall) : Prop := ¬ call.Changes

/-- **A request the dashboard lets through.** -/
structure Server.Admitted (server : Server) (request : HttpMessage) : Prop where
  path : request.path ≠ webhookPath
  credentials : request.headers.get "authorization" =
    some (basicCredentials server.username server.password)
  username : ':' ∉ server.username.toList
  site : request.method.ReadsOnly ∨ request.OwnSite

/-- **A delivery of GitHub's**, signed, that is forwarded as an event. -/
structure Server.Delivers (server : Server) (request : HttpMessage) (event : WebhookEvent)
    (deliveryId : String) : Prop where
  path : request.path = webhookPath
  method : request.method = .post
  signed : ∃ envelope, server.fromSigned request.headers request.body = .ok (deliveryId, envelope) ∧
    routeDelivery server.payloads envelope = .ok (.forward event)

section Gate

variable {server : Server} {request : HttpMessage} {es : List (Exchange ServerEffects)}
  {op : ServerCall} {codec : CursorCodec} {outcomes : OutcomeCodec} {store : Store}
  {tables : BatchTables outcomes} {user : String}

/-- A server function that changes nothing asks for no change. -/
theorem asks_serve {validBatchId : String → Bool} {installationId : ℕ} {asked : EdgeRequest}
    (h : ¬ asked.Changes) :
    (asked.serve validBatchId installationId user).Asks EdgeCall.Reads := by
  have hstore {α : Type} (answer : Except StoreError α) :
      (EdgeM.ofStore answer).Asks EdgeCall.Reads := asks_ofExcept _
  have hingress {α : Type} (answer : Except RestateIngressError α) :
      (EdgeM.ofIngress answer).Asks EdgeCall.Reads := asks_ofExcept _
  have hprojected (key : PrKey) :
      (projectedPr installationId key).Asks EdgeCall.Reads :=
    ⟨id, fun answer => (hstore answer).bind fun _ => asks_ofExcept _⟩
  have hminted (batchId : String) :
      (mintedHere validBatchId batchId).Asks EdgeCall.Reads := by
    unfold mintedHere
    split <;> trivial
  cases asked with
  | loadDashboard filter page => exact ⟨id, hstore⟩
  | loadSummary filter => exact ⟨id, hstore⟩
  | loadMatching filter => exact ⟨id, hstore⟩
  | loadProjectionRevision => exact ⟨id, hstore⟩
  | loadSignedInUser => trivial
  | loadCapabilities => exact ⟨id, hingress⟩
  | submitBatch batchId action targets retriedFrom => exact absurd trivial h
  | loadBatchProgress batchId =>
    exact (hminted batchId).bind fun _ => ⟨id, fun answer => hingress _⟩
  | loadRecentBatches limit =>
    exact ⟨id, fun answer => (hstore answer).bind fun _ =>
      ⟨id, fun answer => (hstore answer).bind fun _ => trivial⟩⟩
  | loadBatchProjection batchId => exact (hminted batchId).bind fun _ => ⟨id, hstore⟩
  | loadPrStatus key =>
    refine (hprojected key).bind fun found => ?_
    cases found with
    | none => trivial
    | some row => exact ⟨id, hingress⟩
  | loadPrProjection key => exact hprojected key
  | requestSync => exact absurd trivial h
  | requestPrSync key => exact absurd trivial h

/-- What the projection answered is as the state has it. -/
def ReadsAre (codec : CursorCodec) (store : Store) (tables : BatchTables outcomes)
    (es : List (Exchange ServerEffects)) : Prop :=
  ∀ call (answer : call.Answer), ⟨.edge call, answer⟩ ∈ es → ReadOf codec store tables ⟨call, answer⟩

theorem ReadsAre.mono {es' : List (Exchange ServerEffects)} (h : ReadsAre codec store tables es)
    (hsub : es' ⊆ es) : ReadsAre codec store tables es' :=
  fun call answer hmem => h call answer (hsub hmem)

/-- **What a function called on the way asks for**: it is confined to the
installation and to the keys the browser named, and changes something only if
the function is one that does. -/
theorem reaches_callAll {requests : List EdgeRequest}
    (h : (server.callAll user requests).Reaches es op) (hreads : ReadsAre codec store tables es) :
    ∃ asked ∈ requests, ∃ call, op = .edge call ∧
      call.Confined server.validBatchId store server.installationId user asked.keys ∧
      (call.Changes → asked.Changes) := by
  induction requests generalizing es with
  | nil => exact absurd h not_reaches_done
  | cons asked rest ih =>
    rcases reaches_bind.1 h with hwithin | ⟨result, first, last, rfl, -, hlast⟩
    · obtain ⟨es', call, hcall, hseen, rfl⟩ :=
        reaches_translate edgeReading (reaches_outcome.1 hwithin)
      have hasked : ∀ e ∈ es', ReadOf codec store tables e := by
        intro e he
        obtain ⟨e', he', other, answer, rfl, rfl⟩ := SeenAs.of_mem hseen he
        exact hreads other answer he'
      exact ⟨asked, List.mem_cons_self, call, rfl, confined_serve hcall hasked, fun hchanges =>
        by_contra fun hno => (asks_serve hno).reaches hcall hchanges⟩
    · rcases reaches_bind.1 hlast with hrest | ⟨results, middle, nothing, -, -, hdone⟩
      · obtain ⟨other, hother, hcall⟩ := ih hrest (hreads.mono (List.subset_append_right _ _))
        exact ⟨other, List.mem_cons_of_mem _ hother, hcall⟩
      · exact absurd hdone not_reaches_done

/-- Every function is called, and answered. -/
theorem exchanges_callAll {requests : List EdgeRequest}
    {r : Except Empty (List ((asked : EdgeRequest) × Except ApiError asked.Response))}
    (h : (server.callAll user requests).Exchanges es r) :
    ∃ results, r = .ok results ∧ results.map Sigma.fst = requests := by
  induction requests generalizing es r with
  | nil =>
    obtain ⟨-, rfl⟩ := exchanges_done.1 h
    exact ⟨[], rfl, rfl⟩
  | cons asked rest ih =>
    rcases exchanges_bind.1 h with ⟨error, -, -⟩ | ⟨result, first, last, rfl, -, hlast⟩
    · exact error.elim
    · rcases exchanges_bind.1 hlast with ⟨error, -, -⟩ | ⟨results, middle, nothing, rfl, hrest, hdone⟩
      · exact error.elim
      · obtain ⟨-, rfl⟩ := exchanges_done.1 hdone
        obtain ⟨_, hresults, rfl⟩ := ih hrest
        obtain rfl := Except.ok.inj hresults
        exact ⟨_, rfl, rfl⟩

/-- A request that is not let through asks for nothing, and is told with a 401
or a 403. -/
theorem dashboard_refused (hpath : request.path ≠ Server.webhookPath)
    (h : ¬ server.Admitted request) :
    ∃ code body, (code = 401 ∨ code = 403) ∧
      server.dashboard request = .done (.status code body) := by
  unfold Server.dashboard
  cases huser : authenticatedDashboardUser request.headers server.username server.password with
  | none => exact ⟨401, _, .inl rfl, rfl⟩
  | some user =>
    obtain ⟨hcredentials, hcolon, -⟩ := authenticatedDashboardUser_eq_some.1 huser
    cases hcross : crossSite request with
    | true => exact ⟨403, _, .inr rfl, rfl⟩
    | false => exact absurd ⟨hpath, hcredentials, hcolon, crossSite_eq_false.1 hcross⟩ h

/-- One that is let through calls its functions, as the configured user. -/
theorem dashboard_admitted (h : server.Admitted request) :
    server.dashboard request =
      (server.callAll server.username (server.app request)).bind fun results =>
        .done (.called results) := by
  have huser := authenticatedDashboardUser_eq_some.2 ⟨h.credentials, h.username, rfl⟩
  rw [Server.dashboard, huser]
  exact if_neg (by simp [crossSite_eq_false.2 h.site])

/-- A delivery is all that is asked for on GitHub's path. -/
theorem reaches_githubWebhook (h : (server.githubWebhook request).Reaches es op)
    (hpath : request.path = Server.webhookPath) (hmethod : request.method = .post) :
    ∃ event deliveryId, op = .dispatchWebhook event deliveryId ∧
      server.Delivers request event deliveryId := by
  unfold Server.githubWebhook at h
  split at h
  · exact absurd h not_reaches_done
  · rename_i deliveryId envelope hsigned
    split at h
    · rename_i event hevent
      rcases reaches_ask.1 h with ⟨-, rfl⟩ | ⟨answer, rest, rfl, hrest⟩
      · exact ⟨event, deliveryId, rfl, hpath, hmethod, envelope, hsigned, hevent⟩
      · cases answer with
        | ok _ => exact absurd hrest not_reaches_done
        | error _ => exact absurd hrest not_reaches_done
    · exact absurd h not_reaches_done
    · exact absurd h not_reaches_done

/-- **The gate.** Whatever the server is sent, it asks for something only for
GitHub or for its one user: a delivery is dispatched only off a request to
GitHub's path whose signature was verified, and the projection is read and
Restate invoked only for a request that carries exactly the configured user's
credentials, for that user and the configured installation, and only a request
of the dashboard's own pages changes anything. Every other request to the
dashboard is refused having asked for nothing, and every one let through is
served whole. -/
theorem gate_lets_through
    (happ : ∀ request : HttpMessage, request.method.ReadsOnly →
      ∀ asked ∈ server.app request, ¬ asked.Changes) :
    ((server.router request).Reaches es op → ReadsAre codec store tables es →
      (∃ event deliveryId, op = .dispatchWebhook event deliveryId ∧
        server.Delivers request event deliveryId) ∨
      (∃ call, op = .edge call ∧ server.Admitted request ∧ (call.Changes → request.OwnSite) ∧
        ∃ asked ∈ server.app request, call.Confined server.validBatchId store
          server.installationId server.username asked.keys)) ∧
    ∀ r, (server.router request).Exchanges es r → request.path ≠ Server.webhookPath →
      (server.Admitted request ∧ ∃ results, r = .ok (.called results) ∧
        results.map Sigma.fst = server.app request) ∨
      (¬ server.Admitted request ∧ es = [] ∧
        ∃ code body, (code = 401 ∨ code = 403) ∧ r = .ok (.status code body)) := by
  unfold Server.router
  constructor
  · intro h hreads
    split at h
    · rename_i hpath
      split at h
      · exact .inl (reaches_githubWebhook h hpath ‹_›)
      · exact absurd h not_reaches_done
    · rename_i hpath
      by_cases hadmitted : server.Admitted request
      · rw [dashboard_admitted hadmitted] at h
        rcases reaches_bind.1 h with hcalled | ⟨results, first, rest, -, -, hdone⟩
        · obtain ⟨asked, hasked, call, rfl, hconfined, hchanges⟩ := reaches_callAll hcalled hreads
          refine .inr ⟨call, rfl, hadmitted, fun hcall => ?_, asked, hasked, hconfined⟩
          exact hadmitted.site.resolve_left fun hmethod =>
            happ request hmethod asked hasked (hchanges hcall)
        · exact absurd hdone not_reaches_done
      · obtain ⟨code, body, -, hrefused⟩ := dashboard_refused hpath hadmitted
        rw [hrefused] at h
        exact absurd h not_reaches_done
  · intro r h hpath
    rw [if_neg hpath] at h
    by_cases hadmitted : server.Admitted request
    · rw [dashboard_admitted hadmitted] at h
      rcases exchanges_bind.1 h with ⟨error, -, -⟩ | ⟨results, first, rest, -, hcalled, hdone⟩
      · exact error.elim
      · obtain ⟨-, rfl⟩ := exchanges_done.1 hdone
        obtain ⟨_, hresults, hall⟩ := exchanges_callAll hcalled
        obtain rfl := Except.ok.inj hresults
        exact .inl ⟨hadmitted, results, rfl, hall⟩
    · obtain ⟨code, body, hcode, hrefused⟩ := dashboard_refused hpath hadmitted
      rw [hrefused] at h
      obtain ⟨rfl, rfl⟩ := exchanges_done.1 h
      exact .inr ⟨hadmitted, rfl, code, body, hcode, rfl⟩

end Gate

/-! ### A sync asked for from the dashboard's own page -/

/-- A server with one user, which reads any `POST` as the request
for a sync. -/
def sampleServer : Server where
  username := "alice"
  password := "secret"
  installationId := 9
  validBatchId _ := true
  fromSigned _ _ := .error 401
  payloads := ⟨fun _ => .error "", fun _ => .error "", fun _ => .error "", fun _ => .error ""⟩
  app request := if request.method = .post then [.requestSync] else []

/-- That request as the dashboard's own page sends it, the origin's case not
the host's. -/
def sampleMessage : HttpMessage where
  method := .post
  path := "/api/request_sync"
  authority := none
  headers := [("authorization", JsonBytes.ascii "Basic YWxpY2U6c2VjcmV0".toList),
    ("host", JsonBytes.ascii "dashboard.example".toList),
    ("origin", JsonBytes.ascii "https://Dashboard.example".toList)]
  body := []

theorem sampleMessage_admitted : sampleServer.Admitted sampleMessage :=
  ⟨by decide, by decide +kernel, by decide, crossSite_eq_false.1 (by decide +kernel)⟩

theorem gate_lets_through_sample : sampleServer.Admitted sampleMessage ∧ sampleMessage.OwnSite := by
  have happ : ∀ request : HttpMessage, request.method.ReadsOnly →
      ∀ asked ∈ sampleServer.app request, ¬ asked.Changes := by
    intro request hmethod asked hasked
    have hpost : request.method ≠ .post := by
      rintro hpost
      rw [hpost] at hmethod
      revert hmethod
      decide
    rw [show sampleServer.app request = [] from if_neg hpost] at hasked
    cases hasked
  have hreaches : (sampleServer.router sampleMessage).Reaches [] (.edge .syncInstallation) := by
    rw [Server.router, if_neg sampleMessage_admitted.path, dashboard_admitted sampleMessage_admitted]
    exact .here
  have hreads : ReadsAre cursorJson ProjectionReader.sampleProjection
      ProjectionReader.sampleForeign ([] : List (Exchange ServerEffects)) :=
    fun call answer hmem => absurd hmem List.not_mem_nil
  rcases (gate_lets_through happ).1 hreaches hreads with
    ⟨event, deliveryId, hop, -⟩ | ⟨call, hop, hadmitted, hown, -⟩
  · cases hop
  · cases hop
    exact ⟨hadmitted, hown trivial⟩

end Dependaboard
