import Dependaboard.Durable.Exchange
import Dependaboard.Github.Snapshot
import Dependaboard.Github.Wire
/-!
# GitHub — the installation's token

The App speaks under a token it mints with a JWT of its own and keeps in one
cache, behind one lock, until a minute before it expires. Any number of
requests share the cache. Each finds its token under the lock, so while one
mints the others wait; a request answered 401 mints once more and is sent
again.
-/

namespace Dependaboard

open Durable

/-- A token kept with its own expiry, so that it is let go before GitHub
refuses it. -/
structure CachedToken where
  value : String
  expiresAt : ℕ
  deriving DecidableEq, Repr

/-- GitHub's answer to `POST /app/installations/{id}/access_tokens`. -/
structure InstallationToken where
  token : String
  expiresAt : String
  deriving DecidableEq, Repr

/-- What the App's JWT claims: when it holds from, until when, and whose it
is. -/
structure JwtClaims where
  iat : ℕ
  exp : ℕ
  iss : String
  deriving DecidableEq, Repr

/-- The App: its id, and its key, which signs a JWT or says why it cannot. -/
structure GithubApp where
  appId : ℕ
  sign : JwtClaims → Except String String

/-- The methods the client asks with. -/
inductive HttpMethod where
  | get
  | post
  | put
  deriving DecidableEq, Repr

/-- A request, but for the headers every one has. -/
structure HttpRequest where
  method : HttpMethod
  url : String
  body : Option String
  deriving DecidableEq, Repr

/-- What a request made as the installation asks for, its token included. -/
inductive TokenCall where
  | unixSeconds
  /-- Wait for the lock of the cache. -/
  | lock
  | get (installationId : ℕ)
  /-- Ask GitHub for a token. -/
  | mint (installationId : ℕ) (jwt : String)
  | insert (installationId : ℕ) (token : CachedToken)
  | unlock
  /-- Send the request itself. -/
  | send (request : HttpRequest) (token : String)
  deriving DecidableEq, Repr

/-- What each is answered in; waiting for the lock cannot fail. -/
@[reducible] def TokenCall.Answer (α : Type) : TokenCall → Type
  | unixSeconds => ℕ
  | lock => Unit
  | get _ => Option CachedToken
  | mint _ _ => Reply InstallationToken
  | insert _ _ => Unit
  | unlock => Unit
  | send _ _ => Reply α

/-- The interface of a request that is answered in `α`. -/
@[reducible] def TokenEffects (α : Type) : Signature := ⟨TokenCall, TokenCall.Answer α⟩

/-- A request, or a part of one. -/
abbrev TokenM (α β : Type) : Type := Prog (TokenEffects α) GithubError β

namespace Tokens

variable {α : Type} (readers : SnapshotReaders) (app : GithubApp)

/-- An answer, if one came. -/
def transported {β : Type} : Reply β → Except GithubError (Response β)
  | .error cause => .error (.transport cause)
  | .ok response => .ok response

/-- The token in an answer. -/
def readToken (reply : Reply InstallationToken) : Except GithubError CachedToken := do
  let response ← transported reply
  let token ← parseResponse response
  let expiresAt ← parseTimestamp readers token.expiresAt
  return ⟨token.token, expiresAt⟩

/-- `app_jwt`: a minute back for a clock that is ahead, and nine minutes
on. -/
def appJwt : TokenM α String :=
  Prog.ask (S := TokenEffects α) .unixSeconds fun now =>
    match app.sign ⟨now - 60, now + 9 * 60, toString app.appId⟩ with
    | .ok jwt => .done jwt
    | .error cause => .fail (.config ("cannot sign GitHub App JWT: " ++ cause))

/-- A new token, in the cache. -/
def mintToken (installationId : ℕ) : TokenM α String :=
  (appJwt app).bind fun jwt =>
    Prog.ask (S := TokenEffects α) (.mint installationId jwt) fun reply =>
      (Prog.ofExcept (readToken readers reply)).bind fun token =>
        Prog.ask (S := TokenEffects α) (.insert installationId token) fun () => .done token.value

/-- What is done under the lock: the cached token, unless a refresh is forced
or it had a minute or less at `now`. -/
def lockedToken (installationId : ℕ) (forceRefresh : Bool) (now : ℕ) : TokenM α String :=
  if forceRefresh then mintToken readers app installationId
  else
    Prog.ask (S := TokenEffects α) (.get installationId) fun cached =>
      match cached with
      | none => mintToken readers app installationId
      | some token =>
        if now + 60 < token.expiresAt then .done token.value
        else mintToken readers app installationId

/-- `installation_token`. The clock is read before the lock is waited for, and
the lock is let go however the rest ends. -/
def installationToken (installationId : ℕ) (forceRefresh : Bool) : TokenM α String :=
  Prog.ask (S := TokenEffects α) .unixSeconds fun now =>
    Prog.ask (S := TokenEffects α) .lock fun () =>
      (lockedToken readers app installationId forceRefresh now).outcome.bind fun result =>
        Prog.ask (S := TokenEffects α) .unlock fun () => Prog.ofExcept result

/-- Send a request under a token. -/
def sendUnder (request : HttpRequest) (token : String) : TokenM α (Response α) :=
  Prog.ask (S := TokenEffects α) (.send request token) fun reply =>
    Prog.ofExcept (transported reply)

/-- `installation_send`: a request answered 401 is sent once more, under a
token minted for it. -/
def installationSend (installationId : ℕ) (request : HttpRequest) : TokenM α (Response α) :=
  (installationToken readers app installationId false).bind fun token =>
    (sendUnder request token).bind fun response =>
      if response.unauthorized then
        (installationToken readers app installationId true).bind fun token =>
          sendUnder request token
      else .done response

end Tokens

/-! ## What the rest of the client sees of it -/

section Seen

open Tokens GithubM Prog

variable {readers : SnapshotReaders} {app : GithubApp} {stage : Stage} {call : GithubCall}
  {installationId : ℕ} {request : HttpRequest}

/-- How the request itself was answered. -/
def sentReply {α : Type} : Exchange (TokenEffects α) → Option (Reply α)
  | ⟨.send _ _, reply⟩ => some reply
  | _ => none

/-- How the call was answered. -/
def callReply (stage : Stage) (call : GithubCall) (e : Exchange GithubEffects) :
    Option (Reply call.Payload) :=
  if h : e.1 = ⟨stage, call⟩ then some (cast (congrArg GithubEffects.Ans h) e.2) else none

@[simp] theorem callReply_self (reply : Reply call.Payload) :
    callReply stage call ⟨⟨stage, call⟩, reply⟩ = some reply := by
  simp [callReply]

/-- Why a token cannot be had. -/
inductive TokenFailure : GithubError → Prop
  | unsigned (cause : String) : TokenFailure (.config ("cannot sign GitHub App JWT: " ++ cause))
  | transport (cause : String) : TokenFailure (.transport cause)
  | http (response : GithubErrorResponse) : TokenFailure (.http response false)
  | protocol (source : ProtocolError) : TokenFailure (.protocol source)

theorem readToken_error {reply : Reply InstallationToken} {error : GithubError}
    (h : readToken readers reply = .error error) : TokenFailure error := by
  rcases reply with cause | response
  · exact Except.error.inj h ▸ .transport cause
  · cases response with
    | refused response => exact Except.error.inj h ▸ .http response
    | unreadable source => exact Except.error.inj h ▸ .protocol source
    | answered token =>
      have hparse : parseTimestamp readers token.expiresAt = .error error := by
        change (parseTimestamp readers token.expiresAt >>= _) = _ at h
        cases hparse : parseTimestamp readers token.expiresAt with
        | error other =>
          rw [hparse] at h
          exact congrArg _ (Except.error.inj h)
        | ok expiresAt =>
          rw [hparse] at h
          cases h
      unfold parseTimestamp at hparse
      split at hparse
      · exact Except.error.inj hparse ▸ .protocol _
      · split at hparse
        · cases hparse
        · exact Except.error.inj hparse ▸ .protocol _

/-- Nothing is sent to find a token, and what keeps one from being had is a
`TokenFailure`. -/
def FindsToken {α : Type} (es : List (Exchange (TokenEffects α))) (r : Except GithubError String) : Prop :=
  es.filterMap sentReply = [] ∧ ∀ error, r = .error error → TokenFailure error

theorem findsToken_mint {α : Type} {es : List (Exchange (TokenEffects α))}
    {r : Except GithubError String}
    (h : (mintToken readers app installationId).Exchanges es r) : FindsToken es r := by
  unfold mintToken appJwt at h
  rw [ask_bind] at h
  obtain ⟨now, rest, rfl, hrest⟩ := exchanges_ask.1 h
  cases hsign : app.sign ⟨now - 60, now + 9 * 60, toString app.appId⟩ with
  | error cause =>
    simp only [hsign, fail_bind, exchanges_fail] at hrest
    obtain ⟨rfl, rfl⟩ := hrest
    exact ⟨rfl, fun error herror => Except.error.inj herror ▸ .unsigned cause⟩
  | ok jwt =>
    simp only [hsign, done_bind] at hrest
    obtain ⟨reply, after, rfl, hafter⟩ := exchanges_ask.1 hrest
    cases htoken : readToken readers reply with
    | error failure =>
      simp only [htoken, ofExcept_error, fail_bind, exchanges_fail] at hafter
      obtain ⟨rfl, rfl⟩ := hafter
      exact ⟨rfl, fun error herror => Except.error.inj herror ▸ readToken_error htoken⟩
    | ok token =>
      simp only [htoken, ofExcept_ok, done_bind] at hafter
      obtain ⟨_, last, rfl, hlast⟩ := exchanges_ask.1 hafter
      obtain ⟨rfl, rfl⟩ := exchanges_done.1 hlast
      exact ⟨rfl, fun _ herror => by cases herror⟩

theorem findsToken_lockedToken {α : Type} {es : List (Exchange (TokenEffects α))}
    {forceRefresh : Bool} {now : ℕ} {r : Except GithubError String}
    (h : (lockedToken readers app installationId forceRefresh now).Exchanges es r) :
    FindsToken es r := by
  unfold lockedToken at h
  split at h
  · exact findsToken_mint h
  · obtain ⟨cached, rest, rfl, hrest⟩ := exchanges_ask.1 h
    split at hrest
    · exact @findsToken_mint _ _ _ α rest r hrest
    · split at hrest
      · obtain ⟨rfl, rfl⟩ := exchanges_done.1 hrest
        exact ⟨rfl, nofun⟩
      · exact @findsToken_mint _ _ _ α rest r hrest

theorem findsToken_installationToken {α : Type} {es : List (Exchange (TokenEffects α))}
    {forceRefresh : Bool} {r : Except GithubError String}
    (h : (Tokens.installationToken readers app installationId forceRefresh).Exchanges es r) :
    FindsToken es r := by
  unfold Tokens.installationToken at h
  obtain ⟨now, rest, rfl, hrest⟩ := exchanges_ask.1 h
  obtain ⟨_, locked, rfl, hlocked⟩ := exchanges_ask.1 hrest
  rcases exchanges_bind.1 hlocked with ⟨error, -, hfail⟩ | ⟨result, found, after, rfl, hfound, hafter⟩
  · obtain ⟨result, hresult, -⟩ := exchanges_outcome.1 hfail
    cases hresult
  · obtain ⟨_, hresult, hfound⟩ := exchanges_outcome.1 hfound
    obtain rfl := Except.ok.inj hresult
    obtain ⟨hsent, hfailure⟩ := findsToken_lockedToken hfound
    obtain ⟨_, last, rfl, hlast⟩ := exchanges_ask.1 hafter
    obtain ⟨rfl, rfl⟩ := exchanges_ofExcept.1 hlast
    refine ⟨?_, hfailure⟩
    change (found ++ [_]).filterMap sentReply = []
    rw [List.filterMap_append, hsent]
    rfl

/-- How the client's own call for a token is answered where it ends so. -/
theorem exchanges_token {α : Type} (stage : Stage) (forceRefresh : Bool)
    {es : List (Exchange (TokenEffects α))} {r : Except GithubError String} (h : FindsToken es r) :
    ∃ reply : Reply (Except String Unit),
      (Dependaboard.installationToken stage forceRefresh).Exchanges
        [⟨⟨stage, .installationToken forceRefresh⟩, reply⟩]
        ((r.map fun _ => ()).mapError .error) := by
  cases r with
  | ok value => exact ⟨.ok (.answered (.ok ())), .ask (.done _)⟩
  | error error =>
    cases h.2 error rfl with
    | unsigned cause => exact ⟨.ok (.answered (.error cause)), .ask (.fail _)⟩
    | transport cause => exact ⟨.error cause, .ask (.fail _)⟩
    | http response => exact ⟨.ok (.refused response), .ask (.fail _)⟩
    | protocol source => exact ⟨.ok (.unreadable source), .ask (.fail _)⟩

theorem exchanges_clientSend (reply : Reply call.Payload) :
    (send stage call).Exchanges [⟨⟨stage, call⟩, reply⟩] ((transported reply).mapError .error) := by
  cases reply with
  | error cause => exact .ask (.fail _)
  | ok response => exact .ask (.done _)

theorem exchanges_sendUnder {α : Type} {token : String} {es : List (Exchange (TokenEffects α))}
    {r : Except GithubError (Response α)} (h : (sendUnder request token).Exchanges es r) :
    ∃ reply, es = [⟨.send request token, reply⟩] ∧ r = transported reply := by
  obtain ⟨reply, rest, rfl, hrest⟩ := exchanges_ask.1 h
  obtain ⟨rfl, rfl⟩ := exchanges_ofExcept.1 hrest
  exact ⟨reply, rfl, rfl⟩

/-- A token and a request under it, as the client makes them. -/
theorem exchanges_under (stage : Stage) {forceRefresh : Bool}
    {es : List (Exchange (TokenEffects call.Payload))}
    {r : Except GithubError (Response call.Payload)}
    (hcall : ∀ forceRefresh, call ≠ .installationToken forceRefresh)
    (h : ((Tokens.installationToken readers app installationId forceRefresh).bind fun token =>
      sendUnder request token).Exchanges es r) :
    ∃ es', ((Dependaboard.installationToken stage forceRefresh).bind fun _ =>
        send stage call).Exchanges es' (r.mapError .error) ∧
      es'.filterMap (callReply stage call) = es.filterMap sentReply := by
  have hnone (reply : Reply (Except String Unit)) : callReply stage call
      ⟨⟨stage, .installationToken forceRefresh⟩, reply⟩ = none := by
    refine dif_neg fun heq => hcall forceRefresh ?_
    exact (congrArg Request.call heq).symm
  rcases exchanges_bind.1 h with ⟨error, rfl, hfail⟩ | ⟨token, first, rest, rfl, hfirst, hrest⟩
  · have hfinds := findsToken_installationToken hfail
    obtain ⟨reply, hseen⟩ := exchanges_token stage forceRefresh hfinds
    exact ⟨_, exchanges_bind.2 (.inl ⟨.error error, rfl, hseen⟩), by simp [hnone, hfinds.1]⟩
  · have hfinds := findsToken_installationToken hfirst
    obtain ⟨reply, hseen⟩ := exchanges_token stage forceRefresh hfinds
    obtain ⟨sent, rfl, rfl⟩ := exchanges_sendUnder hrest
    refine ⟨_, exchanges_bind.2 (.inr ⟨(), _, _, rfl, hseen, exchanges_clientSend sent⟩), ?_⟩
    simp only [List.filterMap_append, hfinds.1, List.filterMap_cons, hnone, List.filterMap_nil]
    exact congrArg (·.toList) (callReply_self sent)

/-- **A request sent under the installation's token is one the client makes**:
answered as the request itself is, and ending as it ends. -/
theorem installationSend_seen {es : List (Exchange (TokenEffects call.Payload))}
    {r : Except GithubError (Response call.Payload)}
    (hcall : ∀ forceRefresh, call ≠ .installationToken forceRefresh)
    (h : (installationSend readers app installationId request).Exchanges es r) :
    ∃ es', (installationRequest stage call).Exchanges es' (r.mapError .error) ∧
      es'.filterMap (callReply stage call) = es.filterMap sentReply := by
  unfold installationSend at h
  rw [← bind_assoc] at h
  have hrequest : installationRequest stage call =
      ((Dependaboard.installationToken stage false).bind fun _ => send stage call).bind
        fun response => if response.unauthorized then
          (Dependaboard.installationToken stage true).bind fun _ => send stage call
        else .done response := by
    rw [bind_assoc]
    rfl
  rw [hrequest]
  rcases exchanges_bind.1 h with ⟨error, rfl, hfail⟩ | ⟨response, first, rest, rfl, hfirst, hrest⟩
  · obtain ⟨es', hes', hsame⟩ := exchanges_under stage hcall hfail
    exact ⟨es', exchanges_bind.2 (.inl ⟨.error error, rfl, hes'⟩), hsame⟩
  · obtain ⟨es', hes', hsame⟩ := exchanges_under stage hcall hfirst
    split at hrest
    · rename_i hunauthorized
      obtain ⟨es'', hes'', hsame'⟩ := exchanges_under stage hcall hrest
      refine ⟨es' ++ es'', exchanges_bind.2 (.inr ⟨response, es', es'', rfl, hes', ?_⟩), ?_⟩
      · simpa only [hunauthorized, if_true] using hes''
      · rw [List.filterMap_append, List.filterMap_append, hsame, hsame']
    · rename_i hauthorized
      obtain ⟨rfl, rfl⟩ := exchanges_done.1 hrest
      refine ⟨es', exchanges_bind.2 (.inr ⟨response, es', [], by simp, hes', ?_⟩), by simpa⟩
      rw [if_neg hauthorized]
      exact .done response

end Seen

end Dependaboard
