import Dependaboard.Durable.Exchange
import Dependaboard.Github.Mutation
import Dependaboard.Service.Step
/-!
# Mutation — the course of an attempt

What an attempt of a mutation exchanges with GitHub, and how what it hears
decides its result. `Course` is the four steps of a verified mutation with
every way they may go, `exchanges_verifiedMutation` that there is no other,
and the rest of what is proved about an attempt is read off it.
-/

namespace Dependaboard

open Durable Prog

/-- A request of the client and its answer. -/
abbrev GithubExchange : Type := Exchange GithubEffects

namespace GithubExchange

/-- Where in the mutation the request is made, as the journal of it tells. -/
def stage (e : GithubExchange) : Stage := e.1.stage

/-- It asks GitHub for a change. -/
def writes (e : GithubExchange) : Bool := e.1.call.writes

/-- It was answered 401. -/
def unauthorized (e : GithubExchange) : Bool :=
  match e.2 with
  | .ok response => response.unauthorized
  | .error _ => false

/-- Its answer was lost, or cannot be read. -/
def unsettled (e : GithubExchange) : Bool :=
  match e.2 with
  | .error _ => true
  | .ok (.unreadable _) => true
  | .ok _ => false

/-- The failure it was answered with. -/
def refusal? (e : GithubExchange) : Option GithubErrorResponse :=
  match e.2 with
  | .ok (.refused response) => some response
  | _ => none

/-- The pull request it read. -/
def pull? : GithubExchange → Option GithubPull
  | ⟨⟨_, .getPull _⟩, .ok (.answered pull)⟩ => some pull
  | _ => none

end GithubExchange

open GithubExchange GithubM

/-- A mutation's step takes the failure for a rejection. -/
def rejects (operation : Operation) (response : GithubErrorResponse) : Bool :=
  match classifyGithubError response operation true 0 with
  | .rejected _ => true
  | _ => false

/-- A 401 is a rejection of no target. -/
theorem rejects_of_status {operation : Operation} {response : GithubErrorResponse}
    (h : response.status = 401) : rejects operation response = false := by
  have hclass : classifyGithubError response operation true 0
      = if isRateLimited response then .rateLimited (rateLimitDeadline response 0) else .fatal := by
    cases response
    cases h
    cases operation <;> rfl
  unfold rejects
  rw [hclass]
  by_cases hlimited : isRateLimited response
  · rw [if_pos hlimited]
  · rw [if_neg hlimited]

/-- The answer to a request, as the client goes on with it. -/
def replied {α : Type} : Reply α → Except Halt (Response α)
  | .error cause => .error (.error (.transport cause))
  | .ok response => .ok response

/-- A response read, as a call ends with it. -/
def readAs {α : Type} : Except Halt (Response α) → Except Halt α
  | .error halt => .error halt
  | .ok response =>
    match parseResponse response with
    | .ok value => .ok value
    | .error error => .error (.error error)

/-- The failure is one the step takes for a rejection. -/
def Rejection (operation : Operation) (error : GithubError) : Prop :=
  (∃ response known, error = .http response known ∧ rejects operation response) ∨
    ∃ expected actual, error = .staleSha expected actual

/-- The call ended in a rejection. -/
def Refused (operation : Operation) {α : Type} (r : Except Halt α) : Prop :=
  ∃ error, r = .error (.error error) ∧ Rejection operation error

/-- The call ended in an answer that was lost or cannot be read. -/
def Lost {α : Type} (r : Except Halt α) : Prop :=
  ∃ error, r = .error (.error error) ∧
    ((∃ cause, error = .transport cause) ∨ ∃ source, error = .protocol source)

/-- **What a call says of the answers it heard**: it ends in a rejection
exactly when one was heard, and in a lost answer only when one was lost or
unreadable. -/
structure Heard (operation : Operation) (stage : Stage) {α : Type} (es : List GithubExchange)
    (r : Except Halt α) : Prop where
  staged : ∀ e ∈ es, GithubExchange.stage e = stage
  refused : (∃ e ∈ es, ∃ response, refusal? e = some response ∧ rejects operation response) ↔
    Refused operation r
  lost : Lost r → ∃ e ∈ es, unsettled e

variable {operation : Operation} {stage : Stage} {α β T A : Type} {es : List GithubExchange}

theorem not_refused_ok {value : α} : ¬ Refused operation (.ok value : Except Halt α) := by
  rintro ⟨_, h, -⟩
  cases h

theorem not_lost_ok {value : α} : ¬ Lost (.ok value : Except Halt α) := by
  rintro ⟨_, h, -⟩
  cases h

theorem not_refused_config {message : String} :
    ¬ Refused operation (.error (.error (.config message)) : Except Halt α) := by
  rintro ⟨_, h, ⟨_, _, rfl, -⟩ | ⟨_, _, rfl⟩⟩ <;> cases h

theorem not_lost_config {message : String} :
    ¬ Lost (.error (.error (.config message)) : Except Halt α) := by
  rintro ⟨_, h, ⟨_, rfl⟩ | ⟨_, rfl⟩⟩ <;> cases h

theorem not_refused_outOfFuel : ¬ Refused operation (.error .outOfFuel : Except Halt α) := by
  rintro ⟨_, h, -⟩
  cases h

theorem not_lost_outOfFuel : ¬ Lost (.error .outOfFuel : Except Halt α) := by
  rintro ⟨_, h, -⟩
  cases h

/-- A call that hears nothing more ends well, or in a failure of its own. -/
theorem Heard.nil {r : Except Halt α} (hrefused : ¬ Refused operation r) (hlost : ¬ Lost r) :
    Heard operation stage [] r :=
  ⟨fun _ he => absurd he List.not_mem_nil,
    ⟨fun ⟨_, he, _⟩ => absurd he List.not_mem_nil, fun h => absurd h hrefused⟩,
    fun h => absurd h hlost⟩

/-- A call goes on from a value. -/
theorem Heard.append {value : α} {r : Except Halt β} {rest : List GithubExchange}
    (h : Heard operation stage es (.ok value : Except Halt α))
    (h' : Heard operation stage rest r) : Heard operation stage (es ++ rest) r where
  staged e he := (List.mem_append.1 he).elim (h.staged e) (h'.staged e)
  refused := by
    rw [← h'.refused]
    constructor
    · rintro ⟨e, he, hrejects⟩
      rcases List.mem_append.1 he with he | he
      · exact absurd (h.refused.1 ⟨e, he, hrejects⟩) not_refused_ok
      · exact ⟨e, he, hrejects⟩
    · rintro ⟨e, he, hrejects⟩
      exact ⟨e, List.mem_append_right _ he, hrejects⟩
  lost hlost := by
    obtain ⟨e, he, hunsettled⟩ := h'.lost hlost
    exact ⟨e, List.mem_append_right _ he, hunsettled⟩

/-- Only how a call fails matters. -/
theorem Heard.congr {r : Except Halt α} {r' : Except Halt β} (h : Heard operation stage es r)
    (hfail : ∀ halt, r = .error halt ↔ r' = .error halt) : Heard operation stage es r' where
  staged := h.staged
  refused := by
    rw [h.refused]
    simp only [Refused, hfail]
  lost hlost := by
    refine h.lost ?_
    simpa only [Lost, hfail] using hlost

/-- A call that fails fails what follows it. -/
theorem Heard.error {halt : Halt} (h : Heard operation stage es (.error halt : Except Halt α)) :
    Heard operation stage es (.error halt : Except Halt β) :=
  h.congr fun _ => by simp only [Except.error.injEq]

variable (operation stage) in
/-- One request and its answer, read. -/
theorem Heard.one (call : GithubCall) (reply : Reply call.Payload) :
    Heard operation stage [⟨⟨stage, call⟩, reply⟩] (readAs (replied reply)) where
  staged := by simp [GithubExchange.stage]
  refused := by
    rcases reply with cause | (response | source | value) <;>
      simp [refusal?, Refused, Rejection, readAs, replied, parseResponse]
  lost := by
    rcases reply with cause | (response | source | value) <;>
      simp [unsettled, Lost, readAs, replied, parseResponse]

/-! ## The calls -/

theorem exchanges_send {call : GithubCall} {r : Except Halt (Response call.Payload)} :
    (send stage call).Exchanges es r ↔
      ∃ reply, es = [⟨⟨stage, call⟩, reply⟩] ∧ r = replied reply := by
  unfold send
  rw [exchanges_ask]
  constructor
  · rintro ⟨reply, rest, rfl, hrest⟩
    refine ⟨reply, ?_⟩
    cases reply with
    | error cause =>
      obtain ⟨rfl, rfl⟩ := exchanges_fail.1 hrest
      exact ⟨rfl, rfl⟩
    | ok response =>
      obtain ⟨rfl, rfl⟩ := exchanges_done.1 hrest
      exact ⟨rfl, rfl⟩
  · rintro ⟨reply, rfl, rfl⟩
    refine ⟨reply, [], rfl, ?_⟩
    cases reply with
    | error cause => exact .fail _
    | ok response => exact .done _

theorem exchanges_liftExcept {result : Except GithubError α} {r : Except Halt α} :
    (liftExcept result).Exchanges es r ↔ es = [] ∧ r = result.mapError .error := by
  cases result with
  | ok value => exact exchanges_done
  | error error => exact exchanges_fail

/-- A response read is its call ended as it is read. -/
theorem exchanges_read {q : GithubM (Response α)} {r : Except Halt α} :
    (q.bind fun response => liftExcept (parseResponse response)).Exchanges es r ↔
      ∃ r', q.Exchanges es r' ∧ r = readAs r' := by
  rw [exchanges_bind]
  constructor
  · rintro (⟨halt, rfl, hfail⟩ | ⟨response, first, rest, rfl, hfirst, hrest⟩)
    · exact ⟨_, hfail, rfl⟩
    · obtain ⟨rfl, rfl⟩ := exchanges_liftExcept.1 hrest
      rw [List.append_nil]
      refine ⟨_, hfirst, ?_⟩
      cases hparse : parseResponse response <;> simp [readAs, hparse, Except.mapError]
  · rintro ⟨r', hq, rfl⟩
    cases r' with
    | error halt => exact .inl ⟨halt, rfl, hq⟩
    | ok response =>
      refine .inr ⟨response, es, [], (List.append_nil es).symm, hq, exchanges_liftExcept.2 ⟨rfl, ?_⟩⟩
      cases hparse : parseResponse response <;> simp [readAs, hparse, Except.mapError]

/-- Nothing in it asks for a change. -/
def Quiet (es : List GithubExchange) : Prop := ∀ e ∈ es, writes e = false

theorem Quiet.append {rest : List GithubExchange} (h : Quiet es) (h' : Quiet rest) :
    Quiet (es ++ rest) := fun e he => (List.mem_append.1 he).elim (h e) (h' e)

theorem Quiet.filter (h : Quiet es) : es.filter writes = [] :=
  List.filter_eq_nil_iff.2 fun e he => by simp [h e he]

theorem quiet_one {call : GithubCall} (h : call.writes = false) (reply : Reply call.Payload) :
    Quiet [⟨⟨stage, call⟩, reply⟩] := by
  intro e he
  rw [List.mem_singleton.1 he]
  exact h

/-- At most one write was sent, or two of which the first was answered
401. -/
def Once (es : List GithubExchange) : Prop :=
  (es.filter writes).length ≤ 1 ∨ ∃ w w', es.filter writes = [w, w'] ∧ unauthorized w

theorem Once.of_filter_eq {es' : List GithubExchange} (h : Once es)
    (heq : es'.filter writes = es.filter writes) : Once es' := by
  unfold Once
  rw [heq]
  exact h

theorem once_one (e : GithubExchange) : Once [e] := .inl (List.length_filter_le _ _)

theorem Quiet.once (h : Quiet es) : Once es := by
  left
  rw [h.filter]
  exact Nat.zero_le 1

theorem Once.quiet_append {rest : List GithubExchange} (hquiet : Quiet es) (h : Once rest) :
    Once (es ++ rest) :=
  h.of_filter_eq (by rw [List.filter_append, hquiet.filter, List.nil_append])

theorem Once.append_quiet {rest : List GithubExchange} (h : Once es) (hquiet : Quiet rest) :
    Once (es ++ rest) :=
  h.of_filter_eq (by rw [List.filter_append, hquiet.filter, List.append_nil])

/-- A write answered 401 and sent again. -/
theorem once_again {first last : GithubExchange} {fresh : List GithubExchange}
    (hquiet : Quiet fresh) (h : unauthorized first) : Once (first :: (fresh ++ [last])) := by
  unfold Once
  rw [List.filter_cons, List.filter_append, hquiet.filter, List.nil_append]
  by_cases hfirst : writes first
  · rw [if_pos hfirst]
    by_cases hlast : writes last
    · exact .inr ⟨first, last, by simp [hlast], h⟩
    · exact .inl (by simp [hlast])
  · rw [if_neg hfirst]
    exact once_one last

/-- A token is asked for, and had or not. -/
theorem exchanges_installationToken {forceRefresh : Bool} {r : Except Halt Unit}
    (h : (installationToken stage forceRefresh).Exchanges es r) :
    ∃ reply, es = [⟨⟨stage, .installationToken forceRefresh⟩, reply⟩] ∧
      r = match readAs (replied reply) with
        | .ok (.ok ()) => .ok ()
        | .ok (.error message) =>
          .error (.error (.config ("cannot sign GitHub App JWT: " ++ message)))
        | .error halt => .error halt := by
  have htoken : installationToken stage forceRefresh
      = ((send stage (.installationToken forceRefresh)).bind fun response =>
        liftExcept (parseResponse response)).bind fun token => token.casesOn
          (fun message => throw (.config ("cannot sign GitHub App JWT: " ++ message)))
          fun _ => Prog.done () := by
    rw [bind_assoc]
    refine congrArg (Prog.bind _) (funext fun response => congrArg (Prog.bind _) ?_)
    funext token
    cases token <;> rfl
  rw [htoken] at h
  rcases exchanges_bind.1 h with ⟨halt, rfl, hfail⟩ | ⟨token, first, rest, rfl, hfirst, hrest⟩
  · obtain ⟨r', hsend, hr⟩ := exchanges_read.1 hfail
    obtain ⟨reply, rfl, rfl⟩ := exchanges_send.1 hsend
    exact ⟨reply, rfl, by rw [← hr]⟩
  · obtain ⟨r', hsend, hr⟩ := exchanges_read.1 hfirst
    obtain ⟨reply, rfl, rfl⟩ := exchanges_send.1 hsend
    cases token with
    | ok value =>
      obtain ⟨rfl, rfl⟩ := exchanges_done.1 hrest
      exact ⟨reply, rfl, by rw [← hr]⟩
    | error message =>
      obtain ⟨rfl, rfl⟩ := exchanges_fail.1 hrest
      exact ⟨reply, rfl, by rw [← hr]⟩

variable (operation) in
theorem heard_installationToken {forceRefresh : Bool} {r : Except Halt Unit}
    (h : (installationToken stage forceRefresh).Exchanges es r) : Heard operation stage es r := by
  obtain ⟨reply, rfl, rfl⟩ := exchanges_installationToken h
  have hone := Heard.one operation stage (.installationToken forceRefresh) reply
  cases hread : readAs (replied reply) with
  | error halt =>
    rw [hread] at hone
    exact hone.error
  | ok token =>
    rw [hread] at hone
    show Heard operation stage ([⟨_, reply⟩] ++ []) _
    refine hone.append ?_
    cases token with
    | error message => exact .nil not_refused_config not_lost_config
    | ok value => exact .nil not_refused_ok not_lost_ok

theorem quiet_installationToken {forceRefresh : Bool} {r : Except Halt Unit}
    (h : (installationToken stage forceRefresh).Exchanges es r) : Quiet es := by
  obtain ⟨reply, rfl, -⟩ := exchanges_installationToken h
  exact quiet_one rfl reply

variable (operation stage) in
/-- An answer 401 says nothing a call goes on with. -/
theorem Heard.unauthorized {call : GithubCall} {response : Response call.Payload}
    (h : response.unauthorized) :
    Heard operation stage [⟨⟨stage, call⟩, .ok response⟩] (.ok () : Except Halt Unit) where
  staged := by simp [GithubExchange.stage]
  refused := by
    cases response with
    | refused failure =>
      have hstatus : failure.status = 401 := by simpa [Response.unauthorized] using h
      simp [refusal?, Refused, rejects_of_status hstatus]
    | unreadable source => simp [Response.unauthorized] at h
    | answered value => simp [Response.unauthorized] at h
  lost := fun h => absurd h not_lost_ok

/-- How a request made as the App goes. -/
inductive RequestCourse (stage : Stage) (call : GithubCall) :
    List GithubExchange → Except Halt (Response call.Payload) → Prop
  /-- There is no token to make it with. -/
  | tokenless {es : List GithubExchange} {halt : Halt} :
      (installationToken stage false).Exchanges es (.error halt) →
      RequestCourse stage call es (.error halt)
  /-- It is made, and not answered 401. -/
  | made {token : List GithubExchange} {reply : Reply call.Payload} :
      (installationToken stage false).Exchanges token (.ok ()) →
      RequestCourse stage call (token ++ [⟨⟨stage, call⟩, reply⟩]) (replied reply)
  /-- It is answered 401, and there is no fresh token. -/
  | expired {token refresh : List GithubExchange} {response : Response call.Payload}
      {halt : Halt} :
      (installationToken stage false).Exchanges token (.ok ()) → response.unauthorized →
      (installationToken stage true).Exchanges refresh (.error halt) →
      RequestCourse stage call (token ++ ([⟨⟨stage, call⟩, .ok response⟩] ++ refresh)) (.error halt)
  /-- It is answered 401, and made again. -/
  | again {token refresh : List GithubExchange} {response : Response call.Payload}
      {reply : Reply call.Payload} :
      (installationToken stage false).Exchanges token (.ok ()) → response.unauthorized →
      (installationToken stage true).Exchanges refresh (.ok ()) →
      RequestCourse stage call
        (token ++ ([⟨⟨stage, call⟩, .ok response⟩] ++ (refresh ++ [⟨⟨stage, call⟩, reply⟩])))
        (replied reply)

/-- A request made as the App goes in no other way. -/
theorem exchanges_installationRequest {call : GithubCall} {r : Except Halt (Response call.Payload)}
    (h : (installationRequest stage call).Exchanges es r) : RequestCourse stage call es r := by
  rcases exchanges_bind.1 h with ⟨halt, rfl, hfail⟩ | ⟨_, token, rest, rfl, htoken, hrest⟩
  · exact .tokenless hfail
  rcases exchanges_bind.1 hrest with ⟨halt, rfl, hfail⟩ | ⟨response, first, more, rfl, hfirst, hmore⟩
  · obtain ⟨reply, rfl, hreply⟩ := exchanges_send.1 hfail
    rw [hreply]
    exact .made htoken
  obtain ⟨reply, rfl, hreply⟩ := exchanges_send.1 hfirst
  by_cases hunauthorized : response.unauthorized
  · rw [if_pos hunauthorized] at hmore
    obtain rfl : reply = .ok response := by
      cases reply with
      | error cause => cases hreply
      | ok other => cases hreply; rfl
    rcases exchanges_bind.1 hmore with ⟨halt, rfl, hfail⟩ | ⟨_, refresh, last, rfl, hrefresh, hlast⟩
    · exact .expired htoken hunauthorized hfail
    · obtain ⟨reply, rfl, hreply⟩ := exchanges_send.1 hlast
      rw [hreply]
      exact .again htoken hunauthorized hrefresh
  · rw [if_neg hunauthorized] at hmore
    obtain ⟨rfl, rfl⟩ := exchanges_done.1 hmore
    rw [List.append_nil, hreply]
    exact .made htoken

namespace RequestCourse

variable {call : GithubCall} {r : Except Halt (Response call.Payload)}

variable (operation) in
/-- It ends as its last answer says. -/
theorem heard (h : RequestCourse stage call es r) : Heard operation stage es (readAs r) := by
  cases h with
  | tokenless htoken => exact (heard_installationToken operation htoken).error
  | made htoken => exact (heard_installationToken operation htoken).append (.one _ _ call _)
  | expired htoken hunauthorized hrefresh =>
    have hfirst := Heard.unauthorized operation stage hunauthorized
    exact (heard_installationToken operation htoken).append
      (hfirst.append (heard_installationToken operation hrefresh).error)
  | again htoken hunauthorized hrefresh =>
    have hfirst := Heard.unauthorized operation stage hunauthorized
    exact (heard_installationToken operation htoken).append
      (hfirst.append ((heard_installationToken operation hrefresh).append (.one _ _ call _)))

/-- It sends a write again only past a 401. -/
theorem once (h : RequestCourse stage call es r) : Once es := by
  cases h with
  | tokenless htoken => exact (quiet_installationToken htoken).once
  | made htoken => exact .quiet_append (quiet_installationToken htoken) (once_one _)
  | expired htoken _ hrefresh =>
    exact .quiet_append (quiet_installationToken htoken)
      (.append_quiet (once_one _) (quiet_installationToken hrefresh))
  | again htoken hunauthorized hrefresh =>
    exact .quiet_append (quiet_installationToken htoken)
      (once_again (quiet_installationToken hrefresh) hunauthorized)

/-- A read asks for no change. -/
theorem quiet (hreads : call.writes = false) (h : RequestCourse stage call es r) : Quiet es := by
  cases h with
  | tokenless htoken => exact quiet_installationToken htoken
  | made htoken => exact (quiet_installationToken htoken).append (quiet_one hreads _)
  | expired htoken _ hrefresh =>
    exact (quiet_installationToken htoken).append
      ((quiet_one hreads _).append (quiet_installationToken hrefresh))
  | again htoken _ hrefresh =>
    exact (quiet_installationToken htoken).append ((quiet_one hreads _).append
      ((quiet_installationToken hrefresh).append (quiet_one hreads _)))

end RequestCourse

variable (operation) in
/-- A read made as the App. -/
theorem heard_installationJson {call : GithubCall} {r : Except Halt call.Payload}
    (h : (installationJson stage call).Exchanges es r) : Heard operation stage es r := by
  obtain ⟨r', hrequest, rfl⟩ := exchanges_read.1 h
  exact (exchanges_installationRequest hrequest).heard operation

theorem quiet_installationJson {call : GithubCall} {r : Except Halt call.Payload}
    (hreads : call.writes = false) (h : (installationJson stage call).Exchanges es r) :
    Quiet es := by
  obtain ⟨r', hrequest, -⟩ := exchanges_read.1 h
  exact (exchanges_installationRequest hrequest).quiet hreads

/-- What `f` finds nothing in may be left out of what it searches. -/
theorem exists_append_of_none {δ : Type} {f : GithubExchange → Option δ}
    {rest : List GithubExchange} {d : δ} (h : ∀ e ∈ es, f e = none) :
    (∃ e ∈ es ++ rest, f e = some d) ↔ ∃ e ∈ rest, f e = some d := by
  constructor
  · rintro ⟨e, he, hsome⟩
    rcases List.mem_append.1 he with he | he
    · rw [h e he] at hsome
      cases hsome
    · exact ⟨e, he, hsome⟩
  · rintro ⟨e, he, hsome⟩
    exact ⟨e, List.mem_append_right _ he, hsome⟩

/-- `f` reads the answer to `call`, of the calls made to send it. -/
structure Reads (stage : Stage) (call : GithubCall)
    (f : GithubExchange → Option call.Payload) : Prop where
  token : ∀ forceRefresh reply, f ⟨⟨stage, .installationToken forceRefresh⟩, reply⟩ = none
  answered : ∀ value, f ⟨⟨stage, call⟩, .ok (.answered value)⟩ = some value
  lost : ∀ cause, f ⟨⟨stage, call⟩, .error cause⟩ = none
  refused : ∀ failure, f ⟨⟨stage, call⟩, .ok (.refused failure)⟩ = none
  unreadable : ∀ source, f ⟨⟨stage, call⟩, .ok (.unreadable source)⟩ = none

namespace Reads

variable {call : GithubCall} {f : GithubExchange → Option call.Payload}

theorem none_token (hf : Reads stage call f) {forceRefresh : Bool} {r : Except Halt Unit}
    (h : (installationToken stage forceRefresh).Exchanges es r) : ∀ e ∈ es, f e = none := by
  obtain ⟨reply, rfl, -⟩ := exchanges_installationToken h
  intro e he
  rw [List.mem_singleton.1 he]
  exact hf.token forceRefresh reply

theorem none_unauthorized (hf : Reads stage call f) {response : Response call.Payload}
    (h : response.unauthorized) :
    ∀ e ∈ [(⟨⟨stage, call⟩, .ok response⟩ : GithubExchange)], f e = none := by
  intro e he
  rw [List.mem_singleton.1 he]
  cases response with
  | answered value => simp [Response.unauthorized] at h
  | refused failure => exact hf.refused failure
  | unreadable source => exact hf.unreadable source

theorem one_iff (hf : Reads stage call f) {reply : Reply call.Payload} {value : call.Payload} :
    (∃ e ∈ [(⟨⟨stage, call⟩, reply⟩ : GithubExchange)], f e = some value) ↔
      readAs (replied reply) = .ok value := by
  rcases reply with cause | (response | source | value') <;>
    simp [hf.answered, hf.lost, hf.refused, hf.unreadable, readAs, replied, parseResponse]

end Reads

/-- A request made as the App ends in a value when it is answered with it. -/
theorem RequestCourse.answer_iff {call : GithubCall} {f : GithubExchange → Option call.Payload}
    {r : Except Halt (Response call.Payload)} (hf : Reads stage call f)
    (h : RequestCourse stage call es r) (value : call.Payload) :
    (∃ e ∈ es, f e = some value) ↔ readAs r = .ok value := by
  have hnone : ∀ {halt : Halt}, (∃ e ∈ ([] : List GithubExchange), f e = some value) ↔
      readAs (.error halt : Except Halt (Response call.Payload)) = .ok value := by
    simp [readAs]
  cases h with
  | tokenless htoken =>
    rw [← List.append_nil es, exists_append_of_none (hf.none_token htoken)]
    exact hnone
  | made htoken =>
    rw [exists_append_of_none (hf.none_token htoken)]
    exact hf.one_iff
  | @expired _ refresh _ _ htoken hunauthorized hrefresh =>
    rw [exists_append_of_none (hf.none_token htoken),
      exists_append_of_none (hf.none_unauthorized hunauthorized), ← List.append_nil refresh,
      exists_append_of_none (hf.none_token hrefresh)]
    exact hnone
  | again htoken hunauthorized hrefresh =>
    rw [exists_append_of_none (hf.none_token htoken),
      exists_append_of_none (hf.none_unauthorized hunauthorized),
      exists_append_of_none (hf.none_token hrefresh)]
    exact hf.one_iff

variable {target : PrTarget}

variable (operation) in
theorem heard_fetchTarget {r : Except Halt GithubPull}
    (h : (fetchTarget stage target).Exchanges es r) : Heard operation stage es r :=
  heard_installationJson operation h

theorem quiet_fetchTarget {r : Except Halt GithubPull}
    (h : (fetchTarget stage target).Exchanges es r) : Quiet es :=
  quiet_installationJson rfl h

theorem pull_fetchTarget {r : Except Halt GithubPull}
    (h : (fetchTarget stage target).Exchanges es r) (pull : GithubPull) :
    (∃ e ∈ es, pull? e = some pull) ↔ r = .ok pull := by
  obtain ⟨r', hrequest, rfl⟩ := exchanges_read.1 h
  have hreads : ∀ path, Reads stage (.getPull path) pull? := fun _ =>
    ⟨fun _ _ => rfl, fun _ => rfl, fun _ => rfl, fun _ => rfl, fun _ => rfl⟩
  exact (exchanges_installationRequest hrequest).answer_iff (hreads _) pull

variable (operation) in
/-- A scan hears its pages, one after the other. -/
theorem heard_findCommentWithMarker {path marker : String} {fuel page : ℕ}
    {r : Except Halt (Option ℕ)}
    (h : (findCommentWithMarker stage path marker fuel page).Exchanges es r) :
    Heard operation stage es r ∧ Quiet es := by
  induction fuel generalizing page es with
  | zero =>
    obtain ⟨rfl, rfl⟩ := exchanges_fail.1 h
    exact ⟨.nil not_refused_outOfFuel not_lost_outOfFuel, fun e he => absurd he List.not_mem_nil⟩
  | succ fuel ih =>
    rcases exchanges_bind.1 h with ⟨halt, rfl, hfail⟩ | ⟨comments, first, rest, rfl, hfirst, hrest⟩
    · exact ⟨(heard_installationJson operation hfail).error, quiet_installationJson rfl hfail⟩
    have hheard := heard_installationJson operation hfirst
    have hquiet := quiet_installationJson rfl hfirst
    split at hrest
    · obtain ⟨rfl, rfl⟩ := exchanges_done.1 hrest
      exact ⟨hheard.append (.nil not_refused_ok not_lost_ok), by rwa [List.append_nil]⟩
    · split at hrest
      · obtain ⟨rfl, rfl⟩ := exchanges_done.1 hrest
        exact ⟨hheard.append (.nil not_refused_ok not_lost_ok), by rwa [List.append_nil]⟩
      · obtain ⟨hrestHeard, hrestQuiet⟩ := ih hrest
        exact ⟨hheard.append hrestHeard, hquiet.append hrestQuiet⟩

variable (operation) in
/-- A request made as the user is sent once, or not at all. -/
theorem heard_userRequest {config : GithubConfig} {user : String} {call : GithubCall}
    {r : Except Halt (Response call.Payload)}
    (h : (userRequest config stage user call).Exchanges es r) :
    Heard operation stage es (readAs r) ∧ Once es := by
  rcases exchanges_bind.1 h with ⟨halt, rfl, hfail⟩ | ⟨token, first, rest, rfl, hfirst, hrest⟩
  · obtain ⟨rfl, htoken⟩ := exchanges_liftExcept.1 hfail
    obtain ⟨message, rfl⟩ : ∃ message, halt = .error (.config message) := by
      unfold userToken at htoken
      split at htoken
      · cases htoken
        exact ⟨_, rfl⟩
      · split at htoken <;> cases htoken
        exact ⟨_, rfl⟩
    exact ⟨.nil not_refused_config not_lost_config, .inl (Nat.zero_le 1)⟩
  · obtain ⟨rfl, -⟩ := exchanges_liftExcept.1 hfirst
    obtain ⟨reply, rfl, rfl⟩ := exchanges_send.1 hrest
    exact ⟨.one _ _ call reply, once_one _⟩

/-! ## The four steps -/

/-- What a read-back makes of what it found. -/
def confirmed (unconfirmed : GithubError) :
    Except Halt (Option A) → Except Halt (MutationOutcome T A)
  | .ok (some applied) => .ok (.applied applied)
  | .ok none => .error (.error unconfirmed)
  | .error (.error _) => .error (.error unconfirmed)
  | .error .outOfFuel => .error .outOfFuel

/-- How a mutation goes past its checks: what its write exchanges, what its
read-back does, and what it ends in. -/
inductive WriteCourse (operation : Operation) (mutate : GithubM (Write T A))
    (confirm : GithubM (Option A)) :
    List GithubExchange → List GithubExchange → Except Halt (MutationOutcome T A) → Prop
  | answered {ms : List GithubExchange} {answer : T} :
      mutate.Exchanges ms (.ok (.sent (.answered answer))) →
      WriteCourse operation mutate confirm ms [] (.ok (.answered answer))
  | refused {ms : List GithubExchange} {response : GithubErrorResponse} :
      mutate.Exchanges ms (.ok (.sent (.refused response))) →
      WriteCourse operation mutate confirm ms [] (.error (.error (.http response true)))
  | already {ms : List GithubExchange} {applied : A} :
      mutate.Exchanges ms (.ok (.alreadyApplied applied)) →
      WriteCourse operation mutate confirm ms [] (.ok (.applied applied))
  | failed {ms : List GithubExchange} {halt : Halt} :
      mutate.Exchanges ms (.error halt) → (∀ cause, halt ≠ .error (.transport cause)) →
      WriteCourse operation mutate confirm ms [] (.error halt)
  | unreadable {ms cs : List GithubExchange} {source : ProtocolError}
      {found : Except Halt (Option A)} :
      mutate.Exchanges ms (.ok (.sent (.unreadable source))) → confirm.Exchanges cs found →
      WriteCourse operation mutate confirm ms cs (confirmed (.ambiguous operation source) found)
  | lost {ms cs : List GithubExchange} {cause : String} {found : Except Halt (Option A)} :
      mutate.Exchanges ms (.error (.error (.transport cause))) → confirm.Exchanges cs found →
      WriteCourse operation mutate confirm ms cs (confirmed (.transport cause) found)

/-- **How a verified mutation goes**: what it exchanges to verify, to mutate
and to confirm, and what it ends in. -/
inductive Course (operation : Operation) (target : PrTarget)
    (alreadyApplied : GithubPull → Option A) (mutate : GithubM (Write T A))
    (confirm : GithubM (Option A)) : List GithubExchange → List GithubExchange →
    List GithubExchange → Except Halt (MutationOutcome T A) → Prop
  | unread {vs : List GithubExchange} {halt : Halt} :
      (fetchTarget .verify target).Exchanges vs (.error halt) →
      Course operation target alreadyApplied mutate confirm vs [] [] (.error halt)
  | found {vs : List GithubExchange} {pull : GithubPull} {applied : A} :
      (fetchTarget .verify target).Exchanges vs (.ok pull) → alreadyApplied pull = some applied →
      Course operation target alreadyApplied mutate confirm vs [] [] (.ok (.applied applied))
  | checked {vs : List GithubExchange} {pull : GithubPull} {error : GithubError} :
      (fetchTarget .verify target).Exchanges vs (.ok pull) → alreadyApplied pull = none →
      checkTarget target pull = .error error →
      Course operation target alreadyApplied mutate confirm vs [] [] (.error (.error error))
  | mutated {vs ms cs : List GithubExchange} {pull : GithubPull}
      {r : Except Halt (MutationOutcome T A)} :
      (fetchTarget .verify target).Exchanges vs (.ok pull) → alreadyApplied pull = none →
      checkTarget target pull = .ok () → WriteCourse operation mutate confirm ms cs r →
      Course operation target alreadyApplied mutate confirm vs ms cs r

variable {alreadyApplied : GithubPull → Option A} {mutate : GithubM (Write T A)}
  {confirm : GithubM (Option A)}

theorem exchanges_readBack {unconfirmed : GithubError} {r : Except Halt (MutationOutcome T A)}
    (h : (readBack confirm unconfirmed).Exchanges es r) :
    ∃ found, confirm.Exchanges es found ∧ r = confirmed unconfirmed found := by
  rcases exchanges_bind.1 h with ⟨halt, rfl, hfail⟩ | ⟨found, first, rest, rfl, hfirst, hrest⟩
  · rcases exchanges_catching.1 hfail with ⟨_, hok, -⟩ | ⟨halt', hconfirm, hpick⟩
    · cases hok
    · cases halt' with
      | error cause => cases hpick
      | outOfFuel => cases hpick; exact ⟨_, hconfirm, rfl⟩
  · rcases exchanges_catching.1 hfirst with ⟨applied, hok, hconfirm⟩ | ⟨halt', hconfirm, hpick⟩
    · cases hok
      cases applied with
      | none =>
        obtain ⟨rfl, rfl⟩ := exchanges_fail.1 hrest
        exact ⟨_, by rwa [List.append_nil], rfl⟩
      | some applied =>
        obtain ⟨rfl, rfl⟩ := exchanges_done.1 hrest
        exact ⟨_, by rwa [List.append_nil], rfl⟩
    · cases halt' with
      | outOfFuel => cases hpick
      | error cause =>
        cases hpick
        obtain ⟨rfl, rfl⟩ := exchanges_fail.1 hrest
        exact ⟨_, by rwa [List.append_nil], rfl⟩

/-- A verified mutation goes in no other way. -/
theorem exchanges_verifiedMutation {r : Except Halt (MutationOutcome T A)}
    (h : (verifiedMutation operation target alreadyApplied mutate confirm).Exchanges es r) :
    ∃ vs ms cs, es = vs ++ ms ++ cs ∧
      Course operation target alreadyApplied mutate confirm vs ms cs r := by
  rcases exchanges_bind.1 h with ⟨halt, rfl, hfail⟩ | ⟨pull, vs, rest, rfl, hpull, hrest⟩
  · exact ⟨es, [], [], by simp, .unread hfail⟩
  cases happlied : alreadyApplied pull with
  | some applied =>
    simp only [happlied] at hrest
    obtain ⟨rfl, rfl⟩ := exchanges_done.1 hrest
    exact ⟨vs, [], [], by simp, .found hpull happlied⟩
  | none =>
  simp only [happlied] at hrest
  rcases exchanges_bind.1 hrest with ⟨halt, rfl, hfail⟩ | ⟨_, first, past, rfl, hfirst, hpast⟩
  · obtain ⟨rfl, hcheck⟩ := exchanges_liftExcept.1 hfail
    cases hchecked : checkTarget target pull with
    | ok value =>
      rw [hchecked] at hcheck
      cases hcheck
    | error error =>
      rw [hchecked] at hcheck
      cases hcheck
      exact ⟨vs, [], [], by simp, .checked hpull happlied hchecked⟩
  obtain ⟨rfl, hcheck⟩ := exchanges_liftExcept.1 hfirst
  have hchecked : checkTarget target pull = .ok () := by
    cases hchecked : checkTarget target pull with
    | ok value => rfl
    | error error =>
      rw [hchecked] at hcheck
      cases hcheck
  -- the reads are behind; what is left is the mutation and what its answer leads to
  suffices hwrite : ∃ ms cs, past = ms ++ cs ∧ WriteCourse operation mutate confirm ms cs r by
    obtain ⟨ms, cs, rfl, hwrite⟩ := hwrite
    exact ⟨vs, ms, cs, by simp, .mutated hpull happlied hchecked hwrite⟩
  rcases exchanges_bind.1 hpast with ⟨halt, rfl, hfail⟩ | ⟨result, ms, more, rfl, hresult, hmore⟩
  · rcases exchanges_catching.1 hfail with ⟨_, hok, -⟩ | ⟨halt', hmutate, hpick⟩
    · cases hok
    · cases halt' with
      | error cause => cases hpick
      | outOfFuel =>
        cases hpick
        exact ⟨past, [], by simp, .failed hmutate fun _ hno => by cases hno⟩
  rcases exchanges_catching.1 hresult with ⟨write, hok, hmutate⟩ | ⟨halt', hmutate, hpick⟩
  · cases hok
    cases write with
    | alreadyApplied applied =>
      obtain ⟨rfl, rfl⟩ := exchanges_done.1 hmore
      exact ⟨ms, [], rfl, .already hmutate⟩
    | sent response =>
      cases response with
      | refused failure =>
        obtain ⟨rfl, rfl⟩ := exchanges_fail.1 hmore
        exact ⟨ms, [], rfl, .refused hmutate⟩
      | unreadable source =>
        obtain ⟨found, hconfirm, rfl⟩ := exchanges_readBack hmore
        exact ⟨ms, more, rfl, .unreadable hmutate hconfirm⟩
      | answered answer =>
        obtain ⟨rfl, rfl⟩ := exchanges_done.1 hmore
        exact ⟨ms, [], rfl, .answered hmutate⟩
  · cases halt' with
    | outOfFuel => cases hpick
    | error cause =>
      cases hpick
      cases cause with
      -- the answer was lost: whether it was applied is read back
      | transport cause =>
        obtain ⟨found, hconfirm, rfl⟩ := exchanges_readBack hmore
        exact ⟨ms, more, rfl, .lost hmutate hconfirm⟩
      | _ =>
        obtain ⟨rfl, rfl⟩ := exchanges_fail.1 hmore
        exact ⟨ms, [], rfl, .failed hmutate fun _ hno => by cases hno⟩

end Dependaboard
