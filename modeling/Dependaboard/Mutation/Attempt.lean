import Dependaboard.Mutation.Course
/-!
# Mutation — one attempt

The three mutations as one, and what holds of what any attempt of them
exchanges, whatever GitHub answers: the steps in their order, one write past
a verify read that allows it, a read-back past a lost answer, and an ending
that is a rejection exactly when one was heard.
-/

namespace Dependaboard

open Durable Prog GithubExchange GithubM

/-- A mutation a step is run for. -/
inductive Mutation where
  | merge (request : MergeRequest) (mergeMethod : Option MergeMethod)
  | command (request : CommandRequest)
  | updateBranch (request : UpdateBranchRequest)
  deriving DecidableEq, Repr

namespace Mutation

/-- The pull request it is of, under the head the user saw. -/
def target : Mutation → PrTarget
  | merge request _ => request.target
  | command request => request.target
  | updateBranch request => request.target

/-- The kind of request it is, by which a refusal of it is read. -/
def operation : Mutation → Operation
  | merge _ _ => .merge
  | command _ => .comment
  | updateBranch _ => .updateBranch

/-- What the mutation says of itself done. -/
@[reducible] def Done : Mutation → Type
  | merge _ _ => Merged
  | command _ => String
  | updateBranch _ => String

/-- One attempt at it. -/
def attempt (config : GithubConfig) (fuel : ℕ) : (mutation : Mutation) → GithubM mutation.Done
  | merge request mergeMethod => Dependaboard.merge config request mergeMethod
  | command request => postCommand config fuel request
  | updateBranch request => Dependaboard.updateBranch request

end Mutation

variable {T A α : Type} {es : List GithubExchange} {operation : Operation} {target : PrTarget}

/-! ## The steps in their order -/

/-- **An attempt's exchanges**: it verifies, then mutates, then confirms;
only the middle step writes, once or past a 401, and only when the verify
read showed the open Dependabot pull request at the expected head; it
confirms only past an answer of the middle step that was lost or
unreadable. -/
structure Sound (target : PrTarget) (vs ms cs : List GithubExchange) : Prop where
  verify : ∀ e ∈ vs, stage e = .verify
  mutate : ∀ e ∈ ms, stage e = .mutate
  confirm : ∀ e ∈ cs, stage e = .confirm
  quiet : Quiet (vs ++ cs)
  once : Once ms
  verified : ms ≠ [] → ∃ e ∈ vs, ∃ pull, pull? e = some pull ∧ pull.state = "open" ∧
    pull.login = dependabotLogin ∧ pull.headSha = target.expectedSha
  confirms : cs ≠ [] → ∃ e ∈ ms, unsettled e

/-- What a write step heard, as an ending. -/
def written : Except Halt (Write T A) → Except Halt Unit
  | .error halt => .error halt
  | .ok (.alreadyApplied _) => .ok ()
  | .ok (.sent response) =>
    match parseResponse response with
    | .ok _ => .ok ()
    | .error error => .error (.error error)

/-- The write step and the read-back of a mutation, as `Course` needs
them. -/
structure Steps (operation : Operation) (mutate : GithubM (Write T A))
    (confirm : GithubM (Option A)) : Prop where
  mutates : ∀ {ms write}, mutate.Exchanges ms write →
    Heard operation .mutate ms (written write) ∧ Once ms
  confirms : ∀ {cs found}, confirm.Exchanges cs found →
    (∀ e ∈ cs, stage e = .confirm) ∧ Quiet cs

/-- The checks pass only for the open Dependabot pull request at the
expected head. -/
theorem checkTarget_ok {pull : GithubPull} (h : checkTarget target pull = .ok ()) :
    pull.state = "open" ∧ pull.login = dependabotLogin ∧ pull.headSha = target.expectedSha := by
  unfold checkTarget at h
  split at h
  · cases h
  · split at h
    · cases h
    · rename_i hopen hhead
      obtain ⟨hstate, hlogin⟩ := not_or.1 hopen
      exact ⟨not_not.1 hstate, not_not.1 hlogin, not_not.1 hhead⟩

theorem quiet_nil : Quiet [] := fun _ he => absurd he List.not_mem_nil

section

variable {alreadyApplied : GithubPull → Option A} {mutate : GithubM (Write T A)}
  {confirm : GithubM (Option A)} {vs ms cs : List GithubExchange}
  {r : Except Halt (MutationOutcome T A)}

/-- A write step that confirms has lost an answer. -/
theorem WriteCourse.steps (hsteps : Steps operation mutate confirm)
    (h : WriteCourse operation mutate confirm ms cs r) :
    (∀ e ∈ ms, stage e = .mutate) ∧ Once ms ∧ (∀ e ∈ cs, stage e = .confirm) ∧ Quiet cs ∧
      (cs ≠ [] → ∃ e ∈ ms, unsettled e) := by
  have hnil : ∀ e ∈ ([] : List GithubExchange), stage e = .confirm :=
    fun _ he => absurd he List.not_mem_nil
  cases h with
  | answered hmutate =>
    obtain ⟨hheard, honce⟩ := hsteps.mutates hmutate
    exact ⟨hheard.staged, honce, hnil, quiet_nil, fun hne => absurd rfl hne⟩
  | refused hmutate =>
    obtain ⟨hheard, honce⟩ := hsteps.mutates hmutate
    exact ⟨hheard.staged, honce, hnil, quiet_nil, fun hne => absurd rfl hne⟩
  | already hmutate =>
    obtain ⟨hheard, honce⟩ := hsteps.mutates hmutate
    exact ⟨hheard.staged, honce, hnil, quiet_nil, fun hne => absurd rfl hne⟩
  | failed hmutate _ =>
    obtain ⟨hheard, honce⟩ := hsteps.mutates hmutate
    exact ⟨hheard.staged, honce, hnil, quiet_nil, fun hne => absurd rfl hne⟩
  | unreadable hmutate hconfirm =>
    obtain ⟨hheard, honce⟩ := hsteps.mutates hmutate
    obtain ⟨hstaged, hquiet⟩ := hsteps.confirms hconfirm
    exact ⟨hheard.staged, honce, hstaged, hquiet,
      fun _ => hheard.lost ⟨_, rfl, .inr ⟨_, rfl⟩⟩⟩
  | lost hmutate hconfirm =>
    obtain ⟨hheard, honce⟩ := hsteps.mutates hmutate
    obtain ⟨hstaged, hquiet⟩ := hsteps.confirms hconfirm
    exact ⟨hheard.staged, honce, hstaged, hquiet,
      fun _ => hheard.lost ⟨_, rfl, .inl ⟨_, rfl⟩⟩⟩

/-- **A verified mutation takes its steps in their order.** -/
theorem Course.sound (hsteps : Steps operation mutate confirm)
    (h : Course operation target alreadyApplied mutate confirm vs ms cs r) :
    Sound target vs ms cs := by
  have hread : ∀ {r : Except Halt GithubPull}, (fetchTarget .verify target).Exchanges vs r →
      Sound target vs [] [] := fun hvs =>
    { verify := (heard_fetchTarget operation hvs).staged
      mutate := fun _ he => absurd he List.not_mem_nil
      confirm := fun _ he => absurd he List.not_mem_nil
      quiet := (quiet_fetchTarget hvs).append quiet_nil
      once := quiet_nil.once
      verified := fun hne => absurd rfl hne
      confirms := fun hne => absurd rfl hne }
  cases h with
  | unread hvs => exact hread hvs
  | found hvs _ => exact hread hvs
  | checked hvs _ _ => exact hread hvs
  | mutated hvs happlied hcheck hwrite =>
    rename_i pull
    obtain ⟨hmutate, honce, hconfirm, hquiet, hlost⟩ := hwrite.steps hsteps
    obtain ⟨e, he, hpull⟩ := (pull_fetchTarget hvs pull).2 rfl
    exact
      { verify := (hread hvs).verify
        mutate := hmutate
        confirm := hconfirm
        quiet := (quiet_fetchTarget hvs).append hquiet
        once := honce
        verified := fun _ => ⟨e, he, pull, hpull, checkTarget_ok hcheck⟩
        confirms := hlost }

end

/-! ## The steps of each mutation -/

/-- A write made as the App is its request. -/
theorem exchanges_sendWrite {call : GithubCall} {write : Except Halt (Write call.Payload A)}
    (h : (sendWrite (A := A) call).Exchanges es write) :
    ∃ r, (installationRequest .mutate call).Exchanges es r ∧
      write = r.map .sent := by
  rcases exchanges_bind.1 h with ⟨halt, rfl, hfail⟩ | ⟨response, first, rest, rfl, hfirst, hrest⟩
  · exact ⟨_, hfail, rfl⟩
  · obtain ⟨rfl, rfl⟩ := exchanges_done.1 hrest
    exact ⟨_, by rwa [List.append_nil], rfl⟩

theorem mutates_sendWrite {call : GithubCall}
    {write : Except Halt (Write call.Payload A)}
    (h : (sendWrite (A := A) call).Exchanges es write) :
    Heard operation .mutate es (written write) ∧ Once es := by
  obtain ⟨r, hrequest, rfl⟩ := exchanges_sendWrite h
  have hcourse := exchanges_installationRequest hrequest
  refine ⟨(hcourse.heard operation).congr fun halt => ?_, hcourse.once⟩
  cases r with
  | error halt' => simp [readAs, written, Except.map]
  | ok response =>
    cases hparse : parseResponse response <;> simp [readAs, written, Except.map, hparse]

theorem confirms_confirmOnPull {landed : GithubPull → Option A} {found : Except Halt (Option A)}
    (h : (confirmOnPull target landed).Exchanges es found) :
    (∀ e ∈ es, stage e = .confirm) ∧ Quiet es := by
  have hstaged : ∀ {r : Except Halt GithubPull} {es : List GithubExchange},
      (fetchTarget .confirm target).Exchanges es r → ∀ e ∈ es, stage e = .confirm :=
    fun hes => (heard_fetchTarget .read hes).staged
  rcases exchanges_bind.1 h with ⟨halt, rfl, hfail⟩ | ⟨pull, first, rest, rfl, hfirst, hrest⟩
  · exact ⟨hstaged hfail, quiet_fetchTarget hfail⟩
  · obtain ⟨rfl, rfl⟩ := exchanges_done.1 hrest
    rw [List.append_nil]
    exact ⟨hstaged hfirst, quiet_fetchTarget hfirst⟩

theorem steps_onPull {call : GithubCall} {landed : GithubPull → Option A} :
    Steps operation (sendWrite call) (confirmOnPull target landed) where
  mutates := mutates_sendWrite
  confirms := confirms_confirmOnPull

theorem mutates_sendComment {config : GithubConfig} {fuel : ℕ} {request : CommandRequest}
    {write : Except Halt (Write IssueComment String)}
    (h : (sendComment config fuel request).Exchanges es write) :
    Heard operation .mutate es (written write) ∧ Once es := by
  rcases exchanges_bind.1 h with ⟨halt, rfl, hfail⟩ | ⟨found, first, rest, rfl, hfirst, hrest⟩
  · obtain ⟨hheard, hquiet⟩ := heard_findCommentWithMarker operation hfail
    exact ⟨hheard.error, hquiet.once⟩
  obtain ⟨hheard, hquiet⟩ := heard_findCommentWithMarker operation hfirst
  cases found with
  | some commentId =>
    obtain ⟨rfl, rfl⟩ := exchanges_done.1 hrest
    exact ⟨hheard.append (.nil not_refused_ok not_lost_ok), .quiet_append hquiet quiet_nil.once⟩
  | none =>
    rcases exchanges_bind.1 hrest with ⟨halt, rfl, hfail⟩ | ⟨response, post, last, rfl, hpost, hlast⟩
    · obtain ⟨hpostHeard, honce⟩ := heard_userRequest operation hfail
      exact ⟨hheard.append hpostHeard.error, .quiet_append hquiet honce⟩
    · obtain ⟨rfl, rfl⟩ := exchanges_done.1 hlast
      obtain ⟨hpostHeard, honce⟩ := heard_userRequest operation hpost
      rw [List.append_nil]
      refine ⟨hheard.append (hpostHeard.congr fun halt => ?_), .quiet_append hquiet honce⟩
      cases hparse : parseResponse response <;> simp [readAs, written, hparse]

theorem confirms_confirmComment {fuel : ℕ} {request : CommandRequest}
    {found : Except Halt (Option String)}
    (h : (confirmComment fuel request).Exchanges es found) :
    (∀ e ∈ es, stage e = .confirm) ∧ Quiet es := by
  rcases exchanges_bind.1 h with ⟨halt, rfl, hfail⟩ | ⟨comment, first, rest, rfl, hfirst, hrest⟩
  · obtain ⟨hheard, hquiet⟩ := heard_findCommentWithMarker .read hfail
    exact ⟨hheard.staged, hquiet⟩
  · obtain ⟨rfl, rfl⟩ := exchanges_done.1 hrest
    obtain ⟨hheard, hquiet⟩ := heard_findCommentWithMarker .read hfirst
    rw [List.append_nil]
    exact ⟨hheard.staged, hquiet⟩

theorem steps_comment {config : GithubConfig} {fuel : ℕ} {request : CommandRequest} :
    Steps operation (sendComment config fuel request) (confirmComment fuel request) where
  mutates := mutates_sendComment
  confirms := confirms_confirmComment

/-! ## The three as one -/

namespace Mutation

/-- What GitHub answers the write with. -/
@[reducible] def Answer : Mutation → Type
  | merge _ _ => MergeResult
  | command _ => IssueComment
  | updateBranch _ => String

/-- What the verify read may show of work already done. -/
def alreadyApplied : (mutation : Mutation) → GithubPull → Option mutation.Done
  | merge _ _ => mergedAs "already merged"
  | command _ => fun _ => none
  | updateBranch _ => fun _ => none

/-- The write step, whose answer may be lost after GitHub has done it. -/
def mutate (config : GithubConfig) (fuel : ℕ) :
    (mutation : Mutation) → GithubM (Write mutation.Answer mutation.Done)
  | merge request mergeMethod =>
    sendWrite (.putMerge (request.target.path "/pulls/" "/merge") request.target.expectedSha
      (mergeMethod.getD config.mergeMethod))
  | command request => sendComment config fuel request
  | updateBranch request =>
    sendWrite (.putUpdateBranch (request.target.path "/pulls/" "/update-branch")
      request.target.expectedSha)

/-- What the read-back makes of a head other than the expected one. -/
def movedFrom (target : PrTarget) (pull : GithubPull) : Option String :=
  if pull.headSha ≠ target.expectedSha then
    some "branch updated (confirmed after an ambiguous response)"
  else none

/-- The read-back: where the answer was lost or cannot be read, what was
written is looked for at GitHub. -/
def confirm (fuel : ℕ) : (mutation : Mutation) → GithubM (Option mutation.Done)
  | merge request _ =>
    confirmOnPull request.target (mergedAs "merged (confirmed after an ambiguous response)")
  | command request => confirmComment fuel request
  | updateBranch request => confirmOnPull request.target (movedFrom request.target)

/-- What is made of GitHub's answer. -/
def answered : (mutation : Mutation) → mutation.Answer → Except GithubError mutation.Done
  | merge _ _ => mergeAnswer
  | command _ => fun comment => .ok ("GitHub accepted comment #" ++ toString comment.id)
  | updateBranch _ => .ok

/-- An attempt refused before anything is asked. -/
def Refusing (config : GithubConfig) : Mutation → Bool
  | command _ => config.userPat.isNone
  | _ => false

theorem attempt_eq (mutation : Mutation) (config : GithubConfig) (fuel : ℕ) :
    mutation.attempt config fuel =
      if mutation.Refusing config then throw noUserToken
      else (verifiedMutation mutation.operation mutation.target mutation.alreadyApplied
        (mutation.mutate config fuel) (mutation.confirm fuel)).bind
          fun outcome => liftExcept (outcome.intoApplied mutation.answered) := by
  cases mutation <;> rfl

theorem steps (mutation : Mutation) (config : GithubConfig) (fuel : ℕ) :
    Steps mutation.operation (mutation.mutate config fuel) (mutation.confirm fuel) := by
  cases mutation with
  | merge request mergeMethod => exact steps_onPull
  | command request => exact steps_comment
  | updateBranch request => exact steps_onPull

/-- The course of an attempt at the mutation. -/
abbrev Course (mutation : Mutation) (config : GithubConfig) (fuel : ℕ) :
    List GithubExchange → List GithubExchange → List GithubExchange →
      Except Halt (MutationOutcome mutation.Answer mutation.Done) → Prop :=
  Dependaboard.Course mutation.operation mutation.target mutation.alreadyApplied
    (mutation.mutate config fuel) (mutation.confirm fuel)

/-- What an attempt ends in, by how its course did. -/
def finished (mutation : Mutation) :
    Except Halt (MutationOutcome mutation.Answer mutation.Done) → Except Halt mutation.Done
  | .error halt => .error halt
  | .ok outcome => (outcome.intoApplied mutation.answered).mapError .error

/-- **An attempt takes its course**, or is a command refused outright. -/
theorem exchanges_attempt {mutation : Mutation} {config : GithubConfig} {fuel : ℕ}
    {r : Except Halt mutation.Done} (h : (mutation.attempt config fuel).Exchanges es r) :
    (es = [] ∧ r = .error (.error noUserToken)) ∨
      ∃ vs ms cs outcome, es = vs ++ ms ++ cs ∧ mutation.Course config fuel vs ms cs outcome ∧
        r = mutation.finished outcome := by
  rw [attempt_eq] at h
  split at h
  · obtain ⟨rfl, rfl⟩ := exchanges_fail.1 h
    exact .inl ⟨rfl, rfl⟩
  · right
    rcases exchanges_bind.1 h with ⟨halt, rfl, hfail⟩ | ⟨outcome, first, rest, rfl, hfirst, hrest⟩
    · obtain ⟨vs, ms, cs, rfl, hcourse⟩ := exchanges_verifiedMutation hfail
      exact ⟨vs, ms, cs, _, rfl, hcourse, rfl⟩
    · obtain ⟨vs, ms, cs, rfl, hcourse⟩ := exchanges_verifiedMutation hfirst
      obtain ⟨rfl, rfl⟩ := exchanges_liftExcept.1 hrest
      exact ⟨vs, ms, cs, _, List.append_nil _, hcourse, rfl⟩

/-- **Any attempt takes its steps in their order.** -/
theorem sound_attempt {mutation : Mutation} {config : GithubConfig} {fuel : ℕ}
    {r : Except Halt mutation.Done} (h : (mutation.attempt config fuel).Exchanges es r) :
    ∃ vs ms cs, es = vs ++ ms ++ cs ∧ Sound mutation.target vs ms cs := by
  rcases exchanges_attempt h with ⟨rfl, -⟩ | ⟨vs, ms, cs, outcome, rfl, hcourse, -⟩
  · refine ⟨[], [], [], rfl, ?_⟩
    have hnil : ∀ {P : GithubExchange → Prop}, ∀ e ∈ ([] : List GithubExchange), P e :=
      fun _ he => absurd he List.not_mem_nil
    exact ⟨hnil, hnil, hnil, hnil, quiet_nil.once, fun hne => absurd rfl hne,
      fun hne => absurd rfl hne⟩
  · exact ⟨vs, ms, cs, rfl, hcourse.sound (mutation.steps config fuel)⟩

end Mutation

end Dependaboard
