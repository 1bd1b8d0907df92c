import Dependaboard.Mutation.Once
/-!
# Mutation — recognised when it landed

A mutation that landed with its answer lost is for a later attempt to
recognise, from what GitHub shows it. A merge is recognised on the verify
read itself, before the checks; a command and a branch update only past
them. `landed_succeeds_iff` is exactly when the step that settles calls a
mutation that landed a success.
-/

namespace Dependaboard

open Durable Prog GithubExchange GithubM

/-- The answer to a merge that was read. -/
def GithubExchange.merge? : GithubExchange → Option MergeResult
  | ⟨⟨_, .putMerge _ _ _⟩, .ok (.answered answer)⟩ => some answer
  | _ => none

namespace Mutation

variable {mutation : Mutation}

/-- The outcome of the mutation's step once it has settled. -/
def outcome : (mutation : Mutation) → Settled mutation.Done → Except HandlerError ActionOutcome
  | merge _ _ => mergeResult
  | command _ => actionResult
  | updateBranch _ => actionResult

/-- **An attempt settles in an outcome**: it is journaled as settled, and
what it settled in is no terminal failure. -/
def Settles (mutation : Mutation) (r : Except Halt mutation.Done) (outcome : ActionOutcome) :
    Prop :=
  ∃ result now settled, r = result.mapError .error ∧
    journalGithubResult result mutation.operation true now = .ok (.settled settled) ∧
      mutation.outcome settled = .ok outcome

/-- A request before the read-back was refused in a way the step takes for a
rejection. -/
def Refuses (mutation : Mutation) (e : GithubExchange) : Prop :=
  stage e ≠ .confirm ∧ ∃ response, refusal? e = some response ∧ rejects mutation.operation response

/-- The verify read showed a pull request that is not known done and fails
the checks. -/
def FailsChecks (mutation : Mutation) (e : GithubExchange) : Prop :=
  stage e = .verify ∧ ∃ pull, pull? e = some pull ∧ mutation.alreadyApplied pull = none ∧
    checkTarget mutation.target pull ≠ .ok ()

/-- GitHub answered a merge that it did not merge. -/
def Unmerged (mutation : Mutation) (e : GithubExchange) : Prop :=
  mutation.operation = .merge ∧ ∃ answer, merge? e = some answer ∧ answer.merged = false ∧
    rejects .merge (.plain 409 answer.message)

end Mutation

/-! ## How an attempt ends, by what it heard -/

/-- The classification of a failure does not look at the clock, but for how
long to wait. -/
theorem classify_rejected_iff {response : GithubErrorResponse} {operation : Operation}
    {now : ℕ} : (∃ reason, classifyGithubError response operation true now = .rejected reason) ↔
      rejects operation response := by
  unfold rejects classifyGithubError
  by_cases hlimited : isRateLimited response
  · simp [hlimited]
  · simp only [hlimited, if_false, Bool.false_eq_true]
    generalize (if 500 ≤ response.status then _ else _ : Classification) = classification
    cases classification <;> simp

/-- A mutation's step that settles settles in a success unless the attempt
ended in a rejection. -/
theorem Mutation.Settles.isSucceeded_iff {mutation : Mutation} {r : Except Halt mutation.Done}
    {outcome : ActionOutcome} (h : mutation.Settles r outcome) :
    outcome.isSucceeded ↔ ¬ Refused mutation.operation r := by
  obtain ⟨result, now, settled, rfl, hjournal, houtcome⟩ := h
  have hsettled : outcome.isSucceeded ↔ ∃ done, settled = .ok done := by
    cases mutation with
    | merge request mergeMethod => exact settledOutcome_succeeded (fun _ => rfl) houtcome
    | command request => exact settledOutcome_succeeded (fun _ => rfl) houtcome
    | updateBranch request => exact settledOutcome_succeeded (fun _ => rfl) houtcome
  rw [hsettled]
  cases result with
  | ok done =>
    cases hjournal
    exact ⟨fun _ => not_refused_ok, fun _ => ⟨done, rfl⟩⟩
  | error error =>
    have hrefused : Refused mutation.operation
        ((Except.error error : Except GithubError mutation.Done).mapError Halt.error) ↔
          Rejection mutation.operation error := by
      simp [Refused, Except.mapError]
    rw [hrefused]
    -- the errors the journal settles are rejections, and the rest are thrown
    cases error with
    | http response known =>
      simp only [journalGithubResult, Bool.true_or] at hjournal
      split at hjournal
      · cases hjournal
      · cases hjournal
      · rename_i reason hclassify
        cases hjournal
        have hrejects := classify_rejected_iff.1 ⟨reason, hclassify⟩
        refine iff_of_false (by rintro ⟨_, ⟨⟩⟩) (not_not.2 ?_)
        exact .inl ⟨response, known, rfl, hrejects⟩
      · cases hjournal
        cases mutation <;> cases houtcome
    | staleSha expected actual =>
      cases hjournal
      refine iff_of_false (by rintro ⟨_, ⟨⟩⟩) (not_not.2 ?_)
      exact .inr ⟨expected, actual, rfl⟩
    | transport cause => cases hjournal
    | protocol source => cases hjournal
    | ambiguous operation source => cases hjournal
    | config message => cases hjournal
    | shifted listing detail => cases hjournal

/-- A target's checks fail in a rejection. -/
theorem Rejection.of_checkTarget {operation : Operation} {target : PrTarget} {pull : GithubPull}
    {error : GithubError} (h : checkTarget target pull = .error error) :
    Rejection operation error := by
  unfold checkTarget at h
  split at h
  · cases h
    refine .inl ⟨_, _, rfl, ?_⟩
    cases operation <;> decide
  · split at h
    · cases h
      exact .inr ⟨_, _, rfl⟩
    · cases h

namespace Mutation

variable {mutation : Mutation} {config : GithubConfig} {fuel : ℕ} {es vs ms cs : List GithubExchange}

/-- What an attempt hears that it ends in a rejection by. -/
def Heeds (mutation : Mutation) (e : GithubExchange) : Prop :=
  mutation.Refuses e ∨ mutation.FailsChecks e ∨ mutation.Unmerged e

/-- Only a write is answered for a merge. -/
theorem not_unmerged_of_quiet (h : Quiet es) {e : GithubExchange} (he : e ∈ es) :
    ¬ mutation.Unmerged e := by
  rintro ⟨-, answer, hmerge, -⟩
  have hwrites := h e he
  obtain ⟨⟨stage, call⟩, reply⟩ := e
  cases call with
  | putMerge path sha method => cases hwrites
  | _ => simp [merge?] at hmerge

variable (mutation) in
/-- Before the read-back, a request refused in a rejection is one heard as
such. -/
theorem exists_refuses_iff {stage : Stage} (hstage : stage ≠ .confirm)
    (hstaged : ∀ e ∈ es, GithubExchange.stage e = stage) :
    (∃ e ∈ es, mutation.Refuses e) ↔ ∃ e ∈ es, ∃ response,
      refusal? e = some response ∧ rejects mutation.operation response := by
  constructor
  · rintro ⟨e, he, -, hrefusal⟩
    exact ⟨e, he, hrefusal⟩
  · rintro ⟨e, he, hrefusal⟩
    exact ⟨e, he, by rw [hstaged e he]; exact hstage, hrefusal⟩

/-- What a verify read that did not settle the attempt says of it. -/
theorem verify_heeds {r : Except Halt GithubPull}
    (h : (fetchTarget .verify mutation.target).Exchanges vs r) :
    (∃ e ∈ vs, mutation.Heeds e) ↔ Refused mutation.operation r ∨ ∃ pull, r = .ok pull ∧
      mutation.alreadyApplied pull = none ∧ checkTarget mutation.target pull ≠ .ok () := by
  have hheard := heard_fetchTarget mutation.operation h
  have hrefuses := exists_refuses_iff mutation (by decide) hheard.staged
  rw [hheard.refused] at hrefuses
  rw [← hrefuses]
  constructor
  · rintro ⟨e, he, hrefuse | ⟨-, pull, hpull, hnone, hchecks⟩ | hunmerged⟩
    · exact .inl ⟨e, he, hrefuse⟩
    · exact .inr ⟨pull, (pull_fetchTarget h pull).1 ⟨e, he, hpull⟩, hnone, hchecks⟩
    · exact absurd hunmerged (not_unmerged_of_quiet (quiet_fetchTarget h) he)
  · rintro (⟨e, he, hrefuse⟩ | ⟨pull, hok, hnone, hchecks⟩)
    · exact ⟨e, he, .inl hrefuse⟩
    · obtain ⟨e, he, hpull⟩ := (pull_fetchTarget h pull).2 hok
      exact ⟨e, he, .inr (.inl ⟨hheard.staged e he, pull, hpull, hnone, hchecks⟩)⟩

/-- A read-back says nothing an attempt heeds. -/
theorem not_heeds_confirm (hstaged : ∀ e ∈ cs, GithubExchange.stage e = .confirm)
    (hquiet : Quiet cs) : ¬ ∃ e ∈ cs, mutation.Heeds e := by
  rintro ⟨e, he, ⟨hstage, -⟩ | ⟨hstage, -⟩ | hunmerged⟩
  · exact hstage (hstaged e he)
  · rw [hstaged e he] at hstage
    cases hstage
  · exact not_unmerged_of_quiet hquiet he hunmerged

/-- A merge is answered that it did not merge exactly when its write step ends
in that answer, and so does the attempt in a rejection. -/
theorem exists_unmerged_iff {write : Except Halt (Write mutation.Answer mutation.Done)}
    (h : (mutation.mutate config fuel).Exchanges ms write) :
    (∃ e ∈ ms, mutation.Unmerged e) ↔ ∃ answer, write = .ok (.sent (.answered answer)) ∧
      Refused mutation.operation (mutation.finished (.ok (.answered answer))) := by
  cases mutation with
  | merge request mergeMethod =>
    obtain ⟨r, hrequest, rfl⟩ := exchanges_sendWrite h
    have hreads : ∀ path sha method, Reads .mutate (.putMerge path sha method) merge? :=
      fun _ _ _ => ⟨fun _ _ => rfl, fun _ => rfl, fun _ => rfl, fun _ => rfl, fun _ => rfl⟩
    have hanswer := (exchanges_installationRequest hrequest).answer_iff (hreads _ _ _)
    have hread : ∀ answer, readAs r = .ok answer ↔
        r.map (Write.sent (A := Merged)) = .ok (.sent (.answered answer)) := by
      intro answer
      rcases r with halt | (response | source | value) <;>
        simp [readAs, Except.map, parseResponse]
    have hrefused : ∀ answer : MergeResult, Refused .merge
        ((merge request mergeMethod).finished (.ok (.answered answer))) ↔
          answer.merged = false ∧ rejects .merge (.plain 409 answer.message) := by
      intro answer
      cases hmerged : answer.merged <;>
        simp [finished, MutationOutcome.intoApplied, answered, mergeAnswer, hmerged, Refused,
          Rejection, Except.mapError]
    constructor
    · rintro ⟨e, he, -, answer, hmerge, hrest⟩
      exact ⟨answer, (hread answer).1 ((hanswer answer).1 ⟨e, he, hmerge⟩), (hrefused answer).2 hrest⟩
    · rintro ⟨answer, hwrite, hrest⟩
      obtain ⟨e, he, hmerge⟩ := (hanswer answer).2 ((hread answer).2 hwrite)
      exact ⟨e, he, rfl, answer, hmerge, (hrefused answer).1 hrest⟩
  | command request =>
    constructor
    · rintro ⟨_, _, ⟨⟩, _⟩
    · rintro ⟨_, _, hno⟩
      exact absurd hno not_refused_ok
  | updateBranch request =>
    constructor
    · rintro ⟨_, _, ⟨⟩, _⟩
    · rintro ⟨_, _, hno⟩
      exact absurd hno not_refused_ok

/-- An answer read otherwise does not reject an attempt. -/
theorem not_refused_applied (mutation : Mutation) (done : mutation.Done) :
    ¬ Refused mutation.operation (mutation.finished (.ok (.applied done))) := not_refused_ok

/-- A read-back does not reject an attempt. -/
theorem not_refused_confirmed (mutation : Mutation) {unconfirmed : GithubError}
    (h : ¬ Rejection mutation.operation unconfirmed) (found : Except Halt (Option mutation.Done)) :
    ¬ Refused mutation.operation (mutation.finished (confirmed unconfirmed found)) := by
  have hunconfirmed : ¬ Refused mutation.operation
      (.error (.error unconfirmed) : Except Halt mutation.Done) := by
    rintro ⟨error, herror, hrejection⟩
    cases herror
    exact h hrejection
  rcases found with (error | _) | (_ | done)
  · exact hunconfirmed
  · exact not_refused_outOfFuel
  · exact hunconfirmed
  · exact not_refused_ok

/-- **Past its checks an attempt ends in a rejection exactly when its write
step heard one.** -/
theorem write_heeds {r : Except Halt (MutationOutcome mutation.Answer mutation.Done)}
    (h : WriteCourse mutation.operation (mutation.mutate config fuel) (mutation.confirm fuel)
      ms cs r) :
    (∃ e ∈ ms, mutation.Heeds e) ↔ Refused mutation.operation (mutation.finished r) := by
  have hsteps := mutation.steps config fuel
  -- what the write step hears is a rejection it ends in, or the answer it ends in
  have hmutate : ∀ {write : Except Halt (Write mutation.Answer mutation.Done)},
      (mutation.mutate config fuel).Exchanges ms write →
        ((∃ e ∈ ms, mutation.Heeds e) ↔ Refused mutation.operation (written write) ∨
          ∃ answer, write = .ok (.sent (.answered answer)) ∧
            Refused mutation.operation (mutation.finished (.ok (.answered answer)))) := by
    intro write hwrite
    have hheard := (hsteps.mutates hwrite).1
    have hrefuses := exists_refuses_iff mutation (by decide) hheard.staged
    rw [hheard.refused] at hrefuses
    rw [← hrefuses, ← exists_unmerged_iff hwrite]
    constructor
    · rintro ⟨e, he, hrefuse | ⟨hstage, -⟩ | hunmerged⟩
      · exact .inl ⟨e, he, hrefuse⟩
      · rw [hheard.staged e he] at hstage
        cases hstage
      · exact .inr ⟨e, he, hunmerged⟩
    · rintro (⟨e, he, hrefuse⟩ | ⟨e, he, hunmerged⟩)
      · exact ⟨e, he, .inl hrefuse⟩
      · exact ⟨e, he, .inr (.inr hunmerged)⟩
  cases h with
  | answered hwrite =>
    rename_i answer
    rw [hmutate hwrite]
    constructor
    · rintro (hno | ⟨other, hsame, hrefused⟩)
      · exact absurd hno not_refused_ok
      · cases hsame
        exact hrefused
    · exact fun hrefused => .inr ⟨answer, rfl, hrefused⟩
  | refused hwrite =>
    rw [hmutate hwrite]
    simp [written, parseResponse, finished, Refused, Rejection]
  | already hwrite =>
    rw [hmutate hwrite]
    refine iff_of_false ?_ (mutation.not_refused_applied _)
    rintro (hno | ⟨_, hno, -⟩)
    · exact not_refused_ok hno
    · cases hno
  | failed hwrite _ =>
    rw [hmutate hwrite]
    simp [written, finished, Refused]
  | unreadable hwrite _ =>
    rw [hmutate hwrite]
    refine iff_of_false ?_ (mutation.not_refused_confirmed (by simp [Rejection]) _)
    simp [written, parseResponse, Refused, Rejection]
  | lost hwrite _ =>
    rw [hmutate hwrite]
    refine iff_of_false ?_ (mutation.not_refused_confirmed (by simp [Rejection]) _)
    simp [written, Refused, Rejection]

/-- **An attempt ends in a rejection exactly when it heard one.** -/
theorem attempt_heeds {r : Except Halt mutation.Done}
    (h : (mutation.attempt config fuel).Exchanges es r) :
    (∃ e ∈ es, mutation.Heeds e) ↔ Refused mutation.operation r := by
  rcases exchanges_attempt h with ⟨rfl, rfl⟩ | ⟨vs, ms, cs, outcome, rfl, hcourse, rfl⟩
  · exact iff_of_false (fun ⟨_, hno, _⟩ => absurd hno List.not_mem_nil) not_refused_config
  -- where the attempt ended, which is also the last answer that could be heeded
  cases hcourse with
  | unread hvs =>
    rw [List.append_nil, List.append_nil, verify_heeds hvs]
    simp [finished, Refused]
  | found hvs happlied =>
    rw [List.append_nil, List.append_nil, verify_heeds hvs]
    refine iff_of_false ?_ (mutation.not_refused_applied _)
    rintro (hno | ⟨pull, hok, hnone, -⟩)
    · exact not_refused_ok hno
    · cases hok
      rw [happlied] at hnone
      cases hnone
  | checked hvs happlied hcheck =>
    rename_i pull error
    rw [List.append_nil, List.append_nil, verify_heeds hvs]
    refine iff_of_true (.inr ⟨pull, rfl, happlied, ?_⟩) ⟨error, rfl, .of_checkTarget hcheck⟩
    rw [hcheck]
    exact fun hno => by cases hno
  | mutated hvs happlied hcheck hwrite =>
    -- the reads before passed and those after only confirm: it is the write that decides
    obtain ⟨-, -, hconfirm, hquiet, -⟩ := hwrite.steps (mutation.steps config fuel)
    rw [← write_heeds hwrite]
    constructor
    · rintro ⟨e, he, hheeds⟩
      rcases List.mem_append.1 he with he | he
      · rcases List.mem_append.1 he with he | he
        · rcases (verify_heeds hvs).1 ⟨e, he, hheeds⟩ with hno | ⟨pull, hok, -, hchecks⟩
          · exact absurd hno not_refused_ok
          · cases hok
            exact absurd hcheck hchecks
        · exact ⟨e, he, hheeds⟩
      · exact absurd ⟨e, he, hheeds⟩ (not_heeds_confirm hconfirm hquiet)
    · rintro ⟨e, he, hheeds⟩
      exact ⟨e, List.mem_append_left _ (List.mem_append_right _ he), hheeds⟩

/-- An attempt whose checks failed wrote nothing. -/
theorem quiet_of_failsChecks {r : Except Halt mutation.Done}
    (h : (mutation.attempt config fuel).Exchanges es r) {e : GithubExchange} (he : e ∈ es)
    (hfails : mutation.FailsChecks e) : Quiet es := by
  obtain ⟨hstage, pull, hpull, -, hchecks⟩ := hfails
  rcases exchanges_attempt h with ⟨rfl, -⟩ | ⟨vs, ms, cs, outcome, rfl, hcourse, -⟩
  · exact absurd he List.not_mem_nil
  cases hcourse with
  | unread hvs => simpa using quiet_fetchTarget hvs
  | found hvs _ => simpa using quiet_fetchTarget hvs
  | checked hvs _ _ => simpa using quiet_fetchTarget hvs
  | mutated hvs _ hcheck hwrite =>
    obtain ⟨hmutate, -, hconfirm, -, -⟩ := hwrite.steps (mutation.steps config fuel)
    rcases List.mem_append.1 he with he | he
    · rcases List.mem_append.1 he with he | he
      · cases (pull_fetchTarget hvs pull).1 ⟨e, he, hpull⟩
        exact absurd hcheck hchecks
      · rw [hmutate e he] at hstage
        cases hstage
    · rw [hconfirm e he] at hstage
      cases hstage

end Mutation

/-! ## Once it has landed -/

/-- What writes nothing has nothing carried out. -/
theorem landed_of_quiet {target : PrTarget} {α : Type} {p : GithubM α} {h k : GithubWorld}
    {es : List GithubExchange} {r : Except Halt α}
    (hrun : Prog.RunsOver (S := GithubEffects) (githubSem target) p h es r k)
    (hquiet : Quiet es) : k.landed = h.landed := by
  induction hrun with
  | done a s => rfl
  | fail e s => rfl
  | ask hsem _ ih =>
    obtain ⟨hreads, hrest⟩ := List.forall_mem_cons.1 hquiet
    rw [ih hrest]
    obtain ⟨moved, hmoves, ⟨rfl, -⟩ | ⟨hlands, -⟩⟩ := hsem
    · exact hmoves.landed
    · exact absurd hlands (not_lands_of_reads hreads)

/-- A merged pull request is shown merged, to every request. -/
theorem shows_merged {target : PrTarget} {α : Type} {p : GithubM α} {h k : GithubWorld}
    {es : List GithubExchange} {r : Except Halt α}
    (hrun : Prog.RunsOver (S := GithubEffects) (githubSem target) p h es r k)
    (hmerged : h.pull.merged) : ∀ e ∈ es, ∀ pull, pull? e = some pull → pull.merged := by
  refine (hrun.of_inv (I := fun g => g.pull.merged) (Q := fun e => ∀ pull,
    pull? e = some pull → pull.merged) ?_ hmerged).2
  rintro ⟨stage, call⟩ s reply t hs ⟨moved, hmoves, ⟨rfl, hshows⟩ | ⟨hlands, -⟩⟩
  · have hmoved := (hmoves.merged hs).1
    refine ⟨hmoved, fun pull hpull => ?_⟩
    cases call with
    | getPull path =>
      rcases reply with cause | (response | source | value)
      · cases hpull
      · cases hpull
      · cases hpull
      · cases hpull
        rw [hshows]
        exact hmoved
    | _ => simp [pull?] at hpull
  · have hmoved := (hmoves.merged hs).1
    cases hlands with
    | merge _ => exact ⟨rfl, fun _ hno => by simp [pull?] at hno⟩
    | comment => exact ⟨hmoved, fun _ hno => by simp [pull?] at hno⟩
    | update _ _ => exact ⟨hmoved, fun _ hno => by simp [pull?] at hno⟩

/-- What an attempt at a mutation that landed may hear that hides it: a
request refused in a way the step takes for a rejection; for a command or a
branch update, a verify read that shows the pull request closed, not
Dependabot's or at another head; for a merge, the answer that it did not
merge. -/
def Mutation.Disturbs (mutation : Mutation) (e : GithubExchange) : Prop :=
  mutation.Refuses e ∨
    (mutation.operation ≠ .merge ∧ stage e = .verify ∧
      ∃ pull, pull? e = some pull ∧ checkTarget mutation.target pull ≠ .ok ()) ∨
    mutation.Unmerged e

/-- **A mutation that landed is reported a success exactly when nothing
disturbed the attempt that settled.** -/
theorem landed_succeeds_iff {config : GithubConfig} {mutation : Mutation} {g h k : GithubWorld}
    {attempts : List (Attempted mutation)} {fuel : ℕ} {es : List GithubExchange}
    {r : Except Halt mutation.Done} {outcome : ActionOutcome}
    (hattempts : Attempts config mutation g attempts h) (hfresh : g.landed = 0)
    (hrun : Prog.RunsOver (S := GithubEffects) (githubSem mutation.target)
      (mutation.attempt config fuel) h es r k)
    (hlanded : k.landed ≠ 0) (hsettles : mutation.Settles r outcome) :
    outcome.isSucceeded ↔ ∀ e ∈ es, ¬ mutation.Disturbs e := by
  have hkept : mutation.Kept h := hattempts.kept (mutation.kept_of_unlanded hfresh)
  have hheeds : ∀ e ∈ es, (mutation.Heeds e ↔ mutation.Disturbs e) := by
    intro e he
    refine or_congr_right (or_congr_left ?_)
    cases mutation with
    | merge request mergeMethod =>
      refine iff_of_false (fun hfails => ?_) fun hno => hno.1 rfl
      -- nothing was written, so it had landed before, and the pull request reads merged
      have hbefore := landed_of_quiet hrun (Mutation.quiet_of_failsChecks hrun.exchanges he hfails)
      obtain ⟨-, pull, hpull, hnone, -⟩ := hfails
      have hmerged := shows_merged hrun (hkept.2 (by omega)) e he pull hpull
      simp [Mutation.alreadyApplied, mergedAs, hmerged] at hnone
    | command request =>
      simp [Mutation.FailsChecks, Mutation.alreadyApplied, Mutation.operation]
    | updateBranch request =>
      simp [Mutation.FailsChecks, Mutation.alreadyApplied, Mutation.operation]
  rw [hsettles.isSucceeded_iff, ← Mutation.attempt_heeds hrun.exchanges]
  constructor
  · exact fun hnone e he hdisturbs => hnone ⟨e, he, (hheeds e he).2 hdisturbs⟩
  · rintro hnone ⟨e, he, hheard⟩
    exact hnone e he ((hheeds e he).1 hheard)

/-- An update that landed, was moved back and landed again is a success:
nothing disturbed its attempt. -/
theorem landed_succeeds_iff_sample :
    ∃ es, Prog.RunsOver (S := GithubEffects) (githubSem sampleUpdate.target)
        (sampleUpdate.attempt sampleConfig 0) (sampleAt "fedcba9" 1 0) es (.ok "Updating")
          (sampleAt "fedcba9" 2 1) ∧
      ∀ e ∈ es, ¬ sampleUpdate.Disturbs e := by
  obtain ⟨lost, hlost, -⟩ := sampleUpdate_lost
  obtain ⟨es, hrun⟩ := sampleUpdate_again
  have hfirst : Attempts sampleConfig sampleUpdate (sampleAt "abcdef0" 0 0)
      ([] ++ [⟨lost, .error (.error (.transport "timed out"))⟩]) (sampleAt "fedcba9" 1 0) :=
    .next (.start _) hlost
  have hsettles : sampleUpdate.Settles (.ok "Updating") (.succeeded "Updating" none) :=
    ⟨.ok "Updating", 0, .ok "Updating", rfl, rfl, rfl⟩
  have hlanded : (sampleAt "fedcba9" 2 1).landed ≠ 0 := by decide
  exact ⟨es, hrun, (landed_succeeds_iff hfirst rfl hrun hlanded hsettles).1 rfl⟩

/-- An attempt after the update landed: its own head is another than the
expected one. -/
theorem sampleUpdate_stale :
    ∃ es, Prog.RunsOver (S := GithubEffects) (githubSem sampleUpdate.target)
        (sampleUpdate.attempt sampleConfig 0) (sampleAt "fedcba9" 1 0) es
          (.error (.error (.staleSha "abcdef0" "fedcba9"))) (sampleAt "fedcba9" 1 0) :=
  ⟨_, sampleAt_answers .verify (.installationToken false) (.ok (.answered (.ok ()))) trivial
    (sampleAt_answers .verify (.getPull _) (.ok (.answered (sampleAt "fedcba9" 1 0).pull)) rfl
      (.fail _ _))⟩

/-- **A branch update that landed is rejected as stale**, the head it moved
being another than the expected one. -/
theorem landed_update_rejected :
    ¬ ∀ (config : GithubConfig) (mutation : Mutation) (g h k : GithubWorld)
        (attempts : List (Attempted mutation)) (fuel : ℕ) (es : List GithubExchange)
        (r : Except Halt mutation.Done) (outcome : ActionOutcome),
      Attempts config mutation g attempts h → g.landed = 0 →
        Prog.RunsOver (S := GithubEffects) (githubSem mutation.target)
          (mutation.attempt config fuel) h es r k →
        k.landed ≠ 0 → mutation.Settles r outcome → outcome.isSucceeded := by
  intro hall
  obtain ⟨lost, hlost, -⟩ := sampleUpdate_lost
  obtain ⟨es, hrun⟩ := sampleUpdate_stale
  have hfirst : Attempts sampleConfig sampleUpdate (sampleAt "abcdef0" 0 0)
      ([] ++ [⟨lost, .error (.error (.transport "timed out"))⟩]) (sampleAt "fedcba9" 1 0) :=
    .next (.start _) hlost
  have hsettles : sampleUpdate.Settles (.error (.error (.staleSha "abcdef0" "fedcba9")))
      (.rejected (.staleSha "abcdef0" "fedcba9")) :=
    ⟨.error (.staleSha "abcdef0" "fedcba9"), 0, .staleSha "abcdef0" "fedcba9", rfl, rfl, rfl⟩
  have hlanded : (sampleAt "fedcba9" 1 0).landed ≠ 0 := by decide
  have hsucceeded := hall _ _ _ _ _ _ _ _ _ _ hfirst rfl hrun hlanded hsettles
  cases hsucceeded

end Dependaboard
