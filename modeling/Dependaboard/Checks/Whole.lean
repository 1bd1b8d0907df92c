import Dependaboard.Durable.Exchange
import Dependaboard.Github.Checks
/-!
# Checks — whether every page was read

A connection's loop ends where it is left without a cursor: at a page that
says it is the last, but also at an answer that is null and at a page that
says there is another and gives no cursor to it. The signals are those of
every page exactly when neither of the other two was met:
`signals_whole_iff`.
-/

namespace Dependaboard

open Durable Prog

section Pages

variable {T : Type}

/-- The pages some answers gave. -/
def pagesOf (answers : List (Except GithubError (Option (Connection T)))) : List (Connection T) :=
  answers.filterMap fun
    | .ok page => page
    | .error _ => none

/-- A connection was read to its last page: every answer gave a page, and the
last of them says there is no other. -/
def ReadToLast (first : Connection T)
    (answers : List (Except GithubError (Option (Connection T)))) : Prop :=
  (∀ answer ∈ answers, ∃ page, answer = .ok (some page)) ∧
    ∃ last, (first :: pagesOf answers).getLast? = some last ∧ last.pageInfo.hasNextPage = false

/-- No answer was null, and every page that says there is another gave a
cursor to it. -/
def Unbroken (first : Connection T)
    (answers : List (Except GithubError (Option (Connection T)))) : Prop :=
  .ok none ∉ answers ∧
    ∀ page ∈ first :: pagesOf answers, page.pageInfo.hasNextPage → page.pageInfo.endCursor.isSome

/-- What each exchange of a connection's reads was answered with. -/
structure Asks (nextPage : String → PagesM (Option (Connection T)))
    (answerOf : Exchange PageEffects → Option (Except GithubError (Option (Connection T)))) :
    Prop where
  one : ∀ {after es r}, (nextPage after).Exchanges es r →
    ∃ e answer, es = [e] ∧ answerOf e = some answer ∧ r = answer.mapError Halt.error

/-- How a connection is read from a page on, by the answers it is given. -/
inductive PagesCourse (signal : T → Option CheckSignal) : Connection T → List CheckSignal →
    List (Except GithubError (Option (Connection T))) → Except Halt (List CheckSignal) → Prop
  /-- The page leaves no cursor. -/
  | last {page signals} : page.nextCursor = none → PagesCourse signal page signals [] (.ok signals)
  | outOfFuel {page signals} : page.nextCursor.isSome →
      PagesCourse signal page signals [] (.error .outOfFuel)
  | failed {page signals error} : page.nextCursor.isSome →
      PagesCourse signal page signals [.error error] (.error (.error error))
  /-- The answer is null, which leaves no cursor either. -/
  | null {page signals} : page.nextCursor.isSome →
      PagesCourse signal page signals [.ok none] (.ok signals)
  | next {page next signals answers r} : page.nextCursor.isSome →
      PagesCourse signal next (signals ++ next.nodes.filterMap signal) answers r →
      PagesCourse signal page signals (.ok (some next) :: answers) r

variable {signal : T → Option CheckSignal} {nextPage : String → PagesM (Option (Connection T))}
  {answerOf : Exchange PageEffects → Option (Except GithubError (Option (Connection T)))}
  {signals : List CheckSignal} {page : Connection T}
  {answers : List (Except GithubError (Option (Connection T)))}

theorem pagesFrom_none (fuel : ℕ) : pagesFrom signal nextPage fuel signals none = .done signals := by
  cases fuel <;> rfl

/-- **What a connection's reads are answered with is its course.** -/
theorem course_pagesFrom (hasks : Asks nextPage answerOf) {fuel : ℕ}
    {es : List (Exchange PageEffects)} {r : Except Halt (List CheckSignal)}
    (h : (pagesFrom signal nextPage fuel signals page.nextCursor).Exchanges es r) :
    (∀ e ∈ es, (answerOf e).isSome) ∧
      PagesCourse signal page signals (es.filterMap answerOf) r := by
  -- on the fuel, from whichever page was read last
  induction fuel generalizing signals page es with
  | zero =>
    cases hcursor : page.nextCursor with
    | none =>
      rw [hcursor] at h
      obtain ⟨rfl, rfl⟩ := exchanges_done.1 h
      exact ⟨fun e he => absurd he List.not_mem_nil, .last hcursor⟩
    | some after =>
      rw [hcursor] at h
      obtain ⟨rfl, rfl⟩ := exchanges_fail.1 h
      exact ⟨fun e he => absurd he List.not_mem_nil, .outOfFuel (by rw [hcursor]; rfl)⟩
  | succ fuel ih =>
    cases hcursor : page.nextCursor with
    | none =>
      rw [hcursor] at h
      obtain ⟨rfl, rfl⟩ := exchanges_done.1 h
      exact ⟨fun e he => absurd he List.not_mem_nil, .last hcursor⟩
    | some after =>
      have hsome : page.nextCursor.isSome := by rw [hcursor]; rfl
      rw [hcursor] at h
      rcases exchanges_bind.1 h with ⟨cause, rfl, hfail⟩ | ⟨found, first, rest, rfl, hfound, hrest⟩
      · obtain ⟨e, answer, rfl, hanswer, hr⟩ := hasks.one hfail
        rw [List.filterMap_cons_some hanswer]
        refine ⟨by simp [hanswer], ?_⟩
        cases answer with
        | error error =>
          rw [Except.error.inj hr]
          exact .failed hsome
        | ok found => cases hr
      · obtain ⟨e, answer, rfl, hanswer, hr⟩ := hasks.one hfound
        rw [List.singleton_append, List.forall_mem_cons, List.filterMap_cons_some hanswer]
        cases answer with
        | error error => cases hr
        | ok _ =>
          obtain rfl := Except.ok.inj hr
          cases found with
          | none =>
            have hend : (pagesFrom signal nextPage fuel signals none).Exchanges rest r := hrest
            rw [pagesFrom_none] at hend
            obtain ⟨rfl, rfl⟩ := exchanges_done.1 hend
            exact ⟨⟨by rw [hanswer]; rfl, fun e he => absurd he List.not_mem_nil⟩, .null hsome⟩
          | some next =>
            obtain ⟨hown, hcourse⟩ := ih hrest
            exact ⟨⟨by rw [hanswer]; rfl, hown⟩, .next hsome hcourse⟩

theorem readToLast_nil : ReadToLast page [] ↔ page.pageInfo.hasNextPage = false := by
  simp [ReadToLast, pagesOf]

theorem readToLast_cons {next : Connection T}
    {answers : List (Except GithubError (Option (Connection T)))} :
    ReadToLast page (.ok (some next) :: answers) ↔ ReadToLast next answers := by
  simp [ReadToLast, pagesOf]

theorem unbroken_nil : Unbroken page [] ↔
    (page.pageInfo.hasNextPage → page.pageInfo.endCursor.isSome) := by
  simp [Unbroken, pagesOf]

theorem unbroken_cons {next : Connection T}
    {answers : List (Except GithubError (Option (Connection T)))} :
    Unbroken page (.ok (some next) :: answers) ↔
      (page.pageInfo.hasNextPage → page.pageInfo.endCursor.isSome) ∧ Unbroken next answers := by
  simp [Unbroken, pagesOf]
  tauto

/-- A page that leaves a cursor says there is another. -/
theorem linked_of_nextCursor (h : page.nextCursor.isSome) :
    page.pageInfo.hasNextPage = true ∧ page.pageInfo.endCursor.isSome := by
  unfold Connection.nextCursor at h
  split at h
  · exact ⟨‹_›, h⟩
  · cases h

namespace PagesCourse

/-- **A connection whose signals are given** was answered without a failure,
and they are the signals of its pages. -/
theorem given {r : Except Halt (List CheckSignal)} (h : PagesCourse signal page signals answers r)
    {given : List CheckSignal} (hr : r = .ok given) : (∀ error, .error error ∉ answers) ∧
      given = signals ++ (pagesOf answers).flatMap fun page => page.nodes.filterMap signal := by
  induction h with
  | last _ => exact ⟨by simp, by simpa [pagesOf] using (Except.ok.inj hr).symm⟩
  | outOfFuel _ => cases hr
  | failed _ => cases hr
  | null _ => exact ⟨by simp, by simpa [pagesOf] using (Except.ok.inj hr).symm⟩
  | next _ _ ih =>
    obtain ⟨hnone, hgiven⟩ := ih hr
    refine ⟨fun error herror => ?_, by simpa [pagesOf] using hgiven⟩
    rcases List.mem_cons.1 herror with herror | herror
    · cases herror
    · exact hnone error herror

/-- **It was read to its last page exactly when nothing broke it off.** -/
theorem readToLast_iff {r : Except Halt (List CheckSignal)}
    (h : PagesCourse signal page signals answers r) {given : List CheckSignal}
    (hr : r = .ok given) : ReadToLast page answers ↔ Unbroken page answers := by
  induction h with
  | @last page _ hcursor =>
    rw [readToLast_nil, unbroken_nil]
    unfold Connection.nextCursor at hcursor
    cases hnext : page.pageInfo.hasNextPage <;> simp_all
  | outOfFuel _ => cases hr
  | failed _ => cases hr
  | null _ =>
    refine iff_of_false (fun hread => ?_) fun hunbroken => hunbroken.1 List.mem_cons_self
    obtain ⟨page, hpage⟩ := hread.1 _ List.mem_cons_self
    cases hpage
  | next hcursor _ ih =>
    rw [readToLast_cons, unbroken_cons, ih hr]
    exact ⟨fun h => ⟨fun _ => (linked_of_nextCursor hcursor).2, h⟩, fun h => h.2⟩

/-- A connection that failed was answered with the failure. -/
theorem failure {r : Except Halt (List CheckSignal)}
    (h : PagesCourse signal page signals answers r) {error : GithubError}
    (hr : r = .error (.error error)) : .error error ∈ answers := by
  induction h with
  | last _ => cases hr
  | outOfFuel _ => cases hr
  | failed _ =>
    obtain rfl := Halt.error.inj (Except.error.inj hr)
    exact List.mem_cons_self
  | null _ => cases hr
  | next _ _ ih => exact List.mem_cons_of_mem _ (ih hr)

end PagesCourse

end Pages

/-! ## The checks of a commit -/

/-- What a page of contexts was answered with. -/
def contextAnswer : Exchange PageEffects →
    Option (Except GithubError (Option (Connection CheckContext)))
  | ⟨.checkContexts _ _ _ _, answer⟩ => some (answer.map fun data =>
      (data.intoCommit.bind CheckContextsPage.statusCheckRollup).map StatusCheckRollup.contexts)
  | ⟨.checkSuites _ _ _ _, _⟩ => none

/-- What a page of suites was answered with. -/
def suiteAnswer : Exchange PageEffects →
    Option (Except GithubError (Option (Connection CheckSuite)))
  | ⟨.checkContexts _ _ _ _, _⟩ => none
  | ⟨.checkSuites _ _ _ _, answer⟩ => some (answer.map fun data =>
      data.intoCommit.bind CheckSuitesPage.checkSuites)

/-- A page is one exchange, and fails as it does. -/
theorem exchanges_page {α : Type} {query : PageQuery} {read : Option query.Payload → α}
    {es : List (Exchange PageEffects)} {r : Except Halt α}
    (h : ((commitBySha query).bind fun commit => .done (read commit)).Exchanges es r) :
    ∃ answer : Except GithubError (CommitData query.Payload), es = [⟨query, answer⟩] ∧
      r = (answer.map fun data => read data.intoCommit).mapError Halt.error := by
  obtain ⟨answer, rest, rfl, hrest⟩ := exchanges_ask.1 h
  cases answer with
  | error cause =>
    obtain ⟨rfl, rfl⟩ := exchanges_fail.1 hrest
    exact ⟨_, rfl, rfl⟩
  | ok data =>
    obtain ⟨rfl, rfl⟩ := exchanges_done.1 hrest
    exact ⟨_, rfl, rfl⟩

theorem asks_contextsPage (request : SyncRequest) (sha : String) :
    Asks (contextsPage request sha) contextAnswer where
  one h := by
    obtain ⟨answer, rfl, rfl⟩ := exchanges_page h
    exact ⟨_, _, rfl, rfl, rfl⟩

theorem asks_suitesPage (request : SyncRequest) (sha : String) :
    Asks (suitesPage request sha) suiteAnswer where
  one h := by
    obtain ⟨answer, rfl, rfl⟩ := exchanges_page h
    exact ⟨_, _, rfl, rfl, rfl⟩

/-- The pages of a connection the commit has, if it has it: the first, and
those some answers gave. -/
def pagesRead {T : Type} (first : Option (Connection T))
    (answers : List (Except GithubError (Option (Connection T)))) : List (Connection T) :=
  first.toList ++ pagesOf answers

/-- **What the reads of a connection come to**, if the commit has it. -/
structure ConnectionRead {T : Type} (signal : T → Option CheckSignal)
    (first : Option (Connection T)) (answers : List (Except GithubError (Option (Connection T))))
    (r : Except Halt (List CheckSignal)) : Prop where
  given : ∀ signals, r = .ok signals → (∀ error, .error error ∉ answers) ∧
    signals = (pagesRead first answers).flatMap (fun page => page.nodes.filterMap signal) ∧
    ((∀ page ∈ first, ReadToLast page answers) ↔ ∀ page ∈ first, Unbroken page answers)
  failure : ∀ error, r = .error (.error error) → .error error ∈ answers

theorem ConnectionRead.of_course {T : Type} {signal : T → Option CheckSignal}
    {page : Connection T} {answers : List (Except GithubError (Option (Connection T)))}
    {r : Except Halt (List CheckSignal)}
    (h : PagesCourse signal page (page.nodes.filterMap signal) answers r) :
    ConnectionRead signal (some page) answers r where
  given signals hr := by
    obtain ⟨hnone, hgiven⟩ := h.given hr
    refine ⟨hnone, by simpa [pagesRead] using hgiven, ?_⟩
    simpa using h.readToLast_iff hr
  failure error hr := h.failure hr

theorem ConnectionRead.none {T : Type} {signal : T → Option CheckSignal} :
    ConnectionRead signal none [] (.ok []) where
  given signals hr := by
    obtain rfl := Except.ok.inj hr
    simp [pagesRead, pagesOf]
  failure error hr := by cases hr

theorem exchanges_contextSignals {fuel : ℕ} {request : SyncRequest} {commit : Commit}
    {es : List (Exchange PageEffects)} {r : Except Halt (List CheckSignal)}
    (h : (contextSignals fuel request commit).Exchanges es r) :
    (∀ e ∈ es, (contextAnswer e).isSome) ∧ ConnectionRead checkContextSignal
      (commit.statusCheckRollup.map StatusCheckRollup.contexts) (es.filterMap contextAnswer) r := by
  unfold contextSignals at h
  cases hrollup : commit.statusCheckRollup with
  | none =>
    rw [hrollup] at h
    obtain ⟨rfl, rfl⟩ := exchanges_done.1 h
    exact ⟨fun e he => absurd he List.not_mem_nil, .none⟩
  | some rollup =>
    rw [hrollup] at h
    obtain ⟨hown, hcourse⟩ := course_pagesFrom (asks_contextsPage request commit.oid) h
    exact ⟨hown, .of_course hcourse⟩

theorem exchanges_suiteSignals {fuel : ℕ} {request : SyncRequest} {commit : Commit}
    {es : List (Exchange PageEffects)} {r : Except Halt (List CheckSignal)}
    (h : (suiteSignals fuel request commit).Exchanges es r) :
    (∀ e ∈ es, (suiteAnswer e).isSome) ∧
      ConnectionRead checkSuiteSignal commit.checkSuites (es.filterMap suiteAnswer) r := by
  unfold suiteSignals at h
  cases hsuites : commit.checkSuites with
  | none =>
    rw [hsuites] at h
    obtain ⟨rfl, rfl⟩ := exchanges_done.1 h
    exact ⟨fun e he => absurd he List.not_mem_nil, .none⟩
  | some suites =>
    rw [hsuites] at h
    obtain ⟨hown, hcourse⟩ := course_pagesFrom (asks_suitesPage request commit.oid) h
    exact ⟨hown, .of_course hcourse⟩

theorem suiteAnswer_of_contextAnswer {e : Exchange PageEffects}
    (h : (contextAnswer e).isSome) : suiteAnswer e = none := by
  obtain ⟨⟨⟩ | ⟨⟩, answer⟩ := e
  · rfl
  · cases h

theorem contextAnswer_of_suiteAnswer {e : Exchange PageEffects}
    (h : (suiteAnswer e).isSome) : contextAnswer e = none := by
  obtain ⟨⟨⟩ | ⟨⟩, answer⟩ := e
  · cases h
  · rfl

/-! ## The signals -/

/-- The status is a failure exactly when a signal is. -/
theorem rollupFrom_eq_failure {signals : List CheckSignal} {sawPass sawPending : Bool} :
    rollupFrom sawPass sawPending signals = .failure ↔ .fail ∈ signals := by
  induction signals generalizing sawPass sawPending with
  | nil => cases sawPass <;> cases sawPending <;> simp [rollupFrom]
  | cons signal rest ih => cases signal <;> simp [rollupFrom, ih]

/-- **The signals are of all the checks**: each connection the commit has was
read to its last page, the signals are those of every node of every page, in
order, and no check fails where their status is success or none. -/
structure WholeSignals (commit : Commit) (es : List (Exchange PageEffects))
    (signals : List CheckSignal) : Prop where
  contexts : ∀ page ∈ commit.statusCheckRollup.map StatusCheckRollup.contexts,
    ReadToLast page (es.filterMap contextAnswer)
  suites : ∀ page ∈ commit.checkSuites, ReadToLast page (es.filterMap suiteAnswer)
  signals_eq : signals =
    (pagesRead (commit.statusCheckRollup.map StatusCheckRollup.contexts)
        (es.filterMap contextAnswer)).flatMap (fun page => page.nodes.filterMap checkContextSignal)
      ++ (pagesRead commit.checkSuites (es.filterMap suiteAnswer)).flatMap
        fun page => page.nodes.filterMap checkSuiteSignal
  status : rollupChecks signals = .success ∨ rollupChecks signals = .none →
    (∀ page ∈ pagesRead (commit.statusCheckRollup.map StatusCheckRollup.contexts)
      (es.filterMap contextAnswer), ∀ node ∈ page.nodes, checkContextSignal node ≠ some .fail) ∧
    ∀ page ∈ pagesRead commit.checkSuites (es.filterMap suiteAnswer),
      ∀ node ∈ page.nodes, checkSuiteSignal node ≠ some .fail

/-- A page was answered with a failure. -/
def Failed (es : List (Exchange PageEffects)) : Prop :=
  (∃ error, .error error ∈ es.filterMap contextAnswer) ∨
    ∃ error, .error error ∈ es.filterMap suiteAnswer

/-- Neither connection the commit has was broken off. -/
def Commit.Unbroken (commit : Commit) (es : List (Exchange PageEffects)) : Prop :=
  (∀ page ∈ commit.statusCheckRollup.map StatusCheckRollup.contexts,
      Dependaboard.Unbroken page (es.filterMap contextAnswer)) ∧
    ∀ page ∈ commit.checkSuites, Dependaboard.Unbroken page (es.filterMap suiteAnswer)

/-- **The reads of a commit's two connections**, told apart. -/
theorem exchanges_checkSignals {fuel : ℕ} {request : SyncRequest} {commit : Commit}
    {es : List (Exchange PageEffects)} {r : Except GithubError (List CheckSignal)}
    (h : (checkSignals fuel request commit).Exchanges es (r.mapError Halt.error)) :
    (∃ error, r = .error error ∧ Failed es) ∨
      ∃ contexts suites, r = .ok (contexts ++ suites) ∧
        ConnectionRead checkContextSignal
          (commit.statusCheckRollup.map StatusCheckRollup.contexts) (es.filterMap contextAnswer)
          (.ok contexts) ∧
        ConnectionRead checkSuiteSignal commit.checkSuites (es.filterMap suiteAnswer)
          (.ok suites) := by
  -- the contexts are read to their end before the suites are begun
  rcases exchanges_bind.1 h with ⟨cause, hr, hfail⟩ | ⟨contexts, first, rest, rfl, hfirst, hrest⟩
  · obtain ⟨-, hread⟩ := exchanges_contextSignals hfail
    cases r with
    | error error =>
      obtain rfl := Except.error.inj hr
      exact .inl ⟨error, rfl, .inl ⟨error, hread.failure error rfl⟩⟩
    | ok signals => cases hr
  · obtain ⟨hfirst, hcontexts⟩ := exchanges_contextSignals hfirst
    have hnoSuites : first.filterMap suiteAnswer = [] :=
      List.filterMap_eq_nil_iff.2 fun e he => suiteAnswer_of_contextAnswer (hfirst e he)
    -- neither connection's reads are answered as the other's
    have hboth {suites : Except Halt (List CheckSignal)}
        (hsuites : (suiteSignals fuel request commit).Exchanges rest suites) :
        (first ++ rest).filterMap contextAnswer = first.filterMap contextAnswer ∧
          ConnectionRead checkSuiteSignal commit.checkSuites
            ((first ++ rest).filterMap suiteAnswer) suites := by
      obtain ⟨hrest, hread⟩ := exchanges_suiteSignals hsuites
      have hnoContexts : rest.filterMap contextAnswer = [] :=
        List.filterMap_eq_nil_iff.2 fun e he => contextAnswer_of_suiteAnswer (hrest e he)
      rw [List.filterMap_append, List.filterMap_append, hnoContexts, hnoSuites, List.append_nil]
      exact ⟨rfl, hread⟩
    rcases exchanges_bind.1 hrest with ⟨cause, hr, hfail⟩ | ⟨suites, second, last, rfl, hsuites, hend⟩
    · obtain ⟨-, hread⟩ := hboth hfail
      cases r with
      | error error =>
        obtain rfl := Except.error.inj hr
        exact .inl ⟨error, rfl, .inr ⟨error, hread.failure error rfl⟩⟩
      | ok signals => cases hr
    · obtain ⟨rfl, hr⟩ := exchanges_done.1 hend
      rw [List.append_nil] at hboth ⊢
      obtain ⟨hsame, hread⟩ := hboth hsuites
      rw [hsame]
      cases r with
      | error error => cases hr
      | ok signals =>
        obtain rfl := Except.ok.inj hr
        exact .inr ⟨contexts, suites, rfl, hcontexts, hread⟩

/-- A failing node's signal is among those of its page. -/
theorem fail_mem {T : Type} {signal : T → Option CheckSignal} {pages : List (Connection T)}
    {page : Connection T} {node : T} (hpage : page ∈ pages) (hnode : node ∈ page.nodes)
    (h : signal node = some .fail) :
    .fail ∈ pages.flatMap fun page => page.nodes.filterMap signal :=
  List.mem_flatMap.2 ⟨page, hpage, List.mem_filterMap.2 ⟨node, hnode, h⟩⟩

/-- **Check results are computed from all the checks exactly where no page is
null and no page that says there is another leaves its cursor out**, unless
a page fails and they are not computed at all. -/
theorem signals_whole_iff {fuel : ℕ} {request : SyncRequest} {commit : Commit}
    {es : List (Exchange PageEffects)} {r : Except GithubError (List CheckSignal)}
    (h : (checkSignals fuel request commit).Exchanges es (r.mapError Halt.error)) :
    (∀ signals, r = .ok signals → WholeSignals commit es signals) ↔
      Failed es ∨ commit.Unbroken es := by
  rcases exchanges_checkSignals h with ⟨error, rfl, hfailed⟩ | ⟨contexts, suites, rfl, hcontexts,
    hsuites⟩
  · exact iff_of_true (fun signals hr => by cases hr) (.inl hfailed)
  obtain ⟨hnone, hcontexts, hcontextsRead⟩ := hcontexts.given contexts rfl
  obtain ⟨hnone', hsuites, hsuitesRead⟩ := hsuites.given suites rfl
  have hnotFailed : ¬ Failed es := by
    rintro (⟨error, herror⟩ | ⟨error, herror⟩)
    · exact hnone error herror
    · exact hnone' error herror
  rw [or_iff_right hnotFailed, Commit.Unbroken, ← hcontextsRead, ← hsuitesRead]
  constructor
  · intro hwhole
    obtain ⟨hread, hread', -, -⟩ := hwhole _ rfl
    exact ⟨hread, hread'⟩
  · rintro ⟨hread, hread'⟩ signals hr
    obtain rfl := Except.ok.inj hr
    refine ⟨hread, hread', by rw [hcontexts, hsuites], fun hstatus => ?_⟩
    have hpasses : .fail ∉ contexts ++ suites := fun hfail => by
      have hfailure : rollupChecks (contexts ++ suites) = .failure :=
        rollupFrom_eq_failure.2 hfail
      rw [hfailure] at hstatus
      rcases hstatus with hstatus | hstatus <;> cases hstatus
    rw [hcontexts, hsuites, List.mem_append, not_or] at hpasses
    exact ⟨fun page hpage node hnode hfail => hpasses.1 (fail_mem hpage hnode hfail),
      fun page hpage node hnode hfail => hpasses.2 (fail_mem hpage hnode hfail)⟩

/-! ## A sample -/

/-- A commit whose contexts are on two pages, the first all passing. -/
def sampleCommit : Commit where
  oid := "abc123"
  statusCheckRollup := some ⟨⟨⟨true, some "Y3Vyc29yOjEwMA"⟩,
    [.checkRun (some "COMPLETED") (some "SUCCESS")]⟩⟩
  checkSuites := none

/-- The query of its second page. -/
def sampleQuery : PageQuery := .checkContexts "acme" "api" "abc123" "Y3Vyc29yOjEwMA"

/-- The second page, whose one check fails. -/
def samplePage : CommitData CheckContextsPage :=
  ⟨some ⟨some ⟨some ⟨⟨⟨false, none⟩, [.checkRun (some "COMPLETED") (some "FAILURE")]⟩⟩⟩⟩⟩

/-- The request its checks are read for. -/
def sampleRequest : SyncRequest := ⟨1, "acme", "api", 1, false, none⟩

theorem signals_whole_iff_sample : (∀ signals,
      (.ok [.pass, .fail] : Except GithubError (List CheckSignal)) = .ok signals →
        WholeSignals sampleCommit [⟨sampleQuery, .ok samplePage⟩] signals) ↔
    Failed [⟨sampleQuery, .ok samplePage⟩] ∨
      sampleCommit.Unbroken [⟨sampleQuery, .ok samplePage⟩] :=
  @signals_whole_iff 1 sampleRequest sampleCommit _ _ (.ask (.done _))

/-- **A null page gives a commit the status of the pages before it**: the
commit is a success, its second page not read. -/
theorem signals_of_part :
    (checkSignals 1 sampleRequest sampleCommit).Exchanges [⟨sampleQuery, .ok ⟨none⟩⟩]
        (.ok [.pass]) ∧
      rollupChecks [.pass] = .success ∧
      ¬ WholeSignals sampleCommit [⟨sampleQuery, .ok ⟨none⟩⟩] [.pass] := by
  refine ⟨.ask (.done _), rfl, fun hwhole => ?_⟩
  have hread := hwhole.contexts _ (Option.mem_some_self _)
  obtain ⟨page, hpage⟩ := hread.1 _ (List.mem_singleton_self _)
  cases hpage

end Dependaboard
