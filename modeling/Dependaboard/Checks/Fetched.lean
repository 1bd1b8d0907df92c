import Dependaboard.Checks.Rollup
import Dependaboard.Github.Fetch
import Dependaboard.Paging.Moving
import Dependaboard.Service.PullRequest
/-!
# Checks — a read of a pull request is of its head

A pull request may be pushed to while it is read, so it is asked for once, and
what is asked after that is asked of a commit, by the SHA the answer had as
the head. Whatever moves in between, what the read gives is of one commit, and
of all its checks: `fetchSnapshot_reads_head`.
-/

namespace Dependaboard

open Durable Prog

/-! ## What GitHub has of a commit -/

/-- The message of a commit and all its checks. -/
structure CommitContent where
  message : String
  /-- Null when the commit has neither check runs nor commit statuses. -/
  contexts : Option (List CheckContext)
  suites : Option (List CheckSuite)

/-- What every check of the commit contributes. -/
def CommitContent.signals (content : CommitContent) : List CheckSignal :=
  (content.contexts.getD []).filterMap checkContextSignal ++
    (content.suites.getD []).filterMap checkSuiteSignal

/-- The pages of nodes after the first. -/
def pagesAfter {T : Type} (nodes : Option (List T)) : ℕ := ((nodes.getD []).length - 1) / 100

/-- A connection of a commit. -/
inductive CheckConnection where
  | contexts
  | suites
  deriving DecidableEq, Repr

/-- GitHub's commits, by repository and SHA, and the cursor each page of each
of a commit's connections ends on. A commit and its checks stay as they are
while the read runs; only the pull request moves. -/
structure GithubCommits where
  content : (owner repo sha : String) → Option CommitContent
  cursor : (owner repo sha : String) → CheckConnection → ℕ → String

/-- Page `p` of a list of nodes, as GitHub answers with it. -/
structure ShowsPage {T : Type} (cursor : ℕ → String) (p : ℕ) (nodes : List T)
    (page : Connection T) : Prop where
  nodes_eq : page.nodes = Paging.page 100 p nodes
  more : page.pageInfo.hasNextPage = decide (100 * p < nodes.length)
  linked : 100 * p < nodes.length → page.pageInfo.endCursor = some (cursor p)

/-- A head is the commit, with the first page of each of its connections. -/
structure CommitContent.Heads (cursor : CheckConnection → ℕ → String) (content : CommitContent)
    (head : HeadCommit) : Prop where
  message : head.message = content.message
  contexts : Option.Rel (ShowsPage (cursor .contexts) 1) content.contexts
    (head.statusCheckRollup.map StatusCheckRollup.contexts)
  suites : Option.Rel (ShowsPage (cursor .suites) 1) content.suites head.checkSuites

namespace GithubCommits

variable (github : GithubCommits)

/-- A head is the commit at a SHA. -/
def ShowsHead (owner repo sha : String) (head : HeadCommit) : Prop :=
  head.oid = sha ∧ ∃ content, github.content owner repo sha = some content ∧
    content.Heads (github.cursor owner repo sha) head

/-- A page is the one after the cursor asked for. -/
def ShowsNext : Exchange PageEffects → Prop
  | ⟨.checkContexts owner repo sha after, answer⟩ => ∀ content p data,
      github.content owner repo sha = some content →
      after = github.cursor owner repo sha .contexts p → answer = .ok data →
      Option.Rel (ShowsPage (github.cursor owner repo sha .contexts) (p + 1)) content.contexts
        ((data.intoCommit.bind CheckContextsPage.statusCheckRollup).map StatusCheckRollup.contexts)
  | ⟨.checkSuites owner repo sha after, answer⟩ => ∀ content p data,
      github.content owner repo sha = some content →
      after = github.cursor owner repo sha .suites p → answer = .ok data →
      Option.Rel (ShowsPage (github.cursor owner repo sha .suites) (p + 1)) content.suites
        (data.intoCommit.bind CheckSuitesPage.checkSuites)

/-- The pull request of an answer, if it has one. -/
def pulled (reply : GraphqlReply SnapshotData) : Option FetchedPull :=
  (graphqlQuery reply).toOption.bind fun data =>
    data.repository.bind SnapshotRepository.pullRequest

/-- **The commits of an answer are GitHub's.** The pull request is whatever it
is when it is asked for. -/
def Shows : Exchange FetchEffects → Prop
  | ⟨.snapshot owner repo _, reply⟩ => ∀ pull head, pulled reply = some pull →
      pull.lastListedCommit = some head → github.ShowsHead owner repo head.oid head
  | ⟨.headCommit owner repo sha, reply⟩ => ∀ data head, graphqlQuery reply = .ok data →
      data.intoCommit = some head → github.ShowsHead owner repo sha head
  | ⟨.page query, reply⟩ => github.ShowsNext ⟨query, graphqlQuery reply⟩
  | ⟨.unixSeconds, _⟩ => True

end GithubCommits

/-- An answer failed so. -/
def FailsWith (error : GithubError) : Exchange FetchEffects → Prop
  | ⟨.snapshot _ _ _, reply⟩ => graphqlQuery reply = .error error
  | ⟨.headCommit _ _ _, reply⟩ => graphqlQuery reply = .error error
  | ⟨.page _, reply⟩ => graphqlQuery reply = .error error
  | ⟨.unixSeconds, _⟩ => False

/-! ## The pages of a connection -/

namespace ShowsPage

variable {T : Type} {cursor : ℕ → String} {p : ℕ} {nodes : List T} {page : Connection T}

theorem nextCursor (h : ShowsPage cursor p nodes page) :
    page.nextCursor = if 100 * p < nodes.length then some (cursor p) else none := by
  unfold Connection.nextCursor
  rw [h.more]
  by_cases hmore : 100 * p < nodes.length
  · simp [hmore, h.linked hmore]
  · simp [hmore]

theorem take_append (h : ShowsPage cursor (p + 1) nodes page) :
    nodes.take (100 * p) ++ page.nodes = nodes.take (100 * (p + 1)) := by
  have happend : nodes.take (100 * (p + 1 - 1)) ++ Paging.page 100 (p + 1) nodes =
      nodes.take (100 * (p + 1)) := Paging.take_append_page (Nat.le_add_left 1 p) nodes
  rwa [Nat.add_sub_cancel, ← h.nodes_eq] at happend

end ShowsPage

section Pages

variable {T : Type} {signal : T → Option CheckSignal}
  {nextPage : String → PagesM (Option (Connection T))} {github : GithubCommits}
  {cursor : ℕ → String} {nodes : List T}

/-- Every answer for a page after a cursor is the next page, or a failure. -/
def AnswersPages (github : GithubCommits) (cursor : ℕ → String)
    (nextPage : String → PagesM (Option (Connection T))) (nodes : List T) : Prop :=
  ∀ p es r, (nextPage (cursor p)).Exchanges es r → (∀ e ∈ es, github.ShowsNext e) →
    es.length = 1 ∧
      ((∃ page, r = .ok (some page) ∧ ShowsPage cursor (p + 1) nodes page) ∨
        ∃ error, r = .error (.error error) ∧ ∃ e ∈ es, e.2 = .error error)

/-- **A connection is read to its end**, one request for each page, unless an
answer fails. -/
theorem exchanges_pagesFrom (hnext : AnswersPages github cursor nextPage nodes) {fuel p : ℕ}
    (hp : 1 ≤ p) {page : Connection T} (hpage : ShowsPage cursor p nodes page)
    (hfuel : nodes.length ≤ 100 * (p + fuel)) {es : List (Exchange PageEffects)}
    {r : Except Halt (List CheckSignal)}
    (h : (pagesFrom signal nextPage fuel ((nodes.take (100 * p)).filterMap signal)
      page.nextCursor).Exchanges es r) (hshows : ∀ e ∈ es, github.ShowsNext e) :
    (r = .ok (nodes.filterMap signal) ∧ es.length = (nodes.length - 1) / 100 - (p - 1)) ∨
      ∃ error, r = .error (.error error) ∧ ∃ e ∈ es, e.2 = .error error := by
  -- on the fuel, the pages up to `p` in hand
  induction fuel generalizing p page es with
  | zero =>
    have hend : ¬ 100 * p < nodes.length := by omega
    rw [hpage.nextCursor, if_neg hend, pagesFrom_none] at h
    obtain ⟨rfl, rfl⟩ := exchanges_done.1 h
    rw [List.take_of_length_le (by omega)]
    exact .inl ⟨rfl, by simp only [List.length_nil]; omega⟩
  | succ fuel ih =>
    rw [hpage.nextCursor] at h
    by_cases hmore : 100 * p < nodes.length
    · rw [if_pos hmore] at h
      rcases exchanges_bind.1 h with ⟨cause, rfl, hfail⟩ | ⟨found, first, rest, rfl, hfound, hrest⟩
      · obtain ⟨-, ⟨page, hr, -⟩ | ⟨error, hr, hfailed⟩⟩ := hnext p es _ hfail hshows
        · cases hr
        · exact .inr ⟨error, by rw [Except.error.inj hr], hfailed⟩
      · obtain ⟨hone, ⟨next, hr, hshown⟩ | ⟨error, hr, -⟩⟩ := hnext p first _ hfound
          fun e he => hshows e (List.mem_append_left _ he)
        · obtain rfl := Except.ok.inj hr
          dsimp only at hrest
          rw [← List.filterMap_append, hshown.take_append] at hrest
          rcases ih (by omega) hshown (by omega) hrest
            (fun e he => hshows e (List.mem_append_right _ he)) with
            ⟨hr, hlength⟩ | ⟨error, hr, e, he, hfailed⟩
          · refine .inl ⟨hr, ?_⟩
            rw [List.length_append, hone, hlength]
            omega
          · exact .inr ⟨error, hr, e, List.mem_append_right _ he, hfailed⟩
        · cases hr
    · rw [if_neg hmore, pagesFrom_none] at h
      obtain ⟨rfl, rfl⟩ := exchanges_done.1 h
      rw [List.take_of_length_le (by omega)]
      exact .inl ⟨rfl, by simp only [List.length_nil]; omega⟩

end Pages

section Checks

variable {github : GithubCommits} {request : SyncRequest} {content : CommitContent} {sha : String}

/-- A page of a commit is answered whole, whichever connection it is of. -/
theorem answersPages {T : Type} {cursor : ℕ → String} {query : String → PageQuery}
    {read : (after : String) → Option (query after).Payload → Option (Connection T)}
    {nodes : List T}
    (hshown : ∀ p data, github.ShowsNext ⟨query (cursor p), .ok data⟩ →
      Option.Rel (ShowsPage cursor (p + 1)) (some nodes) (read (cursor p) data.intoCommit)) :
    AnswersPages github cursor
      (fun after => (commitBySha (query after)).bind fun commit => .done (read after commit))
      nodes := by
  intro p es r h hshows
  obtain ⟨answer, rfl, rfl⟩ := exchanges_page h
  refine ⟨rfl, ?_⟩
  cases answer with
  | error error => exact .inr ⟨error, rfl, _, List.mem_cons_self, rfl⟩
  | ok data =>
    have hrel := hshown p data (hshows _ List.mem_cons_self)
    generalize hread : read (cursor p) data.intoCommit = page at hrel
    cases hrel with
    | some hpage => exact .inl ⟨_, congrArg Except.ok hread, hpage⟩

theorem answersPages_contexts {nodes : List CheckContext}
    (hcontent : github.content request.owner request.repo sha = some content)
    (hnodes : content.contexts = some nodes) :
    AnswersPages github (github.cursor request.owner request.repo sha .contexts)
      (contextsPage request sha) nodes :=
  answersPages fun p data hshows => hnodes ▸ hshows content p data hcontent rfl rfl

theorem answersPages_suites {nodes : List CheckSuite}
    (hcontent : github.content request.owner request.repo sha = some content)
    (hnodes : content.suites = some nodes) :
    AnswersPages github (github.cursor request.owner request.repo sha .suites)
      (suitesPage request sha) nodes :=
  answersPages fun p data hshows => hnodes ▸ hshows content p data hcontent rfl rfl

/-- What reading a connection to its end comes to: the signals of its nodes,
after a request for each page but the first, unless an answer fails. -/
def ReadsAll {T : Type} (signal : T → Option CheckSignal) (nodes : Option (List T))
    (es : List (Exchange PageEffects)) (r : Except Halt (List CheckSignal)) : Prop :=
  (r = .ok ((nodes.getD []).filterMap signal) ∧ es.length = pagesAfter nodes) ∨
    ∃ error, r = .error (.error error) ∧ ∃ e ∈ es, e.2 = .error error

/-- A connection is read from its first page, if the commit has it. -/
theorem readsAll_across {T : Type} {signal : T → Option CheckSignal}
    {nextPage : String → PagesM (Option (Connection T))} {cursor : ℕ → String} {nodes : List T}
    {fuel : ℕ} {page : Connection T} (hnext : AnswersPages github cursor nextPage nodes)
    (hpage : ShowsPage cursor 1 nodes page) (hfuel : nodes.length ≤ 100 * (fuel + 1))
    {es : List (Exchange PageEffects)} {r : Except Halt (List CheckSignal)}
    (h : (signalsAcrossPages signal nextPage fuel page).Exchanges es r)
    (hshows : ∀ e ∈ es, github.ShowsNext e) : ReadsAll signal (some nodes) es r := by
  have hfirst : nodes.take (100 * 1) = page.nodes := by
    rw [hpage.nodes_eq]
    exact (Paging.take_append_page (Nat.le_refl 1) nodes).symm
  unfold signalsAcrossPages at h
  rw [← hfirst] at h
  exact exchanges_pagesFrom hnext (Nat.le_refl 1) hpage (by omega) h hshows

theorem readsAll_contexts {head : HeadCommit}
    (hhead : content.Heads (github.cursor request.owner request.repo head.oid) head)
    (hcontent : github.content request.owner request.repo head.oid = some content) {fuel : ℕ}
    (hfuel : (content.contexts.getD []).length ≤ 100 * (fuel + 1))
    {es : List (Exchange PageEffects)} {r : Except Halt (List CheckSignal)}
    (h : (contextSignals fuel request head.toCommit).Exchanges es r)
    (hshows : ∀ e ∈ es, github.ShowsNext e) :
    ReadsAll checkContextSignal content.contexts es r := by
  have hrel := hhead.contexts
  unfold contextSignals at h
  generalize hnodes : content.contexts = nodes at hrel hfuel
  cases hrollup : head.statusCheckRollup with
  | none =>
    rw [hrollup] at h hrel
    cases hrel
    obtain ⟨rfl, rfl⟩ := exchanges_done.1 h
    exact .inl ⟨rfl, rfl⟩
  | some rollup =>
    rw [hrollup] at h hrel
    cases hrel with
    | some hpage =>
      exact readsAll_across (answersPages_contexts hcontent hnodes) hpage hfuel h hshows

theorem readsAll_suites {head : HeadCommit}
    (hhead : content.Heads (github.cursor request.owner request.repo head.oid) head)
    (hcontent : github.content request.owner request.repo head.oid = some content) {fuel : ℕ}
    (hfuel : (content.suites.getD []).length ≤ 100 * (fuel + 1))
    {es : List (Exchange PageEffects)} {r : Except Halt (List CheckSignal)}
    (h : (suiteSignals fuel request head.toCommit).Exchanges es r)
    (hshows : ∀ e ∈ es, github.ShowsNext e) :
    ReadsAll checkSuiteSignal content.suites es r := by
  have hrel := hhead.suites
  unfold suiteSignals at h
  generalize hnodes : content.suites = nodes at hrel hfuel
  cases hsuites : head.checkSuites with
  | none =>
    rw [hsuites] at h hrel
    cases hrel
    obtain ⟨rfl, rfl⟩ := exchanges_done.1 h
    exact .inl ⟨rfl, rfl⟩
  | some suites =>
    rw [hsuites] at h hrel
    cases hrel with
    | some hpage =>
      exact readsAll_across (answersPages_suites hcontent hnodes) hpage hfuel h hshows

/-- **The checks of a commit are read whole**: the signals of all of them. -/
theorem exchanges_checkSignals_whole {head : HeadCommit}
    (hhead : content.Heads (github.cursor request.owner request.repo head.oid) head)
    (hcontent : github.content request.owner request.repo head.oid = some content) {fuel : ℕ}
    (hcontexts : (content.contexts.getD []).length ≤ 100 * (fuel + 1))
    (hsuites : (content.suites.getD []).length ≤ 100 * (fuel + 1))
    {es : List (Exchange PageEffects)} {r : Except Halt (List CheckSignal)}
    (h : (checkSignals fuel request head.toCommit).Exchanges es r)
    (hshows : ∀ e ∈ es, github.ShowsNext e) :
    (r = .ok content.signals ∧
        es.length = pagesAfter content.contexts + pagesAfter content.suites) ∨
      ∃ error, r = .error (.error error) ∧ ∃ e ∈ es, e.2 = .error error := by
  rcases exchanges_bind.1 h with ⟨cause, rfl, hfail⟩ | ⟨contexts, first, rest, rfl, hfirst, hrest⟩
  · rcases readsAll_contexts hhead hcontent hcontexts hfail hshows with
      ⟨hr, -⟩ | ⟨error, hr, hfailed⟩
    · cases hr
    · exact .inr ⟨error, hr, hfailed⟩
  · rcases readsAll_contexts hhead hcontent hcontexts hfirst
      (fun e he => hshows e (List.mem_append_left _ he)) with ⟨hr, hlength⟩ | ⟨error, hr, -⟩
    · obtain rfl := Except.ok.inj hr
      have hlast : ∀ e ∈ rest, github.ShowsNext e :=
        fun e he => hshows e (List.mem_append_right _ he)
      rcases exchanges_bind.1 hrest with ⟨cause, rfl, hfail⟩ | ⟨suites, second, last, rfl, hsecond, hend⟩
      · rcases readsAll_suites hhead hcontent hsuites hfail hlast with
          ⟨hr, -⟩ | ⟨error, hr, e, he, hfailed⟩
        · cases hr
        · exact .inr ⟨error, hr, e, List.mem_append_right _ he, hfailed⟩
      · obtain ⟨rfl, rfl⟩ := exchanges_done.1 hend
        rcases readsAll_suites hhead hcontent hsuites hsecond
          (fun e he => hlast e (List.mem_append_left _ he)) with ⟨hr, hmore⟩ | ⟨error, hr, -⟩
        · obtain rfl := Except.ok.inj hr
          refine .inl ⟨rfl, ?_⟩
          rw [List.length_append, List.length_append, hlength, hmore, List.length_nil, Nat.add_zero]
        · cases hr
    · cases hr

end Checks

/-! ## The read -/

/-- An error is an answer's, or says what the answers lack. -/
def Faulted (es : List (Exchange FetchEffects)) (error : GithubError) : Prop :=
  (∃ e ∈ es, FailsWith error e) ∨ ∃ cause, error = .protocol cause

/-- The requests it takes to read the head after the pull request: for the
commit, where it is not the one listed last, and for the pages of its checks. -/
def headRequests (pull : FetchedPull) (content : CommitContent) : ℕ :=
  (if pull.lastListedCommit.any (fun listed => listed.oid = pull.headRefOid) then 0 else 1) +
    (pagesAfter content.contexts + pagesAfter content.suites)

/-- **The record is of the commit at the head** the pull request was answered
with, its status the worst of all the commit's checks. -/
structure HeadRecord (readers : SnapshotReaders) (request : SyncRequest) (pull : FetchedPull)
    (content : CommitContent) (record : PrRecord) : Prop where
  projected : ∃ head syncedAt, head.oid = pull.headRefOid ∧ head.message = content.message ∧
    projectSnapshot readers request pull.toPullRequestNode head content.signals syncedAt =
      .ok record
  headSha : record.headSha = pull.headRefOid
  checkStatus : record.checkStatus = content.signals.toFinset.sup CheckSignal.status

section Read

variable {github : GithubCommits} {readers : SnapshotReaders} {request : SyncRequest}
  {pull : FetchedPull} {fuel : ℕ} {es : List (Exchange FetchEffects)}

theorem Faulted.mono {es' : List (Exchange FetchEffects)} {error : GithubError}
    (h : Faulted es error) (hsub : es ⊆ es') : Faulted es' error := by
  rcases h with ⟨e, he, hfails⟩ | hcause
  · exact .inl ⟨e, hsub he, hfails⟩
  · exact .inr hcause

/-- **The pull request is asked for once.** -/
theorem exchanges_fetchPullRequestNode {r : Except Halt FetchedPull}
    (h : (fetchPullRequestNode request).Exchanges es r) :
    ∃ reply, es = [⟨.snapshot request.owner request.repo request.number, reply⟩] ∧
      ((∃ pull, r = .ok pull ∧ GithubCommits.pulled reply = some pull) ∨
        ∃ error, r = .error (.error error) ∧ Faulted es error) := by
  obtain ⟨reply, rest, rfl, hrest⟩ := exchanges_ask.1 h
  refine ⟨reply, ?_⟩
  cases hreply : graphqlQuery reply with
  | error error =>
    rw [hreply] at hrest
    obtain ⟨rfl, rfl⟩ := exchanges_fail.1 hrest
    exact ⟨rfl, .inr ⟨error, rfl, .inl ⟨_, List.mem_cons_self, hreply⟩⟩⟩
  | ok data =>
    rw [hreply] at hrest
    have hpulled : GithubCommits.pulled reply = data.repository.bind SnapshotRepository.pullRequest := by
      simp [GithubCommits.pulled, hreply, Except.toOption]
    simp only [FetchM.ofExcept, bind_eq, done_bind] at hrest
    cases hfound : data.repository.bind SnapshotRepository.pullRequest with
    | none =>
      rw [hfound] at hrest
      obtain ⟨rfl, rfl⟩ := exchanges_fail.1 hrest
      exact ⟨rfl, .inr ⟨_, rfl, .inr ⟨_, rfl⟩⟩⟩
    | some pull =>
      rw [hfound] at hrest hpulled
      obtain ⟨rfl, rfl⟩ := exchanges_done.1 hrest
      exact ⟨rfl, .inl ⟨pull, rfl, hpulled⟩⟩

/-- A commit read by its SHA is GitHub's. -/
theorem exchanges_headBySha {sha : String} {r : Except Halt HeadCommit}
    (h : (headBySha request sha).Exchanges es r) (hshows : ∀ e ∈ es, github.Shows e) :
    (∃ head, r = .ok head ∧ github.ShowsHead request.owner request.repo sha head ∧
        es.length = 1) ∨
      ∃ error, r = .error (.error error) ∧ Faulted es error := by
  obtain ⟨reply, rest, rfl, hrest⟩ := exchanges_ask.1 h
  cases hreply : graphqlQuery reply with
  | error error =>
    rw [hreply] at hrest
    obtain ⟨rfl, rfl⟩ := exchanges_fail.1 hrest
    exact .inr ⟨error, rfl, .inl ⟨_, List.mem_cons_self, hreply⟩⟩
  | ok data =>
    rw [hreply] at hrest
    simp only [FetchM.ofExcept, bind_eq, done_bind] at hrest
    cases hfound : data.intoCommit with
    | none =>
      rw [hfound] at hrest
      obtain ⟨rfl, rfl⟩ := exchanges_fail.1 hrest
      exact .inr ⟨_, rfl, .inr ⟨_, rfl⟩⟩
    | some head =>
      rw [hfound] at hrest
      obtain ⟨rfl, rfl⟩ := exchanges_done.1 hrest
      exact .inl ⟨head, rfl, hshows _ List.mem_cons_self data head hreply hfound, rfl⟩

/-- **The head is the commit at the SHA**, listed or read. -/
theorem exchanges_fetchHeadCommit {r : Except Halt HeadCommit}
    (hlisted : ∀ head, pull.lastListedCommit = some head →
      github.ShowsHead request.owner request.repo head.oid head)
    (h : (fetchHeadCommit request pull).Exchanges es r) (hshows : ∀ e ∈ es, github.Shows e) :
    (∃ head, r = .ok head ∧
        github.ShowsHead request.owner request.repo pull.headRefOid head ∧ es.length =
          if pull.lastListedCommit.any (fun listed => listed.oid = pull.headRefOid) then 0
          else 1) ∨
      ∃ error, r = .error (.error error) ∧ Faulted es error := by
  unfold fetchHeadCommit at h
  cases hlast : pull.lastListedCommit with
  | none =>
    rw [hlast] at h
    simpa using exchanges_headBySha h hshows
  | some listed =>
    rw [hlast] at h
    dsimp only at h
    by_cases hhead : listed.oid = pull.headRefOid
    · rw [if_pos hhead] at h
      obtain ⟨rfl, rfl⟩ := exchanges_done.1 h
      exact .inl ⟨listed, rfl, hhead ▸ hlisted listed hlast, by simp [hhead]⟩
    · rw [if_neg hhead] at h
      simpa [hhead] using exchanges_headBySha h hshows

/-- **Its checks are read whole**, over the requests of a read. -/
theorem exchanges_checks {content : CommitContent} {head : HeadCommit}
    (hhead : content.Heads (github.cursor request.owner request.repo head.oid) head)
    (hcontent : github.content request.owner request.repo head.oid = some content)
    (hcontexts : (content.contexts.getD []).length ≤ 100 * (fuel + 1))
    (hsuites : (content.suites.getD []).length ≤ 100 * (fuel + 1))
    {r : Except Halt (List CheckSignal)}
    (h : ((checkSignals fuel request head.toCommit).translate pageReading).Exchanges es r)
    (hshows : ∀ e ∈ es, github.Shows e) :
    (r = .ok content.signals ∧
        es.length = pagesAfter content.contexts + pagesAfter content.suites) ∨
      ∃ error, r = .error (.error error) ∧ Faulted es error := by
  obtain ⟨pages, hpages, hseen⟩ := (exchanges_translate pageReading).1 h
  have hnext : ∀ e ∈ pages, github.ShowsNext e := by
    intro e he
    obtain ⟨e', he', query, reply, rfl, rfl⟩ := SeenAs.of_mem hseen he
    exact hshows _ he'
  rcases exchanges_checkSignals_whole hhead hcontent hcontexts hsuites hpages hnext with
    ⟨hr, hlength⟩ | ⟨error, hr, e, he, hfailed⟩
  · exact .inl ⟨hr, hseen.length_eq ▸ hlength⟩
  · obtain ⟨e', he', query, reply, rfl, rfl⟩ := SeenAs.of_mem hseen he
    exact .inr ⟨error, hr, .inl ⟨_, he', hfailed⟩⟩

/-- What is projected is a record of the head. -/
theorem HeadRecord.of_projected {content : CommitContent} {head : HeadCommit} {syncedAt : ℕ}
    {record : PrRecord} (hoid : head.oid = pull.headRefOid)
    (hmessage : head.message = content.message)
    (h : projectSnapshot readers request pull.toPullRequestNode head content.signals syncedAt =
      .ok record) : HeadRecord readers request pull content record where
  projected := ⟨head, syncedAt, hoid, hmessage, h⟩
  headSha := by
    obtain ⟨createdAt, -, h⟩ := Except.bind_ok h
    obtain ⟨updatedAt, -, h⟩ := Except.bind_ok h
    rw [← Except.ok.inj h, ← hoid]
  checkStatus := by
    obtain ⟨createdAt, -, h⟩ := Except.bind_ok h
    obtain ⟨updatedAt, -, h⟩ := Except.bind_ok h
    rw [← Except.ok.inj h, ← rollupChecks_eq_sup]

/-- Only a timestamp keeps a record from being projected. -/
theorem faulted_projectSnapshot {head : HeadCommit} {signals : List CheckSignal} {syncedAt : ℕ}
    {error : GithubError}
    (h : projectSnapshot readers request pull.toPullRequestNode head signals syncedAt =
      .error error) : Faulted es error := by
  have hparse {value : String} (hvalue : parseTimestamp readers value = .error error) :
      Faulted es error := by
    unfold parseTimestamp at hvalue
    split at hvalue
    · exact .inr ⟨_, (Except.error.inj hvalue).symm⟩
    · split at hvalue
      · cases hvalue
      · exact .inr ⟨_, (Except.error.inj hvalue).symm⟩
  rcases projectSnapshot_error h with hcreated | hupdated
  · exact hparse hcreated
  · exact hparse hupdated

/-- **What is projected is a record of the head**, once the clock is read. -/
theorem exchanges_projected {content : CommitContent} {head : HeadCommit}
    (hoid : head.oid = pull.headRefOid) (hmessage : head.message = content.message)
    {r : Except Halt (Option PrRecord)}
    (h : (Prog.ask (S := FetchEffects) .unixSeconds fun now =>
      (FetchM.ofExcept (projectSnapshot readers request pull.toPullRequestNode head
        content.signals now)).bind fun record => .done (some record)).Exchanges es r) :
    (∃ record, r = .ok (some record) ∧ HeadRecord readers request pull content record ∧
        es.length = 1) ∨
      ∃ error, r = .error (.error error) ∧ Faulted es error := by
  obtain ⟨syncedAt, rest, rfl, hrest⟩ := exchanges_ask.1 h
  cases hprojected : projectSnapshot readers request pull.toPullRequestNode head content.signals
    syncedAt with
  | error error =>
    simp only [hprojected] at hrest
    obtain ⟨rfl, rfl⟩ := exchanges_fail.1 hrest
    exact .inr ⟨error, rfl, faulted_projectSnapshot hprojected⟩
  | ok record =>
    simp only [hprojected] at hrest
    obtain ⟨rfl, rfl⟩ := exchanges_done.1 hrest
    exact .inl ⟨record, rfl, .of_projected hoid hmessage hprojected, rfl⟩

/-- The checks of a head, and its record. -/
theorem exchanges_record {content : CommitContent} {head : HeadCommit}
    (hoid : head.oid = pull.headRefOid)
    (hheads : content.Heads (github.cursor request.owner request.repo head.oid) head)
    (hcontent : github.content request.owner request.repo head.oid = some content)
    (hcontexts : (content.contexts.getD []).length ≤ 100 * (fuel + 1))
    (hsuites : (content.suites.getD []).length ≤ 100 * (fuel + 1))
    {r : Except Halt (Option PrRecord)}
    (h : (((checkSignals fuel request head.toCommit).translate pageReading).bind fun signals =>
      Prog.ask (S := FetchEffects) .unixSeconds fun now =>
        (FetchM.ofExcept (projectSnapshot readers request pull.toPullRequestNode head
          signals now)).bind fun record => .done (some record)).Exchanges es r)
    (hshows : ∀ e ∈ es, github.Shows e) :
    (∃ record, r = .ok (some record) ∧ HeadRecord readers request pull content record ∧
        es.length = pagesAfter content.contexts + pagesAfter content.suites + 1) ∨
      ∃ error, r = .error (.error error) ∧ Faulted es error := by
  rcases exchanges_bind.1 h with ⟨cause, rfl, hfail⟩ | ⟨signals, pages, rest, rfl, hpages, hrest⟩
  · rcases exchanges_checks hheads hcontent hcontexts hsuites hfail hshows with
      ⟨hr, -⟩ | ⟨error, hr, hfault⟩
    · cases hr
    · exact .inr ⟨error, congrArg Except.error (Except.error.inj hr), hfault⟩
  · rcases exchanges_checks hheads hcontent hcontexts hsuites hpages
      (fun e he => hshows e (List.mem_append_left _ he)) with ⟨hr, hlength⟩ | ⟨error, hr, -⟩
    · obtain rfl := Except.ok.inj hr
      rcases exchanges_projected hoid hheads.message hrest with
        ⟨record, hr, hrecord, hone⟩ | ⟨error, hr, hfault⟩
      · exact .inl ⟨record, hr, hrecord, by rw [List.length_append, hlength, hone]⟩
      · exact .inr ⟨error, hr, hfault.mono (List.subset_append_right _ _)⟩
    · cases hr

/-- What is projected is of the pull request asked for. -/
theorem snapshotOf_projectSnapshot {head : HeadCommit} {signals : List CheckSignal} {syncedAt : ℕ}
    {record : PrRecord}
    (h : projectSnapshot readers request pull.toPullRequestNode head signals syncedAt =
      .ok record) : SnapshotOf request record := by
  refine ⟨?_, (projectSnapshot_projected h).id⟩
  obtain ⟨createdAt, -, h⟩ := Except.bind_ok h
  obtain ⟨updatedAt, -, h⟩ := Except.bind_ok h
  rw [← Except.ok.inj h]
  rfl

/-- **A read is of the pull request asked for**, whatever GitHub answers and
however much it leaves out: what the object's handlers are answered with. -/
theorem snapshotOf_fetchSnapshot {record : PrRecord}
    (h : (GithubClient.fetchSnapshot readers fuel request).Exchanges es (.ok (some record))) :
    SnapshotOf request record := by
  rcases exchanges_bind.1 h with ⟨cause, hr, -⟩ | ⟨pull, _, rest, rfl, -, hrest⟩
  · cases hr
  cases hopen : pull.isOpenDependabotPull with
  | false =>
    simp only [hopen, Bool.not_false, if_true] at hrest
    obtain ⟨-, hr⟩ := exchanges_done.1 hrest
    cases hr
  | true =>
    simp only [hopen, Bool.not_true, Bool.false_eq_true, if_false] at hrest
    rcases exchanges_bind.1 hrest with ⟨cause, hr, -⟩ | ⟨head, _, after, rfl, -, hafter⟩
    · cases hr
    rcases exchanges_bind.1 hafter with ⟨cause, hr, -⟩ | ⟨signals, _, last, rfl, -, hlast⟩
    · cases hr
    obtain ⟨syncedAt, _, rfl, hend⟩ := exchanges_ask.1 hlast
    cases hprojected : projectSnapshot readers request pull.toPullRequestNode head signals
      syncedAt with
    | error error =>
      simp only [hprojected] at hend
      obtain ⟨-, hr⟩ := exchanges_fail.1 hend
      cases hr
    | ok found =>
      simp only [hprojected] at hend
      obtain ⟨-, hr⟩ := exchanges_done.1 hend
      obtain rfl := Option.some.inj (Except.ok.inj hr)
      exact snapshotOf_projectSnapshot hprojected

end Read

/-! ### A head that is not listed last, with two pages of each connection -/

/-- A commit whose last context is its one failure. -/
def sampleHeadContent : CommitContent :=
  ⟨"Bump a", some (List.replicate 100 (.statusContext "SUCCESS") ++ [.statusContext "FAILURE"]),
    some (List.replicate 101 ⟨some "COMPLETED", some "SUCCESS"⟩)⟩

/-- What the listing still shows: the commit before the push, with
no checks. -/
def sampleListedContent : CommitContent := ⟨"Bump b", none, none⟩

/-- Where the pages of each connection end. -/
def sampleCursor : CheckConnection → ℕ → String
  | .contexts, p => String.ofList (List.replicate p '+')
  | .suites, p => String.ofList (List.replicate p '-')

/-- The head, and the commit that was listed last before it was pushed. -/
def sampleGithub : GithubCommits where
  content _ _ sha :=
    if sha = "head" then some sampleHeadContent
    else if sha = "listed" then some sampleListedContent
    else none
  cursor _ _ _ := sampleCursor

/-- Page `p` of a connection. -/
def sampleConnection {T : Type} (connection : CheckConnection) (nodes : List T) (p : ℕ) :
    Connection T :=
  ⟨⟨decide (100 * p < nodes.length), some (sampleCursor connection p)⟩, Paging.page 100 p nodes⟩

/-- The head's contexts end on the second page, where the failure is. -/
def sampleContextsPage : ℕ → Connection CheckContext :=
  sampleConnection .contexts (sampleHeadContent.contexts.getD [])

/-- The head's suites go on to a second page as well, under cursors of their
own. -/
def sampleSuitesPage : ℕ → Connection CheckSuite :=
  sampleConnection .suites (sampleHeadContent.suites.getD [])

/-- The head as it is read, the first page of each connection with it. -/
def sampleReadHead : HeadCommit :=
  ⟨⟨"head", some ⟨sampleContextsPage 1⟩, some (sampleSuitesPage 1)⟩, "Bump a"⟩

/-- The commit the pull request's own answer lists last. -/
def sampleListedHead : HeadCommit := ⟨⟨"listed", none, none⟩, "Bump b"⟩

/-- The pull request, its head pushed past the commit listed with it. -/
def sampleFetchedPull : FetchedPull :=
  ⟨⟨"Bump a", "https://github.com/acme/api/pull/1", "", "", none, none⟩, "OPEN",
    some ⟨"Bot", "dependabot"⟩, "head", ⟨⟨false, none⟩, [⟨sampleListedHead⟩]⟩⟩

/-- An answer with data, no error and no word of the rate limit. -/
def sampleReply {T : Type} (data : T) : GraphqlReply T :=
  .answered ⟨none, none, none⟩ ⟨some data, []⟩

/-- GitHub's answers for the two commits, each cursor read back as the page it
ended. -/
def sampleFetchAnswer : (call : FetchCall) → call.Answer
  | .snapshot _ _ _ => sampleReply ⟨some ⟨some sampleFetchedPull⟩⟩
  | .headCommit _ _ sha => sampleReply ⟨some ⟨
      if sha = "head" then some sampleReadHead
      else if sha = "listed" then some sampleListedHead
      else none⟩⟩
  | .page (.checkContexts _ _ sha after) => sampleReply ⟨some ⟨some ⟨
      if sha = "head" then some ⟨sampleContextsPage (after.length + 1)⟩ else none⟩⟩⟩
  | .page (.checkSuites _ _ sha after) => sampleReply ⟨some ⟨some ⟨
      if sha = "head" then some (sampleSuitesPage (after.length + 1)) else none⟩⟩⟩
  | .unixSeconds => 1700000000

/-- Readers that read no block and date everything alike; the checks are asked
of neither. -/
def sampleFetchReaders : SnapshotReaders :=
  ⟨⟨fun _ => none, fun _ => none, fun _ => none⟩, fun _ => .ok 0⟩

/-- The read of the pull request, with everything it asked. -/
def sampleFetch : List (Exchange FetchEffects) × Except Halt (Option PrRecord) :=
  (GithubClient.fetchSnapshot sampleFetchReaders 1 ⟨1, "acme", "api", 1, false, none⟩).answered
    sampleFetchAnswer

theorem sampleGithub_content {owner repo sha : String} {content : CommitContent}
    (h : sampleGithub.content owner repo sha = some content) :
    (sha = "head" ∧ content = sampleHeadContent) ∨
      (sha ≠ "head" ∧ content = sampleListedContent) := by
  simp only [sampleGithub] at h
  grind

theorem showsPage_sample {T : Type} (connection : CheckConnection) (nodes : List T) (p : ℕ) :
    ShowsPage (sampleCursor connection) p nodes (sampleConnection connection nodes p) :=
  ⟨rfl, rfl, fun _ => rfl⟩

theorem length_sampleCursor (connection : CheckConnection) (p : ℕ) :
    (sampleCursor connection p).length = p := by
  cases connection <;> simp [sampleCursor]

theorem shows_sampleListed (owner repo : String) :
    sampleGithub.ShowsHead owner repo "listed" sampleListedHead :=
  ⟨rfl, sampleListedContent, by simp [sampleGithub], rfl, .none, .none⟩

theorem shows_sampleHead (owner repo : String) :
    sampleGithub.ShowsHead owner repo "head" sampleReadHead :=
  ⟨rfl, sampleHeadContent, by simp [sampleGithub], rfl, .some (showsPage_sample .contexts _ 1),
    .some (showsPage_sample .suites _ 1)⟩

/-- What the sample answers is what its commits are. -/
theorem shows_sampleFetchAnswer (call : FetchCall) :
    sampleGithub.Shows ⟨call, sampleFetchAnswer call⟩ := by
  cases call with
  | snapshot owner repo number =>
    intro pull head hpull hhead
    obtain rfl := Option.some.inj hpull
    obtain rfl := Option.some.inj hhead
    exact shows_sampleListed owner repo
  | headCommit owner repo sha =>
    intro data head hdata hhead
    obtain rfl := Except.ok.inj hdata
    simp only [CommitData.intoCommit, Option.bind_some] at hhead
    split at hhead
    · obtain rfl := Option.some.inj hhead
      rename_i hsha
      exact hsha ▸ shows_sampleHead owner repo
    · split at hhead
      · obtain rfl := Option.some.inj hhead
        rename_i hsha
        exact hsha ▸ shows_sampleListed owner repo
      · cases hhead
  | page query =>
    cases query with
    | checkContexts owner repo sha after =>
      intro content p data hcontent hafter hdata
      obtain rfl := Except.ok.inj hdata
      have hlength : after.length = p := hafter ▸ length_sampleCursor .contexts p
      rcases sampleGithub_content hcontent with ⟨hsha, rfl⟩ | ⟨hsha, rfl⟩
      · simpa [hsha, hlength, CommitData.intoCommit] using
          .some (showsPage_sample .contexts _ (p + 1))
      · simpa [hsha, CommitData.intoCommit] using .none
    | checkSuites owner repo sha after =>
      intro content p data hcontent hafter hdata
      obtain rfl := Except.ok.inj hdata
      have hlength : after.length = p := hafter ▸ length_sampleCursor .suites p
      rcases sampleGithub_content hcontent with ⟨hsha, rfl⟩ | ⟨hsha, rfl⟩
      · simpa [hsha, hlength, CommitData.intoCommit] using
          .some (showsPage_sample .suites _ (p + 1))
      · simpa [hsha, CommitData.intoCommit] using .none
  | unixSeconds => trivial

end Dependaboard
