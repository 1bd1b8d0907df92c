import Dependaboard.Core.Text
import Dependaboard.Github.Wire
/-!
# GitHub — the checks of a head commit

A commit comes with the first page of its check contexts and the first of
its check suites; the pages after them are asked for by the cursor each page
ends on, and every node gives at most one signal. The status of the commit is
rolled up from the signals.
-/

namespace Dependaboard

open Durable

/-! ## The wire -/

/-- Whether a connection goes on, and from where. GitHub may give an end
without a next page, so neither field stands for the other. -/
structure PageInfo where
  hasNextPage : Bool
  endCursor : Option String
  deriving DecidableEq, Repr

/-- One page of a connection. -/
structure Connection (T : Type) where
  pageInfo : PageInfo
  nodes : List T
  deriving DecidableEq, Repr

/-- The cursor to continue from, when there is another page. -/
def Connection.nextCursor {T : Type} (page : Connection T) : Option String :=
  if page.pageInfo.hasNextPage then page.pageInfo.endCursor else none

/-- A check run or a commit status. -/
inductive CheckContext where
  | checkRun (status conclusion : Option String)
  | statusContext (state : String)
  deriving DecidableEq, Repr

/-- One app's suite of a commit, read for the failures no run shows. -/
structure CheckSuite where
  status : Option String
  conclusion : Option String
  deriving DecidableEq, Repr

/-- The check runs and commit statuses GitHub gathers under a commit; a suite
that failed before any run of it is not among them. -/
structure StatusCheckRollup where
  contexts : Connection CheckContext
  deriving DecidableEq, Repr

/-- A head commit, as the checks are read off it. -/
structure Commit where
  oid : String
  /-- Null when the commit has neither check runs nor commit statuses. -/
  statusCheckRollup : Option StatusCheckRollup
  checkSuites : Option (Connection CheckSuite)
  deriving DecidableEq, Repr

/-- A commit as a page query of its contexts reads it. -/
structure CheckContextsPage where
  statusCheckRollup : Option StatusCheckRollup
  deriving DecidableEq, Repr

/-- A commit as a page query of its suites reads it. -/
structure CheckSuitesPage where
  checkSuites : Option (Connection CheckSuite)
  deriving DecidableEq, Repr

/-- The repository a commit is asked of; null where the SHA is no object of
it. -/
structure CommitRepository (T : Type) where
  object : Option T
  deriving DecidableEq, Repr

/-- The answer to a query of a commit by its SHA. -/
structure CommitData (T : Type) where
  repository : Option (CommitRepository T)
  deriving DecidableEq, Repr

/-- A repository or a commit GitHub no longer shows is no commit, not a
failure. -/
def CommitData.intoCommit {T : Type} (data : CommitData T) : Option T :=
  data.repository.bind CommitRepository.object

/-! ## Signals -/

/-- What one check says of its commit. A check in a state not known of says
nothing. -/
inductive CheckSignal where
  | pass
  | fail
  | pending
  deriving DecidableEq, Repr

/-- The rollup of the signals left, of what was seen before them. -/
def rollupFrom (sawPass sawPending : Bool) : List CheckSignal → CheckStatus
  | [] => if sawPending then .pending else if sawPass then .success else .none
  | .fail :: _ => .failure
  | .pending :: rest => rollupFrom sawPass true rest
  | .pass :: rest => rollupFrom true sawPending rest

/-- A failure decides; then anything unfinished; then a pass. No signal at all
is `none`, which is not a success. -/
def rollupChecks (signals : List CheckSignal) : CheckStatus := rollupFrom false false signals

/-- What a check run or a suite contributes: its conclusion answers on its
own, its status where there is none. -/
def checkSignal (status conclusion : Option String) : Option CheckSignal :=
  match conclusion with
  | some conclusion =>
    if conclusion ∈ ["success", "neutral", "skipped"] then some .pass
    else if conclusion ∈ ["failure", "timed_out", "action_required", "cancelled", "stale",
      "startup_failure"] then some .fail
    else none
  | none =>
    match status with
    | some status =>
      if status ∈ ["queued", "in_progress", "waiting", "pending", "requested", "expected"] then
        some .pending
      else none
    | none => none

/-- What a commit status contributes; `expected` is a required context that
has not reported yet. -/
def statusSignal (state : String) : Option CheckSignal :=
  if state = "success" then some .pass
  else if state ∈ ["failure", "error"] then some .fail
  else if state ∈ ["pending", "expected"] then some .pending
  else none

/-- What a context contributes, a check run by its conclusion first, a status
by its state. -/
def checkContextSignal : CheckContext → Option CheckSignal
  | .checkRun status conclusion =>
    checkSignal (status.map asciiLowercase) (conclusion.map asciiLowercase)
  | .statusContext state => statusSignal (asciiLowercase state)

/-- What a suite contributes: only failures. -/
def checkSuiteSignal (suite : CheckSuite) : Option CheckSignal :=
  (checkSignal (suite.status.map asciiLowercase) (suite.conclusion.map asciiLowercase)).filter
    fun signal => signal = .fail

/-! ## Pages -/

/-- A query of one page, of a commit of a repository. -/
inductive PageQuery where
  | checkContexts (owner repo sha after : String)
  | checkSuites (owner repo sha after : String)
  deriving DecidableEq, Repr

/-- What an answer holds. -/
@[reducible] def PageQuery.Payload : PageQuery → Type
  | checkContexts _ _ _ _ => CheckContextsPage
  | checkSuites _ _ _ _ => CheckSuitesPage

/-- The pages of a commit, as the client reads them. -/
@[reducible] def PageEffects : Signature :=
  ⟨PageQuery, fun query => Except GithubError (CommitData query.Payload)⟩

/-- A read of pages. -/
abbrev PagesM (α : Type) : Type := Prog PageEffects Halt α

/-- The commit a query answers with. -/
def commitBySha (query : PageQuery) : PagesM (Option query.Payload) :=
  Prog.ask (S := PageEffects) query fun
    | .error cause => .fail (.error cause)
    | .ok data => .done data.intoCommit

section Pages

variable {T : Type} (signal : T → Option CheckSignal)
  (nextPage : String → PagesM (Option (Connection T)))

/-- Read on from a cursor, the signals so far in hand. -/
def pagesFrom : (fuel : ℕ) → List CheckSignal → Option String → PagesM (List CheckSignal)
  | _, signals, none => .done signals
  | 0, _, some _ => .fail .outOfFuel
  | fuel + 1, signals, some after => do
    match ← nextPage after with
    | some page => pagesFrom fuel (signals ++ page.nodes.filterMap signal) page.nextCursor
    | none => pagesFrom fuel signals none

/-- What `signal` makes of the nodes of a connection, from its first page
on. -/
def signalsAcrossPages (fuel : ℕ) (first : Connection T) : PagesM (List CheckSignal) :=
  pagesFrom signal nextPage fuel (first.nodes.filterMap signal) first.nextCursor

end Pages

/-- The page of contexts after a cursor. -/
def contextsPage (request : SyncRequest) (sha after : String) :
    PagesM (Option (Connection CheckContext)) := do
  let commit ← commitBySha (.checkContexts request.owner request.repo sha after)
  return (commit.bind CheckContextsPage.statusCheckRollup).map StatusCheckRollup.contexts

/-- The page of suites after a cursor. -/
def suitesPage (request : SyncRequest) (sha after : String) :
    PagesM (Option (Connection CheckSuite)) := do
  let commit ← commitBySha (.checkSuites request.owner request.repo sha after)
  return commit.bind CheckSuitesPage.checkSuites

/-- The signals of a commit's contexts. -/
def contextSignals (fuel : ℕ) (request : SyncRequest) (commit : Commit) :
    PagesM (List CheckSignal) :=
  match commit.statusCheckRollup with
  | some rollup => signalsAcrossPages checkContextSignal (contextsPage request commit.oid) fuel
      rollup.contexts
  | none => .done []

/-- The signals of a commit's suites. -/
def suiteSignals (fuel : ℕ) (request : SyncRequest) (commit : Commit) :
    PagesM (List CheckSignal) :=
  match commit.checkSuites with
  | some suites => signalsAcrossPages checkSuiteSignal (suitesPage request commit.oid) fuel suites
  | none => .done []

/-- The signals of a commit's checks, every page of them followed. -/
def checkSignals (fuel : ℕ) (request : SyncRequest) (commit : Commit) :
    PagesM (List CheckSignal) := do
  let contexts ← contextSignals fuel request commit
  let suites ← suiteSignals fuel request commit
  return contexts ++ suites

end Dependaboard
