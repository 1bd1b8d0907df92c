import Dependaboard.Ui.UrlState
/-!
# Ui — the address and the dashboard in step

The dashboard opens on the state its address names. From then on one effect
has it follow the browser, which runs where the browser has moved on its own,
and one has the browser follow it, which runs where what it reads was
written. `Settles` runs them until neither is due, and `Run` is the dashboard
from its opening on.
-/

namespace Dependaboard

namespace Ui

/-- The pull request a drawer is on. -/
inductive OpenPr where
  /-- Its row is being read. -/
  | loading (key : PrKey)
  | loaded (row : PrRecord)
  /-- It is no longer open. -/
  | gone (row : PrRecord)
  deriving DecidableEq, Repr

namespace OpenPr

/-- The pull request a drawer is on, however much of it has been read. -/
def key : OpenPr → PrKey
  | loading key => key
  | loaded row => row.key
  | gone row => row.key

/-- Only the key is known yet, and it may still turn out to be no pull
request. -/
def isLoading : OpenPr → Bool
  | loading _ => true
  | _ => false

end OpenPr

/-! ## The history -/

/-- The browser's history, what is behind the current entry nearest first. -/
structure History where
  past : List String
  current : String
  future : List String
  deriving DecidableEq, Repr

namespace History

/-- The entries, oldest first. -/
def entries (history : History) : List String :=
  history.past.reverse ++ history.current :: history.future

/-- An entry of its own, which those ahead make way for. -/
def push (history : History) (route : String) : History :=
  ⟨history.current :: history.past, route, []⟩

/-- The current entry rewritten in place: back still leads where it led. -/
def replace (history : History) (route : String) : History := { history with current := route }

/-- **A move the browser makes on its own.** -/
inductive Browses (history : History) : History → Prop where
  /-- Back or forward, to any entry. -/
  | go {landed : History} (hentries : landed.entries = history.entries) : Browses history landed
  /-- An address edited by hand. -/
  | edit (route : String) : Browses history (history.push route)

end History

/-! ## The dashboard -/

/-- The dashboard, as the two effects find it. -/
structure Synced where
  filter : PrFilter
  cursor : Option String
  detail : Option OpenPr
  /-- The batch followed, by its id alone. -/
  followed : Option String
  history : History
  /-- The batch of an address has been taken up. -/
  opened : Bool
  /-- The open pull request was still being read the last time round. -/
  wasLoading : Bool
  /-- The effect that follows the browser is due. -/
  browserMoved : Bool
  /-- The effect the browser follows by is due. -/
  changed : Bool
  /-- The batches taken up from an address, in order. -/
  adopted : List String
  deriving DecidableEq, Repr

namespace Synced

/-- What the address carries of it. -/
def state (s : Synced) : UrlState := ⟨s.filter, s.cursor, s.detail.map OpenPr.key, s.followed⟩

/-- The open row is still being read. A key that leaves the address from there
was never opened, and its entry is replaced. -/
def loading (s : Synced) : Bool := s.detail.any OpenPr.isLoading

/-- Write the filter and the page, where they differ. -/
def navigate (s : Synced) (filter : PrFilter) (cursor : Option String) : Synced :=
  let s := if s.filter ≠ filter then { s with filter := filter, changed := true } else s
  if s.cursor ≠ cursor then { s with cursor := cursor, changed := true } else s

/-- A signal written is a signal changed, for the effects, whatever it held
before. -/
def setDetail (s : Synced) (detail : Option OpenPr) : Synced :=
  { s with detail := detail, changed := true }

/-- Follow another batch, or none. The effects hear of it where the id
differs. -/
def setFollowed (s : Synced) (followed : Option String) : Synced :=
  { s with followed := followed, changed := s.changed || decide (s.followed ≠ followed) }

/-- Follow `batch`, unless it is followed. -/
def attachBatch (s : Synced) (batch : String) : Synced :=
  if s.followed = some batch then s else s.setFollowed (some batch)

/-- Take up the batch an address names. -/
def onbatch (s : Synced) (batch : String) : Synced :=
  { s.attachBatch batch with adopted := s.adopted ++ [batch] }

section

variable (readers : Readers)

/-- **The dashboard follows the browser.** -/
def followBrowser (s : Synced) : Synced :=
  let next := UrlState.fromRoute readers s.history.current
  -- Only what differs is written, and only what is written is heard of.
  let s := { s with browserMoved := false }.navigate next.filter next.cursor
  let s := if s.detail.map OpenPr.key ≠ next.pr then s.setDetail (next.pr.map .loading) else s
  match next.batch with
  -- An address without a batch does not set the latch.
  | none => s
  | some batch => if s.opened then s else { s with opened := true }.onbatch batch

/-- **The browser follows the dashboard.** -/
def leadBrowser (s : Synced) : HistoryMove × Synced :=
  let next := s.state
  let gaveUp := s.wasLoading && next.pr.isNone
  let move := next.historyMove readers s.history.current gaveUp
  -- A push or a replacement is no move of the browser's own: the other effect
  -- does not hear of it.
  let history := match move with
    | .stay => s.history
    | .replace => s.history.replace (next.toRoute readers)
    | .push => s.history.push (next.toRoute readers)
  (move, { s with history := history, wasLoading := s.loading, changed := false })

/-- **The effects run until neither is due**, with what each did to the
history. The one that follows the browser was made first, and is the first to
run where both are due. -/
inductive Settles : Synced → List HistoryMove → Synced → Prop where
  | rest {s : Synced} (hmoved : s.browserMoved = false) (hchanged : s.changed = false) :
      Settles s [] s
  | follow {s s' : Synced} {moves : List HistoryMove} (hmoved : s.browserMoved = true)
      (h : Settles (s.followBrowser readers) moves s') : Settles s moves s'
  | lead {s s' : Synced} {moves : List HistoryMove} (hmoved : s.browserMoved = false)
      (hchanged : s.changed = true) (h : Settles (s.leadBrowser readers).2 moves s') :
      Settles s ((s.leadBrowser readers).1 :: moves) s'

/-- The dashboard as it opens at an address, both effects due. -/
def openAt (history : History) : Synced :=
  let next := UrlState.fromRoute readers history.current
  { filter := next.filter
    cursor := next.cursor
    detail := next.pr.map .loading
    followed := none
    history := history
    opened := false
    wasLoading := false
    browserMoved := true
    changed := true
    adopted := [] }

end

end Synced

/-! ## Its runs -/

/-- What a control does to the dashboard. -/
inductive Change where
  /-- Another filter, which starts the pages again. -/
  | filter (filter : PrFilter)
  | loadNext (cursor : String)
  /-- A drawer opened or closed, read or given up. -/
  | detail (detail : Option OpenPr)
  /-- A batch followed, replaced or given up. -/
  | followed (followed : Option String)

/-- One step: the dashboard's own, or the browser's. -/
inductive Turn where
  | change (change : Change)
  | browse (landed : History)

namespace Synced

/-- What the user, or an answer, changes; the effects run afterwards. -/
def make (s : Synced) : Change → Synced
  | .filter filter => { s with filter := filter, cursor := none, changed := true }
  | .loadNext cursor => { s with cursor := some cursor, changed := true }
  | .detail detail => s.setDetail detail
  | .followed followed => s.setFollowed followed

/-- One turn: the browser moves on its own, and the dashboard hears of it by
an effect. -/
def take (s : Synced) : Turn → Synced
  | .change change => s.make change
  | .browse landed => { s with history := landed, browserMoved := true }

/-- The step is one that can be taken. -/
def CanTake (s : Synced) : Turn → Prop
  | .change _ => True
  | .browse landed => s.history.Browses landed

end Synced

open Synced

/-- **A run of the dashboard** from its opening, of steps `Allowed` where they
are taken, the effects settling behind each. -/
inductive Run (readers : Readers) (Allowed : Synced → Turn → Prop) (opening : History) :
    List Turn → Synced → Prop where
  | opened {moves : List HistoryMove} {s : Synced}
      (h : Settles readers (openAt readers opening) moves s) : Run readers Allowed opening [] s
  | step {turns : List Turn} {turn : Turn} {moves : List HistoryMove} {s s' : Synced}
      (hrun : Run readers Allowed opening turns s) (htake : s.CanTake turn)
      (hallowed : Allowed s turn) (h : Settles readers (s.take turn) moves s') :
      Run readers Allowed opening (turns ++ [turn]) s'

end Ui

end Dependaboard
