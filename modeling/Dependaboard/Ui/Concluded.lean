import Dependaboard.Durable.Handled
import Dependaboard.Ui.Attached
import Dependaboard.Ui.Retry
import Dependaboard.Ui.Submitted
/-!
# Ui — how a followed batch ends is said once

What a follow makes of the page: each change shown, the rows taken out of the
selection once Restate has the batch, the end said when it ends. A batch found
already over is shown and not announced; `said_once_iff` is that everything
else is said once, and that a batch listed as running is passed over in
silence exactly where the first word of it is that it is over.
-/

namespace Dependaboard

namespace Ui

open Durable Prog

/-! ## The page -/

/-- Something a followed batch has to say. -/
inductive Notice where
  /-- A batch that ran to the end with nothing to report. -/
  | success (said : String)
  | info (said : String)
  /-- Something that did not go as asked. -/
  | warning (said : String)
  /-- Something that did not happen at all. -/
  | error (said : String)
  deriving DecidableEq, Repr

/-- What following a batch asks of the server and the clock, and does to the
page around it. -/
inductive PageCall where
  | gateway (call : FollowCall)
  | announce (notice : Notice)
  /-- The batch being followed, as far as the page has been told. -/
  | following
  | follow (followed : Followed)
  | standDown
  | deselect (rows : List PrRecord)
  | reload
  | signedOut
  deriving DecidableEq, Repr

/-- What each is answered in. -/
@[reducible] def PageCall.Answer : PageCall → Type
  | gateway call => call.Answer
  | following => Option Followed
  | _ => Unit

/-- The interface of a follow on a page. -/
@[reducible] def PageEffects : Signature := ⟨PageCall, PageCall.Answer⟩

/-- A follow on a page. -/
abbrev PageM (α : Type) : Type := Prog PageEffects Unfinished α

/-- A call of it and its answer. -/
abbrev PageExchange : Type := Exchange PageEffects

/-! ## What is said -/

/-- Why a target is left out, in the user's words. -/
def LeftOutReason.said : LeftOutReason → String
  | noLongerOpen => "is no longer open"
  | wouldBeRejectedAgain reason => "would be rejected again (" ++ toString reason ++ ")"
  | couldNotRefresh error => "could not be refreshed (" ++ error ++ ")"

/-- A target as the notice names it, its reason behind it. -/
def LeftOut.said (leftOut : LeftOut) : String :=
  leftOut.target.owner ++ "/" ++ leftOut.target.repo ++ "#" ++ toString leftOut.target.number ++
    " " ++ leftOut.why.said

/-- What to tell of the targets left out of `what`, if any were. -/
def leftOutNotice (what : String) (leftOut : List LeftOut) : Option String :=
  if leftOut = [] then none
  else some ("Left out of " ++ what ++ ": " ++
    "; ".intercalate (leftOut.map LeftOut.said) ++ ".")

/-- A batch's three terminal columns, every one named, zero or not: a
rejection is never taken for a failure. -/
def verdictTally (succeeded rejected failed : ℕ) : String :=
  toString succeeded ++ " succeeded, " ++ toString rejected ++ " rejected, " ++
    toString failed ++ " failed"

/-- What a completion has to say past that it is one. -/
def completionNotice (progress : BatchProgress) : Option String :=
  if progress.rejected = 0 ∧ progress.failed = 0 then none
  else some ("Batch complete: " ++
    verdictTally progress.succeeded progress.rejected progress.failed ++
    ". Open the batch for their reasons.")

/-- What is said of a batch nobody would vouch for. -/
def unknownNotice (followed : Followed) : String :=
  match followed.listing with
  | .unlisted => "No batch " ++ followed.batchId ++
      ": the projection has no record of it, running or finished, and Restate has had no progress for it in " ++
      toString attachTimeout ++
      " seconds of asking. The link is stale, or from another deployment."
  | .unreadable => "Restate has no progress for batch " ++ followed.batchId ++ " after " ++
      toString attachTimeout ++
      " seconds, and the projection could not be read: it may never have run, or its workflow has been retired since. A finished batch is under Batches."
  | .unasked | .running _ => "Restate has no progress for batch " ++ followed.batchId ++
      " after " ++ toString attachTimeout ++
      " seconds: it may never have run, or its workflow has been retired since. A finished batch is under Batches."

/-- What is said of a batch Restate never took. -/
def notSubmittedNotice (fault : Fault) : String :=
  match fault with
  | .signedOut => "Batch was not submitted: " ++ toString fault
  | _ => "Batch was not submitted after " ++ toString submitAttempts ++ " attempts: " ++
      toString fault

/-! ## The follow -/

/-- The targets of a batch that its receipt leaves out. -/
def PendingAction.leftOut (pending : PendingAction) (receipt : BatchReceipt) : List LeftOut :=
  (pending.targets.filter fun target => target.key ∈ receipt.leftOut).map .noLongerOpen

/-- Account for a batch once Restate has it: its rows leave the selection and
the targets left out are named. -/
def accountFor (pending : PendingAction) (receipt : BatchReceipt) : PageM Unit :=
  ask (S := PageEffects) (.deselect pending.rows) fun _ =>
    match leftOutNotice "the batch" (pending.leftOut receipt) with
    | some notice => ask (S := PageEffects) (.announce (.warning notice)) done
    | none => done ()

/-- The notice a completion leaves. -/
def completion (progress : BatchProgress) : Notice :=
  match completionNotice progress with
  | none => .success "Batch complete"
  | some notice => .warning notice

/-- Say how the follow ended. -/
def conclude : BatchOutcome → PageM Unit
  | .completed progress =>
    ask (S := PageEffects) (.announce (completion progress)) fun _ =>
      ask (S := PageEffects) .reload done
  | .notSubmitted fault =>
    ask (S := PageEffects) (.announce (.error (notSubmittedNotice fault))) fun _ =>
      ask (S := PageEffects) .standDown fun _ =>
        if fault = .signedOut then ask (S := PageEffects) .signedOut done else done ()
  | .unknown =>
    ask (S := PageEffects) .following fun following =>
      let notice := (following.map unknownNotice).getD ""
      ask (S := PageEffects) (.announce (.warning notice)) fun _ =>
        ask (S := PageEffects) .standDown done
  | .signedOut => ask (S := PageEffects) .signedOut done

/-- What a follow's reports and its receipt do to the page, beside what is
kept of the reports. -/
def sinks {σ : Type} (keep : Followed → σ → σ) (account : BatchReceipt → PageM Unit) (kept : σ) :
    (call : FollowCall) → PageM (call.Answer × σ)
  | .report update => ask (S := PageEffects) (.follow update) fun _ => done ((), keep update kept)
  | .accepted receipt => (account receipt).bind fun _ => done ((), kept)
  | .submit => ask (S := PageEffects) (.gateway .submit) fun answer => done (answer, kept)
  | .projected => ask (S := PageEffects) (.gateway .projected) fun answer => done (answer, kept)
  | .progress => ask (S := PageEffects) (.gateway .progress) fun answer => done (answer, kept)
  | .tick => ask (S := PageEffects) (.gateway .tick) fun answer => done (answer, kept)
  | .now => ask (S := PageEffects) (.gateway .now) fun answer => done (answer, kept)

/-- Submit a batch, follow it to the end, and make of each answer what the page
makes of it. -/
def runToEnd (fuel : ℕ) (pending : PendingAction) (followed : Followed) : PageM Unit := do
  let (outcome, _) ← (runBatch fuel followed).handled
    (sinks (fun _ kept => kept) (accountFor pending)) ()
  conclude outcome

/-- Follow a batch to the end and say how it ended, unless it was already over:
never once seen running. -/
def followToEnd (fuel : ℕ) (followed : Followed) : PageM Unit := do
  let (outcome, seenRunning) ← (followBatch fuel followed).handled
    (sinks (fun update seenRunning => seenRunning || (update.heard && !update.completed))
      fun _ => done ()) false
  match outcome with
  | .completed _ => if !seenRunning then return () else conclude outcome
  | _ => conclude outcome

/-! ## What a follow exchanges on a page -/

/-- What is said of the targets left out. -/
def leftOutNotices (pending : PendingAction) (receipt : BatchReceipt) : List Notice :=
  ((leftOutNotice "the batch" (pending.leftOut receipt)).map .warning).toList

/-- The accounting, exchange by exchange. -/
def accounted (pending : PendingAction) (receipt : BatchReceipt) : List PageExchange :=
  ⟨.deselect pending.rows, ()⟩ ::
    (leftOutNotices pending receipt).map fun notice => ⟨.announce notice, ()⟩

/-- How the follow is said to end, exchange by exchange. -/
def concluded (following : Option Followed) : BatchOutcome → List PageExchange
  | .completed progress => [⟨.announce (completion progress), ()⟩, ⟨.reload, ()⟩]
  | .notSubmitted fault =>
    [⟨.announce (.error (notSubmittedNotice fault)), ()⟩, ⟨.standDown, ()⟩] ++
      if fault = .signedOut then [⟨.signedOut, ()⟩] else []
  | .unknown => [⟨.following, following⟩,
      ⟨.announce (.warning ((following.map unknownNotice).getD "")), ()⟩, ⟨.standDown, ()⟩]
  | .signedOut => [⟨.signedOut, ()⟩]

/-- What an exchange of the follow is on a page that makes of a receipt what
`account` says. -/
def paged (account : BatchReceipt → List PageExchange) : FollowExchange → List PageExchange
  | ⟨.report update, _⟩ => [⟨.follow update, ()⟩]
  | ⟨.accepted receipt, _⟩ => account receipt
  | ⟨.submit, answer⟩ => [⟨.gateway .submit, answer⟩]
  | ⟨.projected, answer⟩ => [⟨.gateway .projected, answer⟩]
  | ⟨.progress, answer⟩ => [⟨.gateway .progress, answer⟩]
  | ⟨.tick, answer⟩ => [⟨.gateway .tick, answer⟩]
  | ⟨.now, answer⟩ => [⟨.gateway .now, answer⟩]

/-- What is kept after an exchange of the follow. -/
def keeping {σ : Type} (keep : Followed → σ → σ) (kept : σ) : FollowExchange → σ
  | ⟨.report update, _⟩ => keep update kept
  | _ => kept

theorem exchanges_accountFor {pending : PendingAction} {receipt : BatchReceipt}
    {es : List PageExchange} {r : Except Unfinished Unit} :
    (accountFor pending receipt).Exchanges es r ↔ es = accounted pending receipt ∧ r = .ok () := by
  rw [accountFor, accounted, leftOutNotices]
  cases leftOutNotice "the batch" (pending.leftOut receipt) with
  | none =>
    constructor
    · intro h
      obtain ⟨⟨⟩, rest, rfl, hdone⟩ := exchanges_ask.1 h
      obtain ⟨rfl, rfl⟩ := exchanges_done.1 hdone
      exact ⟨rfl, rfl⟩
    · rintro ⟨rfl, rfl⟩
      exact .ask (.done ())
  | some notice =>
    constructor
    · intro h
      obtain ⟨⟨⟩, rest, rfl, hannounced⟩ := exchanges_ask.1 h
      obtain ⟨⟨⟩, rest, rfl, hdone⟩ := exchanges_ask.1 hannounced
      obtain ⟨rfl, rfl⟩ := exchanges_done.1 hdone
      exact ⟨rfl, rfl⟩
    · rintro ⟨rfl, rfl⟩
      exact .ask (.ask (.done ()))

/-- **The end is said in one way**, and nothing else is. -/
theorem exchanges_conclude {outcome : BatchOutcome} {es : List PageExchange}
    {r : Except Unfinished Unit} (h : (conclude outcome).Exchanges es r) :
    ∃ following, es = concluded following outcome := by
  cases outcome with
  | completed progress =>
    obtain ⟨⟨⟩, rest, rfl, hreload⟩ := exchanges_ask.1 h
    obtain ⟨⟨⟩, rest, rfl, hdone⟩ := exchanges_ask.1 hreload
    obtain ⟨rfl, -⟩ := exchanges_done.1 hdone
    exact ⟨none, rfl⟩
  | notSubmitted fault =>
    obtain ⟨⟨⟩, rest, rfl, hstand⟩ := exchanges_ask.1 h
    obtain ⟨⟨⟩, rest, rfl, hrest⟩ := exchanges_ask.1 hstand
    refine ⟨none, ?_⟩
    rw [concluded]
    split at hrest
    · obtain ⟨⟨⟩, rest, rfl, hdone⟩ := exchanges_ask.1 hrest
      obtain ⟨rfl, -⟩ := exchanges_done.1 hdone
      rw [if_pos ‹_›]
      rfl
    · obtain ⟨rfl, -⟩ := exchanges_done.1 hrest
      rw [if_neg ‹_›]
      rfl
  | unknown =>
    obtain ⟨following, rest, rfl, hannounce⟩ := exchanges_ask.1 h
    obtain ⟨⟨⟩, rest, rfl, hstand⟩ := exchanges_ask.1 hannounce
    obtain ⟨⟨⟩, rest, rfl, hdone⟩ := exchanges_ask.1 hstand
    obtain ⟨rfl, -⟩ := exchanges_done.1 hdone
    exact ⟨following, rfl⟩
  | signedOut =>
    obtain ⟨⟨⟩, rest, rfl, hdone⟩ := exchanges_ask.1 h
    obtain ⟨rfl, -⟩ := exchanges_done.1 hdone
    exact ⟨none, rfl⟩

theorem told_sinks {σ : Type} {keep : Followed → σ → σ} {account : BatchReceipt → PageM Unit}
    {accounts : BatchReceipt → List PageExchange} (haccount : ∀ receipt es r,
      (account receipt).Exchanges es r ↔ es = accounts receipt ∧ r = .ok ()) :
    Told (sinks keep account) (paged accounts) (keeping keep) := by
  intro kept call es r
  cases call with
  | accepted receipt =>
    rw [sinks, exchanges_bind]
    constructor
    · rintro (⟨e, rfl, hfail⟩ | ⟨_, first, rest, rfl, hfirst, hrest⟩)
      · obtain ⟨-, hr⟩ := (haccount receipt es _).1 hfail
        cases hr
      · obtain ⟨rfl, -⟩ := (haccount receipt first _).1 hfirst
        obtain ⟨rfl, rfl⟩ := exchanges_done.1 hrest
        exact ⟨(), List.append_nil _, rfl⟩
    · rintro ⟨_, rfl, rfl⟩
      exact .inr ⟨(), _, [], (List.append_nil _).symm, (haccount receipt _ _).2 ⟨rfl, rfl⟩, .done _⟩
  | report update =>
    constructor
    · intro h
      obtain ⟨⟨⟩, rest, rfl, hdone⟩ := exchanges_ask.1 h
      obtain ⟨rfl, rfl⟩ := exchanges_done.1 hdone
      exact ⟨(), rfl, rfl⟩
    · rintro ⟨⟨⟩, rfl, rfl⟩
      exact .ask (.done _)
  | submit => simp [sinks, paged, keeping, exchanges_ask]
  | projected => simp [sinks, paged, keeping, exchanges_ask]
  | progress => simp [sinks, paged, keeping, exchanges_ask]
  | tick => simp [sinks, paged, keeping, exchanges_ask]
  | now => simp [sinks, paged, keeping, exchanges_ask]

/-! ## What the page is told -/

namespace PageExchange

/-- What is announced. -/
def notice? : PageExchange → Option Notice
  | ⟨.announce notice, _⟩ => some notice
  | _ => none

/-- The rows taken out of the selection. -/
def deselected? : PageExchange → Option (List PrRecord)
  | ⟨.deselect rows, _⟩ => some rows
  | _ => none

/-- What the gateway is asked, and answers. -/
def asked? : PageExchange → Option FollowExchange
  | ⟨.gateway call, answer⟩ => some ⟨call, answer⟩
  | _ => none

end PageExchange

open FollowExchange PageExchange

/-- The exchange is one of the gateway's. -/
def FollowExchange.asks : FollowExchange → Bool
  | ⟨.report _, _⟩ => false
  | ⟨.accepted _, _⟩ => false
  | _ => true

/-- The calls of a follow on a page. -/
def pageCalls (es : List PageExchange) : List PageCall := es.map Sigma.fst

/-- **How a follow ends is said once**, and not at all where it is `noNews`: a
completion that is no news. -/
structure SaidOnce (outcome : Except Unfinished BatchOutcome) (noNews : Prop)
    (es : List PageExchange) : Prop where
  nothingTwice : (es.filterMap notice?).Nodup
  completed : ∀ progress, outcome = .ok (.completed progress) → ¬noNews →
    (es.filterMap notice?).count (completion progress) = 1 ∧ (pageCalls es).count .reload = 1
  silent : ∀ progress, outcome = .ok (.completed progress) → noNews →
    es.filterMap notice? = [] ∧ .reload ∉ pageCalls es
  reloads : .reload ∈ pageCalls es → ∃ progress, outcome = .ok (.completed progress)
  standsDown : .standDown ∈ pageCalls es ↔
    (∃ fault, outcome = .ok (.notSubmitted fault)) ∨ outcome = .ok .unknown
  signedOut : .signedOut ∈ pageCalls es ↔
    outcome = .ok .signedOut ∨ outcome = .ok (.notSubmitted .signedOut)

/-- **The rows of a batch are accounted for once**, where Restate is known to
have it and nowhere else, and the targets left out are the first thing
said. -/
structure AccountsOnce (pending : PendingAction) (run : List FollowExchange)
    (es : List PageExchange) : Prop where
  taken : (∃ e ∈ run, Took e) → es.filterMap deselected? = [pending.rows]
  notTaken : (¬∃ e ∈ run, Took e) → es.filterMap deselected? = []
  named : (∃ e ∈ run, Took e) → ∃ receipt, ReceiptOwed pending.targets run receipt ∧
    leftOutNotices pending receipt <+: es.filterMap notice?

/-- What a follow has said that is not at its end. -/
structure Underway (es : List PageExchange) : Prop where
  once : (es.filterMap notice?).Nodup
  leftOut : ∀ notice ∈ es.filterMap notice?,
    ∃ said, notice = .warning ("Left out of the batch: " ++ said)
  quiet : ∀ call ∈ pageCalls es, call ≠ .reload ∧ call ≠ .standDown ∧ call ≠ .signedOut

/-- A text begins as its first part does. -/
theorem head?_append {first : String} {c : Char} (h : first.toList.head? = some c)
    (rest : String) : (first ++ rest).toList.head? = some c := by
  rw [String.toList_append, List.head?_append, h, Option.some_or]

/-- A notice that begins otherwise is no word of the targets left out. -/
theorem ne_leftOut {notice : Notice} {words : String}
    (h : notice = .success words ∨ notice = .error words ∨
      notice = .warning words ∧ words.toList.head? ≠ some 'L') (said : String) :
    notice ≠ .warning ("Left out of the batch: " ++ said) := by
  rintro rfl
  rcases h with h | h | ⟨h, hhead⟩
  · cases h
  · cases h
  · obtain rfl := Notice.warning.inj h
    exact hhead (head?_append rfl said)

/-- What is said of the end. -/
theorem notices_concluded (following : Option Followed) (outcome : BatchOutcome) :
    (concluded following outcome).filterMap notice? = match outcome with
      | .completed progress => [completion progress]
      | .notSubmitted fault => [.error (notSubmittedNotice fault)]
      | .unknown => [.warning ((following.map unknownNotice).getD "")]
      | .signedOut => [] := by
  cases outcome with
  | completed progress => rfl
  | notSubmitted fault =>
    rw [concluded]
    split <;> rfl
  | unknown => rfl
  | signedOut => rfl

/-- And what is made of it. -/
theorem calls_concluded (following : Option Followed) (outcome : BatchOutcome) :
    pageCalls (concluded following outcome) = match outcome with
      | .completed progress => [.announce (completion progress), .reload]
      | .notSubmitted fault => [.announce (.error (notSubmittedNotice fault)), .standDown] ++
          if fault = .signedOut then [.signedOut] else []
      | .unknown =>
        [.following, .announce (.warning ((following.map unknownNotice).getD "")), .standDown]
      | .signedOut => [.signedOut] := by
  cases outcome with
  | completed progress => rfl
  | notSubmitted fault =>
    by_cases hfault : fault = .signedOut <;> simp [concluded, pageCalls, hfault]
  | unknown => rfl
  | signedOut => rfl

/-- The end of a follow is no word of the targets left out. -/
theorem ne_leftOut_of_mem_concluded {following : Option Followed} {outcome : BatchOutcome}
    {notice : Notice} (h : notice ∈ (concluded following outcome).filterMap notice?)
    (said : String) : notice ≠ .warning ("Left out of the batch: " ++ said) := by
  rw [notices_concluded] at h
  cases outcome with
  | completed progress =>
    obtain rfl := List.mem_singleton.1 h
    rw [completion, completionNotice]
    by_cases hclean : progress.rejected = 0 ∧ progress.failed = 0
    · rw [if_pos hclean]
      exact ne_leftOut (.inl rfl) said
    · rw [if_neg hclean]
      refine ne_leftOut (.inr (.inr ⟨rfl, ?_⟩)) said
      rw [head?_append (head?_append rfl _) _]
      decide
  | notSubmitted fault =>
    obtain rfl := List.mem_singleton.1 h
    exact ne_leftOut (.inr (.inl rfl)) said
  | unknown =>
    obtain rfl := List.mem_singleton.1 h
    refine ne_leftOut (.inr (.inr ⟨rfl, ?_⟩)) said
    cases following with
    | none => decide
    | some followed =>
      rw [Option.map_some, Option.getD_some, unknownNotice]
      split <;> rw [head?_append (head?_append (head?_append (head?_append rfl _) _) _) _] <;>
        decide
  | signedOut => cases h

theorem underway_nil : Underway [] :=
  ⟨.nil, List.forall_mem_nil _, List.forall_mem_nil _⟩

theorem Underway.unfinished {es : List PageExchange} (h : Underway es) (noNews : Prop) :
    SaidOnce (.error .outOfFuel) noNews es where
  nothingTwice := h.once
  completed := nofun
  silent := nofun
  reloads hreload := absurd rfl (h.quiet _ hreload).1
  standsDown := iff_of_false (fun hstand => (h.quiet _ hstand).2.1 rfl) (by simp)
  signedOut := iff_of_false (fun hsigned => (h.quiet _ hsigned).2.2 rfl) (by simp)

/-- **A follow is concluded with its end said once.** -/
theorem Underway.saidOnce {es : List PageExchange} (h : Underway es)
    (following : Option Followed) (outcome : BatchOutcome) :
    SaidOnce (.ok outcome) False (es ++ concluded following outcome) := by
  have hreload : .reload ∉ pageCalls es := fun hmem => (h.quiet _ hmem).1 rfl
  have hstand : .standDown ∉ pageCalls es := fun hmem => (h.quiet _ hmem).2.1 rfl
  have hsigned : .signedOut ∉ pageCalls es := fun hmem => (h.quiet _ hmem).2.2 rfl
  have hcalls : pageCalls (es ++ concluded following outcome) =
      pageCalls es ++ pageCalls (concluded following outcome) := List.map_append
  -- the end is said in other words than the targets left out
  have hapart : ∀ notice ∈ (concluded following outcome).filterMap notice?,
      notice ∉ es.filterMap notice? := by
    intro notice hafter hbefore
    obtain ⟨said, hsaid⟩ := h.leftOut notice hbefore
    exact ne_leftOut_of_mem_concluded hafter said hsaid
  refine ⟨?_, ?_, nofun, ?_, ?_, ?_⟩
  · rw [List.filterMap_append, List.nodup_append]
    refine ⟨h.once, ?_, fun notice hbefore notice' hafter => ?_⟩
    · rw [notices_concluded]
      cases outcome <;> simp
    · rintro rfl
      exact hapart notice hafter hbefore
  · rintro progress hcompleted -
    obtain rfl := Except.ok.inj hcompleted
    rw [notices_concluded] at hapart
    rw [List.filterMap_append, notices_concluded, List.count_append,
      List.count_eq_zero.2 (hapart _ (List.mem_singleton_self _)),
      hcalls, calls_concluded, List.count_append, List.count_eq_zero.2 hreload]
    simp
  · rw [hcalls, calls_concluded]
    cases outcome <;> simp [hreload]
  · rw [hcalls, calls_concluded]
    cases outcome <;> simp [hstand]
  · rw [hcalls, calls_concluded]
    cases outcome <;> simp [hsigned]

/-! ## What a run of the follow is on a page -/

section Paged

variable {account : BatchReceipt → List PageExchange} {run : List FollowExchange}

/-- What is seen of a run past its reports and its gateway is what the page
makes of its receipts. -/
theorem filterMap_paged {β : Type} {f : PageExchange → Option β}
    (hgateway : ∀ call answer, f ⟨.gateway call, answer⟩ = none)
    (hfollow : ∀ update answer, f ⟨.follow update, answer⟩ = none) :
    (run.flatMap (paged account)).filterMap f =
      (run.filterMap receipt?).flatMap fun receipt => (account receipt).filterMap f := by
  have hone (e : FollowExchange) : (paged account e).filterMap f =
      (receipt? e).elim [] fun receipt => (account receipt).filterMap f := by
    obtain ⟨call, answer⟩ := e
    cases call with
    | accepted receipt => rfl
    | report update => exact List.filterMap_cons_none (hfollow _ _)
    | _ => exact List.filterMap_cons_none (hgateway _ _)
  induction run with
  | nil => rfl
  | cons e run ih =>
    rw [List.flatMap_cons, List.filterMap_append, ih, hone]
    cases hreceipt : receipt? e with
    | none => rw [List.filterMap_cons_none hreceipt, Option.elim_none, List.nil_append]
    | some receipt => rw [List.filterMap_cons_some hreceipt, Option.elim_some, List.flatMap_cons]

/-- The gateway is asked what the run asks. -/
theorem asked_paged (haccount : ∀ receipt, (account receipt).filterMap asked? = []) :
    (run.flatMap (paged account)).filterMap asked? = run.filter asks := by
  induction run with
  | nil => rfl
  | cons e run ih =>
    obtain ⟨call, answer⟩ := e
    rw [List.flatMap_cons, List.filterMap_append, ih]
    cases call with
    | accepted receipt =>
      rw [paged, haccount]
      rfl
    | _ => rfl

/-- **A run is under way on its page** while its receipts are. -/
theorem underway_paged (haccount : ∀ receipt, Underway (account receipt))
    (honce : ((run.filterMap receipt?).flatMap fun receipt =>
      (account receipt).filterMap notice?).Nodup) : Underway (run.flatMap (paged account)) := by
  have hnotices : (run.flatMap (paged account)).filterMap notice? =
      (run.filterMap receipt?).flatMap fun receipt => (account receipt).filterMap notice? :=
    filterMap_paged (fun _ _ => rfl) fun _ _ => rfl
  refine ⟨?_, fun notice hnotice => ?_, fun call hcall => ?_⟩
  · rwa [hnotices]
  · rw [hnotices] at hnotice
    obtain ⟨receipt, -, hmem⟩ := List.mem_flatMap.1 hnotice
    exact (haccount receipt).leftOut notice hmem
  · obtain ⟨x, hx, rfl⟩ := List.mem_map.1 hcall
    obtain ⟨⟨call, answer⟩, -, hmem⟩ := List.mem_flatMap.1 hx
    cases call with
    | accepted receipt => exact (haccount receipt).quiet x.1 (List.mem_map_of_mem hmem)
    | _ =>
      obtain rfl := List.mem_singleton.1 hmem
      exact ⟨nofun, nofun, nofun⟩

end Paged

theorem notices_accounted (pending : PendingAction) (receipt : BatchReceipt) :
    (accounted pending receipt).filterMap notice? = leftOutNotices pending receipt := by
  rw [accounted, List.filterMap_cons_none rfl, List.filterMap_map]
  exact List.filterMap_some

theorem underway_accounted (pending : PendingAction) (receipt : BatchReceipt) :
    Underway (accounted pending receipt) := by
  have honce : (leftOutNotices pending receipt).length ≤ 1 := Option.length_toList_le
  refine ⟨?_, fun notice hnotice => ?_, fun call hcall => ?_⟩
  · rw [notices_accounted]
    match leftOutNotices pending receipt, honce with
    | [], _ => exact .nil
    | [notice], _ => exact List.nodup_singleton notice
  · rw [notices_accounted, leftOutNotices, Option.mem_toList] at hnotice
    obtain ⟨words, hwords, rfl⟩ := Option.map_eq_some_iff.1 hnotice
    rw [leftOutNotice] at hwords
    split at hwords
    · cases hwords
    · obtain rfl := Option.some.inj hwords
      refine ⟨"; ".intercalate ((pending.leftOut receipt).map LeftOut.said) ++ ".", ?_⟩
      rw [← String.append_assoc]
      rfl
  · rw [accounted, pageCalls, List.map_cons, List.map_map, List.mem_cons] at hcall
    rcases hcall with rfl | hcall
    · exact ⟨nofun, nofun, nofun⟩
    · obtain ⟨notice, -, rfl⟩ := List.mem_map.1 hcall
      exact ⟨nofun, nofun, nofun⟩

/-! ## A batch submitted -/

/-- A batch is accounted for with the receipt it is owed where Restate is known
to have it, and else with none. -/
theorem receipts_runBatch {fuel : ℕ} {batchId : String} {action : BulkActionKind}
    {targets : List PrTarget} {began : ℕ} {run : List FollowExchange}
    {outcome : Except Unfinished BatchOutcome}
    (h : (runBatch fuel (.queued batchId action targets began)).Exchanges run outcome) :
    (¬∃ e ∈ run, Took e) ∧ run.filterMap receipt? = [] ∨ (∃ e ∈ run, Took e) ∧
      ∃ receipt, run.filterMap receipt? = [receipt] ∧ ReceiptOwed targets run receipt := by
  obtain ⟨first, taken, hcourse, hrest⟩ := exchanges_runBatch h
  have hfirst := hcourse.submission (Nat.le_refl 1)
  rcases hrest with ⟨fault, rfl, rfl, rfl⟩ | ⟨middle, receipt, tail, rfl, hmiddle, htail, htaken⟩
  · refine .inl ⟨fun htook => ?_, List.filterMap_eq_nil_iff.2 hfirst.receipts⟩
    obtain ⟨taken, htaken⟩ := hcourse.took_iff.1 htook
    cases htaken
  · obtain ⟨taken, rfl⟩ : ∃ t, taken = .ok t := by
      rcases htaken with rfl | ⟨_, rfl, -⟩ <;> exact ⟨_, rfl⟩
    obtain ⟨e, he, htook⟩ := hcourse.took_iff.2 ⟨taken, rfl⟩
    refine .inr ⟨⟨e, List.mem_append_left _ he, htook⟩, receipt, ?_,
      receiptOwed hfirst hmiddle (by simpa using htaken)⟩
    rw [List.append_cons, List.filterMap_append, List.filterMap_append,
      List.filterMap_eq_nil_iff.2 hfirst.receipts, (handover hmiddle receipt).receipts,
      List.filterMap_eq_nil_iff.2 htail.receipts]
    rfl

/-- The rows of a run under way leave the selection with its receipt. -/
theorem deselected_paged (pending : PendingAction) (run : List FollowExchange) :
    (run.flatMap (paged (accounted pending))).filterMap deselected? =
      (run.filterMap receipt?).map fun _ => pending.rows := by
  have haccounted (receipt : BatchReceipt) :
      (accounted pending receipt).filterMap deselected? = [pending.rows] := by
    rw [accounted, List.filterMap_cons_some (f := deselected?) rfl, List.filterMap_map]
    exact congrArg (pending.rows :: ·) (List.filterMap_eq_nil_iff.2 fun _ _ => rfl)
  rw [filterMap_paged (fun _ _ => rfl) fun _ _ => rfl]
  simp only [haccounted]
  exact (List.map_eq_flatMap).symm

/-- What follows a run under way takes no more rows and asks nothing. -/
theorem quiet_concluded (following : Option Followed) (outcome : BatchOutcome) :
    (concluded following outcome).filterMap deselected? = [] ∧
      (concluded following outcome).filterMap asked? = [] := by
  cases outcome with
  | completed progress => exact ⟨rfl, rfl⟩
  | notSubmitted fault =>
    rw [concluded]
    split <;> exact ⟨rfl, rfl⟩
  | unknown => exact ⟨rfl, rfl⟩
  | signedOut => exact ⟨rfl, rfl⟩

/-- **A page is a run under way and, where it ended, its end.** -/
theorem exchanges_handled_bind {σ : Type} {follow : FollowM BatchOutcome}
    {keep : Followed → σ → σ} {account : BatchReceipt → PageM Unit}
    {accounts : BatchReceipt → List PageExchange} {kept : σ} {next : BatchOutcome × σ → PageM Unit}
    (haccount : ∀ receipt es r, (account receipt).Exchanges es r ↔
      es = accounts receipt ∧ r = .ok ()) {es : List PageExchange} {r : Except Unfinished Unit}
    (h : ((follow.handled (sinks keep account) kept).bind next).Exchanges es r) :
    ∃ run outcome, follow.Exchanges run outcome ∧
      ((outcome = .error .outOfFuel ∧ es = run.flatMap (paged accounts)) ∨
        ∃ ended last, outcome = .ok ended ∧ es = run.flatMap (paged accounts) ++ last ∧
          (next (ended, run.foldl (keeping keep) kept)).Exchanges last r) := by
  rcases exchanges_bind.1 h with ⟨⟨⟩, rfl, hfail⟩ | ⟨⟨ended, after⟩, first, last, rfl, hfirst, hlast⟩
  · obtain ⟨run, outcome, hrun, rfl, hr⟩ := (exchanges_handled (told_sinks haccount)).1 hfail
    cases outcome with
    | ok ended => cases hr
    | error fault =>
      cases fault
      exact ⟨run, _, hrun, .inl ⟨rfl, rfl⟩⟩
  · obtain ⟨run, outcome, hrun, rfl, hr⟩ := (exchanges_handled (told_sinks haccount)).1 hfirst
    cases outcome with
    | error fault => cases hr
    | ok ended' =>
      obtain ⟨rfl, rfl⟩ := Prod.mk.inj (Except.ok.inj hr)
      exact ⟨run, _, hrun, .inr ⟨_, last, rfl, rfl, hlast⟩⟩

/-- **How a batch submitted ends is said once**, and its rows accounted for. -/
theorem exchanges_runToEnd {fuel : ℕ} {batchId : String} {pending : PendingAction} {began : ℕ}
    {es : List PageExchange} {r : Except Unfinished Unit}
    (h : (runToEnd fuel pending
      (.queued batchId pending.action pending.targets began)).Exchanges es r) :
    ∃ run outcome, (runBatch fuel
        (.queued batchId pending.action pending.targets began)).Exchanges run outcome ∧
      es.filterMap asked? = run.filter asks ∧ SaidOnce outcome False es ∧
      AccountsOnce pending run es := by
  obtain ⟨run, outcome, hrun, hpage⟩ := exchanges_handled_bind
    (fun _ _ _ => exchanges_accountFor) h
  have hreceipts := receipts_runBatch hrun
  have honce : ((run.filterMap receipt?).flatMap fun receipt =>
      (accounted pending receipt).filterMap notice?).Nodup := by
    rcases hreceipts with ⟨-, hnone⟩ | ⟨-, receipt, hone, -⟩
    · rw [hnone]
      exact .nil
    · rw [hone, List.flatMap_singleton]
      exact (underway_accounted pending receipt).once
  have hunderway := underway_paged (underway_accounted pending) honce
  have hasked : (run.flatMap (paged (accounted pending))).filterMap asked? = run.filter asks := by
    refine asked_paged fun receipt => List.filterMap_eq_nil_iff.2 fun e he => ?_
    rcases List.mem_cons.1 he with rfl | he
    · rfl
    · obtain ⟨notice, -, rfl⟩ := List.mem_map.1 he
      rfl
  refine ⟨run, outcome, hrun, ?_⟩
  -- whatever the end takes and says comes after
  have haccounts {last : List PageExchange} (hlast : last.filterMap deselected? = []) :
      AccountsOnce pending run (run.flatMap (paged (accounted pending)) ++ last) := by
    have hdeselected : (run.flatMap (paged (accounted pending)) ++ last).filterMap deselected? =
        (run.filterMap receipt?).map fun _ => pending.rows := by
      rw [List.filterMap_append, hlast, List.append_nil, deselected_paged]
    rcases hreceipts with ⟨hnot, hnone⟩ | ⟨htook, receipt, hone, howed⟩
    · refine ⟨fun h => absurd h hnot, fun _ => ?_, fun h => absurd h hnot⟩
      rw [hdeselected, hnone, List.map_nil]
    · refine ⟨fun _ => ?_, fun h => absurd htook h, fun _ => ⟨receipt, howed, ?_⟩⟩
      · rw [hdeselected, hone, List.map_singleton]
      · rw [List.filterMap_append, filterMap_paged (fun _ _ => rfl) (fun _ _ => rfl), hone,
          List.flatMap_singleton, notices_accounted]
        exact List.prefix_append _ _
  rcases hpage with ⟨rfl, rfl⟩ | ⟨ended, last, rfl, rfl, hlast⟩
  · refine ⟨hasked, hunderway.unfinished False, ?_⟩
    have hnone := haccounts (List.filterMap_nil : ([] : List PageExchange).filterMap deselected? = [])
    rwa [List.append_nil] at hnone
  · obtain ⟨following, rfl⟩ := exchanges_conclude hlast
    obtain ⟨hdeselects, hasks⟩ := quiet_concluded following ended
    refine ⟨?_, hunderway.saidOnce following ended, haccounts hdeselects⟩
    rw [List.filterMap_append, hasks, List.append_nil, hasked]

/-! ## A batch followed by id alone -/

/-- Something showed the batch still running: the projection listed it so, or
a poll was answered with progress that is not the batch's end. -/
def SeenRunning (run : List FollowExchange) : Prop :=
  (∃ batch, ⟨.projected, .ok (some (.running batch))⟩ ∈ run) ∨
    ∃ progress ∈ run.filterMap told?, progress.completed = false

/-- The projection listed the batch as running, and the first progress a poll
was answered with was its end. -/
def OverAtFirstWord (run : List FollowExchange) : Prop :=
  (∃ batch, ⟨.projected, .ok (some (.running batch))⟩ ∈ run) ∧
    ∃ progress, (run.filterMap told?).head? = some progress ∧ progress.completed = true

/-- A report that has the batch seen running. -/
def reportsRunning : FollowExchange → Bool
  | ⟨.report update, _⟩ => update.heard && !update.completed
  | _ => false

/-- What is kept of a run's reports is whether one had the batch running. -/
theorem foldl_keeping (run : List FollowExchange) (seenRunning : Bool) :
    run.foldl (keeping fun update seenRunning =>
        seenRunning || (update.heard && !update.completed)) seenRunning =
      (seenRunning || run.any reportsRunning) := by
  induction run generalizing seenRunning with
  | nil => rw [List.foldl_nil, List.any_nil, Bool.or_false]
  | cons e run ih =>
    have hone : keeping (fun update seenRunning =>
        seenRunning || (update.heard && !update.completed)) seenRunning e =
          (seenRunning || reportsRunning e) := by
      obtain ⟨call, answer⟩ := e
      cases call with
      | report update => rfl
      | _ => exact (Bool.or_false seenRunning).symm
    rw [List.foldl_cons, ih, hone, List.any_cons, Bool.or_assoc]

/-- **What the polls of a batch, `heard` of before or not, showed of it.** -/
structure Showed (heard : Bool) (es : List FollowExchange) (r : Except Unfinished BatchOutcome) :
    Prop where
  running : (es.any reportsRunning || heard) = true ↔
    (∃ progress ∈ es.filterMap told?, progress.completed = false) ∨ heard = true
  completed : ∀ progress, r = .ok (.completed progress) → es.filterMap told? ≠ []
  atFirst : ∀ progress, (es.filterMap told?).head? = some progress → progress.completed = true →
    es.filterMap told? = [progress] ∧ r = .ok (.completed progress)

/-- What a poll and its report tell. -/
theorem told_turn (poll : Poll) (news : Bool) (followed : Followed) :
    (poll.exchanges ++ reports news followed).filterMap told? = poll.progress?.toList := by
  cases poll <;> cases news <;> rfl

/-- What is known after a poll that was answered with progress. -/
theorem polled_of_progress (followed : Followed) {poll : Poll} {progress : BatchProgress}
    (h : poll.progress? = some progress) : (followed.polled poll).1.heard = true ∧
      (followed.polled poll).1.progress = some progress ∧
      (followed.polled poll).1.trouble = none := by
  cases poll with
  | heard progress' now =>
    obtain rfl := Option.some.inj h
    by_cases htrouble : followed.trouble = none <;>
      by_cases hsame : followed.heard ∧ followed.progress = some progress' <;>
      simp [Followed.polled, Followed.answered, Followed.hear, htrouble, hsame]
  | nothing => cases h
  | failed fault => cases h

/-- And after one that was not. -/
theorem polled_of_none {followed : Followed} {poll : Poll} (h : poll.progress? = none) :
    (followed.polled poll).1.heard = followed.heard ∧
      (followed.polled poll).1.progress = followed.progress := by
  cases poll with
  | heard progress now => cases h
  | nothing => by_cases hsame : followed.trouble = none <;> simp [Followed.polled, Followed.answered, hsame]
  | failed fault =>
    by_cases hsame : followed.trouble = some fault <;>
      simp [Followed.polled, Followed.answered, hsame]

/-- A poll has the batch reported running where it says so first. -/
theorem running_turn (followed : Followed) (poll : Poll) :
    ((poll.exchanges ++ reports (followed.polled poll).2 (followed.polled poll).1).any
        reportsRunning || followed.heard) = true ↔
      (∃ progress ∈ poll.progress?.toList, progress.completed = false) ∨
        followed.heard = true := by
  have hexchanges : poll.exchanges.any reportsRunning = false := by cases poll <;> rfl
  have hreports : (reports (followed.polled poll).2 (followed.polled poll).1).any reportsRunning =
      ((followed.polled poll).2 &&
        ((followed.polled poll).1.heard && !(followed.polled poll).1.completed)) := by
    cases (followed.polled poll).2 <;> simp [reports, reportsRunning]
  rw [List.any_append, hexchanges, Bool.false_or, hreports]
  cases hprogress : poll.progress? with
  | none =>
    rw [(polled_of_none hprogress).1]
    cases followed.heard <;> simp
  | some progress =>
    obtain ⟨hheard, hshown, -⟩ := polled_of_progress followed hprogress
    cases hbefore : followed.heard with
    | true => simp
    | false =>
      -- nothing was heard before, so it is news
      have hnews : (followed.polled poll).2 = true := by
        cases poll with
        | heard progress' now =>
          by_cases htrouble : followed.trouble = none <;>
            simp [Followed.polled, Followed.answered, Followed.hear, hbefore, htrouble]
        | nothing => cases hprogress
        | failed fault => cases hprogress
      rw [hheard, hnews, Followed.completed, hshown]
      simp

theorem unfinished_of_ended {followed : Followed} (h : followed.ended = none)
    {progress : BatchProgress} (hprogress : followed.progress = some progress) :
    progress.completed = false := by
  rw [Followed.ended] at h
  split at h
  · cases h
  · rw [hprogress] at h
    simpa using h

/-- **The polls of a batch not at its end.** -/
theorem PollCourse.showed {followed : Followed} {known : Bool} {emptyPolls : ℕ}
    {polls : List Poll} {es : List FollowExchange} {r : Except Unfinished BatchOutcome}
    (h : PollCourse followed known emptyPolls polls es r)
    (hgoing : ∀ progress, followed.progress = some progress → progress.completed = false) :
    Showed followed.heard es r := by
  induction h with
  | outOfFuel => exact ⟨by simp, nofun, nofun⟩
  | gaveUp hgives =>
    obtain ⟨rfl, -, -⟩ := hgives
    exact ⟨by simp [Poll.exchanges, reportsRunning, told?], nofun, nofun⟩
  | @ended followed known emptyPolls poll outcome hgoes hended =>
    have htold := told_turn poll (followed.polled poll).2 (followed.polled poll).1
    refine ⟨?_, ?_, ?_⟩
    · rw [htold]
      exact running_turn followed poll
    · rintro progress ⟨⟩ hnone
      rw [htold] at hnone
      have hquiet : poll.progress? = none := Option.toList_eq_nil_iff.1 hnone
      rcases ended_cases hended with ⟨-, hrefused⟩ | ⟨-, last, hlast, hcompleted, -⟩
      · cases hrefused
      · rw [(polled_of_none hquiet).2] at hlast
        rw [hgoing last hlast] at hcompleted
        cases hcompleted
    · intro progress hhead hcompleted
      rw [htold] at hhead ⊢
      have hprogress : poll.progress? = some progress := by simpa using hhead
      obtain ⟨-, hshown, htrouble⟩ := polled_of_progress followed hprogress
      refine ⟨by rw [hprogress, Option.toList_some], ?_⟩
      rcases ended_cases hended with ⟨hrefused, -⟩ | ⟨-, last, hlast, -, rfl⟩
      · rw [htrouble] at hrefused
        cases hrefused
      · rw [Option.some.inj (hshown.symm.trans hlast)]
  | @next followed known emptyPolls poll polls es r hgoes hended hcourse ih =>
    have htold := told_turn poll (followed.polled poll).2 (followed.polled poll).1
    have hrest := ih fun progress => unfinished_of_ended hended
    have hrunning := running_turn followed poll
    refine ⟨?_, ?_, ?_⟩
    · rw [List.any_append, Bool.or_right_comm, Bool.or_eq_true, hrunning, List.filterMap_append,
        htold]
      cases hprogress : poll.progress? with
      | none =>
        have hsame := hrest.running
        rw [(polled_of_none hprogress).1, Bool.or_eq_true] at hsame
        simp only [Option.toList_none, List.nil_append, List.not_mem_nil, false_and, exists_false,
          false_or]
        rw [or_comm, hsame]
      | some progress =>
        have hunfinished : progress.completed = false :=
          unfinished_of_ended hended (polled_of_progress followed hprogress).2.1
        exact iff_of_true (.inl (.inl ⟨progress, by simp, hunfinished⟩))
          (.inl ⟨progress, by simp, hunfinished⟩)
    · intro progress hr hnone
      rw [List.filterMap_append] at hnone
      exact hrest.completed progress hr (List.append_eq_nil_iff.1 hnone).2
    · rw [List.filterMap_append, htold]
      intro progress hhead hcompleted
      cases hprogress : poll.progress? with
      | none =>
        rw [hprogress, Option.toList_none, List.nil_append] at hhead
        rw [Option.toList_none, List.nil_append]
        exact hrest.atFirst progress hhead hcompleted
      | some shown =>
        rw [hprogress] at hhead
        obtain rfl : shown = progress := Option.some.inj hhead
        rw [unfinished_of_ended hended (polled_of_progress followed hprogress).2.1] at hcompleted
        cases hcompleted

/-- **What a follow by id alone showed of its batch.** -/
structure FollowShowed (run : List FollowExchange) (outcome : Except Unfinished BatchOutcome) :
    Prop where
  running : run.any reportsRunning = true ↔
    ∃ progress ∈ run.filterMap told?, progress.completed = false
  completed : ∀ progress, outcome = .ok (.completed progress) →
    (∃ batch, ⟨.projected, .ok (some (.running batch))⟩ ∈ run) → run.filterMap told? ≠ []
  atFirst : ∀ progress, (run.filterMap told?).head? = some progress → progress.completed = true →
    run.filterMap told? = [progress] ∧ outcome = .ok (.completed progress)

theorem FollowCourse.showed {batchId : String} {began : ℕ} {run : List FollowExchange}
    {outcome : Except Unfinished BatchOutcome} (h : FollowCourse batchId began run outcome) :
    FollowShowed run outcome := by
  cases h with
  | finished => exact ⟨by simp [reportsRunning, told?, Followed.completed, BatchProgress.ofRecord],
      by simp, fun progress hhead => by cases hhead⟩
  | refused =>
    exact ⟨by simp [reportsRunning, told?, Followed.attaching],
      fun progress hcompleted => (by cases hcompleted), fun progress hhead => by cases hhead⟩
  | @polled answer opened listed polls es r hopening hcourse =>
    have hnew : opened.heard = false ∧ opened.progress = none := by
      rcases answer with (_ | message | _) | (_ | _ | record) <;> cases hopening <;>
        exact ⟨rfl, rfl⟩
    have hshowed := hcourse.showed fun progress hprogress => by
      rw [hnew.2] at hprogress
      cases hprogress
    have htold : (⟨.projected, answer⟩ :: ⟨.report opened, ()⟩ :: es :
        List FollowExchange).filterMap told? = es.filterMap told? := rfl
    have hopened : reportsRunning ⟨.report opened, ()⟩ = false := by
      rw [reportsRunning, hnew.1]
      rfl
    have hany : (⟨.projected, answer⟩ :: ⟨.report opened, ()⟩ :: es :
        List FollowExchange).any reportsRunning = es.any reportsRunning := by
      rw [List.any_cons, List.any_cons, hopened]
      rfl
    have hrunning := hshowed.running
    rw [hnew.1, Bool.or_false] at hrunning
    refine ⟨?_, fun progress hr _ => ?_, fun progress => ?_⟩
    · rw [hany, htold, hrunning]
      simp
    · rw [htold]
      exact hshowed.completed progress hr
    · rw [htold]
      exact hshowed.atFirst progress

/-- What is said of news is said of what turns out to be news. -/
theorem SaidOnce.of_news {outcome : Except Unfinished BatchOutcome} {es : List PageExchange}
    (h : SaidOnce outcome False es) {noNews : Prop}
    (hnews : ∀ progress, outcome = .ok (.completed progress) → ¬noNews) :
    SaidOnce outcome noNews es :=
  { h with
    completed := fun progress hcompleted _ => h.completed progress hcompleted not_false
    silent := fun progress hcompleted hnoNews => absurd hnoNews (hnews progress hcompleted) }

/-- A completion that is no news has nothing said of it. -/
theorem Underway.silent {es : List PageExchange} (h : Underway es)
    (hnone : es.filterMap notice? = []) {noNews : Prop} (hnoNews : noNews) (progress : BatchProgress) :
    SaidOnce (.ok (.completed progress)) noNews es where
  nothingTwice := h.once
  completed _ _ hnews := absurd hnoNews hnews
  silent _ _ _ := ⟨hnone, fun hreload => (h.quiet _ hreload).1 rfl⟩
  reloads hreload := absurd rfl (h.quiet _ hreload).1
  standsDown := iff_of_false (fun hstand => (h.quiet _ hstand).2.1 rfl) (by simp)
  signedOut := iff_of_false (fun hsigned => (h.quiet _ hsigned).2.2 rfl) (by simp)

/-- A run without a receipt has said nothing. -/
theorem notices_paged_nil (run : List FollowExchange) :
    (run.flatMap (paged fun _ => [])).filterMap notice? = [] := by
  rw [filterMap_paged (fun _ _ => rfl) fun _ _ => rfl, List.flatMap_eq_nil_iff]
  exact fun _ _ => rfl

/-- **How a follow by id alone ends is said once**, but for a batch listed as
running whose first word is that it is over. -/
theorem exchanges_followToEnd {fuel : ℕ} {batchId : String} {began : ℕ}
    {es : List PageExchange} {r : Except Unfinished Unit}
    (h : (followToEnd fuel (.attaching batchId began)).Exchanges es r) :
    ∃ run outcome, (followBatch fuel (.attaching batchId began)).Exchanges run outcome ∧
      es.filterMap asked? = run.filter asks ∧
      (SaidOnce outcome (¬SeenRunning run) es ↔ ¬OverAtFirstWord run) := by
  obtain ⟨run, outcome, hrun, hpage⟩ := exchanges_handled_bind
    (fun (_ : BatchReceipt) _ _ => exchanges_done (a := ())) h
  have hshowed := (exchanges_followBatch hrun).showed
  have hasked : (run.flatMap (paged fun _ => [])).filterMap asked? = run.filter asks :=
    asked_paged fun _ => rfl
  have hunderway : Underway (run.flatMap (paged fun _ => [])) := by
    refine underway_paged (fun _ => underway_nil) ?_
    rw [List.flatMap_eq_nil_iff.2 fun _ _ => List.filterMap_nil]
    exact .nil
  -- a batch over at its first word completes, and is never reported running
  have hover (hfirst : OverAtFirstWord run) :
      (∃ progress, outcome = .ok (.completed progress)) ∧ run.any reportsRunning = false := by
    obtain ⟨-, progress, hhead, hcompleted⟩ := hfirst
    obtain ⟨htold, hr⟩ := hshowed.atFirst progress hhead hcompleted
    refine ⟨⟨progress, hr⟩, Bool.eq_false_iff.2 fun hrunning => ?_⟩
    obtain ⟨told, hmem, hunfinished⟩ := hshowed.running.1 hrunning
    rw [htold] at hmem
    obtain rfl := List.mem_singleton.1 hmem
    rw [hunfinished] at hcompleted
    cases hcompleted
  refine ⟨run, outcome, hrun, ?_⟩
  rcases hpage with ⟨rfl, rfl⟩ | ⟨ended, last, rfl, rfl, hlast⟩
  · refine ⟨hasked, iff_of_true (hunderway.unfinished _) fun hfirst => ?_⟩
    obtain ⟨⟨progress, hr⟩, -⟩ := hover hfirst
    cases hr
  rw [foldl_keeping, Bool.false_or] at hlast
  by_cases hsilent : (∃ progress, ended = .completed progress) ∧ run.any reportsRunning = false
  · obtain ⟨⟨progress, rfl⟩, hseen⟩ := hsilent
    simp only [hseen, Bool.not_false, if_true] at hlast
    obtain ⟨rfl, -⟩ := exchanges_done.1 hlast
    rw [List.append_nil]
    refine ⟨hasked, ?_⟩
    constructor
    · rintro hsaid ⟨hlisted, -⟩
      have hcount := (hsaid.completed progress rfl fun hnot => hnot (.inl hlisted)).1
      rw [notices_paged_nil, List.count_nil] at hcount
      cases hcount
    · intro hfirst
      refine hunderway.silent (notices_paged_nil run) ?_ progress
      rintro (hlisted | hunfinished)
      · obtain ⟨first, rest, htold⟩ :=
          List.exists_cons_of_ne_nil (hshowed.completed progress rfl hlisted)
        refine hfirst ⟨hlisted, first, by rw [htold, List.head?_cons], ?_⟩
        by_contra hunfinished
        rw [hshowed.running.2 ⟨first, by rw [htold]; exact List.mem_cons_self,
          by simpa using hunfinished⟩] at hseen
        cases hseen
      · rw [hshowed.running.2 hunfinished] at hseen
        cases hseen
  · have hseen (progress : BatchProgress) (hcompleted : ended = .completed progress) :
        run.any reportsRunning = true := by
      by_contra hnot
      exact hsilent ⟨⟨progress, hcompleted⟩, Bool.eq_false_iff.2 hnot⟩
    have hconclude : (conclude ended).Exchanges last r := by
      cases ended with
      | completed progress =>
        simp only [hseen progress rfl, Bool.not_true, Bool.false_eq_true, if_false] at hlast
        exact hlast
      | notSubmitted fault => exact hlast
      | unknown => exact hlast
      | signedOut => exact hlast
    obtain ⟨following, rfl⟩ := exchanges_conclude hconclude
    refine ⟨?_, iff_of_true ((hunderway.saidOnce following ended).of_news ?_) ?_⟩
    · rw [List.filterMap_append, (quiet_concluded following ended).2, List.append_nil, hasked]
    · intro progress hcompleted hquiet
      exact hquiet (.inr (hshowed.running.1 (hseen progress (Except.ok.inj hcompleted))))
    · intro hfirst
      obtain ⟨⟨progress, hr⟩, hnone⟩ := hover hfirst
      exact hsilent ⟨⟨progress, Except.ok.inj hr⟩, hnone⟩

/-- **How a followed batch ends is said once**: of a batch submitted always, and
of one followed by id alone exactly where it is not one listed as running whose
first word is that it is over. -/
theorem said_once_iff (fuel : ℕ) (batchId : String) (pending : PendingAction) (began : ℕ) :
    (∀ es r, (runToEnd fuel pending
        (.queued batchId pending.action pending.targets began)).Exchanges es r →
      ∃ run outcome, (runBatch fuel
          (.queued batchId pending.action pending.targets began)).Exchanges run outcome ∧
        es.filterMap asked? = run.filter asks ∧ SaidOnce outcome False es ∧
        AccountsOnce pending run es) ∧
    ∀ es r, (followToEnd fuel (.attaching batchId began)).Exchanges es r →
      ∃ run outcome, (followBatch fuel (.attaching batchId began)).Exchanges run outcome ∧
        es.filterMap asked? = run.filter asks ∧
        (SaidOnce outcome (¬SeenRunning run) es ↔ ¬OverAtFirstWord run) :=
  ⟨fun _ _ => exchanges_runToEnd, fun _ _ => exchanges_followToEnd⟩

/-! ## A completion left unsaid -/

/-- A merge the projection lists as running. -/
def sampleListed : RunningBatch where
  batchId := "batch-1"
  installationId := 1
  action := .merge
  requestedBy := "alice"
  retriedFrom := none
  startedAt := 100
  targetCount := 1

/-- What Restate says of it a second later: it has run to the end. -/
def sampleMerged : BatchProgress where
  batchId := "batch-1"
  action := .merge
  targets := sampleTargets.map fun target => ⟨target, .succeeded "merged" none⟩
  completed := true
  succeeded := 1
  rejected := 0
  failed := 0

/-- The follow, as it is shown listed and then at its end. -/
def sampleShown : Followed :=
  { Followed.attaching "batch-1" 110 with listing := .running sampleListed }

/-- The follow when its batch has ended, the last poll having shown
it merged. -/
def sampleEnded : Followed :=
  { sampleShown with progress := some sampleMerged, heard := true, since := 111 }

/-- What it asks, and reports. -/
def sampleFollow : List FollowExchange :=
  [⟨.projected, .ok (some (.running sampleListed))⟩, ⟨.report sampleShown, ()⟩,
    ⟨.tick, ()⟩, ⟨.progress, .ok (some sampleMerged)⟩, ⟨.now, (111 : ℕ)⟩,
    ⟨.report sampleEnded, ()⟩]

/-- What it is on the page, to its end. -/
def samplePage : List PageExchange := sampleFollow.flatMap (paged fun _ => [])

/-- **A merge listed as running ends unsaid**, and the page is not reloaded. -/
theorem listed_end_unsaid :
    (followToEnd 1 (.attaching "batch-1" 110)).Exchanges samplePage (.ok ()) ∧
      (followBatch 1 (.attaching "batch-1" 110)).Exchanges sampleFollow
        (.ok (.completed sampleMerged)) ∧ SeenRunning sampleFollow ∧
      ¬SaidOnce (.ok (.completed sampleMerged)) (¬SeenRunning sampleFollow) samplePage := by
  have hseen : SeenRunning sampleFollow := .inl ⟨sampleListed, List.mem_cons_self⟩
  have hrun : (followBatch 1 (.attaching "batch-1" 110)).Exchanges sampleFollow
      (.ok (.completed sampleMerged)) :=
    .ask (.ask (.ask (.ask (.ask (.ask (.done _))))))
  have hpage : (followToEnd 1 (.attaching "batch-1" 110)).Exchanges samplePage (.ok ()) := by
    refine exchanges_bind.2 (.inr ⟨(.completed sampleMerged, false), samplePage, [],
      (List.append_nil _).symm, ?_, .done ()⟩)
    refine (exchanges_handled (told_sinks fun _ _ _ => exchanges_done)).2
      ⟨sampleFollow, _, hrun, rfl, ?_⟩
    rw [foldl_keeping]
    rfl
  refine ⟨hpage, hrun, hseen, fun hsaid => ?_⟩
  have hcount := (hsaid.completed sampleMerged rfl fun hnot => hnot hseen).1
  rw [samplePage, notices_paged_nil, List.count_nil] at hcount
  cases hcount

end Ui

end Dependaboard
