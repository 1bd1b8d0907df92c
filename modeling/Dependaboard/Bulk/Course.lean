import Dependaboard.Durable.Exchange
import Dependaboard.Service.BulkAction
/-!
# Bulk action — the course of a batch

What a batch does is read off its exchanges: what it sent, what landed, what
it published, recorded and took off the list. `Follows` is how the progress
moves along: from one publication to the next it only advances, its tally
counts its states, and the verdicts are those that landed. `Driven` is that
every stretch of driving the targets is such a course, whether it ends or
fails, and `runBulkAction_exchanges` is the workflow around it.
-/

namespace Dependaboard

open Durable

/-! ## Reading a course -/

/-- The action a round sends. -/
def RoundKind.action : RoundKind → BulkActionKind
  | merge => .merge
  | updateBranch => .updateBranch

/-- What an exchange sent, and for which target. -/
def sent : Exchange BulkEffects → List (BulkActionKind × PrTarget)
  | ⟨.round kind targets, _⟩ => targets.map fun target => (kind.action, target)
  | ⟨.rebase target, _⟩ => [(.rebase, target)]
  | _ => []

/-- What landed in an exchange: how the action on each pull request ended. -/
def landed : Exchange BulkEffects → List (PrKey × Except String ActionOutcome)
  | ⟨.round _ targets, answer⟩ =>
    answer.1.map fun landing => ((targets.get landing.1).key, landing.2)
  | ⟨.rebase target, outcome⟩ => [(target.key, outcome)]
  | _ => []

/-- What an exchange published. -/
def published : Exchange BulkEffects → List BatchProgress
  | ⟨.publish progress, _⟩ => [progress]
  | _ => []

/-- What an exchange recorded, and how that went. -/
def recorded : Exchange BulkEffects → List (BatchRecord × Except HandlerError Unit)
  | ⟨.recordBatch record, answer⟩ => [(record, answer)]
  | _ => []

/-- How an exchange that took the batch off the list went. -/
def unlisted : Exchange BulkEffects → List (Except HandlerError Unit)
  | ⟨.unlistBatch, answer⟩ => [answer]
  | _ => []

/-- A reading of the clock, and the step it was made under. -/
def clocks : Exchange BulkEffects → List (String × Except HandlerError ℕ)
  | ⟨.now step, answer⟩ => [(step, answer)]
  | _ => []

/-- The call is one of those the targets are driven by. -/
def BulkCall.drives : BulkCall → Bool
  | publish _ => true
  | round _ _ => true
  | rebase _ => true
  | pause => true
  | _ => false

/-- The exchange failed, and what asked for it fails with it. -/
def Fails : Exchange BulkEffects → Prop
  | ⟨.now _, answer⟩ => ∃ error, answer = .error error
  | ⟨.round _ _, answer⟩ => ∃ message, answer.2 = .error message
  | ⟨.pause, answer⟩ => ∃ message, answer = .error message
  | ⟨.recordBatch _, answer⟩ => ∃ error, answer = .error error
  | _ => False

/-- What drives the targets records nothing, takes nothing off the list and
reads no clock. -/
theorem quiet_of_drives {es : List (Exchange BulkEffects)} (h : ∀ e ∈ es, e.1.drives) :
    es.flatMap recorded = [] ∧ es.flatMap unlisted = [] ∧ es.flatMap clocks = [] := by
  simp only [List.flatMap_eq_nil_iff]
  refine ⟨?_, ?_, ?_⟩ <;>
  · intro e he
    have hdrives := h e he
    obtain ⟨call, answer⟩ := e
    cases call <;> first | rfl | cases hdrives

/-! ## Moving along -/

/-- The verdict a pull request reached: the first that landed. -/
def verdictIn (log : List (PrKey × Except String ActionOutcome)) (key : PrKey) :
    Option TargetOutcome :=
  (log.find? fun landing => landing.1 = key).map fun landing => verdictOf landing.2

theorem verdictIn_append (log log' : List (PrKey × Except String ActionOutcome)) (key : PrKey) :
    verdictIn (log ++ log') key = (verdictIn log key).or (verdictIn log' key) := by
  unfold verdictIn
  rw [List.find?_append]
  cases log.find? fun landing => landing.1 = key <;> rfl

/-- **One progress moves on to another**, `log` having landed. -/
structure MovesOn (before : BatchProgress) (log : List (PrKey × Except String ActionOutcome))
    (after : BatchProgress) : Prop where
  advances : before.Advances after
  tallied : before.Tallied → after.Tallied
  header : after.batchId = before.batchId ∧ after.action = before.action
  /-- Over distinct keys, a target is at the verdict it had or at the first
  that landed. -/
  settles : ∀ targets states, (targets.map PrTarget.key).Nodup → before.Shows targets states →
    ∃ states', after.Shows targets states' ∧
      ∀ key, (states' key).outcome = (states key).outcome.or (verdictIn log key)

theorem MovesOn.refl (progress : BatchProgress) : MovesOn progress [] progress where
  advances := .refl progress
  tallied h := h
  header := ⟨rfl, rfl⟩
  settles _ states _ h := ⟨states, h, fun _ => Option.or_none.symm⟩

theorem MovesOn.trans {a b c : BatchProgress} {log log' : List (PrKey × Except String ActionOutcome)}
    (hab : MovesOn a log b) (hbc : MovesOn b log' c) : MovesOn a (log ++ log') c where
  advances := hab.advances.trans hbc.advances
  tallied h := hbc.tallied (hab.tallied h)
  header := ⟨hbc.header.1.trans hab.header.1, hbc.header.2.trans hab.header.2⟩
  settles := by
    intro targets states hnodup hshows
    obtain ⟨mid, hmid, hmidEq⟩ := hab.settles targets states hnodup hshows
    obtain ⟨last, hlast, hlastEq⟩ := hbc.settles targets mid hnodup hmid
    refine ⟨last, hlast, fun key => ?_⟩
    rw [hlastEq, hmidEq, verdictIn_append, Option.or_assoc]

/-- A target started has reached no verdict by it. -/
theorem moves_start (progress : BatchProgress) (key : PrKey) :
    MovesOn progress [] (progress.start key) where
  advances := progress.advances_setState key _
  tallied h := h.setState key _
  header := progress.setState_header key _
  settles := by
    intro targets states hnodup hshows
    refine ⟨_, hshows.setState hnodup key _, fun k => ?_⟩
    unfold moveState
    by_cases h : k = key ∧ (states k).outcome = none
    · rw [if_pos h, h.2]
      rfl
    · rw [if_neg h]
      exact (Option.or_none).symm

/-- An outcome is entered as the verdict it is. -/
theorem settle_eq (progress : BatchProgress) (target : PrTarget)
    (outcome : Except String ActionOutcome) :
    settle progress target outcome
      = progress.setState target.key (.ofOutcome (verdictOf outcome)) := by
  rcases outcome with message | outcome
  · rfl
  · cases outcome <;> rfl

/-- **What lands settles its target**, unless it had settled. -/
theorem moves_settle (progress : BatchProgress) (target : PrTarget)
    (outcome : Except String ActionOutcome) :
    MovesOn progress [(target.key, outcome)] (settle progress target outcome) := by
  rw [settle_eq]
  refine ⟨progress.advances_setState _ _, fun h => h.setState _ _,
    progress.setState_header _ _, ?_⟩
  intro targets states hnodup hshows
  refine ⟨_, hshows.setState hnodup target.key _, fun key => ?_⟩
  unfold moveState verdictIn
  by_cases hkey : key = target.key
  · subst hkey
    by_cases hnone : (states target.key).outcome = none
    · simp [hnone]
    · obtain ⟨verdict, hverdict⟩ := Option.ne_none_iff_exists'.1 hnone
      simp [hverdict]
  · simp [hkey, Ne.symm hkey]

theorem moves_startRound (progress : BatchProgress) (round : List PrTarget) :
    MovesOn progress [] (startRound progress round) := by
  induction round generalizing progress with
  | nil => exact .refl progress
  | cons target rest ih =>
    exact (moves_start progress target.key).trans (ih (progress.start target.key))

/-- **The course of a progress**: what landed, and each progress published on
the way, the last of them the one it comes to. -/
inductive Follows : BatchProgress → List (PrKey × Except String ActionOutcome) →
    List BatchProgress → BatchProgress → Prop
  | nil (progress : BatchProgress) : Follows progress [] [] progress
  | cons {a b c : BatchProgress} {log log' : List (PrKey × Except String ActionOutcome)}
      {shown : List BatchProgress} :
      MovesOn a log b → Follows b log' shown c → Follows a (log ++ log') (b :: shown) c

theorem Follows.single {a b : BatchProgress} {log : List (PrKey × Except String ActionOutcome)}
    (h : MovesOn a log b) : Follows a log [b] b := by
  have := Follows.cons h (.nil b)
  rwa [List.append_nil] at this

theorem Follows.append {a b c : BatchProgress}
    {log log' : List (PrKey × Except String ActionOutcome)} {shown shown' : List BatchProgress}
    (hab : Follows a log shown b) (hbc : Follows b log' shown' c) :
    Follows a (log ++ log') (shown ++ shown') c := by
  induction hab with
  | nil progress => exact hbc
  | cons hmoves _ ih =>
    rw [List.append_assoc]
    exact .cons hmoves (ih hbc)

theorem Follows.moves {a b : BatchProgress} {log : List (PrKey × Except String ActionOutcome)}
    {shown : List BatchProgress} (h : Follows a log shown b) : MovesOn a log b := by
  induction h with
  | nil progress => exact .refl progress
  | cons hmoves _ ih => exact hmoves.trans ih

/-- **Each progress published comes after those before it.** -/
theorem Follows.pairwise {a b : BatchProgress}
    {log : List (PrKey × Except String ActionOutcome)} {shown : List BatchProgress}
    (h : Follows a log shown b) : (a :: shown).Pairwise BatchProgress.Advances := by
  induction h with
  | nil progress => exact List.pairwise_singleton _ _
  | cons hmoves _ ih =>
    refine List.pairwise_cons.2 ⟨fun later hlater => ?_, ih⟩
    rcases List.mem_cons.1 hlater with rfl | hrest
    · exact hmoves.advances
    · exact hmoves.advances.trans ((List.pairwise_cons.1 ih).1 later hrest)

/-- What is published last is where the progress came to. -/
theorem Follows.getLast {a b : BatchProgress} {log : List (PrKey × Except String ActionOutcome)}
    {shown : List BatchProgress} (h : Follows a log shown b) : (a :: shown).getLast? = some b := by
  induction h with
  | nil progress => rfl
  | cons _ _ ih => rwa [List.getLast?_cons_cons]

/-! ## Driving the targets -/

/-- The progress a stretch of driving leaves, ended or failed. -/
def leftAt : Except (HandlerError × BatchProgress) BatchProgress → BatchProgress
  | .ok progress => progress
  | .error (_, progress) => progress

/-- **A stretch of driving** from `progress`: a course of it, which ends with
all of `sending` sent or fails by an exchange that failed. -/
structure Driven (progress : BatchProgress) (sending : List (BulkActionKind × PrTarget))
    (es : List (Exchange BulkEffects))
    (r : Except (HandlerError × BatchProgress) BatchProgress) : Prop where
  follows : Follows progress (es.flatMap landed) (es.flatMap published) (leftAt r)
  drives : ∀ e ∈ es, e.1.drives
  sends : ∀ after, r = .ok after → es.flatMap sent = sending
  fails : ∀ failure, r = .error failure → ∃ e ∈ es, Fails e

theorem Driven.done (progress : BatchProgress) : Driven progress [] [] (.ok progress) :=
  ⟨.nil progress, nofun, fun _ _ => rfl, nofun⟩

/-- One stretch of driving after another. -/
theorem Driven.bind {p q : BatchProgress} {sending sending' : List (BulkActionKind × PrTarget)}
    {es es' : List (Exchange BulkEffects)}
    {r : Except (HandlerError × BatchProgress) BatchProgress}
    (hfirst : Driven p sending es (.ok q)) (hrest : Driven q sending' es' r) :
    Driven p (sending ++ sending') (es ++ es') r where
  follows := by
    rw [List.flatMap_append, List.flatMap_append]
    exact hfirst.follows.append hrest.follows
  drives := List.forall_mem_append.2 ⟨hfirst.drives, hrest.drives⟩
  sends after h := by rw [List.flatMap_append, hfirst.sends q rfl, hrest.sends after h]
  fails failure h := by
    obtain ⟨e, he, hfails⟩ := hrest.fails failure h
    exact ⟨e, List.mem_append_right es he, hfails⟩

/-- A stretch that failed sends nothing more. -/
theorem Driven.stop {p : BatchProgress} {sending sending' : List (BulkActionKind × PrTarget)}
    {es : List (Exchange BulkEffects)} {failure : HandlerError × BatchProgress}
    (h : Driven p sending es (.error failure)) : Driven p sending' es (.error failure) :=
  ⟨h.follows, h.drives, nofun, h.fails⟩

theorem Driven.publish {p q : BatchProgress} (h : MovesOn p [] q) :
    Driven p [] [⟨.publish q, ()⟩] (.ok q) :=
  ⟨.single h, by simp [BulkCall.drives], fun _ _ => rfl, nofun⟩

/-- What lands of a round is settled and published in the order it does. -/
theorem follows_landRound {round : List PrTarget}
    {landings : List (Fin round.length × Except String ActionOutcome)} {p : BatchProgress}
    {es : List (Exchange BulkEffects)}
    {r : Except (HandlerError × BatchProgress) BatchProgress}
    (h : (landRound round landings p).Exchanges es r) :
    ∃ q, r = .ok q ∧ (∀ e ∈ es, e.1.drives) ∧ es.flatMap sent = [] ∧ es.flatMap landed = [] ∧
      Follows p (landings.map fun landing => ((round.get landing.1).key, landing.2))
        (es.flatMap published) q := by
  induction landings generalizing p es with
  | nil =>
    obtain ⟨rfl, rfl⟩ := Prog.exchanges_done.1 h
    exact ⟨p, rfl, nofun, rfl, rfl, .nil p⟩
  | cons landing rest ih =>
    obtain ⟨answer, es, rfl, hrest⟩ := Prog.exchanges_ask.1 h
    obtain ⟨q, rfl, hdrives, hsent, hlanded, hfollows⟩ := ih hrest
    refine ⟨q, rfl, List.forall_mem_cons.2 ⟨rfl, hdrives⟩, hsent, hlanded, ?_⟩
    exact .cons (moves_settle p (round.get landing.1) landing.2) hfollows

/-- **A round is driven**: all of it is started, what lands of it is settled
whether or not the round then fails. -/
theorem driven_runRound {kind : RoundKind} {round : List PrTarget} {p : BatchProgress}
    {es : List (Exchange BulkEffects)}
    {r : Except (HandlerError × BatchProgress) BatchProgress}
    (h : (runRound kind round p).Exchanges es r) :
    Driven p (round.map fun target => (kind.action, target)) es r := by
  obtain ⟨_, es₁, rfl, h₁⟩ := Prog.exchanges_ask.1 h
  obtain ⟨answer, es₂, rfl, h₂⟩ := Prog.exchanges_ask.1 h₁
  have hcourse : ∀ q first, (∀ e ∈ first, e.1.drives) → first.flatMap landed = [] →
      Follows (startRound p round)
        (answer.1.map fun landing => ((round.get landing.1).key, landing.2))
        (first.flatMap published) q →
      Follows p ((⟨.publish (startRound p round), ()⟩ :: ⟨.round kind round, answer⟩ :: first :
          List (Exchange BulkEffects)).flatMap landed)
        ((⟨.publish (startRound p round), ()⟩ :: ⟨.round kind round, answer⟩ :: first :
          List (Exchange BulkEffects)).flatMap published) q := by
    intro q first _ hlanded hfollows
    have hstart : Follows p [] [startRound p round] (startRound p round) :=
      .single (moves_startRound p round)
    have := hstart.append hfollows
    simpa [List.flatMap_cons, hlanded, landed, published] using this
  rcases Prog.exchanges_bind.1 h₂ with
    ⟨failure, rfl, hfail⟩ | ⟨q, first, rest, rfl, hland, hrest⟩
  · obtain ⟨q, hq, -⟩ := follows_landRound hfail
    cases hq
  · obtain ⟨q', hq', hdrives, hsent, hlanded, hfollows⟩ := follows_landRound hland
    cases hq'
    -- the landings are settled first; the round's own end is read after them
    have hends : rest = [] ∧ ((∃ message, answer.2 = .error message ∧
        r = .error (.terminal message, q)) ∨ r = .ok q) := by
      cases hresult : answer.2 with
      | ok _ =>
        rw [hresult] at hrest
        obtain ⟨rfl, rfl⟩ := Prog.exchanges_done.1 hrest
        exact ⟨rfl, .inr rfl⟩
      | error message =>
        rw [hresult] at hrest
        obtain ⟨rfl, rfl⟩ := Prog.exchanges_fail.1 hrest
        exact ⟨rfl, .inl ⟨message, rfl, rfl⟩⟩
    obtain ⟨rfl, hends⟩ := hends
    rw [List.append_nil]
    have hall : ∀ e ∈ (⟨.publish (startRound p round), ()⟩ :: ⟨.round kind round, answer⟩ ::
        first : List (Exchange BulkEffects)), e.1.drives :=
      List.forall_mem_cons.2 ⟨rfl, List.forall_mem_cons.2 ⟨rfl, hdrives⟩⟩
    rcases hends with ⟨message, hmessage, rfl⟩ | rfl
    · refine ⟨hcourse q first hdrives hlanded hfollows, hall, nofun, fun _ _ => ?_⟩
      exact ⟨_, List.mem_cons_of_mem _ List.mem_cons_self, message, hmessage⟩
    · refine ⟨hcourse q first hdrives hlanded hfollows, hall, fun _ _ => ?_, nofun⟩
      simp [List.flatMap_cons, hsent, sent]

theorem driven_runRounds {kind : RoundKind} {rounds : List (List PrTarget)} {p : BatchProgress}
    {es : List (Exchange BulkEffects)}
    {r : Except (HandlerError × BatchProgress) BatchProgress}
    (h : (runRounds kind rounds p).Exchanges es r) :
    Driven p (rounds.flatten.map fun target => (kind.action, target)) es r := by
  induction rounds generalizing p es with
  | nil =>
    obtain ⟨rfl, rfl⟩ := Prog.exchanges_done.1 h
    exact .done p
  | cons round rounds ih =>
    rcases Prog.exchanges_bind.1 h with ⟨failure, rfl, hfail⟩ | ⟨q, first, rest, rfl, hone, hrest⟩
    · exact (driven_runRound hfail).stop
    · rw [List.flatten_cons, List.map_append]
      exact (driven_runRound hone).bind (ih hrest)

theorem driven_runRebases {targets : List PrTarget} {p : BatchProgress}
    {es : List (Exchange BulkEffects)}
    {r : Except (HandlerError × BatchProgress) BatchProgress}
    (h : (runRebases targets p).Exchanges es r) :
    Driven p (targets.map fun target => (.rebase, target)) es r := by
  induction targets generalizing p es with
  | nil =>
    obtain ⟨rfl, rfl⟩ := Prog.exchanges_done.1 h
    exact .done p
  | cons target targets ih =>
    obtain ⟨_, es₁, rfl, h₁⟩ := Prog.exchanges_ask.1 h
    obtain ⟨outcome, es₂, rfl, h₂⟩ := Prog.exchanges_ask.1 h₁
    obtain ⟨_, es₃, rfl, h₃⟩ := Prog.exchanges_ask.1 h₂
    have hstart : Driven p [] [⟨.publish (p.start target.key), ()⟩] (.ok (p.start target.key)) :=
      .publish (moves_start p target.key)
    have hturn : Driven (p.start target.key) [(.rebase, target)]
        [⟨.rebase target, outcome⟩, ⟨.publish (settle (p.start target.key) target outcome), ()⟩]
        (.ok (settle (p.start target.key) target outcome)) :=
      ⟨.single (moves_settle _ target outcome), by simp [BulkCall.drives], fun _ _ => rfl, nofun⟩
    have hboth := hstart.bind hturn
    -- a pause stands behind every target but the one that completes the batch
    by_cases hcompleted : (settle (p.start target.key) target outcome).completed
    · simp only [hcompleted, if_true] at h₃
      exact hboth.bind (ih h₃)
    · simp only [hcompleted] at h₃
      obtain ⟨paused, es₄, rfl, h₄⟩ := Prog.exchanges_ask.1 h₃
      rcases paused with message | _
      · obtain ⟨rfl, rfl⟩ := Prog.exchanges_fail.1 h₄
        refine ⟨?_, by simp [BulkCall.drives], nofun, fun _ _ => ?_⟩
        · exact hboth.follows
        · exact ⟨⟨.pause, .error message⟩, by simp, message, rfl⟩
      · have hpause : Driven (settle (p.start target.key) target outcome) []
            [⟨.pause, .ok ()⟩] (.ok (settle (p.start target.key) target outcome)) :=
          ⟨.nil _, by simp [BulkCall.drives], fun _ _ => rfl, nofun⟩
        exact (hboth.bind hpause).bind (ih h₄)

/-- **Driving a batch's targets sends its action for each of them once**,
unless it fails. -/
theorem driven_driveTargets {request : BulkRequest} {p : BatchProgress}
    {es : List (Exchange BulkEffects)}
    {r : Except (HandlerError × BatchProgress) BatchProgress}
    (h : (driveTargets request p).Exchanges es r) :
    ∃ order : List PrTarget, order.Perm request.targets ∧
      Driven p (order.map fun target => (request.action, target)) es r := by
  unfold driveTargets at h
  split at h
  · next haction =>
    rw [haction]
    exact ⟨_, planMergeRounds_flatten request.targets maxConcurrent, driven_runRounds h⟩
  · next haction =>
    rw [haction]
    exact ⟨_, .of_eq (flatten_chunks maxConcurrent request.targets), driven_runRounds h⟩
  · next haction =>
    rw [haction]
    exact ⟨request.targets, .refl _, driven_runRebases h⟩

/-! ## The workflow -/

/-- What closes a batch whose targets were driven to `progress`: the finish
clock, the record it makes and how the record's write went. -/
inductive Finished (installationId : ℕ) (request : BulkRequest) (startedAt : ℕ)
    (progress : BatchProgress) : List (Exchange BulkEffects) →
      Except (HandlerError × BatchProgress) BatchProgress → Prop
  | clockless (error : HandlerError) :
      Finished installationId request startedAt progress
        [⟨.now "batch-finish-clock", .error error⟩] (.error (error, progress))
  | incomplete {completedAt : ℕ} (message : String)
      (h : progress.completedRecord installationId request.userId request.retriedFrom startedAt
        completedAt = none) :
      Finished installationId request startedAt progress
        [⟨.now "batch-finish-clock", .ok completedAt⟩] (.error (.terminal message, progress))
  | unrecorded {completedAt : ℕ} {record : BatchRecord} (error : HandlerError)
      (h : progress.completedRecord installationId request.userId request.retriedFrom startedAt
        completedAt = some record) :
      Finished installationId request startedAt progress
        [⟨.now "batch-finish-clock", .ok completedAt⟩, ⟨.recordBatch record, .error error⟩]
        (.error (error, progress))
  | recorded {completedAt : ℕ} {record : BatchRecord}
      (h : progress.completedRecord installationId request.userId request.retriedFrom startedAt
        completedAt = some record) :
      Finished installationId request startedAt progress
        [⟨.now "batch-finish-clock", .ok completedAt⟩, ⟨.recordBatch record, .ok ()⟩]
        (.ok progress)

theorem finished_of_exchanges {installationId : ℕ} {request : BulkRequest} {startedAt : ℕ}
    {progress : BatchProgress} {es : List (Exchange BulkEffects)}
    {r : Except (HandlerError × BatchProgress) BatchProgress}
    (h : (finish installationId request startedAt progress).Exchanges es r) :
    Finished installationId request startedAt progress es r := by
  obtain ⟨clock, es₁, rfl, h₁⟩ := Prog.exchanges_ask.1 h
  rcases clock with error | completedAt
  · obtain ⟨rfl, rfl⟩ := Prog.exchanges_fail.1 h₁
    exact .clockless error
  · cases hrecord : progress.completedRecord installationId request.userId request.retriedFrom
      startedAt completedAt with
    | none =>
      simp only [hrecord] at h₁
      obtain ⟨rfl, rfl⟩ := Prog.exchanges_fail.1 h₁
      exact .incomplete _ hrecord
    | some record =>
      simp only [hrecord] at h₁
      obtain ⟨written, es₂, rfl, h₂⟩ := Prog.exchanges_ask.1 h₁
      rcases written with error | _
      · obtain ⟨rfl, rfl⟩ := Prog.exchanges_fail.1 h₂
        exact .unrecorded error hrecord
      · obtain ⟨rfl, rfl⟩ := Prog.exchanges_done.1 h₂
        exact .recorded hrecord

/-- **How driving a batch ends**: its targets fail, or are driven and the
batch is closed. -/
theorem drive_cases {installationId : ℕ} {request : BulkRequest} {startedAt : ℕ}
    {p : BatchProgress} {es : List (Exchange BulkEffects)}
    {r : Except (HandlerError × BatchProgress) BatchProgress}
    (h : (drive installationId request startedAt p).Exchanges es r) :
    (∃ failure, r = .error failure ∧ (driveTargets request p).Exchanges es (.error failure)) ∨
      ∃ q first last, es = first ++ last ∧ (driveTargets request p).Exchanges first (.ok q) ∧
        Finished installationId request startedAt q last r := by
  rcases Prog.exchanges_bind.1 h with hfail | ⟨q, first, last, rfl, hfirst, hlast⟩
  · exact .inl hfail
  · exact .inr ⟨q, first, last, rfl, hfirst, finished_of_exchanges hlast⟩

/-- How the workflow ends on how driving the batch did: a batch that had not
completed is taken off the list. -/
inductive CleanedUp : Except (HandlerError × BatchProgress) BatchProgress →
    List (Exchange BulkEffects) → Except HandlerError BatchProgress → Prop
  | ended (progress : BatchProgress) : CleanedUp (.ok progress) [] (.ok progress)
  | kept {progress : BatchProgress} (error : HandlerError) (h : progress.completed = true) :
      CleanedUp (.error (error, progress)) [] (.error error)
  | unlisted {progress : BatchProgress} (error : HandlerError) (h : progress.completed = false)
      (answer : Except HandlerError Unit) :
      CleanedUp (.error (error, progress)) [⟨.unlistBatch, answer⟩] (.error error)

/-- **The course of the workflow**: it cannot read the clock and does
nothing, or it publishes the queued batch, lists it whatever the store
answers, drives it, and cleans up. -/
theorem runBulkAction_exchanges {batchId : String} {installationId : ℕ} {request : BulkRequest}
    {es : List (Exchange BulkEffects)} {r : Except HandlerError BatchProgress} :
    (runBulkAction batchId installationId request).Exchanges es r ↔
      (∃ error, es = [⟨.now "batch-start-clock", .error error⟩] ∧ r = .error error) ∨
      ∃ startedAt listed driven body last,
        es = ⟨.now "batch-start-clock", .ok startedAt⟩ ::
          ⟨.publish (.queued batchId request.action request.targets), ()⟩ ::
          ⟨.startBatch (request.running batchId installationId startedAt), listed⟩ ::
            (body ++ last) ∧
        (drive installationId request startedAt
          (.queued batchId request.action request.targets)).Exchanges body driven ∧
        CleanedUp driven last r := by
  constructor
  · intro h
    obtain ⟨clock, es₁, rfl, h₁⟩ := Prog.exchanges_ask.1 h
    rcases clock with error | startedAt
    · obtain ⟨rfl, rfl⟩ := Prog.exchanges_fail.1 h₁
      exact .inl ⟨error, rfl, rfl⟩
    · obtain ⟨_, es₂, rfl, h₂⟩ := Prog.exchanges_ask.1 h₁
      obtain ⟨listed, es₃, rfl, h₃⟩ := Prog.exchanges_ask.1 h₂
      -- the drive is caught, so whatever it ends in is cleaned up after
      rcases Prog.exchanges_bind.1 h₃ with
        ⟨failure, -, hfail⟩ | ⟨driven, body, last, rfl, hbody, h₄⟩
      · obtain ⟨_, hok, -⟩ := Prog.exchanges_outcome.1 hfail
        cases hok
      · obtain ⟨driven', hok, hbody⟩ := Prog.exchanges_outcome.1 hbody
        cases hok
        refine .inr ⟨startedAt, listed, driven, body, last, rfl, hbody, ?_⟩
        rcases driven with ⟨error, progress⟩ | progress
        · by_cases hcompleted : progress.completed
          · simp only [hcompleted, if_true] at h₄
            obtain ⟨rfl, rfl⟩ := Prog.exchanges_fail.1 h₄
            exact .kept error hcompleted
          · simp only [hcompleted] at h₄
            obtain ⟨answer, es₅, rfl, h₅⟩ := Prog.exchanges_ask.1 h₄
            obtain ⟨rfl, rfl⟩ := Prog.exchanges_fail.1 h₅
            exact .unlisted error (Bool.eq_false_iff.2 hcompleted) answer
        · obtain ⟨rfl, rfl⟩ := Prog.exchanges_done.1 h₄
          exact .ended progress
  · rintro (⟨error, rfl, rfl⟩ | ⟨startedAt, listed, driven, body, last, rfl, hbody, hcleaned⟩)
    · exact .ask (.fail error)
    · refine .ask (.ask (.ask (Prog.exchanges_bind.2 (.inr ⟨driven, body, last, rfl,
        Prog.exchanges_outcome.2 ⟨driven, rfl, hbody⟩, ?_⟩))))
      cases hcleaned with
      | ended progress => exact .done progress
      | kept error h =>
        simp only [h, if_true]
        exact .fail error
      | unlisted error h answer =>
        simp only [h]
        exact .ask (.fail error)

end Dependaboard
