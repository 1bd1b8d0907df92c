import Dependaboard.Ui.Live
/-!
# Ui — a refusal of the credentials is final

Every call of a page goes through one guard, which begins none once the
credentials were refused and records the refusal where it is met. The live
refresh handles the answers to its own polls besides, and puts the line back
online on an answer that was under way as another call was refused.
`refusal_final_iff` is that nothing else undoes a refusal.
-/

namespace Dependaboard

namespace Ui

/-- The line of a page to the server, and what goes over it. -/
structure PageLine where
  connection : Connection
  /-- When a poll was last answered. -/
  refreshedAt : Option ℕ
  refresh : Refresh
  /-- The live refresh waits for its poll. -/
  polling : Bool
  /-- The live refresh has ended. -/
  ended : Bool
  /-- The other calls begun and not yet answered. -/
  inFlight : ℕ
  /-- A refusal was recorded. -/
  refused : Bool
  /-- The calls begun since. -/
  begunSince : ℕ
  deriving DecidableEq, Repr

namespace PageLine

/-- A page as it opens. -/
def opened : PageLine where
  connection := .online
  refreshedAt := none
  refresh := .new
  polling := false
  ended := false
  inFlight := 0
  refused := false
  begunSince := 0

/-- The credentials were refused, which nothing but a reload mends. -/
def signedOut (s : PageLine) : Bool := s.connection = .signedOut

/-- Only a change is written, so that a poll that finds the line as it was
wakes nothing. -/
def setConnection (s : PageLine) (connection : Connection) : PageLine :=
  if s.connection ≠ connection then { s with connection := connection } else s

/-- A poll was answered at `now`. -/
def pollAnswered (s : PageLine) (now : ℕ) : PageLine :=
  { s with refreshedAt := some now }.setConnection .online

/-- A poll got no answer, and the line is `connection`. -/
def pollMissed (s : PageLine) (connection : Connection) : PageLine := s.setConnection connection

/-! ## The guard -/

/-- **What the guard does before a call**: it is begun, unless the credentials
were refused. -/
def guardedBegin (s : PageLine) : Option PageLine :=
  if s.signedOut then none
  else some { s with begunSince := s.begunSince + s.refused.toNat }

/-- **What the guard does with an answer**: a refusal is recorded. -/
def guardedAnswer {α : Type} (s : PageLine) (answer : Except Fault α) : PageLine :=
  match answer with
  | .error .signedOut => { s.setConnection .signedOut with refused := true }
  | _ => s

/-! ## The live refresh -/

/-- One tick of the live refresh. -/
def liveTick (s : PageLine) (visible syncing : Bool) : PageLine :=
  let (step, refresh) := s.refresh.tick visible syncing
  let s := { s with refresh := refresh }
  match step with
  | .wait => s
  -- A page signed out on another call's word ends the refresh before it asks.
  | .poll =>
    match s.guardedBegin with
    | none => { s with ended := true }
    | some s => { s with polling := true }
  | .reload => if s.signedOut then { s with ended := true } else s
  | .stop => { s with ended := true }

/-- What it does with the answer to its poll. -/
def livePolled (s : PageLine) (answer : Except Fault ProjectionRevision) (now : ℕ) : PageLine :=
  let s := { s.guardedAnswer answer with polling := false }
  match answer with
  -- Online, whatever was recorded while the poll was under way.
  | .ok revision => { s with refresh := (s.refresh.observe revision).2 }.pollAnswered now
  | .error fault =>
    let (connection, refresh) := s.refresh.miss fault
    { s with refresh := refresh }.pollMissed connection

end PageLine

/-! ## What happens on it -/

/-- What a page does, or hears. -/
inductive LineAct where
  /-- A call other than the poll is asked for. -/
  | call
  /-- Another call is answered. -/
  | answer (answer : Except Fault Unit)
  | tick (visible syncing : Bool)
  /-- The poll is answered. -/
  | polled (answer : Except Fault ProjectionRevision) (now : ℕ)
  /-- A batch that was followed tells of the refusal it met. -/
  | told

namespace PageLine

/-- What may happen: an answer needs a call in flight, and the next tick waits
for the poll. -/
def CanDo (s : PageLine) : LineAct → Prop
  | .call => True
  | .answer _ => 0 < s.inFlight
  | .tick _ _ => s.polling = false ∧ s.ended = false
  | .polled _ _ => s.polling = true
  | .told => s.refused = true

/-- The page after it, by the functions the page calls there. -/
def act (s : PageLine) : LineAct → PageLine
  | .call =>
    match s.guardedBegin with
    | none => s
    | some s => { s with inFlight := s.inFlight + 1 }
  | .answer answer => { s.guardedAnswer answer with inFlight := s.inFlight - 1 }
  | .tick visible syncing => s.liveTick visible syncing
  | .polled answer now => s.livePolled answer now
  | .told => s.pollMissed .signedOut

/-- **A refusal is final.** -/
structure Final (s : PageLine) : Prop where
  line : s.refused = true → s.connection = .signedOut
  silent : s.begunSince = 0

/-- **The poll is not answered behind a refusal** that another call met. -/
def HeardInTime (s : PageLine) (act : LineAct) : Prop :=
  ∀ answer now, act = .polled answer now → answer ≠ .error .signedOut →
    s.connection ≠ .signedOut

end PageLine

open PageLine

/-- **A run of a page**, of acts `Allowed` where they are done. -/
inductive LineRun (Allowed : PageLine → LineAct → Prop) : PageLine → Prop where
  | opened : LineRun Allowed .opened
  | act {s : PageLine} {act : LineAct} (h : LineRun Allowed s) (hdo : s.CanDo act)
      (hallowed : Allowed s act) : LineRun Allowed (s.act act)

/-! ## One act -/

/-- What each act preserves. -/
structure LineKept (s : PageLine) : Prop where
  line : s.connection = .signedOut ↔ s.refused = true
  silent : s.begunSince = 0
  /-- A refresh that waits was not refused itself. -/
  waits : s.polling = true → s.refresh.refused = false

theorem LineKept.final {s : PageLine} (h : LineKept s) : Final s := ⟨h.line.2, h.silent⟩

@[simp] theorem setConnection_eq (s : PageLine) (connection : Connection) :
    s.setConnection connection = { s with connection := connection } := by
  unfold setConnection
  split
  · rfl
  · next h => rw [← not_not.1 h]

theorem signedOut_iff {s : PageLine} : s.signedOut = true ↔ s.connection = .signedOut := by
  simp [signedOut]

/-- A call begun leaves a page that was not refused as it was. -/
theorem LineKept.begun {s s' : PageLine} (h : LineKept s) (hbegun : s.guardedBegin = some s') :
    s' = s := by
  unfold guardedBegin at hbegun
  split at hbegun
  · cases hbegun
  · next hopen =>
    have hrefused : s.refused = false :=
      Bool.eq_false_iff.2 fun hrefused => hopen (signedOut_iff.2 (h.line.2 hrefused))
    rw [← Option.some.inj hbegun, hrefused, Bool.toNat_false, Nat.add_zero, ← hrefused]

/-- An answer is recorded. -/
theorem LineKept.answered {α : Type} {s : PageLine} (h : LineKept s) (answer : Except Fault α) :
    LineKept (s.guardedAnswer answer) := by
  unfold guardedAnswer
  split
  · rw [setConnection_eq]
    exact ⟨⟨fun _ => rfl, fun _ => rfl⟩, h.silent, h.waits⟩
  · exact h

/-- A tick of the live refresh undoes nothing. -/
theorem LineKept.liveTick {s : PageLine} (h : LineKept s) (hidle : s.polling = false)
    (visible syncing : Bool) : LineKept (s.liveTick visible syncing) := by
  obtain ⟨hkept, hpolls⟩ := @tick_refused s.refresh visible syncing
  have hticked : LineKept { s with refresh := (s.refresh.tick visible syncing).2 } :=
    ⟨h.line, h.silent, fun hpolling => absurd (hidle.symm.trans hpolling) Bool.noConfusion⟩
  have hended : LineKept { s with
      refresh := (s.refresh.tick visible syncing).2
      ended := true } := ⟨hticked.line, hticked.silent, hticked.waits⟩
  unfold PageLine.liveTick
  cases hstep : (s.refresh.tick visible syncing).1 with
  | wait => simpa only [hstep] using hticked
  | stop => simpa only [hstep] using hended
  | reload =>
    simp only [hstep]
    split
    · exact hended
    · exact hticked
  | poll =>
    simp only [hstep]
    split
    · exact hended
    · next begun hbegun =>
      obtain rfl := hticked.begun hbegun
      exact ⟨h.line, h.silent, fun _ => hkept.trans (hpolls hstep)⟩

/-- **The poll's answer undoes nothing, where it is heard in time.** -/
theorem LineKept.livePolled {s : PageLine} (h : LineKept s) (hpolling : s.polling = true)
    (answer : Except Fault ProjectionRevision) (now : ℕ)
    (htime : s.HeardInTime (.polled answer now)) : LineKept (s.livePolled answer now) := by
  have hopen (hanswer : answer ≠ .error .signedOut) : s.refused = false :=
    Bool.eq_false_iff.2 fun hrefused => htime _ _ rfl hanswer (h.line.2 hrefused)
  cases answer with
  | ok revision =>
    simp only [PageLine.livePolled, guardedAnswer, pollAnswered, setConnection_eq]
    exact ⟨by simp [hopen nofun], h.silent, nofun⟩
  | error fault =>
    by_cases hfault : fault = .signedOut
    · subst hfault
      have hmiss : (s.refresh.miss .signedOut).1 = .signedOut := miss_eq_signedOut.2 (.inr rfl)
      simp only [PageLine.livePolled, guardedAnswer, pollMissed, setConnection_eq, hmiss]
      exact ⟨⟨fun _ => rfl, fun _ => rfl⟩, h.silent, nofun⟩
    · have hmiss : (s.refresh.miss fault).1 ≠ .signedOut := fun hsigned =>
        (miss_eq_signedOut.1 hsigned).elim (by simp [h.waits hpolling]) hfault
      have hanswer : s.guardedAnswer (.error fault : Except Fault ProjectionRevision) = s := by
        cases fault <;> first | rfl | exact absurd rfl hfault
      simp only [PageLine.livePolled, hanswer, pollMissed, setConnection_eq]
      refine ⟨iff_of_false hmiss ?_, h.silent, nofun⟩
      simp [hopen fun heq => hfault (Except.error.inj heq)]

/-- **Every act leaves a refusal final**, where the poll is heard in time. -/
theorem LineKept.act {s : PageLine} (h : LineKept s) {act : LineAct} (hdo : s.CanDo act)
    (htime : s.HeardInTime act) : LineKept (s.act act) := by
  cases act with
  | call =>
    cases hbegun : s.guardedBegin with
    | none => simpa only [PageLine.act, hbegun] using h
    | some begun =>
      obtain rfl := h.begun hbegun
      simp only [PageLine.act, hbegun]
      exact ⟨h.line, h.silent, h.waits⟩
  | answer answer =>
    have hanswered := h.answered answer
    exact ⟨hanswered.line, hanswered.silent, hanswered.waits⟩
  | tick visible syncing => exact h.liveTick hdo.1 visible syncing
  | polled answer now => exact h.livePolled hdo answer now htime
  | told =>
    simp only [PageLine.act, pollMissed, setConnection_eq]
    exact ⟨⟨fun _ => hdo, fun _ => rfl⟩, h.silent, h.waits⟩

/-- **An answer heard behind a refusal undoes it.** -/
theorem LineKept.heardInTime {s : PageLine} (h : LineKept s) {act : LineAct} (hdo : s.CanDo act)
    (hfinal : Final (s.act act)) : s.HeardInTime act := by
  rintro answer now rfl hanswer hsigned
  have hrefused : s.refused = true := h.line.1 hsigned
  have hline := hfinal.line
  cases answer with
  | ok revision =>
    simp only [PageLine.act, PageLine.livePolled, guardedAnswer, pollAnswered, setConnection_eq]
      at hline
    exact absurd (hline hrefused) nofun
  | error fault =>
    have hfault : fault ≠ .signedOut := fun heq => hanswer (heq ▸ rfl)
    have hguarded : s.guardedAnswer (.error fault : Except Fault ProjectionRevision) = s := by
      cases fault <;> first | rfl | exact absurd rfl hfault
    simp only [PageLine.act, PageLine.livePolled, hguarded, pollMissed, setConnection_eq] at hline
    rcases miss_eq_signedOut.1 (hline hrefused) with hgone | hgone
    · exact absurd (hgone.symm.trans (h.waits hdo)) nofun
    · exact hfault hgone

/-! ## Every run -/

theorem LineRun.kept {s : PageLine} (h : LineRun HeardInTime s) : LineKept s := by
  induction h with
  | opened => exact ⟨by simp [PageLine.opened], rfl, nofun⟩
  | act _ hdo htime ih => exact ih.act hdo htime

/-- **A refusal is final** exactly where the live refresh's poll is heard in
time: in every run whose polls are, no refusal is undone, and the next act
undoes none where it is. -/
theorem refusal_final_iff {s : PageLine} (h : LineRun HeardInTime s) :
    Final s ∧ ∀ act, s.CanDo act → (Final (s.act act) ↔ s.HeardInTime act) :=
  ⟨h.kept.final, fun _ hdo => ⟨h.kept.heardInTime hdo, fun htime => (h.kept.act hdo htime).final⟩⟩

/-! ## A poll under way as another call is refused -/

/-- The poll under way. -/
def polledLine : PageLine := PageLine.opened.act (.tick true false)

/-- Another call refused meanwhile. -/
def refusedLine : PageLine := (polledLine.act .call).act (.answer (.error .signedOut))

/-- An act that is no answer to the poll is heard in time. -/
theorem heardInTime_of_ne {s : PageLine} {act : LineAct}
    (h : ∀ answer now, act ≠ .polled answer now) : s.HeardInTime act :=
  fun answer now hact => absurd hact (h answer now)

theorem lineRun_refused : LineRun HeardInTime refusedLine :=
  .act (.act (.act .opened ⟨rfl, rfl⟩ (heardInTime_of_ne nofun)) trivial (heardInTime_of_ne nofun))
    (by decide : 0 < 1) (heardInTime_of_ne nofun)

theorem refusal_final_iff_sample : Final refusedLine ∧ Final (refusedLine.act .call) := by
  have h := refusal_final_iff lineRun_refused
  exact ⟨h.1, (h.2 .call trivial).2 (heardInTime_of_ne nofun)⟩

/-- **A refusal is undone**, by the answer to a poll that was under way. -/
theorem refusal_undone : ¬ ∀ s : PageLine, LineRun (fun _ _ => True) s → Final s := by
  intro hclaim
  have hpolled : LineRun (fun _ _ => True) polledLine := .act .opened ⟨rfl, rfl⟩ trivial
  have hrefused : LineRun (fun _ _ => True) refusedLine :=
    .act (.act hpolled trivial trivial) (by decide : 0 < 1) trivial
  have hanswered : LineRun (fun _ _ => True) (refusedLine.act (.polled (.ok ⟨1, 1⟩) 0)) :=
    .act hrefused rfl trivial
  exact absurd ((hclaim _ hanswered).line rfl) nofun

end Ui

end Dependaboard
