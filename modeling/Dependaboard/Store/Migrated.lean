import Mathlib.Data.List.Infix
import Dependaboard.Store.Migrations
/-!
# Store — migrations apply once, in order

Whatever processes migrate a database side by side, what is recorded of it is
a beginning of the registry, and the rest of it is what those migrations made
of it, each run once and in order. A migration is applied only where the read
under the write lock found all before it recorded and itself not: `InOrder` is
what the database keeps, `Beside` what a process may count on from the others,
and `migrations_apply_once` that a call that returns `Ok` leaves every one of
them recorded.
-/

namespace Dependaboard

open Durable

section

variable {C : Type}

/-! ## What the database keeps -/

/-- The versions a process carries, oldest first. -/
def Registry.versions (registry : Registry) : List ℕ :=
  registry.migrations.map Migration.version

/-- What these migrations make of a database, one after another. -/
def runAll (run : String → C → Option C) (migrations : List Migration) (rest : C) : Option C :=
  migrations.foldlM (fun rest migration => run migration.sql rest) rest

variable (run : String → C → Option C) (registry : Registry) (start : Contents C)

/-- **What is recorded is what has been run**, from `start` on: a beginning of
the registry, each migration once and in order. -/
structure InOrder (contents : Contents C) : Prop where
  recorded : contents.recorded <+: registry.versions
  since : start.recorded.length ≤ contents.recorded.length
  effect : runAll run ((registry.migrations.take contents.recorded.length).drop
    start.recorded.length) start.rest = some contents.rest

/-- **What migrating keeps**: a database that is sound, with every migration
recorded once a call has returned `Ok`. -/
structure Migrated (w : MigrationWorld C) : Prop where
  sound : InOrder run registry start w.committed
  returned : w.returned → w.committed.recorded = registry.versions

variable {run registry start}

theorem InOrder.of_start (h : start.recorded <+: registry.versions) :
    InOrder run registry start start := by
  refine ⟨h, le_refl _, ?_⟩
  rw [List.drop_eq_nil_of_le (List.length_take_le _ _)]
  rfl

theorem InOrder.withTable {contents : Contents C} (h : InOrder run registry start contents) :
    InOrder run registry start contents.withTable := ⟨h.recorded, h.since, h.effect⟩

section

variable {contents : Contents C} {before rest : List Migration} {migration : Migration}

/-- A migration is recorded where more are than come before it. -/
theorem InOrder.mem_recorded (h : InOrder run registry start contents)
    (hregistry : registry.migrations = before ++ migration :: rest) :
    migration.version ∈ contents.recorded ↔ before.length < contents.recorded.length := by
  have hat : registry.versions[before.length]? = some migration.version := by
    simp [Registry.versions, hregistry]
  obtain ⟨hlt, hget⟩ := List.getElem?_eq_some_iff.1 hat
  have hnodup : registry.versions.Nodup := registry.oldestFirst.imp Nat.ne_of_lt
  have htake := List.prefix_iff_eq_take.1 h.recorded
  rw [htake, List.length_take, List.mem_take_iff_getElem]
  constructor
  · rintro ⟨k, hk, hsame⟩
    have hkl : k < registry.versions.length := by omega
    have hindex : registry.versions[k] = registry.versions[before.length] := hsame.trans hget.symm
    obtain rfl := hnodup.getElem_inj_iff.1 hindex
    omega
  · intro hlength
    exact ⟨before.length, by omega, hget⟩

/-- **Running the next one and recording it keeps the database in order.** -/
theorem InOrder.next (h : InOrder run registry start contents)
    (hregistry : registry.migrations = before ++ migration :: rest)
    (hlength : contents.recorded.length = before.length) {rows : List MigrationRow}
    (hrows : contents.rows = some rows) {row : MigrationRow}
    (hrow : row.version = migration.version) {after : C}
    (hrun : run migration.sql contents.rest = some after) :
    InOrder run registry start ⟨some (rows ++ [row]), after⟩ := by
  have hbefore : contents.recorded = before.map Migration.version := by
    rw [List.prefix_iff_eq_take.1 h.recorded, hlength, Registry.versions, hregistry,
      List.map_append, List.take_left' (List.length_map _)]
  have hafter : (⟨some (rows ++ [row]), after⟩ : Contents C).recorded
      = (before ++ [migration]).map Migration.version := by
    rw [List.map_append, ← hbefore, Contents.recorded, Contents.recorded, hrows]
    simp [hrow]
  have hsince : start.recorded.length ≤ before.length := hlength ▸ h.since
  have heffect := h.effect
  rw [hlength, hregistry, List.take_left] at heffect
  refine ⟨?_, ?_, ?_⟩
  · rw [hafter, Registry.versions, hregistry]
    exact ⟨rest.map Migration.version, by simp⟩
  · rw [hafter]
    simp only [List.map_append, List.length_append, List.length_map]
    omega
  · have hsplit : before ++ migration :: rest = (before ++ [migration]) ++ rest := by simp
    rw [hafter, List.length_map, hregistry, hsplit, List.take_left,
      List.drop_append_of_le_length hsince, runAll, List.foldlM_append, ← runAll, heffect]
    simpa using hrun

end

namespace Migrating

/-! ## What a process may count on -/

/-- **What the others leave of process `i`'s view**: its transaction as it is,
or the process dead, and what is recorded only grown. -/
structure Beside (i : ℕ) (w w' : MigrationWorld C) : Prop where
  dead : w.dead i → w'.dead i
  mine : ∀ working, w.writing = some (i, working) →
    w'.dead i ∨ (w'.writing = some (i, working) ∧ w'.committed = w.committed)
  notMine : ¬ w.Writes i → ¬ w'.Writes i
  table : w.committed.rows.isSome → w'.committed.rows.isSome
  grown : w.committed.recorded.length ≤ w'.committed.recorded.length

theorem Beside.refl (i : ℕ) (w : MigrationWorld C) : Beside i w w :=
  ⟨id, fun _ h => .inr ⟨h, rfl⟩, id, id, le_refl _⟩

theorem Beside.trans {i : ℕ} {u v w : MigrationWorld C} (h : Beside i u v) (h' : Beside i v w) :
    Beside i u w where
  dead hdead := h'.dead (h.dead hdead)
  mine working hwriting := by
    rcases h.mine working hwriting with hdead | ⟨hv, hcommitted⟩
    · exact .inl (h'.dead hdead)
    · rcases h'.mine working hv with hdead | ⟨hw, hcommitted'⟩
      · exact .inl hdead
      · exact .inr ⟨hw, hcommitted'.trans hcommitted⟩
  notMine hnot := h'.notMine (h.notMine hnot)
  table htable := h'.table (h.table htable)
  grown := h.grown.trans h'.grown

/-- Another's step, while `i` is in no transaction. -/
theorem Beside.apart {i : ℕ} {w w' : MigrationWorld C} (hdead : w.dead i → w'.dead i)
    (hnot : ¬ w.Writes i) (hnot' : ¬ w'.Writes i)
    (htable : w.committed.rows.isSome → w'.committed.rows.isSome)
    (hgrown : w.committed.recorded.length ≤ w'.committed.recorded.length) : Beside i w w' :=
  ⟨hdead, fun working hwriting => absurd ⟨working, hwriting⟩ hnot, fun _ => hnot', htable, hgrown⟩

variable (run registry start) in
/-- What migrating keeps, and what a process may rely on. -/
def migrationOutline : Outline (migrationSystem run registry start) where
  inv := Migrated run registry start
  rely := Beside
  rely_refl := Beside.refl
  rely_trans := Beside.trans

/-- What a process knows holds until it acts, or it is dead. -/
def Lasting (run : String → C → Option C) (registry : Registry) (start : Contents C) (i : ℕ)
    (P : MigrationWorld C → Prop) : Prop :=
  ∀ u v, P u → Beside i u v → Migrated run registry start v → v.dead i ∨ P v

/-- A process between two transactions, the first `n` migrations recorded. -/
structure Between (i n : ℕ) (w : MigrationWorld C) : Prop where
  free : ¬ w.Writes i
  table : w.committed.rows.isSome
  recorded : n ≤ w.committed.recorded.length

/-- A process in a transaction begun on `committed` and gone on to
`working`. -/
structure Within (i : ℕ) (committed working : Contents C) (w : MigrationWorld C) : Prop where
  writing : w.writing = some (i, working)
  begun : w.committed = committed

theorem Between.lasting (i n : ℕ) : Lasting run registry start i (Between i n) :=
  fun _ _ hu hrely _ => .inr
    ⟨hrely.notMine hu.free, hrely.table hu.table, hu.recorded.trans hrely.grown⟩

theorem Within.lasting (i : ℕ) (committed working : Contents C) :
    Lasting run registry start i (Within i committed working) := by
  intro u v hu hrely _
  rcases hrely.mine working hu.writing with hdead | ⟨hwriting, hcommitted⟩
  · exact .inl hdead
  · exact .inr ⟨hwriting, hcommitted.trans hu.begun⟩

/-! ## One call -/

section Calls

variable {α : Type} {i : ℕ} {post : Except StoreError α → MigrationWorld C → Prop}
  {w : MigrationWorld C} {P : MigrationWorld C → Prop}

/-- **The rule of a process's call**: wherever the others have taken what it
knows, the call keeps the database in order and within what they rely on. -/
theorem safe_ask (call : MigrationCall) {k : call.Answer → MigrationM α}
    {Q : call.Answer → MigrationWorld C → Prop} (hP : w.dead i ∨ P w)
    (hlasting : Lasting run registry start i P)
    (hstep : ∀ u answer v, P u → Migrated run registry start u →
      migrationSem run i call u answer v →
      (migrationOutline run registry start).Keeps i u v ∧ Q answer v)
    (hk : ∀ answer v, Q answer v →
      (migrationOutline run registry start).Safe i (k answer) post v) :
    (migrationOutline run registry start).Safe i (Prog.ask (S := MigrationEffects) call k) post
      w := by
  refine Outline.Safe.ask (P := fun u => u.dead i ∨ P u) hP ?_ (fun _ _ => id)
    (fun _ _ _ => trivial) ?_
  · rintro u v (hdead | hu) hrely hinv
    · exact .inl (hrely.dead hdead)
    · exact hlasting u v hu hrely hinv
  · rintro u answer v (hdead | hu) hinv hsem
    · exact absurd hdead hsem.1
    · obtain ⟨hkeeps, hQ⟩ := hstep u answer v hu hinv hsem
      exact ⟨hkeeps, hk answer v hQ⟩

/-- What a call ends in, where it does not fail. -/
def Ends (R : α → MigrationWorld C → Prop) (r : Except StoreError α) (w : MigrationWorld C) :
    Prop :=
  ∀ a, r = .ok a → R a w

/-- A process ends where what it knows lasts. -/
theorem safe_done (hP : w.dead i ∨ P w) (hlasting : Lasting run registry start i P) (a : α) :
    (migrationOutline run registry start).Safe i (.done a : MigrationM α)
      (Ends fun _ u => u.dead i ∨ P u) w := by
  intro u hrely hinv _ _
  rcases hP with hdead | hP
  · exact .inl (hrely.dead hdead)
  · exact hlasting w u hP hrely hinv

theorem safe_fail (error : StoreError) (R : α → MigrationWorld C → Prop) :
    (migrationOutline run registry start).Safe i (.fail error : MigrationM α) (Ends R) w :=
  fun _ _ _ _ hok => nomatch hok

/-- A failure outside of a transaction is the call's. -/
theorem safe_ofExcept {β : Type} {x : Except StoreError β} {k : β → MigrationM α}
    {R : α → MigrationWorld C → Prop}
    (hk : ∀ b, x = .ok b → (migrationOutline run registry start).Safe i (k b) (Ends R) w) :
    (migrationOutline run registry start).Safe i ((Prog.ofExcept x).bind k) (Ends R) w := by
  cases x with
  | ok b => exact hk b rfl
  | error error => exact safe_fail error R

/-! ### What the calls do -/

theorem keeps_quiet {u v : MigrationWorld C} (hinv : Migrated run registry start u) (h : v = u) :
    (migrationOutline run registry start).Keeps i u v := by
  subst h
  exact ⟨hinv, fun k _ => .refl k v⟩

/-- One transaction is open at a time. -/
theorem not_writes_of_writes {u : MigrationWorld C} {k : ℕ} (h : u.Writes i) (hk : k ≠ i) :
    ¬ u.Writes k := by
  rintro ⟨working, hwriting⟩
  obtain ⟨working', hwriting'⟩ := h
  rw [hwriting] at hwriting'
  exact hk (Prod.mk.inj (Option.some.inj hwriting')).1

/-- What process `i` does in its own transaction, others do not see. -/
theorem keeps_workOn {u : MigrationWorld C} (hinv : Migrated run registry start u)
    (hfree : ∀ k, k ≠ i → ¬ u.Writes k) (working : Contents C) :
    (migrationOutline run registry start).Keeps i u (u.workOn i working) := by
  refine ⟨⟨hinv.sound, hinv.returned⟩, fun k hk => ?_⟩
  exact .apart id (hfree k hk) (not_writes_of_writes ⟨working, rfl⟩ hk) id (le_refl _)

theorem keeps_released {u : MigrationWorld C} (hinv : Migrated run registry start u)
    (hwrites : u.Writes i) : (migrationOutline run registry start).Keeps i u u.released := by
  refine ⟨⟨hinv.sound, hinv.returned⟩, fun k hk => ?_⟩
  exact .apart id (not_writes_of_writes hwrites hk) nofun id (le_refl _)

/-- A transaction that leaves the database in order, with more recorded, may
commit. -/
theorem keeps_commit {u : MigrationWorld C} {working : Contents C}
    (hinv : Migrated run registry start u) (hwrites : u.Writes i)
    (hsound : InOrder run registry start working) (htable : working.rows.isSome)
    (hgrown : u.committed.recorded.length ≤ working.recorded.length) :
    (migrationOutline run registry start).Keeps i u (u.commit working) := by
  refine ⟨⟨hsound, fun hreturned => ?_⟩, fun k hk => ?_⟩
  · have hall := hinv.returned hreturned
    refine hsound.recorded.eq_of_length (le_antisymm hsound.recorded.length_le ?_)
    rw [← hall]
    exact hgrown
  · exact .apart id (not_writes_of_writes hwrites hk) nofun (fun _ => htable) hgrown

/-- A failure leaves a transaction gone on to anything, or gone. -/
theorem keeps_lost {u v : MigrationWorld C} (hinv : Migrated run registry start u)
    (hwrites : u.Writes i) (h : v = u.released ∨ ∃ working, v = u.workOn i working) :
    (migrationOutline run registry start).Keeps i u v := by
  obtain rfl | ⟨working, rfl⟩ := h
  · exact keeps_released hinv hwrites
  · exact keeps_workOn hinv (fun k hk => not_writes_of_writes hwrites hk) working

theorem Within.writes {u : MigrationWorld C} {committed working : Contents C}
    (h : Within i committed working u) : u.Writes i := ⟨working, h.writing⟩

theorem Within.alone {u : MigrationWorld C} {committed working : Contents C}
    (h : Within i committed working u) : ∀ k, k ≠ i → ¬ u.Writes k :=
  fun _ hk => not_writes_of_writes h.writes hk

theorem Within.unique {u : MigrationWorld C} {committed working working' : Contents C}
    (h : Within i committed working u) (hwriting : u.writing = some (i, working')) :
    working' = working := by
  rw [h.writing] at hwriting
  exact (Prod.mk.inj (Option.some.inj hwriting)).2.symm

/-- **A failure in a transaction drops it.** -/
theorem safe_inTransaction {β : Type} {x : Except StoreError β} {k : β → MigrationM α}
    {R : α → MigrationWorld C → Prop}
    (hk : ∀ b, x = .ok b → (migrationOutline run registry start).Safe i (k b) (Ends R) w) :
    (migrationOutline run registry start).Safe i ((MigrationM.inTransaction x).bind k) (Ends R)
      w := by
  cases x with
  | ok b => exact hk b rfl
  | error error =>
    refine safe_ask .drop (P := fun _ => True) (Q := fun _ _ => True) (.inr trivial)
      (fun _ _ _ _ _ => .inr trivial) ?_ (fun _ _ _ => safe_fail error R)
    rintro u ⟨⟩ v - hinv ⟨-, ⟨hwrites, rfl⟩ | ⟨-, hquiet⟩⟩
    · exact ⟨keeps_released hinv hwrites, trivial⟩
    · exact ⟨keeps_quiet hinv hquiet, trivial⟩

end Calls

/-- The versions read are those that were. -/
theorem versions_ok {read versions : List ℕ} (h : MigrationM.versions read = .ok versions) :
    read = versions := by
  unfold MigrationM.versions at h
  split at h
  · exact Except.ok.inj h
  · cases h

/-- Out of a transaction, what is committed is read. -/
theorem view_of_not_writes {w : MigrationWorld C} {i : ℕ} (h : ¬ w.Writes i) :
    w.view i = w.committed := by
  unfold MigrationWorld.view
  split
  · rename_i j working hwriting
    exact if_neg fun hj : j = i => h ⟨working, by rw [hwriting, hj]⟩
  · rfl

/-! ## One migration -/

variable {i : ℕ} {before rest : List Migration} {migration : Migration}

/-- A migration not recorded is run, recorded and committed. -/
theorem safe_apply {contents : Contents C} {w : MigrationWorld C}
    (hregistry : registry.migrations = before ++ migration :: rest)
    (hsound : InOrder run registry start contents) (htable : contents.rows.isSome)
    (hnext : contents.recorded.length = before.length) (hw : Within i contents contents w) :
    (migrationOutline run registry start).Safe i (MigrationM.apply migration)
      (Ends fun _ u => u.dead i ∨ Between i (before.length + 1) u) w := by
  obtain ⟨rows, hrows⟩ := Option.isSome_iff_exists.1 htable
  -- a statement refused may have lost the transaction with it; the writer is alone either way
  refine safe_ask (.executeBatch migration.sql) (Q := fun answer v => answer = .ok () →
    ∃ after, run migration.sql contents.rest = some after ∧
      Within i contents { contents with rest := after } v) (.inr hw) (Within.lasting i _ _) ?_ ?_
  · rintro u answer v hu hinv ⟨-, working, hwriting, h⟩
    obtain rfl : working = contents := hu.unique hwriting
    obtain ⟨after, rfl, hrun, rfl⟩ | ⟨error, rfl, hlost⟩ := h
    · exact ⟨keeps_workOn hinv hu.alone _, fun _ => ⟨after, hrun, rfl, hu.begun⟩⟩
    · exact ⟨keeps_lost hinv hu.writes hlost, nofun⟩
  intro answer v hran
  refine safe_inTransaction fun _ hok => ?_
  obtain ⟨after, hrun, hwithin⟩ := hran hok
  refine safe_ask .now (Q := fun _ => Within i contents { contents with rest := after })
    (.inr hwithin) (Within.lasting i _ _) ?_ ?_
  · rintro u answer v hu hinv ⟨-, rfl⟩
    exact ⟨keeps_quiet hinv rfl, hu⟩
  intro now v hwithin
  refine safe_inTransaction fun appliedAt _ => ?_
  refine safe_ask (.insert ⟨migration.version, migration.name, appliedAt⟩)
    (Q := fun answer v => answer = .ok () → Within i contents
      ⟨some (rows ++ [⟨migration.version, migration.name, appliedAt⟩]), after⟩ v)
    (.inr hwithin) (Within.lasting i _ _) ?_ ?_
  · rintro u answer v hu hinv ⟨-, working, hwriting, h⟩
    obtain rfl := hu.unique hwriting
    obtain ⟨rows', rfl, hrows', -, rfl⟩ | ⟨error, rfl, hlost⟩ := h
    · obtain rfl := Option.some.inj (hrows.symm.trans hrows')
      exact ⟨keeps_workOn hinv hu.alone _, fun _ => ⟨rfl, hu.begun⟩⟩
    · exact ⟨keeps_lost hinv hu.writes hlost, nofun⟩
  intro answer v hinserted
  refine safe_inTransaction fun _ hok => ?_
  have hwithin := hinserted hok
  -- only the commit lets the others see what was run and recorded
  have hdone : InOrder run registry start
      ⟨some (rows ++ [⟨migration.version, migration.name, appliedAt⟩]), after⟩ :=
    hsound.next hregistry hnext hrows rfl hrun
  have hlength : before.length + 1 ≤ (⟨some (rows ++ [⟨migration.version, migration.name,
      appliedAt⟩]), after⟩ : Contents C).recorded.length := by
    rw [← hnext, Contents.recorded, Contents.recorded, hrows]
    simp
  refine safe_ask .commit (Q := fun answer v => answer = .ok () →
    Between i (before.length + 1) v) (.inr hwithin) (Within.lasting i _ _) ?_ ?_
  · rintro u answer v hu hinv ⟨-, working, hwriting, h⟩
    obtain rfl := hu.unique hwriting
    obtain rfl | ⟨error, rfl, rfl | rfl⟩ := h
    · refine ⟨keeps_commit hinv hu.writes hdone rfl ?_, fun _ => ⟨nofun, rfl, hlength⟩⟩
      rw [hu.begun, hnext]
      exact Nat.le_of_succ_le hlength
    · exact ⟨keeps_quiet hinv rfl, nofun⟩
    · exact ⟨keeps_released hinv hu.writes, nofun⟩
  · intro answer v hcommitted
    exact safe_inTransaction fun _ hok => safe_done (.inr (hcommitted hok)) (Between.lasting i _) _

/-- **One migration**, of a process that found all before it recorded, is
recorded when it is done with. -/
theorem safe_applyOne (hregistry : registry.migrations = before ++ migration :: rest)
    {w : MigrationWorld C} (hw : w.dead i ∨ Between i before.length w) :
    (migrationOutline run registry start).Safe i (MigrationM.applyOne migration)
      (Ends fun _ u => u.dead i ∨ Between i (before.length + 1) u) w := by
  -- the transaction opens on contents nobody else is writing
  refine safe_ask .begin (Q := fun answer v => answer = .ok () → ∃ contents,
    InOrder run registry start contents ∧ contents.rows.isSome ∧
      before.length ≤ contents.recorded.length ∧ Within i contents contents v)
    hw (Between.lasting i _) ?_ ?_
  · rintro u answer v hu hinv ⟨-, ⟨rfl, hnone, rfl⟩ | ⟨error, rfl, rfl⟩⟩
    · refine ⟨keeps_workOn hinv ?_ _, fun _ => ⟨_, hinv.sound, hu.table, hu.recorded, rfl, rfl⟩⟩
      rintro k - ⟨working, hwriting⟩
      rw [hnone] at hwriting
      cases hwriting
    · exact ⟨keeps_quiet hinv rfl, nofun⟩
  intro answer v hbegun
  refine safe_ofExcept fun _ hok => ?_
  obtain ⟨contents, hsound, htable, hlength, hwithin⟩ := hbegun hok
  refine safe_ask .selectVersions (Q := fun answer v => Within i contents contents v ∧
    ∀ versions, answer = .ok versions → versions = contents.recorded) (.inr hwithin)
    (Within.lasting i _ _) ?_ ?_
  · rintro u answer v hu hinv ⟨-, rfl, hread⟩
    refine ⟨keeps_quiet hinv rfl, hu, fun versions hok => ?_⟩
    obtain ⟨rows, hrows, rfl⟩ | ⟨error, rfl⟩ := hread
    · have hview : v.view i = contents := by simp [MigrationWorld.view, hu.writing]
      rw [hview] at hrows
      rw [← Except.ok.inj hok, Contents.recorded, hrows]
      rfl
    · cases hok
  rintro answer v ⟨hwithin, hread⟩
  refine safe_inTransaction fun recorded hrecorded => ?_
  obtain ⟨versions, hversions, hread'⟩ := Except.bind_ok hrecorded
  obtain rfl : recorded = contents.recorded :=
    (versions_ok hread').symm.trans (hread versions hversions)
  -- another process may have recorded it since the versions were first read
  by_cases hmem : migration.version ∈ contents.recorded
  · rw [if_pos hmem]
    refine safe_ask .rollback (Q := fun answer v => answer = .ok () →
      Between i (before.length + 1) v) (.inr hwithin) (Within.lasting i _ _) ?_ ?_
    · rintro u answer v hu hinv ⟨-, ⟨hwrites, rfl⟩ | ⟨error, rfl, rfl⟩⟩
      · refine ⟨keeps_released hinv hwrites, fun _ => ⟨nofun, ?_, ?_⟩⟩
        · rwa [MigrationWorld.released, hu.begun]
        · rw [MigrationWorld.released, hu.begun]
          exact (hsound.mem_recorded hregistry).1 hmem
      · exact ⟨keeps_quiet hinv rfl, nofun⟩
    · intro answer v hbetween
      exact safe_inTransaction fun _ hok => safe_done (.inr (hbetween hok)) (Between.lasting i _) _
  · rw [if_neg hmem]
    have hnext : contents.recorded.length = before.length :=
      le_antisymm (not_lt.1 fun hlt => hmem ((hsound.mem_recorded hregistry).2 hlt)) hlength
    exact safe_apply hregistry hsound htable hnext hwithin

/-! ## All of them -/

/-- **The migrations pending**, of a process that found all before them
recorded, are all recorded when it is done with them. -/
theorem safe_applyPending (hregistry : registry.migrations = before ++ rest) (applied : List ℕ)
    {w : MigrationWorld C} (hw : w.dead i ∨ Between i before.length w) :
    (migrationOutline run registry start).Safe i (MigrationM.applyPending rest applied)
      (Ends fun _ u => u.dead i ∨ Between i registry.migrations.length u) w := by
  induction rest generalizing before applied w with
  | nil =>
    rw [hregistry, List.append_nil]
    exact safe_done hw (Between.lasting i _) applied
  | cons migration rest ih =>
    refine .bind ((safe_applyOne hregistry hw).mono fun r u _ hr => ?_)
    cases r with
    | error error => exact nofun
    | ok new =>
      have hsplit : registry.migrations = (before ++ [migration]) ++ rest := by simp [hregistry]
      refine ih hsplit _ ?_
      rw [List.length_append]
      exact hr new rfl

/-- What is not recorded is what comes after. -/
theorem pending_eq {contents : Contents C} (h : InOrder run registry start contents) :
    registry.migrations.filter (fun migration => migration.version ∉ contents.recorded)
      = registry.migrations.drop contents.recorded.length := by
  generalize hn : contents.recorded.length = n
  have hrecorded : contents.recorded = (registry.migrations.take n).map Migration.version := by
    rw [List.prefix_iff_eq_take.1 h.recorded, hn, Registry.versions, List.map_take]
  have horder := registry.oldestFirst
  rw [← List.take_append_drop n registry.migrations, List.map_append, List.pairwise_append] at horder
  nth_rewrite 1 [← List.take_append_drop n registry.migrations]
  rw [List.filter_append, hrecorded, List.filter_eq_nil_iff.2, List.nil_append,
    List.filter_eq_self.2]
  · intro migration hlater
    refine decide_eq_true fun hmem => ?_
    exact absurd (horder.2.2 _ hmem _ (List.mem_map_of_mem hlater)) (lt_irrefl _)
  · intro migration hearlier
    exact fun hnot => of_decide_eq_true hnot (List.mem_map_of_mem hearlier)

theorem notWrites_lasting (i : ℕ) :
    Lasting run registry start i fun w => ¬ w.Writes i :=
  fun _ _ hu hrely _ => .inr (hrely.notMine hu)

/-- Creating the table where no transaction is open, others do not see but that
it is there. -/
theorem keeps_tableCreated {u : MigrationWorld C} (hinv : Migrated run registry start u)
    (hnone : u.writing = none) :
    (migrationOutline run registry start).Keeps i u u.tableCreated := by
  refine ⟨⟨hinv.sound.withTable, hinv.returned⟩, fun k _ => ?_⟩
  have hnot : ¬ u.Writes k := by
    rintro ⟨working, hwriting⟩
    rw [hnone] at hwriting
    cases hwriting
  exact .apart id hnot hnot (fun _ => rfl) (le_refl _)

/-- **A call leaves every migration recorded, or fails.** -/
theorem safe_applyRegistered {w : MigrationWorld C} (hw : ¬ w.Writes i) :
    (migrationOutline run registry start).Safe i (MigrationM.applyRegistered registry.migrations)
      (Ends fun _ u => u.dead i ∨ Between i registry.migrations.length u) w := by
  refine safe_ask .createTable (Q := fun answer v => answer = .ok () → Between i 0 v)
    (.inr hw) (notWrites_lasting i) ?_ ?_
  · rintro u answer v hu hinv ⟨-, ⟨hnone, rfl⟩ | ⟨rfl, htable⟩⟩
    · exact ⟨keeps_tableCreated hinv hnone, fun _ => ⟨hu, rfl, Nat.zero_le _⟩⟩
    · exact ⟨keeps_quiet hinv rfl, fun hok => ⟨hu, htable hok, Nat.zero_le _⟩⟩
  intro answer v hcreated
  refine safe_ofExcept fun _ hok => ?_
  refine safe_ask .selectVersions (Q := fun answer v => ∀ versions,
    answer = .ok versions → ∃ contents, InOrder run registry start contents ∧
      versions = contents.recorded ∧ Between i contents.recorded.length v)
    (.inr (hcreated hok)) (Between.lasting i _) ?_ ?_
  · rintro u answer v hu hinv ⟨-, rfl, hread⟩
    refine ⟨keeps_quiet hinv rfl, fun versions hok => ?_⟩
    obtain ⟨rows, hrows, rfl⟩ | ⟨error, rfl⟩ := hread
    · refine ⟨v.committed, hinv.sound, ?_, hu.free, hu.table, le_refl _⟩
      rw [view_of_not_writes hu.free] at hrows
      rw [← Except.ok.inj hok, Contents.recorded, hrows]
      rfl
    · cases hok
  intro answer v hread
  refine safe_ofExcept fun recorded hrecorded => ?_
  obtain ⟨versions, hversions, hread'⟩ := Except.bind_ok hrecorded
  obtain ⟨contents, hsound, hcontents, hbetween⟩ := hread versions hversions
  obtain rfl : recorded = contents.recorded := (versions_ok hread').symm.trans hcontents
  -- what is recorded is the start of the registry, so what is pending is its rest
  rw [pending_eq hsound]
  refine safe_applyPending (List.take_append_drop contents.recorded.length _).symm [] (.inr ?_)
  have hlength : contents.recorded.length ≤ registry.migrations.length := by
    simpa [Registry.versions] using hsound.recorded.length_le
  rwa [List.length_take, Nat.min_eq_left hlength]

/-- A call's end owes the others nothing but that what it says is so. -/
theorem handover_of_ends {r : Except StoreError (List ℕ)} {w : MigrationWorld C}
    (hinv : Migrated run registry start w)
    (h : Ends (fun _ u => u.dead i ∨ Between i registry.migrations.length u) r w) :
    (migrationOutline run registry start).handover i r w := by
  rintro w' ⟨hlive, rfl⟩
  refine ⟨⟨hinv.sound, ?_⟩, fun k _ => ⟨id, fun _ hw => .inr ⟨hw, rfl⟩, id, id, le_refl _⟩⟩
  rintro (hreturned | hok)
  · exact hinv.returned hreturned
  cases r with
  | error error => cases hok
  | ok applied =>
    rcases h applied rfl with hdead | hbetween
    · exact absurd hdead hlive
    · refine hinv.sound.recorded.eq_of_length (le_antisymm hinv.sound.recorded.length_le ?_)
      simpa [Registry.versions] using hbetween.recorded

/-- A process that dies takes its transaction with it, and nothing else. -/
theorem beside_of_death (k : ℕ) (w : MigrationWorld C) : Beside k w { w with
    dead := fun j => j = i ∨ w.dead j
    writing := w.writing.filter fun writing => writing.1 ≠ i } where
  dead := .inr
  mine working hwriting := by
    by_cases hk : k = i
    · exact .inl (.inl hk)
    · exact .inr ⟨by simp [hwriting, hk], rfl⟩
  notMine hnot := fun ⟨working, hwriting⟩ =>
    hnot ⟨working, (Option.filter_eq_some_iff.1 hwriting).1⟩
  table := id
  grown := le_refl _

theorem migrationOutline_valid (hstart : start.recorded <+: registry.versions) :
    (migrationOutline run registry start).Valid where
  init := by
    rintro w rfl
    exact ⟨.of_start hstart, False.elim⟩
  env := by
    rintro w w' hinv ⟨i, rfl⟩
    exact ⟨⟨hinv.sound, hinv.returned⟩, fun k => beside_of_death k w⟩
  start := by
    rintro i p w w' hinv ⟨-, hfree, rfl, rfl⟩
    exact ⟨keeps_quiet hinv rfl,
      (safe_applyRegistered hfree).mono fun r u hu hr => handover_of_ends hu hr⟩

end Migrating

/-- **Migrations apply once, in order**, whatever processes apply them side by
side and wherever any of them dies. -/
theorem migrations_apply_once (run : String → C → Option C) (registry : Registry)
    (start : Contents C) (hstart : start.recorded <+: registry.versions)
    {s : System.State (fun _ : ℕ => MigrationEffects) StoreError (fun _ => List ℕ)
      (MigrationWorld C)} (hs : (migrationSystem run registry start).Reach s) :
    Migrated run registry start s.world :=
  ((Migrating.migrationOutline_valid hstart).reach hs).inv

end

/-! ## A sample -/

/-- A registry of two migrations. -/
def sampleRegistry : Registry :=
  ⟨[⟨1, "initial", "CREATE TABLE t (id INTEGER)"⟩, ⟨2, "names", "ALTER TABLE t ADD name TEXT"⟩],
    by simp⟩

/-- A database by the statements run on it, none so far. -/
def sampleContents : Contents (List String) := ⟨none, []⟩

/-- A schema that is the list of what was run on it. -/
def sampleRunSql (sql : String) (rest : List String) : Option (List String) := some (rest ++ [sql])

/-- The database with both applied, the first by process 0 and the second by
process 1, and both calls returned. -/
def sampleMigrated : MigrationWorld (List String) where
  committed := ⟨some [⟨1, "initial", 100⟩, ⟨2, "names", 101⟩],
    ["CREATE TABLE t (id INTEGER)", "ALTER TABLE t ADD name TEXT"]⟩
  writing := none
  dead _ := False
  returned := (False ∨ (.ok [1] : Except StoreError (List ℕ)).isOk = true) ∨
    (.ok [2] : Except StoreError (List ℕ)).isOk = true

/-- Two processes read that none is applied, and each finds one already applied
by the other once its transaction is open. -/
theorem migrations_apply_once_sample :
    Migrated sampleRunSql sampleRegistry sampleContents sampleMigrated := by
  have h₀ := System.Reach.init (Y := migrationSystem sampleRunSql sampleRegistry sampleContents)
    (w := ⟨sampleContents, none, fun _ => False, False⟩) rfl
  have h₁ := h₀.start 0 _ rfl ⟨id, nofun, rfl, rfl⟩
  have h₂ := h₁.start 1 _ rfl ⟨id, nofun, rfl, rfl⟩
  have h₃ := h₂.answer 0 .createTable (.ok ()) rfl ⟨id, .inl ⟨rfl, rfl⟩⟩
  have h₄ := h₃.answer 1 .createTable (.ok ()) rfl ⟨id, .inl ⟨rfl, rfl⟩⟩
  have h₅ := h₄.answer 0 .selectVersions (.ok []) rfl ⟨id, rfl, .inl ⟨[], rfl, rfl⟩⟩
  have h₆ := h₅.answer 1 .selectVersions (.ok []) rfl ⟨id, rfl, .inl ⟨[], rfl, rfl⟩⟩
  -- process 0 applies the first
  have h₇ := h₆.answer 0 .begin (.ok ()) rfl ⟨id, .inl ⟨rfl, rfl, rfl⟩⟩
  have h₈ := h₇.answer 0 .selectVersions (.ok []) rfl ⟨id, rfl, .inl ⟨[], rfl, rfl⟩⟩
  have h₉ := h₈.answer 0 (.executeBatch "CREATE TABLE t (id INTEGER)") (.ok ()) rfl
    ⟨id, _, rfl, .inl ⟨_, rfl, rfl, rfl⟩⟩
  have h₁₀ := h₉.answer 0 .now 100 rfl ⟨id, rfl⟩
  have h₁₁ := h₁₀.answer 0 (.insert ⟨1, "initial", 100⟩) (.ok ()) rfl
    ⟨id, _, rfl, .inl ⟨[], rfl, rfl, by decide, rfl⟩⟩
  have h₁₂ := h₁₁.answer 0 .commit (.ok ()) rfl ⟨id, _, rfl, .inl rfl⟩
  -- process 1 finds it applied, and applies the second
  have h₁₃ := h₁₂.answer 1 .begin (.ok ()) rfl ⟨id, .inl ⟨rfl, rfl, rfl⟩⟩
  have h₁₄ := h₁₃.answer 1 .selectVersions (.ok [1]) rfl ⟨id, rfl, .inl ⟨_, rfl, rfl⟩⟩
  have h₁₅ := h₁₄.answer 1 .rollback (.ok ()) rfl ⟨id, .inl ⟨⟨_, rfl⟩, rfl⟩⟩
  have h₁₆ := h₁₅.answer 1 .begin (.ok ()) rfl ⟨id, .inl ⟨rfl, rfl, rfl⟩⟩
  have h₁₇ := h₁₆.answer 1 .selectVersions (.ok [1]) rfl ⟨id, rfl, .inl ⟨_, rfl, rfl⟩⟩
  have h₁₈ := h₁₇.answer 1 (.executeBatch "ALTER TABLE t ADD name TEXT") (.ok ()) rfl
    ⟨id, _, rfl, .inl ⟨_, rfl, rfl, rfl⟩⟩
  have h₁₉ := h₁₈.answer 1 .now 101 rfl ⟨id, rfl⟩
  have h₂₀ := h₁₉.answer 1 (.insert ⟨2, "names", 101⟩) (.ok ()) rfl
    ⟨id, _, rfl, .inl ⟨_, rfl, rfl, by decide, rfl⟩⟩
  have h₂₁ := h₂₀.answer 1 .commit (.ok ()) rfl ⟨id, _, rfl, .inl rfl⟩
  -- which process 0 finds applied in turn
  have h₂₂ := h₂₁.answer 0 .begin (.ok ()) rfl ⟨id, .inl ⟨rfl, rfl, rfl⟩⟩
  have h₂₃ := h₂₂.answer 0 .selectVersions (.ok [1, 2]) rfl ⟨id, rfl, .inl ⟨_, rfl, rfl⟩⟩
  have h₂₄ := h₂₃.answer 0 .rollback (.ok ()) rfl ⟨id, .inl ⟨⟨_, rfl⟩, rfl⟩⟩
  have h₂₅ := h₂₄.done 0 (a := [1]) rfl ⟨id, rfl⟩
  have h := h₂₅.done 1 (a := [2]) (w := sampleMigrated) rfl ⟨id, rfl⟩
  exact migrations_apply_once sampleRunSql sampleRegistry sampleContents List.nil_prefix h

end Dependaboard
