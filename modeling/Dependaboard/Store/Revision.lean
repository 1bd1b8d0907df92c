import Dependaboard.Store.Statements
/-!
# Store — the revision counters

Two migrations create the triggers that keep the counters, the second in
place of three of the first: `triggers` is what stands when both have run,
and `fire` what a row's change moves. The projection's tables carry the
counters with each statement; `moved_apply` is that every statement moves
them by the triggers of the rows it changes, the cascade's included, and
`revision_follows` is what that makes of each of the six writes.
-/

namespace Dependaboard

open Durable Relational

/-! ## Triggers -/

/-- A table of the read model. -/
inductive ReadTable where
  | pullRequests
  | repositories
  deriving DecidableEq, Repr

/-- What a trigger fires after, of a row. -/
inductive RowEvent where
  | insert
  | update
  | delete
  deriving DecidableEq, Repr

/-- `CREATE TRIGGER … AFTER … ON … BEGIN UPDATE projection_revision SET … END`:
what it adds to each counter. -/
structure Trigger where
  name : String
  event : RowEvent
  table : ReadTable
  adds : ProjectionRevision
  deriving DecidableEq, Repr

/-- What a migration does to the triggers. -/
inductive TriggerStatement where
  | create (trigger : Trigger)
  | drop (name : String)
  deriving DecidableEq, Repr

/-- The triggers behind a statement, where it can be run. -/
def TriggerStatement.run (triggers : List Trigger) : TriggerStatement → Option (List Trigger)
  | create trigger =>
    if triggers.any (·.name = trigger.name) then none else some (triggers ++ [trigger])
  | drop name =>
    if triggers.any (·.name = name) then some (triggers.filter (·.name ≠ name)) else none

namespace Migrations

/-- `0004_projection_revision.sql`. -/
def projectionRevision : List TriggerStatement :=
  [.create ⟨"projection_revision_pr_insert", .insert, .pullRequests, ⟨1, 0⟩⟩,
    .create ⟨"projection_revision_pr_update", .update, .pullRequests, ⟨1, 0⟩⟩,
    .create ⟨"projection_revision_pr_delete", .delete, .pullRequests, ⟨1, 0⟩⟩,
    .create ⟨"projection_revision_repo_insert", .insert, .repositories, ⟨1, 0⟩⟩,
    .create ⟨"projection_revision_repo_update", .update, .repositories, ⟨1, 0⟩⟩,
    .create ⟨"projection_revision_repo_delete", .delete, .repositories, ⟨1, 0⟩⟩]

/-- `0007_pull_request_revision.sql`. -/
def pullRequestRevision : List TriggerStatement :=
  [.drop "projection_revision_pr_insert",
    .drop "projection_revision_pr_update",
    .drop "projection_revision_pr_delete",
    .create ⟨"projection_revision_pr_insert", .insert, .pullRequests, ⟨1, 1⟩⟩,
    .create ⟨"projection_revision_pr_update", .update, .pullRequests, ⟨1, 1⟩⟩,
    .create ⟨"projection_revision_pr_delete", .delete, .pullRequests, ⟨1, 1⟩⟩]

end Migrations

/-- The triggers of a migrated database. -/
def triggers : List Trigger :=
  ((Migrations.projectionRevision ++ Migrations.pullRequestRevision).foldlM
    TriggerStatement.run []).getD []

/-- The row event a change is. -/
def rowEvent {ρ : Type} : Change ρ → RowEvent
  | .inserted _ => .insert
  | .rewritten _ _ => .update
  | .deleted _ => .delete

namespace RowChange

/-- The table a change is of; its triggers are the ones that may fire. -/
def table : RowChange → ReadTable
  | pullRequest _ => .pullRequests
  | repository _ => .repositories

/-- The event a change fires the triggers of, whichever table it is of. -/
def event : RowChange → RowEvent
  | pullRequest change => rowEvent change
  | repository change => rowEvent change

/-- The change, of a pull request's row. -/
def ofPullRequest : RowChange → Option (Change PrRecord)
  | pullRequest change => some change
  | repository _ => none

/-- The change, of a repository's row. -/
def ofRepository : RowChange → Option (Change RepoRecord)
  | pullRequest _ => none
  | repository change => some change

end RowChange

/-- The counters behind a row's change: every trigger of its table and event
has fired. -/
def ProjectionRevision.fire (revision : ProjectionRevision) (change : RowChange) :
    ProjectionRevision :=
  (triggers.filter fun trigger => trigger.table = change.table ∧ trigger.event = change.event).foldl
    (fun revision trigger => ⟨revision.projection + trigger.adds.projection,
      revision.pullRequests + trigger.adds.pullRequests⟩) revision

namespace ProjectionRevision

variable (revision : ProjectionRevision)

/-- One trigger stands for each event of each table. -/
theorem triggers_eq : triggers =
    [⟨"projection_revision_repo_insert", .insert, .repositories, ⟨1, 0⟩⟩,
      ⟨"projection_revision_repo_update", .update, .repositories, ⟨1, 0⟩⟩,
      ⟨"projection_revision_repo_delete", .delete, .repositories, ⟨1, 0⟩⟩,
      ⟨"projection_revision_pr_insert", .insert, .pullRequests, ⟨1, 1⟩⟩,
      ⟨"projection_revision_pr_update", .update, .pullRequests, ⟨1, 1⟩⟩,
      ⟨"projection_revision_pr_delete", .delete, .pullRequests, ⟨1, 1⟩⟩] := by
  decide

theorem fire_pullRequest (change : Change PrRecord) :
    revision.fire (.pullRequest change) = revision.pullRequestRows 1 := by
  rw [fire, triggers_eq]
  cases change <;> rfl

theorem fire_repository (change : Change RepoRecord) :
    revision.fire (.repository change) = revision.repositoryRows 1 := by
  rw [fire, triggers_eq]
  cases change <;> rfl

/-- **What a list of changes moves the counters by**: the projection's by each,
the pull requests' by theirs. -/
theorem foldl_fire (changes : List RowChange) : changes.foldl fire revision
    = ⟨revision.projection + changes.length,
      revision.pullRequests + (changes.filterMap RowChange.ofPullRequest).length⟩ := by
  induction changes generalizing revision with
  | nil => rfl
  | cons change rest ih =>
    rw [List.foldl_cons, ih]
    cases change with
    | pullRequest change =>
      simp only [fire_pullRequest, pullRequestRows, RowChange.ofPullRequest, List.filterMap_cons,
        List.length_cons, ProjectionRevision.mk.injEq]
      omega
    | repository change =>
      simp only [fire_repository, repositoryRows, RowChange.ofPullRequest, List.filterMap_cons,
        List.length_cons, ProjectionRevision.mk.injEq, and_true]
      omega

end ProjectionRevision

/-! ## Statements -/

/-- **The changes account for what became of the read model**, and the counters
moved by their triggers. -/
structure Moved (before : Store) (changes : List RowChange) (after : Store) : Prop where
  pullRequests : Log PrRecord.key (changes.filterMap RowChange.ofPullRequest)
    before.pullRequests.rows after.pullRequests.rows
  repositories : Log RepoRecord.repositoryId (changes.filterMap RowChange.ofRepository)
    before.repositories.rows after.repositories.rows
  revision : after.revision = changes.foldl ProjectionRevision.fire before.revision

namespace Moved

theorem refl (store : Store) : Moved store [] store := ⟨rfl, rfl, rfl⟩

theorem trans {a b c : Store} {first second : List RowChange} (h : Moved a first b)
    (h' : Moved b second c) : Moved a (first ++ second) c where
  pullRequests := by
    rw [List.filterMap_append]
    exact h.pullRequests.append h'.pullRequests
  repositories := by
    rw [List.filterMap_append]
    exact h.repositories.append h'.repositories
  revision := by rw [h'.revision, h.revision, List.foldl_append]

end Moved

@[simp] theorem ofPullRequest_pullRequests (changes : List (Change PrRecord)) :
    (changes.map RowChange.pullRequest).filterMap RowChange.ofPullRequest = changes := by
  simp [List.filterMap_map, Function.comp_def, RowChange.ofPullRequest]

@[simp] theorem ofRepository_pullRequests (changes : List (Change PrRecord)) :
    (changes.map RowChange.pullRequest).filterMap RowChange.ofRepository = [] := by
  simp [List.filterMap_map, Function.comp_def, RowChange.ofRepository]

@[simp] theorem ofPullRequest_repositories (changes : List (Change RepoRecord)) :
    (changes.map RowChange.repository).filterMap RowChange.ofPullRequest = [] := by
  simp [List.filterMap_map, Function.comp_def, RowChange.ofPullRequest]

@[simp] theorem ofRepository_repositories (changes : List (Change RepoRecord)) :
    (changes.map RowChange.repository).filterMap RowChange.ofRepository = changes := by
  simp [List.filterMap_map, Function.comp_def, RowChange.ofRepository]

theorem moved_writePullRequest (store : Store) (pr : PrRecord)
    (h : (store.repository? pr.repositoryId).isSome) :
    Moved store [.pullRequest (.upserted (store.row? pr.key) pr.derived)]
      (store.writePullRequest pr h) where
  pullRequests := by
    have hlog := log_upsert store.pullRequests pr.derived
    rw [PrRecord.derived_key] at hlog
    exact hlog
  repositories := rfl
  revision := by rw [ProjectionRevision.foldl_fire]; rfl

/-- The changes of a delete are those of its table. -/
theorem map_deleted_pullRequest (rows : List PrRecord) :
    rows.map (fun row => RowChange.pullRequest (.deleted row))
      = (rows.map Change.deleted).map .pullRequest := by
  rw [List.map_map]
  rfl

theorem map_deleted_repository (repos : List RepoRecord) :
    repos.map (fun repo => RowChange.repository (.deleted repo))
      = (repos.map Change.deleted).map .repository := by
  rw [List.map_map]
  rfl

theorem moved_deletePullRequests (store : Store) (p : PrRecord → Bool) :
    Moved store ((store.pullRequests.rows.filter p).map fun row => .pullRequest (.deleted row))
      (store.deletePullRequests p) := by
  rw [map_deleted_pullRequest]
  refine ⟨?_, ?_, ?_⟩
  · rw [ofPullRequest_pullRequests]
    exact log_delete store.pullRequests p
  · rw [ofRepository_pullRequests]
    rfl
  · rw [ProjectionRevision.foldl_fire, ofPullRequest_pullRequests]
    simp [Store.deletePullRequests, ProjectionRevision.pullRequestRows]

theorem moved_writeRepository (store : Store) (repo : RepoRecord) :
    Moved store [.repository (.upserted (store.repository? repo.repositoryId) repo)]
      (store.writeRepository repo) where
  pullRequests := rfl
  repositories := log_upsert store.repositories repo
  revision := by rw [ProjectionRevision.foldl_fire]; rfl

theorem moved_deleteRepositories (store : Store) (predicate : RepoRecord → Bool) :
    Moved store
      ((store.repositories.rows.filter predicate).map (fun repo => .repository (.deleted repo))
        ++ (store.pullRequests.rows.filter (store.hangsOff predicate)).map
          fun row => .pullRequest (.deleted row))
      (store.deleteRepositories predicate) := by
  rw [map_deleted_repository, map_deleted_pullRequest]
  refine ⟨?_, ?_, ?_⟩
  · rw [List.filterMap_append, ofPullRequest_repositories, ofPullRequest_pullRequests,
      List.nil_append]
    exact log_delete store.pullRequests _
  · rw [List.filterMap_append, ofRepository_repositories, ofRepository_pullRequests,
      List.append_nil]
    exact log_delete store.repositories _
  · rw [ProjectionRevision.foldl_fire, List.filterMap_append, ofPullRequest_repositories,
      ofPullRequest_pullRequests]
    simp only [Store.deleteRepositories, ProjectionRevision.repositoryRows,
      ProjectionRevision.pullRequestRows, List.length_append, List.length_map, List.nil_append,
      ProjectionRevision.mk.injEq, and_true]
    omega

/-- **Every statement moves the counters by the triggers of the rows it
changes**, those the foreign key cascades to included. -/
theorem moved_apply {returning : Returning} {write : SqlWrite} {store store' : Store}
    {answer : write.Answer} (h : write.apply returning store = .ok (answer, store')) :
    Moved store (write.changes store) store' := by
  cases write with
  | upsertPullRequest pr =>
    rw [SqlWrite.apply] at h
    split at h
    · cases h
      exact moved_writePullRequest store pr _
    · cases h
  | deletePullRequest id =>
    cases h
    exact moved_deletePullRequests store _
  | prunePullRequests sql params =>
    cases h
    exact moved_deletePullRequests store _
  | prunePullRequestsOf sql params =>
    cases h
    exact moved_deletePullRequests store _
  | upsertRepository repo =>
    cases h
    exact moved_writeRepository store repo
  | deleteRepositories sql params =>
    cases h
    exact moved_deleteRepositories store _
  | insertRetirement key syncedBefore =>
    cases h
    exact ⟨rfl, rfl, rfl⟩

/-- **A run of statements moves the counters by the triggers of the rows it
changed.** -/
theorem moved_evaluate {codec : OutcomeCodec} {returning : Returning} {α : Type} {p : SqlM α}
    {a : α} {db db' : Database codec}
    (h : evaluate (SqlWrite.step returning) p db = .ok (a, db')) :
    ∃ changes, db'.changed = db.changed ++ changes ∧
      Moved db.projection changes db'.projection := by
  refine evaluate_keeps (R := fun db db' : Database codec => ∃ changes,
    db'.changed = db.changed ++ changes ∧ Moved db.projection changes db'.projection) ?_ ?_ ?_ h
  · exact fun db => ⟨[], (List.append_nil _).symm, .refl _⟩
  · rintro a b c ⟨first, hfirst, hmoved⟩ ⟨second, hsecond, hmoved'⟩
    exact ⟨first ++ second, by rw [hsecond, hfirst, List.append_assoc], hmoved.trans hmoved'⟩
  · intro write db answer db' hstep
    obtain ⟨happly, -, hchanged⟩ := SqlWrite.step_ok returning hstep
    exact ⟨_, hchanged, moved_apply happly⟩

/-! ## Writes -/

/-- A write of the projection. -/
inductive ProjectionWrite where
  | upsertPr (pr : PrRecord)
  | deletePr (key : PrKey)
  | retainPrs (repositoryId : ℕ) (live : List ℕ) (syncedBefore : ℕ)
  | upsertRepo (repo : RepoRecord)
  | replaceInstallationRepos (installationId : ℕ) (repos : List RepoRecord) (syncedBefore : ℕ)
  | purgeInstallation (installationId : ℕ)
  deriving DecidableEq, Repr

namespace ProjectionWrite

/-- What each answers. -/
@[reducible] def Answer : ProjectionWrite → Type
  | upsertPr _ | deletePr _ | upsertRepo _ => Unit
  | _ => List PrKey

/-- The statements of each. -/
def statements : (write : ProjectionWrite) → SqlM write.Answer
  | upsertPr pr => ProjectionWriter.upsertPr pr
  | deletePr key => ProjectionWriter.deletePr key
  | retainPrs repositoryId live syncedBefore =>
    ProjectionWriter.retainPrsOn repositoryId live syncedBefore
  | upsertRepo repo => ProjectionWriter.upsertRepo repo
  | replaceInstallationRepos installationId repos syncedBefore =>
    ProjectionWriter.replaceInstallationRepos installationId repos syncedBefore
  | purgeInstallation installationId => ProjectionWriter.purgeInstallation installationId

/-- Whether they are run in a transaction. -/
def transacted : ProjectionWrite → Bool
  | upsertPr _ | deletePr _ | upsertRepo _ => false
  | _ => true

variable {codec : OutcomeCodec}

/-- A write made, any of its statements refused. -/
def commit (returning : Returning) (refusals : ℕ → Option StoreError) (write : ProjectionWrite)
    (db : Database codec) : Except StoreError write.Answer × Database codec :=
  if write.transacted then transaction (SqlWrite.step returning) refusals write.statements db
  else autocommit (SqlWrite.step returning) refusals write.statements db

/-- **A write commits whole or fails with the database as it was.** -/
theorem commit_cases (returning : Returning) (refusals : ℕ → Option StoreError)
    (write : ProjectionWrite) (db : Database codec) :
    (∃ answer db', write.commit returning refusals db = (.ok answer, db') ∧
        evaluate (SqlWrite.step returning) write.statements db = .ok (answer, db')) ∨
      ∃ e, write.commit returning refusals db = (.error e, db) := by
  have halone {β : Type} (checks : Except StoreError β) (op : β → SqlWrite) :
      (∃ answer db', autocommit (SqlWrite.step returning) refusals
          (once (S := SqlWrites) checks op) db = (.ok answer, db') ∧
          evaluate (SqlWrite.step returning) (once (S := SqlWrites) checks op) db
            = .ok (answer, db')) ∨
        ∃ e, autocommit (SqlWrite.step returning) refusals (once (S := SqlWrites) checks op) db
          = (.error e, db) := by
    rcases autocommit_once (SqlWrite.step returning) refusals checks op db with
      ⟨db', hrun⟩ | herror
    · exact .inl ⟨(), db', hrun⟩
    · exact .inr herror
  cases write with
  | upsertPr pr => exact halone _ _
  | deletePr key => exact halone _ _
  | upsertRepo repo => exact halone _ _
  | retainPrs repositoryId live syncedBefore => exact transaction_cases _ refusals _ db
  | replaceInstallationRepos installationId repos syncedBefore =>
    exact transaction_cases _ refusals _ db
  | purgeInstallation installationId => exact transaction_cases _ refusals _ db

end ProjectionWrite

/-- **The counters follow the rows.** The changes of a write that commits
account for the read model's tables, the cascade's included: neither counter
falls, the projection's rises where a row differs, and the pull requests'
exactly where one of theirs was inserted, rewritten or deleted. A write that
fails leaves both, and all else. -/
theorem revision_follows {codec : OutcomeCodec} (returning : Returning)
    (refusals : ℕ → Option StoreError) (write : ProjectionWrite) (db : Database codec) :
    match write.commit returning refusals db with
    | (.ok _, db') => ∃ changes, db'.changed = db.changed ++ changes ∧
        Moved db.projection changes db'.projection ∧
        db.projection.revision.projection ≤ db'.projection.revision.projection ∧
        db.projection.revision.pullRequests ≤ db'.projection.revision.pullRequests ∧
        (db'.projection.pullRequests.rows ≠ db.projection.pullRequests.rows ∨
            db'.projection.repositories.rows ≠ db.projection.repositories.rows →
          db.projection.revision.projection < db'.projection.revision.projection) ∧
        (db.projection.revision.pullRequests < db'.projection.revision.pullRequests ↔
          ∃ change, .pullRequest change ∈ changes)
    | (.error _, db') => db' = db := by
  rcases write.commit_cases returning refusals db with ⟨answer, db', hcommit, hrun⟩ | ⟨e, hcommit⟩
  · rw [hcommit]
    obtain ⟨changes, hchanged, hmoved⟩ := moved_evaluate hrun
    have hrevision := hmoved.revision
    rw [ProjectionRevision.foldl_fire] at hrevision
    refine ⟨changes, hchanged, hmoved, ?_, ?_, ?_, ?_⟩
    · rw [hrevision]
      exact Nat.le_add_right _ _
    · rw [hrevision]
      exact Nat.le_add_right _ _
    · intro hdiffers
      rw [hrevision]
      refine Nat.lt_add_of_pos_right (List.length_pos_of_ne_nil ?_)
      -- a log without changes leaves the tables as they were
      rintro rfl
      exact hdiffers.elim (fun hne => hne hmoved.pullRequests) fun hne => hne hmoved.repositories
    · rw [hrevision]
      simp only [Nat.lt_add_right_iff_pos, List.length_pos_iff_exists_mem, List.mem_filterMap]
      constructor
      · rintro ⟨change, moved, hmem, hof⟩
        cases moved with
        | pullRequest pr => exact ⟨pr, hmem⟩
        | repository repo => cases hof
      · rintro ⟨change, hmem⟩
        exact ⟨change, .pullRequest change, hmem, rfl⟩
  · rw [hcommit]

end Dependaboard
