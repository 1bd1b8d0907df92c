import Dependaboard.Relational.Changes
import Dependaboard.Relational.Query
import Dependaboard.Relational.Transaction
import Dependaboard.Store.Batches
import Dependaboard.Store.Prune
/-!
# Store — the writes, statement by statement

The projection's six writes as the statements they send: what each binds, the
places its text takes its parameters from, and the rows it changes, the
cascade's included. A prune is run in a transaction, and the other writes are
one statement each. `evaluate_retainPrs` and its siblings are that the
statements of a write come to what the write does to the tables.
-/

namespace Dependaboard

open Durable Relational

/-! ## What a statement changes -/

/-- What became of one row of the read model. -/
inductive RowChange where
  | pullRequest (change : Change PrRecord)
  | repository (change : Change RepoRecord)
  deriving DecidableEq, Repr

/-- The database: the projection, the audit tables beside it, and the rows of
the read model its statements have changed, oldest first. -/
structure Database (codec : OutcomeCodec) where
  projection : Store
  audit : BatchTables codec
  changed : List RowChange

/-! ## The text of a prune -/

/-- The `WHERE` of a prune over a table's key and stamp, with the places of
its parameters: `key = ?`, `synced_at < ?` and `… NOT IN (?, …)`. -/
structure PruneWhere where
  key : ℕ
  syncedBefore : Option ℕ
  spared : Option (List ℕ)
  deriving DecidableEq, Repr

/-- The parameter at a place. -/
def paramAt (params : List ℕ) (place : ℕ) : Option ℕ := params[place - 1]?

/-- Whether a row is selected, run with the parameters. A comparison with a
parameter that is not bound does not hold. -/
def PruneWhere.selects (sql : PruneWhere) (params : List ℕ) (key syncedAt spared : ℕ) : Bool :=
  (do
    let bound ← paramAt params sql.key
    let fence ← sql.syncedBefore.mapM (paramAt params)
    let list ← sql.spared.mapM fun places : List ℕ => places.mapM (paramAt params)
    return decide (key = bound ∧ (∀ before ∈ fence, syncedAt < before) ∧
      ∀ live ∈ list, spared ∉ live)).getD false

/-- Push `live` behind the parameters, each taking its place: the places, and
the parameters then. -/
def pushLive : List ℕ → List ℕ → Except StoreError (List ℕ × List ℕ)
  | [], params => .ok ([], params)
  | number :: rest, params => do
    let pushed := params ++ [← integer number]
    let (places, params) ← pushLive rest pushed
    return (pushed.length :: places, params)

/-- The clause that spares `live`, and the parameters with it; an empty list
spares nothing and has no clause. -/
def liveClause (live params : List ℕ) : Except StoreError (Option (List ℕ) × List ℕ) := do
  if live = [] then return (none, params)
  let (places, params) ← pushLive live params
  return (some places, params)

/-! ## The statements -/

/-- A statement that writes the projection. -/
inductive SqlWrite where
  /-- `INSERT INTO pull_requests … ON CONFLICT(id) DO UPDATE`. -/
  | upsertPullRequest (pr : PrRecord)
  /-- `DELETE FROM pull_requests WHERE id = ?1`. -/
  | deletePullRequest (id : String)
  /-- `DELETE FROM pull_requests WHERE … RETURNING repository_id, number`,
  over the pull requests' own columns. -/
  | prunePullRequests (sql : PruneWhere) (params : List ℕ)
  /-- The same, `WHERE repository_id IN (SELECT repository_id FROM
  repositories WHERE …)`. -/
  | prunePullRequestsOf (sql : PruneWhere) (params : List ℕ)
  /-- `INSERT INTO repositories … ON CONFLICT(repository_id) DO UPDATE`. -/
  | upsertRepository (repo : RepoRecord)
  /-- `DELETE FROM repositories WHERE …`. -/
  | deleteRepositories (sql : PruneWhere) (params : List ℕ)
  /-- `INSERT INTO pull_request_retirements`. -/
  | insertRetirement (key : PrKey) (syncedBefore : Option ℕ)
  deriving DecidableEq, Repr

/-- What each gives back: a prune the keys it removed. -/
@[reducible] def SqlWrite.Answer : SqlWrite → Type
  | prunePullRequests _ _ | prunePullRequestsOf _ _ => List PrKey
  | _ => Unit

/-- The interface of the writes. -/
@[reducible] def SqlWrites : Signature := ⟨SqlWrite, SqlWrite.Answer⟩

/-- The order a `RETURNING` hands its rows back in: any. -/
structure Returning where
  order : List PrKey → List PrKey
  perm : ∀ keys, (order keys).Perm keys

/-- The repository is one the prune selects. -/
def PruneWhere.repository (sql : PruneWhere) (params : List ℕ) (repo : RepoRecord) : Bool :=
  sql.selects params repo.installationId repo.syncedAt repo.repositoryId

/-- The pull request is one the prune selects. -/
def PruneWhere.pullRequest (sql : PruneWhere) (params : List ℕ) (row : PrRecord) : Bool :=
  sql.selects params row.repositoryId row.syncedAt row.number

namespace SqlWrite

variable (returning : Returning)

/-- What a statement does to the projection, and gives back. -/
def apply : (write : SqlWrite) → Store → Except StoreError (write.Answer × Store)
  | upsertPullRequest pr, store =>
    if h : (store.repository? pr.repositoryId).isSome then .ok ((), store.writePullRequest pr h)
    else .error (.database foreignKeyCode)
  | deletePullRequest id, store => .ok ((), store.deletePullRequests fun row => row.id = id)
  | prunePullRequests sql params, store =>
    .ok (returning.order ((store.pullRequests.rows.filter (sql.pullRequest params)).map
      PrRecord.key), store.deletePullRequests (sql.pullRequest params))
  | prunePullRequestsOf sql params, store =>
    .ok (returning.order ((store.pullRequests.rows.filter
      (store.hangsOff (sql.repository params))).map PrRecord.key),
      store.deletePullRequests (store.hangsOff (sql.repository params)))
  | upsertRepository repo, store => .ok ((), store.writeRepository repo)
  | deleteRepositories sql params, store =>
    .ok ((), store.deleteRepositories (sql.repository params))
  | insertRetirement key syncedBefore, store => .ok ((), store.insertRetirement key syncedBefore)

/-- The rows of the read model it changes, those the foreign key cascades to
behind the repository each hangs off. -/
def changes : SqlWrite → Store → List RowChange
  | upsertPullRequest pr, store =>
    [.pullRequest (.upserted (store.row? pr.key) pr.derived)]
  | deletePullRequest id, store =>
    (store.pullRequests.rows.filter fun row => row.id = id).map fun row =>
      .pullRequest (.deleted row)
  | prunePullRequests sql params, store =>
    (store.pullRequests.rows.filter (sql.pullRequest params)).map fun row =>
      .pullRequest (.deleted row)
  | prunePullRequestsOf sql params, store =>
    (store.pullRequests.rows.filter (store.hangsOff (sql.repository params))).map fun row =>
      .pullRequest (.deleted row)
  | upsertRepository repo, store =>
    [.repository (.upserted (store.repository? repo.repositoryId) repo)]
  | deleteRepositories sql params, store =>
    (store.repositories.rows.filter (sql.repository params)).map (fun repo =>
        .repository (.deleted repo))
      ++ (store.pullRequests.rows.filter (store.hangsOff (sql.repository params))).map fun row =>
        .pullRequest (.deleted row)
  | insertRetirement _ _, _ => []

/-- A statement run on the database. -/
def step {codec : OutcomeCodec} : Statements SqlWrites StoreError (Database codec) :=
  fun write db => (write.apply returning db.projection).map fun result =>
    (result.1, { db with
      projection := result.2
      changed := db.changed ++ write.changes db.projection })

/-- What a statement that ran has done. -/
theorem step_ok {codec : OutcomeCodec} {write : SqlWrite} {db db' : Database codec}
    {answer : write.Answer} (h : write.step returning db = .ok (answer, db')) :
    write.apply returning db.projection = .ok (answer, db'.projection) ∧
      db'.audit = db.audit ∧ db'.changed = db.changed ++ write.changes db.projection := by
  unfold step at h
  cases happly : write.apply returning db.projection with
  | error e =>
    rw [happly] at h
    cases h
  | ok result =>
    rw [happly] at h
    cases h
    exact ⟨rfl, rfl, rfl⟩

end SqlWrite

/-! ## The writes -/

/-- A write of the projection. -/
abbrev SqlM (α : Type) : Type := Prog SqlWrites StoreError α

namespace ProjectionWriter

/-- Bind an integer of a statement. -/
def bound (value : ℕ) : SqlM ℕ := Prog.ofExcept (integer value)

/-- The integers a pull request's write binds. -/
def prParams (pr : PrRecord) : Except StoreError PrRecord := do
  let _ ← integer pr.repositoryId
  let _ ← integer pr.number
  let _ ← integer pr.createdAt
  let _ ← integer pr.updatedAt
  let _ ← integer pr.syncedAt
  return pr

/-- One statement, once its integers fit. -/
def upsertPr (pr : PrRecord) : SqlM Unit :=
  once (S := SqlWrites) (prParams pr) .upsertPullRequest

/-- One statement, by the row's `id`; the triggers are the database's. -/
def deletePr (key : PrKey) : SqlM Unit :=
  once (S := SqlWrites) (.ok (toString key)) .deletePullRequest

/-- The integers a repository's write binds. -/
def repoParams (repo : RepoRecord) : Except StoreError RepoRecord := do
  let _ ← integer repo.repositoryId
  let _ ← integer repo.installationId
  let _ ← integer repo.syncedAt
  return repo

/-- One statement, once its integers fit. -/
def upsertRepo (repo : RepoRecord) : SqlM Unit :=
  once (S := SqlWrites) (repoParams repo) .upsertRepository

/-- Queue one key under its fence. -/
def queueRetirement (fence : Option ℕ) (key : PrKey) : SqlM Unit := do
  let repositoryId ← bound key.repositoryId
  let number ← bound key.number
  Prog.ask (S := SqlWrites) (.insertRetirement ⟨repositoryId, number⟩ fence) fun _ => .done ()

/-- Queue `keys` under their fence, one statement each, in order. -/
def queueRetirements (keys : List PrKey) (syncedBefore : Option ℕ) : SqlM Unit := do
  let fence ← Prog.ofExcept (syncedBefore.mapM integer)
  Prog.forEach keys (queueRetirement fence)

/-- What keys are sorted by. -/
def keyOrder (key : PrKey) : ℕ ×ₗ ℕ := toLex (key.repositoryId, key.number)

/-- Keys by repository and number: the order rows are returned in is the
database's own. -/
def sortKeys (keys : List PrKey) : List PrKey := orderBy keyOrder keys

/-- The statements of `retain_prs`. -/
def retainPrsOn (repositoryId : ℕ) (live : List ℕ) (syncedBefore : ℕ) : SqlM (List PrKey) := do
  let repository ← bound repositoryId
  let fence ← bound syncedBefore
  let (spared, params) ← Prog.ofExcept (liveClause live [repository, fence])
  let deleted ← Prog.perform (S := SqlWrites) (.prunePullRequests ⟨1, some 2, spared⟩ params)
  let pruned := sortKeys deleted
  queueRetirements pruned (some syncedBefore)
  return pruned

/-- The statements that drop the repositories `sql` selects. -/
def deleteRepositoriesWhere (sql : PruneWhere) (params : List ℕ) (syncedBefore : Option ℕ) :
    SqlM (List PrKey) := do
  let deleted ← Prog.perform (S := SqlWrites) (.prunePullRequestsOf sql params)
  let cascaded := sortKeys deleted
  Prog.perform (S := SqlWrites) (.deleteRepositories sql params)
  queueRetirements cascaded syncedBefore
  return cascaded

/-- The statements that drop the installation's repositories not in `live`. -/
def retainReposOn (installationId : ℕ) (live : List ℕ) (syncedBefore : ℕ) :
    SqlM (List PrKey) := do
  let installation ← bound installationId
  let fence ← bound syncedBefore
  let (spared, params) ← Prog.ofExcept (liveClause live [installation, fence])
  deleteRepositoriesWhere ⟨1, some 2, spared⟩ params (some syncedBefore)

/-- The statements of `replace_installation_repos`. -/
def replaceInstallationRepos (installationId : ℕ) (repos : List RepoRecord) (syncedBefore : ℕ) :
    SqlM (List PrKey) := do
  Prog.forEach repos upsertRepo
  retainReposOn installationId (repos.map (·.repositoryId)) syncedBefore

/-- The statements of `purge_installation`. -/
def purgeInstallation (installationId : ℕ) : SqlM (List PrKey) := do
  let installation ← bound installationId
  deleteRepositoriesWhere ⟨1, none, none⟩ [installation] none

end ProjectionWriter

/-! ## The text of a prune, run -/

/-- The values pushed take the places behind those already there. -/
theorem pushLive_eq (live params : List ℕ) : pushLive live params
    = (live.mapM integer).map fun bound =>
      (List.range' (params.length + 1) bound.length, params ++ bound) := by
  induction live generalizing params with
  | nil => simp [pushLive, pure, Except.pure, Except.map]
  | cons number rest ih =>
    rw [pushLive, List.mapM_cons]
    cases integer number with
    | error e => rfl
    | ok value =>
      show (pushLive rest (params ++ [value])).bind _ = ((rest.mapM integer).bind _).map _
      rw [ih]
      cases rest.mapM integer with
      | error e => rfl
      | ok bound => simp [pure, Except.pure, Except.map, Except.bind, List.range'_succ]

/-- The clause takes the places behind those already there, or is left
out. -/
theorem liveClause_eq (live params : List ℕ) : liveClause live params
    = (live.mapM integer).map fun bound =>
      (if bound = [] then none else some (List.range' (params.length + 1) bound.length),
        params ++ bound) := by
  cases live with
  | nil => simp [liveClause, pure, Except.pure, Except.map]
  | cons number rest =>
    rw [liveClause, if_neg (List.cons_ne_nil _ _), pushLive_eq]
    cases hbound : (number :: rest).mapM integer with
    | error e => rfl
    | ok bound =>
      cases Store.mapM_integers_ok hbound
      rfl

/-- A value is read at its place. -/
theorem mapM_paramAt (params bound : List ℕ) :
    (List.range' (params.length + 1) bound.length).mapM (paramAt (params ++ bound))
      = some bound := by
  induction bound generalizing params with
  | nil => rfl
  | cons value bound ih =>
    have hhead : paramAt (params ++ value :: bound) (params.length + 1) = some value := by
      simp [paramAt]
    have hrest := ih (params ++ [value])
    rw [List.append_assoc, List.singleton_append, List.length_append, List.length_singleton]
      at hrest
    rw [List.length_cons, List.range'_succ, List.mapM_cons, hhead, hrest]
    rfl

/-- A prune whose places are all bound selects by the values there. -/
theorem PruneWhere.selects_eq {sql : PruneWhere} {params : List ℕ} {key : ℕ} {fence : Option ℕ}
    {list : Option (List ℕ)} (hkey : paramAt params sql.key = some key)
    (hfence : sql.syncedBefore.mapM (paramAt params) = some fence)
    (hlist : (sql.spared.mapM fun places : List ℕ => places.mapM (paramAt params)) = some list)
    (rowKey syncedAt number : ℕ) : sql.selects params rowKey syncedAt number
      = decide (rowKey = key ∧ (∀ before ∈ fence, syncedAt < before) ∧
        ∀ live ∈ list, number ∉ live) := by
  simp only [PruneWhere.selects, hkey, hfence, hlist]
  rfl

/-- **A prune's text selects what it spells out**: the rows of its key, stamped
before its fence, that are not live. -/
theorem selects_live (key fence : ℕ) (live : List ℕ) (rowKey syncedAt number : ℕ) :
    PruneWhere.selects
      ⟨1, some 2, if live = [] then none else some (List.range' 3 live.length)⟩
      ([key, fence] ++ live) rowKey syncedAt number
      = decide (rowKey = key ∧ syncedAt < fence ∧ number ∉ live) := by
  have hfence : (some 2).mapM (paramAt ([key, fence] ++ live)) = some (some fence) := rfl
  have hlist : (if live = [] then none else some (List.range' 3 live.length)).mapM
      (fun places : List ℕ => places.mapM (paramAt ([key, fence] ++ live)))
      = some (if live = [] then none else some live) := by
    split
    · rfl
    · have hplaces := mapM_paramAt [key, fence] live
      simp only [List.length_cons, List.length_nil] at hplaces
      rw [Option.mapM_some, hplaces]
      rfl
  rw [PruneWhere.selects_eq rfl hfence hlist]
  split
  · next hnone => simp [hnone]
  · simp

/-! ## What the writes come to -/

namespace ProjectionWriter

theorem keyOrder_injective : Function.Injective keyOrder := by
  rintro ⟨repositoryId, number⟩ ⟨repositoryId', number'⟩ h
  obtain ⟨hrepository, hnumber⟩ := Prod.mk.inj (toLex.injective h)
  exact congrArg₂ PrKey.mk hrepository hnumber

/-- Keys are sorted as those of deleted rows are. -/
theorem sortKeys_map_key (rows : List PrRecord) :
    sortKeys (rows.map PrRecord.key) = Store.deletedPrKeys rows := by
  unfold sortKeys orderBy Store.deletedPrKeys
  congr 1
  funext a b
  exact propext Prod.Lex.le_iff

/-- The keys handed back are sorted into one list, in whatever order they
came. -/
theorem sortKeys_returned (returning : Returning) (store : Store) (p : PrRecord → Bool) :
    sortKeys (returning.order ((store.pullRequests.rows.filter p).map PrRecord.key))
      = Store.deletedPrKeys (store.pullRequests.rows.filter p) := by
  rw [← sortKeys_map_key]
  refine orderBy_eq_of_perm (returning.perm _) ?_
  refine List.Nodup.map keyOrder_injective ((returning.perm _).nodup_iff.2 ?_)
  exact store.pullRequests.nodup_map_filter p

variable {codec : OutcomeCodec} (returning : Returning)

/-- What a write comes to on the projection is what it comes to on the
database, seen there. -/
theorem evaluate_projection {α : Type} (p : SqlM α) (db : Database codec) :
    evaluate (SqlWrite.apply returning) p db.projection
      = (evaluate (SqlWrite.step returning) p db).map fun result =>
        (result.1, result.2.projection) := by
  refine evaluate_map fun write db => ?_
  rw [SqlWrite.step]
  cases write.apply returning db.projection <;> rfl

theorem evaluate_projection_ok {α : Type} {p : SqlM α} {a : α} {db db' : Database codec}
    (h : evaluate (SqlWrite.step returning) p db = .ok (a, db')) :
    evaluate (SqlWrite.apply returning) p db.projection = .ok (a, db'.projection) := by
  rw [evaluate_projection, h]
  rfl

/-- A write that comes to something on the projection comes to it on the
database. -/
theorem exists_evaluate {α : Type} {p : SqlM α} {a : α} {db : Database codec} {store : Store}
    (h : evaluate (SqlWrite.apply returning) p db.projection = .ok (a, store)) :
    ∃ db' : Database codec, evaluate (SqlWrite.step returning) p db = .ok (a, db') ∧
      db'.projection = store := by
  rw [evaluate_projection] at h
  cases hrun : evaluate (SqlWrite.step returning) p db with
  | error e =>
    rw [hrun] at h
    cases h
  | ok result =>
    rw [hrun] at h
    cases h
    exact ⟨result.2, rfl, rfl⟩

theorem evaluate_upsertPr (store : Store) (pr : PrRecord) :
    evaluate (SqlWrite.apply returning) (upsertPr pr) store
      = (store.upsertPr pr).map fun store => ((), store) := by
  rw [upsertPr, evaluate_once]
  unfold prParams Store.upsertPr
  cases integer pr.repositoryId <;> cases integer pr.number <;> cases integer pr.createdAt <;>
    cases integer pr.updatedAt <;> cases integer pr.syncedAt <;> try rfl
  show (SqlWrite.apply returning (.upsertPullRequest pr) store).map _ = _
  by_cases h : (store.repository? pr.repositoryId).isSome
  · rw [SqlWrite.apply, dif_pos h]
    simp only [bind, Except.bind, dif_pos h]
    rfl
  · rw [SqlWrite.apply, dif_neg h]
    simp only [bind, Except.bind, dif_neg h]
    rfl

theorem evaluate_deletePr (store : Store) (key : PrKey) :
    evaluate (SqlWrite.apply returning) (deletePr key) store = .ok ((), store.deletePr key) := rfl

theorem evaluate_upsertRepo (store : Store) (repo : RepoRecord) :
    evaluate (SqlWrite.apply returning) (upsertRepo repo) store
      = (store.upsertRepo repo).map fun store => ((), store) := by
  rw [upsertRepo, evaluate_once]
  unfold repoParams Store.upsertRepo
  cases integer repo.repositoryId <;> cases integer repo.installationId <;>
    cases integer repo.syncedAt <;> rfl

theorem evaluate_queueRetirements (store : Store) (keys : List PrKey) (fence : Option ℕ) :
    evaluate (SqlWrite.apply returning) (queueRetirements keys fence) store
      = (store.queueRetirements keys fence).map fun store => ((), store) := by
  unfold queueRetirements Store.queueRetirements
  cases fence.mapM integer with
  | error e => rfl
  | ok bound =>
    rw [Prog.ofExcept_ok, Prog.bind_eq, Prog.done_bind, evaluate_forEach]
    have hturn (store : Store) (key : PrKey) :
        (evaluate (SqlWrite.apply returning) (queueRetirement bound key) store).map Prod.snd
          = (do
            let repositoryId ← integer key.repositoryId
            let number ← integer key.number
            return store.insertRetirement ⟨repositoryId, number⟩ bound) := by
      unfold queueRetirement ProjectionWriter.bound
      cases integer key.repositoryId <;> cases integer key.number <;> rfl
    simp only [hturn]
    rfl

/-- Queueing what a statement handed back, and reporting it. -/
theorem evaluate_queued (store : Store) (keys : List PrKey) (fence : Option ℕ) :
    evaluate (SqlWrite.apply returning) ((queueRetirements keys fence).bind fun _ => .done keys)
        store
      = (store.queueRetirements keys fence).map fun store => (keys, store) := by
  rw [evaluate_bind, evaluate_queueRetirements]
  cases store.queueRetirements keys fence <;> rfl

theorem evaluate_retainPrsOn (store : Store) (repositoryId : ℕ) (live : List ℕ)
    (syncedBefore : ℕ) :
    evaluate (SqlWrite.apply returning) (retainPrsOn repositoryId live syncedBefore) store
      = store.retainPrs repositoryId live syncedBefore := by
  unfold retainPrsOn Store.retainPrs Store.retainPrsOn bound
  cases integer repositoryId with
  | error e => rfl
  | ok repository =>
    cases integer syncedBefore with
    | error e => rfl
    | ok fence =>
      simp only [liveClause_eq, Prog.bind_eq, Prog.ofExcept_ok, Prog.done_bind]
      cases live.mapM integer with
      | error e => rfl
      | ok bound =>
        simp only [Except.map, Prog.ofExcept_ok, Prog.done_bind]
        rw [evaluate_bind, evaluate_perform]
        simp only [SqlWrite.apply, Except.bind]
        rw [sortKeys_returned, Prog.pure_eq, evaluate_queued]
        unfold PruneWhere.pullRequest
        simp only [List.length_cons, List.length_nil]
        simp only [Nat.reduceAdd, selects_live]
        rfl

/-- The repositories went by the foreign key's own lights with the pull
requests gone first. -/
theorem evaluate_deleteRepositoriesWhere (store : Store) (sql : PruneWhere) (params : List ℕ)
    (fence : Option ℕ) :
    evaluate (SqlWrite.apply returning) (deleteRepositoriesWhere sql params fence) store
      = store.deleteRepositoriesWhere (sql.repository params) fence := by
  unfold deleteRepositoriesWhere Store.deleteRepositoriesWhere
  rw [Prog.bind_eq, evaluate_bind, evaluate_perform]
  simp only [SqlWrite.apply, Except.bind]
  rw [Prog.bind_eq, evaluate_bind, evaluate_perform]
  simp only [SqlWrite.apply, Except.bind]
  rw [sortKeys_returned, Prog.bind_eq, Prog.pure_eq, evaluate_queued]
  rfl

theorem evaluate_retainReposOn (store : Store) (installationId : ℕ) (live : List ℕ)
    (syncedBefore : ℕ) :
    evaluate (SqlWrite.apply returning) (retainReposOn installationId live syncedBefore) store
      = store.retainReposOn installationId live syncedBefore := by
  unfold retainReposOn Store.retainReposOn bound
  cases integer installationId with
  | error e => rfl
  | ok installation =>
    cases integer syncedBefore with
    | error e => rfl
    | ok fence =>
      simp only [liveClause_eq, Prog.bind_eq, Prog.ofExcept_ok, Prog.done_bind]
      cases live.mapM integer with
      | error e => rfl
      | ok bound =>
        simp only [Except.map, Prog.ofExcept_ok, Prog.done_bind, evaluate_deleteRepositoriesWhere]
        unfold PruneWhere.repository
        simp only [List.length_cons, List.length_nil]
        simp only [Nat.reduceAdd, selects_live]
        rfl

theorem evaluate_replaceInstallationRepos (store : Store) (installationId : ℕ)
    (repos : List RepoRecord) (syncedBefore : ℕ) :
    evaluate (SqlWrite.apply returning)
        (replaceInstallationRepos installationId repos syncedBefore) store
      = store.replaceInstallationRepos installationId repos syncedBefore := by
  unfold replaceInstallationRepos Store.replaceInstallationRepos
  have hturn (store : Store) (repo : RepoRecord) :
      (evaluate (SqlWrite.apply returning) (upsertRepo repo) store).map Prod.snd
        = store.upsertRepo repo := by
    rw [evaluate_upsertRepo]
    cases store.upsertRepo repo <;> rfl
  rw [Prog.bind_eq, evaluate_bind, evaluate_forEach]
  simp only [hturn]
  show _ = (repos.foldlM Store.upsertRepo store).bind _
  cases repos.foldlM Store.upsertRepo store with
  | error e => rfl
  | ok store => exact evaluate_retainReposOn returning store installationId _ syncedBefore

theorem evaluate_purgeInstallation (store : Store) (installationId : ℕ) :
    evaluate (SqlWrite.apply returning) (purgeInstallation installationId) store
      = store.purgeInstallation installationId := by
  unfold purgeInstallation Store.purgeInstallation bound
  cases integer installationId with
  | error e => rfl
  | ok installation =>
    simp only [Prog.bind_eq, Prog.ofExcept_ok, Prog.done_bind, evaluate_deleteRepositoriesWhere]
    have hselects (repo : RepoRecord) : PruneWhere.repository ⟨1, none, none⟩ [installation] repo
        = decide (repo.installationId = installation) := by
      rw [PruneWhere.repository, PruneWhere.selects_eq rfl rfl rfl]
      simp
    simp only [funext hselects]
    rfl

end ProjectionWriter

end Dependaboard
