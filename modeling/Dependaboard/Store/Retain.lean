import Dependaboard.Store.Statements
/-!
# Store — what a prune of one repository takes

`retain_prs` run in its transaction, any of its statements refused. Where it
succeeds, the rows its repository's listing no longer shows are gone and
nothing else is, each queued once under the fence; where it fails, nothing
is changed. `retainPrs_exact` is both, and that a second run finds nothing.
-/

namespace Dependaboard

open Durable Relational

/-- The row is its repository's, stamped before the fence, and not live. -/
def PrRecord.unlisted (row : PrRecord) (repositoryId : ℕ) (live : List ℕ) (syncedBefore : ℕ) :
    Prop :=
  row.repositoryId = repositoryId ∧ row.syncedAt < syncedBefore ∧ row.number ∉ live

instance (row : PrRecord) (repositoryId : ℕ) (live : List ℕ) (syncedBefore : ℕ) :
    Decidable (row.unlisted repositoryId live syncedBefore) :=
  inferInstanceAs (Decidable (_ ∧ _ ∧ _))

namespace Store

variable {store store' : Store}

@[simp] theorem insertRetirements_repositories (store : Store) (keys : List PrKey)
    (fence : Option ℕ) :
    (store.insertRetirements keys fence).repositories = store.repositories := by
  induction keys generalizing store with
  | nil => rfl
  | cons key keys ih => exact ih (store.insertRetirement key fence)

/-- Keys that fit are queued. -/
theorem queueRetirements_of_lt {keys : List PrKey} {fence : Option ℕ}
    (hkeys : ∀ key ∈ keys, key.repositoryId < i64Size ∧ key.number < i64Size)
    (hfence : ∀ before ∈ fence, before < i64Size) :
    store.queueRetirements keys fence = .ok (store.insertRetirements keys fence) := by
  have hbound : fence.mapM integer = .ok fence := by
    cases fence with
    | none => rfl
    | some before =>
      show (integer before).map some = _
      rw [integer_of_lt (hfence before rfl)]
      rfl
  unfold queueRetirements
  rw [hbound]
  show keys.foldlM _ store = _
  clear hbound hfence
  induction keys generalizing store with
  | nil => rfl
  | cons key keys ih =>
    obtain ⟨⟨hrepository, hnumber⟩, hrest⟩ := List.forall_mem_cons.1 hkeys
    rw [List.foldlM_cons, integer_of_lt hrepository, integer_of_lt hnumber]
    exact ih hrest

/-- **What a prune of one repository leaves**: the unlisted rows deleted, and
their keys queued. -/
theorem retainPrs_ok {repositoryId syncedBefore : ℕ} {live : List ℕ} {pruned : List PrKey}
    (h : store.retainPrs repositoryId live syncedBefore = .ok (pruned, store')) :
    pruned = deletedPrKeys
        (store.pullRequests.rows.filter (·.unlisted repositoryId live syncedBefore)) ∧
      store' = (store.deletePullRequests (·.unlisted repositoryId live syncedBefore)).insertRetirements
        pruned (some syncedBefore) := by
  obtain ⟨-, h₁⟩ := integer_bind_ok h
  obtain ⟨-, h₂⟩ := integer_bind_ok h₁
  obtain ⟨_, hlive, h₃⟩ := Except.bind_ok h₂
  obtain ⟨_, hqueue, h₄⟩ := Except.bind_ok h₃
  cases mapM_integers_ok hlive
  cases queueRetirements_ok hqueue
  cases h₄
  exact ⟨rfl, rfl⟩

/-- A prune whose integers fit succeeds, where the numbers it removes fit. -/
theorem retainPrs_of_lt {repositoryId syncedBefore : ℕ} {live : List ℕ}
    (hrepository : repositoryId < i64Size) (hfence : syncedBefore < i64Size)
    (hlive : ∀ number ∈ live, number < i64Size)
    (hrows : ∀ row ∈ store.pullRequests.rows, row.number < i64Size) :
    ∃ pruned store', store.retainPrs repositoryId live syncedBefore = .ok (pruned, store') := by
  unfold retainPrs retainPrsOn
  rw [integer_of_lt hrepository, integer_of_lt hfence, mapM_integers_of_lt hlive]
  simp only [bind, Except.bind]
  rw [queueRetirements_of_lt]
  · exact ⟨_, _, rfl⟩
  · intro key hkey
    obtain ⟨row, hrow, rfl⟩ := mem_deletedPrKeys.1 hkey
    obtain ⟨hmem, hdoomed⟩ := List.mem_filter.1 hrow
    have hdoomed := of_decide_eq_true hdoomed
    exact ⟨by rw [PrRecord.key, hdoomed.1]; exact hrepository, hrows row hmem⟩
  · rintro _ ⟨⟩
    exact hfence

/-- A prune that finds nothing changes nothing. -/
theorem deletePullRequests_of_none (store : Store) {p : PrRecord → Bool}
    (h : ∀ row ∈ store.pullRequests.rows, p row = false) : store.deletePullRequests p = store := by
  have hnone : store.pullRequests.rows.filter p = [] := by
    rw [List.filter_eq_nil_iff]
    exact fun row hrow => by simp [h row hrow]
  refine Store.ext rfl (Table.ext ?_) rfl ?_
  · exact List.filter_eq_self.2 fun row hrow => by simp [h row hrow]
  · simp [deletePullRequests, hnone, ProjectionRevision.pullRequestRows]

/-- The rows of a table have their keys reported in order, each once. -/
theorem pairwise_deletedPrKeys (store : Store) (p : PrRecord → Bool) :
    (deletedPrKeys (store.pullRequests.rows.filter p)).Pairwise fun a b =>
      a.repositoryId < b.repositoryId ∨ a.repositoryId = b.repositoryId ∧ a.number < b.number := by
  rw [← ProjectionWriter.sortKeys_map_key]
  have hnodup : (((store.pullRequests.rows.filter p).map PrRecord.key).map
      ProjectionWriter.keyOrder).Nodup :=
    (store.pullRequests.nodup_map_filter p).map ProjectionWriter.keyOrder_injective
  exact (pairwise_lt_orderBy hnodup).imp fun h => Prod.Lex.lt_iff.1 h

end Store

namespace ProjectionWriter

variable {codec : OutcomeCodec}

/-- The call in its transaction. -/
def retainPrs (returning : Returning) (refusals : ℕ → Option StoreError) (repositoryId : ℕ)
    (live : List ℕ) (syncedBefore : ℕ) (db : Database codec) :
    Except StoreError (List PrKey) × Database codec :=
  transaction (SqlWrite.step returning) refusals (retainPrsOn repositoryId live syncedBefore) db

/-- **What a prune that succeeded has done**, and all it has done: the
revision apart, the rest of the database is as it was. -/
structure Retained (repositoryId : ℕ) (live : List ℕ) (syncedBefore : ℕ) (db : Database codec)
    (pruned : List PrKey) (db' : Database codec) : Prop where
  rows : db'.projection.pullRequests.rows
    = db.projection.pullRequests.rows.filter fun row => ¬ row.unlisted repositoryId live syncedBefore
  keys : ∀ key, key ∈ pruned ↔ ∃ row ∈ db.projection.pullRequests.rows,
    row.unlisted repositoryId live syncedBefore ∧ row.key = key
  /-- By repository and number, without repetition. -/
  sorted : pruned.Pairwise fun a b =>
    a.repositoryId < b.repositoryId ∨ a.repositoryId = b.repositoryId ∧ a.number < b.number
  queued : ∃ added, db'.projection.retirements.rows = db.projection.retirements.rows ++ added ∧
    added.map (fun retirement => (retirement.key, retirement.syncedBefore))
      = pruned.map fun key => (key, some syncedBefore)
  repositories : db'.projection.repositories = db.projection.repositories
  audit : db'.audit = db.audit

variable {returning : Returning} {refusals : ℕ → Option StoreError} {α : Type} {p : SqlM α}
  {a : α} {db db' : Database codec}

/-- No write of the projection touches the audit tables. -/
theorem evaluate_audit (h : evaluate (SqlWrite.step returning) p db = .ok (a, db')) :
    db'.audit = db.audit :=
  evaluate_keeps (R := fun db db' : Database codec => db'.audit = db.audit)
    (fun _ => rfl) (fun hab hbc => hbc.trans hab)
    (fun _ _ _ _ hstep => (SqlWrite.step_ok returning hstep).2.1) h

variable {repositoryId syncedBefore : ℕ} {live : List ℕ} {pruned : List PrKey}

/-- A prune that committed is the prune of the tables. -/
theorem retainPrs_committed
    (h : retainPrs returning refusals repositoryId live syncedBefore db = (.ok pruned, db')) :
    db.projection.retainPrs repositoryId live syncedBefore = .ok (pruned, db'.projection) ∧
      db'.audit = db.audit := by
  have hrun := transaction_ok h
  refine ⟨?_, evaluate_audit hrun⟩
  rw [← evaluate_retainPrsOn returning]
  exact evaluate_projection_ok returning hrun

theorem retained_of_ok
    (h : retainPrs returning refusals repositoryId live syncedBefore db = (.ok pruned, db')) :
    Retained repositoryId live syncedBefore db pruned db' := by
  obtain ⟨hstore, haudit⟩ := retainPrs_committed h
  obtain ⟨hpruned, hafter⟩ := Store.retainPrs_ok hstore
  refine ⟨?_, fun key => ?_, ?_, ?_, ?_, haudit⟩
  · rw [hafter, Store.insertRetirements_pullRequests]
    exact List.filter_congr fun row _ => by simp
  · rw [hpruned, Store.mem_deletedPrKeys]
    simp [and_assoc]
  · rw [hpruned]
    exact Store.pairwise_deletedPrKeys db.projection _
  · refine ⟨_, by rw [hafter, Store.rows_insertRetirements]; rfl, ?_⟩
    have hfst := congrArg (List.map fun key => (key, some syncedBefore))
      (List.zipIdx_map_fst (db.projection.retirements.last + 1) pruned)
    rw [Store.queuedRows, List.map_map, ← hfst, List.map_map]
    rfl
  · rw [hafter, Store.insertRetirements_repositories]
    rfl

/-- **Run again, a prune finds nothing.** -/
theorem retainPrs_again
    (h : retainPrs returning refusals repositoryId live syncedBefore db = (.ok pruned, db'))
    (returning' : Returning) (refusals' : ℕ → Option StoreError) :
    match retainPrs returning' refusals' repositoryId live syncedBefore db' with
    | (.ok again, db'') =>
      again = [] ∧ db''.projection = db'.projection ∧ db''.audit = db'.audit
    | (.error _, db'') => db'' = db' := by
  obtain ⟨hrows, -, -, -, -, -⟩ := retained_of_ok h
  have hnone : ∀ row ∈ db'.projection.pullRequests.rows,
      decide (row.unlisted repositoryId live syncedBefore) = false := by
    intro row hrow
    rw [hrows] at hrow
    simpa using (List.mem_filter.1 hrow).2
  split
  · next again db'' hagain =>
    obtain ⟨hstore, haudit⟩ := retainPrs_committed hagain
    obtain ⟨hkeys, hafter⟩ := Store.retainPrs_ok hstore
    have hempty : again = [] := by
      rw [hkeys, List.filter_eq_nil_iff.2 fun row hrow => by simpa using hnone row hrow]
      rfl
    refine ⟨hempty, ?_, haudit⟩
    rw [hafter, hempty, Store.deletePullRequests_of_none _ hnone]
    rfl
  · next hagain => exact transaction_error hagain

/-- **A prune of one repository takes exactly the rows its listing no longer
shows**, queues each once under the fence, and run again takes none; one that
fails changes nothing; and where none of its statements is refused and its
integers fit, it succeeds. -/
theorem retainPrs_exact (returning : Returning) (refusals : ℕ → Option StoreError)
    (repositoryId : ℕ) (live : List ℕ) (syncedBefore : ℕ) (db : Database codec) :
    (match retainPrs returning refusals repositoryId live syncedBefore db with
      | (.ok pruned, db') => Retained repositoryId live syncedBefore db pruned db' ∧
          ∀ returning' refusals',
            match retainPrs returning' refusals' repositoryId live syncedBefore db' with
            | (.ok again, db'') =>
              again = [] ∧ db''.projection = db'.projection ∧ db''.audit = db'.audit
            | (.error _, db'') => db'' = db'
      | (.error _, db') => db' = db) ∧
    ((∀ n, refusals n = none) → repositoryId < i64Size → syncedBefore < i64Size →
      (∀ number ∈ live, number < i64Size) →
      (∀ row ∈ db.projection.pullRequests.rows, row.number < i64Size) →
      ∃ pruned db', retainPrs returning refusals repositoryId live syncedBefore db
        = (.ok pruned, db')) := by
  constructor
  · split
    · next h => exact ⟨retained_of_ok h, retainPrs_again h⟩
    · next h => exact transaction_error h
  · intro hrefusals hrepository hfence hlive hrows
    obtain ⟨pruned, store, hstore⟩ := Store.retainPrs_of_lt hrepository hfence hlive hrows
    rw [← evaluate_retainPrsOn returning] at hstore
    obtain ⟨db', hrun, -⟩ := exists_evaluate returning hstore
    exact ⟨pruned, db', transaction_of_evaluate hrefusals hrun⟩

end ProjectionWriter

end Dependaboard
