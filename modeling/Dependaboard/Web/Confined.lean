import Dependaboard.Dashboard.Tenancy
import Dependaboard.Mutation.AsSeen
import Dependaboard.Web.Edge
/-!
# Web — a deployment serves its own installation

One store may hold several deployments' installations. `Confined` is what a
server function may ask for: reads of its own installation, and invocations
that name rows of it. Two states of the store that agree on the installation
then serve a request alike, but for one thing the browser may learn of
another's data: that a key it named is there.
-/

namespace Dependaboard

open Durable Prog ProjectionReader Relational

/-- A read that is answered is answered as the state has it. -/
def ReadOf (codec : CursorCodec) {outcomes : OutcomeCodec} (store : Store)
    (tables : BatchTables outcomes) : Exchange EdgeEffects → Prop
  | ⟨.listPrs installationId filter page, .ok answer⟩ =>
    ∃ now, listPrs codec store now installationId filter page = .ok answer
  | ⟨.dashboardSummary installationId filter, .ok answer⟩ =>
    ∃ now, dashboardSummary store now installationId filter = .ok answer
  | ⟨.projectionRevision, .ok answer⟩ => answer = store.revision
  | ⟨.getPr installationId key, .ok answer⟩ => getPr store installationId key = some answer
  | ⟨.getPrs installationId keys, .ok answer⟩ => answer = getPrs store installationId keys
  | ⟨.runningBatches installationId, .ok answer⟩ =>
    tables.runningBatches installationId = .ok answer
  | ⟨.recentBatches installationId limit, .ok answer⟩ =>
    tables.recentBatches installationId limit = .ok answer
  | ⟨.getBatch installationId batchId, .ok answer⟩ =>
    tables.getBatch installationId batchId = .ok answer
  | _ => True

/-- **What a request may ask for**, for a user of an installation, naming
some keys. -/
def EdgeCall.Confined (validBatchId : String → Bool) (store : Store) (installationId : ℕ)
    (user : String) (keys : List PrKey) : EdgeCall → Prop
  | listPrs asked _ _ | dashboardSummary asked _ | runningBatches asked | recentBatches asked _
  | getBatch asked _ => asked = installationId
  | projectionRevision | capabilities | syncInstallation | newBatchId => True
  | getPr asked key => asked = installationId ∧ key ∈ keys
  | getPrs asked named => asked = installationId ∧ named ⊆ keys
  | runBatch batchId request => validBatchId batchId = true ∧ request.userId = user ∧
      ∀ target ∈ request.targets, target.key ∈ keys ∧ ∃ row,
        store.projected installationId target.key = .row row ∧
          target.owner = row.owner ∧ target.repo = row.repo
  | batchProgress batchId => validBatchId batchId = true
  | pullRequestStatus key => key ∈ keys ∧ ∃ row, store.projected installationId key = .row row
  | syncPullRequest request => ⟨request.repositoryId, request.number⟩ ∈ keys ∧ ∃ row,
      store.projected installationId ⟨request.repositoryId, request.number⟩ = .row row ∧
        request.owner = row.owner ∧ request.repo = row.repo

section Confinement

variable {validBatchId : String → Bool} {codec : CursorCodec} {outcomes : OutcomeCodec}
  {store : Store} {tables : BatchTables outcomes} {installationId : ℕ} {user : String}
  {es : List (Exchange EdgeEffects)} {op : EdgeCall} {α : Type}

theorem getPr_projected (store : Store) (installationId : ℕ) (key : PrKey) :
    getPr store installationId key = some (store.projected installationId key) := by
  rw [getPr, getPrs_eq]
  rfl

@[simp] theorem not_reaches_ofStore {answer : Except StoreError α} :
    ¬ (EdgeM.ofStore answer).Reaches es op := not_reaches_ofExcept

@[simp] theorem not_reaches_ofIngress {answer : Except RestateIngressError α} :
    ¬ (EdgeM.ofIngress answer).Reaches es op := not_reaches_ofExcept

/-- A function that asks once asks for that. -/
theorem reaches_once {first : EdgeCall} {k : first.Answer → EdgeM α}
    (h : Prog.Reaches (S := EdgeEffects) (.ask first k) es op)
    (hk : ∀ a rest, ¬ (k a).Reaches rest op) : op = first := by
  rcases reaches_ask.1 h with ⟨-, rfl⟩ | ⟨a, rest, rfl, hrest⟩
  · rfl
  · exact absurd hrest (hk a rest)

/-- **What follows a key's resolution follows the projection's answer.** -/
theorem reaches_projectedPr {key : PrKey} {f : Option PrRecord → EdgeM α}
    (h : ((projectedPr installationId key).bind f).Reaches es op)
    (hreads : ∀ e ∈ es, ReadOf codec store tables e) :
    op = .getPr installationId key ∨ ∃ found rest,
      heldToTheInstallation key (store.projected installationId key) = .ok found ∧
        (∀ e ∈ rest, ReadOf codec store tables e) ∧ (f found).Reaches rest op := by
  rw [projectedPr, ask_bind] at h
  rcases reaches_ask.1 h with ⟨-, rfl⟩ | ⟨answer, rest, rfl, hrest⟩
  · exact .inl rfl
  · cases answer with
    | error error => exact absurd hrest not_reaches_fail
    | ok projected =>
      obtain ⟨found, hfound, hreaches⟩ := reaches_ofExcept_bind.1 hrest
      obtain rfl : store.projected installationId key = projected :=
        Option.some.inj ((getPr_projected _ _ _).symm.trans (hreads _ List.mem_cons_self))
      exact .inr ⟨found, rest, hfound, fun e he => hreads e (List.mem_cons_of_mem _ he), hreaches⟩

/-- A key that resolves to a row is that row's. -/
theorem projected_of_held {key : PrKey} {row : PrRecord}
    (h : heldToTheInstallation key (store.projected installationId key) = .ok (some row)) :
    store.projected installationId key = .row row := by
  cases hprojected : store.projected installationId key with
  | row found =>
    rw [hprojected] at h
    rw [Option.some.inj (Except.ok.inj h)]
  | absent =>
    rw [hprojected] at h
    cases h
  | foreign =>
    rw [hprojected] at h
    cases h

/-- A submission asks for its own keys, and then for a batch under a valid id. -/
theorem reaches_submission {batchId : String} {action : BulkActionKind}
    {targets : List SubmittedTarget} {retriedFrom : Option String}
    {asked : List (Exchange SubmitEffects)} {call : SubmitCall}
    (h : (submitBatchIn validBatchId installationId user batchId action targets
      retriedFrom).Reaches asked call) :
    call = .getPrs installationId (targets.map SubmittedTarget.key) ∨
      validBatchId batchId = true ∧ ∃ request, call = .runBatch batchId request := by
  dsimp only [submitBatchIn] at h
  split at h
  · exact absurd h not_reaches_fail
  rename_i hvalid
  rcases reaches_ask.1 h with ⟨-, rfl⟩ | ⟨answer, rest, rfl, hrest⟩
  · exact .inl rfl
  · split at hrest
    · exact absurd hrest not_reaches_fail
    · split at hrest
      · exact absurd hrest not_reaches_fail
      · rcases reaches_ask.1 hrest with ⟨-, rfl⟩ | ⟨taken, last, rfl, hlast⟩
        · exact .inr ⟨(validateBatch_eq_ok.1 hvalid).1, _, rfl⟩
        · cases taken with
          | error error => exact absurd hlast not_reaches_fail
          | ok _ => exact absurd hlast not_reaches_done

/-- A batch is confined to the rows it was resolved from. -/
theorem confined_submission {batchId : String} {action : BulkActionKind}
    {targets : List SubmittedTarget} {retriedFrom : Option String}
    (h : ((submitBatchIn validBatchId installationId user batchId action targets
      retriedFrom).translate submitReading).Reaches es op)
    (hreads : ∀ e ∈ es, ReadOf codec store tables e) :
    op.Confined validBatchId store installationId user (targets.map SubmittedTarget.key) := by
  obtain ⟨asked, call, hreaches, hseen, rfl⟩ := reaches_translate submitReading h
  have hasked : ∀ e ∈ asked, ReadsFrom store e := by
    intro e he
    obtain ⟨e', he', call, answer, rfl, rfl⟩ := SeenAs.of_mem hseen he
    cases call with
    | getPrs other keys =>
      cases answer with
      | error error => trivial
      | ok projected => exact hreads _ he'
    | runBatch id request => trivial
  rcases reaches_submission hreaches with rfl | ⟨hid, request, rfl⟩
  · exact ⟨rfl, List.Subset.refl _⟩
  · obtain ⟨-, -, huser, htargets⟩ := reaches_submitBatchIn hreaches hasked
    refine ⟨hid, huser, fun target htarget => ?_⟩
    obtain ⟨submitted, hsubmitted, row, hrow, rfl⟩ := htargets target htarget
    have hkey : (submitted.resolved row).key = submitted.key :=
      key_resolved (Store.row?_of_projected hrow)
    rw [hkey]
    exact ⟨List.mem_map_of_mem hsubmitted, row, hrow, rfl, rfl⟩

/-- A batch id is held to its shape before anything is asked. -/
theorem reaches_mintedHere {batchId : String} {f : Unit → EdgeM α}
    (h : ((mintedHere validBatchId batchId).bind f).Reaches es op) :
    validBatchId batchId = true ∧ (f ()).Reaches es op := by
  unfold mintedHere at h
  split at h
  · exact ⟨‹_›, h⟩
  · exact absurd h not_reaches_fail

/-- **No request asks for what is another installation's.** -/
theorem confined_serve {request : EdgeRequest}
    (h : (request.serve validBatchId installationId user).Reaches es op)
    (hreads : ∀ e ∈ es, ReadOf codec store tables e) :
    op.Confined validBatchId store installationId user request.keys := by
  cases request with
  | loadDashboard filter page => exact reaches_once h (by simp) ▸ rfl
  | loadSummary filter => exact reaches_once h (by simp) ▸ rfl
  | loadMatching filter => exact reaches_once h (by simp) ▸ rfl
  | loadProjectionRevision => exact reaches_once h (by simp) ▸ trivial
  | loadSignedInUser => exact absurd h not_reaches_done
  | loadCapabilities => exact reaches_once h (by simp) ▸ trivial
  | submitBatch batchId action targets retriedFrom => exact confined_submission h hreads
  | loadBatchProgress batchId =>
    obtain ⟨hid, hasks⟩ := reaches_mintedHere h
    exact reaches_once hasks (by simp) ▸ hid
  | loadRecentBatches limit =>
    rcases reaches_ask.1 h with ⟨-, rfl⟩ | ⟨answer, rest, rfl, hrest⟩
    · rfl
    · obtain ⟨running, -, hfinished⟩ := reaches_ofExcept_bind.1 hrest
      refine reaches_once hfinished (fun answer rest hlast => ?_) ▸ rfl
      obtain ⟨finished, -, hdone⟩ := reaches_ofExcept_bind.1 hlast
      exact not_reaches_done hdone
  | loadBatchProjection batchId =>
    obtain ⟨-, hasks⟩ := reaches_mintedHere h
    exact reaches_once hasks (by simp) ▸ rfl
  | loadPrStatus key =>
    rcases reaches_projectedPr h hreads with rfl | ⟨found, rest, hfound, -, hrest⟩
    · exact ⟨rfl, List.mem_singleton_self key⟩
    · cases found with
      | none => exact absurd hrest not_reaches_done
      | some row =>
        exact reaches_once hrest (by simp) ▸
          ⟨List.mem_singleton_self key, row, projected_of_held hfound⟩
  | loadPrProjection key =>
    have hbind : ((projectedPr installationId key).bind Prog.done).Reaches es op := by
      rw [Prog.bind_done]
      exact h
    rcases reaches_projectedPr hbind hreads with rfl | ⟨found, rest, -, -, hrest⟩
    · exact ⟨rfl, List.mem_singleton_self key⟩
    · exact absurd hrest not_reaches_done
  | requestSync => exact reaches_once h (by simp) ▸ trivial
  | requestPrSync key =>
    rcases reaches_projectedPr h hreads with rfl | ⟨found, rest, hfound, -, hrest⟩
    · exact ⟨rfl, List.mem_singleton_self key⟩
    · cases found with
      | none => exact absurd hrest not_reaches_fail
      | some row =>
        have hrow := projected_of_held hfound
        obtain rfl : row.key = key := (Table.find?_eq_some.1 (Store.row?_of_projected hrow)).2
        rcases reaches_ask.1 hrest with ⟨-, rfl⟩ | ⟨completionId, last, rfl, hlast⟩
        · trivial
        · refine reaches_once hlast (fun answer rest hend => ?_) ▸
            ⟨List.mem_singleton_self row.key, row, hrow, rfl, rfl⟩
          obtain ⟨taken, -, hdone⟩ := reaches_ofExcept_bind.1 hend
          exact not_reaches_done hdone

end Confinement

/-! ## Two states that agree on the installation -/

section Independence

variable {validBatchId : String → Bool} {codec : CursorCodec} {outcomes : OutcomeCodec}
  {store store' : Store} {tables tables' : BatchTables outcomes} {installationId : ℕ}
  {user : String} {keys : List PrKey}

/-- A row of the one is that row of the other. -/
theorem Store.AgreesFor.projected_row (h : store.AgreesFor store' installationId) {key : PrKey}
    {row : PrRecord} (hrow : store.projected installationId key = .row row) :
    store'.projected installationId key = .row row := by
  obtain ⟨repo, hrepo, hinstallation, hid⟩ := Store.owns_iff.1 (owns_of_row hrow)
  obtain ⟨hmem, hkey⟩ := Table.find?_eq_some.1 (Store.row?_of_projected hrow)
  have hrow' : store'.row? key = some row :=
    Table.find?_eq_some.2 ⟨(h.pullRequests repo hrepo hinstallation row hid).1 hmem, hkey⟩
  have hrepo' : store'.repository? row.repositoryId = some repo :=
    Table.find?_eq_some.2 ⟨(h.repositories repo hinstallation).1 hrepo, hid.symm⟩
  simp [Store.projected, hrow', hrepo', hinstallation]

/-- **A key is held alike in both**, unless it is another installation's in one
of them alone. -/
theorem Store.AgreesFor.projected_eq (h : store.AgreesFor store' installationId) {key : PrKey}
    (hforeign : store.projected installationId key = .foreign ↔
      store'.projected installationId key = .foreign) :
    store.projected installationId key = store'.projected installationId key := by
  cases hheld : store.projected installationId key with
  | row row => exact (h.projected_row hheld).symm
  | foreign => exact (hforeign.1 hheld).symm
  | absent =>
    cases hother : store'.projected installationId key with
    | row row => rw [← hheld, h.symm.projected_row hother]
    | foreign => rw [← hheld, hforeign.2 hother]
    | absent => rfl

/-- **What a confined read is answered with in the one, it may be in the
other.** -/
theorem ReadOf.congr (hstore : store.AgreesFor store' installationId)
    (htables : tables.AgreesFor tables' installationId)
    (hforeign : ∀ key ∈ keys, (store.projected installationId key = .foreign ↔
      store'.projected installationId key = .foreign))
    {e : Exchange EdgeEffects}
    (hconfined : e.1.Confined validBatchId store installationId user keys)
    (hrevision : e.1 ≠ .projectionRevision) (h : ReadOf codec store tables e) :
    ReadOf codec store' tables' e := by
  obtain ⟨call, answer⟩ := e
  cases call with
  | listPrs asked filter page =>
    obtain rfl : asked = installationId := hconfined
    cases answer with
    | error error => trivial
    | ok given =>
      obtain ⟨now, hgiven⟩ := h
      exact ⟨now, listPrs_congr hstore codec now filter page ▸ hgiven⟩
  | dashboardSummary asked filter =>
    obtain rfl : asked = installationId := hconfined
    cases answer with
    | error error => trivial
    | ok given =>
      obtain ⟨now, hgiven⟩ := h
      exact ⟨now, dashboardSummary_congr hstore now filter ▸ hgiven⟩
  | projectionRevision => exact absurd rfl hrevision
  | getPr asked key =>
    obtain ⟨rfl, hkey⟩ := hconfined
    cases answer with
    | error error => trivial
    | ok given =>
      show getPr store' asked key = some given
      rw [getPr_projected, ← hstore.projected_eq (hforeign key hkey), ← getPr_projected]
      exact h
  | getPrs asked named =>
    obtain ⟨rfl, hnamed⟩ := hconfined
    cases answer with
    | error error => trivial
    | ok given =>
      show given = getPrs store' asked named
      rw [show given = _ from h, getPrs_eq, getPrs_eq]
      exact List.map_congr_left fun key hkey => hstore.projected_eq (hforeign key (hnamed hkey))
  | runningBatches asked =>
    obtain rfl : asked = installationId := hconfined
    cases answer with
    | error error => trivial
    | ok given => exact htables.runningBatches_eq.symm.trans h
  | recentBatches asked limit =>
    obtain rfl : asked = installationId := hconfined
    cases answer with
    | error error => trivial
    | ok given => exact (htables.recentBatches_eq limit).symm.trans h
  | getBatch asked batchId =>
    obtain rfl : asked = installationId := hconfined
    cases answer with
    | error error => trivial
    | ok given => exact (htables.getBatch_eq batchId).symm.trans h
  | capabilities | runBatch _ _ | batchProgress _ | pullRequestStatus _ | syncInstallation
  | syncPullRequest _ | newBatchId => trivial

/-- **A deployment serves its own installation.** Whatever the browser asks,
the server reads the configured installation, invokes Restate for rows of it
alone, as the projection has them, and is served alike by a store that agrees on
the installation, whatever else that holds: a request comes to the same
exchanges there, but for the revision, which every installation's rows move,
and for a key it names that is another installation's in one of the two. -/
theorem edge_serves_own (hstore : store.AgreesFor store' installationId)
    (htables : tables.AgreesFor tables' installationId) {request : EdgeRequest}
    (hforeign : ∀ key ∈ request.keys, (store.projected installationId key = .foreign ↔
      store'.projected installationId key = .foreign))
    {es : List (Exchange EdgeEffects)} {r : Except ApiError request.Response}
    (h : (request.serve validBatchId installationId user).Exchanges es r)
    (hreads : ∀ e ∈ es, ReadOf codec store tables e) :
    ∀ e ∈ es, e.1.Confined validBatchId store installationId user request.keys ∧
      (e.1 ≠ .projectionRevision → ReadOf codec store' tables' e) := by
  intro e he
  obtain ⟨before, after, rfl⟩ := List.append_of_mem he
  have hconfined : e.1.Confined validBatchId store installationId user request.keys :=
    confined_serve h.reaches fun e he => hreads e (List.mem_append_left _ he)
  exact ⟨hconfined, fun hrevision =>
    ReadOf.congr hstore htables hforeign hconfined hrevision (hreads e he)⟩

/-- The status of a pull request of the sample's, read for it. -/
def sampleStatusRead : List (Exchange EdgeEffects) :=
  [⟨.getPr 9 ⟨1, 3⟩, .ok (.row (samplePr 3 30))⟩, ⟨.pullRequestStatus ⟨1, 3⟩, .ok none⟩]

/-- It is read alike beside another installation's rows. -/
theorem edge_serves_own_sample :
    (EdgeCall.getPr 9 ⟨1, 3⟩).Confined (fun _ => true) sampleProjection 9 "alice" [⟨1, 3⟩] ∧
      ReadOf cursorJson sampleShared sampleForeign
        ⟨.getPr 9 ⟨1, 3⟩, .ok (.row (samplePr 3 30))⟩ := by
  have hheld : sampleProjection.projected 9 ⟨1, 3⟩ = .row (samplePr 3 30) := by decide
  have hserved : ((EdgeRequest.loadPrStatus ⟨1, 3⟩).serve (fun _ => true) 9 "alice").Exchanges
      sampleStatusRead (.ok none) := .ask (.ask (.done none))
  have hforeign : ∀ key ∈ (EdgeRequest.loadPrStatus ⟨1, 3⟩).keys,
      (sampleProjection.projected 9 key = .foreign ↔ sampleShared.projected 9 key = .foreign) := by
    intro key hkey
    obtain rfl := List.mem_singleton.1 hkey
    rw [hheld, sampleProjection_agreesFor.projected_row hheld]
  have hreads : ∀ e ∈ sampleStatusRead, ReadOf cursorJson sampleProjection
      (BatchTables.empty : BatchTables outcomeJson) e := by
    intro e he
    rcases List.mem_cons.1 he with rfl | he
    · exact (getPr_projected _ _ _).trans (congrArg some hheld)
    · rw [List.mem_singleton.1 he]
      trivial
  obtain ⟨hconfined, hread⟩ := edge_serves_own sampleProjection_agreesFor empty_agreesFor hforeign
    hserved hreads _ List.mem_cons_self
  exact ⟨hconfined, hread nofun⟩

end Independence

end Dependaboard
