import Dependaboard.Github.Listing
import Dependaboard.Paging.Moving
import Dependaboard.Retirement.Fence
import Dependaboard.Service.Sweep
/-!
# Reconcile — what a listing may miss

The pages of a listing are read one after the other while pull requests
open and close. One that leaves ahead of a page's end draws those behind it
forward, the first of them past the end and out of the next page, and
nothing in the listing notices. `listing_complete_iff` is exactly when that
happens, and what the reconcile that prunes down to the listing makes of
it.
-/

namespace Dependaboard

open Durable Paging

/-- A repository's open pull requests while its listing is paged: at every
moment no two of one number. -/
structure OpenPulls extends Moving PullListItem where
  one : ∀ t, ((moments t).map (·.number)).Nodup

namespace OpenPulls

variable (m : OpenPulls)

/-- GitHub fails a page or shows its window of the list as it then is. -/
def Answers (owner repo : String) (send : PullsPage → Except GithubError (List PullListItem)) :
    Prop :=
  ∀ p, 1 ≤ p → (∃ error, send ⟨owner, repo, p⟩ = .error error) ∨
    send ⟨owner, repo, p⟩ = .ok (page listingPageSize p (m.found p))

/-- A Dependabot pull request open from before the first page was asked for
until after the last. -/
structure Throughout (last : ℕ) (pull : PullListItem) : Prop where
  dependabot : pull.login = dependabotLogin
  stays : m.Stays pull last

/-- The listing has every pull request that was open throughout. -/
def Complete (last : ℕ) (result : List SyncRequest) : Prop :=
  ∀ pull, m.Throughout last pull → pull.number ∈ result.map (·.number)

/-- **Whatever slips past a page's end is caught by another page.** -/
def Caught (last : ℕ) : Prop :=
  ∀ pull, m.Throughout last pull → m.Slips listingPageSize pull last →
    ∃ p, 1 ≤ p ∧ p ≤ last ∧ m.InWindow listingPageSize pull p

variable {m} {send : PullsPage → Except GithubError (List PullListItem)} {owner repo : String}
  {repositoryId fuel : ℕ} {result : List SyncRequest}

theorem Answers.found_of_ok (h : m.Answers owner repo send) {p : ℕ} (hp : 1 ≤ p)
    {response : List PullListItem} (hok : send ⟨owner, repo, p⟩ = .ok response) :
    response = page listingPageSize p (m.found p) := by
  rcases h p hp with ⟨error, herror⟩ | hpage
  · rw [herror] at hok
    cases hok
  · rw [hpage] at hok
    exact (Except.ok.inj hok).symm

/-- A number names one open pull request. -/
theorem eq_of_number_eq {t : ℕ} {pull other : PullListItem} (hpull : pull ∈ m.moments t)
    (hother : other ∈ m.moments t) (h : pull.number = other.number) : pull = other :=
  List.inj_on_of_nodup_map (m.one t) hpull hother h

/-- **What a listing that returned has read**: the pages up to the first
short one, so each pull request open throughout exactly when a window
covered it. -/
theorem Answers.listing_ok (hsend : m.Answers owner repo send)
    (h : listDependabotPrs send owner repo repositoryId fuel 1 [] = some (.ok result)) :
    ∃ last, m.Ends listingPageSize last ∧ ∀ pull, m.Throughout last pull →
      (pull.number ∈ result.map (·.number) ↔
        ∃ p, 1 ≤ p ∧ p ≤ last ∧ m.InWindow listingPageSize pull p) := by
  obtain ⟨last, hlast, hpages, ⟨response, hresponse, hshort⟩, hmem⟩ := listDependabotPrs_ok h
  have hsize : 0 < listingPageSize := by decide
  refine ⟨last, ⟨hlast, ?_, ?_⟩, ?_⟩
  · intro p hp hlt
    obtain ⟨response, hok, hfull⟩ := hpages p hp hlt
    rw [hsend.found_of_ok hp hok] at hfull
    have := length_page_lt hsize hp (m.found p)
    omega
  · rw [hsend.found_of_ok hlast hresponse] at hshort
    exact (length_page_lt hsize hlast _).1 hshort
  · intro pull hpull
    -- within a moment a number names one pull request
    rw [hmem pull.number]
    constructor
    · rintro (hnone | ⟨p, hp, hle, response, hok, other, hother, -, hnumber⟩)
      · exact absurd hnone List.not_mem_nil
      · rw [hsend.found_of_ok hp hok] at hother
        have hfound : other ∈ m.found p := List.mem_of_mem_drop (List.mem_of_mem_take hother)
        cases eq_of_number_eq hfound (hpull.stays.mem_found hp hle) hnumber
        exact ⟨p, hp, hle, (hpull.stays.mem_page_iff hp hle).1 hother⟩
    · rintro ⟨p, hp, hle, hwindow⟩
      have hread : ∃ response, send ⟨owner, repo, p⟩ = .ok response := by
        rcases Nat.eq_or_lt_of_le hle with rfl | hlt
        · exact ⟨response, hresponse⟩
        · obtain ⟨response, hok, -⟩ := hpages p hp hlt
          exact ⟨response, hok⟩
      obtain ⟨response, hok⟩ := hread
      refine .inr ⟨p, hp, hle, response, hok, pull, ?_, hpull.dependabot, rfl⟩
      rw [hsend.found_of_ok hp hok]
      exact (hpull.stays.mem_page_iff hp hle).2 hwindow

/-- A listing has every pull request open throughout exactly when what
slipped was caught. -/
theorem complete_iff_caught {last : ℕ} (hends : m.Ends listingPageSize last)
    (hread : ∀ pull, m.Throughout last pull → (pull.number ∈ result.map (·.number) ↔
      ∃ p, 1 ≤ p ∧ p ≤ last ∧ m.InWindow listingPageSize pull p)) :
    m.Complete last result ↔ m.Caught last := by
  constructor
  · intro hcomplete pull hpull _
    exact (hread pull hpull).1 (hcomplete pull hpull)
  · intro hcaught pull hpull
    refine (hread pull hpull).2 ?_
    rcases Moving.inWindow_or_slips hends hpull.stays with hwindow | hslips
    · exact hwindow
    · exact hcaught pull hpull hslips

end OpenPulls

/-! ## The reconcile over a listing -/

/-- The prune takes the row out of some store it may find. -/
def Prune.Removes (prune : Prune) (row : PrRecord) : Prop :=
  ∃ store pruned store', prune.run store = .ok (pruned, store') ∧
    row ∈ store.pullRequests.rows ∧ row ∉ store'.pullRequests.rows

/-- How a reconcile's calls are answered when its listing is `result`, from
the rows its prunes have removed to those they have after. The store is
whatever its other writers have made of it when a prune runs, a prune may
run more than once before it is answered, and any call may fail. -/
def reconcileSem (result : List SyncRequest) :
    (call : SweepCall) → List PrRecord → call.Answer → List PrRecord → Prop
  | .listPullRequests _, removed, answer, removed' =>
    ((∃ error, answer = .error error) ∨ answer = .ok result) ∧ removed' = removed
  | .prune prune, removed, _, removed' =>
    ∀ row ∈ removed', row ∈ removed ∨ prune.Removes row
  | _, removed, _, removed' => removed' = removed

variable {result : List SyncRequest}

/-- The syncs of a reconcile remove nothing. -/
theorem wp_syncListed (pulls : List SyncRequest) (removed : List PrRecord) :
    (syncListed pulls).wp (S := SweepEffects) (reconcileSem result)
      (fun _ removed' => removed' = removed) removed := by
  induction pulls with
  | nil => exact rfl
  | cons request rest ih =>
    rintro answer _ rfl
    show ((syncListed rest).bind _).wp _ _ _
    refine Prog.wp_bind.2 (Prog.wp_mono ih fun failed removed' hremoved => ?_)
    cases failed with
    | error error => exact hremoved
    | ok failed => cases answer <;> exact hremoved

/-- Nor does its drain. -/
theorem wp_retirePending (pruned : Pruned) (removed : List PrRecord) :
    (retirePending pruned).wp (S := SweepEffects) (reconcileSem result)
      (fun _ removed' => removed' = removed) removed := by
  rintro answer _ rfl
  cases answer with
  | error error => exact rfl
  | ok pending =>
    simp only [Prog.bind_eq, Prog.ofExcept_ok, Prog.done_bind]
    split
    · exact rfl
    · refine Prog.wp_bind.2 (Prog.wp_forEach (fun _ t => t = _) ?_ ?_ rfl)
      · rintro _ rfl answer _ rfl
        cases answer <;> exact rfl
      · rintro retirement rest _ rfl answer _ rfl
        exact rfl

/-- The prune down to a listing spares every row the listing has. -/
theorem Prune.Removes.not_live {repositoryId fence : ℕ} {live : List ℕ} {row : PrRecord}
    (h : (Prune.retainPrs repositoryId live fence).Removes row)
    (hrepository : row.repositoryId = repositoryId) : row.number ∉ live := by
  obtain ⟨store, pruned, store', hrun, hrow, hgone⟩ := h
  intro hlive
  refine hgone ?_
  rw [(Prune.run_ok hrun).rows, Relational.Table.mem_delete]
  exact ⟨hrow, by simp [Prune.dooms, hrepository, hlive]⟩

/-- **A reconcile removes no row its listing has.** -/
theorem wp_runRepoReconcile (addressed : Addressed) :
    (runRepoReconcile addressed).wp (S := SweepEffects) (reconcileSem result)
      (fun _ removed => ∀ row ∈ removed, row.repositoryId = addressed.repositoryId →
        row.number ∉ result.map (·.number)) [] := by
  rintro start _ rfl
  cases start with
  | error error => exact fun row hrow => absurd hrow List.not_mem_nil
  | ok start =>
  rintro listing _ ⟨hlisting, rfl⟩
  rcases hlisting with ⟨error, rfl⟩ | rfl
  · exact fun row hrow => absurd hrow List.not_mem_nil
  show ((syncListed result).bind _).wp _ _ _
  refine Prog.wp_bind.2 (Prog.wp_mono (wp_syncListed result []) ?_)
  rintro (error | failed) _ rfl
  · exact fun row hrow => absurd hrow List.not_mem_nil
  intro pruned removed hprune
  have hspared : ∀ row ∈ removed, row.repositoryId = addressed.repositoryId →
      row.number ∉ result.map (·.number) := by
    intro row hrow hrepository
    rcases hprune row hrow with hnone | hremoves
    · exact absurd hnone List.not_mem_nil
    · exact hremoves.not_live hrepository
  cases pruned with
  | error error => exact hspared
  | ok pruned =>
  show ((retirePending pruned).bind _).wp _ _ _
  refine Prog.wp_bind.2 (Prog.wp_mono (wp_retirePending pruned removed) ?_)
  rintro (error | told) _ rfl
  · exact hspared
  · show Prog.wp _ (if failed = [] then _ else _) _ _
    split <;> exact hspared

namespace OpenPulls

/-- No run of the reconcile over the listing removes the row of a pull
request that was open throughout. -/
def Spared (m : OpenPulls) (last : ℕ) (addressed : Addressed) (result : List SyncRequest) :
    Prop :=
  ∀ r removed,
    Prog.Runs (S := SweepEffects) (reconcileSem result) (runRepoReconcile addressed) [] r removed →
      ∀ pull, m.Throughout last pull →
        ∀ row ∈ removed, row.key ≠ ⟨addressed.repositoryId, pull.number⟩

/-- **A complete listing prunes nothing that stayed open.** -/
theorem Complete.spared {m : OpenPulls} {last : ℕ} (h : m.Complete last result)
    (addressed : Addressed) : m.Spared last addressed result := by
  intro r removed hrun pull hpull row hrow hkey
  obtain ⟨hrepository, hnumber⟩ := PrKey.mk.inj hkey
  refine hrun.of_wp (wp_runRepoReconcile addressed) row hrow hrepository ?_
  rw [hnumber]
  exact h pull hpull

end OpenPulls

/-- **A listing misses nothing, and its reconcile prunes nothing, that
stayed open, exactly when every pull request that slipped past a page's end
was caught by another page.** -/
theorem listing_complete_iff {m : OpenPulls} {addressed : Addressed}
    {send : PullsPage → Except GithubError (List PullListItem)} {fuel : ℕ}
    (hsend : m.Answers addressed.owner addressed.repo send)
    (h : listDependabotPrs send addressed.owner addressed.repo addressed.repositoryId fuel 1 []
      = some (.ok result)) :
    ∃ last, m.Ends listingPageSize last ∧
      ((m.Complete last result ∧ m.Spared last addressed result) ↔ m.Caught last) := by
  obtain ⟨last, hends, hread⟩ := hsend.listing_ok h
  have hiff : m.Complete last result ↔ m.Caught last := OpenPulls.complete_iff_caught hends hread
  refine ⟨last, hends, ?_⟩
  rw [← hiff]
  exact ⟨fun hboth => hboth.1, fun hcomplete => ⟨hcomplete, hcomplete.spared addressed⟩⟩

/-! ## A pull request behind a page's end

A hundred and one Dependabot pull requests are open, the newest first. The
first page shows all but the oldest; before the second is asked for, one of
the hundred closes, and the oldest moves into the first page's window. -/

/-- GitHub answering every page. -/
def OpenPulls.serve (m : OpenPulls) (request : PullsPage) :
    Except GithubError (List PullListItem) :=
  .ok (page listingPageSize request.page (m.found request.page))

theorem OpenPulls.serve_answers (m : OpenPulls) (owner repo : String) :
    m.Answers owner repo m.serve := fun _ _ => .inr rfl

/-- Dependabot's pull requests of these numbers. -/
def samplePulls (numbers : List ℕ) : List PullListItem := numbers.map (⟨·, dependabotLogin⟩)

/-- The numbers open at first, and those open after one has closed. -/
def sampleNumbers : ℕ → List ℕ
  | 0 => (List.range' 1 101).reverse
  | _ + 1 => ((List.range' 1 101).filter (· ≠ 50)).reverse

theorem sampleNumbers_nodup (t : ℕ) : (sampleNumbers t).Nodup := by
  cases t with
  | zero => exact List.nodup_reverse.2 List.nodup_range'
  | succ t => exact List.nodup_reverse.2 (List.Nodup.filter _ List.nodup_range')

/-- The pull requests open while pages are read, one page a moment. -/
def sampleChurn : OpenPulls where
  moments t := samplePulls (sampleNumbers t)
  nodup t := (sampleNumbers_nodup t).map fun _ _ h => (PullListItem.mk.inj h).1
  asked p := p - 1
  ordered := fun _ _ h => Nat.sub_le_sub_right h 1
  one t := by
    simp only [samplePulls, List.map_map, Function.comp_def, List.map_id']
    exact sampleNumbers_nodup t

/-- The same pull requests when none closes. -/
def sampleSteady : OpenPulls where
  moments _ := samplePulls (sampleNumbers 0)
  nodup _ := (sampleNumbers_nodup 0).map fun _ _ h => (PullListItem.mk.inj h).1
  asked p := p
  ordered := fun _ _ h => h
  one _ := by
    simp only [samplePulls, List.map_map, Function.comp_def, List.map_id']
    exact sampleNumbers_nodup 0

/-- What a listing of them returns. -/
def sampleSteadyListed : List SyncRequest :=
  (samplePulls (sampleNumbers 0)).map (PullListItem.syncRequest 1 "acme" "api")

/-- Nothing closes, so nothing slips and all of it is listed. -/
theorem listing_complete_iff_sample :
    ∃ last, sampleSteady.Ends listingPageSize last ∧
      sampleSteady.Complete last sampleSteadyListed ∧
        sampleSteady.Spared last ⟨1, "acme", "api"⟩ sampleSteadyListed := by
  have hlisting : listDependabotPrs sampleSteady.serve "acme" "api" 1 2 1 []
      = some (.ok sampleSteadyListed) := by decide +kernel
  have hanswers := sampleSteady.serve_answers "acme" "api"
  obtain ⟨last, hends, hiff⟩ : ∃ last, sampleSteady.Ends listingPageSize last ∧
      ((sampleSteady.Complete last sampleSteadyListed ∧
        sampleSteady.Spared last ⟨1, "acme", "api"⟩ sampleSteadyListed) ↔ sampleSteady.Caught last) :=
    listing_complete_iff hanswers hlisting
  refine ⟨last, hends, hiff.2 ?_⟩
  rintro pull - ⟨p, -, -, hbehind, hbefore⟩
  exact absurd hbefore (Nat.not_lt.2 hbehind)

/-- The oldest is open throughout. -/
theorem sampleChurn_throughout : sampleChurn.Throughout 2 ⟨1, dependabotLogin⟩ := by
  refine ⟨rfl, fun t _ _ => List.mem_map.2 ⟨1, ?_, rfl⟩⟩
  cases t <;> simp [sampleNumbers]

/-- What the listing returns: the first page, and nothing of the second. -/
def sampleListed : List SyncRequest :=
  (samplePulls ((List.range' 2 100).reverse)).map (PullListItem.syncRequest 1 "acme" "api")

theorem sampleListed_numbers :
    sampleListed.map (·.number) = (List.range' 2 100).reverse := by
  simp [sampleListed, samplePulls, Function.comp_def]

theorem sampleChurn_ends : sampleChurn.Ends listingPageSize 2 := by
  refine ⟨by omega, ?_, by decide +kernel⟩
  intro p hp hlt
  obtain rfl : p = 1 := by omega
  decide +kernel

theorem sampleChurn_listing :
    listDependabotPrs sampleChurn.serve "acme" "api" 1 2 1 [] = some (.ok sampleListed) := by
  decide +kernel

/-- The prune down to what it returned takes the oldest's row. -/
theorem sampleListed_removes :
    (Prune.retainPrs 1 (sampleListed.map (·.number)) 20).Removes (sampleRow 15) := by
  have hbound : ∀ number ∈ sampleListed.map (·.number), number < i64Size := by
    decide +kernel
  have hmissed : 1 ∉ sampleListed.map (·.number) := by decide +kernel
  have hdoomed : (Prune.retainPrs 1 (sampleListed.map (·.number)) 20).dooms (sampleStore 15)
      (sampleRow 15) := by
    simp only [Prune.dooms, decide_eq_true_eq]
    exact ⟨rfl, by decide, hmissed⟩
  have hrow : sampleRow 15 ∈ (sampleStore 15).pullRequests.rows := List.mem_singleton.2 rfl
  generalize sampleListed.map (·.number) = live at hbound hdoomed hmissed ⊢
  have hrun : ∃ pruned store',
      (Prune.retainPrs 1 live 20).run (sampleStore 15) = .ok (pruned, store') := by
    show ∃ pruned store', (sampleStore 15).retainPrsOn 1 live 20 = .ok (pruned, store')
    unfold Store.retainPrsOn
    rw [Store.mapM_integers_of_lt hbound]
    have hfilter : (sampleStore 15).pullRequests.rows.filter (fun row =>
        row.repositoryId = 1 ∧ row.syncedAt < 20 ∧ row.number ∉ live) = [sampleRow 15] := by
      refine List.filter_eq_self.2 fun row hrow => decide_eq_true ?_
      rw [List.mem_singleton.1 hrow]
      exact ⟨rfl, by decide, hmissed⟩
    show ∃ pruned store', (do
      let store ← ((sampleStore 15).deletePullRequests _).queueRetirements
        (Store.deletedPrKeys ((sampleStore 15).pullRequests.rows.filter _)) (some 20)
      return (Store.deletedPrKeys ((sampleStore 15).pullRequests.rows.filter _), store))
        = Except.ok (pruned, store')
    rw [hfilter]
    exact ⟨_, _, rfl⟩
  obtain ⟨pruned, store', hrun⟩ := hrun
  refine ⟨sampleStore 15, pruned, store', hrun, hrow, ?_⟩
  rw [(Prune.run_ok hrun).rows, Relational.Table.mem_delete]
  exact fun hkept => by simp [hdoomed] at hkept

/-- Syncs may all succeed. -/
theorem wp_syncListed_ok {result : List SyncRequest} {pulls : List SyncRequest}
    {post : Except HandlerError (List PrKey) → List PrRecord → Prop} {removed : List PrRecord}
    (h : (syncListed pulls).wp (S := SweepEffects) (reconcileSem result) post removed) :
    post (.ok []) removed := by
  induction pulls generalizing post with
  | nil => exact h
  | cons request rest ih =>
    have hrest : ((syncListed rest).bind _).wp (S := SweepEffects) (reconcileSem result) post
        removed := h (.ok ()) removed rfl
    have hdone := ih (Prog.wp_bind.1 hrest)
    exact hdone

/-- **A pull request open throughout is missed, and its row pruned.** -/
theorem listing_misses_open :
    sampleChurn.Answers "acme" "api" sampleChurn.serve ∧
      listDependabotPrs sampleChurn.serve "acme" "api" 1 2 1 [] = some (.ok sampleListed) ∧
      sampleChurn.Ends listingPageSize 2 ∧ ¬ sampleChurn.Complete 2 sampleListed ∧
      ¬ sampleChurn.Spared 2 ⟨1, "acme", "api"⟩ sampleListed := by
  refine ⟨sampleChurn.serve_answers _ _, sampleChurn_listing, sampleChurn_ends, ?_, ?_⟩
  · intro hcomplete
    have hlisted := hcomplete _ sampleChurn_throughout
    rw [sampleListed_numbers] at hlisted
    revert hlisted
    decide +kernel
  · intro hspared
    have hwp := Prog.wp_iff_runs.2 hspared
    have hremoves := sampleListed_removes
    generalize sampleListed = result at hwp hremoves
    have hlisted : ((syncListed result).bind _).wp (S := SweepEffects) _ _ [] :=
      hwp (.ok 20) [] rfl (.ok result) [] ⟨.inr rfl, rfl⟩
    have hsynced := wp_syncListed_ok (Prog.wp_bind.1 hlisted)
    have hpruned := hsynced (.ok {}) [sampleRow 15] fun row hrow => by
      rw [List.mem_singleton.1 hrow]
      exact .inr hremoves
    have hended := hpruned (.ok []) [sampleRow 15] rfl
    exact hended _ sampleChurn_throughout _ (List.mem_singleton.2 rfl) rfl

end Dependaboard
