import Mathlib.Data.Finset.Card
import Mathlib.Data.List.Nodup
import Mathlib.Tactic.Common
import Dependaboard.Durable.Exchange
import Dependaboard.Github.Listing
/-!
# GitHub — the listing of an installation's repositories

The repositories are read page after page until one is short or the total
the first page reported is reached, and the pages are folded into records or
refused: every page has to report one total, and the distinct repositories
have to make it up. `listInstallationRepositories_whole` is that the listing
ends, within the pages the first total asks for, and is whole or refused.
-/

namespace Dependaboard

open Durable Prog

/-! ## The first of each key -/

section RetainFirst

variable {α β : Type} [DecidableEq β]

/-- The elements whose key is none seen before them. -/
def retainFirst (key : α → β) (seen : List β) : List α → List α
  | [] => []
  | x :: rest =>
    if key x ∈ seen then retainFirst key seen rest
    else x :: retainFirst key (key x :: seen) rest

variable {key : α → β} {seen : List β} {xs : List α}

theorem retainFirst_sublist : (retainFirst key seen xs).Sublist xs := by
  induction xs generalizing seen with
  | nil => exact List.Sublist.refl _
  | cons x rest ih =>
    unfold retainFirst
    split_ifs
    · exact ih.cons x
    · exact ih.cons_cons x

theorem mem_map_retainFirst {k : β} :
    k ∈ (retainFirst key seen xs).map key ↔ k ∈ xs.map key ∧ k ∉ seen := by
  induction xs generalizing seen with
  | nil => simp [retainFirst]
  | cons x rest ih =>
    unfold retainFirst
    split_ifs with hx
    · rw [ih, List.map_cons, List.mem_cons]
      constructor
      · rintro ⟨hk, hseen⟩
        exact ⟨.inr hk, hseen⟩
      · rintro ⟨rfl | hk, hseen⟩
        · exact absurd hx hseen
        · exact ⟨hk, hseen⟩
    · rw [List.map_cons, List.map_cons, List.mem_cons, List.mem_cons, ih, List.mem_cons, not_or]
      constructor
      · rintro (rfl | ⟨hk, -, hseen⟩)
        · exact ⟨.inl rfl, hx⟩
        · exact ⟨.inr hk, hseen⟩
      · rintro ⟨rfl | hk, hseen⟩
        · exact .inl rfl
        · by_cases heq : k = key x
          · exact .inl heq
          · exact .inr ⟨hk, heq, hseen⟩

theorem nodup_map_retainFirst : ((retainFirst key seen xs).map key).Nodup := by
  induction xs generalizing seen with
  | nil => exact List.nodup_nil
  | cons x rest ih =>
    unfold retainFirst
    split_ifs
    · exact ih
    · rw [List.map_cons, List.nodup_cons]
      refine ⟨fun hmem => ?_, ih⟩
      exact (mem_map_retainFirst.1 hmem).2 List.mem_cons_self

/-- What is kept is the first of its key. -/
theorem find?_of_mem_retainFirst {x : α} (h : x ∈ retainFirst key seen xs) :
    xs.find? (fun y => key y = key x) = some x := by
  induction xs generalizing seen with
  | nil => cases h
  | cons y rest ih =>
    have hskip (hne : key y ≠ key x) (hrest : rest.find? (fun z => key z = key x) = some x) :
        (y :: rest).find? (fun z => key z = key x) = some x := by
      rw [List.find?_cons_of_neg (by simpa using hne), hrest]
    unfold retainFirst at h
    split_ifs at h with hy
    · have hx : key x ∉ seen := (mem_map_retainFirst.1 (List.mem_map_of_mem h)).2
      exact hskip (fun heq => hx (heq ▸ hy)) (ih h)
    · rcases List.mem_cons.1 h with rfl | h
      · exact List.find?_cons_of_pos (by simp)
      · have hx : key x ∉ key y :: seen := (mem_map_retainFirst.1 (List.mem_map_of_mem h)).2
        exact hskip (fun heq => hx (heq ▸ List.mem_cons_self)) (ih h)

/-- **They are kept in the order their keys first occur.** -/
theorem pairwise_idxOf_retainFirst :
    (retainFirst key seen xs).Pairwise fun x y =>
      (xs.map key).idxOf (key x) < (xs.map key).idxOf (key y) := by
  induction xs generalizing seen with
  | nil => exact List.Pairwise.nil
  | cons z rest ih =>
    -- what is kept behind `z` is of another key
    have hbehind {seen : List β} (hz : key z ∈ seen) {x : α} (hx : x ∈ retainFirst key seen rest) :
        ((z :: rest).map key).idxOf (key x) = (rest.map key).idxOf (key x) + 1 := by
      have hnew : key x ∉ seen := (mem_map_retainFirst.1 (List.mem_map_of_mem hx)).2
      have hne : key z ≠ key x := fun heq => hnew (heq ▸ hz)
      rw [List.map_cons, List.idxOf_cons_ne _ hne]
    have hrest {seen : List β} (hz : key z ∈ seen) : (retainFirst key seen rest).Pairwise fun x y =>
        ((z :: rest).map key).idxOf (key x) < ((z :: rest).map key).idxOf (key y) := by
      refine ih.imp_of_mem fun hx hy hlt => ?_
      rw [hbehind hz hx, hbehind hz hy]
      exact Nat.add_lt_add_right hlt 1
    unfold retainFirst
    split_ifs with hz
    · exact hrest hz
    · refine List.pairwise_cons.2 ⟨fun y hy => ?_, hrest List.mem_cons_self⟩
      rw [hbehind List.mem_cons_self hy, List.map_cons, List.idxOf_cons_self]
      exact Nat.succ_pos _

/-- There are as many kept as there are keys. -/
theorem length_retainFirst : (retainFirst key [] xs).length = (xs.map key).toFinset.card := by
  have hset : ((retainFirst key [] xs).map key).toFinset = (xs.map key).toFinset := by
    ext k
    simp only [List.mem_toFinset, mem_map_retainFirst, List.not_mem_nil, not_false_eq_true,
      and_true]
  rw [← hset, List.toFinset_card_of_nodup nodup_map_retainFirst, List.length_map]

end RetainFirst

/-! ## The pages -/

/-- Which merge methods a repository permits; a flag GitHub leaves out is
allowed. -/
structure MergeSettings where
  allowSquashMerge : Bool := true
  allowMergeCommit : Bool := true
  allowRebaseMerge : Bool := true
  deriving DecidableEq, Repr

/-- GitHub has a setting for each method, and refuses a merge by one that is
off. -/
def MergeSettings.allows (settings : MergeSettings) : MergeMethod → Bool
  | .squash => settings.allowSquashMerge
  | .merge => settings.allowMergeCommit
  | .rebase => settings.allowRebaseMerge

/-- The method to merge with where the preferred one is not allowed. -/
def MergeSettings.methodInsteadOf (settings : MergeSettings) (preferred : MergeMethod) :
    Option MergeMethod :=
  if settings.allows preferred then none
  else [.squash, .merge, .rebase].find? settings.allows

/-- A repository as the listing shows it. -/
structure GithubRepository where
  id : ℕ
  name : String
  /-- Its owner's login. -/
  owner : String
  mergeSettings : MergeSettings
  deriving DecidableEq, Repr

/-- One page of the listing: its repositories, and how many the installation
has in all. -/
structure InstallationRepositories where
  totalCount : ℕ
  repositories : List GithubRepository
  deriving DecidableEq, Repr

/-- What is recorded of the repositories. -/
structure Stamp where
  installationId : ℕ
  preferred : MergeMethod
  syncedAt : ℕ
  deriving DecidableEq, Repr

/-- The record of a repository. -/
def GithubRepository.record (stamp : Stamp) (repo : GithubRepository) : RepoRecord where
  repositoryId := repo.id
  installationId := stamp.installationId
  owner := repo.owner
  repo := repo.name
  mergeMethod := repo.mergeSettings.methodInsteadOf stamp.preferred
  syncedAt := stamp.syncedAt

/-! ## Their fold -/

/-- A listing that moved under its pages. -/
def shiftedRepositories (detail : String) : GithubError :=
  .shifted "installation repositories" detail

/-- The records of the pages left, the total and the records of those before
them in hand. -/
def foldPages (stamp : Stamp) : Option ℕ → List RepoRecord → List InstallationRepositories →
    Except GithubError (Option ℕ × List RepoRecord)
  | total, repositories, [] => .ok (total, repositories)
  | total, repositories, page :: rest =>
    let total := total.getD page.totalCount
    if page.totalCount ≠ total then
      .error (shiftedRepositories ("the total moved from " ++ toString total ++ " to "
        ++ toString page.totalCount ++ " between pages"))
    else
      foldPages stamp (some total)
        (repositories ++ page.repositories.map (GithubRepository.record stamp)) rest

/-- The pages of one listing as records, or refused. -/
def foldRepositoryPages (stamp : Stamp) (pages : List InstallationRepositories) :
    Except GithubError (List RepoRecord) :=
  match foldPages stamp none [] pages with
  | .error error => .error error
  | .ok (total, repositories) =>
    let total := total.getD 0
    let repositories := retainFirst RepoRecord.repositoryId [] repositories
    if repositories.length ≠ total then
      .error (shiftedRepositories (toString repositories.length
        ++ " distinct repositories were listed against a total of " ++ toString total))
    else .ok repositories

/-- The repositories of some pages, in the order they were listed. -/
def listedIn (pages : List InstallationRepositories) : List GithubRepository :=
  pages.flatMap InstallationRepositories.repositories

theorem listedIn_cons (page : InstallationRepositories) (rest : List InstallationRepositories) :
    listedIn (page :: rest) = page.repositories ++ listedIn rest :=
  List.flatMap_cons

variable {stamp : Stamp} {pages : List InstallationRepositories} {records : List RepoRecord}

/-- With a total in hand, the pages left have to report it. -/
theorem foldPages_some {total : ℕ} {repositories : List RepoRecord}
    {folded : Option ℕ × List RepoRecord} :
    foldPages stamp (some total) repositories pages = .ok folded ↔
      (∀ page ∈ pages, page.totalCount = total) ∧
        folded = (some total, repositories ++ (listedIn pages).map (GithubRepository.record stamp))
    := by
  induction pages generalizing repositories with
  | nil => simp [foldPages, listedIn, eq_comm]
  | cons page rest ih =>
    simp only [foldPages, Option.getD_some]
    split_ifs with hmoved
    · refine iff_of_false (fun h => by cases h) fun h => ?_
      exact hmoved (h.1 page List.mem_cons_self)
    · rw [ih, List.forall_mem_cons, listedIn_cons, List.map_append, List.append_assoc, and_assoc,
        and_iff_right (not_not.1 hmoved)]

/-- The first page's total is the one the others have to report. -/
theorem foldPages_cons (page : InstallationRepositories) (rest : List InstallationRepositories) :
    foldPages stamp none [] (page :: rest)
      = foldPages stamp (some page.totalCount)
        (page.repositories.map (GithubRepository.record stamp)) rest := by
  simp [foldPages]

/-- **A fold returns exactly where every page reports as many repositories
as there are distinct ones**, and what it returns is the first of each. -/
theorem foldRepositoryPages_eq_ok :
    foldRepositoryPages stamp pages = .ok records ↔
      (∀ page ∈ pages,
        page.totalCount = ((listedIn pages).map GithubRepository.id).toFinset.card) ∧
      records = retainFirst RepoRecord.repositoryId []
        ((listedIn pages).map (GithubRepository.record stamp)) := by
  have hlength : (retainFirst RepoRecord.repositoryId []
      ((listedIn pages).map (GithubRepository.record stamp))).length
        = ((listedIn pages).map GithubRepository.id).toFinset.card := by
    rw [length_retainFirst, List.map_map]
    rfl
  rw [← hlength]
  cases pages with
  | nil => simp [foldRepositoryPages, foldPages, retainFirst, listedIn, eq_comm]
  | cons page rest =>
    unfold foldRepositoryPages
    rw [foldPages_cons]
    cases hfold : foldPages stamp (some page.totalCount)
      (page.repositories.map (GithubRepository.record stamp)) rest with
    | error error =>
      refine iff_of_false (fun h => by cases h) ?_
      rintro ⟨hsame, -⟩
      obtain ⟨hpage, hrest⟩ := List.forall_mem_cons.1 hsame
      have hok : foldPages stamp (some page.totalCount)
          (page.repositories.map (GithubRepository.record stamp)) rest = .ok _ :=
        foldPages_some.2 ⟨fun other hother => (hrest other hother).trans hpage.symm, rfl⟩
      rw [hfold] at hok
      cases hok
    | ok folded =>
      obtain ⟨hrest, rfl⟩ := foldPages_some.1 hfold
      rw [← List.map_append, ← listedIn_cons]
      dsimp only [Option.getD_some]
      split_ifs with hshort
      · refine iff_of_false (fun h => by cases h) ?_
        rintro ⟨hsame, -⟩
        exact hshort (hsame page List.mem_cons_self).symm
      · rw [not_not] at hshort
        rw [Except.ok.injEq, List.forall_mem_cons, and_iff_right, eq_comm]
        exact ⟨hshort.symm, fun other hother => (hrest other hother).trans hshort.symm⟩

/-- **Records that are the repositories listed**: distinct, each the first of
its id, in the order the ids first occur, and stamped. -/
structure WholeListing (stamp : Stamp) (pages : List InstallationRepositories)
    (records : List RepoRecord) : Prop where
  nodup : (records.map RepoRecord.repositoryId).Nodup
  mem_iff : ∀ id, id ∈ records.map RepoRecord.repositoryId ↔
    id ∈ (listedIn pages).map GithubRepository.id
  sublist : records.Sublist ((listedIn pages).map (GithubRepository.record stamp))
  ordered : records.Pairwise fun earlier later =>
    ((listedIn pages).map GithubRepository.id).idxOf earlier.repositoryId <
      ((listedIn pages).map GithubRepository.id).idxOf later.repositoryId
  first : ∀ record ∈ records, ∃ repo, record = repo.record stamp ∧
    (listedIn pages).find? (fun other => other.id = repo.id) = some repo
  stamped : ∀ record ∈ records,
    record.installationId = stamp.installationId ∧ record.syncedAt = stamp.syncedAt

theorem wholeListing_retainFirst : WholeListing stamp pages
    (retainFirst RepoRecord.repositoryId []
      ((listedIn pages).map (GithubRepository.record stamp))) := by
  have hids : ((listedIn pages).map (GithubRepository.record stamp)).map RepoRecord.repositoryId
      = (listedIn pages).map GithubRepository.id := by
    rw [List.map_map]
    rfl
  refine ⟨nodup_map_retainFirst, fun id => ?_, retainFirst_sublist,
    hids ▸ pairwise_idxOf_retainFirst, fun record hrecord => ?_, fun record hrecord => ?_⟩
  · rw [mem_map_retainFirst, hids, and_iff_left List.not_mem_nil]
  · have hfind := find?_of_mem_retainFirst hrecord
    rw [List.find?_map, Option.map_eq_some_iff] at hfind
    obtain ⟨repo, hrepo, rfl⟩ := hfind
    exact ⟨repo, rfl, hrepo⟩
  · obtain ⟨repo, -, rfl⟩ := List.mem_map.1 (retainFirst_sublist.subset hrecord)
    exact ⟨rfl, rfl⟩

/-! ## The listing -/

/-- What a listing asks. -/
inductive ListingOp where
  | unixSeconds
  | getPage (page : ℕ)
  deriving DecidableEq, Repr

/-- What a page's request is sent to. -/
def repositoriesPath (page : ℕ) : String :=
  "/installation/repositories?per_page=" ++ toString listingPageSize ++ "&page=" ++ toString page

/-- The interface of the listing: the clock its records are stamped by, and
one page at a time. -/
@[reducible] def ListingEffects : Signature :=
  ⟨ListingOp, fun
    | .unixSeconds => ℕ
    | .getPage _ => Except GithubError InstallationRepositories⟩

/-- The total the first page reported, `page` the first where there is none
before it. -/
def firstTotal (pages : List InstallationRepositories) (page : InstallationRepositories) : ℕ :=
  (pages.head?.map InstallationRepositories.totalCount).getD page.totalCount

/-- The pages from the one after `pages` on, which list so many
repositories. -/
def listPages (pages : List InstallationRepositories) (listed : ℕ) :
    Prog ListingEffects GithubError (List InstallationRepositories) :=
  .ask (.getPage (pages.length + 1)) fun
    | .error error => .fail error
    | .ok page =>
      if page.repositories.length < listingPageSize ∨
          firstTotal pages page ≤ listed + page.repositories.length then
        .done (pages ++ [page])
      else listPages (pages ++ [page]) (listed + page.repositories.length)
termination_by (if pages = [] then 1 else 0,
  (pages.head?.map InstallationRepositories.totalCount).getD 0 - listed)
decreasing_by
  rename_i hopen
  rw [not_or, Nat.not_lt, Nat.not_le] at hopen
  have hsize : 0 < listingPageSize := by decide
  cases pages with
  | nil => exact Prod.Lex.left _ _ Nat.zero_lt_one
  | cons first rest =>
    refine Prod.Lex.right _ ?_
    simp only [firstTotal, List.cons_append, List.head?_cons, Option.map_some,
      Option.getD_some] at hopen ⊢
    omega

/-- The repositories of an installation. -/
def listInstallationRepositories (installationId : ℕ) (mergeMethod : MergeMethod) :
    Prog ListingEffects GithubError (List RepoRecord) :=
  .ask .unixSeconds fun syncedAt => do
    let pages ← listPages [] 0
    Prog.ofExcept (foldRepositoryPages ⟨installationId, mergeMethod, syncedAt⟩ pages)

/-! ## What it asks -/

/-- The reads of some pages, the first of them after `read` others. -/
def pageReads : (read : ℕ) → List InstallationRepositories → List (Exchange ListingEffects)
  | _, [] => []
  | read, page :: rest => ⟨.getPage (read + 1), .ok page⟩ :: pageReads (read + 1) rest

/-- How many pages a total asks for. -/
def pagesFor (total : ℕ) : ℕ := max 1 ((total + listingPageSize - 1) / listingPageSize)

/-- While full pages fall short of the first total, it asks for one more. -/
theorem length_lt_pagesFor {listed total : ℕ} (hfull : listingPageSize * pages.length ≤ listed)
    (hopen : ∀ first ∈ pages.head?, listed < first.totalCount)
    (htotal : ∀ first ∈ pages.head?, first.totalCount = total) :
    pages.length + 1 ≤ pagesFor total := by
  have hsize : listingPageSize = 100 := rfl
  unfold pagesFor
  cases pages with
  | nil => exact le_max_left _ _
  | cons first rest =>
    have hlisted := hopen first rfl
    rw [htotal first rfl] at hlisted
    rw [hsize] at hfull ⊢
    omega

/-- **What the pages' reads come to**: pages one after another, or one that
failed after some, and no more of them than the first total asks for. -/
theorem exchanges_listPages {listed : ℕ} {es : List (Exchange ListingEffects)}
    {r : Except GithubError (List InstallationRepositories)}
    (h : (listPages pages listed).Exchanges es r)
    (hfull : listingPageSize * pages.length ≤ listed)
    (hopen : ∀ first ∈ pages.head?, listed < first.totalCount) :
    ∃ read, (es = pageReads pages.length read ∧ r = .ok (pages ++ read) ∨
        ∃ error, es = pageReads pages.length read
          ++ [⟨.getPage (pages.length + read.length + 1), .error error⟩] ∧ r = .error error) ∧
      ∀ total, (∀ first ∈ (pages ++ read).head?, first.totalCount = total) →
        pages.length + es.length ≤ pagesFor total := by
  -- on the pages and what they list, as the loop goes round
  induction pages, listed using listPages.induct generalizing es with
  | case1 pages listed ih =>
    rw [listPages] at h
    obtain ⟨answer, rest, rfl, hrest⟩ := exchanges_ask.1 h
    have hbound (read : List InstallationRepositories) (total : ℕ)
        (htotal : ∀ first ∈ (pages ++ read).head?, first.totalCount = total) :
        pages.length + 1 ≤ pagesFor total :=
      length_lt_pagesFor hfull hopen fun first hfirst =>
        htotal first (List.mem_head?_append_of_mem_head? hfirst)
    cases answer with
    | error error =>
      obtain ⟨rfl, rfl⟩ := exchanges_fail.1 hrest
      exact ⟨[], .inr ⟨error, rfl, rfl⟩, hbound []⟩
    | ok page =>
      dsimp only at hrest
      split_ifs at hrest with hlast
      · obtain ⟨rfl, rfl⟩ := exchanges_done.1 hrest
        exact ⟨[page], .inl ⟨rfl, rfl⟩, hbound [page]⟩
      · have hlast' := hlast
        rw [not_or, Nat.not_lt, Nat.not_le] at hlast'
        obtain ⟨hlong, hshort⟩ := hlast'
        obtain ⟨read, hread, hcount⟩ := ih page hlast hrest
          (by rw [List.length_append, List.length_singleton, Nat.mul_succ]; omega)
          (fun first hfirst => by
            cases pages with
            | nil =>
              obtain rfl := Option.some.inj hfirst
              exact hshort
            | cons other _ =>
              obtain rfl := Option.some.inj hfirst
              exact hshort)
        rw [List.length_append, List.length_singleton] at hread hcount
        refine ⟨page :: read, ?_, fun total htotal => ?_⟩
        · rcases hread with ⟨rfl, rfl⟩ | ⟨error, rfl, rfl⟩
          · exact .inl ⟨rfl, by rw [List.append_assoc, List.singleton_append]⟩
          · refine .inr ⟨error, ?_, rfl⟩
            rw [List.length_cons, Nat.add_right_comm _ 1, Nat.add_assoc _ read.length 1]
            rfl
        · have := hcount total (by rwa [List.append_assoc, List.singleton_append])
          rw [List.length_cons]
          omega

/-! ## The listing is whole or refused -/

/-- The pages' requests among what a listing asked. -/
def pagesAsked (es : List (Exchange ListingEffects)) : List ℕ :=
  es.filterMap fun
    | ⟨.unixSeconds, _⟩ => none
    | ⟨.getPage page, _⟩ => some page

/-- **A listing's course**: the clock, then the pages up to the last, which
are folded, or up to one that fails. -/
theorem exchanges_listInstallationRepositories {installationId : ℕ} {mergeMethod : MergeMethod}
    {es : List (Exchange ListingEffects)} {r : Except GithubError (List RepoRecord)}
    (h : (listInstallationRepositories installationId mergeMethod).Exchanges es r) :
    ∃ (syncedAt : ℕ) (pages : List InstallationRepositories) (asked : List (Exchange ListingEffects)),
      es = ⟨.unixSeconds, syncedAt⟩ :: asked ∧
        (asked = pageReads 0 pages ∧
            r = foldRepositoryPages ⟨installationId, mergeMethod, syncedAt⟩ pages ∨
          ∃ error, asked = pageReads 0 pages ++ [⟨.getPage (pages.length + 1), .error error⟩] ∧
            r = .error error) ∧
        ∀ total, (∀ first ∈ pages.head?, first.totalCount = total) →
          asked.length ≤ pagesFor total := by
  obtain ⟨syncedAt, rest, rfl, hrest⟩ := exchanges_ask.1 h
  have hread {asked : List (Exchange ListingEffects)}
      {pages : Except GithubError (List InstallationRepositories)}
      (h : (listPages [] 0).Exchanges asked pages) :=
    exchanges_listPages h (Nat.le_refl 0) (fun first hfirst => by cases hfirst)
  simp only [List.length_nil, Nat.zero_add, List.nil_append] at hread
  rcases exchanges_bind.1 hrest with ⟨error, rfl, hfail⟩ | ⟨pages, first, last, rfl, hpages, hlast⟩
  · obtain ⟨read, ⟨-, hok⟩ | ⟨error', rfl, herror⟩, hcount⟩ := hread hfail
    · cases hok
    · obtain rfl := Except.error.inj herror
      refine ⟨syncedAt, read, _, rfl, .inr ⟨error, ?_, rfl⟩, hcount⟩
      rw [Nat.zero_add]
  · obtain ⟨read, ⟨rfl, hok⟩ | ⟨error, -, herror⟩, hcount⟩ := hread hpages
    · obtain rfl := Except.ok.inj hok
      obtain ⟨rfl, rfl⟩ := exchanges_ofExcept.1 hlast
      refine ⟨syncedAt, pages, _, rfl, .inl ⟨List.append_nil _, rfl⟩, fun total htotal => ?_⟩
      rw [List.append_nil]
      exact hcount total htotal
    · cases herror

/-- **Whatever the server answers, page for page, a listing ends**, having
asked for no more pages than the total of the first, and comes to the fold of
what it read; **and the fold is the repositories listed where every page's
total is how many distinct ones there are, and refused otherwise**. -/
theorem listInstallationRepositories_whole (installationId : ℕ) (mergeMethod : MergeMethod) :
    (∀ answer : List (Exchange ListingEffects) → (op : ListingOp) → ListingEffects.Ans op,
      ∃ es r, (listInstallationRepositories installationId mergeMethod).played answer [] = (es, r) ∧
        (listInstallationRepositories installationId mergeMethod).Exchanges es r) ∧
    (∀ (es : List (Exchange ListingEffects)) (r : Except GithubError (List RepoRecord)),
      (listInstallationRepositories installationId mergeMethod).Exchanges es r →
      -- the clock is read once, before the first page
      ∃ (syncedAt : ℕ) (pages : List InstallationRepositories),
        (es = ⟨.unixSeconds, syncedAt⟩ :: pageReads 0 pages ∧
            r = foldRepositoryPages ⟨installationId, mergeMethod, syncedAt⟩ pages ∨
          ∃ error, es = ⟨.unixSeconds, syncedAt⟩ ::
              (pageReads 0 pages ++ [⟨.getPage (pages.length + 1), .error error⟩]) ∧
            r = .error error) ∧
        ∀ total, (∀ first ∈ pages.head?, first.totalCount = total) →
          (pagesAsked es).length ≤ pagesFor total) ∧
    (∀ (stamp : Stamp) (pages : List InstallationRepositories),
      ((∃ records, foldRepositoryPages stamp pages = .ok records) ↔ ∃ total,
        (∀ page ∈ pages, page.totalCount = total) ∧
          ((listedIn pages).map GithubRepository.id).toFinset.card = total) ∧
      ∀ records, foldRepositoryPages stamp pages = .ok records →
        WholeListing stamp pages records) := by
  refine ⟨fun answer => ⟨_, _, rfl, exchanges_played _ answer []⟩, fun es r h => ?_,
    fun stamp pages => ⟨?_, fun records hrecords => ?_⟩⟩
  · obtain ⟨syncedAt, pages, asked, rfl, hcourse, hcount⟩ :=
      exchanges_listInstallationRepositories h
    have hasked : (pagesAsked (⟨.unixSeconds, syncedAt⟩ :: asked)).length ≤ asked.length :=
      List.length_filterMap_le _ asked
    refine ⟨syncedAt, pages, ?_, fun total htotal => hasked.trans (hcount total htotal)⟩
    rcases hcourse with ⟨rfl, rfl⟩ | ⟨error, rfl, rfl⟩
    · exact .inl ⟨rfl, rfl⟩
    · exact .inr ⟨error, rfl, rfl⟩
  · constructor
    · rintro ⟨records, hrecords⟩
      exact ⟨_, (foldRepositoryPages_eq_ok.1 hrecords).1, rfl⟩
    · rintro ⟨total, hsame, rfl⟩
      exact ⟨_, foldRepositoryPages_eq_ok.2 ⟨hsame, rfl⟩⟩
  · obtain ⟨-, rfl⟩ := foldRepositoryPages_eq_ok.1 hrecords
    exact wholeListing_retainFirst

end Dependaboard
