import Dependaboard.Github.Error
/-!
# GitHub — the listing of a repository's pull requests

The open pull requests are read page after page until a page is short, and
those Dependabot opened are kept. Nothing ties one page to the next.
-/

namespace Dependaboard

/-- How many items a page is asked for. -/
def listingPageSize : ℕ := 100

/-- The author of the pull requests the dashboard is about. -/
def dependabotLogin : String := "dependabot[bot]"

/-- One pull request as a listing shows it. -/
structure PullListItem where
  number : ℕ
  login : String
  deriving DecidableEq, Repr

/-- A request for one page of a repository's open pull requests. -/
structure PullsPage where
  owner : String
  repo : String
  page : ℕ
  deriving DecidableEq, Repr

/-- What the request is sent to. -/
def PullsPage.path (request : PullsPage) : String :=
  "/repos/" ++ request.owner ++ "/" ++ request.repo ++ "/pulls?state=open&per_page="
    ++ toString listingPageSize ++ "&page=" ++ toString request.page

/-- The sync a listed pull request is given. -/
def PullListItem.syncRequest (repositoryId : ℕ) (owner repo : String) (pull : PullListItem) :
    SyncRequest :=
  ⟨repositoryId, owner, repo, pull.number, false, none⟩

@[simp] theorem PullListItem.syncRequest_number (repositoryId : ℕ) (owner repo : String)
    (pull : PullListItem) : (pull.syncRequest repositoryId owner repo).number = pull.number := rfl

/-- List the repository's open Dependabot pull requests from `page` on,
`pulls` listed already; `none` when `fuel` pages were not enough. -/
def listDependabotPrs (send : PullsPage → Except GithubError (List PullListItem))
    (owner repo : String) (repositoryId : ℕ) :
    (fuel page : ℕ) → List SyncRequest → Option (Except GithubError (List SyncRequest))
  | 0, _, _ => none
  | fuel + 1, page, pulls =>
    match send ⟨owner, repo, page⟩ with
    | .error error => some (.error error)
    | .ok response =>
      let pulls := pulls ++ (response.filter (·.login = dependabotLogin)).map
        (PullListItem.syncRequest repositoryId owner repo)
      if response.length < listingPageSize then some (.ok pulls)
      else listDependabotPrs send owner repo repositoryId fuel (page + 1) pulls

variable {send : PullsPage → Except GithubError (List PullListItem)} {owner repo : String}
  {repositoryId : ℕ}

/-- **What a listing that returned has read**: full pages up to a short one,
and of each the pull requests that are Dependabot's. -/
theorem listDependabotPrs_ok {fuel page : ℕ} {pulls result : List SyncRequest}
    (h : listDependabotPrs send owner repo repositoryId fuel page pulls = some (.ok result)) :
    ∃ last, page ≤ last ∧
      (∀ p, page ≤ p → p < last →
        ∃ response, send ⟨owner, repo, p⟩ = .ok response ∧ listingPageSize ≤ response.length) ∧
      (∃ response, send ⟨owner, repo, last⟩ = .ok response ∧
        response.length < listingPageSize) ∧
      ∀ number, number ∈ result.map (·.number) ↔ number ∈ pulls.map (·.number) ∨
        ∃ p, page ≤ p ∧ p ≤ last ∧ ∃ response, send ⟨owner, repo, p⟩ = .ok response ∧
          ∃ pull ∈ response, pull.login = dependabotLogin ∧ pull.number = number := by
  -- on the fuel, whatever has been listed so far
  induction fuel generalizing page pulls with
  | zero => cases h
  | succ fuel ih =>
    unfold listDependabotPrs at h
    split at h
    · cases h
    · rename_i response hsend
      dsimp only at h
      split at h
      · rename_i hshort
        -- a short page is the last one asked for
        refine ⟨page, le_rfl, fun p hp hlt => absurd hp (by omega), ⟨response, hsend, hshort⟩, ?_⟩
        intro number
        cases h
        have hone : (∃ p, page ≤ p ∧ p ≤ page ∧ ∃ response, send ⟨owner, repo, p⟩ = .ok response ∧
            ∃ pull ∈ response, pull.login = dependabotLogin ∧ pull.number = number) ↔
            ∃ pull ∈ response, pull.login = dependabotLogin ∧ pull.number = number := by
          constructor
          · rintro ⟨p, hlow, hhigh, response', hsend', hpull⟩
            obtain rfl : p = page := by omega
            rw [hsend] at hsend'
            cases hsend'
            exact hpull
          · intro hpull
            exact ⟨page, le_rfl, le_rfl, response, hsend, hpull⟩
        rw [hone]
        simp [List.mem_map, and_assoc]
      · rename_i hfull
        obtain ⟨last, hlast, hpages, hend, hmem⟩ := ih h
        refine ⟨last, by omega, ?_, hend, ?_⟩
        · intro p hp hlt
          rcases Nat.eq_or_lt_of_le hp with rfl | hp
          · exact ⟨response, hsend, by omega⟩
          · exact hpages p hp hlt
        · intro number
          rw [hmem number, List.map_append, List.mem_append, or_assoc]
          refine or_congr Iff.rfl ?_
          constructor
          · rintro (hfirst | ⟨p, hp, hrest⟩)
            · refine ⟨page, le_rfl, by omega, response, hsend, ?_⟩
              simpa [List.mem_map, and_assoc] using hfirst
            · exact ⟨p, by omega, hrest⟩
          · rintro ⟨p, hp, hle, response', hsend', hpull⟩
            rcases Nat.eq_or_lt_of_le hp with rfl | hp
            · rw [hsend] at hsend'
              cases hsend'
              left
              simpa [List.mem_map, and_assoc] using hpull
            · exact .inr ⟨p, hp, hle, response', hsend', hpull⟩

/-- Every pull request listed is of the repository asked about. -/
theorem listDependabotPrs_repository {fuel page : ℕ} {pulls result : List SyncRequest}
    (h : listDependabotPrs send owner repo repositoryId fuel page pulls = some (.ok result)) :
    ∀ request ∈ result, request ∈ pulls ∨ request.repositoryId = repositoryId := by
  induction fuel generalizing page pulls with
  | zero => cases h
  | succ fuel ih =>
    unfold listDependabotPrs at h
    split at h
    · cases h
    · rename_i response hsend
      have hadded : ∀ request ∈ pulls ++ (response.filter (·.login = dependabotLogin)).map
          (PullListItem.syncRequest repositoryId owner repo),
          request ∈ pulls ∨ request.repositoryId = repositoryId := by
        intro request hmem
        refine (List.mem_append.1 hmem).imp_right fun hnew => ?_
        obtain ⟨pull, -, rfl⟩ := List.mem_map.1 hnew
        rfl
      dsimp only at h
      split at h
      · obtain rfl := Except.ok.inj (Option.some.inj h)
        exact hadded
      · intro request hmem
        rcases ih h request hmem with hbefore | hrepository
        · exact hadded request hbefore
        · exact .inr hrepository

end Dependaboard
