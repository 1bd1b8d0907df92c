import Dependaboard.Mutation.Attempt
import Dependaboard.Paging.Moving
/-!
# Mutation — carried out once

GitHub beside the attempts of one mutation: the pull request and its
comments as they stand, how many of the mutation's writes have been carried
out, and what others may do between two requests. Each mutation keeps to
one in its own way: a merge because a merged pull request reads merged, a
command because its comment stays listed, a branch update because its head
has moved, unless somebody moves it back.
-/

namespace Dependaboard

open Durable GithubExchange GithubM

/-- The pull request a mutation targets, as GitHub has it. -/
structure GithubWorld where
  pull : GithubPull
  comments : List IssueComment
  /-- How many writes of the mutation GitHub has carried out. -/
  landed : ℕ
  /-- How often somebody else moved the head back to the expected one. -/
  returns : ℕ

variable {target : PrTarget} {g g' : GithubWorld}

/-- What others may have done between two requests: anything, but that a
merged pull request stays merged and closed and a listed comment listed. -/
structure Moves (target : PrTarget) (g g' : GithubWorld) : Prop where
  merged : g.pull.merged → g'.pull.merged ∧ g'.pull.state ≠ "open"
  listed : g.comments <+: g'.comments
  landed : g'.landed = g.landed
  returns : g'.returns =
    if g.pull.headSha ≠ target.expectedSha ∧ g'.pull.headSha = target.expectedSha then
      g.returns + 1
    else g.returns

/-- GitHub carries a write out, the head it names being the pull request's:
a merge merges and closes, a comment is listed last, an update moves the
head. -/
inductive Lands : GithubCall → GithubWorld → GithubWorld → Prop
  | merge {path sha : String} {method : MergeMethod} {g : GithubWorld} {commit : Option String} :
      g.pull.headSha = sha →
      Lands (.putMerge path sha method) g
        { g with
          pull := { g.pull with state := "closed", merged := true, mergeCommitSha := commit }
          landed := g.landed + 1 }
  | comment {path body : String} {g : GithubWorld} {id : ℕ} :
      Lands (.postComment path body) g
        { g with comments := g.comments ++ [⟨id, body⟩], landed := g.landed + 1 }
  | update {path sha head : String} {g : GithubWorld} :
      g.pull.headSha = sha → head ≠ sha →
      Lands (.putUpdateBranch path sha) g
        { g with pull := { g.pull with headSha := head }, landed := g.landed + 1 }

/-- What the answer to a write carried out may be: it says so, or was lost,
cannot be read, or a gateway failed in its place. -/
def Owns : (call : GithubCall) → Reply call.Payload → Prop
  | .putMerge _ _ _, .ok (.answered answer) => answer.merged
  | _, .ok (.refused response) => 500 ≤ response.status
  | _, _ => True

/-- What the answer to anything else may be: a read that succeeds shows what
is there. -/
def Shows (g : GithubWorld) : (call : GithubCall) → Reply call.Payload → Prop
  | .getPull _, .ok (.answered pull) => pull = g.pull
  | .listComments _ page, .ok (.answered comments) =>
    comments = Paging.page listingPageSize page g.comments
  | _, _ => True

/-- **GitHub's part**: others may have moved, then the request is carried out
and answered so, or answered and nothing more. -/
def githubSem (target : PrTarget) (request : Request) (g : GithubWorld)
    (reply : Reply request.call.Payload) (g' : GithubWorld) : Prop :=
  ∃ moved, Moves target g moved ∧
    ((g' = moved ∧ Shows moved request.call reply) ∨
      (Lands request.call moved g' ∧ Owns request.call reply))

/-- One attempt that was made: what it exchanged, and how it ended. -/
structure Attempted (mutation : Mutation) where
  exchanges : List GithubExchange
  result : Except Halt mutation.Done

/-- **The attempts of one mutation**, one after the other, whatever became of
each; one that is cut off is one whose remaining answers are lost. -/
inductive Attempts (config : GithubConfig) (mutation : Mutation) :
    GithubWorld → List (Attempted mutation) → GithubWorld → Prop
  | start (g : GithubWorld) : Attempts config mutation g [] g
  | next {g h k : GithubWorld} {past : List (Attempted mutation)} {fuel : ℕ}
      {es : List GithubExchange} {result : Except Halt mutation.Done} :
      Attempts config mutation g past h →
      Prog.RunsOver (S := GithubEffects) (githubSem mutation.target)
        (mutation.attempt config fuel) h es result k →
      Attempts config mutation g (past ++ [⟨es, result⟩]) k

/-! ## What every request keeps -/

/-- Others keep `P`. -/
def Keeps (target : PrTarget) (P : GithubWorld → Prop) : Prop :=
  ∀ ⦃g g'⦄, Moves target g g' → P g → P g'

/-- A write carried out takes `P` to `Q`. -/
def Carries (call : GithubCall) (P Q : GithubWorld → Prop) : Prop :=
  ∀ ⦃g g'⦄, P g → Lands call g g' → Q g'

theorem not_lands_of_reads {call : GithubCall} (h : call.writes = false) :
    ¬ Lands call g g' := by
  rintro (_ | _ | _) <;> cases h

variable {stage : Stage} {call : GithubCall} {P Q : GithubWorld → Prop}

/-- **The rule of a read**: what others keep it keeps, and it shows what is
there. -/
theorem wp_send_read (hP : Keeps target P) (hreads : call.writes = false) (h : P g) :
    (send stage call).wp (githubSem target)
      (fun r g' => P g' ∧ ∀ response, r = .ok response → Shows g' call (.ok response)) g := by
  rintro reply g' ⟨moved, hmoves, ⟨rfl, hshows⟩ | ⟨hlands, -⟩⟩
  · have hmoved := hP hmoves h
    cases reply with
    | error cause => exact ⟨hmoved, fun _ hno => by cases hno⟩
    | ok response => exact ⟨hmoved, fun _ hok => by cases hok; exact hshows⟩
  · exact absurd hlands (not_lands_of_reads hreads)

/-- **The rule of a write**: it was carried out, or answered and nothing
more; and it was not carried out if it was answered 401. -/
theorem wp_send_write (hP : Keeps target P) (hcarries : Carries call P Q) (himp : ∀ g, P g → Q g)
    (h : P g) :
    (send stage call).wp (githubSem target)
      (fun r g' => Q g' ∧ ∀ response, r = .ok response → response.unauthorized → P g') g := by
  rintro reply g' ⟨moved, hmoves, ⟨rfl, -⟩ | ⟨hlands, howns⟩⟩
  · have hmoved := hP hmoves h
    cases reply with
    | error cause => exact ⟨himp _ hmoved, fun _ hno => by cases hno⟩
    | ok response => exact ⟨himp _ hmoved, fun _ _ _ => hmoved⟩
  · have hcarried := hcarries (hP hmoves h) hlands
    cases reply with
    | error cause => exact ⟨hcarried, fun _ hno => by cases hno⟩
    | ok response =>
      refine ⟨hcarried, fun _ hok hunauthorized => ?_⟩
      cases hok
      cases response with
      | refused failure =>
        have hserver : 500 ≤ failure.status := by cases hlands <;> exact howns
        have hstatus : failure.status = 401 := by
          simpa [Response.unauthorized] using hunauthorized
        omega
      | unreadable source => simp [Response.unauthorized] at hunauthorized
      | answered value => simp [Response.unauthorized] at hunauthorized

/-- A token asked for is a read. -/
theorem wp_installationToken {forceRefresh : Bool} (hP : Keeps target P) (h : P g) :
    (installationToken stage forceRefresh).wp (githubSem target) (fun _ g' => P g') g := by
  refine Prog.wp_bind.2 (Prog.wp_mono (wp_send_read hP rfl h) ?_)
  rintro (halt | response) g' ⟨hg', -⟩
  · exact hg'
  rcases response with response | source | (message | _) <;> exact hg'

/-- **The rule of a request made as the App**, from the rule of sending it:
answered 401, it has changed nothing and is sent once more. -/
theorem wp_installationRequest {R : Response call.Payload → GithubWorld → Prop}
    (hP : Keeps target P) (himp : ∀ g, P g → Q g)
    (hsend : ∀ g, P g → (send stage call).wp (githubSem target)
      (fun r g' => Q g' ∧ ∀ response, r = .ok response →
        (response.unauthorized → P g') ∧ R response g') g)
    (h : P g) :
    (installationRequest stage call).wp (githubSem target)
      (fun r g' => Q g' ∧ ∀ response, r = .ok response → R response g') g := by
  have hagain : ∀ {g : GithubWorld}, P g →
      (send stage call).wp (githubSem target)
        (fun r g' => Q g' ∧ ∀ response, r = .ok response → R response g') g := fun hg =>
    Prog.wp_mono (hsend _ hg) fun _ _ hr => ⟨hr.1, fun response hok => (hr.2 response hok).2⟩
  refine Prog.wp_bind.2 (Prog.wp_mono (wp_installationToken hP h) ?_)
  rintro (halt | _) g₁ hg₁
  · exact ⟨himp _ hg₁, fun _ hno => by cases hno⟩
  refine Prog.wp_bind.2 (Prog.wp_mono (hsend g₁ hg₁) ?_)
  rintro (halt | response) g₂ ⟨hg₂, hresponse⟩
  · exact ⟨hg₂, fun _ hno => by cases hno⟩
  obtain ⟨hback, hR⟩ := hresponse response rfl
  show Prog.wp _ (if response.unauthorized then _ else _) _ _
  by_cases hunauthorized : response.unauthorized
  · rw [if_pos hunauthorized]
    refine Prog.wp_bind.2 (Prog.wp_mono (wp_installationToken hP (hback hunauthorized)) ?_)
    rintro (halt | _) g₃ hg₃
    · exact ⟨himp _ hg₃, fun _ hno => by cases hno⟩
    · exact hagain hg₃
  · rw [if_neg hunauthorized]
    exact ⟨hg₂, fun _ hok => by cases hok; exact hR⟩

/-- A read made as the App. -/
theorem wp_installationJson (hP : Keeps target P) (hreads : call.writes = false) (h : P g) :
    (installationJson stage call).wp (githubSem target)
      (fun r g' => P g' ∧ ∀ value, r = .ok value → Shows g' call (.ok (.answered value))) g := by
  have hsend : ∀ g, P g → (send stage call).wp (githubSem target)
      (fun r g' => P g' ∧ ∀ response, r = .ok response →
        (response.unauthorized → P g') ∧ Shows g' call (.ok response)) g := fun g hg =>
    Prog.wp_mono (wp_send_read hP hreads hg) fun _ _ hr =>
      ⟨hr.1, fun response hok => ⟨fun _ => hr.1, hr.2 response hok⟩⟩
  refine Prog.wp_bind.2 (Prog.wp_mono (wp_installationRequest hP (fun _ h => h) hsend h) ?_)
  rintro (halt | response) g' ⟨hg', hshows⟩
  · exact ⟨hg', fun _ hno => by cases hno⟩
  cases response with
  | refused response => exact ⟨hg', fun _ hno => by cases hno⟩
  | unreadable source => exact ⟨hg', fun _ hno => by cases hno⟩
  | answered value => exact ⟨hg', fun _ hok => by cases hok; exact hshows _ rfl⟩

/-- A target read is the pull request as it stands. -/
theorem wp_fetchTarget (hP : Keeps target P) (h : P g) :
    (fetchTarget stage target).wp (githubSem target)
      (fun r g' => P g' ∧ ∀ pull, r = .ok pull → pull = g'.pull) g :=
  wp_installationJson hP rfl h

/-- A write sent as the App. -/
theorem wp_sendWrite {A : Type} (hP : Keeps target P) (hcarries : Carries call P Q)
    (himp : ∀ g, P g → Q g) (h : P g) :
    (sendWrite (A := A) call).wp (githubSem target) (fun _ g' => Q g') g := by
  have hsend : ∀ g, P g → (send .mutate call).wp (githubSem target)
      (fun r g' => Q g' ∧ ∀ response, r = .ok response →
        (response.unauthorized → P g') ∧ True) g := fun g hg =>
    Prog.wp_mono (wp_send_write hP hcarries himp hg) fun _ _ hr =>
      ⟨hr.1, fun response hok => ⟨hr.2 response hok, trivial⟩⟩
  refine Prog.wp_bind.2 (Prog.wp_mono (wp_installationRequest hP himp hsend h) ?_)
  rintro (halt | response) g' ⟨hg', -⟩ <;> exact hg'

/-- A read-back on the pull request changes nothing. -/
theorem wp_confirmOnPull {A : Type} {landed : GithubPull → Option A} (hP : Keeps target P)
    (h : P g) : (confirmOnPull target landed).wp (githubSem target) (fun _ g' => P g') g := by
  refine Prog.wp_bind.2 (Prog.wp_mono (wp_fetchTarget hP h) ?_)
  rintro (halt | pull) g' ⟨hg', -⟩ <;> exact hg'

/-- **The rule of a verified mutation**: from what the verify read shows, the
write step is made with what it needs, and nothing after it undoes what it
leaves. -/
theorem wp_verifiedMutation {T A : Type} {operation : Operation}
    {alreadyApplied : GithubPull → Option A} {mutate : GithubM (Write T A)}
    {confirm : GithubM (Option A)} {I : GithubWorld → Prop} (hI : Keeps target I)
    (hmutate : ∀ g, I g → alreadyApplied g.pull = none →
      mutate.wp (githubSem target) (fun _ g' => I g') g)
    (hconfirm : ∀ g, I g → confirm.wp (githubSem target) (fun _ g' => I g') g) (h : I g) :
    (verifiedMutation operation target alreadyApplied mutate confirm).wp (githubSem target)
      (fun _ g' => I g') g := by
  -- a read back keeps the world as the confirmation does, whatever it finds
  have hreadBack : ∀ {unconfirmed : GithubError} {g : GithubWorld}, I g →
      (readBack (T := T) confirm unconfirmed).wp (githubSem target) (fun _ g' => I g') g := by
    intro unconfirmed g hg
    refine Prog.wp_bind.2 (Prog.wp_catching.2 (Prog.wp_mono (hconfirm g hg) ?_))
    rintro (halt | (_ | applied)) g' hg'
    · cases halt <;> exact hg'
    · exact hg'
    · exact hg'
  refine Prog.wp_bind.2 (Prog.wp_mono (wp_fetchTarget hI h) ?_)
  rintro (halt | pull) g₁ ⟨hg₁, hpull⟩
  · exact hg₁
  obtain rfl := hpull pull rfl
  cases happlied : alreadyApplied g₁.pull with
  | some applied =>
    simp only [Prog.andThen_ok, happlied]
    exact hg₁
  | none =>
  simp only [Prog.andThen_ok, happlied]
  refine Prog.wp_bind.2 ?_
  cases checkTarget target g₁.pull with
  | error error => exact hg₁
  | ok _ =>
  refine Prog.wp_bind.2 (Prog.wp_catching.2 (Prog.wp_mono (hmutate g₁ hg₁ happlied) ?_))
  rintro (halt | (response | applied)) g₂ hg₂
  · cases halt with
    | outOfFuel => exact hg₂
    | error error => cases error <;> first | exact hreadBack hg₂ | exact hg₂
  · rcases response with response | source | value
    · exact hg₂
    · exact hreadBack hg₂
    · exact hg₂
  · exact hg₂

/-! ## The scan for a comment -/

/-- The first `n` comments are there, and none has the marker. -/
structure Unmarked (marker : String) (n : ℕ) (g : GithubWorld) : Prop where
  listed : n ≤ g.comments.length
  unmarked : ∀ comment ∈ g.comments.take n, containsText comment.body marker = false

/-- A listed comment stays where it is. -/
theorem Unmarked.moves {marker : String} {n : ℕ} (h : Unmarked marker n g)
    (hmoves : Moves target g g') : Unmarked marker n g' := by
  obtain ⟨rest, hrest⟩ := hmoves.listed
  have hlen : g'.comments.length = g.comments.length + rest.length := by
    rw [← hrest, List.length_append]
  have := h.listed
  refine ⟨by omega, ?_⟩
  rw [← hrest, List.take_append_of_le_length h.listed]
  exact h.unmarked

/-- **A scan that finds nothing has seen every comment**, those listed while
it went on too: by induction on its pages, the ones before the next are
listed and unmarked. -/
theorem wp_findCommentWithMarker {path marker : String} {fuel page : ℕ} (hP : Keeps target P)
    (hpage : 1 ≤ page) (h : P g) (hseen : Unmarked marker (listingPageSize * (page - 1)) g) :
    (findCommentWithMarker stage path marker fuel page).wp (githubSem target)
      (fun r g' => P g' ∧ (r = .ok none →
        ∀ comment ∈ g'.comments, containsText comment.body marker = false)) g := by
  -- on the fuel: the pages before this one show no comment with the marker
  induction fuel generalizing page g with
  | zero => exact ⟨h, fun hno => by cases hno⟩
  | succ fuel ih =>
    have hkept : Keeps target fun g => P g ∧ Unmarked marker (listingPageSize * (page - 1)) g :=
      fun _ _ hmoves hg => ⟨hP hmoves hg.1, hg.2.moves hmoves⟩
    refine Prog.wp_bind.2 (Prog.wp_mono (wp_installationJson hkept rfl ⟨h, hseen⟩) ?_)
    rintro (halt | comments) g₁ ⟨⟨hg₁, hseen₁⟩, hshows⟩
    · exact ⟨hg₁, fun hno => by cases hno⟩
    obtain rfl : comments = Paging.page listingPageSize page g₁.comments := hshows _ rfl
    simp only [Prog.andThen_ok]
    split
    · exact ⟨hg₁, fun hno => by cases hno⟩
    · rename_i hfind
      -- nor does this page, so nothing up to its end does, whatever is added behind
      have hnone : ∀ comment ∈ g₁.comments.take (listingPageSize * page),
          containsText comment.body marker = false := by
        intro comment hcomment
        rw [← Paging.take_append_page hpage, List.mem_append] at hcomment
        rcases hcomment with hcomment | hcomment
        · exact hseen₁.unmarked comment hcomment
        · simpa using List.find?_eq_none.1 hfind comment hcomment
      have hsize : 0 < listingPageSize := by decide
      have hlen := Paging.length_page_lt hsize hpage g₁.comments
      split
      · rename_i hshort
        refine ⟨hg₁, fun _ comment hcomment => hnone comment ?_⟩
        rwa [List.take_of_length_le (by omega)]
      · rename_i hfull
        refine ih (by omega) hg₁ ⟨?_, ?_⟩
        · rw [Nat.add_sub_cancel]
          omega
        · rw [Nat.add_sub_cancel]
          exact hnone

/-! ## Each mutation's own way -/

/-- A command's comment has its batch's marker. -/
theorem containsText_commandBody (request : CommandRequest) :
    containsText (commandBody request) (batchMarker request.batchId) = true := by
  refine decide_eq_true ?_
  unfold commandBody
  rw [String.toList_append]
  exact (List.suffix_append _ _).isInfix

namespace Mutation

/-- **What keeps a mutation to one**: merged, the pull request reads so;
commented, the marker is listed; updated, the head has moved, and may have
been moved back. -/
def Kept : Mutation → GithubWorld → Prop
  | merge _ _, g => g.landed ≤ 1 ∧ (g.landed ≠ 0 → g.pull.merged)
  | command request, g => g.landed ≤ 1 ∧ (g.landed ≠ 0 →
      ∃ comment ∈ g.comments, containsText comment.body (batchMarker request.batchId))
  | updateBranch request, g =>
    g.landed ≤ g.returns + if g.pull.headSha = request.target.expectedSha then 0 else 1

theorem keeps_kept (mutation : Mutation) : Keeps mutation.target mutation.Kept := by
  intro g g' hmoves h
  have hlanded := hmoves.landed
  cases mutation with
  | merge request mergeMethod =>
    obtain ⟨hone, hmerged⟩ := h
    refine ⟨by omega, fun hne => ?_⟩
    exact (hmoves.merged (hmerged (by omega))).1
  | command request =>
    obtain ⟨hone, hlisted⟩ := h
    refine ⟨by omega, fun hne => ?_⟩
    obtain ⟨comment, hcomment, hmarker⟩ := hlisted (by omega)
    exact ⟨comment, hmoves.listed.subset hcomment, hmarker⟩
  | updateBranch request =>
    have hreturns := hmoves.returns
    simp only [Kept, target] at h hreturns ⊢
    by_cases hbefore : g.pull.headSha = request.target.expectedSha <;>
      by_cases hafter : g'.pull.headSha = request.target.expectedSha <;>
        simp only [hbefore, hafter, if_true, if_false, ne_eq, not_true, not_false_iff, and_self,
          and_true, and_false] at h hreturns ⊢ <;> omega

/-- Nothing has landed yet, and others do not make it. -/
theorem keeps_unlanded (target : PrTarget) : Keeps target fun g => g.landed = 0 :=
  fun _ _ hmoves h => hmoves.landed.trans h

/-- What has not landed keeps to one however it goes on. -/
theorem kept_of_unlanded (mutation : Mutation) (h : g.landed = 0) : mutation.Kept g := by
  cases mutation with
  | merge request mergeMethod => exact ⟨by omega, fun hne => absurd h hne⟩
  | command request => exact ⟨by omega, fun hne => absurd h hne⟩
  | updateBranch request =>
    show g.landed ≤ _
    omega

/-- A merge carried out closes the pull request behind it. -/
theorem carries_merge (request : MergeRequest) (mergeMethod : Option MergeMethod)
    (path sha : String) (method : MergeMethod) :
    Carries (.putMerge path sha method) (fun g => g.landed = 0)
      (merge request mergeMethod).Kept := by
  rintro g _ h ⟨-⟩
  exact ⟨Nat.succ_le_succ (Nat.le_of_eq h), fun _ => rfl⟩

/-- A comment carried out is listed with its marker. -/
theorem carries_comment (request : CommandRequest) (path : String) {body : String}
    (hmarker : containsText body (batchMarker request.batchId)) :
    Carries (.postComment path body) (fun g => g.landed = 0) (command request).Kept := by
  intro g g' h hlands
  cases hlands with
  | comment =>
    rename_i id
    refine ⟨Nat.succ_le_succ (Nat.le_of_eq h), fun _ => ⟨⟨id, body⟩, ?_, hmarker⟩⟩
    exact List.mem_append_right _ (List.mem_singleton.2 rfl)

/-- An update carried out has moved the head it named. -/
theorem carries_update (request : UpdateBranchRequest) (path : String) :
    Carries (.putUpdateBranch path request.target.expectedSha) (updateBranch request).Kept
      (updateBranch request).Kept := by
  intro g g' h hlands
  cases hlands with
  | update hsha hhead =>
    simp only [Kept, if_pos hsha, if_neg hhead] at h ⊢
    omega

/-- A comment is posted once its marker was found nowhere. -/
theorem wp_sendComment (config : GithubConfig) (fuel : ℕ) (request : CommandRequest)
    (h : (command request).Kept g) :
    (sendComment config fuel request).wp (githubSem request.target)
      (fun _ g' => (command request).Kept g') g := by
  have hkeeps := (command request).keeps_kept
  have hnone : Unmarked (batchMarker request.batchId) (listingPageSize * (1 - 1)) g :=
    ⟨Nat.zero_le _, by simp⟩
  refine Prog.wp_bind.2 (Prog.wp_mono (wp_findCommentWithMarker hkeeps le_rfl h hnone) ?_)
  rintro (halt | (_ | commentId)) g₁ ⟨hg₁, hunmarked⟩
  · exact hg₁
  · -- the marker is on no comment, so no comment of this batch has landed
    have hunlanded : g₁.landed = 0 := by
      by_contra hne
      obtain ⟨comment, hcomment, hmarker⟩ := hg₁.2 hne
      rw [hunmarked rfl comment hcomment] at hmarker
      cases hmarker
    simp only [Prog.andThen_ok]
    refine Prog.wp_bind.2 (Prog.wp_bind.2 ?_)
    cases userToken config request.userId with
    | error error => exact hg₁
    | ok token =>
      have hcarries := carries_comment request (commentsPath request.target)
        (containsText_commandBody request)
      show Prog.wp _ (send .mutate _) _ _
      refine Prog.wp_mono (wp_send_write (keeps_unlanded request.target) hcarries
        (fun _ => (command request).kept_of_unlanded) hunlanded) ?_
      rintro (halt | response) g₂ ⟨hg₂, -⟩ <;> exact hg₂
  · exact hg₁

/-- A read-back leaves GitHub as it is. -/
theorem wp_confirm (mutation : Mutation) (fuel : ℕ) (h : mutation.Kept g) :
    (mutation.confirm fuel).wp (githubSem mutation.target) (fun _ g' => mutation.Kept g') g := by
  have hkeeps := mutation.keeps_kept
  cases mutation with
  | merge request mergeMethod => exact wp_confirmOnPull hkeeps h
  | updateBranch request => exact wp_confirmOnPull hkeeps h
  | command request =>
    have hnone : Unmarked (batchMarker request.batchId) (listingPageSize * (1 - 1)) g :=
      ⟨Nat.zero_le _, by simp⟩
    refine Prog.wp_bind.2 (Prog.wp_mono (wp_findCommentWithMarker hkeeps le_rfl h hnone) ?_)
    rintro (halt | found) g' ⟨hg', -⟩ <;> exact hg'

/-- The write step is made only where it keeps a mutation to one. -/
theorem wp_mutate (mutation : Mutation) (config : GithubConfig) (fuel : ℕ)
    (h : mutation.Kept g) (happlied : mutation.alreadyApplied g.pull = none) :
    (mutation.mutate config fuel).wp (githubSem mutation.target)
      (fun _ g' => mutation.Kept g') g := by
  cases mutation with
  | merge request mergeMethod =>
    have hunlanded : g.landed = 0 := by
      by_contra hne
      simp [alreadyApplied, mergedAs, h.2 hne] at happlied
    exact wp_sendWrite (keeps_unlanded _) (carries_merge request mergeMethod _ _ _)
      (fun _ => (merge request mergeMethod).kept_of_unlanded) hunlanded
  | command request => exact wp_sendComment config fuel request h
  | updateBranch request =>
    exact wp_sendWrite (updateBranch request).keeps_kept (carries_update request _)
      (fun _ hg => hg) h

/-- **An attempt keeps a mutation to one.** -/
theorem wp_attempt (mutation : Mutation) (config : GithubConfig) (fuel : ℕ)
    (h : mutation.Kept g) :
    (mutation.attempt config fuel).wp (githubSem mutation.target)
      (fun _ g' => mutation.Kept g') g := by
  rw [attempt_eq]
  split
  · exact h
  refine Prog.wp_bind.2 (Prog.wp_mono (wp_verifiedMutation mutation.keeps_kept
    (fun _ => mutation.wp_mutate config fuel) (fun _ => mutation.wp_confirm fuel) h) ?_)
  rintro (halt | outcome) g' hg'
  · exact hg'
  · simp only [Prog.andThen_ok]
    cases outcome.intoApplied mutation.answered <;> exact hg'

/-- How often a mutation may be carried out: once, and a branch update once
more for each time somebody else moved the head back. -/
def allowed : Mutation → GithubWorld → ℕ
  | updateBranch _, g => g.returns + 1
  | _, _ => 1

theorem Kept.landed_le {mutation : Mutation} (h : mutation.Kept g) :
    g.landed ≤ mutation.allowed g := by
  cases mutation with
  | merge request mergeMethod => exact h.1
  | command request => exact h.1
  | updateBranch request =>
    simp only [Kept, allowed] at h ⊢
    split at h <;> omega

end Mutation

theorem Attempts.kept {config : GithubConfig} {mutation : Mutation} {g g' : GithubWorld}
    {attempts : List (Attempted mutation)} (h : Attempts config mutation g attempts g')
    (hg : mutation.Kept g) : mutation.Kept g' := by
  induction h with
  | start => exact hg
  | next _ hrun ih => exact hrun.runs.of_wp (mutation.wp_attempt _ _ ih)

/-- **A mutation is carried out once.** However many attempts are made and
whatever becomes of each, every attempt takes its steps in their order, and
all of them together have the mutation carried out once, a branch update
once more for each time somebody else moved the head back. -/
theorem mutation_carried_out_once {config : GithubConfig} {mutation : Mutation}
    {g g' : GithubWorld} {attempts : List (Attempted mutation)}
    (h : Attempts config mutation g attempts g') (hfresh : g.landed = 0) :
    (∀ attempted ∈ attempts, ∃ vs ms cs,
      attempted.exchanges = vs ++ ms ++ cs ∧ Sound mutation.target vs ms cs) ∧
        g'.landed ≤ mutation.allowed g' := by
  refine ⟨?_, (h.kept (mutation.kept_of_unlanded hfresh)).landed_le⟩
  clear hfresh
  induction h with
  | start => exact fun _ hnone => absurd hnone List.not_mem_nil
  | next _ hrun ih =>
    intro attempted hattempted
    rcases List.mem_append.1 hattempted with hpast | hlast
    · exact ih attempted hpast
    · rw [List.mem_singleton.1 hlast]
      exact Mutation.sound_attempt hrun.exchanges

/-! ## A branch update whose answer is lost

The update of `acme/api#1` is answered 401, sent again and carried out, its
answer lost and its read-back too. In the other story somebody then moves
the head back to the one the update expects. -/

theorem Moves.refl (target : PrTarget) (g : GithubWorld)
    (h : g.pull.merged → g.pull.state ≠ "open") : Moves target g g where
  merged hmerged := ⟨hmerged, h hmerged⟩
  listed := List.prefix_refl _
  landed := rfl
  returns := by simp

/-- The target. -/
def sampleTarget : PrTarget :=
  ⟨1, "acme", "api", 1, "abcdef0", "Bump serde", "https://github.com/acme/api/pull/1"⟩

/-- A deployment that posts commands as its own user. -/
def sampleConfig : GithubConfig := ⟨some "token", "dependaboard", .squash⟩

/-- The head's branch brought up to date. -/
def sampleUpdate : Mutation := .updateBranch ⟨"1", sampleTarget⟩

/-- The pull request at `head`, after `landed` updates and `returns` moves
back. -/
def sampleAt (head : String) (landed returns : ℕ) : GithubWorld :=
  ⟨⟨"open", dependabotLogin, head, false, none⟩, [], landed, returns⟩

/-- A run in which GitHub answers and nothing more. -/
theorem sampleAt_answers {head : String} {landed returns : ℕ} {α : Type} (stage : Stage)
    (call : GithubCall) (reply : Reply call.Payload) {k : Reply call.Payload → GithubM α}
    {es : List GithubExchange} {r : Except Halt α} {g' : GithubWorld}
    (h : Shows (sampleAt head landed returns) call reply)
    (hrest : Prog.RunsOver (S := GithubEffects) (githubSem sampleTarget) (k reply)
      (sampleAt head landed returns) es r g') :
    Prog.RunsOver (S := GithubEffects) (githubSem sampleTarget) (.ask ⟨stage, call⟩ k)
      (sampleAt head landed returns) (⟨⟨stage, call⟩, reply⟩ :: es) r g' := by
  have hmoves : Moves sampleTarget (sampleAt head landed returns) (sampleAt head landed returns) :=
    .refl _ _ fun hmerged => by cases hmerged
  exact .ask ⟨_, hmoves, .inl ⟨rfl, h⟩⟩ hrest

/-- A run in which GitHub updates the branch. -/
theorem sampleAt_updates {landed returns : ℕ} {α : Type} (stage : Stage) (path : String)
    (reply : Reply String) {k : Reply String → GithubM α} {es : List GithubExchange}
    {r : Except Halt α} {g' : GithubWorld} (h : Owns (.putUpdateBranch path "abcdef0") reply)
    (hrest : Prog.RunsOver (S := GithubEffects) (githubSem sampleTarget) (k reply)
      (sampleAt "fedcba9" (landed + 1) returns) es r g') :
    Prog.RunsOver (S := GithubEffects) (githubSem sampleTarget)
      (.ask ⟨stage, .putUpdateBranch path "abcdef0"⟩ k) (sampleAt "abcdef0" landed returns)
      (⟨⟨stage, .putUpdateBranch path "abcdef0"⟩, reply⟩ :: es) r g' := by
  have hmoves : Moves sampleTarget (sampleAt "abcdef0" landed returns)
      (sampleAt "abcdef0" landed returns) := .refl _ _ fun hmerged => by cases hmerged
  have hlands : Lands (.putUpdateBranch path "abcdef0") (sampleAt "abcdef0" landed returns)
      (sampleAt "fedcba9" (landed + 1) returns) := .update rfl (by decide)
  exact .ask ⟨_, hmoves, .inr ⟨hlands, h⟩⟩ hrest

/-- The first attempt. -/
theorem sampleUpdate_lost :
    ∃ es, Prog.RunsOver (S := GithubEffects) (githubSem sampleTarget)
      (sampleUpdate.attempt sampleConfig 0) (sampleAt "abcdef0" 0 0) es
        (.error (.error (.transport "timed out"))) (sampleAt "fedcba9" 1 0) ∧
      (es.filter writes).length = 2 := by
  refine ⟨_, sampleAt_answers .verify (.installationToken false) (.ok (.answered (.ok ()))) trivial
    (sampleAt_answers .verify (.getPull _) (.ok (.answered (sampleAt "abcdef0" 0 0).pull)) rfl
    (sampleAt_answers .mutate (.installationToken false) (.ok (.answered (.ok ()))) trivial
    (sampleAt_answers .mutate (.putUpdateBranch _ _) (.ok (.refused (.plain 401 "Bad"))) trivial
    (sampleAt_answers .mutate (.installationToken true) (.ok (.answered (.ok ()))) trivial
    (sampleAt_updates .mutate _ (.error "timed out") trivial
    (sampleAt_answers .confirm (.installationToken false) (.error "timed out") trivial
      (.fail _ _))))))), rfl⟩

/-- A lost update, by the attempts made of it. -/
theorem mutation_carried_out_once_sample :
    ∃ attempts, Attempts sampleConfig sampleUpdate (sampleAt "abcdef0" 0 0) attempts
        (sampleAt "fedcba9" 1 0) ∧
      (∀ attempted ∈ attempts, ∃ vs ms cs,
        attempted.exchanges = vs ++ ms ++ cs ∧ Sound sampleUpdate.target vs ms cs) ∧
      (sampleAt "fedcba9" 1 0).landed ≤ sampleUpdate.allowed (sampleAt "fedcba9" 1 0) := by
  obtain ⟨es, hlost, -⟩ := sampleUpdate_lost
  have hattempts : Attempts sampleConfig sampleUpdate (sampleAt "abcdef0" 0 0)
      ([] ++ [⟨es, .error (.error (.transport "timed out"))⟩]) (sampleAt "fedcba9" 1 0) :=
    .next (.start _) hlost
  exact ⟨_, hattempts, mutation_carried_out_once hattempts rfl⟩

/-- Another attempt, the head having been moved back. -/
theorem sampleUpdate_again :
    ∃ es, Prog.RunsOver (S := GithubEffects) (githubSem sampleTarget)
      (sampleUpdate.attempt sampleConfig 0) (sampleAt "fedcba9" 1 0) es (.ok "Updating")
        (sampleAt "fedcba9" 2 1) := by
  have hmoves : Moves sampleTarget (sampleAt "fedcba9" 1 0) (sampleAt "abcdef0" 1 1) :=
    { merged := fun hmerged => by cases hmerged
      listed := List.prefix_refl _
      landed := rfl
      returns := by decide }
  have hfirst : githubSem sampleTarget ⟨.verify, .installationToken false⟩
      (sampleAt "fedcba9" 1 0) (.ok (.answered (.ok ()))) (sampleAt "abcdef0" 1 1) :=
    ⟨_, hmoves, .inl ⟨rfl, trivial⟩⟩
  exact ⟨_, .ask hfirst
    (sampleAt_answers .verify (.getPull _) (.ok (.answered (sampleAt "abcdef0" 1 1).pull)) rfl
    (sampleAt_answers .mutate (.installationToken false) (.ok (.answered (.ok ()))) trivial
    (sampleAt_updates .mutate _ (.ok (.answered "Updating")) trivial (.done _ _))))⟩

/-- **A write is sent twice past a 401, and a branch updated twice from one
head.** -/
theorem update_carried_out_twice :
    ¬ (∀ (config : GithubConfig) (mutation : Mutation) (g g' : GithubWorld)
        (attempts : List (Attempted mutation)), Attempts config mutation g attempts g' →
          g.landed = 0 → ∀ attempted ∈ attempts, (attempted.exchanges.filter writes).length ≤ 1) ∧
      ¬ (∀ (config : GithubConfig) (mutation : Mutation) (g g' : GithubWorld)
        (attempts : List (Attempted mutation)), Attempts config mutation g attempts g' →
          g.landed = 0 → g'.landed ≤ 1) := by
  obtain ⟨es, hlost, htwice⟩ := sampleUpdate_lost
  obtain ⟨again, hagain⟩ := sampleUpdate_again
  have hfirst : Attempts sampleConfig sampleUpdate (sampleAt "abcdef0" 0 0)
      ([] ++ [⟨es, .error (.error (.transport "timed out"))⟩]) (sampleAt "fedcba9" 1 0) :=
    .next (.start _) hlost
  constructor
  · intro h
    have hone := h _ _ _ _ _ hfirst rfl _ (List.mem_singleton.2 rfl)
    simp only [htwice] at hone
    omega
  · intro h
    have hone : 2 ≤ 1 := h _ _ _ _ _ (hfirst.next hagain) rfl
    omega

end Dependaboard
