import Mathlib.Data.List.Chain
import Dependaboard.Durable.System
import Dependaboard.Github.Token
/-!
# The installation's token — shared by every request

Any number of requests, of any installations, share the cache. The lock owns
it: while the lock is free every cached token is the one last issued, and a
request that takes the lock finds it so, whatever the others did while it
waited. `token_fit` is what comes of that, in every order of steps.

GitHub may answer anything at any time, and the clock moves on. Of a token
GitHub issued, the world remembers to whom, when, and whether that request
had been refused.
-/

namespace Dependaboard

open Durable Tokens

/-- A token GitHub issued, as the request that minted it read it. -/
structure Issue (ι : Type) where
  token : CachedToken
  /-- The request it was issued to. -/
  issuedTo : ι
  time : ℕ
  /-- When that request had been answered 401. -/
  refused : Option ℕ

/-- What a request has done so far. -/
structure TokenUse where
  installationId : ℕ
  /-- When it last read the clock. -/
  asked : ℕ
  /-- When it was answered 401. -/
  refused : Option ℕ

/-- The shared client: its lock and its cache, the tokens GitHub issued, and
what each request in flight is under. -/
structure TokenWorld (ι : Type) where
  now : ℕ
  /-- The request that holds the lock. -/
  holder : Option ι
  /-- The cache. -/
  tokens : ℕ → Option CachedToken
  /-- The tokens GitHub issued for an installation, the last one first. -/
  issued : ℕ → List (Issue ι)
  uses : ι → TokenUse

namespace TokenWorld

variable {ι : Type} [DecidableEq ι]

/-- A token answered by GitHub has been issued. -/
def answered (readers : SnapshotReaders) (w : TokenWorld ι) (i : ι) (installationId : ℕ)
    (reply : Reply InstallationToken) : TokenWorld ι :=
  match readToken readers reply with
  | .error _ => w
  | .ok token =>
    { w with
      issued := Function.update w.issued installationId
        (⟨token, i, w.now, (w.uses i).refused⟩ :: w.issued installationId) }

/-- A request that is answered 401 has been refused. -/
def replied {α : Type} (w : TokenWorld ι) (i : ι) (reply : Reply α) : TokenWorld ι :=
  match reply with
  | .error _ => w
  | .ok response =>
    if response.unauthorized then
      { w with uses := Function.update w.uses i { w.uses i with refused := some w.now } }
    else w

/-- How an effect of request `i` is answered. -/
def sem {α : Type} (readers : SnapshotReaders) (i : ι) (call : TokenCall) (w : TokenWorld ι)
    (a : call.Answer α) (w' : TokenWorld ι) : Prop :=
  match call, a with
  | .unixSeconds, now => now = w.now ∧
      w' = { w with uses := Function.update w.uses i { w.uses i with asked := now } }
  | .lock, () => w.holder = none ∧ w' = { w with holder := some i }
  | .get installationId, cached => cached = w.tokens installationId ∧ w' = w
  | .mint installationId _, reply => w' = w.answered readers i installationId reply
  | .insert installationId token, () =>
    w' = { w with tokens := Function.update w.tokens installationId (some token) }
  | .unlock, () => w' = { w with holder := none }
  | .send _ _, reply => w' = w.replied i reply

end TokenWorld

/-- Any requests, each made as an installation, and a clock. -/
def tokenSystem {ι : Type} [DecidableEq ι] (α : Type) (readers : SnapshotReaders) (app : GithubApp) :
    System (fun _ : ι => TokenEffects α) GithubError (fun _ => Response α) (TokenWorld ι) where
  init w := w.holder = none ∧ (∀ id, w.tokens id = none) ∧ (∀ id, w.issued id = []) ∧
    ∀ i, w.uses i = ⟨0, 0, none⟩
  start i p w w' := ∃ installationId request,
    p = installationSend readers app installationId request ∧
      w' = { w with uses := Function.update w.uses i ⟨installationId, 0, none⟩ }
  sem i call w a w' := TokenWorld.sem readers i call w a w'
  lose _ _ _ _ := False
  finish _ _ w w' := w' = w
  env w w' := ∃ now, w.now ≤ now ∧ w' = { w with now }

/-- **A token fit for a request to go out under**: of its installation, and
either with more than a minute left when the request last read the clock, or
issued to that request since; once the request was refused, issued to it
since then. -/
def TokenUse.Fit {ι : Type} (use : TokenUse) (i : ι) (issue : Issue ι) : Prop :=
  match use.refused with
  | none => use.asked + 60 < issue.token.expiresAt ∨ (issue.issuedTo = i ∧ use.asked ≤ issue.time)
  | some refused => issue.issuedTo = i ∧ refused ≤ issue.time

/-- A token issued over an older one of the installation: that one had a
minute or less left, or the request had been refused. -/
def Issue.Renews {ι : Type} (issue older : Issue ι) : Prop :=
  older.token.expiresAt ≤ issue.time + 60 ∨ ∃ refused ∈ issue.refused, refused ≤ issue.time

namespace TokenWorld

variable {ι : Type} {u v w : TokenWorld ι} {i : ι}

/-- The cached token of an installation is the one last issued. -/
def Latest (w : TokenWorld ι) (id : ℕ) : Prop :=
  w.tokens id = (w.issued id).head?.map Issue.token

/-- The request goes out under a token that is fit for it. -/
def GoesUnder (w : TokenWorld ι) (i : ι) (value : String) : Prop :=
  ∃ issue ∈ w.issued (w.uses i).installationId,
    issue.token.value = value ∧ (w.uses i).Fit i issue

/-- **What every reachable world keeps.** -/
structure Kept (w : TokenWorld ι) : Prop where
  free : w.holder = none → ∀ id, w.Latest id
  renewed : ∀ id, (w.issued id).IsChain Issue.Renews
  asked : ∀ i, (w.uses i).asked ≤ w.now
  refused : ∀ i, ∀ refused ∈ (w.uses i).refused, refused ≤ w.now

/-- **What request `i` may rely on**: nobody speaks for it, no token is
unissued, and while it holds the lock the cache and what is issued are its
own to change. -/
structure Others (i : ι) (u v : TokenWorld ι) : Prop where
  now : u.now ≤ v.now
  uses : v.uses i = u.uses i
  issued : ∀ id, u.issued id <:+ v.issued id
  held : u.holder = some i → v.holder = some i ∧ v.tokens = u.tokens ∧ v.issued = u.issued

theorem Others.refl (i : ι) (w : TokenWorld ι) : Others i w w :=
  ⟨le_rfl, rfl, fun _ => List.suffix_rfl, fun h => ⟨h, rfl, rfl⟩⟩

theorem Others.trans (h : Others i u v) (h' : Others i v w) : Others i u w := by
  refine ⟨h.now.trans h'.now, h'.uses.trans h.uses,
    fun id => (h.issued id).trans (h'.issued id), fun hheld => ?_⟩
  obtain ⟨hv, htokens, hissued⟩ := h.held hheld
  obtain ⟨hw, htokens', hissued'⟩ := h'.held hv
  exact ⟨hw, htokens'.trans htokens, hissued'.trans hissued⟩

theorem GoesUnder.others {value : String} (h : u.GoesUnder i value) (hothers : Others i u v) :
    v.GoesUnder i value := by
  obtain ⟨issue, hissue, hvalue, hfit⟩ := h
  rw [← hothers.uses] at hissue hfit
  exact ⟨issue, (hothers.issued _).subset hissue, hvalue, hfit⟩

/-- The lock is the request's, and the cache as the lock was found. -/
structure Holding (i : ι) (w : TokenWorld ι) : Prop where
  holder : w.holder = some i
  latest : ∀ id, w.Latest id

theorem Holding.others (h : Holding i u) (hothers : Others i u v) : Holding i v := by
  obtain ⟨hholder, htokens, hissued⟩ := hothers.held h.holder
  refine ⟨hholder, fun id => ?_⟩
  rw [Latest, htokens, hissued]
  exact h.latest id

/-- The request may mint: the token last issued had a minute or less left, or
the request was refused. -/
def MayMint (i : ι) (w : TokenWorld ι) : Prop :=
  ∀ older ∈ (w.issued (w.uses i).installationId).head?,
    older.token.expiresAt ≤ w.now + 60 ∨ ∃ refused ∈ (w.uses i).refused, refused ≤ w.now

theorem MayMint.others (h : MayMint i u) (hholding : Holding i u) (hothers : Others i u v) :
    MayMint i v := by
  intro older holder
  rw [hothers.uses, (hothers.held hholding.holder).2.2] at holder
  have hnow := hothers.now
  rcases h older holder with hexpires | ⟨refused, hrefused, htime⟩
  · exact .inl (by omega)
  · exact .inr ⟨refused, hothers.uses ▸ hrefused, by omega⟩

end TokenWorld

open TokenWorld

variable {ι α : Type} [DecidableEq ι] {readers : SnapshotReaders} {app : GithubApp} {i : ι}
  {u v w : TokenWorld ι}

/-- What holds before an effect: a request is sent under a fit token. -/
def fitAt (i : ι) (call : TokenCall) (w : TokenWorld ι) : Prop :=
  match call with
  | .send _ token => w.GoesUnder i token
  | _ => True

/-- What each request keeps, what it may count on the others for, and that it
is sent under a fit token. -/
def tokenOutline (α : Type) (readers : SnapshotReaders) (app : GithubApp) :
    Outline (tokenSystem (ι := ι) α readers app) where
  inv := Kept
  rely := Others
  rely_refl := Others.refl
  rely_trans := Others.trans
  shows := fitAt

/-! ## What an effect does -/

/-- What a request notes of itself alone leaves the rest as it was. -/
theorem keeps_noted {use : TokenUse} (h : Kept w) (hasked : use.asked ≤ w.now)
    (hrefused : ∀ refused ∈ use.refused, refused ≤ w.now) :
    (tokenOutline α readers app).Keeps i w { w with uses := Function.update w.uses i use } := by
  refine ⟨⟨h.free, h.renewed, fun j => ?_, fun j => ?_⟩, fun j hj => ⟨le_rfl, ?_,
    fun _ => List.suffix_rfl, fun hheld => ⟨hheld, rfl, rfl⟩⟩⟩
  · by_cases hj : j = i
    · subst hj
      simpa using hasked
    · simpa [Function.update_of_ne hj] using h.asked j
  · by_cases hj : j = i
    · subst hj
      simpa using hrefused
    · simpa [Function.update_of_ne hj] using h.refused j
  · exact Function.update_of_ne hj _ _

/-- What the holder of the lock does to the cache is nobody else's to rely
on. -/
theorem keeps_held (hheld : w.holder = some i) (hkept : Kept v) (hnow : v.now = w.now)
    (huses : v.uses = w.uses) (hissued : ∀ id, w.issued id <:+ v.issued id) :
    (tokenOutline α readers app).Keeps i w v := by
  refine ⟨hkept, fun j hj => ⟨hnow.ge, congrFun huses j, hissued, fun hother => ?_⟩⟩
  rw [hheld] at hother
  exact absurd (Option.some.inj hother).symm hj

/-- The clock is read at any time. -/
theorem safe_unixSeconds {γ : Type} {k : ℕ → TokenM α γ}
    {post : Except GithubError γ → TokenWorld ι → Prop} {P : TokenWorld ι → Prop} (hP : P w)
    (hstable : ∀ u v, P u → Others i u v → P v)
    (h : ∀ u, P u → Kept u → (tokenOutline α readers app).Safe i (k u.now) post
      { u with uses := Function.update u.uses i { u.uses i with asked := u.now } }) :
    (tokenOutline α readers app).Safe i
      (.ask (S := TokenEffects α) TokenCall.unixSeconds k) post w := by
  refine .ask hP (fun u v hu hothers _ => hstable u v hu hothers) (fun _ _ => id)
    (fun _ _ _ => trivial) fun u a v hu hkept hsem => ?_
  obtain ⟨rfl, rfl⟩ := hsem
  exact ⟨keeps_noted hkept le_rfl (hkept.refused i), h u hu hkept⟩

/-! ## Under the lock -/

/-- What the request has asked as and been refused as stands. -/
structure TokenUse.Continues (use use' : TokenUse) : Prop where
  installationId : use'.installationId = use.installationId
  refused : use'.refused = use.refused

/-- How finding a token ends: the value found is one to go out under. -/
structure Found (use : TokenUse) (i : ι) (result : Except GithubError String)
    (w : TokenWorld ι) : Prop where
  continues : use.Continues (w.uses i)
  fit : ∀ value, result = .ok value → w.GoesUnder i value

omit [DecidableEq ι] in
theorem Found.others {use : TokenUse} {result : Except GithubError String} (h : Found use i result u)
    (hothers : Others i u v) : Found use i result v :=
  ⟨hothers.uses ▸ h.continues, fun value hvalue => (h.fit value hvalue).others hothers⟩

/-- A token issued to the request, not yet in the cache. -/
structure Minted (i : ι) (token : CachedToken) (w : TokenWorld ι) : Prop where
  holder : w.holder = some i
  others : ∀ id, id ≠ (w.uses i).installationId → w.Latest id
  latest : (w.issued (w.uses i).installationId).head?.map Issue.token = some token
  fit : w.GoesUnder i token.value

omit [DecidableEq ι] in
theorem Minted.of_others {token : CachedToken} (h : Minted i token u) (hothers : Others i u v) :
    Minted i token v := by
  obtain ⟨hholder, htokens, hissued⟩ := hothers.held h.holder
  refine ⟨hholder, fun id hid => ?_, ?_, h.fit.others hothers⟩
  · rw [Latest, htokens, hissued]
    exact h.others id (hothers.uses ▸ hid)
  · rw [hothers.uses, hissued]
    exact h.latest

/-- **A token minted under the lock** renews the one before it. -/
theorem minted {reply : Reply InstallationToken} {token : CachedToken} (hkept : Kept w)
    (hholding : Holding i w) (hmay : MayMint i w) (htoken : readToken readers reply = .ok token) :
    (tokenOutline α readers app).Keeps i w
        (w.answered readers i (w.uses i).installationId reply) ∧
      Minted i token (w.answered readers i (w.uses i).installationId reply) := by
  simp only [answered, htoken]
  have hissued (id : ℕ) : w.issued id <:+ Function.update w.issued (w.uses i).installationId
      (⟨token, i, w.now, (w.uses i).refused⟩ :: w.issued (w.uses i).installationId) id := by
    by_cases hid : id = (w.uses i).installationId
    · subst hid
      simp
    · simp [Function.update_of_ne hid]
  refine ⟨keeps_held hholding.holder ⟨fun hfree => ?_, fun id => ?_, hkept.asked, hkept.refused⟩ rfl
    rfl hissued, ⟨hholding.holder, fun id hid => ?_, by simp, ?_⟩⟩
  · rw [hholding.holder] at hfree
    cases hfree
  · by_cases hid : id = (w.uses i).installationId
    · subst hid
      simp only [Function.update_self, List.isChain_cons]
      exact ⟨hmay, hkept.renewed _⟩
    · simpa only [Function.update_of_ne hid] using hkept.renewed id
  · simpa only [Latest, Function.update_of_ne hid] using hholding.latest id
  · refine ⟨⟨token, i, w.now, (w.uses i).refused⟩, by simp, rfl, ?_⟩
    unfold TokenUse.Fit
    split
    · exact .inr ⟨rfl, hkept.asked i⟩
    · rename_i refused hrefused
      exact ⟨rfl, hkept.refused i refused hrefused⟩

/-- What is done under the lock leaves the cache as the lock finds it, and a
token to go out under where it finds one. -/
structure Locked (use : TokenUse) (i : ι) (result : Except GithubError String) (w : TokenWorld ι) :
    Prop where
  holding : Holding i w
  found : Found use i result w

omit [DecidableEq ι] in
theorem Locked.others {use : TokenUse} {result : Except GithubError String}
    (h : Locked use i result u) (hothers : Others i u v) : Locked use i result v :=
  ⟨h.holding.others hothers, h.found.others hothers⟩

omit [DecidableEq ι] in
/-- No token was found. -/
theorem Locked.of_error {use : TokenUse} {error : GithubError} (h : Holding i w)
    (huse : use.Continues (w.uses i)) : Locked use i (.error error) w :=
  ⟨h, huse, nofun⟩

/-- The request holds the lock and may mint. -/
structure Due (use : TokenUse) (i : ι) (w : TokenWorld ι) : Prop where
  holding : Holding i w
  may : MayMint i w
  continues : use.Continues (w.uses i)

omit [DecidableEq ι] in
theorem Due.others {use : TokenUse} (h : Due use i u) (hothers : Others i u v) : Due use i v :=
  ⟨h.holding.others hothers, h.may.others h.holding hothers, hothers.uses ▸ h.continues⟩

/-- Reading the clock is nothing to what the request may do. -/
theorem Due.asked {use : TokenUse} (h : Due use i w) (asked : ℕ) :
    Due use i { w with uses := Function.update w.uses i { w.uses i with asked } } := by
  refine ⟨⟨h.holding.holder, h.holding.latest⟩, ?_, ?_⟩
  · unfold MayMint
    simp only [Function.update_self]
    exact h.may
  · simp only [Function.update_self]
    exact ⟨h.continues.installationId, h.continues.refused⟩

/-- **A token minted is put in the cache.** -/
theorem safe_insert {use : TokenUse} {token : CachedToken} (h : Minted i token w)
    (huse : use.Continues (w.uses i)) :
    (tokenOutline α readers app).Safe i (Prog.ask (S := TokenEffects α)
      (.insert use.installationId token) fun () => .done token.value) (Locked use i) w := by
  refine .ask (P := fun w => Minted i token w ∧ use.Continues (w.uses i)) ⟨h, huse⟩
    (fun u v ⟨hu, huse⟩ hothers _ => ⟨hu.of_others hothers, hothers.uses ▸ huse⟩)
    (fun _ _ => id) (fun _ _ _ => trivial) ?_
  rintro u _ v ⟨hminted, huse⟩ hkept hsem
  obtain rfl : v = { u with
    tokens := Function.update u.tokens use.installationId (some token) } := hsem
  have hlocked : Locked use i (.ok token.value) { u with
      tokens := Function.update u.tokens use.installationId (some token) } := by
    refine ⟨⟨hminted.holder, fun id => ?_⟩, huse, fun value hvalue => ?_⟩
    · by_cases hid : id = use.installationId
      · subst hid
        simp only [Latest, Function.update_self, ← huse.installationId, hminted.latest]
      · simp only [Latest, Function.update_of_ne hid]
        exact hminted.others id (huse.installationId.symm ▸ hid)
    · exact Except.ok.inj hvalue ▸ hminted.fit
  refine ⟨keeps_held hminted.holder ⟨fun hfree => ?_, hkept.renewed, hkept.asked, hkept.refused⟩ rfl
    rfl fun _ => List.suffix_rfl, fun v hothers _ => hlocked.others hothers⟩
  have hfree : u.holder = none := hfree
  rw [hminted.holder] at hfree
  cases hfree

theorem safe_mintToken {use : TokenUse} (h : Due use i w) :
    (tokenOutline α readers app).Safe i (mintToken readers app use.installationId)
      (Locked use i) w := by
  refine .bind (safe_unixSeconds h (fun _ _ => Due.others) fun u hu _ => ?_)
  replace hu := hu.asked u.now
  cases app.sign ⟨u.now - 60, u.now + 9 * 60, toString app.appId⟩ with
  | error cause =>
    intro v hothers _
    have hv := hu.others hothers
    exact .of_error hv.holding hv.continues
  | ok jwt =>
    intro v hothers _
    change (tokenOutline α readers app).Safe i
      (.ask (S := TokenEffects α) (TokenCall.mint use.installationId jwt) _) _ _
    refine .ask (P := Due use i) (hu.others hothers) (fun _ _ hv hothers _ => hv.others hothers)
      (fun _ _ => id) (fun _ _ _ => trivial) ?_
    intro v reply t hv hkept hsem
    obtain rfl : t = v.answered readers i use.installationId reply := hsem
    rw [← hv.continues.installationId]
    cases htoken : readToken readers reply with
    | error error =>
      simp only [answered, htoken]
      refine ⟨⟨hkept, fun j _ => .refl j v⟩, fun w hothers _ => ?_⟩
      have hw := hv.others hothers
      exact .of_error hw.holding hw.continues
    | ok token =>
      obtain ⟨hkeeps, hminted⟩ := @minted _ α _ _ app _ _ _ _ hkept hv.holding hv.may htoken
      refine ⟨hkeeps, ?_⟩
      have hsame : (v.answered readers i (v.uses i).installationId reply).uses = v.uses := by
        simp only [answered, htoken]
      rw [hv.continues.installationId] at hminted hsame ⊢
      exact safe_insert hminted (hsame.symm ▸ hv.continues)

/-- **What is done under the lock.** A cached token is one to go out under
where the request is not refused and read the clock before. -/
theorem safe_lockedToken {use : TokenUse} {forceRefresh : Bool} {now : ℕ} (hholding : Holding i w)
    (huse : use.Continues (w.uses i)) (hasked : (w.uses i).asked = now) (hnow : now ≤ w.now)
    (hforced : if forceRefresh then ∃ refused ∈ use.refused, refused ≤ now else use.refused = none) :
    (tokenOutline α readers app).Safe i
      (lockedToken readers app use.installationId forceRefresh now) (Locked use i) w := by
  unfold lockedToken
  cases forceRefresh with
  | true =>
    obtain ⟨refused, hrefused, htime⟩ := hforced
    refine safe_mintToken ⟨hholding, fun older _ => .inr ⟨refused, ?_, by omega⟩, huse⟩
    exact huse.refused.symm ▸ hrefused
  | false =>
    refine .ask (P := fun w => Holding i w ∧ use.Continues (w.uses i) ∧ (w.uses i).asked = now ∧
      now ≤ w.now) ⟨hholding, huse, hasked, hnow⟩
      (fun u v ⟨hu, huse, hasked, hnow⟩ hothers _ => ⟨hu.others hothers, hothers.uses ▸ huse,
        hothers.uses ▸ hasked, hnow.trans hothers.now⟩) (fun _ _ => id) (fun _ _ _ => trivial) ?_
    rintro u cached v ⟨hholding, huse, hasked, hnow⟩ hkept hsem
    obtain ⟨rfl, rfl⟩ : cached = u.tokens use.installationId ∧ v = u := hsem
    refine ⟨⟨hkept, fun j _ => .refl j v⟩, ?_⟩
    have hlatest := hholding.latest use.installationId
    cases hcached : v.tokens use.installationId with
    | none =>
      refine safe_mintToken ⟨hholding, fun older holder => ?_, huse⟩
      rw [Latest, hcached, ← huse.installationId] at hlatest
      rw [Option.mem_def.1 holder] at hlatest
      cases hlatest
    | some token =>
      rw [Latest, hcached, ← huse.installationId] at hlatest
      obtain ⟨issue, hissue, rfl⟩ := Option.map_eq_some_iff.1 hlatest.symm
      simp only
      split
      · rename_i hleft
        refine fun t hothers _ => Locked.others ⟨hholding, huse, fun value hvalue =>
          ⟨issue, List.mem_of_mem_head? hissue, Except.ok.inj hvalue, ?_⟩⟩ hothers
        have hnone : (v.uses i).refused = none := huse.refused.trans hforced
        rw [TokenUse.Fit, hnone]
        exact .inl (hasked.symm ▸ hleft)
      · rename_i hleft
        refine safe_mintToken ⟨hholding, fun older holder => .inl ?_, huse⟩
        obtain rfl : issue = older := Option.some.inj (hissue.symm.trans holder)
        omega

/-! ## A request -/

/-- **Finding a token**, the lock waited for and let go. -/
theorem safe_installationToken (use : TokenUse) {forceRefresh : Bool}
    (huse : use.Continues (w.uses i))
    (hforced : use.refused.isSome = forceRefresh) :
    (tokenOutline α readers app).Safe i
      (Tokens.installationToken readers app use.installationId forceRefresh) (Found use i) w := by
  unfold Tokens.installationToken
  refine safe_unixSeconds (P := fun w => use.Continues (w.uses i)) huse
    (fun u v hu hothers => hothers.uses ▸ hu) fun u huse hkept => ?_
  have hrefused : if forceRefresh then ∃ refused ∈ use.refused, refused ≤ u.now
      else use.refused = none := by
    cases forceRefresh with
    | false => exact Option.not_isSome_iff_eq_none.1 (by simp [hforced])
    | true =>
      obtain ⟨refused, hrefused⟩ := Option.isSome_iff_exists.1 hforced
      exact ⟨refused, hrefused, hkept.refused i refused (huse.refused.trans hrefused)⟩
  refine .ask (P := fun w => use.Continues (w.uses i) ∧ (w.uses i).asked = u.now ∧ u.now ≤ w.now)
    ⟨by simpa using ⟨huse.installationId, huse.refused⟩, by simp, le_rfl⟩
    (fun v w ⟨huse, hasked, hnow⟩ hothers _ => ⟨hothers.uses ▸ huse, hothers.uses ▸ hasked,
      hnow.trans hothers.now⟩) (fun _ _ => id) (fun _ _ _ => trivial) ?_
  rintro v _ t ⟨huse, hasked, hnow⟩ hkept hsem
  obtain ⟨hfree, rfl⟩ : v.holder = none ∧ t = { v with holder := some i } := hsem
  refine ⟨⟨⟨nofun, hkept.renewed, hkept.asked, hkept.refused⟩, fun j hj => ⟨le_rfl, rfl,
    fun _ => List.suffix_rfl, fun hheld => ?_⟩⟩, ?_⟩
  · rw [hfree] at hheld
    cases hheld
  · refine .bind (.outcome (Outline.Safe.mono
      (safe_lockedToken ⟨rfl, hkept.free hfree⟩ huse hasked hnow hrefused) fun result t _ ht => ?_))
    refine .ask (P := Locked use i result) ht (fun _ _ h hothers _ => h.others hothers)
      (fun _ _ => id) (fun _ _ _ => trivial) ?_
    intro a _ b ha hkept hsem
    obtain rfl : b = { a with holder := none } := hsem
    refine ⟨keeps_held ha.holding.holder ⟨fun _ => ha.holding.latest, hkept.renewed, hkept.asked,
      hkept.refused⟩ rfl rfl fun _ => List.suffix_rfl, ?_⟩
    have hfound : Found use i result { a with holder := none } := ⟨ha.found.continues, ha.found.fit⟩
    cases result with
    | error error => exact fun c hothers _ => hfound.others hothers
    | ok value => exact fun c hothers _ => hfound.others hothers

/-- A request sent has been refused where it is answered 401. -/
structure AfterSend (installationId : ℕ) (i : ι) (result : Except GithubError (Response α))
    (w : TokenWorld ι) : Prop where
  installationId : (w.uses i).installationId = installationId
  refused : ∀ response, result = .ok response → response.unauthorized →
    (w.uses i).refused.isSome

omit [DecidableEq ι] in
theorem AfterSend.others {installationId : ℕ} {result : Except GithubError (Response α)}
    (h : AfterSend installationId i result u) (hothers : Others i u v) : AfterSend installationId i result v :=
  ⟨hothers.uses ▸ h.installationId, hothers.uses ▸ h.refused⟩

theorem safe_sendUnder {use : TokenUse} {request : HttpRequest} {value : String}
    (h : Found use i (.ok value) w) :
    (tokenOutline α readers app).Safe i (sendUnder request value)
      (AfterSend use.installationId i) w := by
  unfold sendUnder
  refine .ask (P := Found use i (.ok value)) h (fun _ _ h hothers _ => h.others hothers)
    (fun _ _ => id) (fun u h _ => h.fit value rfl) ?_
  intro u reply v hu hkept hsem
  obtain rfl : v = u.replied i reply := hsem
  unfold TokenWorld.replied
  cases reply with
  | error cause =>
    exact ⟨⟨hkept, fun j _ => .refl j u⟩, fun t hothers _ =>
      AfterSend.others ⟨hu.continues.installationId, nofun⟩ hothers⟩
  | ok response =>
    simp only
    split
    · refine ⟨keeps_noted hkept (hkept.asked i) fun refused hrefused => ?_, fun t hothers _ =>
        AfterSend.others ⟨?_, fun _ _ _ => ?_⟩ hothers⟩
      · exact (Option.some.inj hrefused).ge
      · simpa using hu.continues.installationId
      · simp
    · rename_i hauthorized
      refine ⟨⟨hkept, fun j _ => .refl j u⟩, fun t hothers _ =>
        AfterSend.others ⟨hu.continues.installationId, fun other hother hrefused => ?_⟩ hothers⟩
      obtain rfl := Except.ok.inj hother
      exact absurd hrefused hauthorized

theorem safe_installationSend {installationId : ℕ} {request : HttpRequest}
    (hinstallation : (w.uses i).installationId = installationId) (hnone : (w.uses i).refused = none) :
    (tokenOutline α readers app).Safe i (installationSend readers app installationId request)
      (fun _ _ => True) w := by
  unfold installationSend
  refine .bind (Outline.Safe.mono (safe_installationToken ⟨installationId, 0, none⟩
    ⟨hinstallation, hnone⟩ rfl) fun result u _ hu => ?_)
  cases result with
  | error error => trivial
  | ok value =>
    refine .bind (Outline.Safe.mono (safe_sendUnder hu) fun result v _ hv => ?_)
    cases result with
    | error error => trivial
    | ok response =>
      change (tokenOutline α readers app).Safe i (if response.unauthorized then _ else _) _ _
      split
      · rename_i hunauthorized
        obtain rfl := hv.installationId
        refine .bind (Outline.Safe.mono (safe_installationToken (v.uses i) ⟨rfl, rfl⟩
          (hv.refused response rfl hunauthorized)) fun result t _ ht => ?_)
        cases result with
        | error error => trivial
        | ok value => exact (safe_sendUnder ht).mono fun _ _ _ _ => trivial
      · exact fun _ _ _ => trivial

theorem tokenOutline_valid : (tokenOutline (ι := ι) α readers app).Valid where
  init := by
    rintro w ⟨-, htokens, hissued, huses⟩
    refine ⟨fun _ id => ?_, fun id => ?_, fun i => ?_, fun i => ?_⟩
    · rw [Latest, htokens, hissued]
      rfl
    · rw [hissued]
      exact .nil
    · rw [huses]
      exact Nat.zero_le _
    · rw [huses]
      exact nofun
  env := by
    rintro w _ hkept ⟨now, hnow, rfl⟩
    exact ⟨⟨hkept.free, hkept.renewed, fun i => (hkept.asked i).trans hnow,
      fun i refused hrefused => (hkept.refused i refused hrefused).trans hnow⟩,
      fun i => ⟨hnow, rfl, fun _ => List.suffix_rfl, fun hheld => ⟨hheld, rfl, rfl⟩⟩⟩
  start := by
    rintro i _ w _ hkept ⟨installationId, request, rfl, rfl⟩
    refine ⟨keeps_noted hkept (Nat.zero_le _) nofun, (safe_installationSend ?_ ?_).mono ?_⟩
    · simp
    · simp
    · rintro result u hkept - _ rfl
      exact ⟨hkept, fun j _ => .refl j _⟩

/-- **A token shared by requests is always fit to send one under.** In every
state any requests reach together, with the clock moving on and GitHub
answering anything: a cache nobody holds has the token last issued for each
installation; a token was issued over an older one only when that had a
minute or less left or its request had been refused; and a request goes out
under a token of its installation that had more than a minute left when the
request asked, or was issued to it since — issued to it since it was refused,
once it was. -/
theorem token_fit {s : System.State (fun _ : ι => TokenEffects α) GithubError
      (fun _ => Response α) (TokenWorld ι)}
    (hs : (tokenSystem α readers app).Reach s) :
    (s.world.holder = none → ∀ id, s.world.Latest id) ∧
      (∀ id, (s.world.issued id).IsChain Issue.Renews) ∧
      ∀ i request token k, s.slots i = some (.ask (.send request token) k) →
        s.world.GoesUnder i token := by
  have h := tokenOutline_valid.reach hs
  exact ⟨h.inv.free, h.inv.renewed, fun i request token k hslot => h.shows hslot⟩

/-! ### A token found in the cache and refused -/

/-- A token lasts two hours from the epoch; no commit is read for one. -/
def sampleTokenReaders : SnapshotReaders :=
  ⟨⟨fun _ => none, fun _ => none, fun _ => none⟩, fun _ => .ok 7200⟩

/-- An App whose key always signs. -/
def sampleApp : GithubApp := ⟨1, fun _ => .ok "jwt"⟩

/-- A read of one pull request. -/
def sampleHttpRequest : HttpRequest := ⟨.get, "https://api.github.com/repos/acme/api/pulls/1", none⟩

/-- GitHub's answer with a token. -/
def sampleIssued (token : String) : Reply InstallationToken := .ok (.answered ⟨token, ""⟩)

/-- One request has minted a token; another has found it, been refused under
it, and minted its own. -/
theorem sampleToken_reach : ∃ s,
    (tokenSystem (ι := Bool) Unit sampleTokenReaders sampleApp).Reach s ∧
      (∃ k, s.slots true = some (.ask (.send sampleHttpRequest "second") k)) ∧
      (s.world.uses true).refused = some 3600 ∧
      (s.world.issued 42).map (fun issue => issue.token.value) = ["second", "first"] ∧
      (s.world.issued 42).map Issue.issuedTo = [true, false] := by
  have h₀ : (tokenSystem (ι := Bool) Unit sampleTokenReaders sampleApp).Reach
      ⟨⟨3600, none, fun _ => none, fun _ => [], fun _ => ⟨0, 0, none⟩⟩, fun _ => none⟩ :=
    .init ⟨rfl, fun _ => rfl, fun _ => rfl, fun _ => rfl⟩
  have h₁ := h₀.start false _ rfl ⟨42, sampleHttpRequest, rfl, rfl⟩
  have h₂ := h₁.answer false .unixSeconds (3600 : ℕ) rfl ⟨rfl, rfl⟩
  have h₃ := h₂.answer false .lock () rfl ⟨rfl, rfl⟩
  have h₄ := h₃.answer false (.get 42) none rfl ⟨rfl, rfl⟩
  have h₅ := h₄.answer false .unixSeconds (3600 : ℕ) rfl ⟨rfl, rfl⟩
  have h₆ := h₅.answer false (.mint 42 "jwt") (sampleIssued "first") rfl rfl
  have h₇ := h₆.answer false (.insert 42 ⟨"first", 7200⟩) () rfl rfl
  have h₈ := h₇.answer false .unlock () rfl rfl
  have h₉ := h₈.start true _ rfl ⟨42, sampleHttpRequest, rfl, rfl⟩
  have h₁₀ := h₉.answer true .unixSeconds (3600 : ℕ) rfl ⟨rfl, rfl⟩
  have h₁₁ := h₁₀.answer true .lock () rfl ⟨rfl, rfl⟩
  have h₁₂ := h₁₁.answer true (.get 42) (some ⟨"first", 7200⟩) rfl ⟨rfl, rfl⟩
  have h₁₃ := h₁₂.answer true .unlock () rfl rfl
  have h₁₄ := h₁₃.answer true (.send sampleHttpRequest "first")
    (.ok (.refused (.plain 401 "Bad credentials"))) rfl rfl
  have h₁₅ := h₁₄.answer true .unixSeconds (3600 : ℕ) rfl ⟨rfl, rfl⟩
  have h₁₆ := h₁₅.answer true .lock () rfl ⟨rfl, rfl⟩
  have h₁₇ := h₁₆.answer true .unixSeconds (3600 : ℕ) rfl ⟨rfl, rfl⟩
  have h₁₈ := h₁₇.answer true (.mint 42 "jwt") (sampleIssued "second") rfl rfl
  have h₁₉ := h₁₈.answer true (.insert 42 ⟨"second", 7200⟩) () rfl rfl
  have h₂₀ := h₁₉.answer true .unlock () rfl rfl
  exact ⟨_, h₂₀, ⟨_, rfl⟩, rfl, rfl, rfl⟩

/-- The second request goes out under its own. -/
theorem token_fit_sample : ∃ s,
    (tokenSystem (ι := Bool) Unit sampleTokenReaders sampleApp).Reach s ∧
      (s.world.uses true).refused = some 3600 ∧ s.world.GoesUnder true "second" := by
  obtain ⟨s, hreach, ⟨k, hslot⟩, hrefused, -, -⟩ := sampleToken_reach
  exact ⟨s, hreach, hrefused, (token_fit hreach).2.2 true sampleHttpRequest "second" k hslot⟩

end Dependaboard
