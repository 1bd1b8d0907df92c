import Mathlib.Data.List.Nodup
import Dependaboard.Store.Keyed
import Dependaboard.Store.Stored
/-!
# Store — answers in their places

The rows of some keys come back in whatever order the database finds them,
and are gathered by their texts before a key is answered. So their order is
nothing to the answers (`answerKeys_of_perm`), which stand where their keys do,
a key repeated answered at each of its places.
-/

namespace Dependaboard

open Relational

/-! ## Any order -/

/-- What is computed of each element succeeds in any order, and gives the same
in that order. -/
theorem Except.mapM_perm {ε α β : Type} {f : α → Except ε β} {xs xs' : List α} (h : xs'.Perm xs)
    {ys : List β} (hys : xs.mapM f = .ok ys) : ∃ ys', xs'.mapM f = .ok ys' ∧ ys'.Perm ys := by
  induction h generalizing ys with
  | nil => exact ⟨ys, hys, .refl _⟩
  | cons x _ ih =>
    rw [List.mapM_cons] at hys
    obtain ⟨y, hy, hys⟩ := Except.bind_ok hys
    obtain ⟨rest, hrest, hys⟩ := Except.bind_ok hys
    obtain rfl := Except.ok.inj hys
    obtain ⟨rest', hrest', hperm⟩ := ih hrest
    refine ⟨y :: rest', ?_, hperm.cons y⟩
    rw [List.mapM_cons, hy, hrest']
    rfl
  | swap x x' _ =>
    rw [List.mapM_cons] at hys
    obtain ⟨y, hy, hys⟩ := Except.bind_ok hys
    obtain ⟨others, hothers, hys⟩ := Except.bind_ok hys
    obtain rfl := Except.ok.inj hys
    rw [List.mapM_cons] at hothers
    obtain ⟨y', hy', hothers⟩ := Except.bind_ok hothers
    obtain ⟨rest, hrest, hothers⟩ := Except.bind_ok hothers
    obtain rfl := Except.ok.inj hothers
    refine ⟨y' :: y :: rest, ?_, .swap y y' rest⟩
    simp only [List.mapM_cons, hy, hy', hrest]
    rfl
  | trans _ _ ih ih' =>
    obtain ⟨between, hbetween, hperm'⟩ := ih' hys
    obtain ⟨last, hlast, hperm⟩ := ih hbetween
    exact ⟨last, hlast, hperm.trans hperm'⟩

/-- Entries under distinct keys are collected into one map from any order. -/
theorem collect_perm {κ ν : Type} [DecidableEq κ] {entries entries' : List (κ × ν)}
    (hnodup : (entries.map Prod.fst).Nodup) (h : entries'.Perm entries) :
    collect entries' = collect entries := by
  have hnodup' : (entries'.map Prod.fst).Nodup := (h.map Prod.fst).nodup_iff.2 hnodup
  funext k
  refine Option.ext fun v => ?_
  rw [collect_eq_some hnodup', collect_eq_some hnodup, h.mem_iff]

/-! ## The read of keys, whatever order its rows come in -/

namespace RawTables

/-- The condition of a read of keys. -/
def keyed (keys : List PrKey) (row : PrRow) : Truth :=
  (row .id).isIn (keys.map fun key => .text (toString key))

/-- What a read of keys makes of the rows it gets. -/
def answerKeys (codec : PrCodec) (installationId : ℕ) (keys : List PrKey)
    (rows : List (List Cell)) : Except StoreError (List ProjectedPr) :=
  if keys = [] then .ok [] else do
    let found := collect (← rows.mapM (ownedPr codec))
    return keys.map fun key =>
      match found (toString key) with
      | none => .absent
      | some (row, owner) => if owner = installationId then .row row else .foreign

/-- The one answer to a key, where there is one. -/
def answerKey (codec : PrCodec) (installationId : ℕ) (key : PrKey) (rows : List (List Cell)) :
    Except StoreError (Option ProjectedPr) := do
  return (← answerKeys codec installationId [key] rows).head?

end RawTables

namespace RawStore

variable {codec : PrCodec} (raw : RawStore codec) {installationId : ℕ} {keys : List PrKey}

/-- **The order rows come back in is nothing to the answers.** -/
theorem answerKeys_of_perm {rows : List (List Cell)}
    (h : rows.Perm (raw.tables.selectPr (RawTables.keyed keys))) :
    RawTables.answerKeys codec installationId keys rows
      = .ok (keys.map (raw.store.projected installationId)) := by
  rw [← ProjectionReader.getPrs_eq]
  unfold RawTables.answerKeys ProjectionReader.getPrs
  split
  · rfl
  · obtain ⟨entries, hentries, hperm⟩ := Except.mapM_perm h (raw.ownedPrs_tables keys)
    have hfound := collect_perm (ProjectionReader.nodup_selectPr _) hperm
    simp only [hentries, Except.ok_bind, hfound]
    rfl

/-- What an answer says of a key. -/
structure Answers (installationId : ℕ) (key : PrKey) (answer : ProjectedPr) : Prop where
  /-- The row at the key, of one of the installation's repositories. -/
  row : ∀ row, answer = .row row ↔ raw.store.row? key = some row ∧
    ∃ repo ∈ raw.store.repositories.rows,
      repo.repositoryId = row.repositoryId ∧ repo.installationId = installationId
  foreign : answer = .foreign ↔ ∃ row, raw.store.row? key = some row ∧
    ∃ repo ∈ raw.store.repositories.rows,
      repo.repositoryId = row.repositoryId ∧ repo.installationId ≠ installationId
  absent : answer = .absent ↔ ∀ row ∈ raw.store.pullRequests.rows, row.key ≠ key

/-- What holds of the repository of a row holds of the one repository found at
its id. -/
theorem exists_repository {repositoryId : ℕ} {repo : RepoRecord}
    (hrepo : raw.store.repository? repositoryId = some repo) (p : RepoRecord → Prop) :
    (∃ other ∈ raw.store.repositories.rows, other.repositoryId = repositoryId ∧ p other)
      ↔ p repo := by
  constructor
  · rintro ⟨other, hmem, hid, hp⟩
    obtain rfl := Option.some.inj ((Table.find?_eq_some.2 ⟨hmem, hid⟩).symm.trans hrepo)
    exact hp
  · obtain ⟨hmem, hid⟩ := Table.find?_eq_some.1 hrepo
    exact fun hp => ⟨repo, hmem, hid, hp⟩

theorem answers_projected (installationId : ℕ) (key : PrKey) :
    raw.Answers installationId key (raw.store.projected installationId key) := by
  rw [Store.projected]
  cases hrow : raw.store.row? key with
  | none =>
    have habsent := Table.find?_eq_none.1 hrow
    exact ⟨by simp [hrow], by simp [hrow], by simpa using habsent⟩
  | some row =>
    obtain ⟨hmem, hkey⟩ := Table.find?_eq_some.1 hrow
    obtain ⟨repo, hrepo⟩ := Option.isSome_iff_exists.1 (raw.store.owned row hmem)
    have howner : (raw.store.repository? row.repositoryId).map RepoRecord.installationId
        = some repo.installationId := congrArg (Option.map _) hrepo
    have hpresent : ¬∀ other ∈ raw.store.pullRequests.rows, other.key ≠ key :=
      fun h => h row hmem hkey
    simp only [howner, Option.some.injEq]
    split
    · next hown =>
      refine ⟨fun other => ?_, ?_, ?_⟩
      · rw [hrow, Option.some.injEq, ProjectedPr.row.injEq]
        refine ⟨?_, And.left⟩
        rintro rfl
        exact ⟨rfl, (raw.exists_repository hrepo (·.installationId = installationId)).2 hown⟩
      · refine ⟨by rintro ⟨⟩, ?_⟩
        rintro ⟨other, hother, hforeign⟩
        obtain rfl := Option.some.inj (hrow.symm.trans hother)
        exact absurd hown
          ((raw.exists_repository hrepo (·.installationId ≠ installationId)).1 hforeign)
      · exact ⟨by rintro ⟨⟩, fun h => absurd h hpresent⟩
    · next hforeign =>
      refine ⟨fun other => ⟨by rintro ⟨⟩, ?_⟩, ?_, ?_⟩
      · rintro ⟨hother, hown⟩
        obtain rfl := Option.some.inj (hrow.symm.trans hother)
        exact absurd ((raw.exists_repository hrepo (·.installationId = installationId)).1 hown)
          hforeign
      · exact ⟨fun _ => ⟨row, hrow,
          (raw.exists_repository hrepo (·.installationId ≠ installationId)).2 hforeign⟩,
          fun _ => rfl⟩
      · exact ⟨by rintro ⟨⟩, fun h => absurd h hpresent⟩

/-- **A read of keys answers by position.** Whatever order its rows come back
in, there are as many answers as keys, repeated ones too, and each is of the
key it stands at: its row, where the row's repository is the installation's,
that it is foreign where it is another's, and that it is absent where there is
no row. One key is one answer. -/
theorem getPrs_positional (installationId : ℕ) :
    (∀ (keys : List PrKey) (rows : List (List Cell)),
      rows.Perm (raw.tables.selectPr (RawTables.keyed keys)) →
      ∃ answers, RawTables.answerKeys codec installationId keys rows = .ok answers ∧
        answers.length = keys.length ∧
        List.Forall₂ (raw.Answers installationId) keys answers) ∧
    ∀ (key : PrKey) (rows : List (List Cell)),
      rows.Perm (raw.tables.selectPr (RawTables.keyed [key])) →
      ∃ answer, RawTables.answerKey codec installationId key rows = .ok (some answer) ∧
        raw.Answers installationId key answer := by
  refine ⟨fun keys rows hrows => ?_, fun key rows hrows => ?_⟩
  · refine ⟨_, raw.answerKeys_of_perm hrows, List.length_map .., ?_⟩
    rw [List.forall₂_map_right_iff]
    exact List.forall₂_same.2 fun key _ => raw.answers_projected installationId key
  · refine ⟨_, ?_, raw.answers_projected installationId key⟩
    rw [RawTables.answerKey, raw.answerKeys_of_perm hrows]
    rfl

end RawStore

end Dependaboard
