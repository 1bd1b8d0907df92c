import Dependaboard.Store.Reader
/-!
# Store — what a read of keys answers

The rows of some keys come back in no order; each key is answered by the row
under its own text. `getPrs_eq` is that the answers stand in the order the
keys do, each what the projection holds for its key.
-/

namespace Dependaboard

open Relational

/-- What the projection holds for a key, for an installation, by its tables. -/
def Store.projected (store : Store) (installationId : ℕ) (key : PrKey) : ProjectedPr :=
  match store.row? key with
  | none => .absent
  | some row =>
    if (store.repository? row.repositoryId).map RepoRecord.installationId = some installationId
    then .row row else .foreign

namespace ProjectionReader

variable {store : Store}

theorem mem_selectPr {row : PrRecord} {owner : ℕ} : (row, owner) ∈ selectPr store ↔
    row ∈ store.pullRequests.rows ∧
      (store.repository? row.repositoryId).map RepoRecord.installationId = some owner := by
  simp only [selectPr, List.mem_filterMap, Option.map_eq_some_iff, Prod.mk.injEq]
  constructor
  · rintro ⟨row, hrow, repo, hrepo, rfl, rfl⟩
    exact ⟨hrow, repo, hrepo, rfl⟩
  · rintro ⟨hrow, repo, hrepo, rfl⟩
    exact ⟨row, hrow, repo, hrepo, rfl, rfl⟩

/-- The rows selected stand under texts of their own. -/
theorem nodup_selectPr (p : PrRecord × ℕ → Bool) :
    ((((selectPr store).filter p).map fun entry => (entry.1.id, entry)).map Prod.fst).Nodup := by
  have hrows : store.pullRequests.rows.Nodup := store.pullRequests.unique.of_map
  have hselected : (selectPr store).Nodup :=
    hrows.filterMap fun a b entry ha hb => by
      obtain ⟨_, -, rfl⟩ := Option.map_eq_some_iff.1 ha
      obtain ⟨_, -, hb⟩ := Option.map_eq_some_iff.1 hb
      exact (congrArg Prod.fst hb).symm
  rw [List.map_map]
  refine (hselected.filter p).map_on fun a ha b hb hid => ?_
  obtain ⟨hrow, howner⟩ := mem_selectPr.1 (List.mem_of_mem_filter ha)
  obtain ⟨hrow', howner'⟩ := mem_selectPr.1 (List.mem_of_mem_filter hb)
  have hsame : a.1 = b.1 := Store.eq_of_id_eq hrow hrow' hid
  rw [hsame, howner'] at howner
  exact Prod.ext hsame (Option.some.inj howner).symm

/-- What a read of keys gathers holds under a key's text the row at the key, and
its owner. -/
theorem collect_selectPr_eq_some {keys : List PrKey} {key : PrKey} (hkey : key ∈ keys)
    (row : PrRecord) (owner : ℕ) :
    collect (((selectPr store).filter fun entry => entry.1.id ∈ keys.map toString).map
      fun entry => (entry.1.id, entry)) (toString key) = some (row, owner) ↔
    store.row? key = some row ∧
      (store.repository? row.repositoryId).map RepoRecord.installationId = some owner := by
  rw [collect_eq_some (nodup_selectPr _), List.mem_map]
  constructor
  · rintro ⟨⟨row, owner⟩, hmem, heq⟩
    obtain ⟨hid, rfl, rfl⟩ := Prod.mk.injEq .. ▸ heq
    obtain ⟨hrow, howner⟩ := mem_selectPr.1 (List.mem_of_mem_filter hmem)
    exact ⟨Table.find?_eq_some.2 ⟨hrow, (Store.id_eq_iff hrow key).1 hid⟩, howner⟩
  · rintro ⟨hrow, howner⟩
    obtain ⟨hrow, hkey'⟩ := Table.find?_eq_some.1 hrow
    have hid := (Store.id_eq_iff hrow key).2 hkey'
    refine ⟨(row, owner), List.mem_filter.2 ⟨mem_selectPr.2 ⟨hrow, howner⟩, ?_⟩, by rw [hid]⟩
    exact decide_eq_true (List.mem_map.2 ⟨key, hkey, hid.symm⟩)

/-- Where the projection has no row at the key, nothing is gathered under its text. -/
theorem collect_selectPr_eq_none {keys : List PrKey} {key : PrKey} (hkey : key ∈ keys)
    (hrow : store.row? key = none) :
    collect (((selectPr store).filter fun entry => entry.1.id ∈ keys.map toString).map
      fun entry => (entry.1.id, entry)) (toString key) = none := by
  refine Option.eq_none_iff_forall_ne_some.2 fun entry hentry => ?_
  rw [collect_selectPr_eq_some hkey, hrow] at hentry
  cases hentry.1

/-- **A read of keys answers each key in its place**, with what the projection
holds for it. -/
theorem getPrs_eq (store : Store) (installationId : ℕ) (keys : List PrKey) :
    getPrs store installationId keys = keys.map (store.projected installationId) := by
  unfold getPrs
  split
  · rename_i hnone
    rw [hnone, List.map_nil]
  · refine List.map_congr_left fun key hkey => ?_
    rw [Store.projected]
    cases hrow : store.row? key with
    | none => simp only [collect_selectPr_eq_none hkey hrow]
    | some row =>
      -- a row's repository is always there, so the join never drops it
      obtain ⟨repo, hrepo⟩ := Option.isSome_iff_exists.1
        (store.owned row (Table.find?_eq_some.1 hrow).1)
      have howner : (store.repository? row.repositoryId).map RepoRecord.installationId
          = some repo.installationId := congrArg (Option.map _) hrepo
      simp only [(collect_selectPr_eq_some hkey row _).2 ⟨hrow, howner⟩, howner, Option.some_inj]

end ProjectionReader

end Dependaboard
