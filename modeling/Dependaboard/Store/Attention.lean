import Dependaboard.Store.PrJson
import Dependaboard.Store.Stored
/-!
# Store — what a filter's clause selects of a stored row

The clause of a filter is the conjunction of what each of its fields asks for
(`clauses_eq_flatMap`), and the field that asks for attention asks what the row
says of itself: its checks, its conflict, its severity and its age. The age is
a subtraction on either side of a comparison, and `attention_clause` is that
the two agree, up to the clock readings whose threshold SQLite has no integer
for.
-/

namespace Dependaboard

open Relational

/-- A field of a filter, to ask for one alone. -/
inductive PrField where
  | query
  | repos
  | updateTypes
  | checkStatuses
  | labels
  | dependency
  | needsAttention
  deriving DecidableEq, Repr

/-- Every field, in the order their clauses are written. -/
def PrField.all : List PrField :=
  [.query, .repos, .updateTypes, .checkStatuses, .labels, .dependency, .needsAttention]

/-- The filter with one of its fields alone. -/
def PrFilter.only (filter : PrFilter) : PrField → PrFilter
  | .query => { (default : PrFilter) with query := filter.query }
  | .repos => { (default : PrFilter) with repos := filter.repos }
  | .updateTypes => { (default : PrFilter) with updateTypes := filter.updateTypes }
  | .checkStatuses => { (default : PrFilter) with checkStatuses := filter.checkStatuses }
  | .labels => { (default : PrFilter) with labels := filter.labels }
  | .dependency => { (default : PrFilter) with dependency := filter.dependency }
  | .needsAttention => { (default : PrFilter) with needsAttention := filter.needsAttention }

theorem PrField.mem_all (field : PrField) : field ∈ all := by
  cases field <;> decide

/-- **A filter asks for what its fields ask for**, each alone. -/
theorem PrFilter.clauses_eq_flatMap (filter : PrFilter) (now : ℕ) :
    filter.clauses now = PrField.all.flatMap fun field => (filter.only field).clauses now := by
  simp only [PrField.all, List.flatMap_cons, List.flatMap_nil, List.append_nil]
  simp only [clauses, only, nonblank, default, Option.filter_none, Option.toList_none,
    List.map_nil, if_true, List.nil_append, List.append_nil, Bool.false_eq_true, if_false,
    List.append_assoc]
  rfl

namespace RawStore

variable {codec : PrCodec} (raw : RawStore codec)

/-- The clause of a filter is true of a row. -/
def Selects (filter : PrFilter) (now : ℕ) (row : StoredRow codec) : Prop :=
  ∃ clauses params, filterSql filter none now [] = .ok (clauses, params) ∧
    raw.tables.condition codec clauses params row.cells = some true

/-- The clause of a filter is written where its threshold fits. -/
theorem filterSql_ok {filter : PrFilter} {now : ℕ}
    (h : filter.needsAttention → now - staleAfter < i64Size) :
    ∃ clauses params, filterSql filter none now [] = .ok (clauses, params) ∧
      clauses.mapM (Clause.resolve params) = some (filter.clauses now) := by
  obtain ⟨clauses, params, hrun, hresolves⟩ :=
    (writes_filterSql filter none now).ok ⟨h, by simp⟩ []
  refine ⟨clauses, params, hrun, ?_⟩
  have hresolve := hresolves []
  rwa [List.append_nil, List.nil_append, Option.toList_none, List.map_nil, List.append_nil]
    at hresolve

/-- **A filter selects a row where its clauses hold of the record.** -/
theorem selects_iff {filter : PrFilter} {now : ℕ}
    (h : filter.needsAttention → now - staleAfter < i64Size) (row : StoredRow codec) :
    raw.Selects filter now row ↔ filter.matches raw.store now row.pr := by
  obtain ⟨clauses, params, hrun, hresolve⟩ := filterSql_ok h
  have hcondition := raw.condition_eq_true hresolve (said_clauses filter now) row
  constructor
  · rintro ⟨clauses', params', hrun', htrue⟩
    obtain ⟨rfl, rfl⟩ := Prod.mk.inj (Except.ok.inj (hrun.symm.trans hrun'))
    exact hcondition.1 htrue
  · exact fun hmatches => ⟨clauses, params, hrun, hcondition.2 hmatches⟩

/-- A filter whose threshold does not fit is refused. -/
theorem filterSql_error {filter : PrFilter} {now : ℕ} (hasks : filter.needsAttention)
    (h : i64Size ≤ now - staleAfter) :
    filterSql filter none now [] = .error .integerOverflow :=
  (writes_filterSql filter none now).error (fun hfits => absurd (hfits.1 hasks) (Nat.not_lt.2 h)) []

/-- A row is past its freshness where it was synced before the threshold. -/
theorem isStale_iff (pr : PrRecord) (now : ℕ) :
    pr.isStale now ↔ pr.syncedAt < now - staleAfter := by
  simp only [PrRecord.isStale, decide_eq_true_eq]
  omega

/-- The filter that asks for attention, and nothing else. -/
def attentionFilter : PrFilter := { (default : PrFilter) with needsAttention := true }

/-- The row says that it needs attention. -/
def Needs (now : ℕ) (pr : PrRecord) : Prop :=
  pr.checkStatus = .failure ∨ pr.checkStatus = .none ∨ pr.mergeable.isConflicting ∨
    pr.updateType = .major ∨ pr.isStale now

theorem matches_attentionFilter (store : Store) (now : ℕ) (pr : PrRecord) :
    attentionFilter.matches store now pr ↔ Needs now pr := by
  have hclauses : attentionFilter.clauses now
      = [.needsAttention ["failure", "none"] ["dirty"] "major" (now - staleAfter)] := rfl
  have hfailure : toString pr.checkStatus ∈ ["failure", "none"]
      ↔ pr.checkStatus = .failure ∨ pr.checkStatus = .none := by
    cases pr.checkStatus <;> decide
  have hconflicting : toString pr.mergeable ∈ ["dirty"] ↔ pr.mergeable.isConflicting := by
    cases pr.mergeable <;> decide
  have hmajor : toString pr.updateType = "major" ↔ pr.updateType = .major := by
    cases pr.updateType <;> decide
  rw [PrFilter.matches, hclauses, Needs, isStale_iff]
  simp only [List.all_cons, List.all_nil, Bool.and_true, Clause.holds, decide_eq_true_eq, hfailure,
    hconflicting, hmajor, or_assoc]

/-- **The attention filter means what the row says**, of every stored row and
at every clock reading whose threshold SQLite has an integer for: its checks
failed or are none, it conflicts, it is major, or it is stale. With other
fields it selects what every field selects alone. A reading past those is
refused, and nothing is selected. -/
theorem attention_clause (row : StoredRow codec) (now : ℕ) (filter : PrFilter) :
    (now - staleAfter < i64Size → (raw.Selects attentionFilter now row ↔ Needs now row.pr)) ∧
    ((filter.needsAttention → now - staleAfter < i64Size) →
      (raw.Selects filter now row ↔ ∀ field, raw.Selects (filter.only field) now row)) ∧
    (i64Size ≤ now - staleAfter → filter.needsAttention →
      filterSql filter none now [] = .error .integerOverflow) := by
  refine ⟨fun hfits => ?_, fun hfits => ?_, fun hpast hasks => filterSql_error hasks hpast⟩
  · rw [raw.selects_iff (fun _ => hfits), matches_attentionFilter]
  · have hfield (field : PrField) :
        raw.Selects (filter.only field) now row ↔ (filter.only field).matches raw.store now row.pr :=
      raw.selects_iff (fun hasks => hfits (by cases field <;> first | exact hasks | cases hasks)) row
    rw [raw.selects_iff hfits, forall_congr' hfield, PrFilter.matches,
      PrFilter.clauses_eq_flatMap]
    simp only [List.all_flatMap, List.all_eq_true, PrFilter.matches]
    exact ⟨fun h field => h field field.mem_all, fun h field _ => h field⟩

/-- Three rows, as they are stored. -/
def sampleRaw : RawStore prJson where
  store := ProjectionReader.sampleProjection
  rows := [.written prJson (ProjectionReader.samplePr 9 20) (by decide),
    .written prJson (ProjectionReader.samplePr 10 20) (by decide),
    .written prJson (ProjectionReader.samplePr 3 30) (by decide)]
  holds := rfl

/-- A reading is refused whose threshold is past SQLite's integers, though every
row was synced long before it. -/
theorem attention_clause_past_integers : ¬ ∀ now < u64Size, ∀ row ∈ sampleRaw.rows,
    (sampleRaw.Selects attentionFilter now row ↔ Needs now row.pr) := by
  intro h
  have hreading : i64Size + staleAfter < u64Size := by decide
  obtain ⟨clauses, params, hrun, -⟩ := (h _ hreading _ List.mem_cons_self).2
    (.inr (.inr (.inr (.inr (by decide)))))
  rw [filterSql_error rfl (by decide)] at hrun
  cases hrun

end RawStore

end Dependaboard
