import Mathlib
import Dependaboard.Store.Attention
/-!
# Store — a free-text search

What is searched for is escaped and put between two signs for any text. The
characters a pattern would read its own way stand for themselves then
(`likeTokens_escaped`), so the pattern is filled by the texts the search
occurs in (`like_escaped`), in any case, and by no others. The database's limit
on a pattern's length, and its reading of NUL, are not part of `like`.
-/

namespace Dependaboard

/-! ## Lower case -/

/-- A text in lower case is left by lowering it again. -/
theorem map_toLower_asciiLowercase (text : String) :
    (asciiLowercase text).toList.map Char.toLower = (asciiLowercase text).toList := by
  simp [asciiLowercase]

/-! ## Escaping -/

/-- Every `c` of a text replaced. -/
def replaceChar (c : Char) (replacement : List Char) (text : List Char) : List Char :=
  text.flatMap fun d => if d = c then replacement else [d]

/-- A pattern's characters are escaped one after another, the escape first:
none that a replacement wrote is replaced again. -/
theorem escapeLike_eq_replaceChar (text : String) : (escapeLike text).toList
    = replaceChar '_' ['\\', '_'] (replaceChar '%' ['\\', '%']
        (replaceChar '\\' ['\\', '\\'] text.toList)) := by
  have hone : ∀ c : Char, (if c = '\\' ∨ c = '%' ∨ c = '_' then ['\\', c] else [c])
      = replaceChar '_' ['\\', '_'] (replaceChar '%' ['\\', '%']
        (replaceChar '\\' ['\\', '\\'] [c])) := fun c => by
    by_cases hbackslash : c = '\\'
    · subst hbackslash
      decide
    by_cases hpercent : c = '%'
    · subst hpercent
      decide
    by_cases hunderscore : c = '_'
    · subst hunderscore
      decide
    simp [replaceChar, hbackslash, hpercent, hunderscore]
  rw [escapeLike, String.toList_ofList]
  induction text.toList with
  | nil => rfl
  | cons c rest ih =>
    rw [List.flatMap_cons, ih, hone]
    simp [replaceChar, List.flatMap_append]

@[simp] theorem likeTokens_escape (escape c : Char) (rest : List Char) :
    likeTokens escape (escape :: c :: rest) = (likeTokens escape rest).map (.char c :: ·) := by
  rw [likeTokens.eq_def]
  simp

theorem likeTokens_char {escape c : Char} (hescape : c ≠ escape) (hany : c ≠ '%') (hone : c ≠ '_')
    (rest : List Char) :
    likeTokens escape (c :: rest) = (likeTokens escape rest).map (.char c :: ·) := by
  rw [likeTokens.eq_def]
  simp [hescape, hany, hone]

theorem likeTokens_any {escape : Char} (hescape : escape ≠ '%') (rest : List Char) :
    likeTokens escape ('%' :: rest) = (likeTokens escape rest).map (.any :: ·) := by
  rw [likeTokens.eq_def]
  simp [hescape.symm]

/-- An escaped text is read as its own characters, whatever follows. -/
theorem likeTokens_escaped (text : String) (rest : List Char) :
    likeTokens '\\' ((escapeLike text).toList ++ rest)
      = (likeTokens '\\' rest).map (text.toList.map LikeToken.char ++ ·) := by
  rw [escapeLike, String.toList_ofList]
  induction text.toList with
  | nil => simp
  | cons c cs ih =>
    rw [List.flatMap_cons, List.append_assoc]
    split_ifs with hspecial
    · rw [List.cons_append, List.singleton_append, likeTokens_escape, ih, Option.map_map]
      rfl
    · rw [not_or, not_or] at hspecial
      obtain ⟨hbackslash, hpercent, hunderscore⟩ := hspecial
      rw [List.singleton_append, likeTokens_char hbackslash hpercent hunderscore, ih,
        Option.map_map]
      rfl

/-! ## Matching -/

/-- Literal places, and any text behind them, are filled by what begins
so, in any case. -/
theorem likeMatches_chars (needle text : List Char) :
    likeMatches (needle.map LikeToken.char ++ [.any]) text ↔
      needle.map Char.toLower <+: text.map Char.toLower := by
  induction needle generalizing text with
  | nil => simp [likeMatches]
  | cons c needle ih =>
    cases text with
    | nil => simp [likeMatches]
    | cons d text => simp [likeMatches, ih, List.cons_prefix_cons]

/-- **A pattern of an escaped text is filled by the texts it occurs in**, in
any case. -/
theorem like_escaped (needle text : String) :
    like '\\' ("%" ++ escapeLike needle ++ "%") text ↔
      needle.toList.map Char.toLower <:+: text.toList.map Char.toLower := by
  have htokens : likeTokens '\\' ("%" ++ escapeLike needle ++ "%").toList
      = some (.any :: (needle.toList.map LikeToken.char ++ [.any])) := by
    have hend : likeTokens '\\' ['%'] = some [.any] := by decide
    have hpattern : ("%" ++ escapeLike needle ++ "%").toList
        = '%' :: ((escapeLike needle).toList ++ ['%']) := by simp
    rw [hpattern, likeTokens_any (by decide), likeTokens_escaped, hend]
    rfl
  rw [like, htokens]
  simp only [likeMatches, List.any_eq_true, List.mem_tails, likeMatches_chars]
  constructor
  · rintro ⟨rest, hrest, hbegins⟩
    exact List.infix_iff_prefix_suffix.2 ⟨_, hbegins, hrest.map _⟩
  · intro hwithin
    obtain ⟨rest, hbegins, hsuffix⟩ := List.infix_iff_prefix_suffix.1 hwithin
    obtain ⟨rest, hrest, rfl⟩ := List.suffix_map_iff.1 hsuffix
    exact ⟨rest, hrest, hbegins⟩

/-- Texts in lower case are compared as they are. -/
theorem like_escaped_asciiLowercase (needle text : String) :
    like '\\' ("%" ++ escapeLike (asciiLowercase needle) ++ "%") (asciiLowercase text) ↔
      containsText (asciiLowercase text) (asciiLowercase needle) := by
  rw [like_escaped, map_toLower_asciiLowercase, map_toLower_asciiLowercase, containsText,
    decide_eq_true_iff]

/-! ## The search -/

/-- A text is in what a row is searched by: its repository and title, or a
dependency's name. -/
def PrRecord.Mentions (pr : PrRecord) (text : String) : Prop :=
  containsText (asciiLowercase (pr.owner ++ "/" ++ pr.repo ++ " " ++ pr.title))
      (asciiLowercase text) ∨
    ∃ dependency ∈ pr.dependencies,
      containsText (asciiLowercase dependency.name) (asciiLowercase text)

instance (pr : PrRecord) (text : String) : Decidable (pr.Mentions text) :=
  inferInstanceAs (Decidable (_ ∨ ∃ _ ∈ _, _))

/-- The query of a filter asks for its text and nothing else. -/
theorem clauses_only_query {filter : PrFilter} {text : String} (htext : filter.query = some text)
    (hnonblank : trim text ≠ "") (now : ℕ) : (filter.only .query).clauses now
      = [.query ("%" ++ escapeLike (asciiLowercase (trim text)) ++ "%")] := by
  have hquery : nonblank (some text) = some text := by simp [nonblank, hnonblank]
  simp only [PrFilter.clauses, PrFilter.only, htext, hquery]
  rfl

/-- A blank one asks for nothing. -/
theorem clauses_only_query_blank {filter : PrFilter}
    (hblank : ∀ text, filter.query = some text → trim text = "") (now : ℕ) :
    (filter.only .query).clauses now = [] := by
  have hquery : nonblank filter.query = none := by
    rw [nonblank, Option.filter_eq_none_iff]
    intro text htext
    simp [hblank text htext]
  simp only [PrFilter.clauses, PrFilter.only, hquery]
  rfl

theorem Clause.holds_query (store : Store) (pr : PrRecord) (text : String) :
    Clause.holds store pr (.query ("%" ++ escapeLike (asciiLowercase text) ++ "%")) ↔
      pr.Mentions text := by
  simp only [Clause.holds, Bool.or_eq_true, List.any_eq_true, like_escaped_asciiLowercase,
    PrRecord.Mentions]

namespace RawStore

variable {codec : PrCodec}

/-- **A free-text search matches literally**: a stored row is found exactly
where the text, trimmed and in lower case, occurs in its repository and title
or in a dependency's name, in lower case too. A blank text finds every row. -/
theorem query_search_literal (raw : RawStore codec) (row : StoredRow codec) (now : ℕ)
    (filter : PrFilter) :
    (∀ text, filter.query = some text → trim text ≠ "" →
      (raw.Selects (filter.only .query) now row ↔ row.pr.Mentions (trim text))) ∧
    ((∀ text, filter.query = some text → trim text = "") →
      raw.Selects (filter.only .query) now row) := by
  have hselects := @raw.selects_iff _ (filter.only .query) now (fun hasks => by cases hasks) row
  refine ⟨fun text htext hnonblank => ?_, fun hblank => ?_⟩
  · rw [hselects, PrFilter.matches, clauses_only_query htext hnonblank, List.all_cons,
      List.all_nil, Bool.and_true, Clause.holds_query]
  · rw [hselects, PrFilter.matches, clauses_only_query_blank hblank, List.all_nil]

end RawStore

end Dependaboard
