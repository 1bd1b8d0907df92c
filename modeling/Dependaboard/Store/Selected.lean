import Dependaboard.Store.Reader
/-!
# Store — what a clause selects

A clause is written with the places of its values and run with the values at
them. `Binds` says what a piece of the writing gives, whatever is bound before
it and after it; `new_ok` is that a filter's clause, once run, is the
conjunction of what its fields ask for, its cursor and its installation, each
of its own value.
-/

namespace Dependaboard

/-! ## What a filter asks for -/

/-- What each field of a filter asks of a row. -/
def PrFilter.clauses (filter : PrFilter) (now : ℕ) : List BoundClause :=
  ((nonblank filter.query).toList.map fun query =>
      .query ("%" ++ escapeLike (asciiLowercase (trim query)) ++ "%"))
    ++ (if filter.repos = [] then [] else [.repos filter.repos])
    ++ (if filter.updateTypes = [] then [] else [.updateTypes (filter.updateTypes.map toString)])
    ++ (if filter.checkStatuses = [] then []
      else [.checkStatuses (filter.checkStatuses.map toString)])
    ++ filter.labels.map .hasLabel
    ++ ((nonblank filter.dependency).toList.map fun dependency => .dependency (trim dependency))
    ++ (if filter.needsAttention then
        [.needsAttention ["failure", "none"] ["dirty"] "major" (now - staleAfter)]
      else [])

/-- The row is one the filter matches. -/
def PrFilter.matches (filter : PrFilter) (store : Store) (now : ℕ) (row : PrRecord) : Bool :=
  (filter.clauses now).all (Clause.holds store row)

/-- The row comes after the cursor, where there is one. -/
def PrRecord.follows (row : PrRecord) (cursor : Option PageCursor) : Bool :=
  cursor.all fun cursor =>
    row.updatedAt < cursor.updatedAt ∨
      row.updatedAt = cursor.updatedAt ∧ row.id.toList < cursor.id.toList

/-- The row's repository is the installation's. -/
def Store.owns (store : Store) (installationId : ℕ) (row : PrRecord) : Bool :=
  store.repositories.rows.any fun repo =>
    repo.repositoryId = row.repositoryId ∧ repo.installationId = installationId

/-! ## Binding -/

/-- **What a piece of a clause's writing gives**: where its integers fit, the
values bound so far with more behind them, of which `gives` holds whatever is
bound next; where one does not, a refusal. -/
structure Binds {α : Type} (m : Binding α) (fits : Prop) (gives : List SqlValue → α → Prop) :
    Prop where
  ok : fits → ∀ params, ∃ a added, m params = .ok (a, params ++ added) ∧
    ∀ more, gives (params ++ added ++ more) a
  error : ¬ fits → ∀ params, m params = .error .integerOverflow

namespace Binds

variable {α β : Type} {m : Binding α} {f : α → Binding β} {fits fits' : Prop}
  {gives gives' : List SqlValue → α → Prop} {then_ : α → List SqlValue → β → Prop}

theorem pure (a : α) : Binds (pure a : Binding α) True fun _ b => b = a where
  ok _ params := ⟨a, [], by rw [List.append_nil]; rfl, fun _ => rfl⟩
  error h := absurd trivial h

theorem mono (h : Binds m fits gives) (hfits : fits' ↔ fits)
    (hgives : ∀ params a, gives params a → gives' params a) : Binds m fits' gives' where
  ok hok params := by
    obtain ⟨a, added, hrun, hall⟩ := h.ok (hfits.1 hok) params
    exact ⟨a, added, hrun, fun more => hgives _ _ (hall more)⟩
  error hno params := h.error (fun hok => hno (hfits.2 hok)) params

/-- **Writing one piece after another.** -/
theorem bind (h : Binds m fits gives) (hf : ∀ a, Binds (f a) fits' (then_ a)) :
    Binds (m >>= f) (fits ∧ fits') fun params b => ∃ a, gives params a ∧ then_ a params b where
  ok hok params := by
    obtain ⟨a, added, hrun, hall⟩ := h.ok hok.1 params
    obtain ⟨b, added', hrun', hall'⟩ := (hf a).ok hok.2 (params ++ added)
    refine ⟨b, added ++ added', ?_, fun more => ⟨a, ?_, ?_⟩⟩
    · show (m params >>= fun step => f step.1 step.2) = _
      rw [hrun, ← List.append_assoc]
      exact hrun'
    · have := hall (added' ++ more)
      rwa [← List.append_assoc, List.append_assoc params] at this
    · have := hall' more
      rwa [List.append_assoc params] at this
  error hno params := by
    show (m params >>= fun step => f step.1 step.2) = _
    by_cases hfits : fits
    · obtain ⟨a, added, hrun, -⟩ := h.ok hfits params
      rw [hrun]
      exact (hf a).error (fun hok => hno ⟨hfits, hok⟩) _
    · rw [h.error hfits]
      rfl

/-- A text bound is the text at its place. -/
theorem text (value : String) :
    Binds (bindText value) True fun params place => textAt params place = some value where
  ok _ params := ⟨params.length + 1, [.text value], rfl, fun more => by
    rw [textAt, Nat.add_sub_cancel, List.append_assoc, List.getElem?_append_right (Nat.le_refl _)]
    simp⟩
  error h := absurd trivial h

/-- An integer bound is the integer at its place, where it fits. -/
theorem integer (value : ℕ) : Binds (bindInteger value) (value < i64Size)
    fun params place => integerAt params place = some value where
  ok h params := by
    refine ⟨params.length + 1, [.integer value], ?_, fun more => ?_⟩
    · show (liftM (Dependaboard.integer value) >>= fun value => bindValue (.integer value)) params
        = _
      rw [integer_of_lt h]
      rfl
    · rw [integerAt, Nat.add_sub_cancel, List.append_assoc,
        List.getElem?_append_right (Nat.le_refl _)]
      simp
  error h params := by
    show (liftM (Dependaboard.integer value) >>= fun value => bindValue (.integer value)) params
      = _
    rw [Dependaboard.integer, if_neg h]
    rfl

/-- Pieces written in turn give what each gives. -/
theorem mapM {γ : Type} {g : γ → Binding β} {gives : γ → List SqlValue → β → Prop}
    (h : ∀ x, Binds (g x) True (gives x)) (xs : List γ) : Binds (xs.mapM g) True
      fun params bs => List.Forall₂ (fun x b => gives x params b) xs bs := by
  induction xs with
  | nil => exact (pure []).mono Iff.rfl fun _ _ h => h ▸ .nil
  | cons x rest ih =>
    rw [List.mapM_cons]
    refine ((h x).bind fun b => ih.bind fun bs => pure (b :: bs)).mono (by simp) ?_
    rintro params _ ⟨b, hb, bs, hbs, rfl⟩
    exact .cons hb hbs

end Binds

/-! ## The clause of a filter -/

/-- A piece of a clause's writing that comes, once run, to these clauses. -/
abbrev Writes (m : Binding (List WrittenClause)) (fits : Prop) (clauses : List BoundClause) :
    Prop :=
  Binds m fits fun params written => written.mapM (Clause.resolve params) = some clauses

/-- Texts bound in turn are the texts at their places. -/
theorem texts_resolve {γ : Type} {params : List SqlValue} {text : γ → String} {xs : List γ}
    {places : List ℕ} (h : List.Forall₂ (fun x place => textAt params place = some (text x)) xs
      places) : places.mapM (textAt params) = some (xs.map text) := by
  induction h with
  | nil => rfl
  | cons hplace _ ih => rw [List.mapM_cons, hplace, ih]; rfl

theorem writes_textClause {clause : ℕ → WrittenClause} {bound : String → BoundClause}
    (hresolve : ∀ params place, (clause place).resolve params
      = do return bound (← textAt params place)) (value : Option String) :
    Writes (textClause clause value) True (value.toList.map bound) := by
  cases value with
  | none => exact (Binds.pure []).mono Iff.rfl fun _ _ h => h ▸ rfl
  | some value =>
    refine ((Binds.text value).bind fun place => Binds.pure [clause place]).mono (by simp) ?_
    rintro params _ ⟨place, hplace, rfl⟩
    rw [List.mapM_cons, hresolve, hplace]
    rfl

theorem writes_textsClause {clause : List ℕ → WrittenClause} {bound : List String → BoundClause}
    (hresolve : ∀ params places, (clause places).resolve params
      = do return bound (← places.mapM (textAt params))) (values : List String) :
    Writes (textsClause clause values) True (if values = [] then [] else [bound values]) := by
  unfold textsClause
  split
  · exact (Binds.pure []).mono Iff.rfl fun _ _ h => h ▸ rfl
  · refine ((Binds.mapM Binds.text values).bind fun places =>
      Binds.pure [clause places]).mono (by simp) ?_
    rintro params _ ⟨places, hplaces, rfl⟩
    have hvalues : places.mapM (textAt params) = some (values.map fun value => value) :=
      texts_resolve hplaces
    rw [List.map_id'] at hvalues
    rw [List.mapM_cons, hresolve, hvalues]
    rfl

theorem writes_labelClauses (labels : List String) :
    Writes (labelClauses labels) True (labels.map .hasLabel) := by
  have hlabel (label : String) : Binds (do return .hasLabel (← bindText label)) True
      fun params (written : WrittenClause) =>
        ∃ place, textAt params place = some label ∧ written = .hasLabel place := by
    have hboth := (Binds.text label).bind fun place =>
      Binds.pure (Clause.hasLabel place : WrittenClause)
    exact hboth.mono (by simp) fun _ _ h => h
  refine (Binds.mapM hlabel labels).mono (by simp) ?_
  intro params written hwritten
  induction hwritten with
  | nil => rfl
  | cons hclause _ ih =>
    obtain ⟨place, hplace, rfl⟩ := hclause
    rw [List.mapM_cons, Clause.resolve, hplace, ih]
    rfl

theorem writes_attentionClause (needsAttention : Bool) (now : ℕ) :
    Writes (attentionClause needsAttention now) (needsAttention → now - staleAfter < i64Size)
      (if needsAttention then
        [.needsAttention ["failure", "none"] ["dirty"] "major" (now - staleAfter)]
      else []) := by
  cases needsAttention with
  | false =>
    have hnone : attentionClause false now = pure [] := rfl
    rw [hnone]
    exact (Binds.pure []).mono (by simp) fun _ _ h => h ▸ rfl
  | true =>
    have hall := (Binds.mapM (fun status : CheckStatus => Binds.text (toString status))
        [.failure, .none]).bind fun failing =>
      (Binds.mapM (fun state : Mergeable => Binds.text (toString state))
        (Mergeable.all.filter Mergeable.isConflicting)).bind fun conflicting =>
      (Binds.text (toString UpdateType.major)).bind fun major =>
      (Binds.integer (now - staleAfter)).bind fun staleBefore =>
      Binds.pure [(Clause.needsAttention failing conflicting major staleBefore : WrittenClause)]
    refine Binds.mono (m := attentionClause true now) hall (by simp) ?_
    rintro params _ ⟨failing, hfailing, conflicting, hconflicting, major, hmajor, stale, hstale,
      rfl⟩
    rw [List.mapM_cons, Clause.resolve, texts_resolve hfailing, texts_resolve hconflicting, hmajor,
      hstale]
    rfl

theorem writes_cursorClause (cursor : Option PageCursor) :
    Writes (cursorClause cursor) (∀ c ∈ cursor, c.updatedAt < i64Size)
      (cursor.toList.map fun cursor => Clause.after cursor.updatedAt cursor.id) := by
  cases cursor with
  | none => exact (Binds.pure []).mono (by simp) fun _ _ h => h ▸ rfl
  | some cursor =>
    have hboth := (Binds.integer cursor.updatedAt).bind fun updatedAt =>
      (Binds.text cursor.id).bind fun id => Binds.pure [(Clause.after updatedAt id : WrittenClause)]
    refine hboth.mono (by simp) ?_
    rintro params _ ⟨updatedAt, hupdatedAt, id, hid, rfl⟩
    rw [List.mapM_cons, Clause.resolve, hupdatedAt, hid]
    rfl

/-- The clauses of one piece after another. -/
theorem mapM_resolve_append {params : List SqlValue} {written written' : List WrittenClause}
    {clauses clauses' : List BoundClause}
    (h : written.mapM (Clause.resolve params) = some clauses)
    (h' : written'.mapM (Clause.resolve params) = some clauses') :
    (written ++ written').mapM (Clause.resolve params) = some (clauses ++ clauses') := by
  rw [List.mapM_append, h, h']
  rfl

/-- **What a filter's clause comes to**: what each of its fields asks for, of
its own value, and what its cursor does. -/
theorem writes_filterSql (filter : PrFilter) (cursor : Option PageCursor) (now : ℕ) :
    Writes (filterSql filter cursor now)
      ((filter.needsAttention → now - staleAfter < i64Size) ∧
        ∀ c ∈ cursor, c.updatedAt < i64Size)
      (filter.clauses now
        ++ cursor.toList.map fun cursor => Clause.after cursor.updatedAt cursor.id) := by
  have hquery (value : Option String) :
      Writes (textClause .query value) True (value.toList.map .query) :=
    writes_textClause (fun _ _ => rfl) value
  have hrepos (values : List String) : Writes (textsClause .repos values) True
      (if values = [] then [] else [.repos values]) :=
    writes_textsClause (fun _ _ => rfl) values
  have htypes (values : List String) : Writes (textsClause .updateTypes values) True
      (if values = [] then [] else [.updateTypes values]) :=
    writes_textsClause (fun _ _ => rfl) values
  have hchecks (values : List String) : Writes (textsClause .checkStatuses values) True
      (if values = [] then [] else [.checkStatuses values]) :=
    writes_textsClause (fun _ _ => rfl) values
  have hdependency (value : Option String) :
      Writes (textClause .dependency value) True (value.toList.map .dependency) :=
    writes_textClause (fun _ _ => rfl) value
  -- each clause writes its own values behind those written before it
  have hall := (hquery ((nonblank filter.query).map fun query =>
      "%" ++ escapeLike (asciiLowercase (trim query)) ++ "%")).bind fun query =>
    (hrepos filter.repos).bind fun repos =>
    (htypes (filter.updateTypes.map toString)).bind fun updateTypes =>
    (hchecks (filter.checkStatuses.map toString)).bind fun checkStatuses =>
    (writes_labelClauses filter.labels).bind fun labels =>
    (hdependency ((nonblank filter.dependency).map trim)).bind fun dependency =>
    (writes_attentionClause filter.needsAttention now).bind fun needsAttention =>
    (writes_cursorClause cursor).bind fun after =>
    Binds.pure (query ++ repos ++ updateTypes ++ checkStatuses ++ labels ++ dependency
      ++ needsAttention ++ after)
  refine Binds.mono (m := filterSql filter cursor now) hall (by simp) ?_
  rintro params _ ⟨query, h₁, repos, h₂, updateTypes, h₃, checkStatuses, h₄, labels, h₅,
    dependency, h₆, attention, h₇, after, h₈, rfl⟩
  have hwritten := mapM_resolve_append (mapM_resolve_append (mapM_resolve_append
    (mapM_resolve_append (mapM_resolve_append (mapM_resolve_append (mapM_resolve_append h₁ h₂) h₃)
      h₄) h₅) h₆) h₇) h₈
  rw [hwritten, PrFilter.clauses]
  simp only [Option.toList_map, List.map_map, List.map_eq_nil_iff]
  rfl

/-! ## The rows a clause selects -/

namespace ScopedFilter

variable {filter : PrFilter} {cursor : Option PageCursor} {now installationId : ℕ}

/-- The integers a clause binds are SQLite's. -/
structure Fits (filter : PrFilter) (cursor : Option PageCursor) (now installationId : ℕ) : Prop where
  attention : filter.needsAttention → now - staleAfter < i64Size
  cursor : ∀ c ∈ cursor, c.updatedAt < i64Size
  installation : installationId < i64Size

/-- The rows of a filter, after a cursor, of an installation. -/
def meaning (filter : PrFilter) (cursor : Option PageCursor) (now installationId : ℕ)
    (store : Store) (row : PrRecord) : Bool :=
  filter.matches store now row && row.follows cursor && store.owns installationId row

/-- What the filter's fields ask for, its cursor and its installation. -/
def clauses (filter : PrFilter) (cursor : Option PageCursor) (now installationId : ℕ) :
    List BoundClause :=
  filter.clauses now ++ cursor.toList.map (fun cursor => .after cursor.updatedAt cursor.id)
    ++ [.installation installationId]

/-- A clause run with parameters it comes to something with selects what that
holds of. -/
theorem selects_of_resolve {scope : ScopedFilter} {clauses : List BoundClause}
    (h : scope.whereSql.mapM (Clause.resolve scope.params) = some clauses) (store : Store)
    (row : PrRecord) : scope.selects store row = clauses.all (Clause.holds store row) := by
  obtain ⟨written, params⟩ := scope
  unfold selects
  simp only at h ⊢
  induction written generalizing clauses with
  | nil =>
    obtain rfl := Option.some.inj h
    rfl
  | cons clause rest ih =>
    rw [List.mapM_cons] at h
    obtain ⟨first, hfirst, h⟩ := Option.bind_eq_some_iff.1 h
    obtain ⟨others, hothers, h⟩ := Option.bind_eq_some_iff.1 h
    obtain rfl := Option.some.inj h
    rw [List.all_cons, List.all_cons, ih hothers, hfirst]
    rfl

theorem all_after (cursor : Option PageCursor) (store : Store) (row : PrRecord) :
    (cursor.toList.map fun cursor => (.after cursor.updatedAt cursor.id : BoundClause)).all
      (Clause.holds store row) = row.follows cursor := by
  cases cursor with
  | none => rfl
  | some cursor => simp [Clause.holds, PrRecord.follows]

/-- A scoped filter is written as its pieces are, one after the other. -/
theorem new_eq : new filter cursor now installationId
    = ((filterSql filter cursor now >>= fun clauses => bindInteger installationId >>= fun place =>
        pure (clauses ++ [(.installation place : WrittenClause)])) []).map
      fun written => ⟨written.1, written.2⟩ := by
  show (filterSql filter cursor now [] >>= _) = Except.map _ (filterSql filter cursor now [] >>= _)
  cases filterSql filter cursor now [] with
  | error error => rfl
  | ok written =>
    show (bindInteger installationId written.2 >>= _)
      = Except.map _ (bindInteger installationId written.2 >>= _)
    cases bindInteger installationId written.2 <;> rfl

/-- **A scoped filter comes to what its fields, its cursor and its installation
ask for**, whatever its statement binds next. -/
theorem new_resolves (h : Fits filter cursor now installationId) :
    ∃ scope, new filter cursor now installationId = .ok scope ∧ ∀ more,
      scope.whereSql.mapM (Clause.resolve (scope.params ++ more))
        = some (clauses filter cursor now installationId) := by
  have hclause := (writes_filterSql filter cursor now).bind fun clauses =>
    (Binds.integer installationId).bind fun installation =>
      Binds.pure (clauses ++ [(.installation installation : WrittenClause)])
  obtain ⟨written, params, hrun, hall⟩ :=
    hclause.ok ⟨⟨h.attention, h.cursor⟩, h.installation, trivial⟩ []
  refine ⟨⟨written, params⟩, ?_, fun more => ?_⟩
  · rw [new_eq, hrun]
    rfl
  · obtain ⟨clauses, hclauses, installation, hinstallation, rfl⟩ := hall more
    have hscope : ([(.installation installation : WrittenClause)]).mapM
        (Clause.resolve (params ++ more)) = some [.installation installationId] := by
      rw [List.nil_append] at hinstallation
      rw [List.mapM_cons, Clause.resolve, hinstallation]
      rfl
    rw [List.nil_append] at hclauses
    exact mapM_resolve_append hclauses hscope

/-- What the clauses of a scoped filter hold of. -/
theorem all_clauses (store : Store) (row : PrRecord) :
    (clauses filter cursor now installationId).all (Clause.holds store row)
      = meaning filter cursor now installationId store row := by
  rw [clauses, List.all_append, List.all_append, all_after]
  simp [meaning, PrFilter.matches, Clause.holds, Store.owns]

/-- **A scoped filter selects the rows its filter matches, after its cursor,
of its installation**, whatever its statement binds next; and it is written
exactly where its integers fit. -/
theorem new_ok (h : Fits filter cursor now installationId) :
    ∃ scope, new filter cursor now installationId = .ok scope ∧ ∀ store more row,
      selects store { scope with params := scope.params ++ more } row
        = meaning filter cursor now installationId store row := by
  obtain ⟨scope, hscope, hresolves⟩ := new_resolves h
  refine ⟨scope, hscope, fun store more row => ?_⟩
  rw [selects_of_resolve (hresolves more), all_clauses]

theorem new_error (h : ¬ Fits filter cursor now installationId) :
    new filter cursor now installationId = .error .integerOverflow := by
  have hclause := (writes_filterSql filter cursor now).bind fun clauses =>
    (Binds.integer installationId).bind fun installation =>
      Binds.pure (clauses ++ [(.installation installation : WrittenClause)])
  have hno : ¬ (((filter.needsAttention → now - staleAfter < i64Size) ∧
      ∀ c ∈ cursor, c.updatedAt < i64Size) ∧ installationId < i64Size ∧ True) :=
    fun hfits => h ⟨hfits.1.1, hfits.1.2, hfits.2.1⟩
  rw [new_eq, hclause.error hno]
  rfl

end ScopedFilter

end Dependaboard
