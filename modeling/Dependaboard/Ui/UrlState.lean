import Mathlib.Data.List.Nodup
import Dependaboard.Core.Dashboard
import Dependaboard.Text.Urlencoded
/-!
# Ui — the state an address names

The filter in force, the page, the open pull request and the batch followed
are the dashboard's state as an address carries it. A value the dashboard
could not have set is dropped where an address is read, so a stale or
hand-edited one still opens it; `url_round_trip` is that what is left settles
at once, and that every state the dashboard's controls can build comes back
from its own address.
-/

namespace Dependaboard

namespace Ui

/-- The part of the dashboard's state that an address carries. -/
structure UrlState where
  filter : PrFilter
  cursor : Option String
  pr : Option PrKey
  /-- The batch the dashboard follows. -/
  batch : Option String
  deriving DecidableEq, Repr

instance : Inhabited UrlState := ⟨⟨default, none, none, none⟩⟩

/-- How a state goes into the browser history. -/
inductive HistoryMove where
  /-- The browser is at its address. -/
  | stay
  /-- It takes the current entry's place. -/
  | replace
  /-- It is an entry of its own, the current one behind it. -/
  | push
  deriving DecidableEq, Repr

/-- How the parts of an address are read and written. -/
structure Readers where
  forms : FormUrlencoded
  cursors : CursorCodec
  validBatchId : String → Bool

/-- Add a value unless it is absent or there. -/
def pushUnique {α : Type} [DecidableEq α] (values : List α) : Option α → List α
  | none => values
  | some value => if value ∈ values then values else values ++ [value]

/-- A value that is not empty. -/
def nonempty (value : String) : Option String := if value = "" then none else some value

/-- A value that is not blank, with the space around it. -/
def notBlank (value : String) : Option String := if trim value = "" then none else some value

/-- What stands between the first `?` and the fragment. -/
def queryOf (route : String) : String :=
  let beforeFragment := match splitOnce '#' route.toList with
    | none => route.toList
    | some (before, _) => before
  match splitOnce '?' beforeFragment with
  | none => ""
  | some (_, query) => String.ofList query

namespace UrlState

section

variable (readers : Readers)

/-- One parameter of an address, taken in. -/
def read (state : UrlState) (param : String × String) : UrlState :=
  let value := param.2
  match param.1 with
  | "view" => { state with filter.needsAttention := value = "attention" }
  | "q" => { state with filter.query := notBlank value }
  | "repo" => { state with filter.repos := pushUnique state.filter.repos (nonempty value) }
  | "type" =>
    { state with
      filter.updateTypes := pushUnique state.filter.updateTypes (UpdateType.fromStr value) }
  | "check" =>
    { state with
      filter.checkStatuses := pushUnique state.filter.checkStatuses (CheckStatus.fromStr value) }
  | "label" => { state with filter.labels := pushUnique state.filter.labels (nonempty value) }
  | "dep" => { state with filter.dependency := notBlank value }
  | "after" =>
    { state with cursor := if (readers.cursors.decode value).isSome then some value else none }
  | "pr" => { state with pr := (PrKey.parse value).toOption }
  | "batch" => { state with batch := if readers.validBatchId value then some value else none }
  | _ => state

/-- **The state a route names.** What the dashboard could not have set is
dropped, so that a stale or hand-edited link still opens it. -/
def fromRoute (route : String) : UrlState :=
  (readers.forms.parse (queryOf route)).foldl (read readers) default

/-- What is off its default, as parameters in their order. -/
def params (state : UrlState) : List (String × String) :=
  (if state.filter.needsAttention then [("view", "attention")] else [])
    ++ state.filter.query.toList.map (fun text => ("q", text))
    ++ state.filter.repos.map (fun repo => ("repo", repo))
    ++ state.filter.updateTypes.map (fun updateType => ("type", toString updateType))
    ++ state.filter.checkStatuses.map (fun status => ("check", toString status))
    ++ state.filter.labels.map (fun label => ("label", label))
    ++ state.filter.dependency.toList.map (fun dependency => ("dep", dependency))
    ++ state.cursor.toList.map (fun cursor => ("after", cursor))
    ++ state.pr.toList.map (fun pr => ("pr", toString pr))
    ++ state.batch.toList.map (fun batch => ("batch", batch))

/-- **The route of a state**: `/`, with a query where anything is off its
default. -/
def toRoute (state : UrlState) : String :=
  let query := readers.forms.serialize state.params
  if query = "" then "/" else "/?" ++ query

/-- The state refines the search text of `previous`, and changes nothing
else. -/
def refinesSearchOf (state previous : UrlState) : Bool :=
  state.filter.query.isSome && previous.filter.query.isSome &&
    { state with filter.query := previous.filter.query } = previous

/-- The state shows what `other` does, whatever batch each follows. -/
def sameViewAs (state other : UrlState) : Bool := { state with batch := other.batch } = other

/-- What reaching the state does to the browser history, from the address it is
at, `gaveUp` where the drawer could not read its pull request. -/
def historyMove (state : UrlState) (currentRoute : String) (gaveUp : Bool) : HistoryMove :=
  let previous := fromRoute readers currentRoute
  if state = previous then
    if state.toRoute readers = currentRoute then .stay else .replace
  else if gaveUp || state.refinesSearchOf previous || state.sameViewAs previous then .replace
  else .push

/-! ## What the controls build -/

/-- **A state the dashboard's controls can build.** -/
structure Built (state : UrlState) : Prop where
  query : ∀ text, state.filter.query = some text → trim text ≠ ""
  repos : state.filter.repos.Nodup ∧ ∀ repo ∈ state.filter.repos, repo ≠ ""
  updateTypes : state.filter.updateTypes.Nodup
  checkStatuses : state.filter.checkStatuses.Nodup
  labels : state.filter.labels.Nodup ∧ ∀ label ∈ state.filter.labels, label ≠ ""
  dependency : ∀ text, state.filter.dependency = some text → trim text ≠ ""
  cursor : ∀ cursor, state.cursor = some cursor → (readers.cursors.decode cursor).isSome
  pr : ∀ pr, state.pr = some pr → pr.Valid
  batch : ∀ batch, state.batch = some batch → readers.validBatchId batch

/-! ## Reading what was written -/

variable {readers}

/-- **What a query is of is what it was written from.** -/
theorem parse_queryOf_toRoute (state : UrlState) :
    readers.forms.parse (queryOf (state.toRoute readers)) = state.params := by
  have hpairs := readers.forms.parse_serialize state.params
  have hhash := readers.forms.hash_notMem state.params
  unfold toRoute
  generalize readers.forms.serialize state.params = query at hpairs hhash
  by_cases hempty : query = ""
  · rw [← hpairs, hempty]
    rfl
  · have hroute : ("/?" ++ query).toList = '/' :: '?' :: query.toList := by simp
    have hnone : '#' ∉ '/' :: '?' :: query.toList := by simpa using hhash
    have hquery : queryOf ("/?" ++ query) = query := by
      rw [queryOf, hroute, splitOnce_eq_none hnone]
      simp [splitOnce]
    simp only [if_neg hempty, hquery, hpairs]

theorem pushUnique_some {α : Type} [DecidableEq α] (values : List α) (value : α) :
    pushUnique values (some value) = if value ∈ values then values else values ++ [value] := rfl

/-- A parameter repeated for each value is read as the values, none of them
twice. -/
theorem foldl_read_values {α : Type} [DecidableEq α] {name : String} {toText : α → String}
    (set : List α → UrlState) {values : List α} (hnodup : values.Nodup)
    (hread : ∀ value ∈ values, ∀ before,
      read readers (set before) (name, toText value) = set (pushUnique before (some value))) :
    (values.map fun value => (name, toText value)).foldl (read readers) (set []) = set values := by
  have hfrom (before rest : List α) (hsub : ∀ value ∈ rest, value ∈ values)
      (hnodup : (before ++ rest).Nodup) :
      (rest.map fun value => (name, toText value)).foldl (read readers) (set before)
        = set (before ++ rest) := by
    induction rest generalizing before with
    | nil => rw [List.append_nil]; rfl
    | cons value rest ih =>
      have hnew : value ∉ before := fun hmem =>
        (List.nodup_append.1 hnodup).2.2 value hmem value List.mem_cons_self rfl
      rw [List.map_cons, List.foldl_cons, hread value (hsub value List.mem_cons_self),
        pushUnique_some, if_neg hnew, ih (before ++ [value])
          (fun v hv => hsub v (List.mem_cons_of_mem _ hv)) (by simpa using hnodup)]
      simp
  exact hfrom [] values (fun _ => id) hnodup

/-- A parameter given once, or not at all, is read as it was. -/
theorem foldl_read_option {α : Type} {name : String} {toText : α → String}
    (set : Option α → UrlState) {value : Option α}
    (hread : ∀ v, value = some v → read readers (set none) (name, toText v) = set (some v)) :
    (value.toList.map fun v => (name, toText v)).foldl (read readers) (set none) = set value := by
  cases value with
  | none => rfl
  | some v => exact hread v rfl

theorem foldl_append_of {α β : Type} {f : β → α → β} {xs ys : List α} {a b c : β}
    (hx : xs.foldl f a = b) (hy : ys.foldl f b = c) : (xs ++ ys).foldl f a = c := by
  rw [List.foldl_append, hx, hy]

/-- **A state is read as it was written**, one parameter after another. -/
theorem Built.foldl_params {state : UrlState} (h : state.Built readers) :
    state.params.foldl (read readers) default = state := by
  obtain ⟨⟨query, repos, updateTypes, checkStatuses, labels, dependency, attention⟩, cursor, pr,
    batch⟩ := state
  have hview : (if attention = true then [("view", "attention")] else []).foldl (read readers)
      default = ⟨⟨none, [], [], [], [], none, attention⟩, none, none, none⟩ := by
    cases attention <;> rfl
  -- each field's parameters are read in turn into what the fields before it have left
  refine foldl_append_of (foldl_append_of (foldl_append_of (foldl_append_of (foldl_append_of
    (foldl_append_of (foldl_append_of (foldl_append_of (foldl_append_of hview
      (foldl_read_option (fun query => ⟨⟨query, [], [], [], [], none, attention⟩, none, none, none⟩)
        ?query))
      (foldl_read_values (fun repos => ⟨⟨query, repos, [], [], [], none, attention⟩, none, none,
        none⟩) h.repos.1 ?repos))
      (foldl_read_values (fun updateTypes => ⟨⟨query, repos, updateTypes, [], [], none, attention⟩,
        none, none, none⟩) h.updateTypes ?updateTypes))
      (foldl_read_values (fun checkStatuses => ⟨⟨query, repos, updateTypes, checkStatuses, [], none,
        attention⟩, none, none, none⟩) h.checkStatuses ?checkStatuses))
      (foldl_read_values (fun labels => ⟨⟨query, repos, updateTypes, checkStatuses, labels, none,
        attention⟩, none, none, none⟩) h.labels.1 ?labels))
      (foldl_read_option (fun dependency => ⟨⟨query, repos, updateTypes, checkStatuses, labels,
        dependency, attention⟩, none, none, none⟩) ?dependency))
      (foldl_read_option (fun cursor => ⟨⟨query, repos, updateTypes, checkStatuses, labels,
        dependency, attention⟩, cursor, none, none⟩) ?cursor))
      (foldl_read_option (fun pr => ⟨⟨query, repos, updateTypes, checkStatuses, labels,
        dependency, attention⟩, cursor, pr, none⟩) ?pr))
      (foldl_read_option (fun batch => ⟨⟨query, repos, updateTypes, checkStatuses, labels,
        dependency, attention⟩, cursor, pr, batch⟩) ?batch)
  case query => exact fun text htext => by simp [read, notBlank, h.query text htext]
  case repos => exact fun repo hrepo before => by simp [read, nonempty, h.repos.2 repo hrepo]
  case updateTypes => exact fun updateType _ before => by simp [read]
  case checkStatuses => exact fun status _ before => by simp [read]
  case labels => exact fun label hlabel before => by simp [read, nonempty, h.labels.2 label hlabel]
  case dependency => exact fun text htext => by simp [read, notBlank, h.dependency text htext]
  case cursor => exact fun cursor hcursor => by simp [read, h.cursor cursor hcursor]
  case pr => exact fun pr hpr => by simp [read, PrKey.parse_toString (h.pr pr hpr), Except.toOption]
  case batch => exact fun batch hbatch => by simp [read, h.batch batch hbatch]

/-- **A built state comes back from its own address.** -/
theorem Built.fromRoute_toRoute {state : UrlState} (h : state.Built readers) :
    fromRoute readers (state.toRoute readers) = state := by
  rw [fromRoute, parse_queryOf_toRoute, h.foldl_params]

/-! ## What is read is built -/

theorem nodup_pushUnique {α : Type} [DecidableEq α] {values : List α} (h : values.Nodup)
    (value : Option α) : (pushUnique values value).Nodup := by
  cases value with
  | none => exact h
  | some value =>
    rw [pushUnique_some]
    split
    · exact h
    · next hnew =>
      rw [List.nodup_append_comm]
      exact List.nodup_cons.2 ⟨hnew, h⟩

theorem mem_pushUnique {α : Type} [DecidableEq α] {values : List α} {value : Option α} {v : α}
    (h : v ∈ pushUnique values value) : v ∈ values ∨ value = some v := by
  cases value with
  | none => exact .inl h
  | some value =>
    rw [pushUnique_some] at h
    split at h
    · exact .inl h
    · exact (List.mem_append.1 h).imp_right fun hv => by rw [List.mem_singleton.1 hv]

theorem ne_of_nonempty {value text : String} (h : nonempty value = some text) : text ≠ "" := by
  unfold nonempty at h
  split at h
  · cases h
  · next hne => exact Option.some.inj h ▸ hne

theorem trim_of_notBlank {value text : String} (h : notBlank value = some text) :
    trim text ≠ "" := by
  unfold notBlank at h
  split at h
  · cases h
  · next hne => exact Option.some.inj h ▸ hne

/-- A facet of texts stays one, whatever is added to it. -/
theorem texts_pushUnique {values : List String}
    (h : values.Nodup ∧ ∀ value ∈ values, value ≠ "") (value : String) :
    (pushUnique values (nonempty value)).Nodup ∧
      ∀ v ∈ pushUnique values (nonempty value), v ≠ "" :=
  ⟨nodup_pushUnique h.1 _, fun v hv => (mem_pushUnique hv).elim (h.2 v) ne_of_nonempty⟩

theorem built_default : (default : UrlState).Built readers :=
  ⟨nofun, ⟨.nil, nofun⟩, .nil, .nil, ⟨.nil, nofun⟩, nofun, nofun, nofun, nofun⟩

/-- **One parameter taken in leaves a state built.** -/
theorem Built.read {state : UrlState} (h : state.Built readers) (param : String × String) :
    (state.read readers param).Built readers := by
  unfold UrlState.read
  dsimp only
  split
  · exact { h with }
  · refine { h with query := fun text htext => ?_ }
    dsimp only at htext
    exact trim_of_notBlank htext
  · exact { h with repos := texts_pushUnique h.repos _ }
  · exact { h with updateTypes := nodup_pushUnique h.updateTypes _ }
  · exact { h with checkStatuses := nodup_pushUnique h.checkStatuses _ }
  · exact { h with labels := texts_pushUnique h.labels _ }
  · refine { h with dependency := fun text htext => ?_ }
    dsimp only at htext
    exact trim_of_notBlank htext
  · refine { h with cursor := fun cursor hcursor => ?_ }
    dsimp only at hcursor
    split at hcursor
    · next hdecodes => exact Option.some.inj hcursor ▸ hdecodes
    · cases hcursor
  · refine { h with pr := fun pr hpr => ?_ }
    dsimp only at hpr
    cases hparse : PrKey.parse param.2 with
    | error cause => rw [hparse] at hpr; cases hpr
    | ok key =>
      rw [hparse] at hpr
      exact Option.some.inj hpr ▸ PrKey.valid_of_parse hparse
  · refine { h with batch := fun batch hbatch => ?_ }
    dsimp only at hbatch
    split at hbatch
    · next hvalid => exact Option.some.inj hbatch ▸ hvalid
    · cases hbatch
  · exact h

/-- **What an address names, the controls can build.** -/
theorem built_fromRoute (route : String) : (fromRoute readers route).Built readers := by
  unfold fromRoute
  generalize readers.forms.parse (queryOf route) = params
  have hfrom (state : UrlState) (h : state.Built readers) :
      (params.foldl (read readers) state).Built readers := by
    induction params generalizing state with
    | nil => exact h
    | cons param params ih => exact ih _ (h.read param)
  exact hfrom default built_default

variable (readers)

/-- **A state survives its address.** -/
structure RoundTrips : Prop where
  /-- An address settles at once, whatever it is. -/
  settles : ∀ route,
    fromRoute readers ((fromRoute readers route).toRoute readers) = fromRoute readers route
  /-- Every state the controls can build comes back. -/
  survives : ∀ state : UrlState, state.Built readers →
    fromRoute readers (state.toRoute readers) = state

/-- **Dashboard state survives its address.** -/
theorem url_round_trip : RoundTrips readers where
  settles route := (built_fromRoute route).fromRoute_toRoute
  survives _ h := h.fromRoute_toRoute

end

end UrlState

end Ui

end Dependaboard
