import Dependaboard.Relational.Groups
import Dependaboard.Ui.Selection

/-!
# The dashboard — the tree of repositories

The sidebar groups the repositories under their owners, an owner's spellings
being one, and gives each owner a box that stands for its repositories: all of
them, or under a search the ones on show. The groups are built in one pass; the
box is pressed into the filter the groups are built from.

`accounts_for_every_repository` is what a reader of the tree relies on. Its two
halves are `kept_iff`, from `Relational.Grouping.grouped`, and `repos_pressed`,
what pressing does to the list.
-/

namespace Dependaboard.Ui

open Relational

/-! ## The code -/

/-- A box that speaks for a set: none of it selected, some, or all. -/
inductive Checkbox where
  | unchecked
  | mixed
  | checked
  deriving DecidableEq, Repr

/-- The box over `total` things of which `selected` are picked. -/
def Checkbox.of (selected total : ℕ) : Checkbox :=
  if selected = 0 then .unchecked
  else if selected = total then .checked
  else .mixed

/-- One repository of the tree. -/
structure RepoItem where
  repositoryId : ℕ
  fullName : String
  name : String
  count : ℕ
  selected : Bool
  deriving DecidableEq, Repr

/-- An owner and its repositories. -/
structure OwnerGroup where
  owner : String
  repositories : List RepoItem
  /-- What the box speaks for. -/
  scope : List String
  /-- How many of `scope` are selected. -/
  selected : ℕ
  /-- The selected ones a search hides. -/
  hiddenSelected : ℕ
  deriving DecidableEq, Repr

namespace OwnerGroup

/-- An owner before any repository of its own is added. -/
def new (owner : String) : OwnerGroup := ⟨owner, [], [], 0, 0⟩

/-- The box speaks for what is in scope, which a search narrows. -/
def checkbox (group : OwnerGroup) : Checkbox := .of group.selected group.scope.length

end OwnerGroup

/-- A repository as the filter names it. -/
def fullName (facet : RepoFacet) : String :=
  facet.repository.owner ++ "/" ++ facet.repository.repo

/-- What the tree is drawn for: the lower case of a text, the repositories the
filter has, and what was typed into the search. -/
structure TreeView where
  toLowercase : String → String
  selected : List String
  query : String

namespace TreeView

variable (view : TreeView)

/-- What is searched for; no search where it is empty. -/
def needle : String := view.toLowercase (trim view.query)

/-- A search opens every owner, so that what it finds is never folded away. -/
def searching : Bool := view.needle ≠ ""

/-- The filter names a repository by its full name. -/
def isSelected (facet : RepoFacet) : Bool := fullName facet ∈ view.selected

/-- The search is in the full name, so an owner's name finds all it has. -/
def isMatch (facet : RepoFacet) : Bool :=
  !view.searching || containsText (view.toLowercase (fullName facet)) view.needle

/-- Whether the tree shows a repository: it matches, and has pull requests or
is selected. -/
def shown (facet : RepoFacet) : Bool :=
  view.isMatch facet && (0 < facet.count || view.isSelected facet)

/-- Whether its owner's box speaks for it. -/
def inScope (facet : RepoFacet) : Bool := if view.searching then view.shown facet else true

/-- A repository as its row shows it, the owner's name left to the group. -/
def item (facet : RepoFacet) : RepoItem where
  repositoryId := facet.repository.repositoryId
  fullName := fullName facet
  name := facet.repository.repo
  count := facet.count
  selected := view.isSelected facet

/-- What a repository adds to its owner's group. -/
def add (group : OwnerGroup) (facet : RepoFacet) : OwnerGroup :=
  let group :=
    if view.inScope facet then
      { group with
        scope := group.scope ++ [fullName facet]
        selected := group.selected + (view.isSelected facet).toNat }
    else if view.isSelected facet then
      { group with hiddenSelected := group.hiddenSelected + 1 }
    else group
  if view.shown facet then
    { group with repositories := group.repositories ++ [view.item facet] }
  else group

@[simp] theorem owner_add (group : OwnerGroup) (facet : RepoFacet) :
    (view.add group facet).owner = group.owner := by
  simp only [add]
  split_ifs <;> rfl

/-- Owners are one in any case of their letters. -/
def grouping : Grouping RepoFacet String OwnerGroup where
  key facet := asciiLowercase facet.repository.owner
  groupKey group := asciiLowercase group.owner
  start facet := .new facet.repository.owner
  add := view.add
  groupKey_start _ := rfl
  groupKey_add group facet := by rw [owner_add]

/-- The tree: the groups with something to show. -/
def ownerGroups (repositories : List RepoFacet) : List OwnerGroup :=
  (view.grouping.groups repositories).filter fun group => !group.repositories.isEmpty

/-! ## What a group holds -/

/-- An owner's repositories, whatever the case it is spelled in. -/
def ownedBy (owner : String) (repositories : List RepoFacet) : List RepoFacet :=
  repositories.filter fun facet => asciiLowercase facet.repository.owner = asciiLowercase owner

/-- A group as its repositories make it. -/
def tally (owner : String) (owned : List RepoFacet) : OwnerGroup where
  owner := owner
  repositories := (owned.filter view.shown).map view.item
  scope := (owned.filter view.inScope).map fullName
  selected := owned.countP fun facet => view.inScope facet && view.isSelected facet
  hiddenSelected := owned.countP fun facet => !view.inScope facet && view.isSelected facet

theorem tally_append_singleton (owner : String) (owned : List RepoFacet) (facet : RepoFacet) :
    view.tally owner (owned ++ [facet]) = view.add (view.tally owner owned) facet := by
  simp only [tally, add, List.filter_append, List.map_append, List.countP_append]
  cases hscope : view.inScope facet <;> cases hselected : view.isSelected facet <;>
    cases hshown : view.shown facet <;> simp [hscope, hselected, hshown]

theorem foldl_add (owner : String) (owned : List RepoFacet) :
    owned.foldl view.add (.new owner) = view.tally owner owned := by
  induction owned using List.reverseRecOn with
  | nil => rfl
  | append_singleton owned facet ih =>
    rw [tally_append_singleton, List.foldl_append, ih, List.foldl_cons, List.foldl_nil]

variable {view} {repositories : List RepoFacet} {group : OwnerGroup}

theorem grouped (view : TreeView) (repositories : List RepoFacet) :
    view.grouping.Grouped repositories (view.grouping.groups repositories) :=
  Grouping.grouped repositories

/-- Every group is its owner's tally. -/
theorem eq_tally_of_mem_groups (h : group ∈ view.grouping.groups repositories) :
    group = view.tally group.owner (ownedBy group.owner repositories) := by
  obtain ⟨facet, -, hwhole⟩ := (grouped view repositories).whole group h
  have htally : group = view.tally facet.repository.owner
      (ownedBy facet.repository.owner repositories) := hwhole.trans (foldl_add view _ _)
  have howner : group.owner = facet.repository.owner := congrArg OwnerGroup.owner htally
  rw [howner]
  exact htally

/-- **A group kept is an owner's tally** with something to show. -/
theorem eq_tally (h : group ∈ view.ownerGroups repositories) :
    group = view.tally group.owner (ownedBy group.owner repositories) :=
  eq_tally_of_mem_groups (List.mem_filter.1 h).1

/-- **An owner has at most one group.** -/
theorem ownerGroups_pairwise (view : TreeView) (repositories : List RepoFacet) :
    (view.ownerGroups repositories).Pairwise fun group group' =>
      asciiLowercase group.owner ≠ asciiLowercase group'.owner :=
  (grouped view repositories).distinct.filter _

theorem mem_ownedBy {owner : String} {facet : RepoFacet} :
    facet ∈ ownedBy owner repositories ↔ facet ∈ repositories ∧
      asciiLowercase facet.repository.owner = asciiLowercase owner := by
  simp only [ownedBy, List.mem_filter, decide_eq_true_eq]

/-- The repositories a group shows are its owner's that are shown, in their order. -/
theorem map_fullName_repositories (h : group ∈ view.ownerGroups repositories) :
    group.repositories.map RepoItem.fullName
      = ((ownedBy group.owner repositories).filter view.shown).map fullName := by
  rw [eq_tally h, tally, List.map_map]
  rfl

/-- **A repository shown has its owner's group**, and is in it. -/
theorem exists_group {facet : RepoFacet} (hfacet : facet ∈ repositories)
    (hshown : view.shown facet = true) : ∃ group ∈ view.ownerGroups repositories,
      asciiLowercase facet.repository.owner = asciiLowercase group.owner ∧
        view.item facet ∈ group.repositories := by
  obtain ⟨group, hgroup, hkey⟩ := (grouped view repositories).covers facet hfacet
  have hitem : view.item facet ∈ group.repositories := by
    rw [eq_tally_of_mem_groups hgroup]
    exact List.mem_map_of_mem
      (List.mem_filter.2 ⟨mem_ownedBy.2 ⟨hfacet, hkey.symm⟩, hshown⟩)
  refine ⟨group, List.mem_filter.2 ⟨hgroup, ?_⟩, hkey.symm, hitem⟩
  rw [Bool.not_eq_true', List.isEmpty_eq_false_iff]
  exact List.ne_nil_of_mem hitem

/-- **What the tree shows**: the names it lists are those of the repositories
that are shown. -/
theorem mem_shownNames {name : String} :
    name ∈ (view.ownerGroups repositories).flatMap
        (fun group => group.repositories.map RepoItem.fullName) ↔
      ∃ facet ∈ repositories, fullName facet = name ∧ view.shown facet = true := by
  rw [List.mem_flatMap]
  constructor
  · rintro ⟨group, hgroup, hname⟩
    rw [map_fullName_repositories hgroup] at hname
    obtain ⟨facet, hfacet, rfl⟩ := List.mem_map.1 hname
    obtain ⟨howned, hshown⟩ := List.mem_filter.1 hfacet
    exact ⟨facet, (mem_ownedBy.1 howned).1, rfl, hshown⟩
  · rintro ⟨facet, hfacet, rfl, hshown⟩
    obtain ⟨group, hgroup, -, hitem⟩ := exists_group hfacet hshown
    exact ⟨group, hgroup, List.mem_map.2 ⟨_, hitem, rfl⟩⟩

/-- **No repository is shown twice.** -/
theorem shownNames_nodup (hdistinct : (repositories.map fullName).Nodup) :
    ((view.ownerGroups repositories).flatMap
      (fun group => group.repositories.map RepoItem.fullName)).Nodup := by
  refine List.nodup_flatMap.2 ⟨fun group hgroup => ?_, ?_⟩
  · rw [map_fullName_repositories hgroup]
    exact hdistinct.sublist
      ((List.filter_sublist.trans List.filter_sublist).map fullName)
  · refine List.Pairwise.imp_of_mem ?_ (ownerGroups_pairwise view repositories)
    intro group group' hgroup hgroup' hne name hname hname'
    simp only [map_fullName_repositories hgroup] at hname
    simp only [map_fullName_repositories hgroup'] at hname'
    obtain ⟨facet, hfacet, rfl⟩ := List.mem_map.1 hname
    obtain ⟨facet', hfacet', hsame⟩ := List.mem_map.1 hname'
    obtain ⟨hmem, howner⟩ := mem_ownedBy.1 (List.mem_filter.1 hfacet).1
    obtain ⟨hmem', howner'⟩ := mem_ownedBy.1 (List.mem_filter.1 hfacet').1
    have heq := List.inj_on_of_nodup_map hdistinct hmem' hmem hsame
    exact hne (howner.symm.trans (heq ▸ howner'))

/-! ## The counts -/

/-- What is selected and what a search hides of it are the owner's selected
repositories. -/
theorem selected_add_hidden (h : group ∈ view.ownerGroups repositories) :
    group.selected + group.hiddenSelected
      = (ownedBy group.owner repositories).countP view.isSelected := by
  rw [eq_tally h, tally]
  simp only
  induction ownedBy group.owner repositories with
  | nil => rfl
  | cons facet owned ih =>
    simp only [List.countP_cons]
    cases view.inScope facet <;> cases view.isSelected facet <;> simp <;> omega

theorem selected_le_scope (h : group ∈ view.ownerGroups repositories) :
    group.selected ≤ group.scope.length := by
  rw [eq_tally h, tally]
  simp only [List.length_map]
  rw [← List.countP_eq_length_filter]
  exact List.countP_mono_left fun facet _ hboth => (Bool.and_eq_true_iff.1 hboth).1

end TreeView

/-! ## The box pressed -/

/-- Have one repository in the list, or not. -/
def choose (select : Bool) (repos : List String) (repo : String) : List String :=
  if select then if repo ∈ repos then repos else repos ++ [repo]
  else repos.erase repo

theorem repos_selectRepos (s : DashboardState) (scope : List String) (select : Bool) :
    (s.selectRepos scope select).filter.repos = scope.foldl (choose select) s.filter.repos := by
  show (scope.foldl _ s.filter).repos = _
  generalize s.filter = filter
  induction scope generalizing filter with
  | nil => rfl
  | cons repo scope ih =>
    rw [List.foldl_cons, List.foldl_cons, ih]
    congr 1
    by_cases hmem : repo ∈ filter.repos <;> cases select <;>
      simp [choose, hmem, List.erase_of_not_mem]

/-- Selecting adds what is not there, at the end. -/
theorem foldl_choose_true {scope : List String} (hscope : scope.Nodup) (repos : List String) :
    scope.foldl (choose true) repos = repos ++ scope.filter (· ∉ repos) := by
  induction scope generalizing repos with
  | nil => exact (List.append_nil repos).symm
  | cons repo scope ih =>
    obtain ⟨hrepo, hscope⟩ := List.nodup_cons.1 hscope
    rw [List.foldl_cons, ih hscope, choose, if_pos rfl]
    by_cases hmem : repo ∈ repos
    · rw [if_pos hmem, List.filter_cons_of_neg (by simpa using hmem)]
    · have hlater : scope.filter (· ∉ repos ++ [repo]) = scope.filter (· ∉ repos) := by
        refine List.filter_congr fun other hother => ?_
        have hne : other ≠ repo := fun heq => hrepo (heq ▸ hother)
        simp only [List.mem_append, List.mem_singleton, hne, or_false]
      rw [if_neg hmem, List.filter_cons_of_pos (by simpa using hmem), hlater, List.append_assoc]
      rfl

/-- Deselecting takes away what is there, and the rest keeps its order. -/
theorem foldl_choose_false (scope : List String) {repos : List String} (hrepos : repos.Nodup) :
    scope.foldl (choose false) repos = repos.filter (· ∉ scope) := by
  induction scope generalizing repos with
  | nil => simp
  | cons repo scope ih =>
    have herase : choose false repos repo = repos.filter (· != repo) :=
      hrepos.erase_eq_filter repo
    rw [List.foldl_cons, herase, ih (hrepos.filter _), List.filter_filter]
    refine List.filter_congr fun other _ => ?_
    by_cases hsame : other = repo <;> simp [hsame]

/-- The press of a group's box: select its scope, unless all of it is. -/
def press (s : DashboardState) (group : OwnerGroup) : DashboardState :=
  s.selectRepos group.scope (group.checkbox ≠ .checked)

namespace TreeView

variable {view : TreeView} {repositories : List RepoFacet} {group group' : OwnerGroup}

theorem mem_scope (h : group ∈ view.ownerGroups repositories) {name : String} :
    name ∈ group.scope ↔ ∃ facet ∈ ownedBy group.owner repositories,
      view.inScope facet = true ∧ fullName facet = name := by
  rw [eq_tally h, tally]
  simp only [List.mem_map, List.mem_filter, and_assoc]

theorem scope_nodup (hdistinct : (repositories.map fullName).Nodup)
    (h : group ∈ view.ownerGroups repositories) : group.scope.Nodup := by
  rw [eq_tally h, tally]
  exact hdistinct.sublist ((List.filter_sublist.trans List.filter_sublist).map fullName)

/-- What is shown, the owner's box speaks for. -/
theorem inScope_of_shown {facet : RepoFacet} (h : view.shown facet = true) :
    view.inScope facet = true := by
  rw [inScope]
  split_ifs
  · exact h
  · rfl

/-- A group kept has something in its scope. -/
theorem scope_ne_nil (h : group ∈ view.ownerGroups repositories) : group.scope ≠ [] := by
  have hshows := (List.mem_filter.1 h).2
  rw [Bool.not_eq_true', List.isEmpty_eq_false_iff] at hshows
  obtain ⟨item, hitem⟩ := List.exists_mem_of_ne_nil _ hshows
  have hname : item.fullName ∈ group.repositories.map RepoItem.fullName :=
    List.mem_map_of_mem hitem
  rw [map_fullName_repositories h] at hname
  obtain ⟨facet, hfacet, -⟩ := List.mem_map.1 hname
  obtain ⟨howned, hshown⟩ := List.mem_filter.1 hfacet
  exact List.ne_nil_of_mem ((mem_scope h).2 ⟨facet, howned, inScope_of_shown hshown, rfl⟩)

/-- Where all a scope holds is selected, its box is checked. -/
theorem checkbox_checked (h : group ∈ view.ownerGroups repositories)
    (hall : ∀ facet ∈ ownedBy group.owner repositories, view.inScope facet = true →
      view.isSelected facet = true) : group.checkbox = .checked := by
  have hscope : group.scope.length ≠ 0 := fun hnil =>
    scope_ne_nil h (List.eq_nil_of_length_eq_zero hnil)
  have hselected : group.selected = group.scope.length := by
    rw [eq_tally h, tally]
    simp only [List.length_map]
    rw [← List.countP_eq_length_filter]
    refine List.countP_congr fun facet hfacet => ?_
    rw [Bool.and_eq_true_iff]
    exact ⟨And.left, fun hin => ⟨hin, hall facet hfacet hin⟩⟩
  rw [OwnerGroup.checkbox, Checkbox.of, hselected, if_neg hscope, if_pos rfl]

/-- Where nothing a scope holds is selected, its box is unchecked. -/
theorem checkbox_unchecked (h : group ∈ view.ownerGroups repositories)
    (hnone : ∀ facet ∈ ownedBy group.owner repositories, view.inScope facet = true →
      view.isSelected facet = false) : group.checkbox = .unchecked := by
  have hselected : group.selected = 0 := by
    rw [eq_tally h, tally]
    refine List.countP_eq_zero.2 fun facet hfacet hboth => ?_
    obtain ⟨hin, hselected⟩ := Bool.and_eq_true_iff.1 hboth
    rw [hnone facet hfacet hin] at hselected
    cases hselected
  rw [OwnerGroup.checkbox, Checkbox.of, hselected, if_pos rfl]

end TreeView

/-- The tree the page draws. -/
def treeView (toLowercase : String → String) (query : String) (s : DashboardState) : TreeView where
  toLowercase := toLowercase
  selected := s.filter.repos
  query := query

section Press

variable {toLowercase : String → String} {query : String} {s : DashboardState}
variable {repositories : List RepoFacet} {group group' : OwnerGroup}

/-- What the press of a box makes of the list. -/
theorem repos_press (hdistinct : (repositories.map fullName).Nodup)
    (hrepos : s.filter.repos.Nodup)
    (h : group ∈ (treeView toLowercase query s).ownerGroups repositories) :
    (press s group).filter.repos
      = if group.checkbox ≠ .checked then
          s.filter.repos ++ group.scope.filter (· ∉ s.filter.repos)
        else s.filter.repos.filter (· ∉ group.scope) := by
  rw [press, repos_selectRepos]
  split
  · rename_i hselect
    rw [decide_eq_true hselect, foldl_choose_true (TreeView.scope_nodup hdistinct h)]
  · rename_i hselect
    rw [decide_eq_false hselect, foldl_choose_false _ hrepos]

/-- **A press selects or deselects the scope**, and nothing else. -/
theorem mem_repos_press (hdistinct : (repositories.map fullName).Nodup)
    (hrepos : s.filter.repos.Nodup)
    (h : group ∈ (treeView toLowercase query s).ownerGroups repositories) (name : String) :
    name ∈ (press s group).filter.repos ↔
      if name ∈ group.scope then group.checkbox ≠ .checked else name ∈ s.filter.repos := by
  rw [repos_press hdistinct hrepos h]
  by_cases hselect : group.checkbox ≠ .checked
  · rw [if_pos hselect, List.mem_append, List.mem_filter, decide_eq_true_eq]
    split <;> tauto
  · rw [if_neg hselect, List.mem_filter, decide_eq_true_eq]
    split <;> tauto

/-- **The rest of the list keeps its order.** -/
theorem rest_press (hdistinct : (repositories.map fullName).Nodup)
    (hrepos : s.filter.repos.Nodup)
    (h : group ∈ (treeView toLowercase query s).ownerGroups repositories) :
    (press s group).filter.repos.filter (· ∉ group.scope)
      = s.filter.repos.filter (· ∉ group.scope) := by
  rw [repos_press hdistinct hrepos h]
  split
  · have hnone : (group.scope.filter (· ∉ s.filter.repos)).filter (· ∉ group.scope) = [] :=
      List.filter_eq_nil_iff.2 fun name hname => by
        simpa using (List.mem_filter.1 hname).1
    rw [List.filter_append, hnone, List.append_nil]
  · rw [List.filter_filter]
    exact List.filter_congr fun name _ => Bool.and_self _

/-- A scope changes with what is selected only: what a box speaks for under one
selection it speaks for under another, if pull requests or a selection keep it
on show. -/
theorem inScope_iff (s s' : DashboardState) {facet : RepoFacet}
    (hin : (treeView toLowercase query s').inScope facet = true) :
    (treeView toLowercase query s).inScope facet = true ↔
      (treeView toLowercase query s).searching = true →
        0 < facet.count ∨ fullName facet ∈ s.filter.repos := by
  have hsearching : (treeView toLowercase query s').searching
      = (treeView toLowercase query s).searching := rfl
  have hmatch : (treeView toLowercase query s').isMatch facet
      = (treeView toLowercase query s).isMatch facet := rfl
  simp only [TreeView.inScope, TreeView.shown, hsearching, hmatch] at hin ⊢
  split at hin
  · rename_i hsearch
    have hkept : (treeView toLowercase query s).isMatch facet = true :=
      (Bool.and_eq_true_iff.1 hin).1
    rw [if_pos hsearch, hkept, Bool.true_and, Bool.or_eq_true, decide_eq_true_eq]
    simp only [hsearch, forall_const, TreeView.isSelected, decide_eq_true_eq]
    rfl
  · rename_i hsearch
    exact iff_of_true (if_neg hsearch) fun hsearching => absurd hsearching hsearch

/-- **The box drawn next** is checked where the press selected, and unchecked
where it deselected. -/
theorem checkbox_press (hdistinct : (repositories.map fullName).Nodup)
    (hrepos : s.filter.repos.Nodup)
    (h : group ∈ (treeView toLowercase query s).ownerGroups repositories)
    (h' : group' ∈ (treeView toLowercase query (press s group)).ownerGroups repositories)
    (howner : asciiLowercase group'.owner = asciiLowercase group.owner) :
    group'.checkbox = if group.checkbox ≠ .checked then .checked else .unchecked := by
  have hpressed := mem_repos_press hdistinct hrepos h
  have howned : TreeView.ownedBy group'.owner repositories
      = TreeView.ownedBy group.owner repositories := by
    simp only [TreeView.ownedBy, howner]
  split
  · rename_i hselect
    refine TreeView.checkbox_checked h' fun facet hfacet hin => decide_eq_true ?_
    rw [howned] at hfacet
    refine (hpressed _).2 ?_
    split
    · exact hselect
    · rename_i hout
      -- It stands outside the scope pressed, so only a selection brought it into this one.
      by_contra hnot
      refine hout ((TreeView.mem_scope h).2
        ⟨facet, hfacet, (inScope_iff s _ hin).2 fun hsearch => ?_, rfl⟩)
      rcases (inScope_iff (press s group) _ hin).1 hin hsearch with hcount | hmem
      · exact .inl hcount
      · have hmem' := (hpressed _).1 hmem
        rw [if_neg hout] at hmem'
        exact .inr hmem'
  · rename_i hselect
    refine TreeView.checkbox_unchecked h' fun facet hfacet hin => decide_eq_false fun hmem => ?_
    rw [howned] at hfacet
    have hmem' := (hpressed _).1 hmem
    split at hmem'
    · exact hselect hmem'
    · rename_i hout
      exact hout ((TreeView.mem_scope h).2
        ⟨facet, hfacet, (inScope_iff s _ hin).2 fun _ => .inr hmem', rfl⟩)

/-- **The tree accounts for every repository.** It shows each one that matches
and has pull requests or is selected, once, in its owner's one group and in the
order it came; a group's counts are its owner's selected repositories; and the
press of a box selects or deselects its scope, leaves the rest of the list as
it was, and is what the box then says. -/
theorem accounts_for_every_repository (toLowercase : String → String) (query : String)
    (s : DashboardState) (repositories : List RepoFacet)
    (hdistinct : (repositories.map fullName).Nodup) (hrepos : s.filter.repos.Nodup) :
    let view := treeView toLowercase query s
    let groups := view.ownerGroups repositories
    let names := groups.flatMap fun group => group.repositories.map RepoItem.fullName
    names.Nodup ∧
    (∀ facet ∈ repositories, fullName facet ∈ names ↔ view.isMatch facet = true ∧
      (0 < facet.count ∨ fullName facet ∈ s.filter.repos)) ∧
    (groups.Pairwise fun group group' =>
      asciiLowercase group.owner ≠ asciiLowercase group'.owner) ∧
    ∀ group ∈ groups,
      group.repositories.map RepoItem.fullName
        = ((TreeView.ownedBy group.owner repositories).filter view.shown).map fullName ∧
      group.selected + group.hiddenSelected
        = ((TreeView.ownedBy group.owner repositories).countP
            fun facet => fullName facet ∈ s.filter.repos) ∧
      group.selected ≤ group.scope.length ∧
      (∀ name, name ∈ (press s group).filter.repos ↔
        if name ∈ group.scope then group.checkbox ≠ .checked else name ∈ s.filter.repos) ∧
      (press s group).filter.repos.filter (· ∉ group.scope)
        = s.filter.repos.filter (· ∉ group.scope) ∧
      ∀ group' ∈ (treeView toLowercase query (press s group)).ownerGroups repositories,
        asciiLowercase group'.owner = asciiLowercase group.owner →
        group'.checkbox = if group.checkbox ≠ .checked then .checked else .unchecked := by
  refine ⟨TreeView.shownNames_nodup hdistinct, fun facet hfacet => ?_,
    TreeView.ownerGroups_pairwise _ _, fun group hgroup => ⟨?_, ?_, ?_, ?_, ?_, ?_⟩⟩
  · rw [TreeView.mem_shownNames]
    have hshown : (treeView toLowercase query s).shown facet = true ↔
        (treeView toLowercase query s).isMatch facet = true ∧
          (0 < facet.count ∨ fullName facet ∈ s.filter.repos) := by
      rw [TreeView.shown, Bool.and_eq_true_iff, Bool.or_eq_true, decide_eq_true_eq,
        TreeView.isSelected, decide_eq_true_eq]
      rfl
    rw [← hshown]
    constructor
    · rintro ⟨facet', hfacet', hname, hshown'⟩
      rwa [List.inj_on_of_nodup_map hdistinct hfacet' hfacet hname] at hshown'
    · intro hshown'
      exact ⟨facet, hfacet, rfl, hshown'⟩
  · exact TreeView.map_fullName_repositories hgroup
  · exact TreeView.selected_add_hidden hgroup
  · exact TreeView.selected_le_scope hgroup
  · exact mem_repos_press hdistinct hrepos hgroup
  · exact rest_press hdistinct hrepos hgroup
  · intro group' hgroup' howner
    exact checkbox_press hdistinct hrepos hgroup hgroup' howner

end Press

/-- Repositories of two owners, one of them spelled in two cases. -/
def sampleRepositories : List RepoFacet :=
  [⟨⟨1, 9, "acme", "api", none, 0⟩, 31⟩, ⟨⟨2, 9, "acme", "docs", none, 0⟩, 0⟩,
    ⟨⟨3, 9, "acme", "web", none, 0⟩, 21⟩, ⟨⟨11, 9, "Acme", "tools", none, 0⟩, 4⟩,
    ⟨⟨4, 9, "beta", "api", none, 0⟩, 3⟩]

/-- A dashboard with one repository in its filter. -/
def sampleDashboard : DashboardState :=
  .opened { (default : PrFilter) with repos := ["acme/web"] } none

theorem accounts_for_sampleRepositories :
    (((treeView asciiLowercase " API " sampleDashboard).ownerGroups sampleRepositories).flatMap
      fun group => group.repositories.map RepoItem.fullName).Nodup :=
  (accounts_for_every_repository asciiLowercase " API " sampleDashboard sampleRepositories
    (by decide) (by decide)).1

example : ((treeView asciiLowercase " API " sampleDashboard).ownerGroups sampleRepositories).map
    (fun group => (group.owner, group.scope, group.checkbox, group.hiddenSelected))
      = [("acme", ["acme/api"], .unchecked, 1), ("beta", ["beta/api"], .unchecked, 0)] := by
  decide +kernel

end Dependaboard.Ui
