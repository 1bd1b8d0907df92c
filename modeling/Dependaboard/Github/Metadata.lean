import Mathlib.Data.List.MinMax
import Dependaboard.Core.Records
import Dependaboard.Core.Text
/-!
# GitHub — what Dependabot says it updates

The block at the end of a commit's message lists the dependencies; the title
of a pull request that updates one says its versions, and stands in where
there is no block. The readers of YAML, of the title's pattern and of versions
are not this program's: `MetadataReaders` is what it asks of them.
-/

namespace Dependaboard

/-- A dependency as the block lists it; `updateType` is empty where it says
none. -/
structure MetadataDependency where
  dependencyName : String
  updateType : String
  deriving DecidableEq, Repr

/-- The block; a list it does not have is empty. -/
structure DependabotMetadata where
  updatedDependencies : List MetadataDependency
  deriving DecidableEq, Repr

/-- A version, as far as its step is read off it. -/
structure Version where
  major : ℕ
  minor : ℕ
  patch : ℕ
  deriving DecidableEq, Repr

/-- The readers of a message's block and of a title. -/
structure MetadataReaders where
  /-- The block, where it is YAML of one. -/
  yaml : String → Option DependabotMetadata
  /-- What `\bbump\s+(.+?)\s+from\s+(\S+)\s+to\s+(\S+)` captures of a title, in
  any case. -/
  titlePattern : String → Option (String × String × String)
  version : String → Option Version

/-- The text without the characters around it that are of a kind. -/
def trimMatches (kind : Char → Bool) (text : String) : String :=
  String.ofList (((text.toList.dropWhile kind).reverse.dropWhile kind).reverse)

/-- The block of a message: between its first `---` at the start of a line and
the first `...` that starts one after it. -/
def metadataBlock (message : String) : Option String := do
  let rest ← match message.toList.dropPrefix? "---".toList with
    | some rest => some rest
    | none => (message.toList.dropInfix? "\n---".toList).map Prod.snd
  let (block, _) ← rest.dropInfix? "\n...".toList
  return String.ofList block

/-- The step a block names, after its last colon. -/
def metadataUpdateType (value : String) : UpdateType :=
  match String.ofList (value.toList.reverse.takeWhile (· ≠ ':')).reverse with
  | "semver-major" => .major
  | "semver-minor" => .minor
  | "semver-patch" => .patch
  | _ => .unknown

/-- A dependency of the block, its versions not said. -/
def MetadataDependency.update (dependency : MetadataDependency) : DependencyUpdate :=
  ⟨dependency.dependencyName, none, none, metadataUpdateType dependency.updateType⟩

section Readers

variable (readers : MetadataReaders)

/-- The step between two versions, where both are versions. -/
def semverUpdateType (fromVersion toVersion : String) : UpdateType :=
  let parse (value : String) := readers.version (String.ofList (value.toList.dropWhile (· = 'v')))
  match parse fromVersion, parse toVersion with
  | some fromVersion, some toVersion =>
    if fromVersion.major ≠ toVersion.major then .major
    else if fromVersion.minor ≠ toVersion.minor then .minor
    else if fromVersion.patch ≠ toVersion.patch then .patch
    else .unknown
  | _, _ => .unknown

/-- The update a title says, without the grave accents its versions stand in and
the punctuation that ends it. -/
def parseTitleUpdate (title : String) : Option (String × String × String × UpdateType) := do
  let (name, fromVersion, toVersion) ← readers.titlePattern title
  let name := trim name
  let fromVersion := trimMatches (fun c => c = '\x60') fromVersion
  let toVersion := trimMatches (fun c => c = '\x60' || c = '.' || c = ',') toVersion
  return (name, fromVersion, toVersion, semverUpdateType readers fromVersion toVersion)

/-- What the block of a message lists, where it lists any. -/
def yamlUpdates (message : String) : Option (List DependencyUpdate) :=
  (((metadataBlock message).bind readers.yaml).map fun metadata =>
    metadata.updatedDependencies.map MetadataDependency.update).filter (· ≠ [])

/-- What a pull request updates, by its head's message and its title. -/
def parseDependabotMetadata (message title : String) : List DependencyUpdate :=
  match yamlUpdates readers message, parseTitleUpdate readers title with
  | some [update], some (name, fromVersion, toVersion, updateType) =>
    if update.name = name then
      [{ update with
        fromVersion := some fromVersion
        toVersion := some toVersion
        -- the block's word on the step is kept
        updateType := if update.updateType = .unknown then updateType else update.updateType }]
    else [update]
  | some updates, _ => updates
  | none, some (name, fromVersion, toVersion, updateType) =>
    [⟨name, some fromVersion, some toVersion, updateType⟩]
  | none, none => []

end Readers

/-! ## The worst of a group -/

/-- How severe a kind of update is; the order of the kinds. -/
def UpdateType.rank : UpdateType → ℕ
  | unknown => 0
  | patch => 1
  | minor => 2
  | major => 3

/-- The worst of what is updated; `unknown` of nothing. -/
def highestUpdateType (updates : List DependencyUpdate) : UpdateType :=
  ((updates.map DependencyUpdate.updateType).argmax UpdateType.rank).getD .unknown

/-- **None is worse than the worst of its group**, and the worst is one of
them. -/
theorem highestUpdateType_spec (updates : List DependencyUpdate) :
    (∀ update ∈ updates, update.updateType.rank ≤ (highestUpdateType updates).rank) ∧
      (updates ≠ [] → ∃ update ∈ updates, update.updateType = highestUpdateType updates) := by
  unfold highestUpdateType
  cases hworst : (updates.map DependencyUpdate.updateType).argmax UpdateType.rank with
  | none =>
    have hnil : updates = [] := List.map_eq_nil_iff.1 (List.argmax_eq_none.1 hworst)
    simp [hnil]
  | some worst =>
    refine ⟨fun update hupdate => ?_, fun _ => List.mem_map.1 (List.argmax_mem hworst)⟩
    exact List.le_of_mem_argmax (List.mem_map_of_mem hupdate) hworst

end Dependaboard
