import Dependaboard.Github.Metadata
import Dependaboard.Text.Marker
import Mathlib.Data.List.TakeWhile

/-!
# GitHub — where Dependabot's block is found

Dependabot appends its block to a message that says whatever the update's
release notes say. The block is looked for from the message's first line of
three dashes, not from its own: `cut` is what is read in place of it, and
`finds_iff` says of which texts before the block that is still the block.

The reader of YAML is a parameter. What is asked of it is `YamlReads`: that the
block is read the same after line breaks and after a marker, and that a text
with a document before the marker is refused, for it holds more than one.
-/

namespace Dependaboard

open Marker

/-! ## What is cut out of a message -/

/-- What stands behind the first line start of three dashes. -/
def afterMarker (text : List Char) : Option (List Char) :=
  match text.dropPrefix? "---".toList with
  | some rest => some rest
  | none => (text.dropInfix? ('\n' :: "---".toList)).map Prod.snd

theorem metadataBlock_eq (message : String) :
    metadataBlock message = (afterMarker message.toList).bind fun rest =>
      (rest.dropInfix? ('\n' :: "...".toList)).map fun found => String.ofList found.1 := by
  have hdashes : "\n---".toList = '\n' :: "---".toList := by decide
  have hdots : "\n...".toList = '\n' :: "...".toList := by decide
  have hend (rest : List Char) :
      ((rest.dropInfix? ('\n' :: "...".toList)).bind fun found => some (String.ofList found.1)) =
        (rest.dropInfix? ('\n' :: "...".toList)).map fun found => String.ofList found.1 := by
    cases rest.dropInfix? ('\n' :: "...".toList) <;> rfl
  rw [metadataBlock, afterMarker, hdashes, hdots]
  cases message.toList.dropPrefix? "---".toList with
  | some rest => exact hend rest
  | none =>
    cases message.toList.dropInfix? ('\n' :: "---".toList) with
    | some found => exact hend found.2
    | none => rfl

/-- A message with a block in it. -/
def messageWith (before block after : String) : String :=
  before ++ "\n---\n" ++ block ++ "\n..." ++ after

/-- What is read in place of the block: from the first line of three dashes to
the first of three dots behind it. -/
def cut (before block : List Char) : List Char :=
  match afterMarker before with
  | none => '\n' :: block
  | some front =>
    match front.dropInfix? ('\n' :: "...".toList) with
    | some (quoted, _) => quoted
    | none => front ++ '\n' :: ("---".toList ++ '\n' :: block)

theorem dropPrefix?_append_break {mark xs ys : List Char} (hmark : '\n' ∉ mark) :
    (xs ++ '\n' :: ys).dropPrefix? mark = (xs.dropPrefix? mark).map (· ++ '\n' :: ys) := by
  cases hxs : xs.dropPrefix? mark with
  | some rest =>
    obtain ⟨_, rfl, hmark'⟩ := List.dropPrefix?_eq_some_iff.1 hxs
    rw [beq_iff_eq.1 hmark', List.append_assoc]
    exact List.dropPrefix?_append_of_beq _ (beq_self_eq_true _)
  | none =>
    cases hboth : (xs ++ '\n' :: ys).dropPrefix? mark with
    | none => rfl
    | some rest =>
      obtain ⟨_, hsplit, hmark'⟩ := List.dropPrefix?_eq_some_iff.1 hboth
      rw [beq_iff_eq.1 hmark'] at hsplit
      obtain ⟨tail, rfl⟩ := (prefix_append_break hmark).1 ⟨rest, hsplit.symm⟩
      rw [List.dropPrefix?_append_of_beq _ (beq_self_eq_true _)] at hxs
      cases hxs

/-- A marker before the block is found first, and its own where there is none. -/
theorem afterMarker_append (before rest : List Char) :
    afterMarker (before ++ '\n' :: ("---".toList ++ rest))
      = some (match afterMarker before with
        | none => rest
        | some front => front ++ '\n' :: ("---".toList ++ rest)) := by
  have hmark : '\n' ∉ "---".toList := by decide
  rw [afterMarker, dropPrefix?_append_break hmark, afterMarker]
  cases hbegins : before.dropPrefix? "---".toList with
  | some front => rfl
  | none =>
    cases hline : before.dropInfix? ('\n' :: "---".toList) with
    | some found =>
      simp only [Option.map_none, Option.map_some, dropInfix?_append hline]
    | none =>
      simp only [Option.map_none, Option.map_some,
        dropInfix?_append_break hmark (dropInfix?_eq_none_iff.1 hline)]

/-- **What is cut out of a message** with a block that holds no line of three
dots. -/
theorem metadataBlock_messageWith {block : String} (hdots : ¬ BeginsLine "...".toList block.toList)
    (before after : String) : metadataBlock (messageWith before block after)
      = some (String.ofList (cut before.toList block.toList)) := by
  have hmark : '\n' ∉ "...".toList := by decide
  have hmarker : "\n---\n".toList = '\n' :: ("---".toList ++ ['\n']) := by decide
  have hend : "\n...".toList = '\n' :: "...".toList := by decide
  have hlist : (messageWith before block after).toList = before.toList ++ '\n' :: ("---".toList
      ++ ('\n' :: block.toList ++ '\n' :: ("...".toList ++ after.toList))) := by
    simp only [messageWith, String.toList_append, hmarker, hend, List.append_assoc,
      List.cons_append, List.nil_append]
  have hblock : ¬ '\n' :: "...".toList <:+: '\n' :: block.toList := by
    rw [← List.nil_append ('\n' :: block.toList), infix_append_break hmark]
    rintro (hnil | hline)
    · exact absurd hnil (by decide)
    · exact hdots hline
  rw [metadataBlock_eq, hlist, afterMarker_append, Option.bind_some, cut]
  cases hfront : afterMarker before.toList with
  | none =>
    simp only [dropInfix?_append_break hmark hblock, Option.map_some]
  | some front =>
    have hwhole : front ++ '\n' :: ("---".toList
        ++ ('\n' :: block.toList ++ '\n' :: ("...".toList ++ after.toList)))
        = (front ++ '\n' :: ("---".toList ++ '\n' :: block.toList))
          ++ '\n' :: ("...".toList ++ after.toList) := by
      simp only [List.append_assoc, List.cons_append]
    simp only [hwhole]
    cases hquoted : front.dropInfix? ('\n' :: "...".toList) with
    | some found =>
      rw [List.append_assoc, dropInfix?_append hquoted, Option.map_some]
    | none =>
      have hrest : ¬ BeginsLine "...".toList ("---".toList ++ '\n' :: block.toList) := by
        rintro (hbegins | hwithin)
        · exact absurd ((prefix_append_break hmark).1 hbegins) (by decide)
        · rcases (infix_append_break hmark).1 hwithin with hdashes | hline
          · exact absurd hdashes (by decide)
          · exact hdots hline
      have hnot : ¬ '\n' :: "...".toList
          <:+: front ++ '\n' :: ("---".toList ++ '\n' :: block.toList) := by
        rw [infix_append_break hmark]
        exact fun h => h.elim (dropInfix?_eq_none_iff.1 hquoted) hrest
      rw [dropInfix?_append_break hmark hnot, Option.map_some]

/-! ## What YAML makes of it -/

/-- Some line of the text has something to read on it: it begins, behind
blanks, with neither a comment nor what may be a directive, another blank or
another line break. -/
def HoldsDocument (text : List Char) : Prop :=
  ∃ before blanks c rest, text = before ++ (blanks ++ c :: rest) ∧
    (before = [] ∨ before.getLast? = some '\n') ∧ (∀ blank ∈ blanks, blank = ' ') ∧
    c ∉ [' ', '\n', '#', '\t', '\r', '\u0085', '\u2028', '\u2029', '\ufeff'] ∧
    ¬ (blanks = [] ∧ c = '%')

/-- How YAML reads a block, alone and with something before it. -/
structure YamlReads (yaml : String → Option DependabotMetadata) (block : String)
    (metadata : DependabotMetadata) : Prop where
  alone : yaml block = some metadata
  /-- A line break before a document says nothing. -/
  afterBreak : yaml (String.ofList ('\n' :: block.toList)) = some metadata
  /-- Nor does a document's marker, with nothing but line breaks before it. -/
  afterMarker : ∀ front : List Char, (∀ c ∈ front, c = '\n') →
    yaml (String.ofList (front ++ '\n' :: ("---".toList ++ '\n' :: block.toList)))
      = some metadata
  /-- A text that holds more than one document is refused. -/
  oneDocument : ∀ front : List Char, HoldsDocument front →
    yaml (String.ofList (front ++ '\n' :: ("---".toList ++ '\n' :: block.toList))) = none

/-- The dependencies a block lists, their versions not said. -/
def DependabotMetadata.updates (metadata : DependabotMetadata) : List DependencyUpdate :=
  metadata.updatedDependencies.map MetadataDependency.update

section Readers

variable (readers : MetadataReaders)

/-- YAML reads the text as a block that lists the same. -/
def Says (text : List Char) (metadata : DependabotMetadata) : Prop :=
  ∃ read, readers.yaml (String.ofList text) = some read ∧ read.updates = metadata.updates

/-- The block is what is read, or what is read in its place says the same. -/
inductive InReach (before block : String) (metadata : DependabotMetadata) : Prop
  /-- No line before the block begins with three dashes. -/
  | first (hfirst : afterMarker before.toList = none)
  /-- Nothing but line breaks stands between the first that does and the block. -/
  | blank {front : List Char} (hfront : afterMarker before.toList = some front)
      (hblank : ∀ c ∈ front, c = '\n')
  /-- A block of its own stands between them, and says the same. -/
  | quoted {front quoted rest : List Char} (hfront : afterMarker before.toList = some front)
      (hquoted : front.dropInfix? ('\n' :: "...".toList) = some (quoted, rest))
      (hsaying : Says readers quoted metadata)
  /-- No document stands between them, and what does leaves the reading as it is. -/
  | prologue {front : List Char} (hfront : afterMarker before.toList = some front)
      (hquoted : front.dropInfix? ('\n' :: "...".toList) = none) (hfree : ¬ HoldsDocument front)
      (hsaying : Says readers (front ++ '\n' :: ("---".toList ++ '\n' :: block.toList)) metadata)

variable {readers} {before block : String} {metadata : DependabotMetadata}

/-- **What is cut out says what the block does** where the block is in reach. -/
theorem says_cut_iff (hyaml : YamlReads readers.yaml block metadata) :
    Says readers (cut before.toList block.toList) metadata
      ↔ InReach readers before block metadata := by
  rw [cut]
  constructor
  · intro hsaying
    cases hfront : afterMarker before.toList with
    | none => exact .first hfront
    | some front =>
      rw [hfront] at hsaying
      cases hquoted : front.dropInfix? ('\n' :: "...".toList) with
      | some found =>
        simp only [hquoted] at hsaying
        exact .quoted hfront hquoted hsaying
      | none =>
        simp only [hquoted] at hsaying
        refine .prologue hfront hquoted (fun hdocument => ?_) hsaying
        obtain ⟨read, hread, -⟩ := hsaying
        rw [hyaml.oneDocument front hdocument] at hread
        cases hread
  · rintro (hfirst | ⟨hfront, hblank⟩ | ⟨hfront, hquoted, hsaying⟩ | ⟨hfront, hquoted, -, hsaying⟩)
    · rw [hfirst]
      exact ⟨metadata, hyaml.afterBreak, rfl⟩
    · rename_i front
      have hquoted : front.dropInfix? ('\n' :: "...".toList) = none := by
        rw [dropInfix?_eq_none_iff]
        intro hwithin
        have hdot := hblank '.' (hwithin.subset (by decide))
        exact absurd hdot (by decide)
      simp only [hfront, hquoted]
      exact ⟨metadata, hyaml.afterMarker front hblank, rfl⟩
    · simp only [hfront, hquoted]
      exact hsaying
    · simp only [hfront, hquoted]
      exact hsaying

/-- What a message's block says it updates, with what the title says: a single
dependency it names takes its versions, and its step where the block names
none. -/
def titled (updates : List DependencyUpdate)
    (title : Option (String × String × String × UpdateType)) : List DependencyUpdate :=
  match updates, title with
  | [update], some (name, fromVersion, toVersion, updateType) =>
    if update.name = name then
      [{ update with
        fromVersion := some fromVersion
        toVersion := some toVersion
        updateType := if update.updateType = .unknown then updateType else update.updateType }]
    else [update]
  | updates, _ => updates

variable (readers) in
/-- The block is found: under every title its dependencies are read. -/
def Finds (message : String) (metadata : DependabotMetadata) : Prop :=
  ∀ title, parseDependabotMetadata readers message title
    = titled metadata.updates (parseTitleUpdate readers title)

theorem parseDependabotMetadata_of_yaml {message : String} {updates : List DependencyUpdate}
    (h : yamlUpdates readers message = some updates) (title : String) :
    parseDependabotMetadata readers message title
      = titled updates (parseTitleUpdate readers title) := by
  unfold parseDependabotMetadata titled
  rw [h]
  rcases parseTitleUpdate readers title with _ | ⟨name, fromVersion, toVersion, updateType⟩ <;>
    rcases updates with _ | ⟨update, _ | ⟨other, updates⟩⟩ <;> rfl

/-- A title that says no update leaves what the block lists. -/
theorem titled_none (updates : List DependencyUpdate) : titled updates none = updates := by
  rcases updates with _ | ⟨update, _ | ⟨other, updates⟩⟩ <;> rfl

/-- **The block is found where its list is what YAML reads**: a title that says
nothing tells. -/
theorem finds_iff_yamlUpdates {message : String} (hne : metadata.updates ≠ [])
    (htitle : ∃ title, readers.titlePattern title = none) :
    Finds readers message metadata ↔ yamlUpdates readers message = some metadata.updates := by
  constructor
  · intro hfinds
    obtain ⟨title, hnone⟩ := htitle
    have htitled : parseTitleUpdate readers title = none := by
      rw [parseTitleUpdate, hnone]
      rfl
    have hparse := hfinds title
    rw [htitled, titled_none] at hparse
    cases hread : yamlUpdates readers message with
    | some updates =>
      rw [parseDependabotMetadata_of_yaml hread, htitled, titled_none] at hparse
      rw [hparse]
    | none =>
      rw [parseDependabotMetadata, hread, htitled] at hparse
      exact absurd hparse.symm hne
  · intro hread title
    exact parseDependabotMetadata_of_yaml hread title

/-- What is read of a message is what is cut out of it. -/
theorem yamlUpdates_messageWith_iff (hdots : ¬ BeginsLine "...".toList block.toList)
    (hne : metadata.updates ≠ []) (after : String) :
    yamlUpdates readers (messageWith before block after) = some metadata.updates
      ↔ Says readers (cut before.toList block.toList) metadata := by
  rw [yamlUpdates, metadataBlock_messageWith hdots, Option.bind_some, Says]
  cases readers.yaml (String.ofList (cut before.toList block.toList)) with
  | none => simp
  | some read =>
    rw [Option.map_some]
    simp only [Option.filter_eq_some_iff, Option.some.injEq, exists_eq_left']
    constructor
    · exact And.left
    · intro hsame
      exact ⟨hsame, decide_eq_true hne⟩

/-- **A message's block is found exactly where it is in reach**, whatever comes
after it and whatever the title. -/
theorem finds_iff_inReach (hdots : ¬ BeginsLine "...".toList block.toList)
    (hne : metadata.updatedDependencies ≠ []) (hyaml : YamlReads readers.yaml block metadata)
    (htitle : ∃ title, readers.titlePattern title = none) (after : String) :
    Finds readers (messageWith before block after) metadata
      ↔ InReach readers before block metadata := by
  have hne' : metadata.updates ≠ [] := fun hnil => hne (List.map_eq_nil_iff.1 hnil)
  rw [finds_iff_yamlUpdates hne' htitle, yamlUpdates_messageWith_iff hdots hne',
    says_cut_iff hyaml]

end Readers

/-- A block Dependabot writes. -/
def sampleBlock : String :=
  "updated-dependencies:\n- dependency-name: tokio\n  update-type: version-update:semver-major"

/-- What the YAML crate makes of a block with one update. -/
def sampleMetadata : DependabotMetadata := ⟨[⟨"tokio", "version-update:semver-major"⟩]⟩

/-- Readers that know the sample, alone and behind a marker. -/
def sampleReaders : MetadataReaders where
  yaml text :=
    let text := text.toList.dropWhile fun c => c = '\n'
    if text = sampleBlock.toList ∨ text = "---\n".toList ++ sampleBlock.toList then
      some sampleMetadata
    else none
  titlePattern title :=
    if title = "Bump tokio from 1.0.0 to 2.0.0" then some ("tokio", "1.0.0", "2.0.0") else none
  version text :=
    if text = "1.0.0" then some ⟨1, 0, 0⟩ else if text = "2.0.0" then some ⟨2, 0, 0⟩ else none

theorem sampleReaders_yaml : YamlReads sampleReaders.yaml sampleBlock sampleMetadata where
  alone := by decide +kernel
  afterBreak := by decide +kernel
  afterMarker front hblank := by
    have hdrop : (front ++ '\n' :: ("---".toList ++ '\n' :: sampleBlock.toList)).dropWhile
        (fun c => c = '\n') = "---\n".toList ++ sampleBlock.toList := by
      rw [List.dropWhile_append_of_pos fun c hc => decide_eq_true (hblank c hc)]
      decide +kernel
    simp only [sampleReaders, String.toList_ofList, hdrop, or_true, if_true]
  oneDocument front hdocument := by
    -- What is left of `front` makes the text longer than the two it knows.
    have hrest : front.dropWhile (fun c => c = '\n') ≠ [] := by
      obtain ⟨before, blanks, c, rest, rfl, -, -, hc, -⟩ := hdocument
      intro hnil
      have hbreak := List.dropWhile_eq_nil_iff.1 hnil c (by simp)
      rw [of_decide_eq_true hbreak] at hc
      exact absurd hc (by decide)
    have hlen := List.length_pos_of_ne_nil hrest
    refine if_neg ?_
    rw [String.toList_ofList, List.dropWhile_append, if_neg (by simpa using hrest)]
    rintro (heq | heq)
    · have hlength := congrArg List.length heq
      simp only [List.length_append, List.length_cons] at hlength
      omega
    · have hlength := congrArg List.length heq
      simp only [List.length_append, List.length_cons] at hlength
      have hdashes : "---".toList.length = 3 := by decide
      have hmarker : "---\n".toList.length = 4 := by decide
      omega

/-- Release notes with a rule in them, before the block. -/
def sampleNotes : String := "Bump tokio from 1.0.0 to 2.0.0\n\n---\nRelease notes\n"

/-- **The block as Dependabot writes it**, with no rule before it. -/
theorem sample_found : Finds sampleReaders
    (messageWith "Bump tokio from 1.0.0 to 2.0.0\n" sampleBlock "") sampleMetadata :=
  (finds_iff_inReach (by decide +kernel) (by decide) sampleReaders_yaml ⟨"", by decide⟩ "").2
    (.first (by decide +kernel))

/-- A rule in the release notes puts the block out of reach. -/
theorem sampleNotes_not_inReach : ¬ InReach sampleReaders sampleNotes sampleBlock
    sampleMetadata := by
  have hfront : afterMarker sampleNotes.toList = some "\nRelease notes\n".toList := by
    decide +kernel
  have hdocument : HoldsDocument "\nRelease notes\n".toList :=
    ⟨['\n'], [], 'R', "elease notes\n".toList, by decide, .inr rfl, List.forall_mem_nil _,
      by decide, by decide⟩
  rintro (hfirst | ⟨hfront', hblank⟩ | ⟨hfront', hquoted, -⟩ | ⟨hfront', -, hfree, -⟩)
  · rw [hfront] at hfirst
    cases hfirst
  · obtain rfl := Option.some.inj (hfront.symm.trans hfront')
    exact absurd (hblank 'R' (by decide)) (by decide)
  · obtain rfl := Option.some.inj (hfront.symm.trans hfront')
    have hnone : "\nRelease notes\n".toList.dropInfix? ('\n' :: "...".toList) = none := by decide
    rw [hnone] at hquoted
    cases hquoted
  · obtain rfl := Option.some.inj (hfront.symm.trans hfront')
    exact hfree hdocument

/-- **A rule before the block hides it.** The text from the rule on holds two
documents, and nothing is read of it. -/
theorem rule_hides_block : ¬ ∀ (readers : MetadataReaders) (before block after : String)
    (metadata : DependabotMetadata),
    ¬ BeginsLine "---".toList block.toList → ¬ BeginsLine "...".toList block.toList →
    metadata.updatedDependencies ≠ [] → YamlReads readers.yaml block metadata →
    Finds readers (messageWith before block after) metadata := by
  intro hclaim
  have hdots : ¬ BeginsLine "...".toList sampleBlock.toList := by decide +kernel
  have hne : sampleMetadata.updates ≠ [] := by decide
  have hfinds := hclaim sampleReaders sampleNotes sampleBlock "" sampleMetadata
    (by decide +kernel) hdots (by decide) sampleReaders_yaml
  rw [finds_iff_yamlUpdates hne ⟨"", by decide⟩, yamlUpdates_messageWith_iff hdots hne,
    says_cut_iff sampleReaders_yaml] at hfinds
  exact sampleNotes_not_inReach hfinds

end Dependaboard
