import BomTable.Proofs.Resolution.Entries
import BomTable.Proofs.Property.Lookup
import BomTable.Proofs.Xml.Navigation
import BomTable.Publish.Configuration

/-!
Reading what was written for an entry. Every value comes back stripped, and a blank one does not
come back. Without group and artifact there is nothing to read, neither of an entry nor of an
exclusion. An entry of clean values comes back as it is, whatever properties are put in.
-/

namespace BomTable

/-! ### Clean values -/

/-- A text that reading and putting in properties leave as it is. -/
structure Text.Clean (s : String) : Prop where
  filled : isBlank s = false
  stripped : strip s = s
  closed : unresolved s = false

instance (s : String) : Decidable (Text.Clean s) :=
  decidable_of_iff (Text.isBlank s = false ∧ Text.strip s = s ∧ unresolved s = false)
    ⟨fun h => ⟨h.1, h.2.1, h.2.2⟩, fun h => ⟨h.filled, h.stripped, h.closed⟩⟩

lemma Text.filled?_of_not_isBlank {s : String} (h : isBlank s = false) :
    filled? s = some (strip s) := by
  simp [filled?, h]

lemma Text.Clean.filled?_eq {s : String} (h : Clean s) : filled? s = some s := by
  simp [filled?, h.filled, h.stripped]

lemma Text.Clean.nonempty?_eq {s : String} (h : Clean s) : nonempty? (some s) = some s := by
  have hne : s ≠ "" := by
    rintro rfl
    exact absurd h.filled (by decide)
  simp [nonempty?, hne]

/-- No group and no artifact in an entry is blank. -/
structure Managed.Filled (m : Managed) : Prop where
  group : Text.isBlank m.group = false
  artifact : Text.isBlank m.artifact = false
  exclusions : ∀ e ∈ m.exclusions, Text.isBlank e.group = false ∧ Text.isBlank e.artifact = false

/-- All texts of an entry are clean. -/
structure Managed.Clean (m : Managed) : Prop where
  group : Text.Clean m.group
  artifact : Text.Clean m.artifact
  version : ∀ v ∈ m.version, Text.Clean v
  classifier : ∀ v ∈ m.classifier, Text.Clean v
  scope : ∀ v ∈ m.scope, Text.Clean v
  packaging : ∀ v ∈ m.packaging, Text.Clean v
  exclusions : ∀ e ∈ m.exclusions, Text.Clean e.group ∧ Text.Clean e.artifact

instance (m : Managed) : Decidable m.Clean :=
  decidable_of_iff (Text.Clean m.group ∧ Text.Clean m.artifact ∧
      (∀ v ∈ m.version.toList, Text.Clean v) ∧ (∀ v ∈ m.classifier.toList, Text.Clean v) ∧
      (∀ v ∈ m.scope.toList, Text.Clean v) ∧ (∀ v ∈ m.packaging.toList, Text.Clean v) ∧
      ∀ e ∈ m.exclusions, Text.Clean e.group ∧ Text.Clean e.artifact) <| by
    simp only [Option.mem_toList]
    exact ⟨fun ⟨hg, ha, hv, hc, hs, hp, he⟩ => ⟨hg, ha, hv, hc, hs, hp, he⟩,
      fun ⟨hg, ha, hv, hc, hs, hp, he⟩ => ⟨hg, ha, hv, hc, hs, hp, he⟩⟩

namespace Managed

/-- The entry as a document that writes it has it. -/
def raw (m : Managed) : RawEntry where
  group := m.group
  artifact := m.artifact
  version := m.version
  classifier := m.classifier
  scope := m.scope
  packaging := m.packaging
  exclusions := m.exclusions.map fun e => (e.group, e.artifact)

/-- The entry as it is read: all values are stripped, and those that are blank are missing. -/
def reread (m : Managed) : RawEntry where
  group := Text.strip m.group
  artifact := Text.strip m.artifact
  version := m.version.bind Text.filled?
  classifier := m.classifier.bind Text.filled?
  scope := m.scope.bind Text.filled?
  packaging := m.packaging.bind Text.filled?
  exclusions := m.exclusions.map fun e => (Text.strip e.group, Text.strip e.artifact)

end Managed

lemma bind_filled?_eq {v : Option String} (h : ∀ s ∈ v, Text.Clean s) :
    v.bind Text.filled? = v := by
  cases v with
  | none => rfl
  | some s => exact (h s rfl).filled?_eq

lemma Managed.Clean.filled {m : Managed} (h : m.Clean) : m.Filled where
  group := h.group.filled
  artifact := h.artifact.filled
  exclusions := fun e he => ⟨(h.exclusions e he).1.filled, (h.exclusions e he).2.filled⟩

lemma Managed.Clean.reread_eq {m : Managed} (h : m.Clean) : m.reread = m.raw := by
  have hexclusions : (m.exclusions.map fun e => (Text.strip e.group, Text.strip e.artifact)) =
      m.exclusions.map fun e => (e.group, e.artifact) :=
    List.map_congr_left fun e he =>
      Prod.ext (h.exclusions e he).1.stripped (h.exclusions e he).2.stripped
  rw [reread, h.group.stripped, h.artifact.stripped, bind_filled?_eq h.version,
    bind_filled?_eq h.classifier, bind_filled?_eq h.scope, bind_filled?_eq h.packaging,
    hexclusions]
  rfl

/-! ### From the element -/

namespace Publish

open Xml Node

variable {space : Option String}

lemma findChild_optionalLeaf {name : Name} {attributes : List (Name × String)} {tag other : String}
    {v : Option String} (h : '}' ∉ tag.toList) :
    (element name attributes (optionalLeaf space tag v)).findChild other =
      if tag = other then v.map (leaf (.within tag space)) else none := by
  cases v with
  | none => simp [optionalLeaf, findChild_nil]
  | some s =>
    rw [optionalLeaf, findChild_singleton rfl]
    simp only [leaf, localName, Name.tag_within h, Option.map_some]

lemma findChild_exclusionsNode {name : Name} {attributes : List (Name × String)} {other : String}
    {es : List Exclusion} (h : other ≠ "exclusions") :
    (element name attributes (exclusionsNode space es)).findChild other = none := by
  unfold exclusionsNode
  split_ifs
  · rfl
  · rw [findChild_singleton rfl, if_neg]
    rw [localName_within (by decide)]
    exact Ne.symm h

lemma ownText_leaf (name : Name) (s : String) : (leaf name s).ownText.bind Text.filled? =
    Text.filled? s := by
  by_cases h : s = ""
  · subst h
    rfl
  · simp [leaf, ownText, leadingText, h]

/-- What is written under a tag, exclusions apart. -/
def value? (m : Managed) (tag : String) : Option String :=
  match tag with
  | "groupId" => some m.group
  | "artifactId" => some m.artifact
  | "version" => m.version
  | "type" => m.packaging
  | "classifier" => m.classifier
  | "scope" => m.scope
  | _ => none

lemma findChild_dependencyNode {m : Managed} {tag : String} :
    (dependencyNode space m).findChild tag =
      ((value? m tag).map (leaf (.within tag space))).or
        ((element (.within "dependency" space) [] (exclusionsNode space m.exclusions)).findChild
          tag) := by
  simp only [dependencyNode, findChild_append,
    findChild_optionalLeaf (show '}' ∉ "groupId".toList by decide),
    findChild_optionalLeaf (show '}' ∉ "artifactId".toList by decide),
    findChild_optionalLeaf (show '}' ∉ "version".toList by decide),
    findChild_optionalLeaf (show '}' ∉ "type".toList by decide),
    findChild_optionalLeaf (show '}' ∉ "classifier".toList by decide),
    findChild_optionalLeaf (show '}' ∉ "scope".toList by decide)]
  fun_cases value? m tag <;> simp_all [eq_comm]

/-- Every value comes back stripped, unless it is blank. -/
lemma childText_dependencyNode {m : Managed} {tag : String} (htag : tag ≠ "exclusions") :
    (dependencyNode space m).childText tag = (value? m tag).bind Text.filled? := by
  rw [childText, findChild_dependencyNode, findChild_exclusionsNode htag, Option.or_none]
  cases value? m tag with
  | none => rfl
  | some s => exact ownText_leaf (.within tag space) s

lemma artifactOf_exclusionNode {e : Exclusion} (hg : Text.isBlank e.group = false)
    (ha : Text.isBlank e.artifact = false) :
    Pom.Reading.artifactOf (exclusionNode space e) =
      some (Text.strip e.group, Text.strip e.artifact) := by
  have hcontent : [leaf (.within "groupId" space) e.group,
      leaf (.within "artifactId" space) e.artifact] =
      optionalLeaf space "groupId" (some e.group) ++
        optionalLeaf space "artifactId" (some e.artifact) := rfl
  have hgroup : (exclusionNode space e).childText "groupId" = some (Text.strip e.group) := by
    rw [childText, exclusionNode, hcontent, findChild_append, findChild_optionalLeaf (by decide),
      if_pos rfl]
    exact (ownText_leaf (.within "groupId" space) _).trans (Text.filled?_of_not_isBlank hg)
  have hartifact : (exclusionNode space e).childText "artifactId" =
      some (Text.strip e.artifact) := by
    rw [childText, exclusionNode, hcontent, findChild_append, findChild_optionalLeaf (by decide),
      findChild_optionalLeaf (by decide), if_neg (by decide), if_pos rfl, Option.none_or]
    exact (ownText_leaf (.within "artifactId" space) _).trans (Text.filled?_of_not_isBlank ha)
  simp [Pom.Reading.artifactOf, hgroup, hartifact]

lemma inside_exclusions {m : Managed} :
    Pom.Reading.inside (dependencyNode space m) "exclusions" "exclusion" =
      m.exclusions.map (exclusionNode space) := by
  have hvalue : value? m "exclusions" = none := rfl
  rw [Pom.Reading.inside, findChild_dependencyNode, hvalue]
  by_cases h : m.exclusions = []
  · rw [h]
    rfl
  · have hfind : (element (.within "dependency" space) []
        (exclusionsNode space m.exclusions)).findChild "exclusions" =
        some (element (.within "exclusions" space) []
          (m.exclusions.map (exclusionNode space))) := by
      rw [exclusionsNode, if_neg (by simpa using h), findChild_singleton rfl,
        if_pos (localName_within (by decide))]
    rw [hfind]
    exact findChildren_map fun e => ⟨rfl, localName_within (by decide)⟩

/-- **An entry is read back stripped.** -/
theorem managedEntry_dependencyNode {m : Managed} (h : m.Filled) :
    Pom.Reading.managedEntry (dependencyNode space m) = some m.reread := by
  have hexclusions : (Pom.Reading.inside (dependencyNode space m) "exclusions"
      "exclusion").filterMap Pom.Reading.artifactOf =
      m.exclusions.map fun e => (Text.strip e.group, Text.strip e.artifact) := by
    rw [inside_exclusions, List.filterMap_map, ← List.filterMap_eq_map]
    refine List.filterMap_congr fun e he => ?_
    exact artifactOf_exclusionNode (h.exclusions e he).1 (h.exclusions e he).2
  simp only [Pom.Reading.managedEntry, Pom.Reading.artifactOf, hexclusions,
    childText_dependencyNode (show "groupId" ≠ "exclusions" by decide),
    childText_dependencyNode (show "artifactId" ≠ "exclusions" by decide),
    childText_dependencyNode (show "version" ≠ "exclusions" by decide),
    childText_dependencyNode (show "classifier" ≠ "exclusions" by decide),
    childText_dependencyNode (show "scope" ≠ "exclusions" by decide),
    childText_dependencyNode (show "type" ≠ "exclusions" by decide), value?, Option.bind_some,
    Text.filled?_of_not_isBlank h.group, Text.filled?_of_not_isBlank h.artifact]
  rfl

end Publish

/-! ### From the values -/

variable {s : Source} {m : Managed} {pom : Pom}

lemma Text.Clean.substitute_eq {t : String} (h : Clean t) : s.substitute t = t :=
  Source.substitute_of_not_unresolved h.closed

lemma substitute?_eq {v : Option String} (h : ∀ t ∈ v, Text.Clean t) : s.substitute? v = v := by
  cases v with
  | none => rfl
  | some t => exact congrArg some (h t rfl).substitute_eq

namespace Managed

lemma raw_isImport : m.raw.isImport = m.isImport := (m.isImport_eq m.raw rfl rfl).symm

/-- Whatever the properties are, an entry that is read back gives the entry itself. -/
lemma managedEntry_raw (h : m.Clean) (hproper : m.Proper) {v : String} (hv : m.version = some v) :
    Resolver.managedEntry s m.raw v = .ok m := by
  refine managedEntry_eq_ok.2 ⟨m.exclusions, m.coordinates, mapM_eq_ok.2 ?_, ?_, ?_⟩
  · rw [raw, List.forall₂_map_left_iff, List.forall₂_same]
    intro e he
    obtain ⟨hg, ha⟩ := h.exclusions e he
    rw [hg.substitute_eq, ha.substitute_eq]
    exact Owner.make_eq_ok.2 ⟨hg.filled, ha.filled, rfl⟩
  · refine Owner.make_eq_ok.2 ⟨?_, ?_, ?_⟩
    · rw [raw, h.group.substitute_eq]
      exact h.group.filled
    · rw [raw, h.artifact.substitute_eq]
      exact h.artifact.filled
    · rw [raw, h.group.substitute_eq, h.artifact.substitute_eq, ← hv]
      rfl
  · rw [raw, substitute?_eq h.classifier, Managed.make, eraseDups_of_nodup hproper.exclusions]

end Managed

lemma ofEntry_raw {tables : Coordinates → List Managed} {level : Nat} (h : m.Clean)
    (hproper : m.Proper) :
    Candidate.ofEntry tables s level pom m.raw = .ok [⟨level, m⟩] := by
  obtain ⟨v, hv⟩ := Option.ne_none_iff_exists'.1 hproper.versioned
  have hclean : Text.Clean v := h.version v hv
  have hversion : Text.nonempty? (s.substitute? m.raw.version) = some v := by
    rw [Managed.raw, substitute?_eq h.version, hv, hclean.nonempty?_eq]
  rw [Candidate.ofEntry, Managed.raw_isImport, hproper.notImport, hversion]
  simp only [Bool.false_eq_true, if_false]
  rw [Managed.managedEntry_raw h hproper hv]
  rfl

lemma importCoordinates_raw {c : Coordinates} (h : (Managed.importOf c).Clean)
    (hversion : c.version ≠ none) :
    Resolver.importCoordinates s pom (Managed.importOf c).raw = .ok c := by
  obtain ⟨v, hv⟩ := Option.ne_none_iff_exists'.1 hversion
  have hclean : Text.Clean v := h.version v hv
  have hsubstitute : s.substitute? (Managed.importOf c).version = some v :=
    (substitute?_eq h.version).trans hv
  simp only [Resolver.importCoordinates, Managed.raw, hsubstitute, h.group.substitute_eq,
    h.artifact.substitute_eq, h.group.closed, h.artifact.closed, hclean.closed, Bool.or_self,
    Bool.false_eq_true, if_false]
  refine Owner.make_eq_ok.2 ⟨h.group.filled, h.artifact.filled, ?_⟩
  rw [← hv]
  rfl

lemma ofEntry_importOf {tables : Coordinates → List Managed} {level : Nat} {c : Coordinates}
    (h : (Managed.importOf c).Clean) (hversion : c.version ≠ none) :
    Candidate.ofEntry tables s level pom (Managed.importOf c).raw =
      .ok ((tables c).map fun m => ⟨Candidate.importedRank, m⟩) := by
  have himport : (Managed.importOf c).raw.isImport = true := by
    rw [Managed.raw_isImport]
    simp [Managed.isImport, Managed.importOf, Managed.make]
  rw [Candidate.ofEntry, himport, if_pos rfl, importCoordinates_raw h hversion]
  rfl

end BomTable
