import BomTable.Pom.Document
import BomTable.Proofs.Xml.Navigation
import BomTable.Proofs.Xml.Redressed

/-!
Reading a POM in another dress. What is read depends on local names and on the own texts of a few
elements, each of them the first of its name in its parent, so neither namespaces nor remarks
between the elements make a difference, not even to the reason for which a tree is refused.
-/

namespace BomTable.Pom

open Xml (Node Place)
open Xml.Node (Redressed FixedBy)

namespace Reading

/-! ### The places whose own texts are read -/

def parentPlaces (root : Node) : List Place :=
  root.inFirst "parent" (Node.textPlaces ["groupId", "artifactId", "version"])

/-- The places that coordinates come from. -/
def identityPlaces (root : Node) : List Place :=
  parentPlaces root ++ root.textPlaces ["groupId", "artifactId", "version"]

def propertyPlaces (root : Node) : List Place :=
  root.inFirst "properties" (Node.inEach (fun c => c.name?.isSome) Node.here)

def artifactPlaces (n : Node) : List Place := n.textPlaces ["groupId", "artifactId"]

/-- The places in an entry; where it has no group or no artifact, nothing else is read. -/
def entryPlaces (more : Node → List Place) (n : Node) : List Place :=
  artifactPlaces n ++ if (artifactOf n).isSome then more n else []

def exclusionPlaces (n : Node) : List Place :=
  n.inFirst "exclusions" (Node.inEach (fun c => c.localName = "exclusion") artifactPlaces)

def managedPlaces : Node → List Place :=
  entryPlaces fun n => n.textPlaces ["version", "classifier", "scope", "type"] ++ exclusionPlaces n

def managementPlaces (root : Node) : List Place :=
  root.inFirst "dependencyManagement"
    (Node.inFirst "dependencies"
      (Node.inEach (fun c => c.localName = "dependency") managedPlaces))

def declaredPlaces : Node → List Place :=
  entryPlaces (Node.textPlaces ["classifier", "version", "scope"])

def dependencyPlaces (root : Node) : List Place :=
  root.inFirst "dependencies" (Node.inEach (fun c => c.localName = "dependency") declaredPlaces)

end Reading

/-- The places whose own texts are read of a tree: of one that is no project there are none, and of
one without coordinates only those that coordinates come from. -/
def placesRead (root : Node) : List Place :=
  if root.localName = "project" then
    Reading.identityPlaces root ++
      if (Reading.coordinates root (Reading.parent root)).isOk then
        root.textPlaces ["packaging"] ++ Reading.propertyPlaces root ++
          Reading.managementPlaces root ++ Reading.dependencyPlaces root
      else []
  else []

namespace Reading

/-! ### What is read at them -/

lemma fixedBy_parent : FixedBy parentPlaces parent := by
  refine Node.FixedBy.inFirst_bind (by decide) fun read n n' hn hread => ?_
  have htext := Node.childText_redressed (by decide) hn hread
  rw [htext "groupId" (by decide), htext "artifactId" (by decide), htext "version" (by decide)]

lemma fixedBy_coordinates (inherited : Option Coordinates) :
    FixedBy (Node.textPlaces ["groupId", "artifactId", "version"])
      fun root => coordinates root inherited := fun read n n' hn hread => by
  have htext := Node.childText_redressed (by decide) hn hread
  simp only [coordinates, htext "groupId" (by decide), htext "artifactId" (by decide),
    htext "version" (by decide)]

lemma fixedBy_properties : FixedBy propertyPlaces properties := by
  have hpair : FixedBy Node.here fun c => (c.localName, Text.strip (c.ownText.getD "")) :=
    fun _ _ _ hn hread => by
      simp only [Node.localName_redressed hn, Node.fixedBy_ownText hn hread]
  have hentries : ∀ p : Node, (p.children.filterMap fun c =>
      c.name?.map fun name => (name.tag, Text.strip (c.ownText.getD ""))) =
        (p.children.filter fun c => c.name?.isSome).map
          fun c => (c.localName, Text.strip (c.ownText.getD "")) := fun p => by
    rw [← List.filterMap_eq_filter, List.map_filterMap]
    refine List.filterMap_congr fun c _ => ?_
    cases c <;> rfl
  have hproperties : ∀ root : Node, properties root =
      ((root.findChild "properties").map fun p => (p.children.filter fun c => c.name?.isSome).map
        fun c => (c.localName, Text.strip (c.ownText.getD ""))).elim ∅ Dict.ofList := fun root => by
    simp only [properties, hentries]
    cases root.findChild "properties" <;> rfl
  rw [funext hproperties]
  exact ((hpair.inEach Node.nominal_isElement).inFirst
    (by decide : "properties" ≠ "")).map fun found => found.elim ∅ Dict.ofList

lemma fixedBy_artifactOf : FixedBy artifactPlaces artifactOf := fun _ _ _ hn hread => by
  have htext := Node.childText_redressed (by decide) hn hread
  rw [artifactOf, htext "groupId" (by decide), htext "artifactId" (by decide), artifactOf]

lemma fixedBy_inside {β : Type} {places : Node → List Place} {entry : Node → Option β}
    (outer inner : String) (houter : outer ≠ "") (hinner : inner ≠ "")
    (h : FixedBy places entry) :
    FixedBy (Node.inFirst outer (Node.inEach (fun c => c.localName = inner) places))
      fun root => (inside root outer inner).filterMap entry := by
  have hinside : ∀ root : Node, (inside root outer inner).filterMap entry =
      ((root.findChild outer).map fun o => (o.children.filter fun c => c.localName = inner).map
        entry).elim [] (List.filterMap id) := fun root => by
    rw [inside]
    cases root.findChild outer with
    | none => rfl
    | some o => exact (List.filterMap_map (f := entry) (g := id)).symm
  rw [funext hinside]
  exact ((h.inEach (Node.nominal_localName hinner)).inFirst houter).map
    fun found => found.elim [] (List.filterMap id)

/-- An entry is made of its group and artifact, and of what else is read where it has both. -/
lemma fixedBy_entry {β : Type} {more : Node → List Place} {entry : Node → Option β}
    {value : String × String → Node → β}
    (hentry : ∀ n, entry n = (artifactOf n).map fun artifact => value artifact n)
    (h : ∀ artifact, FixedBy more (value artifact)) : FixedBy (entryPlaces more) entry := by
  intro read n n' hn hread
  have hartifact : artifactOf n' = artifactOf n :=
    fixedBy_artifactOf hn fun q hq => hread q (List.mem_append_left _ hq)
  rw [hentry, hentry, hartifact]
  cases hfound : artifactOf n with
  | none => rfl
  | some artifact =>
    have hmore : ∀ q ∈ more n, read q := fun q hq => by
      refine hread q (List.mem_append_right _ ?_)
      rwa [hfound, Option.isSome_some, if_pos rfl]
    rw [Option.map_some, Option.map_some, h artifact hn hmore]

lemma fixedBy_managedEntry : FixedBy managedPlaces managedEntry := by
  refine fixedBy_entry (fun n => by rw [managedEntry]; cases artifactOf n <;> rfl) ?_
  intro artifact read n n' hn hread
  have htext := Node.childText_redressed (by decide) hn fun q hq =>
    hread q (List.mem_append_left _ hq)
  have hexclusions := fixedBy_inside "exclusions" "exclusion" (by decide) (by decide)
    fixedBy_artifactOf hn fun q hq => hread q (List.mem_append_right _ hq)
  simp only [htext "version" (by decide), htext "classifier" (by decide),
    htext "scope" (by decide), htext "type" (by decide), hexclusions]

lemma fixedBy_declaredEntry : FixedBy declaredPlaces declaredEntry := by
  refine fixedBy_entry (fun n => by rw [declaredEntry]; cases artifactOf n <;> rfl) ?_
  intro artifact read n n' hn hread
  have htext := Node.childText_redressed (by decide) hn hread
  simp only [htext "classifier" (by decide), htext "version" (by decide),
    htext "scope" (by decide)]

lemma fixedBy_dependencies : FixedBy dependencyPlaces dependencies :=
  fixedBy_inside "dependencies" "dependency" (by decide) (by decide) fixedBy_declaredEntry

lemma fixedBy_management : FixedBy managementPlaces management := by
  have hmanagement : ∀ root : Node, management root =
      ((root.findChild "dependencyManagement").map fun m =>
        (inside m "dependencies" "dependency").filterMap managedEntry).getD [] := fun root => by
    rw [management, Node.findPath_management]
    cases root.findChild "dependencyManagement" with
    | none => rfl
    | some m =>
      rw [Option.bind_some, Option.map_some, Option.getD_some, inside]
      cases m.findChild "dependencies" <;> rfl
  have hentries := fixedBy_inside "dependencies" "dependency" (by decide) (by decide)
    fixedBy_managedEntry
  rw [funext hmanagement]
  exact (hentries.inFirst (by decide : "dependencyManagement" ≠ "")).map fun found => found.getD []

end Reading

lemma fixedBy_ofNode : FixedBy placesRead ofNode := by
  intro read root root' hroot hread
  rw [ofNode, ofNode, Node.localName_redressed hroot]
  by_cases hproject : root.localName = "project"
  · rw [if_pos hproject, if_pos hproject]
    rw [placesRead, if_pos hproject] at hread
    have hidentity : ∀ q ∈ Reading.identityPlaces root, read q := fun q hq =>
      hread q (List.mem_append_left _ hq)
    have hparent : Reading.parent root' = Reading.parent root :=
      Reading.fixedBy_parent hroot fun q hq => hidentity q (List.mem_append_left _ hq)
    have hcoordinates := Reading.fixedBy_coordinates (Reading.parent root) hroot fun q hq =>
      hidentity q (List.mem_append_right _ hq)
    simp only [hparent, hcoordinates]
    cases hfound : Reading.coordinates root (Reading.parent root) with
    | error defect => rfl
    | ok c =>
      rw [hfound] at hread
      have hrest : ∀ q ∈ root.textPlaces ["packaging"] ++ Reading.propertyPlaces root ++
          Reading.managementPlaces root ++ Reading.dependencyPlaces root, read q := fun q hq =>
        hread q (List.mem_append_right _ hq)
      simp only [List.mem_append] at hrest
      rw [Node.childText_redressed (by decide) hroot (fun q hq => hrest q (.inl (.inl (.inl hq))))
          "packaging" (by decide),
        Reading.fixedBy_properties hroot fun q hq => hrest q (.inl (.inl (.inr hq))),
        Reading.fixedBy_management hroot fun q hq => hrest q (.inl (.inr hq)),
        Reading.fixedBy_dependencies hroot fun q hq => hrest q (.inr hq)]
  · rw [if_neg hproject, if_neg hproject]

/-- **Reading ignores namespaces and remarks**: put the elements of a tree in any namespaces and
remarks between the nodes of any element whose own text is not read, and the POM read of the tree,
or the reason why it is none, is the same, and so are the declared dependencies where they are read
alone. -/
theorem ofNode_redressed (root root' : Node) :
    (Redressed (· ∈ placesRead root) root root' → ofNode root' = ofNode root) ∧
      (Redressed (· ∈ Reading.dependencyPlaces root) root root' →
        Reading.dependencies root' = Reading.dependencies root) :=
  ⟨fun h => fixedBy_ofNode h fun _ hq => hq, fun h => Reading.fixedBy_dependencies h fun _ hq => hq⟩

namespace Dressed

def leaf (space : Option String) (tag s : String) : Node := .element ⟨space, tag⟩ [] [.text s]

/-- One of its dependencies has no artifact, so its version is not read, nor is the second group. -/
def plain : Node :=
  .element ⟨none, "project"⟩ []
    [.text ("no" ++ "te"), leaf none "groupId" "g", leaf none "groupId" "h",
      leaf none "artifactId" "a",
      .element ⟨none, "properties"⟩ [] [leaf none "p" "1", leaf none "q" "2", leaf none "p" "3"],
      .element ⟨none, "dependencies"⟩ []
        [.element ⟨none, "dependency"⟩ [] [leaf none "groupId" "g", leaf none "version" "1"],
          .element ⟨none, "dependency"⟩ [] [leaf none "groupId" "x", leaf none "artifactId" "y"]]]

def comment : Node := .remark (.comment "c") []

def dressed : Node :=
  .element ⟨some "urn:m", "project"⟩ []
    [.text "no", comment, .text "te", leaf none "groupId" "g",
      .element ⟨some "urn:m", "groupId"⟩ [] [comment, .text "h"],
      leaf (some "urn:n") "artifactId" "a",
      .element ⟨some "urn:n", "properties"⟩ []
        [leaf none "p" "1", comment, leaf (some "urn:n") "q" "2", leaf (some "urn:n") "p" "3"],
      .element ⟨none, "dependencies"⟩ []
        [.remark (.instruction "i" "") [],
          .element ⟨some "urn:m", "dependency"⟩ []
            [leaf none "groupId" "g", .element ⟨none, "version"⟩ [] [comment, .text "1"]],
          .element ⟨some "urn:n", "dependency"⟩ []
            [leaf (some "urn:m") "groupId" "x", comment, leaf none "artifactId" "y"]]]

lemma redressed_dressed : Redressed (· ∈ placesRead plain) plain dressed := by
  refine .element _ (.cut "no" "te" (by decide) (.text (.insert _ _ (by decide) (.text ?_))))
  refine .element _ (.text .nil) (.element _ (.insert _ _ (by decide) (.text .nil)) ?_)
  refine .element _ (.text .nil) (.element _ ?_ (.element _ ?_ .nil))
  · refine .element _ (.text .nil) (.insert _ _ (by decide) ?_)
    exact .element _ (.text .nil) (.element _ (.text .nil) .nil)
  · refine .insert _ _ (by decide) (.element _ (.element _ (.text .nil) ?_) (.element _ ?_ .nil))
    · exact .element _ (.insert _ _ (by decide) (.text .nil)) .nil
    · exact .element _ (.text .nil) (.insert _ _ (by decide) (.element _ (.text .nil) .nil))

end Dressed

open Dressed in
theorem ofNode_dressed :
    Redressed (· ∈ placesRead plain) plain dressed ∧
      ofNode dressed = .ok ⟨⟨"g", "a", none⟩, none, "jar", .ofList [("p", "3"), ("q", "2")], [],
        [⟨"x", "y", none, none, none⟩]⟩ ∧
      Reading.dependencies dressed = [⟨"x", "y", none, none, none⟩] := by
  have hplaces : ∀ q ∈ Reading.dependencyPlaces plain, q ∈ placesRead plain := by decide
  obtain ⟨hpom, hdependencies⟩ := ofNode_redressed plain dressed
  exact ⟨redressed_dressed, (hpom redressed_dressed).trans (by decide),
    (hdependencies (redressed_dressed.mono hplaces)).trans (by decide)⟩

end BomTable.Pom
