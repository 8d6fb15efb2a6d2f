import BomTable.Proofs.Publish.Editing
import BomTable.Proofs.Publish.Reading

/-!
What is read of a POM that has been extended. Where the managed dependencies are looked for, and made
if they are missing, before the new entries are added, is where they are read from. So the new entries
are read behind those that were read before, and nothing else that is read has changed.
-/

namespace BomTable

open Xml (Node)

namespace Pom.Reading

variable {root root' : Node}

/-- The same is read of two trees, but for more managed dependencies at the end of those of the
second. -/
structure Extends (root root' : Node) (more : List RawEntry) : Prop where
  name : root'.localName = root.localName
  parent : parent root' = parent root
  coordinates : coordinates root' = coordinates root
  packaging : root'.childText "packaging" = root.childText "packaging"
  properties : properties root' = properties root
  dependencies : dependencies root' = dependencies root
  management : management root' = management root ++ more

lemma management_eq (outer inner : Xml.Name) :
    management root = ((((root.findChild "dependencyManagement").getD (.bare outer)).findChild
      "dependencies").getD (.bare inner) |>.findChildren "dependency").filterMap managedEntry := by
  rw [management, Node.findPath_management]
  cases root.findChild "dependencyManagement" with
  | none => rfl
  | some m =>
    rw [Option.bind_some, Option.getD_some]
    cases m.findChild "dependencies" <;> rfl

/-- The element that grows is the one that managed dependencies are read from. -/
lemma exists_section {nodes : List Node}
    (h : Node.ChangesChild "dependencyManagement" (Node.ChangesChild "dependencies"
      (Node.Appends nodes)) root root') :
    ∃ d d', Node.Appends nodes d d' ∧
      management root = (d.findChildren "dependency").filterMap managedEntry ∧
      management root' = (d'.findChildren "dependency").filterMap managedEntry := by
  obtain ⟨m', hm, hfound⟩ := h.exists_findChild ⟨by decide, by decide, by decide⟩
    fun _ _ hm => hm.localName_eq
  obtain ⟨d', hd, hfound'⟩ := hm.exists_findChild ⟨by decide, by decide, by decide⟩
    fun _ _ hd => hd.localName_eq
  refine ⟨_, d', hd, management_eq _ _, ?_⟩
  rw [management, Node.findPath_management, hfound, Option.bind_some, hfound']

theorem Extends.of_changes {nodes : List Node}
    (h : Node.ChangesChild "dependencyManagement" (Node.ChangesChild "dependencies"
      (Node.Appends nodes)) root root')
    (hnodes : ∀ n ∈ nodes, n.isText = false ∧ n.localName = "dependency") :
    Extends root root' (nodes.filterMap managedEntry) := by
  have hchild : ∀ tag, tag ≠ "" → tag ≠ "dependencyManagement" →
      root'.findChild tag = root.findChild tag := fun _ hfilled hne =>
    h.findChild_of_ne ⟨by decide, by decide, by decide⟩ (fun _ _ hc => hc.localName_eq) hfilled hne
  have htext : ∀ tag, tag ≠ "" → tag ≠ "dependencyManagement" →
      root'.childText tag = root.childText tag := fun tag hfilled hne => by
    rw [Node.childText, hchild tag hfilled hne, Node.childText]
  constructor
  case name => exact h.localName_eq
  case parent => rw [Reading.parent, hchild "parent" (by decide) (by decide), Reading.parent]
  case coordinates =>
    funext p
    rw [Reading.coordinates, htext "groupId" (by decide) (by decide),
      htext "artifactId" (by decide) (by decide), htext "version" (by decide) (by decide),
      Reading.coordinates]
  case packaging => exact htext "packaging" (by decide) (by decide)
  case properties =>
    rw [Reading.properties, hchild "properties" (by decide) (by decide), Reading.properties]
  case dependencies =>
    rw [Reading.dependencies, inside, hchild "dependencies" (by decide) (by decide),
      Reading.dependencies, inside]
  case management =>
    obtain ⟨d, d', hd, hbefore, hafter⟩ := exists_section h
    cases hd with
    | element =>
      rw [hbefore, hafter, Node.findChildren_append, List.filterMap_append,
        Node.findChildren_eq hnodes]

lemma Extends.ofNode_eq {more : List RawEntry} (h : Extends root root' more) :
    Pom.ofNode root' = (Pom.ofNode root).map fun pom =>
      { pom with management := pom.management ++ more } := by
  unfold Pom.ofNode
  rw [h.name, h.parent, h.coordinates, h.packaging, h.properties, h.dependencies, h.management]
  split_ifs
  · dsimp only
    cases Reading.coordinates root (Reading.parent root) <;> rfl
  · rfl

end Pom.Reading

namespace Publish

variable {root : Node} {entries : List Managed}

theorem extends_addEntries (hproject : root.localName = "project")
    (h : ∀ m ∈ entries, m.Filled) :
    Pom.Reading.Extends root (addEntries root entries) (entries.map Managed.reread) := by
  have hread : (entries.map (dependencyNode root.space?)).filterMap Pom.Reading.managedEntry =
      entries.map Managed.reread := by
    rw [List.filterMap_map, ← List.filterMap_eq_map]
    exact List.filterMap_congr fun m hm => managedEntry_dependencyNode (h m hm)
  rw [← hread]
  refine .of_changes (changesChild_addEntries hproject entries) fun n hn => ?_
  obtain ⟨m, -, rfl⟩ := List.mem_map.1 hn
  exact ⟨rfl, Node.localName_within (by decide)⟩

end Publish

end BomTable
