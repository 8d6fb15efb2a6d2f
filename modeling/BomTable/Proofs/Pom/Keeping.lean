import BomTable.Pom.Document
import BomTable.Proofs.Pom.Printing
import BomTable.Proofs.Xml.Rereading

/-!
Names that are kept when a POM is written. A text or octets that can be read give a legible tree,
and the registry that the tree is written with has the empty short form for its own namespace. So
the names of the POM are kept if and only if its tree is writable for that namespace.
-/

namespace BomTable

open Xml (Node Name Registry)

variable {content : Content} {root : Node} {u : String}

lemma Content.legible_of_node (h : content.node false = .ok root) :
    root.Legible ∧ root.isElement = true := by
  cases content with
  | text s =>
    cases hs : Node.ofText false s with
    | none =>
      rw [node, hs] at h
      cases h
    | some n =>
      rw [node, hs] at h
      cases h
      obtain ⟨⟨declaration, rest⟩, -, hrest⟩ := Option.bind_eq_some_iff.1 hs
      exact Node.legible_of_ofRest hrest
  | bytes b =>
    rw [node] at h
    unfold Node.ofBytes at h
    dsimp only at h
    split at h
    case h_1 => cases h
    case h_2 declaration rest _ =>
      cases hencoding : (Xml.Outset.detect b).1.encodingBehind declaration with
      | error fault =>
        rw [hencoding] at h
        cases h
      | ok encoding =>
        rw [hencoding] at h
        dsimp only [bind, Except.bind] at h
        split at h
        case h_1 n hn =>
          cases h
          obtain ⟨cs, -, hrest⟩ := Option.bind_eq_some_iff.1 hn
          exact Node.legible_of_ofRest hrest
        case h_2 => cases h

namespace Pom

lemma marks_registryFor (root : Node) : (registryFor .start root).Marks (ownSpace root) := by
  intro u
  have hstart : Registry.start = registered [] := rfl
  rw [hstart, registryFor_registered, List.nil_append, find?_registered, find?_registered]
  cases ownSpace root with
  | none => simp
  | some own =>
    by_cases hown : own = u
    · simp [hown]
    · simp [hown, Ne.symm hown]

lemma mem_uris_of_ownSpace (hroot : root.Legible) (h : ownSpace root = some u) : u ∈ root.uris := by
  cases hroot with
  | text => cases h
  | @element name attributes content hname hlocal _ _ _ _ =>
    cases huri : name.uri with
    | some v =>
      obtain ⟨hfilled, -, hclosing, -⟩ := hname.uri v huri
      cases h.symm.trans (ownSpace_element huri hfilled hclosing)
      exact List.mem_filterMap.2 ⟨name, List.mem_cons_self, huri⟩
    | none =>
      -- a name without a namespace begins with no brace, so none is found in it
      obtain ⟨c, cs, hcs, hc, -⟩ := hlocal
      have hbrace : c ≠ '{' := Xml.ne_of_inName (Xml.inName_of_beginsName hc) (by decide)
      have hspace : name.space? = none := by
        rw [Name.space?, Name.expanded, huri]
        dsimp only
        rw [hcs]
        split
        · next heq => exact absurd (List.cons.inj heq).1 hbrace
        · rfl
      rw [ownSpace, Node.space?, hspace] at h
      cases h

lemma node_serialize (root : Node) :
    (Content.text (serialize .start root "").2).node false =
      match Node.ofText false (root.serialize (registryFor .start root)) with
      | some root' => .ok root'
      | none => .error .malformed := by
  have htext : (serialize .start root "").2 = root.serialize (registryFor .start root) :=
    String.append_empty
  cases hread : Node.ofText false (root.serialize (registryFor .start root)) <;>
    simp only [Content.node, htext, hread]

/-- **What a writable POM is read as** once it is written: itself, with a line feed at the end of
every line. -/
theorem node_serialize_of_writable (h : content.node false = .ok root)
    (hwritable : root.Writable (ownSpace root)) :
    (Content.text (serialize .start root "").2).node false = .ok root.withLineFeeds := by
  obtain ⟨hroot, helement⟩ := Content.legible_of_node h
  rw [node_serialize, hwritable.ofText_serialize_eq hroot (marks_registryFor root)
    (fun _ => mem_uris_of_ownSpace hroot) helement]

/-- **When writing a POM keeps its names.** What is written is read with all elements inside each
other as they were, with the names and attributes that they had, if and only if the tree is writable
for the namespace of its root. -/
theorem names_kept_iff (h : content.node false = .ok root) :
    (∃ root', (Content.text (serialize .start root "").2).node false = .ok root' ∧
        root'.withoutTexts = root.withoutTexts) ↔ root.Writable (ownSpace root) := by
  refine ⟨?_, fun hwritable => ⟨root.withLineFeeds, node_serialize_of_writable h hwritable,
    root.withoutTexts_withLineFeeds⟩⟩
  rintro ⟨root', hroot', hsame⟩
  obtain ⟨hroot, helement⟩ := Content.legible_of_node h
  rw [node_serialize] at hroot'
  cases hread : Node.ofText false (root.serialize (registryFor .start root)) with
  | none =>
    rw [hread] at hroot'
    cases hroot'
  | some n =>
    rw [hread] at hroot'
    cases hroot'
    exact Xml.writable_of_ofText_serialize hroot (marks_registryFor root)
      (fun _ => mem_uris_of_ownSpace hroot) helement hread hsame

/-- An element without a namespace gets that of a root in one, which was written with a short form
before. Where every element is in a namespace, an attribute may be in another. -/
theorem names_kept_iff_short :
    let bare : Node := .element ⟨some "u", "project"⟩ [] [.element ⟨none, "x"⟩ [] []]
    let filled : Node := .element ⟨some "u", "project"⟩ [(⟨some "v", "y"⟩, "1")]
      [.element ⟨some "v", "x"⟩ [] []]
    (Content.text "<p:project xmlns:p=\"u\"><x/></p:project>").node false = .ok bare ∧
      (serialize .start bare "").2 = "<project xmlns=\"u\"><x /></project>" ∧
      (¬ ∃ root', (Content.text (serialize .start bare "").2).node false = .ok root' ∧
        root'.withoutTexts = bare.withoutTexts) ∧
      (Content.text "<p:project xmlns:p=\"u\" xmlns=\"v\" xmlns:q=\"v\" q:y=\"1\"><x/></p:project>"
        ).node false = .ok filled ∧
      (serialize .start filled "").2 =
        "<project xmlns=\"u\" xmlns:ns1=\"v\" ns1:y=\"1\"><ns1:x /></project>" ∧
      ∃ root', (Content.text (serialize .start filled "").2).node false = .ok root' ∧
        root'.withoutTexts = filled.withoutTexts := by
  intro bare filled
  have hbare : (Content.text "<p:project xmlns:p=\"u\"><x/></p:project>").node false =
      .ok bare := rfl
  have hfilled : (Content.text
      "<p:project xmlns:p=\"u\" xmlns=\"v\" xmlns:q=\"v\" q:y=\"1\"><x/></p:project>").node false =
        .ok filled := rfl
  have hlost : ¬ bare.Writable (ownSpace bare) := fun h =>
    (h.kept (⟨none, "x"⟩, []) (by decide) "u" rfl).1 rfl
  have hkept : filled.Writable (ownSpace filled) := by
    have helements : filled.elements =
        [(⟨some "u", "project"⟩, [(⟨some "v", "y"⟩, "1")]), (⟨some "v", "x"⟩, [])] := rfl
    have hown : ownSpace filled = some "u" := rfl
    refine ⟨?_, by decide, ?_⟩
    · have hname : Xml.IsName "y".toList := ⟨'y', [], rfl, by decide, List.forall_mem_nil _⟩
      simpa [Node.Stray, helements] using hname
    · rw [helements, hown]
      intro e he u hu
      cases hu
      revert e
      decide
  exact ⟨hbare, by decide, (names_kept_iff hbare).not.2 hlost, hfilled, by decide,
    (names_kept_iff hfilled).2 hkept⟩

end Pom

end BomTable
