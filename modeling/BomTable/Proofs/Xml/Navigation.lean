import BomTable.Xml.Navigation
import Mathlib.Tactic.Common

/-!
Elements made for a tag and where they are found again. A name made of a tag in a namespace has that
tag whatever the namespace is, as long as the tag has no braces. A path is followed child by child.
-/

namespace BomTable

namespace Text

variable {sep : Char} {cs front back : List Char}

lemma cut_eq_none (h : sep ∉ cs) : cut sep cs = none := by
  induction cs with
  | nil => rfl
  | cons c cs ih =>
    rw [List.mem_cons, not_or] at h
    rw [cut, if_neg (Ne.symm h.1), ih h.2, Option.map_none]

lemma not_mem_of_cut (h : cut sep cs = none) : sep ∉ cs := by
  induction cs with
  | nil => exact List.not_mem_nil
  | cons c cs ih =>
    rw [cut] at h
    split_ifs at h with hc
    simpa [Ne.symm hc] using ih (Option.map_eq_none_iff.1 h)

lemma cut_append (h : sep ∉ front) : cut sep (front ++ sep :: back) = some (front, back) := by
  induction front with
  | nil => simp [cut]
  | cons c front ih =>
    rw [List.mem_cons, not_or] at h
    rw [List.cons_append, cut, if_neg (Ne.symm h.1), ih h.2, Option.map_some]

lemma eq_of_cut (h : cut sep cs = some (front, back)) :
    cs = front ++ sep :: back ∧ sep ∉ front := by
  induction cs generalizing front with
  | nil => cases h
  | cons c cs ih =>
    rw [cut] at h
    split_ifs at h with hc
    · cases h
      rw [hc]
      exact ⟨rfl, List.not_mem_nil⟩
    · obtain ⟨⟨first, last⟩, hcut, heq⟩ := Option.map_eq_some_iff.1 h
      cases heq
      obtain ⟨rfl, hfirst⟩ := ih hcut
      exact ⟨rfl, by simpa [Ne.symm hc] using hfirst⟩

end Text

namespace Xml

/-! ### Names -/

namespace Name

variable {tag : String} {space : Option String}

lemma cutLast_eq_none {cs : List Char} (h : '}' ∉ cs) : cutLast cs = none := by
  rw [cutLast, Text.cut_eq_none (by simpa using h), Option.map_none]

lemma cutLast_append {uri cs : List Char} (h : '}' ∉ cs) :
    cutLast (uri ++ '}' :: cs) = some (uri, cs) := by
  have hrev : (uri ++ '}' :: cs).reverse = cs.reverse ++ '}' :: uri.reverse := by simp
  rw [cutLast, hrev, Text.cut_append (by simpa using h)]
  simp

lemma tag_within (h : '}' ∉ tag.toList) : (within tag space).tag = tag := by
  rw [Name.tag, within, cutLast_eq_none h]

lemma ofText_qualified (h : '}' ∉ tag.toList) (hopen : tag.toList.head? ≠ some '{') :
    ofText (qualified tag space) = within tag space := by
  unfold qualified within
  cases Text.nonempty? space with
  | none =>
    cases htag : tag.toList with
    | nil => simp [ofText, htag]
    | cons c cs =>
      rw [htag] at hopen
      have hc : c ≠ '{' := by simpa using hopen
      simp [ofText, htag, hc]
  | some uri =>
    have htext : ("\x7b" ++ uri ++ "\x7d" ++ tag).toList =
        '{' :: (uri.toList ++ '}' :: tag.toList) := by
      simp [String.toList_append]
    simp only [ofText, htext, cutLast_append h, String.ofList_toList]

end Name

/-! ### Children -/

namespace Node

variable {name : Name} {attributes : List (Name × String)} {content : List Node} {c : Node}
  {tag other : String}

lemma localName_within {space : Option String} (h : '}' ∉ tag.toList) :
    (element (.within tag space) attributes content).localName = tag :=
  Name.tag_within h

lemma findChild_nil : (element name attributes []).findChild tag = none := rfl

lemma findChild_append {more : List Node} :
    (element name attributes (content ++ more)).findChild tag =
      ((element name attributes content).findChild tag).or
        ((element name attributes more).findChild tag) := by
  simp only [findChild, children, Node.content, List.filter_append, List.find?_append]

lemma findChild_singleton (hc : c.isText = false) :
    (element name attributes [c]).findChild tag = if c.localName = tag then some c else none := by
  by_cases h : c.localName = tag <;> simp [findChild, children, Node.content, hc, h]

lemma findChildren_append {more : List Node} :
    (element name attributes (content ++ more)).findChildren tag =
      (element name attributes content).findChildren tag ++
        (element name attributes more).findChildren tag := by
  simp only [findChildren, children, Node.content, List.filter_append]

lemma findChildren_eq (h : ∀ n ∈ content, n.isText = false ∧ n.localName = tag) :
    (element name attributes content).findChildren tag = content := by
  rw [findChildren, children, Node.content, List.filter_filter, List.filter_eq_self]
  intro n hn
  simp [h n hn]

lemma findChildren_map {α : Type} {f : α → Node} {l : List α}
    (h : ∀ a, (f a).isText = false ∧ (f a).localName = tag) :
    (element name attributes (l.map f)).findChildren tag = l.map f := by
  refine findChildren_eq fun n hn => ?_
  obtain ⟨a, -, rfl⟩ := List.mem_map.1 hn
  exact h a

lemma findPath_management {n : Node} : n.findPath "dependencyManagement/dependencies" =
    (n.findChild "dependencyManagement").bind fun m => m.findChild "dependencies" := by
  have hfields : Text.fields '/' "dependencyManagement/dependencies" =
      ["dependencyManagement", "dependencies"] := by decide
  rw [findPath, hfields, follow]
  refine congrArg (Option.bind _) (funext fun m => ?_)
  rw [follow]
  cases m.findChild "dependencies" <;> rfl

lemma newChild_eq {n : Node} (h : '}' ∉ tag.toList) (hopen : tag.toList.head? ≠ some '{') :
    n.newChild tag = element (.within tag n.space?) [] [] := by
  rw [newChild, Name.ofText_qualified h hopen, bare]

end Node

end Xml

end BomTable
