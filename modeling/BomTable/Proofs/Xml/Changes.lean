import BomTable.Proofs.Xml.Navigation
import BomTable.Publish.Editing

/-!
Changes of trees. A change to the first child with a local name leaves everything else in a tree as
it is, and where no child has the name, a new one is added behind all others. Two such changes one
after the other are one, as long as the first keeps the name of the child.
-/

namespace BomTable.Xml.Node

variable {tag : String} {f g : Node → Node} {n c : Node} {before after content : List Node}

/-! ### The first child with a name -/

lemma findChild_eq (htag : tag ≠ "") :
    n.findChild tag = n.content.find? fun c => c.localName = tag := by
  rw [findChild, children, List.find?_filter]
  refine congrArg (fun p => n.content.find? p) (funext fun c => ?_)
  cases c <;> simp [isText, localName, Ne.symm htag]

lemma isText_of_localName (htag : tag ≠ "") (hc : c.localName = tag) : c.isText = false := by
  cases c with
  | text s => exact absurd hc.symm htag
  | _ => rfl

lemma updateFirst_append (htag : tag ≠ "") (hbefore : ∀ b ∈ before, b.localName ≠ tag)
    (hc : c.localName = tag) :
    updateFirst tag f (before ++ c :: after) = before ++ f c :: after := by
  induction before with
  | nil => simp [updateFirst, hc, isText_of_localName htag hc]
  | cons b before ih =>
    have hb : b.localName ≠ tag := hbefore b List.mem_cons_self
    rw [List.cons_append, updateFirst, ih fun x hx => hbefore x (List.mem_cons_of_mem b hx)]
    simp [hb]

/-! ### Changes of the content -/

lemma content_mapContent (hn : n.isText = false) (F : List Node → List Node) :
    (n.mapContent F).content = F n.content := by
  cases n with
  | text s => cases hn
  | _ => rfl

lemma mapContent_mapContent (F G : List Node → List Node) :
    (n.mapContent F).mapContent G = n.mapContent (G ∘ F) := by
  cases n <;> rfl

lemma split_or_none (n : Node) (tag : String) :
    (∃ before c after, n.content = before ++ c :: after ∧ (∀ b ∈ before, b.localName ≠ tag) ∧
      c.localName = tag) ∨ ∀ b ∈ n.content, b.localName ≠ tag := by
  cases h : n.content.find? fun c => c.localName = tag with
  | none => exact .inr (by simpa using List.find?_eq_none.1 h)
  | some c =>
    obtain ⟨hc, before, after, hcontent, hbefore⟩ := List.find?_eq_some_iff_append.1 h
    exact .inl ⟨before, c, after, hcontent, by simpa using hbefore, by simpa using hc⟩

lemma findChild_of_split (htag : tag ≠ "") (hcontent : n.content = before ++ c :: after)
    (hbefore : ∀ b ∈ before, b.localName ≠ tag) (hc : c.localName = tag) :
    n.findChild tag = some c := by
  rw [findChild_eq htag, hcontent, List.find?_eq_some_iff_append]
  exact ⟨by simpa using hc, before, after, rfl, by simpa using hbefore⟩

lemma findChild_of_not_mem (htag : tag ≠ "") (hnone : ∀ b ∈ n.content, b.localName ≠ tag) :
    n.findChild tag = none := by
  rw [findChild_eq htag, List.find?_eq_none]
  simpa using hnone

lemma withChild_of_split (htag : tag ≠ "") (hcontent : n.content = before ++ c :: after)
    (hbefore : ∀ b ∈ before, b.localName ≠ tag) (hc : c.localName = tag) :
    n.withChild tag f = n.mapContent fun _ => before ++ f c :: after := by
  rw [withChild, findChild_of_split htag hcontent hbefore hc]
  cases n with
  | text s => rfl
  | _ =>
    simp only [mapContent, Option.isSome_some, if_true]
    rw [content] at hcontent
    rw [hcontent, updateFirst_append htag hbefore hc]

lemma withChild_of_not_mem (htag : tag ≠ "") (hnone : ∀ b ∈ n.content, b.localName ≠ tag) :
    n.withChild tag f = n.mapContent fun content => content ++ [f (n.newChild tag)] := by
  rw [withChild, findChild_of_not_mem htag hnone]
  rfl

/-! ### One change after the other -/

/-- A tag that is not empty and has no braces that would be read as those around a namespace. -/
structure IsTag (tag : String) : Prop where
  filled : tag ≠ ""
  close : '}' ∉ tag.toList
  opening : tag.toList.head? ≠ some '{'

lemma localName_newChild (htag : IsTag tag) : (n.newChild tag).localName = tag := by
  rw [newChild_eq htag.close htag.opening]
  exact localName_within htag.close

/-- The change leaves the name of a node as it is. -/
def KeepsName (f : Node → Node) : Prop := ∀ n, (f n).localName = n.localName

lemma keepsName_id : KeepsName id := fun _ => rfl

lemma keepsName_withChild : KeepsName (withChild tag f) := fun n => by cases n <;> rfl

lemma withChild_withChild (htag : IsTag tag) (hf : KeepsName f) (n : Node) :
    (n.withChild tag f).withChild tag g = n.withChild tag (g ∘ f) := by
  by_cases hn : n.isText = true
  · cases n with
    | text s => rfl
    | _ => cases hn
  · rw [Bool.not_eq_true] at hn
    rcases n.split_or_none tag with ⟨before, c, after, hcontent, hbefore, hc⟩ | hnone
    · rw [withChild_of_split htag.filled hcontent hbefore hc,
        withChild_of_split htag.filled hcontent hbefore hc,
        withChild_of_split htag.filled (content_mapContent hn _) hbefore ((hf c).trans hc),
        mapContent_mapContent]
      rfl
    · have hnew : (f (n.newChild tag)).localName = tag := (hf _).trans (localName_newChild htag)
      rw [withChild_of_not_mem htag.filled hnone, withChild_of_not_mem htag.filled hnone,
        withChild_of_split htag.filled (content_mapContent hn _) hnone hnew, mapContent_mapContent]
      cases n <;> rfl

/-! ### What a change leaves as it is -/

/-- The only change is to the first child with a local name, or that a new one stands at the end. -/
inductive ChangesChild (tag : String) (R : Node → Node → Prop) : Node → Node → Prop where
  | found {name : Name} {attributes : List (Name × String)} {before after : List Node}
      {c c' : Node} (hbefore : ∀ b ∈ before, b.localName ≠ tag) (hc : c.localName = tag)
      (h : R c c') :
      ChangesChild tag R (.element name attributes (before ++ c :: after))
        (.element name attributes (before ++ c' :: after))
  | added {name : Name} {attributes : List (Name × String)} {content : List Node} {c' : Node}
      (hnone : ∀ b ∈ content, b.localName ≠ tag)
      (h : R (.element (.within tag (Node.element name attributes content).space?) [] []) c') :
      ChangesChild tag R (.element name attributes content)
        (.element name attributes (content ++ [c']))

/-- The only change is that more stands at the end of the content of an element. -/
inductive Appends (more : List Node) : Node → Node → Prop where
  | element {name : Name} {attributes : List (Name × String)} {content : List Node} :
      Appends more (.element name attributes content) (.element name attributes (content ++ more))

lemma exists_element (htag : tag ≠ "") (hn : n.localName = tag) :
    ∃ name attributes content, n = element name attributes content := by
  cases n with
  | element name attributes content => exact ⟨name, attributes, content, rfl⟩
  | _ => exact absurd hn.symm htag

lemma appends_append {more : List Node} (htag : tag ≠ "") (hn : n.localName = tag) :
    Appends more n (n.append more) := by
  obtain ⟨name, attributes, content, rfl⟩ := exists_element htag hn
  exact .element

lemma changesChild_withChild {R : Node → Node → Prop} {outer : String} (htag : IsTag tag)
    (houter : outer ≠ "") (hn : n.localName = outer)
    (hR : ∀ c, c.localName = tag → R c (f c)) : ChangesChild tag R n (n.withChild tag f) := by
  obtain ⟨name, attributes, content, rfl⟩ := exists_element houter hn
  rcases (element name attributes content).split_or_none tag with
    ⟨before, c, after, hcontent, hbefore, hc⟩ | hnone
  · rw [withChild_of_split htag.filled hcontent hbefore hc]
    rw [Node.content] at hcontent
    rw [hcontent]
    exact .found hbefore hc (hR c hc)
  · rw [withChild_of_not_mem htag.filled hnone]
    have hnew := hR _ (localName_newChild (n := element name attributes content) htag)
    rw [newChild_eq htag.close htag.opening] at hnew ⊢
    exact .added hnone hnew

/-! ### Finding children after a change -/

section

variable {R : Node → Node → Prop} {n' : Node} {other : String}

lemma ChangesChild.localName_eq (h : ChangesChild tag R n n') : n'.localName = n.localName := by
  cases h <;> rfl

lemma Appends.localName_eq {more : List Node} (h : Appends more n n') :
    n'.localName = n.localName := by
  cases h
  rfl

variable (h : ChangesChild tag R n n') (htag : IsTag tag)
  (hR : ∀ c c', R c c' → c'.localName = c.localName)

include h htag hR

lemma ChangesChild.findChild_of_ne (hother : other ≠ "") (hne : other ≠ tag) :
    n'.findChild other = n.findChild other := by
  rw [findChild_eq hother, findChild_eq hother]
  cases h with
  | found hbefore hc hcc' =>
    have hc' := (hR _ _ hcc').trans hc
    simp only [content, List.find?_append, List.find?_cons, hc, hc', hne.symm, decide_false]
  | added hnone hcc' =>
    have hc' := (hR _ _ hcc').trans (localName_within htag.close)
    simp only [content, List.find?_append, List.find?_cons, List.find?_nil, hc', hne.symm,
      decide_false, Option.or_none]

/-- The child that is changed is found changed; one that is missing is made before. -/
lemma ChangesChild.exists_findChild :
    ∃ c', R ((n.findChild tag).getD (bare (.within tag n.space?))) c' ∧
      n'.findChild tag = some c' := by
  cases h with
  | found hbefore hc hcc' =>
    rw [findChild_of_split htag.filled rfl hbefore hc]
    exact ⟨_, hcc', findChild_of_split htag.filled rfl hbefore ((hR _ _ hcc').trans hc)⟩
  | @added name attributes content c' hnone hcc' =>
    have hmissing : (element name attributes content).findChild tag = none :=
      findChild_of_not_mem htag.filled hnone
    rw [hmissing]
    exact ⟨_, hcc', findChild_of_split htag.filled rfl hnone
      ((hR _ _ hcc').trans (localName_within htag.close))⟩

end

end BomTable.Xml.Node
