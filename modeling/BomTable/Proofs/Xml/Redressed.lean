import BomTable.Xml.Navigation
import Mathlib.Data.List.Forall2

/-!
Trees that differ in dress only: elements are in other namespaces and remarks stand between the
nodes. Where the own text of an element is read, nothing is put into it. A value taken from a tree
is fixed by the places whose own texts are read, if no change of dress that spares these places
changes it; one rule for each way down a tree gives the places from those in the children.
-/

namespace BomTable.Xml

/-- The way from an element to one below it: the numbers of the children to go to. -/
abbrev Place := List Nat

/-- The second content is the first in another dress. The children of the first are numbered from
`i` on. `read` holds at the places whose own text is read, where `[]` is the element of the content:
in that one no remark is added and no text is cut. -/
inductive Interspersed : (Place → Prop) → Nat → List Node → List Node → Prop
  | nil {read i} : Interspersed read i [] []
  | text {read i s rest rest'} (hrest : Interspersed read i rest rest') :
    Interspersed read i (.text s :: rest) (.text s :: rest')
  | element {read i name attributes content content' rest rest'} (uri : Option String)
    (hcontent : Interspersed (fun q => read (i :: q)) 0 content content')
    (hrest : Interspersed read (i + 1) rest rest') :
    Interspersed read i (.element name attributes content :: rest)
      (.element ⟨uri, name.localPart⟩ attributes content' :: rest')
  | remark {read i r content rest rest'} (hrest : Interspersed read (i + 1) rest rest') :
    Interspersed read i (.remark r content :: rest) (.remark r content :: rest')
  | insert {read i rest rest'} (r : Remark) (content : List Node) (hfree : ¬ read [])
    (hrest : Interspersed read i rest rest') :
    Interspersed read i rest (.remark r content :: rest')
  | cut {read i rest rest'} (s t : String) (hfree : ¬ read [])
    (hrest : Interspersed read i (.text s :: .text t :: rest) rest') :
    Interspersed read i (.text (s ++ t) :: rest) rest'

namespace Node

/-- The second element is the first in another dress: it is in any namespace or none, and so is
every element in it, and remarks were added to any element but those at a place whose own text is
read. -/
inductive Redressed (read : Place → Prop) : Node → Node → Prop
  | element {name attributes content content'} (uri : Option String)
    (hcontent : Interspersed read 0 content content') :
    Redressed read (.element name attributes content)
      (.element ⟨uri, name.localPart⟩ attributes content')

/-! ### Places -/

/-- The children of a kind, with their numbers among all children. -/
def numbered (kind : Node → Bool) (n : Node) : List (Node × Nat) :=
  n.children.zipIdx.filter fun c => kind c.1

/-- The places in one of the numbered children. -/
def within (places : Node → List Place) (c : Node × Nat) : List Place :=
  (places c.1).map (c.2 :: ·)

/-- The places in all children of a kind. -/
def inEach (kind : Node → Bool) (places : Node → List Place) (n : Node) : List Place :=
  (n.numbered kind).flatMap (within places)

/-- The places in the first child with a local name. -/
def inFirst (tag : String) (places : Node → List Place) (n : Node) : List Place :=
  ((n.numbered fun c => c.localName = tag).take 1).flatMap (within places)

/-- The place of the element itself. -/
def here (_ : Node) : List Place := [[]]

/-- The places of the texts of children. -/
def textPlaces (tags : List String) (n : Node) : List Place :=
  tags.flatMap fun tag => n.inFirst tag here

/-! ### What another dress leaves -/

variable {read : Place → Prop} {i : Nat} {n n' : Node} {before after : List Node} {tag : String}
  {kind : Node → Bool}

lemma leadingText_interspersed (h : Interspersed read i before after) (hread : read []) :
    leadingText after = leadingText before := by
  induction h with
  | text hrest ih => rw [leadingText, leadingText, ih hread]
  | insert r content hfree => exact absurd hread hfree
  | cut s t hfree => exact absurd hread hfree
  | _ => rfl

lemma ownText_redressed (h : Redressed read n n') (hread : read []) : n'.ownText = n.ownText := by
  cases h with
  | element uri hcontent => simp only [ownText, leadingText_interspersed hcontent hread]

lemma localName_redressed (h : Redressed read n n') : n'.localName = n.localName := by
  cases h with
  | element => rfl

lemma interspersed_mono {read' : Place → Prop} (h : Interspersed read i before after)
    (hless : ∀ q, read' q → read q) : Interspersed read' i before after := by
  induction h generalizing read' with
  | nil => exact .nil
  | text _ ih => exact .text (ih hless)
  | element uri _ _ ihcontent ih =>
    exact .element uri (ihcontent fun q hq => hless _ hq) (ih hless)
  | remark _ ih => exact .remark (ih hless)
  | insert r content hfree _ ih => exact .insert r content (fun h => hfree (hless [] h)) (ih hless)
  | cut s t hfree _ ih => exact .cut s t (fun h => hfree (hless [] h)) (ih hless)

lemma Redressed.mono {read' : Place → Prop} (h : Redressed read n n')
    (hless : ∀ q, read' q → read q) : Redressed read' n n' := by
  cases h with
  | element uri hcontent => exact .element uri (interspersed_mono hcontent hless)

/-- A kind of elements that has nothing to do with their namespaces and contents. -/
structure Nominal (kind : Node → Bool) : Prop where
  remark : ∀ r content, kind (.remark r content) = false
  element : ∀ name uri attributes content content',
    kind (.element ⟨uri, name.localPart⟩ attributes content') =
      kind (.element name attributes content)

lemma nominal_localName (htag : tag ≠ "") : Nominal fun c => c.localName = tag where
  remark _ _ := decide_eq_false htag.symm
  element _ _ _ _ _ := rfl

lemma nominal_isElement : Nominal fun c => c.name?.isSome where
  remark _ _ := rfl
  element _ _ _ _ _ := rfl

lemma forall₂_interspersed (hkind : Nominal kind) (h : Interspersed read i before after) :
    List.Forall₂ (fun c c' => Redressed (fun q => read (c.2 :: q)) c.1 c')
      (((before.filter fun c => !c.isText).zipIdx i).filter fun c => kind c.1)
      ((after.filter fun c => !c.isText).filter kind) := by
  induction h with
  | nil => exact .nil
  | text hrest ih => exact ih
  | @element read i name attributes content content' rest rest' uri hcontent hrest _ ih =>
    have hkeep := hkind.element name uri attributes content content'
    simp only [List.filter_cons, isText, Bool.not_false, if_true, List.zipIdx_cons, hkeep]
    split_ifs
    · exact .cons (.element uri hcontent) ih
    · exact ih
  | remark hrest ih =>
    simpa only [List.filter_cons, isText, Bool.not_false, if_true, List.zipIdx_cons, hkind.remark,
      Bool.false_eq_true, if_false] using ih
  | insert r content _ hrest ih =>
    simpa only [List.filter_cons, isText, Bool.not_false, if_true, hkind.remark,
      Bool.false_eq_true, if_false] using ih
  | cut s t _ hrest ih => exact ih

lemma forall₂_redressed (hkind : Nominal kind) (h : Redressed read n n') :
    List.Forall₂ (fun c c' => Redressed (fun q => read (c.2 :: q)) c.1 c') (n.numbered kind)
      (n'.children.filter kind) := by
  cases h with
  | element uri hcontent => exact forall₂_interspersed hkind hcontent

/-! ### Values fixed by the texts at some places -/

variable {β γ : Type} {places : Node → List Place} {value : Node → β}

/-- Another dress that spares the own texts at the places changes nothing in the value. -/
def FixedBy (places : Node → List Place) (value : Node → β) : Prop :=
  ∀ ⦃read n n'⦄, Redressed read n n' → (∀ q ∈ places n, read q) → value n' = value n

lemma fixedBy_ownText : FixedBy here ownText := fun _ _ _ hn hread =>
  ownText_redressed hn (hread [] List.mem_cons_self)

lemma FixedBy.map (f : β → γ) (h : FixedBy places value) : FixedBy places fun n => f (value n) :=
  fun _ _ _ hn hread => congrArg f (h hn hread)

lemma map_fst_numbered (n : Node) (kind : Node → Bool) :
    (n.numbered kind).map Prod.fst = n.children.filter kind := by
  conv_rhs => rw [← List.zipIdx_map_fst 0 n.children, List.filter_map]
  rfl

/-- The values of some nodes in two dresses, if the places in them are spared. -/
lemma FixedBy.map_eq (h : FixedBy places value) {numbered : List (Node × Nat)} {nodes : List Node}
    (hnodes : List.Forall₂ (fun c c' => Redressed (fun q => read (c.2 :: q)) c.1 c') numbered nodes)
    (hread : ∀ q ∈ numbered.flatMap (within places), read q) :
    nodes.map value = (numbered.map Prod.fst).map value := by
  induction hnodes with
  | nil => rfl
  | @cons c c' numbered nodes hc hnodes ih =>
    have hvalue : value c' = value c.1 := h hc fun q hq =>
      hread _ (List.mem_append_left _ (List.mem_map_of_mem hq))
    rw [List.map_cons, hvalue, ih fun q hq => hread q (List.mem_append_right _ hq)]
    rfl

lemma FixedBy.inEach (hkind : Nominal kind) (h : FixedBy places value) :
    FixedBy (inEach kind places) fun n => (n.children.filter kind).map value :=
  fun _ n _ hn hread =>
    (h.map_eq (forall₂_redressed hkind hn) hread).trans
      (congrArg (List.map value) (map_fst_numbered n kind))

lemma FixedBy.inFirst (htag : tag ≠ "") (h : FixedBy places value) :
    FixedBy (inFirst tag places) fun n => (n.findChild tag).map value := by
  have hfirst : ∀ m : Node, (m.findChild tag).map value =
      (((m.children.filter fun c => c.localName = tag).take 1).map value).head? := fun m => by
    rw [findChild, ← List.head?_filter, List.head?_map, List.head?_take, if_neg Nat.one_ne_zero]
  simp only [hfirst]
  refine FixedBy.map List.head? fun read n n' hn hread => ?_
  rw [h.map_eq (List.forall₂_take 1 (forall₂_redressed (nominal_localName htag) hn)) hread,
    List.map_take, map_fst_numbered]

lemma FixedBy.inFirst_bind {value : Node → Option β} (htag : tag ≠ "")
    (h : FixedBy places value) :
    FixedBy (Node.inFirst tag places) fun n => (n.findChild tag).bind value := by
  have hbind := (h.inFirst htag).map fun v => v.bind id
  simpa only [Option.bind_map, Function.id_comp] using hbind

lemma fixedBy_childText (htag : tag ≠ "") :
    FixedBy (inFirst tag here) fun n => n.childText tag :=
  (fixedBy_ownText.inFirst_bind htag).map fun text => text.bind Text.filled?

lemma childText_redressed {tags : List String} (htags : "" ∉ tags) (hn : Redressed read n n')
    (hread : ∀ q ∈ n.textPlaces tags, read q) :
    ∀ tag ∈ tags, n'.childText tag = n.childText tag := fun tag hmem =>
  fixedBy_childText (fun h => htags (h ▸ hmem)) hn fun q hq =>
    hread q (List.mem_flatMap.2 ⟨tag, hmem, hq⟩)

end Node

end BomTable.Xml
