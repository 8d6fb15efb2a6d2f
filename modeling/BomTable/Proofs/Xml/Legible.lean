import BomTable.Proofs.Property.Blank
import BomTable.Proofs.Xml.Doctype
import BomTable.Xml.Reader
import Mathlib.Data.List.Chain

/-!
What holds of every tree that is read from a text. Its names have local parts made of characters of
names, and namespaces that may be declared. All its characters may stand in a document. No element
has an attribute twice, and between texts there are elements.
-/

namespace BomTable.Xml

/-- What may be declared as a namespace, other than none. -/
structure IsUri (u : String) : Prop where
  filled : u ≠ ""
  foreign : u ≠ declarationSpace
  closing : '}' ∉ u.toList
  admitted : Admitted u.toList

structure Name.Legible (n : Name) : Prop where
  uri : ∀ u, n.uri = some u → IsUri u
  localPart : ∀ c ∈ n.localPart.toList, inName c = true

/-- The name of an attribute is not that of a declaration. -/
structure Name.LegibleLabel (n : Name) : Prop extends n.Legible where
  undeclaring : n ≠ ⟨none, "xmlns"⟩

/-- The two nodes are no texts side by side. -/
def Node.Apart (m n : Node) : Prop := ¬ (m.isText = true ∧ n.isText = true)

/-- The node can be read from a text. -/
inductive Node.Legible : Node → Prop
  | element {name : Name} {attributes : List (Name × String)} {content : List Node}
      (hname : name.Legible) (hlocal : IsName name.localPart.toList)
      (hattributes : ∀ a ∈ attributes, a.1.LegibleLabel ∧ Admitted a.2.toList)
      (hnodup : (attributes.map (·.1)).Nodup) (hcontent : ∀ n ∈ content, n.Legible)
      (hapart : content.IsChain Node.Apart) :
      Legible (.element name attributes content)
  | text {s : String} (hs : Admitted s.toList) (hfilled : s ≠ "") : Legible (.text s)

variable {n : Node} {s : String}

/-! ### Names -/

lemma IsName.ofList_ne_empty {cs : List Char} (h : IsName cs) : String.ofList cs ≠ "" := by
  obtain ⟨c, rest, rfl, -, -⟩ := h
  intro heq
  have hlist := congrArg String.toList heq
  rw [String.toList_ofList] at hlist
  cases hlist

namespace Scope

/-- Everything in the scope may be declared; only the empty short form stands for no namespace. -/
def Legible (scope : Scope) : Prop :=
  ∀ e ∈ scope, (e.2 = "" → e.1 = "") ∧ (e.2 ≠ "" → IsUri e.2)

variable {scope inner : Scope} {written : String} {name : Name}
  {attributes : List (String × String)}

lemma legible_start : start.Legible := by
  refine List.forall_mem_singleton.2 ⟨fun h => absurd h (by decide), fun _ => ?_⟩
  exact ⟨by decide, by decide, by decide, admitted_of_all (by decide)⟩

lemma isUri_of_allows {short uri : String} (h : allows short uri = true)
    (huri : Admitted uri.toList) : (uri = "" → short = "") ∧ (uri ≠ "" → IsUri uri) := by
  simp only [allows, Bool.and_eq_true, Bool.or_eq_true, bne_iff_ne, ne_eq, Bool.not_eq_true',
    List.contains_eq_mem, decide_eq_true_eq, decide_eq_false_iff_not] at h
  obtain ⟨⟨⟨⟨-, hempty⟩, hforeign⟩, -⟩, hclosing⟩ := h
  exact ⟨fun hu => hempty.resolve_left fun hne => hne hu, fun hu => ⟨hu, hforeign, hclosing, huri⟩⟩

lemma enter_legible (hscope : scope.Legible) (hvalues : ∀ a ∈ attributes, Admitted a.2.toList)
    (h : scope.enter attributes = some inner) : inner.Legible := by
  fun_induction enter scope attributes with
  | case1 =>
    cases h
    exact hscope
  | case2 scope written value rest hdeclared ih =>
    exact ih hscope (List.forall_mem_cons.1 hvalues).2 h
  | case3 scope written value rest short hdeclared hallows ih =>
    obtain ⟨hvalue, hrest⟩ := List.forall_mem_cons.1 hvalues
    exact ih (List.forall_mem_cons.2 ⟨isUri_of_allows hallows hvalue, hscope⟩) hrest h
  | case4 => cases h

lemma Legible.isUri (hscope : scope.Legible) {short uri : String}
    (h : Dict.find? scope short = some uri) (hfilled : short ≠ "") : IsUri uri := by
  obtain ⟨hempty, huri⟩ := hscope _ (Dict.mem_of_find? h)
  exact huri fun hu => hfilled (hempty hu)

lemma label_cases {cs : List Char} (h : IsLabel cs) :
    (Text.cut ':' cs = none ∧ IsName cs) ∨ ∃ first second, Text.cut ':' cs = some (first, second) ∧
      cs = first ++ ':' :: second ∧ IsName first ∧ ∀ c ∈ second, inName c = true := by
  rcases h with h | ⟨first, second, rfl, hfirst, hsecond⟩
  · exact .inl ⟨Text.cut_eq_none h.colon_not_mem, h⟩
  · exact .inr ⟨first, second, Text.cut_append hfirst.colon_not_mem, rfl, hfirst, hsecond⟩

lemma name?_legible {default : Option String} (hscope : scope.Legible)
    (hwritten : IsLabel written.toList) (hdefault : default = none ∨ default = some "")
    (h : scope.name? default written = some name) : name.Legible := by
  unfold name? at h
  rcases label_cases hwritten with ⟨hcut, hname⟩ | ⟨first, second, hcut, -, hfirst, hsecond⟩
  · rw [hcut] at h
    rcases hdefault with rfl | rfl
    · cases h
      exact ⟨fun u hu => (nomatch hu), hname.all_inName⟩
    · cases h
      refine ⟨fun u hu => ?_, hname.all_inName⟩
      obtain ⟨hfind, hfilled⟩ := eq_of_nonempty? hu
      exact (hscope _ (Dict.mem_of_find? hfind)).2 hfilled
  · rw [hcut] at h
    obtain ⟨uri, hfind, rfl⟩ := Option.map_eq_some_iff.1 h
    refine ⟨fun u hu => ?_, by simpa using hsecond⟩
    cases hu
    exact hscope.isUri hfind hfirst.ofList_ne_empty

lemma declared?_xmlns : declared? "xmlns" = some "" := rfl

end Scope

/-! ### Open elements -/

structure Frame.Legible (f : Frame) : Prop where
  name : f.name.Legible
  begun : IsName f.name.localPart.toList
  attributes : ∀ a ∈ f.attributes, a.1.LegibleLabel ∧ Admitted a.2.toList
  nodup : (f.attributes.map (·.1)).Nodup
  scope : f.scope.Legible
  content : ∀ n ∈ f.content, n.Legible
  apart : f.content.IsChain Node.Apart

namespace Frame

variable {f : Frame} {scope : Scope} {d : Doctype} {content : List Node}

lemma namesOf_legible {written : List (String × String)} {named : List (Name × String)}
    (hscope : scope.Legible)
    (hwritten : ∀ a ∈ written, IsLabel a.1.toList ∧ Admitted a.2.toList)
    (h : namesOf scope written = some named) :
    ∀ a ∈ named, a.1.LegibleLabel ∧ Admitted a.2.toList := by
  intro a ha
  obtain ⟨w, hw, heq⟩ := exists_of_mem_mapM h ha
  obtain ⟨name, hname, rfl⟩ := Option.map_eq_some_iff.1 heq
  obtain ⟨hmem, hdeclared⟩ := List.mem_filter.1 hw
  obtain ⟨hlabel, hvalue⟩ := hwritten w hmem
  refine ⟨⟨Scope.name?_legible hscope hlabel (.inl rfl) hname, fun hxmlns => ?_⟩, hvalue⟩
  -- a name without a namespace is written as it is
  unfold Scope.name? at hname
  split at hname
  · obtain ⟨uri, -, rfl⟩ := Option.map_eq_some_iff.1 hname
    cases hxmlns
  · cases hname
    have hwritten : w.1 = "xmlns" := congrArg Name.localPart hxmlns
    rw [hwritten, Scope.declared?_xmlns] at hdeclared
    cases hdeclared

lemma ofTag_legible {tag : String} {written : List (String × List Char)} (hd : d.Legible)
    (hscope : scope.Legible) (htag : IsTag tag.toList)
    (hwritten : ∀ a ∈ written, IsTag a.1.toList ∧ Admitted a.2)
    (h : ofTag d scope tag written = some f) : f.Legible := by
  obtain ⟨attributes, hattributes, h⟩ := Option.bind_eq_some_iff.1 h
  obtain ⟨inner, hinner, h⟩ := Option.bind_eq_some_iff.1 h
  obtain ⟨name, hname, h⟩ := Option.bind_eq_some_iff.1 h
  obtain ⟨named, hnamed, h⟩ := Option.bind_eq_some_iff.1 h
  split_ifs at h with hnodup
  cases h
  have hall := Doctype.attributes?_legible hd hwritten hattributes
  have hlegible : inner.Legible := Scope.enter_legible hscope (fun a ha => (hall a ha).2) hinner
  refine ⟨Scope.name?_legible hlegible htag.isLabel (.inr rfl) hname, ?_,
    namesOf_legible hlegible hall hnamed, hnodup.2, hlegible, List.forall_mem_nil _, .nil⟩
  unfold Scope.name? at hname
  rcases htag with htag | ⟨first, second, heq, hfirst, hsecond⟩
  · rw [Text.cut_eq_none htag.colon_not_mem] at hname
    cases hname
    exact htag
  · rw [heq, Text.cut_append hfirst.colon_not_mem] at hname
    obtain ⟨uri, -, rfl⟩ := Option.map_eq_some_iff.1 hname
    simpa using hsecond

lemma addTo_legible (hcontent : ∀ m ∈ content, m.Legible) (hapart : content.IsChain Node.Apart)
    (hn : n.Legible ∨ n = .text "") :
    (∀ m ∈ addTo content n, m.Legible) ∧ (addTo content n).IsChain Node.Apart := by
  unfold addTo
  split
  case h_1 => exact ⟨hcontent, hapart⟩
  case h_2 s t rest hs =>
    obtain ⟨ht, hrest⟩ := List.forall_mem_cons.1 hcontent
    have hlonger : (Node.text (t ++ s)).Legible := by
      rcases hn with hn | hn
      · cases ht with
        | text ht hfilled =>
          cases hn with
          | text hs hfilled' =>
            have hboth : Admitted (t ++ s).toList := by
              rw [String.toList_append]
              exact admitted_append.2 ⟨ht, hs⟩
            exact .text hboth fun h => hfilled (String.append_eq_empty_iff.1 h).1
      · exact absurd (Node.text.inj hn) (by simpa using hs)
    refine ⟨List.forall_mem_cons.2 ⟨hlonger, hrest⟩, ?_⟩
    rw [List.isChain_cons] at hapart ⊢
    exact ⟨hapart.1, hapart.2⟩
  case h_3 hempty htext =>
    have hn' : n.Legible := hn.resolve_right fun h => hempty h
    refine ⟨List.forall_mem_cons.2 ⟨hn', hcontent⟩, List.isChain_cons.2 ⟨fun m hm => ?_, hapart⟩⟩
    rintro ⟨hfirst, hsecond⟩
    obtain ⟨rest, rfl⟩ := List.head?_eq_some_iff.1 hm
    cases n with
    | text s =>
      cases m with
      | text t => exact htext s t rest rfl rfl
      | element | remark => cases hsecond
    | element | remark => cases hfirst

lemma Legible.add (hf : f.Legible) (hn : n.Legible ∨ n = .text "") : (f.add n).Legible := by
  obtain ⟨hcontent, hapart⟩ := addTo_legible hf.content hf.apart hn
  exact ⟨hf.name, hf.begun, hf.attributes, hf.nodup, hf.scope, hcontent, hapart⟩

lemma Legible.node (hf : f.Legible) : f.node.Legible := by
  refine .element hf.name hf.begun hf.attributes hf.nodup
    (fun n hn => hf.content n (List.mem_reverse.1 hn)) (List.isChain_reverse.2 ?_)
  exact hf.apart.imp fun m n h hboth => h ⟨hboth.2, hboth.1⟩

end Frame

/-! ### Documents -/

def Node.isElement : Node → Bool
  | .element .. => true
  | _ => false

/-- The open elements and the root are legible, and the root is an element. -/
structure Build.Legible (b : Build) : Prop where
  frames : ∀ f ∈ b.frames, f.Legible
  root : ∀ n, b.root = some n → n.Legible ∧ n.isElement = true

namespace Build

variable {b b' : Build} {d : Doctype} {t : Token} {ts : List Token}

lemma Legible.scope (hb : b.Legible) : b.scope.Legible := by
  unfold Build.scope
  split
  case h_1 f below hframes => exact (hb.frames f (hframes ▸ List.mem_cons_self)).scope
  case h_2 => exact Scope.legible_start

lemma Legible.addNode (hb : b.Legible) (hn : n.Legible ∨ n = .text "") :
    (b.addNode n).Legible := by
  unfold Build.addNode
  split
  case h_1 f below hframes =>
    obtain ⟨hf, hbelow⟩ := List.forall_mem_cons.1 (hframes ▸ hb.frames)
    exact ⟨List.forall_mem_cons.2 ⟨hf.add hn, hbelow⟩, hb.root⟩
  case h_2 =>
    refine ⟨hb.frames, fun m hm => ?_⟩
    cases hm
    exact ⟨hn.resolve_right fun h => (nomatch h), rfl⟩
  case h_3 => exact hb

lemma text_legible {s : List Char} (hs : Admitted s) :
    (Node.text (String.ofList s)).Legible ∨ Node.text (String.ofList s) = .text "" := by
  by_cases hempty : String.ofList s = ""
  · exact .inr (by rw [hempty])
  · exact .inl (.text (by rwa [String.toList_ofList]) hempty)

lemma step_legible (hd : d.Legible) (hb : b.Legible) (ht : t.Legible)
    (h : step false d b t = some b') : b'.Legible := by
  cases t with
  | opening tag attributes closed =>
    obtain ⟨f, hf, h⟩ := Option.bind_eq_some_iff.1 h
    cases h
    have hlegible : f.Legible := Frame.ofTag_legible hd hb.scope ht.1 ht.2 hf
    cases closed with
    | true => exact hb.addNode (.inl hlegible.node)
    | false => exact ⟨List.forall_mem_cons.2 ⟨hlegible, hb.frames⟩, hb.root⟩
  | closing tag =>
    rw [step] at h
    split at h
    case h_1 f below hframes =>
      split_ifs at h
      cases h
      obtain ⟨hf, hbelow⟩ := List.forall_mem_cons.1 (hframes ▸ hb.frames)
      exact Legible.addNode ⟨hbelow, hb.root⟩ (.inl hf.node)
    case h_2 => cases h
  | chars s =>
    cases h
    exact hb.addNode (text_legible ht)
  | quoted s =>
    cases h
    exact hb.addNode (text_legible ht)
  | entity name => cases h
  | comment s =>
    cases h
    exact hb
  | instruction target data =>
    cases h
    exact hb

lemma foldlM_legible (hd : d.Legible) (hb : b.Legible) (hts : ∀ t ∈ ts, t.Legible)
    (h : ts.foldlM (step false d) b = some b') : b'.Legible := by
  induction ts generalizing b with
  | nil =>
    cases h
    exact hb
  | cons t ts ih =>
    obtain ⟨ht, hts⟩ := List.forall_mem_cons.1 hts
    obtain ⟨next, hnext, h⟩ := Option.bind_eq_some_iff.1 h
    exact ih (step_legible hd hb ht hnext) hts h

lemma legible_of_root? (hd : d.Legible) (hts : ∀ t ∈ ts, t.Legible)
    (h : root? false d ts = some n) : n.Legible ∧ n.isElement = true := by
  obtain ⟨b, hb, h⟩ := Option.bind_eq_some_iff.1 h
  split_ifs at h
  have hempty : Legible ⟨[], none⟩ := ⟨List.forall_mem_nil _, fun n hn => nomatch hn⟩
  exact (foldlM_legible hd hempty hts hb).root n h

end Build

lemma Token.expand_legible {e : Entities} {depth : Nat} {ts ts' : List Token} (he : e.Legible)
    (hts : ∀ t ∈ ts, t.Legible) (h : expand e depth ts = some ts') : ∀ t ∈ ts', t.Legible := by
  induction depth generalizing ts ts' with
  | zero =>
    rw [expand] at h
    split_ifs at h
    cases h
    exact hts
  | succ depth ih =>
    rw [expand] at h
    obtain ⟨parts, hparts, rfl⟩ := Option.map_eq_some_iff.1 h
    intro t ht
    obtain ⟨part, hpart, ht⟩ := List.mem_flatten.1 ht
    obtain ⟨u, hu, hpart⟩ := exists_of_mem_mapM hparts hpart
    cases u with
    | entity name =>
      dsimp only at hpart
      split at hpart
      case h_1 text htext =>
        split at hpart
        case h_1 inner hinner =>
          split_ifs at hpart
          exact ih (legible_of_ofChars (he.of_find? htext) hinner) hpart t ht
        case h_2 => cases hpart
      case h_2 => cases hpart
    | _ =>
      cases hpart
      rw [List.mem_singleton.1 ht]
      exact hts _ hu

lemma admitted_singleLineEnds {cs : List Char} (h : Admitted cs) :
    Admitted (singleLineEnds cs) := by
  fun_induction singleLineEnds cs with
  | case1 rest ih => exact admitted_cons.2 ⟨by decide, ih (admitted_cons.1 (admitted_cons.1 h).2).2⟩
  | case2 rest _ ih => exact admitted_cons.2 ⟨by decide, ih (admitted_cons.1 h).2⟩
  | case3 c rest _ _ ih => exact admitted_cons.2 ⟨(admitted_cons.1 h).1, ih (admitted_cons.1 h).2⟩
  | case4 => exact h

theorem Node.legible_of_ofRest {declaration : Declaration} {cs : List Char}
    (h : Node.ofRest false declaration cs = some n) : n.Legible ∧ n.isElement = true := by
  unfold ofRest at h
  split_ifs at h with hallowed
  obtain ⟨⟨d, inner⟩, hprolog, h⟩ := Option.bind_eq_some_iff.1 h
  obtain ⟨ts, hts, h⟩ := Option.bind_eq_some_iff.1 h
  dsimp only at h
  split_ifs at h
  obtain ⟨expanded, hexpanded, h⟩ := Option.bind_eq_some_iff.1 h
  have hcs : Admitted (singleLineEnds cs) :=
    admitted_singleLineEnds (admitted_of_all hallowed)
  obtain ⟨hd, hinner⟩ := Doctype.legible_of_readProlog hcs hprolog
  exact Build.legible_of_root? hd
    (Token.expand_legible hd.entities (Token.legible_of_ofChars hinner hts) hexpanded) h

end BomTable.Xml
