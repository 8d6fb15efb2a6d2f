import BomTable.Proofs.Xml.Marking
import BomTable.Proofs.Xml.Rebuilding

/-!
Trees that are read again. In the scope of the first tag a name without a short form is that of an
element in the tree's own namespace, or of an attribute in none. So a tree is read as it was where
all such names are that already, and where one of them is not, what is read has another name there.
-/

namespace BomTable.Xml

variable {write : Name → String} {name : Name} {attributes : List (Name × String)}
  {content nodes : List Node} {n n' : Node} {more : List (String × String)} {f : Frame}
  {scope inner : Scope} {own : Option String} {written u : String}

/-! ### Names -/

lemma Name.Legible.colon_not_mem (h : name.Legible) : ':' ∉ name.localPart.toList := fun hmem =>
  absurd (h.localPart _ hmem) (by decide)

lemma cut_short {s : String} (hs : IsShort s) (name : Name) :
    Text.cut ':' (s ++ ":" ++ name.localPart).toList = some (s.toList, name.localPart.toList) := by
  have hlist : (s ++ ":" ++ name.localPart).toList = s.toList ++ ':' :: name.localPart.toList := by
    simp [String.toList_append]
  rw [hlist]
  exact Text.cut_append (not_mem_of_isShort hs).2.1

lemma Name.mk_eq {uri : Option String} (h : name.uri = uri) :
    (⟨uri, name.localPart⟩ : Name) = name := by
  cases name
  cases h
  rfl

section

variable (h : Marked own scope written name) (hlocal : ':' ∉ name.localPart.toList)

include h hlocal

lemma name?_element (hempty : Dict.find? scope "" = own) (hfilled : own ≠ some "") :
    scope.name? (some "") written = some ⟨name.uri.or own, name.localPart⟩ := by
  unfold Scope.name?
  cases h with
  | bare hwritten huri =>
    have hown : Text.nonempty? own = own := by
      cases own with
      | none => rfl
      | some u => exact if_neg fun hu => hfilled (congrArg some hu)
    rw [hwritten, Text.cut_eq_none hlocal]
    dsimp only
    rw [hempty, Name.within, hown]
    rcases huri with huri | huri
    · rw [huri, Option.none_or]
    · rw [huri, Option.or_self]
  | short hwritten hs _ huri _ hfind =>
    rw [hwritten, cut_short hs]
    simp [hfind, huri]

lemma name?_attribute :
    scope.name? none written = some (if name.uri = own then ⟨none, name.localPart⟩ else name) := by
  unfold Scope.name?
  cases h with
  | bare hwritten huri =>
    rw [hwritten, Text.cut_eq_none hlocal]
    split_ifs with hown
    · rfl
    · exact congrArg some (Name.mk_eq (huri.resolve_right hown))
  | short hwritten hs _ huri hown hfind =>
    rw [hwritten, cut_short hs, if_neg fun heq : name.uri = own => hown (heq.symm.trans huri)]
    simp [hfind, Name.mk_eq huri]

/-- An element is read with the name it had, unless it falls under a namespace that it is not in. -/
lemma name?_element_eq_iff (hempty : Dict.find? scope "" = own) (hfilled : own ≠ some "") :
    scope.name? (some "") written = some name ↔ ∀ u, own = some u → name.uri ≠ none := by
  rw [name?_element h hlocal hempty hfilled, Option.some_inj]
  constructor
  · intro heq u hu hnone
    have huri := congrArg Name.uri heq
    rw [hnone, hu] at huri
    cases huri
  · intro hkept
    refine Name.mk_eq ?_
    cases hu : own with
    | none => rw [Option.or_none]
    | some u =>
      obtain ⟨v, hv⟩ := Option.ne_none_iff_exists'.1 (hkept u hu)
      rw [hv, Option.some_or]

lemma name?_attribute_eq_iff :
    scope.name? none written = some name ↔ ∀ u, own = some u → name.uri ≠ some u := by
  rw [name?_attribute h hlocal, Option.some_inj]
  constructor
  · intro heq u hu huri
    rw [if_pos (huri.trans hu.symm)] at heq
    have hread := congrArg Name.uri heq
    rw [huri] at hread
    cases hread
  · intro hkept
    split_ifs with hown
    · refine Name.mk_eq ?_
      cases hu : own with
      | none => rw [hown, hu]
      | some u => exact absurd (hown.trans hu) (hkept u hu)
    · rfl

lemma declared?_of_marked (hname : name ≠ ⟨none, "xmlns"⟩)
    (hown : ∀ u, own = some u → name.uri ≠ some u) : Scope.declared? written = none := by
  unfold Scope.declared?
  cases h with
  | bare hwritten huri =>
    have hnone : name.uri = none := by
      rcases huri with huri | huri
      · exact huri
      · cases hv : own with
        | none => rw [huri, hv]
        | some u => exact absurd (huri.trans hv) (hown u hv)
    have hne : name.localPart ≠ "xmlns" := fun hxmlns => hname (by rw [← hnone, ← hxmlns])
    rw [hwritten, if_neg hne, Text.cut_eq_none hlocal]
  | @short s u hwritten hs _ _ _ _ =>
    have hne : s ++ ":" ++ name.localPart ≠ "xmlns" := by
      intro heq
      have hcut := cut_short hs name
      rw [heq] at hcut
      cases hcut
    rw [hwritten, if_neg hne, cut_short hs]
    simp [(not_mem_of_isShort hs).2.2]

end

/-! ### Tags -/

/-- The element has a namespace and no attribute in the one with the empty short form, if there is
one. -/
def Kept (own : Option String) (e : Name × List (Name × String)) : Prop :=
  ∀ u, own = some u → e.1.uri ≠ none ∧ ∀ a ∈ e.2, a.1.uri ≠ some u

lemma ofTag_absent (scope : Scope) (tag : String) (pairs : List (String × String)) :
    Frame.ofTag .absent scope tag (escaped pairs) =
      (scope.enter pairs).bind fun inner => (inner.name? (some "") tag).bind fun name =>
        (Frame.namesOf inner pairs).bind fun named =>
          if (pairs.map (·.1)).Nodup ∧ (named.map (·.1)).Nodup then
            some ⟨tag, name, named, inner, []⟩
          else none := by
  unfold Frame.ofTag
  rw [Doctype.attributes?_absent]
  rfl

lemma enter_append (l m : List (String × String)) :
    scope.enter (l ++ m) = (scope.enter l).bind fun inner => inner.enter m := by
  fun_induction Scope.enter scope l with
  | case1 => rfl
  | case2 scope written value rest hnone ih => rw [List.cons_append, Scope.enter, hnone]; exact ih
  | case3 scope written value rest short hshort hallows ih =>
    rw [List.cons_append, Scope.enter, hshort]
    exact (if_pos hallows).trans ih
  | case4 scope written value rest short hshort hallows =>
    rw [List.cons_append, Scope.enter, hshort]
    exact if_neg hallows

lemma enter_of_undeclared {l : List (String × String)}
    (h : ∀ p ∈ l, Scope.declared? p.1 = none) : scope.enter l = some scope := by
  induction l with
  | nil => rfl
  | cons p l ih =>
    obtain ⟨hp, hl⟩ := List.forall_mem_cons.1 h
    rw [Scope.enter, hp]
    exact ih hl

lemma namesOf_tagPairs (hmore : Declaring more) :
    Frame.namesOf inner (tagPairs write more attributes) =
      Frame.namesOf inner (tagPairs write [] attributes) := by
  have hfilter : (more.filter fun a => (Scope.declared? a.1).isNone) = [] :=
    List.filter_eq_nil_iff.2 fun p hp => by simp [Option.isSome_iff_ne_none.1 (hmore p hp)]
  rw [Frame.namesOf, tagPairs, List.filter_append, hfilter]
  rfl

lemma namesOf_cons (a : Name × String) (attributes : List (Name × String)) :
    Frame.namesOf inner (tagPairs write [] (a :: attributes)) =
      if (Scope.declared? (write a.1)).isSome then
        Frame.namesOf inner (tagPairs write [] attributes)
      else (inner.name? none (write a.1)).bind fun name =>
        (Frame.namesOf inner (tagPairs write [] attributes)).map ((name, a.2) :: ·) := by
  simp only [Frame.namesOf, tagPairs, List.nil_append, List.map_cons, List.filter_cons]
  cases Scope.declared? (write a.1) with
  | some short => rfl
  | none =>
    rw [Option.isNone_none, if_pos rfl, Option.isSome_none, if_neg Bool.false_ne_true,
      List.mapM_cons]
    cases inner.name? none (write a.1) with
    | none => rfl
    | some name =>
      rw [Option.map_some, Option.bind_eq_bind, Option.bind_some, Option.bind_some,
        Option.map_eq_bind]
      rfl

lemma namesOf_eq_self (hattributes : ∀ a ∈ attributes, Scope.declared? (write a.1) = none ∧
      inner.name? none (write a.1) = some a.1) :
    Frame.namesOf inner (tagPairs write [] attributes) = some attributes := by
  induction attributes with
  | nil => rfl
  | cons a attributes ih =>
    obtain ⟨⟨hdeclared, hname⟩, hattributes⟩ := List.forall_mem_cons.1 hattributes
    rw [namesOf_cons, hdeclared, hname, ih hattributes]
    rfl

/-- Declarations among the attributes are missing in what is read. -/
lemma length_le_of_namesOf {named : List (Name × String)}
    (h : Frame.namesOf inner (tagPairs write [] attributes) = some named) :
    named.length ≤ attributes.length := by
  induction attributes generalizing named with
  | nil =>
    cases h
    exact le_rfl
  | cons a attributes ih =>
    rw [namesOf_cons] at h
    split_ifs at h
    · exact (ih h).trans (Nat.le_succ _)
    · obtain ⟨m, -, h⟩ := Option.bind_eq_some_iff.1 h
      obtain ⟨rest, hrest, rfl⟩ := Option.map_eq_some_iff.1 h
      exact Nat.succ_le_succ (ih hrest)

lemma forall_of_namesOf (h : Frame.namesOf inner (tagPairs write [] attributes) = some attributes) :
    ∀ a ∈ attributes, Scope.declared? (write a.1) = none ∧
      inner.name? none (write a.1) = some a.1 := by
  induction attributes with
  | nil => exact List.forall_mem_nil _
  | cons a attributes ih =>
    rw [namesOf_cons] at h
    split_ifs at h with hdeclared
    · -- too few are left to be all attributes
      exact absurd (length_le_of_namesOf h) (by simp)
    · obtain ⟨m, hm, h⟩ := Option.bind_eq_some_iff.1 h
      obtain ⟨rest, hrest, h⟩ := Option.map_eq_some_iff.1 h
      obtain ⟨hname, rfl⟩ := List.cons.inj h
      refine List.forall_mem_cons.2 ⟨⟨by simpa using hdeclared, ?_⟩, ih hrest⟩
      rw [hm, ← hname]

lemma ofTag_eq (hmore : Declaring more) (henter : scope.enter more = some inner)
    (hnodup : (more.map (·.1)).Nodup) (htag : inner.name? (some "") written = some name)
    (hattributes : ∀ a ∈ attributes, Scope.declared? (write a.1) = none ∧
      inner.name? none (write a.1) = some a.1) (hnames : (attributes.map (·.1)).Nodup) :
    Frame.ofTag .absent scope written (escaped (tagPairs write more attributes)) =
      some ⟨written, name, attributes, inner, []⟩ := by
  have hown : inner.enter (attributes.map fun a => (write a.1, a.2)) = some inner :=
    enter_of_undeclared (List.forall_mem_map.2 fun a ha => (hattributes a ha).1)
  have hwritten : (attributes.map fun a => write a.1).Nodup := by
    refine List.Nodup.of_map (inner.name? none) ?_
    have hread : ((attributes.map fun a => write a.1).map (inner.name? none)) =
        (attributes.map (·.1)).map some := by
      rw [List.map_map, List.map_map]
      exact List.map_congr_left fun a ha => (hattributes a ha).2
    rw [hread]
    exact hnames.map fun _ _ => Option.some.inj
  -- a declaration and an attribute never have the same name, as the one declares and the other not
  have hpairs : ((tagPairs write more attributes).map (·.1)).Nodup := by
    rw [tagPairs, List.map_append, List.map_map, List.nodup_append]
    refine ⟨hnodup, hwritten, fun s hs t ht heq => ?_⟩
    obtain ⟨p, hp, rfl⟩ := List.mem_map.1 hs
    obtain ⟨a, ha, rfl⟩ := List.mem_map.1 ht
    have hdeclared := hmore p hp
    rw [heq] at hdeclared
    rw [Function.comp_apply, (hattributes a ha).1] at hdeclared
    cases hdeclared
  rw [ofTag_absent, tagPairs, enter_append, henter, Option.bind_some, hown, Option.bind_some, htag,
    Option.bind_some, ← tagPairs, namesOf_tagPairs hmore, namesOf_eq_self hattributes,
    Option.bind_some, if_pos ⟨hpairs, hnames⟩]

lemma of_ofTag (hmore : Declaring more) (henter : scope.enter more = some inner)
    (h : Frame.ofTag .absent scope written (escaped (tagPairs write more attributes)) = some f)
    (hsame : f.attributes = attributes) :
    f.scope = inner ∧ inner.name? (some "") written = some f.name ∧
      ∀ a ∈ attributes, inner.name? none (write a.1) = some a.1 := by
  rw [ofTag_absent] at h
  obtain ⟨inner', hinner', h⟩ := Option.bind_eq_some_iff.1 h
  obtain ⟨m, hm, h⟩ := Option.bind_eq_some_iff.1 h
  obtain ⟨named, hnamed, h⟩ := Option.bind_eq_some_iff.1 h
  split_ifs at h
  cases h
  subst hsame
  rw [namesOf_tagPairs hmore] at hnamed
  have hread := forall_of_namesOf hnamed
  rw [tagPairs, enter_append, henter, Option.bind_some,
    enter_of_undeclared (List.forall_mem_map.2 fun a ha => (hread a ha).1)] at hinner'
  cases hinner'
  exact ⟨rfl, hm, fun a ha => (hread a ha).2⟩

/-! ### Trees -/

mutual

/-- The node without its texts: its elements inside each other, with their names and attributes. -/
def Node.withoutTexts : Node → Node
  | .element name attributes content => .element name attributes (withoutTextsAll content)
  | .text _ => .text ""
  | .remark r content => .remark r content

def Node.withoutTextsAll : List Node → List Node
  | [] => []
  | .text _ :: rest => withoutTextsAll rest
  | n :: rest => n.withoutTexts :: withoutTextsAll rest

end

section

variable (hn : (Node.element name attributes content).Legible)
  (hmore : Declaring more) (henter : scope.enter more = some inner)
  (hmarked : ∀ m ∈ (Node.element name attributes content).names, Marked own inner (write m) m)
  (hempty : Dict.find? inner "" = own) (hfilled : own ≠ some "")

include hn hmore henter hmarked hempty hfilled

lemma reread_element (hnodup : (more.map (·.1)).Nodup) (hkept : Kept own (name, attributes))
    (hcontent : Node.rereadAll write inner content = some content) :
    (Node.element name attributes content).reread write more scope =
      some (.element name attributes content) := by
  cases hn with
  | element hname hlocal hattributes hnames _ _ =>
    obtain ⟨hmarkedName, hmarkedLabels, -⟩ := forall_names_element.1 hmarked
    have htag : inner.name? (some "") (write name) = some name :=
      (name?_element_eq_iff hmarkedName hname.colon_not_mem hempty hfilled).2
        fun u hu => (hkept u hu).1
    have hlabels : ∀ a ∈ attributes, Scope.declared? (write a.1) = none ∧
        inner.name? none (write a.1) = some a.1 := by
      intro a ha
      have hlegible := (hattributes a ha).1
      have huri : ∀ u, own = some u → a.1.uri ≠ some u := fun u hu => (hkept u hu).2 a ha
      exact ⟨declared?_of_marked (hmarkedLabels a ha) hlegible.colon_not_mem
          hlegible.undeclaring huri,
        (name?_attribute_eq_iff (hmarkedLabels a ha) hlegible.colon_not_mem).2 huri⟩
    rw [Node.reread, ofTag_eq hmore henter hnodup htag hlabels hnames, Option.bind_eq_bind,
      Option.bind_some, hcontent]
    rfl

/-- Where an element is read with the names that it had, they are kept. -/
lemma kept_of_reread_element
    (h : (Node.element name attributes content).reread write more scope = some n')
    (hsame : n'.withoutTexts = (Node.element name attributes content).withoutTexts) :
    Kept own (name, attributes) ∧ ∃ nodes, Node.rereadAll write inner content = some nodes ∧
      Node.withoutTextsAll nodes = Node.withoutTextsAll content := by
  cases hn with
  | element hname _ hattributes _ _ _ =>
    obtain ⟨hmarkedName, hmarkedLabels, -⟩ := forall_names_element.1 hmarked
    obtain ⟨f, hf, h⟩ := Option.bind_eq_some_iff.1 h
    obtain ⟨nodes, hnodes, h⟩ := Option.bind_eq_some_iff.1 h
    cases h
    rw [Node.withoutTexts, Node.withoutTexts, Node.element.injEq] at hsame
    obtain ⟨hsameName, hsameAttributes, hsameContent⟩ := hsame
    obtain ⟨hscope, htag, hlabels⟩ := of_ofTag hmore henter hf hsameAttributes
    rw [hscope] at hnodes
    rw [hsameName] at htag
    refine ⟨fun u hu => ⟨?_, fun a ha => ?_⟩, nodes, hnodes, hsameContent⟩
    · exact (name?_element_eq_iff hmarkedName hname.colon_not_mem hempty hfilled).1 htag u hu
    · exact (name?_attribute_eq_iff (hmarkedLabels a ha) (hattributes a ha).1.colon_not_mem).1
        (hlabels a ha) u hu

end

lemma rereadAll_eq_self (h : ∀ n ∈ content, n.reread write [] scope = some n) :
    Node.rereadAll write scope content = some content := by
  induction content with
  | nil => rfl
  | cons n content ih =>
    obtain ⟨hn, hcontent⟩ := List.forall_mem_cons.1 h
    rw [Node.rereadAll, hn, ih hcontent]
    rfl

lemma exists_of_rereadAll (hcontent : ∀ n ∈ content, n.Legible)
    (h : Node.rereadAll write scope content = some nodes)
    (hsame : Node.withoutTextsAll nodes = Node.withoutTextsAll content) :
    ∀ n ∈ content, n.isText = false → ∃ n', n.reread write [] scope = some n' ∧
      n'.withoutTexts = n.withoutTexts := by
  induction content generalizing nodes with
  | nil => exact List.forall_mem_nil _
  | cons n content ih =>
    obtain ⟨hn, hrest⟩ := List.forall_mem_cons.1 hcontent
    obtain ⟨n', hn', h⟩ := Option.bind_eq_some_iff.1 h
    obtain ⟨nodes', hnodes', h⟩ := Option.bind_eq_some_iff.1 h
    cases h
    cases hn with
    -- a text is in neither list of elements, and an element is the first of both
    | text =>
      cases hn'
      exact List.forall_mem_cons.2 ⟨(nomatch ·), ih hrest hnodes' hsame⟩
    | element =>
      have hread := hn'
      obtain ⟨f, -, hn'⟩ := Option.bind_eq_some_iff.1 hn'
      obtain ⟨inner, -, hn'⟩ := Option.bind_eq_some_iff.1 hn'
      cases hn'
      rw [Node.withoutTextsAll, Node.withoutTextsAll, List.cons.injEq] at hsame
      · exact List.forall_mem_cons.2
          ⟨fun _ => ⟨_, hread, hsame.1⟩, ih hrest hnodes' hsame.2⟩
      · exact fun _ h => nomatch h
      · exact fun _ h => nomatch h

lemma kept_of_rereadAll (hcontent : ∀ n ∈ content, n.Legible)
    (hkept : ∀ n ∈ content, ∀ n', n.reread write [] scope = some n' →
      n'.withoutTexts = n.withoutTexts → ∀ e ∈ n.elements, Kept own e)
    (h : Node.rereadAll write scope content = some nodes)
    (hsame : Node.withoutTextsAll nodes = Node.withoutTextsAll content) :
    ∀ e ∈ Node.elementsAll content, Kept own e := by
  intro e he
  obtain ⟨n, hn, he⟩ := mem_elementsAll.1 he
  cases htext : n.isText with
  | true => cases n <;> cases htext; cases he
  | false =>
    obtain ⟨n', hread, hsame⟩ := exists_of_rereadAll hcontent h hsame n hn htext
    exact hkept n hn n' hread hsame e he

section

variable (hempty : Dict.find? scope "" = own) (hfilled : own ≠ some "")

include hempty hfilled

lemma reread_eq_self (hn : n.Legible) (hmarked : ∀ m ∈ n.names, Marked own scope (write m) m)
    (hkept : ∀ e ∈ n.elements, Kept own e) : n.reread write [] scope = some n := by
  induction hn with
  | element hname hlocal hattributes hnodup hcontent hapart ih =>
    obtain ⟨-, -, hnames⟩ := forall_names_element.1 hmarked
    obtain ⟨hown, hinner⟩ := List.forall_mem_cons.1 hkept
    refine reread_element (.element hname hlocal hattributes hnodup hcontent hapart)
      (List.forall_mem_nil _) rfl hmarked hempty hfilled List.nodup_nil hown
      (rereadAll_eq_self fun n hn => ih n hn (hnames n hn) fun e he => hinner e ?_)
    exact mem_elementsAll.2 ⟨n, hn, he⟩
  | text => rfl

lemma kept_of_reread (hn : n.Legible) (hmarked : ∀ m ∈ n.names, Marked own scope (write m) m)
    (h : n.reread write [] scope = some n') (hsame : n'.withoutTexts = n.withoutTexts) :
    ∀ e ∈ n.elements, Kept own e := by
  induction hn generalizing n' with
  | element hname hlocal hattributes hnodup hcontent hapart ih =>
    obtain ⟨-, -, hnames⟩ := forall_names_element.1 hmarked
    obtain ⟨hown, nodes, hnodes, hnodesSame⟩ := kept_of_reread_element
      (.element hname hlocal hattributes hnodup hcontent hapart) (List.forall_mem_nil _) rfl hmarked
      hempty hfilled h hsame
    exact List.forall_mem_cons.2 ⟨hown, kept_of_rereadAll hcontent
      (fun n hn n' hread => ih n hn (hnames n hn) hread) hnodes hnodesSame⟩
  | text => exact List.forall_mem_nil _

end

/-! ### Documents -/

mutual

lemma Node.withoutTexts_withLineFeeds : (n : Node) →
    n.withLineFeeds.withoutTexts = n.withoutTexts
  | .element name attributes content => by
    rw [withLineFeeds, withoutTexts, withoutTexts, withoutTextsAll_withLineFeeds]
  | .text _ => rfl
  | .remark _ _ => rfl

lemma Node.withoutTextsAll_withLineFeeds : (content : List Node) →
    withoutTextsAll (withLineFeedsAll content) = withoutTextsAll content
  | [] => rfl
  | .text _ :: rest => withoutTextsAll_withLineFeeds rest
  | .element name attributes content :: rest => by
    have hfirst := withoutTexts_withLineFeeds (.element name attributes content)
    have hrest := withoutTextsAll_withLineFeeds rest
    exact congrArg₂ List.cons hfirst hrest
  | .remark r content :: rest =>
    congrArg (List.cons (Node.remark r content)) (withoutTextsAll_withLineFeeds rest)

end

/-- The names of the tree can be kept when a namespace has the empty short form. -/
structure Node.Writable (own : Option String) (n : Node) : Prop where
  unstray : ¬ n.Stray
  foreign : own ≠ some xmlSpace
  kept : ∀ e ∈ n.elements, Kept own e

section

variable {r : Registry} {root : Node} (hroot : root.Legible) (hr : r.Marks own)
  (hown : ∀ u, own = some u → u ∈ root.uris)

lemma enter_serialize (hroot : root.Legible) (hr : r.Marks own) (hspace : own ≠ some xmlSpace) :
    Scope.start.enter (declarationPairs (Seen.ascending (root.spaces r []))) =
      some (Seen.toScope (root.spaces r [])) := by
  refine enter_declarationPairs fun e he => ?_
  rw [mem_ascending, Node.spaces_eq] at he
  exact allows_declared hr (legible_of_mem_names hroot) hspace e he

lemma enter_serialize_eq_none (hr : r.Marks (some xmlSpace)) (hmem : xmlSpace ∈ root.uris) :
    Scope.start.enter (declarationPairs (Seen.ascending (root.spaces r []))) = none := by
  refine enter_declarationPairs_eq_none ⟨(xmlSpace, ""), ?_, rfl⟩
  rw [mem_ascending, Node.spaces_eq]
  exact mem_of_own hr rfl hmem

lemma marked_serialize (hr : r.Marks own) {m : Name} (hm : m ∈ root.names) :
    Marked own (Seen.toScope (root.spaces r [])) (Seen.written r (root.spaces r []) m) m := by
  rw [Node.spaces_eq]
  exact marked_written hr hm

lemma marked_withLineFeeds (root : Node) (hr : r.Marks own) : ∀ m ∈ root.withLineFeeds.names,
    Marked own (Seen.toScope (root.spaces r [])) (Seen.written r (root.spaces r []) m) m := by
  rw [Node.names_withLineFeeds]
  exact fun m hm => marked_serialize hr hm

lemma find?_serialize_empty (hr : r.Marks own) (hown : ∀ u, own = some u → u ∈ root.uris) :
    Dict.find? (Seen.toScope (root.spaces r [])) "" = own := by
  rw [Node.spaces_eq]
  exact find?_scope_empty hr hown

lemma ne_empty_of_mem_uris (hroot : root.Legible) (hown : ∀ u, own = some u → u ∈ root.uris) :
    own ≠ some "" := by
  rintro rfl
  obtain ⟨m, hm, huri⟩ := List.mem_filterMap.1 (hown "" rfl)
  exact ((legible_of_mem_names hroot m hm).uri "" huri).filled rfl

variable (helement : root.isElement = true)

include hroot hr helement

lemma ofText_serialize :
    (root.Stray → Node.ofText false (root.serialize r) = none) ∧
      (¬ root.Stray → Node.ofText false (root.serialize r) =
        root.withLineFeeds.reread (Seen.written r (root.spaces r []))
          (declarationPairs (Seen.ascending (root.spaces r []))) .start) := by
  have hspelled : ∀ m ∈ root.names, Spelled (Seen.written r (root.spaces r []) m) m :=
    fun m hm => (marked_serialize hr hm).spelled
  have hmore : ∀ p ∈ declarationPairs (Seen.ascending (root.spaces r [])),
      IsTag p.1.toList ∧ Admitted p.2.toList := by
    refine List.forall_mem_map.2 fun e he => ?_
    rw [mem_ascending, Node.spaces_eq] at he
    exact ⟨isTag_declaringName (hr.isShort (gives_of_declared he)),
      (isUri_of_declared (legible_of_mem_names hroot) he).admitted⟩
  cases root with
  | element =>
    exact ⟨ofText_render_eq_none hroot hspelled hmore (toList_join_declaration _),
      ofText_render hroot hspelled hmore (toList_join_declaration _)⟩
  | text | remark => cases helement

include hown

/-- **A writable tree is read as it was**, with a line feed at the end of every line. -/
theorem Node.Writable.ofText_serialize_eq (h : root.Writable own) :
    Node.ofText false (root.serialize r) = some root.withLineFeeds := by
  have hempty := find?_serialize_empty hr hown
  have hfilled := ne_empty_of_mem_uris hroot hown
  have henter := enter_serialize hroot hr h.foreign
  have hmarked := marked_withLineFeeds root hr
  have hkept : ∀ e ∈ root.withLineFeeds.elements, Kept own e := by
    rw [elements_withLineFeeds]
    exact h.kept
  have hnodup : ((declarationPairs (Seen.ascending (root.spaces r []))).map (·.1)).Nodup := by
    rw [Node.spaces_eq]
    exact nodup_declarationPairs (nodup_shorts hr root.names)
  have hlegible := legible_withLineFeeds hroot
  rw [(ofText_serialize hroot hr helement).2 h.unstray]
  cases root with
  | element name attributes content =>
    rw [withLineFeeds] at hmarked hkept hlegible ⊢
    obtain ⟨hfirst, hinner⟩ := List.forall_mem_cons.1 hkept
    obtain ⟨-, -, hnames⟩ := forall_names_element.1 hmarked
    refine reread_element hlegible (declaring_declarationPairs _) henter hmarked hempty hfilled
      hnodup hfirst (rereadAll_eq_self fun n hn => ?_)
    cases hlegible with
    | element _ _ _ _ hcontent _ =>
      exact reread_eq_self hempty hfilled (hcontent n hn) (hnames n hn)
        fun e he => hinner e (mem_elementsAll.2 ⟨n, hn, he⟩)
  | text | remark => cases helement

theorem writable_of_ofText_serialize (h : Node.ofText false (root.serialize r) = some n')
    (hsame : n'.withoutTexts = root.withoutTexts) : root.Writable own := by
  have hstray : ¬ root.Stray := fun hstray => by
    rw [(ofText_serialize hroot hr helement).1 hstray] at h
    cases h
  rw [(ofText_serialize hroot hr helement).2 hstray] at h
  rw [← Node.withoutTexts_withLineFeeds root] at hsame
  have hempty := find?_serialize_empty hr hown
  have hfilled := ne_empty_of_mem_uris hroot hown
  have hmarked := marked_withLineFeeds root hr
  -- with the namespace behind `xml` the first tag is not read, so there is no tree
  have hforeign : own ≠ some xmlSpace := by
    rintro rfl
    have hnone := enter_serialize_eq_none hr (hown _ rfl)
    cases root with
    | element name attributes content =>
      rw [Node.withLineFeeds, Node.reread, ofTag_absent, tagPairs, enter_append, hnone] at h
      cases h
    | text | remark => cases helement
  have henter := enter_serialize hroot hr hforeign
  refine ⟨hstray, hforeign, ?_⟩
  have hlegible := legible_withLineFeeds hroot
  rw [← Node.elements_withLineFeeds]
  cases root with
  | element name attributes content =>
    rw [Node.withLineFeeds] at h hsame hmarked hlegible ⊢
    obtain ⟨hfirst, nodes, hnodes, hnodesSame⟩ := kept_of_reread_element hlegible
      (declaring_declarationPairs _) henter hmarked hempty hfilled h hsame
    obtain ⟨-, -, hnames⟩ := forall_names_element.1 hmarked
    cases hlegible with
    | element _ _ _ _ hcontent _ =>
      exact List.forall_mem_cons.2 ⟨hfirst, kept_of_rereadAll hcontent
        (fun n hn n' hread => kept_of_reread hempty hfilled (hcontent n hn) (hnames n hn) hread)
        hnodes hnodesSame⟩
  | text | remark => cases helement

end

end BomTable.Xml
