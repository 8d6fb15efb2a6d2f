import BomTable.Proofs.Xml.Tokens

/-!
Written trees as documents. The text of an element may stand in a document, has no prolog and no
entities, and only its texts have ends of lines to be made line feeds. So reading it comes down to
building a tree from its tokens.
-/

namespace BomTable.Xml

variable {c : Char} {cs rest s l : List Char}

/-! ### Ends of lines -/

lemma singleLineEnds_of_not_mem (h : '\r' ∉ s) (rest : List Char) :
    singleLineEnds (s ++ rest) = s ++ singleLineEnds rest := by
  induction s with
  | nil => rfl
  | cons c s ih =>
    rw [List.mem_cons, not_or] at h
    have hc : c ≠ '\r' := Ne.symm h.1
    rw [List.cons_append, singleLineEnds, ih h.2, List.cons_append]
    · exact fun _ hcr => absurd hcr hc
    · exact hc

lemma singleLineEnds_append (h : rest.head? ≠ some '\n') :
    singleLineEnds (s ++ rest) = singleLineEnds s ++ singleLineEnds rest := by
  fun_induction singleLineEnds s with
  | case1 s ih => rw [List.cons_append, List.cons_append, singleLineEnds, ih, List.cons_append]
  | case2 s hs ih =>
    have hnext : ∀ t, s ++ rest = '\n' :: t → False := by
      intro t ht
      cases s with
      | nil => exact h (by rw [← List.nil_append rest, ht]; rfl)
      | cons d s => exact hs s (by rw [(List.cons.inj ht).1])
    rw [List.cons_append, singleLineEnds, ih, List.cons_append]
    exact hnext
  | case3 c s hpair hcr ih =>
    rw [List.cons_append, singleLineEnds, ih, List.cons_append]
    · exact fun _ hc => absurd hc hcr
    · exact hcr
  | case4 => rfl

lemma escapedText_cons (c : Char) (l : List Char) :
    escapedText (c :: l) = (Escape.inText c).toList ++ escapedText l := by
  simp [escapedText]

lemma Escape.head?_inText (c : Char) :
    (inText c).toList.head? = some '&' ∨ (inText c).toList.head? = some c := by
  by_cases hc : c ∈ markedInText
  · obtain ⟨body, hbody, -⟩ := read_inText hc
    exact .inl (by rw [hbody]; rfl)
  · exact .inr (by rw [inText_of_not_mem hc]; rfl)

lemma Escape.not_mem_inText (h : c ≠ '\r') : '\r' ∉ (inText c).toList := by
  by_cases hc : c ∈ markedInText
  · revert c
    simp only [markedInText, List.mem_cons, List.not_mem_nil, or_false]
    rintro c - (rfl | rfl | rfl) <;> decide
  · rw [inText_of_not_mem hc]
    simpa using h.symm

lemma singleLineEnds_escapedText (l : List Char) :
    singleLineEnds (escapedText l) = escapedText (singleLineEnds l) := by
  have hreturn : (Escape.inText '\r').toList = ['\r'] := by decide
  have hfeed : (Escape.inText '\n').toList = ['\n'] := by decide
  fun_induction singleLineEnds l with
  | case1 l ih =>
    simp only [escapedText_cons, hreturn, hfeed, List.cons_append, List.nil_append]
    rw [singleLineEnds, ih]
  | case2 l hl ih =>
    simp only [escapedText_cons, hreturn, hfeed, List.cons_append, List.nil_append]
    rw [singleLineEnds, ih]
    intro t ht
    cases l with
    | nil => cases ht
    | cons d l =>
      rw [escapedText_cons] at ht
      -- what is written for a character begins with a line feed only if that is the character
      have hhead : (Escape.inText d).toList.head? = some '\n' := by
        have hne : (Escape.inText d).toList ≠ [] := by
          intro hnil
          rcases Escape.head?_inText d with h | h <;> rw [hnil] at h <;> cases h
        obtain ⟨e, body, hbody⟩ := List.exists_cons_of_ne_nil hne
        rw [hbody] at ht ⊢
        rw [(List.cons.inj ht).1]
        rfl
      rcases Escape.head?_inText d with h | h
      · cases h.symm.trans hhead
      · cases h.symm.trans hhead
        exact hl l rfl
  | case3 c l _ hc ih =>
    rw [escapedText_cons, escapedText_cons,
      singleLineEnds_of_not_mem (Escape.not_mem_inText hc), ih]
  | case4 => rfl

/-! ### Trees with line feeds only -/

mutual

/-- The node with a line feed at the end of every line of its texts. -/
def Node.withLineFeeds : Node → Node
  | .element name attributes content => .element name attributes (withLineFeedsAll content)
  | .text s => .text (String.ofList (singleLineEnds s.toList))
  | .remark r content => .remark r content

def Node.withLineFeedsAll : List Node → List Node
  | [] => []
  | n :: rest => n.withLineFeeds :: withLineFeedsAll rest

end

variable {write : Name → String} {name : Name} {attributes : List (Name × String)}
  {content : List Node} {n : Node} {more : List (String × String)} {declarations : String}

lemma withLineFeedsAll_eq (content : List Node) :
    Node.withLineFeedsAll content = content.map Node.withLineFeeds := by
  induction content with
  | nil => rfl
  | cons n content ih => rw [Node.withLineFeedsAll, ih, List.map_cons]

lemma isText_withLineFeeds (n : Node) : n.withLineFeeds.isText = n.isText := by
  cases n <;> rfl

lemma singleLineEnds_ne_nil (h : s ≠ []) : singleLineEnds s ≠ [] := by
  fun_induction singleLineEnds s with
  | case4 => exact h
  | _ => exact List.cons_ne_nil _ _

lemma legible_withLineFeeds (hn : n.Legible) : n.withLineFeeds.Legible := by
  induction hn with
  | @element name attributes content hname hlocal hattributes hnodup _ hapart ih =>
    rw [Node.withLineFeeds, withLineFeedsAll_eq]
    refine .element hname hlocal hattributes hnodup (List.forall_mem_map.2 ih) ?_
    rw [List.isChain_map]
    exact hapart.imp fun m n h => by
      unfold Node.Apart at h ⊢
      rwa [isText_withLineFeeds, isText_withLineFeeds]
  | @text s hs hfilled =>
    refine .text ?_ fun h => ?_
    · rw [String.toList_ofList]
      exact admitted_singleLineEnds hs
    · have hlist := congrArg String.toList h
      rw [String.toList_ofList] at hlist
      refine singleLineEnds_ne_nil (fun hnil => hfilled ?_) hlist
      exact String.toList_injective hnil

mutual

lemma Node.elements_withLineFeeds : (n : Node) → n.withLineFeeds.elements = n.elements
  | .element name attributes content => by
    rw [withLineFeeds, elements, elements, elementsAll_withLineFeeds]
  | .remark _ _ => rfl
  | .text _ => rfl

lemma Node.elementsAll_withLineFeeds : (content : List Node) →
    elementsAll (withLineFeedsAll content) = elementsAll content
  | [] => rfl
  | n :: rest => by
    rw [withLineFeedsAll, elementsAll, elementsAll, elements_withLineFeeds,
      elementsAll_withLineFeeds]

end

lemma Node.names_withLineFeeds (n : Node) : n.withLineFeeds.names = n.names := by
  rw [names_eq, names_eq, elements_withLineFeeds]

/-- Every node that can be read is written as something. -/
lemma any_isVisible (hcontent : ∀ n ∈ content, n.Legible) :
    content.any Node.isVisible = !content.isEmpty := by
  cases content with
  | nil => rfl
  | cons n content =>
    have hn : n.isVisible = true := by
      cases hcontent n List.mem_cons_self with
      | element => rfl
      | text _ hfilled => simpa [Node.isVisible] using hfilled
    simp [hn]

lemma return_not_mem_tagText {closed : Bool} (hname : '\r' ∉ (write name).toList)
    (hpairs : ∀ p ∈ tagPairs write more attributes, '\r' ∉ p.1.toList) :
    '\r' ∉ Token.tagText (write name) (tagPairs write more attributes) closed := by
  simp only [Token.tagText, List.mem_cons, List.mem_append, List.mem_flatMap, not_or, not_exists,
    not_and]
  refine ⟨by decide, hname, fun p hp => ?_, by cases closed <;> decide⟩
  have hvalue := (Escape.not_mem_value p.2).2
  simp [attributeText, hpairs p hp, hvalue]

/-- Ends of lines in the text of a node are made line feeds as they are in the node. -/
def EndsLines (text text' : List Char) (isText : Bool) : Prop :=
  ∀ rest, (isText = true → rest.head? = some '<') →
    singleLineEnds (text ++ rest) = text' ++ singleLineEnds rest

lemma endsLines_content (hcontent : ∀ n ∈ content, EndsLines (n.render write "").toList
      (n.withLineFeeds.render write "").toList n.isText)
    (hapart : content.IsChain Node.Apart) :
    EndsLines (Node.renderAll write content).toList
      (Node.renderAll write (Node.withLineFeedsAll content)).toList true := by
  induction content with
  | nil => exact fun rest _ => rfl
  | cons n content ih =>
    intro rest hrest
    obtain ⟨hn, hcontent⟩ := List.forall_mem_cons.1 hcontent
    obtain ⟨hnext, hapart⟩ := List.isChain_cons.1 hapart
    rw [Node.withLineFeedsAll, Node.renderAll, Node.renderAll, String.toList_append,
      String.toList_append, List.append_assoc, List.append_assoc,
      hn _ (follows_of_apart hnext (hrest rfl)), ih hcontent hapart rest hrest]

lemma endsLines_element (hlegible : ∀ n ∈ content, n.Legible) (hname : '\r' ∉ (write name).toList)
    (hpairs : ∀ p ∈ tagPairs write more attributes, '\r' ∉ p.1.toList)
    (hmore : declarations.toList = more.flatMap attributeText)
    (hcontent : EndsLines (Node.renderAll write content).toList
      (Node.renderAll write (Node.withLineFeedsAll content)).toList true) :
    EndsLines ((Node.element name attributes content).render write declarations).toList
      ((Node.element name attributes content).withLineFeeds.render write declarations).toList
      false := by
  intro rest _
  have hvisible := any_isVisible hlegible
  have hvisible' : (Node.withLineFeedsAll content).any Node.isVisible = !content.isEmpty := by
    rw [withLineFeedsAll_eq, any_isVisible
      (List.forall_mem_map.2 fun n hn => legible_withLineFeeds (hlegible n hn)), List.isEmpty_map]
  rw [Node.withLineFeeds, toList_render_element hmore, toList_render_element hmore, hvisible,
    hvisible']
  split_ifs
  · have hend : '\r' ∉ '<' :: '/' :: ((write name).toList ++ ['>']) := by
      simp [hname]
    rw [List.append_assoc, List.append_assoc,
      singleLineEnds_of_not_mem (return_not_mem_tagText hname hpairs), hcontent _ fun _ => rfl,
      singleLineEnds_of_not_mem hend, List.append_assoc, List.append_assoc]
  · exact singleLineEnds_of_not_mem (return_not_mem_tagText hname hpairs) rest

lemma return_not_mem_of_spelled {m : Name} {written : String} (h : Spelled written m)
    (hm : ∀ c ∈ m.localPart.toList, inName c = true) : '\r' ∉ written.toList := by
  have hreturn : ∀ cs : List Char, (∀ c ∈ cs, inName c = true) → '\r' ∉ cs := fun cs hcs hmem =>
    absurd (hcs _ hmem) (by decide)
  rcases h with rfl | ⟨first, hfirst, heq⟩
  · exact hreturn _ hm
  · rw [heq]
    simp [hreturn _ hfirst.all_inName, hreturn _ hm]

lemma legible_of_mem_names (hn : n.Legible) : ∀ m ∈ n.names, m.Legible := by
  induction hn with
  | element hname _ hattributes _ _ _ ih =>
    exact forall_names_element.2 ⟨hname, fun a ha => (hattributes a ha).1.toLegible, ih⟩
  | text => exact List.forall_mem_nil _

lemma return_not_mem_tagPairs {attributes : List (Name × String)}
    (hmore : ∀ p ∈ more, '\r' ∉ p.1.toList)
    (hattributes : ∀ a ∈ attributes, '\r' ∉ (write a.1).toList) :
    ∀ p ∈ tagPairs write more attributes, '\r' ∉ p.1.toList := by
  refine List.forall_mem_append.2 ⟨hmore, fun p hp => ?_⟩
  obtain ⟨a, ha, rfl⟩ := List.mem_map.1 hp
  exact hattributes a ha

lemma endsLines_render (hn : n.Legible) (hwrite : ∀ m ∈ n.names, '\r' ∉ (write m).toList) :
    EndsLines (n.render write "").toList (n.withLineFeeds.render write "").toList n.isText := by
  induction hn with
  | element _ _ _ _ hcontent hapart ih =>
    obtain ⟨hname, hattributes, hnames⟩ := forall_names_element.1 hwrite
    exact endsLines_element hcontent hname
      (return_not_mem_tagPairs (List.forall_mem_nil _) hattributes) rfl
      (endsLines_content (fun n hn => ih n hn (hnames n hn)) hapart)
  | @text s hs hfilled =>
    intro rest hrest
    have hnext : rest.head? ≠ some '\n' := by
      rw [hrest rfl]
      decide
    rw [Node.withLineFeeds, toList_render_text, toList_render_text, String.toList_ofList,
      singleLineEnds_append hnext, singleLineEnds_escapedText]

/-! ### Allowed characters -/

lemma isAllowed_of_bounds {k : Nat} (hk : 32 ≤ k) (hk' : k < 0xD800) : isAllowed k = true := by
  simp [isAllowed, hk, hk']

lemma isAllowed_of_inName (h : inName c = true) : isAllowed c.toNat = true := by
  have hranges : ∀ r ∈ letterRanges ++ markRanges, 32 ≤ r.1 ∧ r.2 < 0xD800 := by decide +kernel
  have hcontrol : ∀ k < 32, inName (Char.ofNat k) = false := by decide
  by_cases hc : c.toNat < 128
  · have hlow : 32 ≤ c.toNat := by
      by_contra hlt
      have hno := hcontrol c.toNat (by omega)
      rw [Char.ofNat_toNat, h] at hno
      cases hno
    exact isAllowed_of_bounds hlow (by omega)
  · rw [inName, if_neg hc, Bool.or_eq_true] at h
    have hrange : ∃ r ∈ letterRanges ++ markRanges, r.1 ≤ c.toNat ∧ c.toNat ≤ r.2 := by
      simp only [inRanges, List.any_eq_true, Bool.and_eq_true, decide_eq_true_eq] at h
      rcases h with ⟨r, hr, hle⟩ | ⟨r, hr, hle⟩
      · exact ⟨r, List.mem_append_left _ hr, hle⟩
      · exact ⟨r, List.mem_append_right _ hr, hle⟩
    obtain ⟨r, hr, hle, hle'⟩ := hrange
    obtain ⟨hlow, hhigh⟩ := hranges r hr
    exact isAllowed_of_bounds (by omega) (by omega)

lemma admitted_of_spelled {m : Name} {written : String} (h : Spelled written m)
    (hm : ∀ c ∈ m.localPart.toList, inName c = true) : Admitted written.toList := by
  rcases h with rfl | ⟨first, hfirst, heq⟩
  · exact fun c hc => isAllowed_of_inName (hm c hc)
  · rw [heq, admitted_append, admitted_cons]
    exact ⟨fun c hc => isAllowed_of_inName (hfirst.all_inName c hc), by decide,
      fun c hc => isAllowed_of_inName (hm c hc)⟩

lemma IsTag.admitted (h : IsTag cs) : Admitted cs := by
  intro c hc
  rcases h.inName_or_colon hc with hname | rfl
  · exact isAllowed_of_inName hname
  · decide

lemma IsTag.return_not_mem (h : IsTag cs) : '\r' ∉ cs := fun hmem =>
  (h.inName_or_colon hmem).elim (absurd · (by decide)) (absurd · (by decide))

lemma Escape.admitted_value {t : String} (h : Admitted t.toList) : Admitted (value t).toList := by
  have hmarked : ∀ c ∈ marked, Admitted (inValue c).toList := by
    simp only [← List.forall_iff_forall_mem, Admitted]
    decide
  rw [toList_value]
  intro d hd
  obtain ⟨c, hc, hd⟩ := List.mem_flatMap.1 hd
  by_cases hmem : c ∈ marked
  · exact hmarked c hmem d hd
  · rw [inValue_of_not_mem hmem] at hd
    rw [List.mem_singleton.1 hd]
    exact h c hc

lemma admitted_escapedText (h : Admitted l) : Admitted (escapedText l) := by
  have hmarked : ∀ c ∈ Escape.markedInText, Admitted (Escape.inText c).toList := by
    simp only [← List.forall_iff_forall_mem, Admitted]
    decide
  intro d hd
  obtain ⟨c, hc, hd⟩ := List.mem_flatMap.1 hd
  by_cases hmem : c ∈ Escape.markedInText
  · exact hmarked c hmem d hd
  · rw [Escape.inText_of_not_mem hmem] at hd
    rw [List.mem_singleton.1 hd]
    exact h c hc

/-- A name and a value that may stand in a tag. -/
def AdmittedPair (p : String × String) : Prop := Admitted p.1.toList ∧ Admitted p.2.toList

lemma admitted_tagText {closed : Bool} {tag : String} {pairs : List (String × String)}
    (htag : Admitted tag.toList) (hpairs : ∀ p ∈ pairs, AdmittedPair p) :
    Admitted (Token.tagText tag pairs closed) := by
  have hend : Admitted (Token.tagEnd closed) := admitted_of_all (by cases closed <;> decide)
  refine admitted_cons.2 ⟨by decide, admitted_append.2 ⟨htag, admitted_append.2 ⟨?_, hend⟩⟩⟩
  intro c hc
  obtain ⟨p, hp, hc⟩ := List.mem_flatMap.1 hc
  obtain ⟨hname, hvalue⟩ := hpairs p hp
  have hpair : Admitted (attributeText p) := by
    simp only [attributeText, admitted_cons, admitted_append]
    exact ⟨by decide, hname, by decide, by decide, Escape.admitted_value hvalue, by decide,
      List.forall_mem_nil _⟩
  exact hpair c hc

lemma admitted_element (hname : Admitted (write name).toList)
    (hpairs : ∀ p ∈ tagPairs write more attributes, AdmittedPair p)
    (hmore : declarations.toList = more.flatMap attributeText)
    (hcontent : ∀ n ∈ content, Admitted (n.render write "").toList) :
    Admitted ((Node.element name attributes content).render write declarations).toList := by
  have hinner : Admitted (Node.renderAll write content).toList := by
    induction content with
    | nil => exact List.forall_mem_nil _
    | cons n content ih =>
      obtain ⟨hn, hcontent⟩ := List.forall_mem_cons.1 hcontent
      rw [Node.renderAll, String.toList_append, admitted_append]
      exact ⟨hn, ih hcontent⟩
  rw [toList_render_element hmore]
  split_ifs
  · simp only [admitted_append, admitted_cons]
    exact ⟨admitted_tagText hname hpairs, hinner, by decide, by decide, hname, by decide,
      List.forall_mem_nil _⟩
  · exact admitted_tagText hname hpairs

lemma admitted_tagPairs (hmore : ∀ p ∈ more, AdmittedPair p)
    (hwrite : ∀ a ∈ attributes, Admitted (write a.1).toList)
    (hvalues : ∀ a ∈ attributes, Admitted a.2.toList) :
    ∀ p ∈ tagPairs write more attributes, AdmittedPair p := by
  refine List.forall_mem_append.2 ⟨hmore, fun p hp => ?_⟩
  obtain ⟨a, ha, rfl⟩ := List.mem_map.1 hp
  exact ⟨hwrite a ha, hvalues a ha⟩

lemma admitted_render (hn : n.Legible) (hwrite : ∀ m ∈ n.names, Admitted (write m).toList) :
    Admitted (n.render write "").toList := by
  induction hn with
  | element _ _ hattributes _ _ _ ih =>
    obtain ⟨hname, hnames, hcontent⟩ := forall_names_element.1 hwrite
    exact admitted_element hname (admitted_tagPairs (List.forall_mem_nil _) hnames
      fun a ha => (hattributes a ha).2) rfl fun n hn => ih n hn (hcontent n hn)
  | text hs _ =>
    rw [toList_render_text]
    exact admitted_escapedText hs

end BomTable.Xml
