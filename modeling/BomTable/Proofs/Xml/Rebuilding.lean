import BomTable.Proofs.Xml.Documents

/-!
Trees built from the tokens of written trees. The tokens of a text lengthen one text, and those of
an element open it, go through its content and close it. So the tree that is read from a written
element is made of it tag by tag, each name being looked up in the scope that its tag is in.
-/

namespace BomTable.Xml

mutual

/-- What a written node is read as in a scope, where its first tag has more attributes. -/
def Node.reread (write : Name → String) (more : List (String × String)) (scope : Scope) :
    Node → Option Node
  | .element name attributes content => do
    let f ← Frame.ofTag .absent scope (write name) (escaped (tagPairs write more attributes))
    return .element f.name f.attributes (← rereadAll write f.scope content)
  | n => some n

def Node.rereadAll (write : Name → String) (scope : Scope) : List Node → Option (List Node)
  | [] => some []
  | n :: rest => do return (← n.reread write [] scope) :: (← rereadAll write scope rest)

end

variable {write : Name → String} {name : Name} {attributes : List (Name × String)}
  {content nodes : List Node} {n : Node} {more : List (String × String)} {f : Frame}
  {below : List Frame} {b : Build} {scope : Scope} {l : List Char}

/-! ### Texts -/

namespace Frame

lemma scope_add (f : Frame) (n : Node) : (f.add n).scope = f.scope := rfl

lemma addTo_empty (content : List Node) : addTo content (.text "") = content := by
  rw [addTo]

lemma addTo_text (content : List Node) {s t : String} (hs : s ≠ "") :
    addTo (.text t :: content) (.text s) = .text (t ++ s) :: content := by
  rw [addTo]
  exact hs

lemma addTo_of_apart (hn : n ≠ .text "") (hapart : ∀ m ∈ content.head?, m.Apart n) :
    addTo content n = n :: content := by
  rw [addTo]
  · exact hn
  · rintro s t rest rfl rfl
    exact hapart (.text t) rfl ⟨rfl, rfl⟩

lemma addTo_addTo (content : List Node) (s t : String) :
    addTo (addTo content (.text s)) (.text t) = addTo content (.text (s ++ t)) := by
  by_cases hs : s = ""
  · rw [hs, addTo_empty, String.empty_append]
  by_cases ht : t = ""
  · rw [ht, addTo_empty, String.append_empty]
  have hst : s ++ t ≠ "" := fun h => hs (String.append_eq_empty_iff.1 h).1
  -- the first text lengthens a text behind which it comes, and the second always does
  by_cases htext : ∃ u rest, content = .text u :: rest
  · obtain ⟨u, rest, rfl⟩ := htext
    rw [addTo_text rest hs, addTo_text rest ht, addTo_text rest hst, String.append_assoc]
  · have hapart : ∀ u, ∀ m ∈ content.head?, m.Apart (.text u) := by
      rintro u m hm ⟨hboth, -⟩
      obtain ⟨rest, rfl⟩ := List.head?_eq_some_iff.1 hm
      cases m with
      | text v => exact htext ⟨v, rest, rfl⟩
      | element | remark => cases hboth
    rw [addTo_of_apart (by simpa using hs) (hapart s), addTo_text content ht,
      addTo_of_apart (by simpa using hst) (hapart (s ++ t))]

lemma add_add (f : Frame) (s t : String) :
    (f.add (.text s)).add (.text t) = f.add (.text (s ++ t)) := by
  rw [add, add, addTo_addTo]
  rfl

end Frame

lemma addNode_of_frames (hframes : b.frames = f :: below) (n : Node) :
    b.addNode n = { b with frames := f.add n :: below } := by
  unfold Build.addNode
  rw [hframes]

lemma foldlM_textTokens (hframes : b.frames = f :: below) :
    (textTokens l).foldlM (Build.step false .absent) b =
      some { b with frames := f.add (.text (String.ofList l)) :: below } := by
  fun_induction textTokens l generalizing b f with
  | case1 =>
    have hsame : f.add (.text (String.ofList [])) = f := by
      rw [Frame.add, String.ofList_nil, Frame.addTo_empty]
    rw [List.foldlM_nil, hsame, ← hframes]
    rfl
  | case2 c cs _ ih =>
    rw [List.foldlM_cons, Build.step, Option.bind_eq_bind, Option.bind_some,
      addNode_of_frames hframes, ih rfl, Frame.add_add, ← String.ofList_append, List.cons_append,
      List.takeWhile_append_dropWhile]
  | case3 c cs _ ih =>
    rw [List.foldlM_cons, Build.step, Option.bind_eq_bind, Option.bind_some,
      addNode_of_frames hframes, ih rfl, Frame.add_add, ← String.ofList_append]
    rfl

/-! ### Elements -/

lemma Frame.tag_of_ofTag {d : Doctype} {tag : String} {written : List (String × List Char)}
    (h : ofTag d scope tag written = some f) : f.tag = tag ∧ f.content = [] := by
  obtain ⟨pairs, -, h⟩ := Option.bind_eq_some_iff.1 h
  obtain ⟨inner, -, h⟩ := Option.bind_eq_some_iff.1 h
  obtain ⟨name, -, h⟩ := Option.bind_eq_some_iff.1 h
  obtain ⟨named, -, h⟩ := Option.bind_eq_some_iff.1 h
  split_ifs at h
  cases h
  exact ⟨rfl, rfl⟩

/-- Nodes that are apart are put into an element one by one. -/
lemma content_foldl_add (hfilled : ∀ n ∈ nodes, n ≠ .text "")
    (hapart : (f.content.reverse ++ nodes).IsChain Node.Apart) :
    (nodes.foldl Frame.add f).content = nodes.reverse ++ f.content := by
  induction nodes generalizing f with
  | nil => rfl
  | cons n nodes ih =>
    obtain ⟨hn, hfilled⟩ := List.forall_mem_cons.1 hfilled
    have hadd : (f.add n).content = n :: f.content := by
      refine Frame.addTo_of_apart hn fun m hm => ?_
      obtain ⟨rest, hrest⟩ := List.head?_eq_some_iff.1 hm
      rw [hrest, List.reverse_cons, List.append_assoc, List.singleton_append] at hapart
      exact (List.isChain_append_cons_cons.1 hapart).2.1
    rw [List.foldl_cons, ih hfilled, hadd, List.reverse_cons, List.append_assoc]
    · rfl
    · rwa [hadd, List.reverse_cons, List.append_assoc]

lemma foldl_add_eq (nodes : List Node) (f : Frame) :
    nodes.foldl Frame.add f = { f with content := (nodes.foldl Frame.add f).content } := by
  induction nodes generalizing f with
  | nil => rfl
  | cons n nodes ih => rw [List.foldl_cons, ih]; rfl

lemma rereadAll_alike (hcontent : ∀ n ∈ content, n.Legible)
    (h : Node.rereadAll write scope content = some nodes) :
    (∀ n ∈ nodes, n ≠ .text "") ∧ nodes.map Node.isText = content.map Node.isText := by
  induction content generalizing nodes with
  | nil =>
    cases h
    exact ⟨List.forall_mem_nil _, rfl⟩
  | cons n content ih =>
    obtain ⟨hn, hcontent⟩ := List.forall_mem_cons.1 hcontent
    obtain ⟨n', hn', h⟩ := Option.bind_eq_some_iff.1 h
    obtain ⟨nodes', hnodes', h⟩ := Option.bind_eq_some_iff.1 h
    cases h
    obtain ⟨hfilled, hkinds⟩ := ih hcontent hnodes'
    cases hn with
    | element =>
      obtain ⟨f, -, hn'⟩ := Option.bind_eq_some_iff.1 hn'
      obtain ⟨inner, -, hn'⟩ := Option.bind_eq_some_iff.1 hn'
      cases hn'
      exact ⟨List.forall_mem_cons.2 ⟨fun h => (nomatch h), hfilled⟩, by simp [hkinds, Node.isText]⟩
    | text _ hs =>
      cases hn'
      exact ⟨List.forall_mem_cons.2 ⟨by simpa using hs, hfilled⟩, by simp [hkinds, Node.isText]⟩

lemma isChain_of_isText (h : nodes.map Node.isText = content.map Node.isText)
    (hapart : content.IsChain Node.Apart) : nodes.IsChain Node.Apart := by
  have hkinds : (content.map Node.isText).IsChain fun p q => ¬ (p = true ∧ q = true) := by
    rw [List.isChain_map]
    exact hapart
  rw [← h, List.isChain_map] at hkinds
  exact hkinds

/-- What the tokens of a node do to a tree that is being built: they add what it is read as. -/
def Rebuilds (write : Name → String) (n : Node) : Prop :=
  ∀ b f below, b.frames = f :: below →
    (n.tokens write []).foldlM (Build.step false .absent) b =
      (n.reread write [] f.scope).map b.addNode

lemma foldlM_content (hcontent : ∀ n ∈ content, Rebuilds write n)
    (hframes : b.frames = f :: below) :
    (Node.tokensAll write content).foldlM (Build.step false .absent) b =
      (Node.rereadAll write f.scope content).map fun nodes =>
        { b with frames := nodes.foldl Frame.add f :: below } := by
  induction content generalizing b f with
  | nil =>
    rw [Node.tokensAll, List.foldlM_nil, Node.rereadAll, Option.map_some, List.foldl_nil, ← hframes]
    rfl
  | cons n content ih =>
    obtain ⟨hn, hcontent⟩ := List.forall_mem_cons.1 hcontent
    rw [Node.tokensAll, List.foldlM_append, hn b f below hframes, Node.rereadAll]
    cases n.reread write [] f.scope with
    | none => rfl
    | some n' =>
      have hrest := ih hcontent (b := b.addNode n') (f := f.add n')
        (by rw [addNode_of_frames hframes])
      rw [Option.map_some, Option.bind_eq_bind, Option.bind_some, hrest]
      rw [Frame.scope_add, Option.bind_eq_bind, Option.bind_some]
      cases Node.rereadAll write f.scope content with
      | none => rfl
      | some nodes =>
        rw [addNode_of_frames hframes]
        rfl

lemma step_opening (b : Build) (pairs : List (String × String)) (closed : Bool) :
    Build.step false .absent b (.opening (write name) (escaped pairs) closed) =
      (Frame.ofTag .absent b.scope (write name) (escaped pairs)).map
        fun f => if closed then b.addNode f.node else { b with frames := f :: b.frames } := by
  rw [Build.step]
  cases Frame.ofTag .absent b.scope (write name) (escaped pairs) <;> rfl

lemma node_foldl_add (hlegible : ∀ n ∈ content, n.Legible) (hapart : content.IsChain Node.Apart)
    (hnodes : Node.rereadAll write scope content = some nodes) (hnil : f.content = []) :
    (nodes.foldl Frame.add f).node = .element f.name f.attributes nodes := by
  obtain ⟨hfilled, hkinds⟩ := rereadAll_alike hlegible hnodes
  have hchain : (f.content.reverse ++ nodes).IsChain Node.Apart := by
    rw [hnil]
    exact isChain_of_isText hkinds hapart
  rw [foldl_add_eq, content_foldl_add hfilled hchain, hnil, List.append_nil, Frame.node,
    List.reverse_reverse]

/-- The tokens of an element open it, go through its content and close it. -/
lemma foldlM_element (hlegible : ∀ n ∈ content, n.Legible) (hapart : content.IsChain Node.Apart)
    (hcontent : ∀ n ∈ content, Rebuilds write n) (b : Build) :
    ((Node.element name attributes content).tokens write more).foldlM
        (Build.step false .absent) b =
      ((Node.element name attributes content).reread write more b.scope).map b.addNode := by
  rw [Node.tokens, Node.reread, any_isVisible hlegible]
  split_ifs with hempty
  · rw [List.foldlM_cons, step_opening]
    cases hf : Frame.ofTag .absent b.scope (write name)
        (escaped (tagPairs write more attributes)) with
    | none => rfl
    | some f =>
      obtain ⟨htag, hnil⟩ := Frame.tag_of_ofTag hf
      rw [Option.map_some, Option.bind_eq_bind, Option.bind_some, if_neg (by decide),
        List.foldlM_append, foldlM_content hcontent rfl]
      change _ = ((Node.rereadAll write f.scope content).bind fun nodes =>
        some (.element f.name f.attributes nodes)).map b.addNode
      cases hnodes : Node.rereadAll write f.scope content with
      | none => rfl
      | some nodes =>
        -- the end tag fits, as nothing that is put into an element changes its tag
        have hsame : (nodes.foldl Frame.add f).tag = write name := by
          rw [foldl_add_eq]
          exact htag
        rw [Option.map_some, Option.bind_eq_bind, Option.bind_some, List.foldlM_cons, Build.step]
        dsimp only
        rw [if_pos hsame, node_foldl_add hlegible hapart hnodes hnil]
        rfl
  · have hnil : content = [] := by simpa using hempty
    subst hnil
    rw [List.foldlM_cons, step_opening]
    cases hf : Frame.ofTag .absent b.scope (write name)
        (escaped (tagPairs write more attributes)) with
    | none => rfl
    | some f =>
      obtain ⟨-, hnil⟩ := Frame.tag_of_ofTag hf
      have hnode : f.node = .element f.name f.attributes [] := by
        rw [Frame.node, hnil, List.reverse_nil]
      rw [Option.map_some, Option.bind_eq_bind, Option.bind_some, if_pos rfl, hnode]
      rfl

lemma rebuilds_of_legible (hn : n.Legible) : Rebuilds write n := by
  induction hn with
  | element _ _ _ _ hcontent hapart ih =>
    intro b f below hframes
    have hscope : b.scope = f.scope := by
      rw [Build.scope, hframes]
    rw [← hscope]
    exact foldlM_element hcontent hapart ih b
  | @text s _ _ =>
    intro b f below hframes
    have htext : (Node.text s).reread write [] f.scope = some (.text s) := rfl
    rw [Node.tokens, foldlM_textTokens hframes, String.ofList_toList, htext, Option.map_some,
      addNode_of_frames hframes]

/-- **The tree that is built from the tokens of an element** is what the element is read as. -/
theorem root?_tokens (hn : (Node.element name attributes content).Legible) :
    Build.root? false .absent ((Node.element name attributes content).tokens write more) =
      (Node.element name attributes content).reread write more .start := by
  cases hn with
  | element _ _ _ _ hcontent hapart =>
    rw [Build.root?, foldlM_element hcontent hapart fun n hn => rebuilds_of_legible (hcontent n hn)]
    have hstart : Build.scope ⟨[], none⟩ = .start := rfl
    rw [hstart, Node.reread]
    cases Frame.ofTag .absent .start (write name) (escaped (tagPairs write more attributes)) with
    | none => rfl
    | some f =>
      dsimp only [Option.bind_eq_bind, Option.bind_some]
      cases Node.rereadAll write f.scope content <;> rfl

/-! ### Documents -/

lemma rooted_textTokens (depth : Nat) (ts : List Token) :
    Token.rooted (depth + 1) (textTokens l ++ ts) = Token.rooted (depth + 1) ts := by
  fun_induction textTokens l with
  | case1 => rfl
  | case2 c cs _ ih =>
    rw [List.cons_append, Token.rooted, ih]
    · rintro _ _ _ ⟨⟩
    · rintro _ ⟨⟩
  | case3 c cs _ ih =>
    rw [List.cons_append, Token.rooted, ih]
    · rintro _ _ _ ⟨⟩
    · rintro _ ⟨⟩

/-- The tokens of a node leave as many elements open as there are. -/
def KeepsOpen (ts : List Token) : Prop :=
  ∀ depth rest, Token.rooted (depth + 1) (ts ++ rest) = Token.rooted (depth + 1) rest

lemma keepsOpen_content (hcontent : ∀ n ∈ content, KeepsOpen (n.tokens write [])) :
    KeepsOpen (Node.tokensAll write content) := by
  induction content with
  | nil => exact fun _ _ => rfl
  | cons n content ih =>
    obtain ⟨hn, hcontent⟩ := List.forall_mem_cons.1 hcontent
    intro depth rest
    rw [Node.tokensAll, List.append_assoc, hn, ih hcontent]

lemma keepsOpen_tokens (hn : n.Legible) : KeepsOpen (n.tokens write []) := by
  induction hn with
  | element _ _ _ _ _ _ ih =>
    intro depth rest
    rw [Node.tokens]
    split_ifs
    · rw [List.cons_append, Token.rooted, List.append_assoc, if_neg (by decide),
        keepsOpen_content ih, List.singleton_append, Token.rooted, if_neg (Nat.succ_ne_zero depth)]
    · rw [List.singleton_append, Token.rooted, if_pos rfl]
  | text => exact fun depth rest => rooted_textTokens depth rest

lemma rooted_tokens (hcontent : ∀ n ∈ content, n.Legible) :
    Token.rooted 0 ((Node.element name attributes content).tokens write more) = true := by
  rw [Node.tokens]
  split_ifs
  · rw [Token.rooted, if_neg (by decide),
      keepsOpen_content fun n hn => keepsOpen_tokens (hcontent n hn)]
    rfl
  · rfl

lemma isEntity_textTokens : ∀ t ∈ textTokens l, t.isEntity = false := by
  fun_induction textTokens l with
  | case1 => exact List.forall_mem_nil _
  | case2 c cs _ ih => exact List.forall_mem_cons.2 ⟨rfl, ih⟩
  | case3 c cs _ ih => exact List.forall_mem_cons.2 ⟨rfl, ih⟩

mutual

lemma Node.isEntity_tokens (more : List (String × String)) : (n : Node) →
    ∀ t ∈ n.tokens write more, t.isEntity = false
  | .element name attributes content => by
    have hcontent := isEntity_tokensAll content
    rw [tokens]
    split_ifs
    · simpa [Token.isEntity, or_imp, forall_and] using hcontent
    · simp [Token.isEntity]
  | .text s => isEntity_textTokens
  | .remark .. => List.forall_mem_nil _

lemma Node.isEntity_tokensAll : (content : List Node) →
    ∀ t ∈ tokensAll write content, t.isEntity = false
  | [] => List.forall_mem_nil _
  | n :: rest => List.forall_mem_append.2 ⟨isEntity_tokens [] n, isEntity_tokensAll rest⟩

end

section

variable {c : Char} {cs : List Char} (hc : beginsName c = true)

include hc

lemma read_of_tag : Declaration.read ('<' :: c :: cs) = some (.absent, '<' :: c :: cs) := by
  have hquestion : '?' ≠ c := (ne_of_inName (inName_of_beginsName hc) (by decide)).symm
  have hword : afterWord? "<?xml" ('<' :: c :: cs) = none := by
    simp [afterWord?, after?, hquestion]
  rw [Declaration.read, hword]

lemma readProlog_of_tag :
    Doctype.readProlog false ('<' :: c :: cs) = some (.absent, '<' :: c :: cs) := by
  have hskip : skipSpace ('<' :: c :: cs) = '<' :: c :: cs :=
    Token.skipSpace_of_not (by decide) _
  have hpieces : Piece.readAll (('<' :: c :: cs).length + 1) ('<' :: c :: cs) =
      some ([], '<' :: c :: cs) := by
    rw [Piece.readAll, hskip, Piece.atElement, if_pos hc]
  rw [Doctype.readProlog, hpieces]
  rfl

lemma ofText_eq_bind {text : String} (htext : text.toList = '<' :: c :: cs)
    (hadmitted : Admitted text.toList) :
    Node.ofText false text = (Token.ofChars (singleLineEnds text.toList)).bind fun ts =>
      if Token.rooted 0 ts then
        (Token.expand .empty 0 ts).bind (Build.root? false .absent)
      else none := by
  have hmark : withoutMark text.toList = text.toList := by
    rw [htext, withoutMark, if_neg (by decide)]
  have hends : singleLineEnds text.toList = '<' :: c :: singleLineEnds cs := by
    have hreturn : '\r' ≠ c := (ne_of_inName (inName_of_beginsName hc) (by decide)).symm
    rw [htext]
    exact singleLineEnds_of_not_mem (s := ['<', c]) (by simp [hreturn]) cs
  have hprolog : Doctype.readProlog false (singleLineEnds text.toList) =
      some (.absent, singleLineEnds text.toList) := by
    rw [hends]
    exact readProlog_of_tag hc
  have hallowed : (text.toList.all fun c => isAllowed c.toNat) = true :=
    List.all_eq_true.2 hadmitted
  unfold Node.ofText
  rw [hmark, htext, read_of_tag hc, ← htext, Option.bind_eq_bind, Option.bind_some]
  dsimp only
  unfold Node.ofRest
  rw [if_pos hallowed]
  change ((Doctype.readProlog false (singleLineEnds text.toList)).bind fun x =>
    (Token.ofChars x.2).bind fun ts =>
      if Token.rooted 0 ts && x.1.entities.fits text.toList.length x.2 then
        (Token.expand x.1.entities x.1.entities.table.length ts).bind (Build.root? false x.1)
      else none) = _
  rw [hprolog, Option.bind_some]
  have hfits : ∀ part, Doctype.absent.entities.fits text.toList.length part = true := by
    intro part
    simp [Entities.fits, Doctype.absent, Entities.empty]
  simp only [hfits, Bool.and_true]
  rfl

end

section

variable {declarations : String}
  (hn : (Node.element name attributes content).Legible)
  (hspelled : ∀ m ∈ (Node.element name attributes content).names, Spelled (write m) m)
  (hmore : ∀ p ∈ more, IsTag p.1.toList ∧ Admitted p.2.toList)
  (hdeclarations : declarations.toList = more.flatMap attributeText)

include hn hspelled hmore hdeclarations

lemma ofText_render_eq_bind :
    Node.ofText false ((Node.element name attributes content).render write declarations) =
      (Token.ofChars ((Node.element name attributes content).withLineFeeds.render write
        declarations).toList).bind fun ts =>
          if Token.rooted 0 ts then
            (Token.expand .empty 0 ts).bind (Build.root? false .absent)
          else none := by
  cases hn with
  | element hname hlocal hattributes hnodup hcontent hapart =>
    have hlegible := legible_of_mem_names (.element hname hlocal hattributes hnodup hcontent hapart)
    obtain ⟨hwritten, hlabels, hnames⟩ := forall_names_element.1 hspelled
    have hreturn := fun m hm => return_not_mem_of_spelled (hspelled m hm) (hlegible m hm).localPart
    have hadmits := fun m hm => admitted_of_spelled (hspelled m hm) (hlegible m hm).localPart
    obtain ⟨hreturnName, hreturnLabels, hreturnNames⟩ := forall_names_element.1 hreturn
    obtain ⟨hadmitsName, hadmitsLabels, hadmitsNames⟩ := forall_names_element.1 hadmits
    obtain ⟨c, cs, hcs, hc⟩ := (hwritten.isTag hlocal).exists_cons
    have hends := endsLines_element hcontent hreturnName
      (return_not_mem_tagPairs (fun p hp => (hmore p hp).1.return_not_mem) hreturnLabels)
      hdeclarations
      (endsLines_content (fun n hn => endsLines_render (hcontent n hn) (hreturnNames n hn)) hapart)
      [] fun h => nomatch h
    have hadmitted := admitted_element hadmitsName
      (admitted_tagPairs (fun p hp => ⟨(hmore p hp).1.admitted, (hmore p hp).2⟩) hadmitsLabels
        fun a ha => (hattributes a ha).2) hdeclarations
      fun n hn => admitted_render (hcontent n hn) (hadmitsNames n hn)
    have hbegins : ∃ tail, ((Node.element name attributes content).render write
        declarations).toList = '<' :: c :: tail := by
      rw [toList_render_element hdeclarations]
      split_ifs <;> exact ⟨_, by rw [Token.tagText, hcs]; rfl⟩
    obtain ⟨tail, htail⟩ := hbegins
    have hnil : singleLineEnds [] = [] := rfl
    rw [List.append_nil, hnil, List.append_nil] at hends
    rw [ofText_eq_bind hc htail hadmitted, hends]

/-- **What a written element is read as**: its tags are read one by one, from the scope that every
document begins in. -/
theorem ofText_render (hstray : ¬ (Node.element name attributes content).Stray) :
    Node.ofText false ((Node.element name attributes content).render write declarations) =
      (Node.element name attributes content).withLineFeeds.reread write more .start := by
  have hfeeds := legible_withLineFeeds hn
  have hwrite := isTag_of_not_stray hn hspelled hstray
  rw [← Node.names_withLineFeeds] at hwrite
  rw [ofText_render_eq_bind hn hspelled hmore hdeclarations]
  rw [Node.withLineFeeds] at hfeeds hwrite ⊢
  have hcontent : ∀ n ∈ Node.withLineFeedsAll content, n.Legible := by
    cases hfeeds with
    | element _ _ _ _ hcontent _ => exact hcontent
  rw [ofChars_render hfeeds hwrite (fun p hp => (hmore p hp).1) hdeclarations, Option.bind_some,
    if_pos (rooted_tokens hcontent)]
  have hexpand : Token.expand .empty 0
      ((Node.element name attributes (Node.withLineFeedsAll content)).tokens write more) =
        some ((Node.element name attributes (Node.withLineFeedsAll content)).tokens write
          more) := by
    refine if_neg fun hany => ?_
    obtain ⟨t, ht, hentity⟩ := List.any_eq_true.1 hany
    rw [Node.isEntity_tokens more _ t ht] at hentity
    cases hentity
  rw [hexpand, Option.bind_some, root?_tokens hfeeds]

theorem ofText_render_eq_none (hstray : (Node.element name attributes content).Stray) :
    Node.ofText false ((Node.element name attributes content).render write declarations) =
      none := by
  have hfeeds := legible_withLineFeeds hn
  have hwrite := hspelled
  rw [← Node.names_withLineFeeds] at hwrite
  unfold Node.Stray at hstray
  rw [← Node.elements_withLineFeeds] at hstray
  rw [ofText_render_eq_bind hn hspelled hmore hdeclarations]
  rw [Node.withLineFeeds] at hfeeds hwrite hstray ⊢
  rw [ofChars_render_eq_none hfeeds hwrite (fun p hp => (hmore p hp).1) hdeclarations hstray,
    Option.bind_none]

end

end BomTable.Xml
