import BomTable.Proofs.Xml.Prefixes
import BomTable.Proofs.Xml.Tags

/-!
The tokens of a written tree. What is written for a text is read as runs of plain characters and
single characters in between, and what is written for an element as its tags with its content
between them.
-/

namespace BomTable.Xml

variable {c : Char} {cs rest l : List Char} {m : Nat}

/-! ### Texts -/

/-- Whether a character stands for itself in a text. -/
def standsForItself (c : Char) : Bool := !Escape.markedInText.contains c

/-- The tokens of a text as it is written: runs of characters that stand for themselves, and the
others one by one. -/
def textTokens : List Char → List Token
  | [] => []
  | c :: cs =>
    if standsForItself c then
      .chars (c :: cs.takeWhile standsForItself) :: textTokens (cs.dropWhile standsForItself)
    else .quoted [c] :: textTokens cs
termination_by cs => cs.length
decreasing_by
  all_goals
    have hle := (List.dropWhile_suffix standsForItself (l := cs)).length_le
    simp only [List.length_cons]
    omega

lemma readAll_of_read {t : Token} (hcs : cs ≠ []) (h : Token.read cs = some (t, rest)) (m : Nat) :
    Token.readAll (m + 1) cs = (Token.readAll m rest).map (t :: ·) := by
  obtain ⟨c, cs, rfl⟩ := List.exists_cons_of_ne_nil hcs
  rw [Token.readAll, h, Option.bind_eq_bind, Option.bind_some]
  dsimp only
  cases Token.readAll m rest <;> rfl

/-- The text as it is written. -/
def escapedText (l : List Char) : List Char := l.flatMap fun c => (Escape.inText c).toList

lemma escapedText_of_standsForItself (h : ∀ c ∈ l, standsForItself c = true) :
    escapedText l = l := by
  induction l with
  | nil => rfl
  | cons c l ih =>
    obtain ⟨hc, hl⟩ := List.forall_mem_cons.1 h
    have hmem : c ∉ Escape.markedInText := by simpa [standsForItself] using hc
    rw [escapedText, List.flatMap_cons, Escape.inText_of_not_mem hmem, ← escapedText, ih hl]
    rfl

lemma cutAt_eq_none (h : '>' ∉ l) : cutAt [']', ']', '>'] l = none := by
  induction l with
  | nil => rfl
  | cons c l ih =>
    rw [cutAt]
    cases hafter : after? [']', ']', '>'] (c :: l) with
    | some rest => exact absurd (by rw [after?_eq hafter]; simp) h
    | none => rw [ih fun hmem => h (List.mem_cons_of_mem c hmem), Option.map_none]

lemma read_chars (hc : standsForItself c = true) (hl : ∀ d ∈ l, standsForItself d = true)
    (hrest : ∀ d ∈ rest.head?, Token.isPlain d = false) :
    Token.read (c :: (l ++ rest)) = some (.chars (c :: l), rest) := by
  have hmarked : ∀ d, standsForItself d = true → Token.isPlain d = true ∧ d ≠ '>' := by
    intro d hd
    simp only [standsForItself, Escape.markedInText, Bool.not_eq_true', List.contains_eq_mem,
      decide_eq_false_iff_not, List.mem_cons, List.not_mem_nil, or_false, not_or] at hd
    simp [Token.isPlain, hd]
  have hrun : ∀ d ∈ c :: l, standsForItself d = true := List.forall_mem_cons.2 ⟨hc, hl⟩
  obtain ⟨htake, hdrop⟩ := takeWhile_append_of_ended (fun d hd => (hmarked d (hrun d hd)).1) hrest
  have hcut : cutAt [']', ']', '>'] (c :: l) = none :=
    cutAt_eq_none fun hmem => (hmarked _ (hrun _ hmem)).2 rfl
  have hplain : Token.isPlain c = true := (hmarked c hc).1
  have hchars : Token.read (c :: (l ++ rest)) = Token.readChars (c :: (l ++ rest)) := by
    unfold Token.read
    split
    · next h => simp [Token.isPlain, (List.cons.inj h).1] at hplain
    · next h => simp [Token.isPlain, (List.cons.inj h).1] at hplain
    · rfl
  rw [hchars, ← List.cons_append, Token.readChars, htake, hdrop, hcut]
  rfl

/-- A text that begins with a character that stands for itself, cut behind all such characters. -/
lemma escapedText_run (hc : standsForItself c = true) : escapedText (c :: cs) ++ rest =
    c :: (cs.takeWhile standsForItself ++
      (escapedText (cs.dropWhile standsForItself) ++ rest)) := by
  have hrun : escapedText (c :: cs.takeWhile standsForItself) = c :: cs.takeWhile standsForItself :=
    escapedText_of_standsForItself
      (List.forall_mem_cons.2 ⟨hc, fun _ hd => List.mem_takeWhile_imp hd⟩)
  conv_lhs => rw [← List.takeWhile_append_dropWhile (p := standsForItself) (l := cs)]
  rw [← List.cons_append, escapedText, List.flatMap_append, ← escapedText, hrun, ← escapedText]
  simp

/-- A run of plain characters ends where the text has another one, or where a tag follows it. -/
lemma not_isPlain_behind (hrest : rest.head? = some '<') :
    ∀ d ∈ (escapedText (cs.dropWhile standsForItself) ++ rest).head?, Token.isPlain d = false := by
  intro d hd
  cases hdrop : cs.dropWhile standsForItself with
  | nil =>
    rw [hdrop] at hd
    cases hrest.symm.trans hd
    rfl
  | cons e q =>
    have he : standsForItself e ≠ true := by
      simpa [hdrop] using List.head?_dropWhile_not standsForItself cs
    obtain ⟨body, hbody, -⟩ := Escape.read_inText (by simpa [standsForItself] using he)
    rw [hdrop, escapedText, List.flatMap_cons, hbody] at hd
    cases hd
    rfl

lemma readAll_text (hrest : rest.head? = some '<') :
    Token.readAll ((textTokens l).length + m) (escapedText l ++ rest) =
      (Token.readAll m rest).map (textTokens l ++ ·) := by
  fun_induction textTokens l with
  | case1 => simp [escapedText]
  | case2 c cs hc ih =>
    have hl : ∀ d ∈ cs.takeWhile standsForItself, standsForItself d = true := fun d hd =>
      List.mem_takeWhile_imp hd
    rw [escapedText_run hc, List.length_cons, Nat.add_right_comm,
      readAll_of_read (List.cons_ne_nil _ _) (read_chars hc hl (not_isPlain_behind hrest)), ih,
      Option.map_map]
    rfl
  | case3 c cs hc ih =>
    have hmem : c ∈ Escape.markedInText := by simpa [standsForItself] using hc
    obtain ⟨body, hbody, hread⟩ := Escape.read_inText hmem
    have htext : escapedText (c :: cs) ++ rest = '&' :: (body ++ (escapedText cs ++ rest)) := by
      rw [escapedText, List.flatMap_cons, hbody]
      simp [escapedText]
    have hquoted : Token.read ('&' :: (body ++ (escapedText cs ++ rest))) =
        some (.quoted [c], escapedText cs ++ rest) := hread _
    rw [htext, List.length_cons, Nat.add_right_comm, readAll_of_read (List.cons_ne_nil _ _) hquoted,
      ih, Option.map_map]
    rfl

/-! ### Trees -/

mutual

/-- The elements of a tree with their names and attributes, in the order of the document. -/
def Node.elements : Node → List (Name × List (Name × String))
  | .element name attributes content => (name, attributes) :: elementsAll content
  | .remark _ content => elementsAll content
  | .text _ => []

def Node.elementsAll : List Node → List (Name × List (Name × String))
  | [] => []
  | n :: rest => n.elements ++ elementsAll rest

end

mutual

/-- The tokens of a node as it is written, with more attributes in its first tag. -/
def Node.tokens (write : Name → String) (more : List (String × String)) : Node → List Token
  | .element name attributes content =>
    let opening := Token.opening (write name) (escaped (tagPairs write more attributes))
    if content.any Node.isVisible then
      opening false :: (tokensAll write content ++ [.closing (write name)])
    else [opening true]
  | .text s => textTokens s.toList
  | .remark .. => []

def Node.tokensAll (write : Name → String) : List Node → List Token
  | [] => []
  | n :: rest => n.tokens write [] ++ tokensAll write rest

end

variable {write : Name → String} {name : Name} {attributes : List (Name × String)}
  {content : List Node} {n : Node} {more : List (String × String)} {declarations : String}

mutual

lemma Node.names_eq : (n : Node) → n.names = n.elements.flatMap fun e => e.1 :: e.2.map (·.1)
  | .element name attributes content => by
    rw [names, elements, List.flatMap_cons, namesAll_eq, List.cons_append]
  | .remark _ content => by rw [names, elements, namesAll_eq]
  | .text _ => rfl

lemma Node.namesAll_eq : (content : List Node) →
    namesAll content = (elementsAll content).flatMap fun e => e.1 :: e.2.map (·.1)
  | [] => rfl
  | n :: rest => by rw [namesAll, elementsAll, List.flatMap_append, names_eq, namesAll_eq]

end

lemma flatMap_attributes (attributes : List (Name × String)) :
    (attributes.map fun a => " " ++ write a.1 ++ "=\"" ++ Escape.value a.2 ++ "\"").flatMap
      String.toList = (attributes.map fun a => (write a.1, a.2)).flatMap attributeText := by
  rw [List.flatMap_map, List.flatMap_map]
  congr 1
  funext a
  simp [attributeText, String.toList_append]

lemma toList_render_element (hmore : declarations.toList = more.flatMap attributeText) :
    ((Node.element name attributes content).render write declarations).toList =
      if content.any Node.isVisible then
        Token.tagText (write name) (tagPairs write more attributes) false ++
          ((Node.renderAll write content).toList ++ '<' :: '/' :: ((write name).toList ++ ['>']))
      else Token.tagText (write name) (tagPairs write more attributes) true := by
  rw [Node.render]
  split_ifs <;>
    simp [Token.tagText, tagPairs, Token.tagEnd, String.toList_append, hmore, flatMap_attributes]

lemma toList_render_text (s : String) :
    ((Node.text s).render write declarations).toList = escapedText s.toList :=
  Escape.toList_text s

lemma head?_render (hn : n.isText = false) :
    (n.render write declarations).toList.head? = some '<' := by
  cases n with
  | element name attributes content =>
    rw [Node.render]
    split_ifs <;> simp [String.toList_append]
  | text s => cases hn
  | remark r content => cases r <;> simp [Node.render, Remark.written, String.toList_append]

lemma follows_of_apart (hnext : ∀ next ∈ content.head?, n.Apart next)
    (hrest : rest.head? = some '<') : n.isText = true →
      ((Node.renderAll write content).toList ++ rest).head? = some '<' := by
  intro htext
  cases content with
  | nil => exact hrest
  | cons next content =>
    have hnot : next.isText = false := by
      by_contra hboth
      exact hnext next rfl ⟨htext, by simpa using hboth⟩
    rw [Node.renderAll, String.toList_append, List.append_assoc, List.head?_append,
      head?_render hnot]
    rfl

/-- The text of a node is read as its tokens and leaves what follows it, if that cannot lengthen a
text. -/
structure ReadsAs (text : List Char) (isText : Bool) (ts : List Token) : Prop where
  length_le : ts.length ≤ text.length
  readAll : ∀ rest m, (isText = true → rest.head? = some '<') →
    Token.readAll (ts.length + m) (text ++ rest) = (Token.readAll m rest).map (ts ++ ·)

lemma length_le_escapedText (l : List Char) : l.length ≤ (escapedText l).length := by
  induction l with
  | nil => exact le_rfl
  | cons c l ih =>
    have hpos : 0 < (Escape.inText c).toList.length := by
      by_cases hc : c ∈ Escape.markedInText
      · obtain ⟨body, hbody, -⟩ := Escape.read_inText hc
        simp [hbody]
      · simp [Escape.inText_of_not_mem hc]
    rw [escapedText, List.flatMap_cons, ← escapedText, List.length_append, List.length_cons]
    omega

lemma length_textTokens_le (l : List Char) : (textTokens l).length ≤ l.length := by
  fun_induction textTokens l with
  | case1 => exact le_rfl
  | case2 c cs _ ih =>
    have hle := (List.dropWhile_suffix standsForItself (l := cs)).length_le
    simp only [List.length_cons]
    omega
  | case3 c cs _ ih =>
    simp only [List.length_cons]
    omega

lemma readsAs_text : ReadsAs (escapedText l) true (textTokens l) where
  length_le := (length_textTokens_le l).trans (length_le_escapedText l)
  readAll := fun _ _ hrest => readAll_text (hrest rfl)

lemma readsAs_content (hcontent : ∀ n ∈ content,
      ReadsAs (n.render write "").toList n.isText (n.tokens write []))
    (hapart : content.IsChain Node.Apart) :
    ReadsAs (Node.renderAll write content).toList true (Node.tokensAll write content) := by
  induction content with
  | nil => exact ⟨le_rfl, fun rest m _ => by simp [Node.renderAll, Node.tokensAll]⟩
  | cons n content ih =>
    obtain ⟨hn, hcontent⟩ := List.forall_mem_cons.1 hcontent
    obtain ⟨hnext, hapart⟩ := List.isChain_cons.1 hapart
    have hbehind := ih hcontent hapart
    rw [Node.renderAll, Node.tokensAll, String.toList_append]
    refine ⟨?_, fun rest m hrest => ?_⟩
    · have hle := hn.length_le
      have hle' := hbehind.length_le
      simp only [List.length_append]
      omega
    · rw [List.append_assoc, List.length_append, Nat.add_assoc,
        hn.readAll _ _ (follows_of_apart hnext (hrest rfl)), hbehind.readAll _ _ hrest,
        Option.map_map]
      simp [Function.comp_def]

lemma readsAs_element (hname : IsTag (write name).toList)
    (hpairs : ∀ p ∈ tagPairs write more attributes, IsTag p.1.toList)
    (hmore : declarations.toList = more.flatMap attributeText)
    (hcontent : ReadsAs (Node.renderAll write content).toList true (Node.tokensAll write content)) :
    ReadsAs ((Node.element name attributes content).render write declarations).toList false
      ((Node.element name attributes content).tokens write more) := by
  have hopening := fun closed rest => Token.read_tagText hname hpairs closed rest
  rw [toList_render_element hmore, Node.tokens]
  split_ifs
  · refine ⟨?_, fun rest m _ => ?_⟩
    · have hle := hcontent.length_le
      simp only [Token.tagText, List.length_append, List.length_cons]
      omega
    · have hclosing := Token.read_closing hname rest
      rw [List.append_assoc, List.append_assoc, List.length_cons, Nat.add_right_comm,
        readAll_of_read (Token.tagText_ne_nil _) (hopening false _), List.length_append,
        Nat.add_assoc,
        hcontent.readAll _ _ fun _ => rfl]
      simp only [List.cons_append, List.append_assoc, List.nil_append, List.length_singleton,
        Nat.add_comm 1 m, readAll_of_read (List.cons_ne_nil _ _) hclosing, Option.map_map]
      rfl
  · refine ⟨?_, fun rest m _ => ?_⟩
    · simp [Token.tagText]
    · rw [List.length_singleton, Nat.add_comm 1 m,
        readAll_of_read (Token.tagText_ne_nil _) (hopening true _)]
      rfl

/-! ### What is read -/

lemma mem_namesAll {m : Name} : m ∈ Node.namesAll content ↔ ∃ n ∈ content, m ∈ n.names := by
  induction content with
  | nil => simp [Node.namesAll]
  | cons n content ih => simp [Node.namesAll, ih]

lemma forall_names_element {P : Name → Prop} :
    (∀ m ∈ (Node.element name attributes content).names, P m) ↔
      P name ∧ (∀ a ∈ attributes, P a.1) ∧ ∀ n ∈ content, ∀ m ∈ n.names, P m := by
  simp only [Node.names, List.forall_mem_cons, List.forall_mem_append, List.forall_mem_map,
    mem_namesAll]
  refine and_congr Iff.rfl (and_congr Iff.rfl ⟨fun h n hn m hm => h m ⟨n, hn, hm⟩, ?_⟩)
  rintro h m ⟨n, hn, hm⟩
  exact h n hn m hm

lemma isTag_of_mem_tagPairs (hmore : ∀ p ∈ more, IsTag p.1.toList)
    (hattributes : ∀ a ∈ attributes, IsTag (write a.1).toList) :
    ∀ p ∈ tagPairs write more attributes, IsTag p.1.toList := by
  refine List.forall_mem_append.2 ⟨hmore, fun p hp => ?_⟩
  obtain ⟨a, ha, rfl⟩ := List.mem_map.1 hp
  exact hattributes a ha

lemma readsAs_render (hn : n.Legible) (hwrite : ∀ name ∈ n.names, IsTag (write name).toList) :
    ReadsAs (n.render write "").toList n.isText (n.tokens write []) := by
  induction hn with
  | @element name attributes content _ _ _ _ _ hapart ih =>
    obtain ⟨hname, hattributes, hcontent⟩ := forall_names_element.1 hwrite
    exact readsAs_element hname (isTag_of_mem_tagPairs (List.forall_mem_nil _) hattributes) rfl
      (readsAs_content (fun n hn => ih n hn (hcontent n hn)) hapart)
  | @text s hs hfilled =>
    rw [toList_render_text]
    exact readsAs_text

lemma readAll_of_le {fuel fuel' : Nat} {ts : List Token} (h : Token.readAll fuel cs = some ts)
    (hlength : ts.length ≤ fuel') : Token.readAll fuel' cs = some ts := by
  induction fuel generalizing cs ts fuel' with
  | zero =>
    cases cs with
    | nil =>
      cases h
      cases fuel' <;> rfl
    | cons c cs => cases h
  | succ fuel ih =>
    cases cs with
    | nil =>
      cases h
      cases fuel' <;> rfl
    | cons c cs =>
      obtain ⟨⟨t, rest⟩, ht, h⟩ := Option.bind_eq_some_iff.1 h
      obtain ⟨ts, hts, h⟩ := Option.bind_eq_some_iff.1 h
      cases h
      rw [List.length_cons] at hlength
      obtain ⟨fuel', rfl⟩ : ∃ k, fuel' = k + 1 := ⟨fuel' - 1, by omega⟩
      rw [readAll_of_read (List.cons_ne_nil c cs) ht, ih hts (by omega)]
      rfl

/-- **A written element is read as its tokens**, if all names in it are written as tags. -/
theorem ofChars_render (hn : (Node.element name attributes content).Legible)
    (hwrite : ∀ m ∈ (Node.element name attributes content).names, IsTag (write m).toList)
    (hmore : ∀ p ∈ more, IsTag p.1.toList)
    (hdeclarations : declarations.toList = more.flatMap attributeText) :
    Token.ofChars ((Node.element name attributes content).render write declarations).toList =
      some ((Node.element name attributes content).tokens write more) := by
  cases hn with
  | element _ _ _ _ hcontent hapart =>
    obtain ⟨hname, hattributes, hnames⟩ := forall_names_element.1 hwrite
    have hreads := readsAs_element hname (isTag_of_mem_tagPairs hmore hattributes) hdeclarations
      (readsAs_content (fun n hn => readsAs_render (hcontent n hn) (hnames n hn)) hapart)
    have hall := hreads.readAll [] 0 fun h => nomatch h
    rw [List.append_nil] at hall
    exact readAll_of_le (hall.trans (by simp [Token.readAll])) hreads.length_le

/-! ### What is not read -/

/-- An attribute of the tree has a local part that does not begin like a name. -/
def Node.Stray (n : Node) : Prop :=
  ∃ e ∈ n.elements, ∃ a ∈ e.2, ¬ IsName a.1.localPart.toList

lemma mem_elementsAll {e : Name × List (Name × String)} :
    e ∈ Node.elementsAll content ↔ ∃ n ∈ content, e ∈ n.elements := by
  induction content with
  | nil => simp [Node.elementsAll]
  | cons n content ih => simp [Node.elementsAll, ih]

lemma stray_element : (Node.element name attributes content).Stray ↔
    (∃ a ∈ attributes, ¬ IsName a.1.localPart.toList) ∨ ∃ n ∈ content, n.Stray := by
  unfold Node.Stray
  rw [Node.elements]
  simp only [List.mem_cons, exists_eq_or_imp, mem_elementsAll]
  refine or_congr Iff.rfl ⟨?_, ?_⟩
  · rintro ⟨e, ⟨n, hn, he⟩, ha⟩
    exact ⟨n, hn, e, he, ha⟩
  · rintro ⟨n, hn, e, he, ha⟩
    exact ⟨e, ⟨n, hn, he⟩, ha⟩

lemma isTag_of_not_stray (hn : n.Legible) (hspelled : ∀ m ∈ n.names, Spelled (write m) m)
    (hstray : ¬ n.Stray) : ∀ m ∈ n.names, IsTag (write m).toList := by
  induction hn with
  | @element name attributes content _ hlocal _ _ _ _ ih =>
    obtain ⟨hname, hattributes, hcontent⟩ := forall_names_element.1 hspelled
    rw [stray_element, not_or] at hstray
    simp only [not_exists, not_and, not_not] at hstray
    exact forall_names_element.2 ⟨hname.isTag hlocal, fun a ha =>
      (hattributes a ha).isTag (hstray.1 a ha), fun n hn => ih n hn (hcontent n hn) (hstray.2 n hn)⟩
  | text => exact List.forall_mem_nil _

/-- Nothing is read from a text, whatever follows it that cannot lengthen a text. -/
def ReadsNot (text : List Char) (isText : Bool) : Prop :=
  ∀ rest m, (isText = true → rest.head? = some '<') → Token.readAll m (text ++ rest) = none

lemma readAll_eq_none {text : List Char} (htext : text ≠ []) (h : Token.read text = none)
    (m : Nat) : Token.readAll m text = none := by
  obtain ⟨c, cs, rfl⟩ := List.exists_cons_of_ne_nil htext
  cases m with
  | zero => rfl
  | succ m => rw [Token.readAll, h, Option.bind_eq_bind, Option.bind_none]

lemma readAll_eq_none_of_behind {text : List Char} {ts : List Token}
    (h : ∀ m, Token.readAll (ts.length + m) text = (Token.readAll m rest).map (ts ++ ·))
    (hrest : ∀ m, Token.readAll m rest = none) (m : Nat) : Token.readAll m text = none := by
  by_contra hread
  obtain ⟨us, hus⟩ := Option.ne_none_iff_exists'.1 hread
  have hmore := readAll_of_le hus (Nat.le_add_left us.length ts.length)
  rw [h, hrest] at hmore
  cases hmore

lemma readsNot_content (hcontent : ∀ n ∈ content,
      ReadsAs (n.render write "").toList n.isText (n.tokens write []) ∨
        ReadsNot (n.render write "").toList n.isText)
    (hapart : content.IsChain Node.Apart)
    (hnot : ∃ n ∈ content, ReadsNot (n.render write "").toList n.isText) :
    ReadsNot (Node.renderAll write content).toList true := by
  induction content with
  | nil =>
    obtain ⟨n, hn, -⟩ := hnot
    cases hn
  | cons n content ih =>
    intro rest m hrest
    obtain ⟨hn, hcontent⟩ := List.forall_mem_cons.1 hcontent
    obtain ⟨hnext, hapart⟩ := List.isChain_cons.1 hapart
    have hfollows : n.isText = true →
        ((Node.renderAll write content).toList ++ rest).head? = some '<' :=
      follows_of_apart hnext (hrest rfl)
    rw [Node.renderAll, String.toList_append, List.append_assoc]
    by_cases hfirst : ReadsNot (n.render write "").toList n.isText
    · exact hfirst _ m hfollows
    · have hbehind : ReadsNot (Node.renderAll write content).toList true := by
        refine ih hcontent hapart ?_
        obtain ⟨n', hn', hnot⟩ := hnot
        rcases List.mem_cons.1 hn' with rfl | hn'
        · exact absurd hnot hfirst
        · exact ⟨n', hn', hnot⟩
      exact readAll_eq_none_of_behind
        (fun k => (hn.resolve_right hfirst).readAll _ k hfollows)
        (fun k => hbehind rest k hrest) m

lemma any_isVisible_of_stray (h : ∃ n ∈ content, n.Stray) : content.any Node.isVisible = true := by
  obtain ⟨n, hn, e, he, -⟩ := h
  refine List.any_eq_true.2 ⟨n, hn, ?_⟩
  cases n with
  | text s => cases he
  | element | remark => rfl

lemma readsNot_element (hn : (Node.element name attributes content).Legible)
    (hspelled : ∀ m ∈ (Node.element name attributes content).names, Spelled (write m) m)
    (hmore : ∀ p ∈ more, IsTag p.1.toList)
    (hdeclarations : declarations.toList = more.flatMap attributeText)
    (hcontent : (∃ n ∈ content, n.Stray) → ReadsNot (Node.renderAll write content).toList true)
    (hstray : (Node.element name attributes content).Stray) :
    ReadsNot ((Node.element name attributes content).render write declarations).toList false := by
  intro rest m _
  cases hn with
  | element _ hlocal hlegible _ hnodes _ =>
    obtain ⟨hname, hattributes, hnames⟩ := forall_names_element.1 hspelled
    have htag : IsTag (write name).toList := hname.isTag hlocal
    rw [toList_render_element hdeclarations]
    by_cases hown : ∃ a ∈ attributes, ¬ IsName a.1.localPart.toList
    · have hnone := Token.read_tagText_eq_none hattributes
        (fun a ha => (hlegible a ha).1.localPart) hown htag hmore
      split_ifs
      · rw [List.append_assoc]
        exact readAll_eq_none (Token.tagText_ne_nil _) (hnone false _) m
      · exact readAll_eq_none (Token.tagText_ne_nil _) (hnone true _) m
    · have hinner : ∃ n ∈ content, n.Stray := (stray_element.1 hstray).resolve_left hown
      have hpairs : ∀ p ∈ tagPairs write more attributes, IsTag p.1.toList :=
        isTag_of_mem_tagPairs hmore fun a ha =>
          (hattributes a ha).isTag (by_contra fun hn => hown ⟨a, ha, hn⟩)
      rw [if_pos (any_isVisible_of_stray hinner), List.append_assoc, List.append_assoc]
      -- the start tag can be read, but nothing behind it
      have hbehind := fun k => hcontent hinner
        ('<' :: '/' :: ((write name).toList ++ ['>']) ++ rest) k fun _ => rfl
      cases m with
      | zero => rfl
      | succ m =>
        have hopening := Token.read_tagText htag hpairs false
          ((Node.renderAll write content).toList ++
            ('<' :: '/' :: ((write name).toList ++ ['>']) ++ rest))
        rw [readAll_of_read (Token.tagText_ne_nil _) hopening, hbehind]
        rfl

lemma readsNot_nodes (hnodes : ∀ n ∈ content, n.Legible) (hapart : content.IsChain Node.Apart)
    (hspelled : ∀ n ∈ content, ∀ m ∈ n.names, Spelled (write m) m)
    (hnot : ∀ n ∈ content, n.Stray → ReadsNot (n.render write "").toList n.isText)
    (hstray : ∃ n ∈ content, n.Stray) : ReadsNot (Node.renderAll write content).toList true := by
  refine readsNot_content (fun n hn => ?_) hapart (hstray.imp fun n h => ⟨h.1, hnot n h.1 h.2⟩)
  by_cases hs : n.Stray
  · exact .inr (hnot n hn hs)
  · exact .inl (readsAs_render (hnodes n hn) (isTag_of_not_stray (hnodes n hn) (hspelled n hn) hs))

lemma readsNot_render (hn : n.Legible) (hspelled : ∀ m ∈ n.names, Spelled (write m) m)
    (hstray : n.Stray) : ReadsNot (n.render write "").toList n.isText := by
  induction hn with
  | @element name attributes content hname hlocal hattributes hnodup hnodes hapart ih =>
    obtain ⟨-, -, hnames⟩ := forall_names_element.1 hspelled
    exact readsNot_element (.element hname hlocal hattributes hnodup hnodes hapart) hspelled
      (List.forall_mem_nil _) rfl
      (readsNot_nodes hnodes hapart hnames fun n hn => ih n hn (hnames n hn)) hstray
  | text =>
    obtain ⟨e, he, -⟩ := hstray
    cases he

theorem ofChars_render_eq_none (hn : (Node.element name attributes content).Legible)
    (hspelled : ∀ m ∈ (Node.element name attributes content).names, Spelled (write m) m)
    (hmore : ∀ p ∈ more, IsTag p.1.toList)
    (hdeclarations : declarations.toList = more.flatMap attributeText)
    (hstray : (Node.element name attributes content).Stray) :
    Token.ofChars ((Node.element name attributes content).render write declarations).toList =
      none := by
  obtain ⟨-, -, hnames⟩ := forall_names_element.1 hspelled
  have hnot : ReadsNot ((Node.element name attributes content).render write declarations).toList
      false := by
    refine readsNot_element hn hspelled hmore hdeclarations ?_ hstray
    cases hn with
    | element _ _ _ _ hnodes hapart =>
      exact readsNot_nodes hnodes hapart hnames fun n hn =>
        readsNot_render (hnodes n hn) (hnames n hn)
  rw [Token.ofChars]
  generalize ((Node.element name attributes content).render write declarations).toList = text at *
  have hall := hnot [] text.length fun h => nomatch h
  rwa [List.append_nil] at hall

end BomTable.Xml
