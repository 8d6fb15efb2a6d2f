import BomTable.Proofs.Xml.Declarations
import BomTable.Proofs.Xml.Legible

/-!
Tags that are written and read again. Escaped characters are read as what they stand for, and so are
the values of attributes. Names are read again as they are written; where the local part of an
attribute does not begin like a name, its tag is not read at all.
-/

namespace BomTable.Xml

variable {c : Char} {cs rest s l : List Char} {m : Nat}

/-! ### Escaped characters -/

namespace Escape

/-- The characters that do not stand for themselves in a text. -/
def markedInText : List Char := ['&', '<', '>']

lemma inText_of_not_mem (h : c ∉ markedInText) : (inText c).toList = [c] := by
  simp only [markedInText, List.mem_cons, List.not_mem_nil, or_false, not_or] at h
  obtain ⟨hamp, hlt, hgt⟩ := h
  rw [inText]
  · simp
  all_goals assumption

lemma toList_text (t : String) :
    (text t).toList = t.toList.flatMap fun c => (inText c).toList := by
  rw [text, String.toList_join, List.flatMap_map]

lemma read_inText (h : c ∈ markedInText) : ∃ body, (inText c).toList = '&' :: body ∧
    ∀ rest, Token.readReference (body ++ rest) = some (.quoted [c], rest) := by
  revert c
  simp only [← List.forall_iff_forall_mem]
  exact ⟨⟨_, rfl, fun _ => rfl⟩, ⟨_, rfl, fun _ => rfl⟩, ⟨_, rfl, fun _ => rfl⟩⟩

lemma read_inValue (h : c ∈ marked) : ∃ body, (inValue c).toList = '&' :: body ∧ ∀ rest,
    Reference.read (body ++ rest) = some (.char c, rest) ∨ ∃ name,
      Reference.read (body ++ rest) = some (.entity name, rest) ∧
        Reference.predefined? name = some c := by
  revert c
  simp only [← List.forall_iff_forall_mem]
  exact ⟨⟨_, rfl, fun _ => .inr ⟨_, rfl, rfl⟩⟩, ⟨_, rfl, fun _ => .inr ⟨_, rfl, rfl⟩⟩,
    ⟨_, rfl, fun _ => .inr ⟨_, rfl, rfl⟩⟩, ⟨_, rfl, fun _ => .inr ⟨_, rfl, rfl⟩⟩,
    ⟨_, rfl, fun _ => .inl rfl⟩, ⟨_, rfl, fun _ => .inl rfl⟩, ⟨_, rfl, fun _ => .inl rfl⟩⟩

lemma fillValue_value {entity : String → Option (List Char)} {fuel : Nat}
    (hfuel : (l.flatMap fun c => (inValue c).toList).length ≤ fuel) :
    fillValue entity fuel (l.flatMap fun c => (inValue c).toList) = some l := by
  induction l generalizing fuel with
  | nil => cases fuel <;> rfl
  | cons c l ih =>
    rw [List.flatMap_cons] at hfuel ⊢
    have hpos : 0 < (inValue c).toList.length := List.length_pos_of_ne_nil (inValue_ne_nil c)
    rw [List.length_append] at hfuel
    obtain ⟨fuel, rfl⟩ : ∃ k, fuel = k + 1 := ⟨fuel - 1, by omega⟩
    have hrest := @ih fuel (by omega)
    by_cases hc : c ∈ marked
    · obtain ⟨body, hbody, hread⟩ := read_inValue hc
      rw [hbody, List.cons_append, fillValue, if_neg (by decide), if_pos rfl]
      rcases hread (l.flatMap fun c => (inValue c).toList) with h | ⟨name, h, hname⟩
      · rw [h]
        simp [hrest]
      · rw [h]
        simp [hname, hrest]
    · rw [inValue_of_not_mem hc, List.singleton_append, fillValue]
      simp only [marked, List.mem_cons, List.not_mem_nil, or_false, not_or] at hc
      obtain ⟨hamp, hlt, -, -, hcr, hlf, htab⟩ := hc
      rw [if_neg hlt, if_neg hamp, hrest]
      -- of white space only the blank stands for itself, and it counts as what it is
      by_cases hspace : c = ' '
      · subst hspace
        rfl
      · simp [isSpace, hspace, hcr, hlf, htab]

lemma not_mem_inValue (d : Char) : '<' ∉ (inValue d).toList ∧ '\r' ∉ (inValue d).toList := by
  by_cases hd : d ∈ marked
  · revert d
    simp only [← List.forall_iff_forall_mem]
    decide
  · rw [inValue_of_not_mem hd]
    simp only [marked, List.mem_cons, List.not_mem_nil, or_false, not_or] at hd
    exact ⟨by simp [Ne.symm hd.2.1], by simp [Ne.symm hd.2.2.2.2.1]⟩

lemma not_mem_value (t : String) : '<' ∉ (value t).toList ∧ '\r' ∉ (value t).toList := by
  simp only [toList_value, List.mem_flatMap, not_exists, not_and]
  exact ⟨fun d _ => (not_mem_inValue d).1, fun d _ => (not_mem_inValue d).2⟩

end Escape

/-! ### Attributes -/

/-- The attributes of a tag as they stand in its token. -/
def escaped (pairs : List (String × String)) : List (String × List Char) :=
  pairs.map fun p => (p.1, (Escape.value p.2).toList)

/-- The attributes of a tag by their names as written, with others before them. -/
def tagPairs (write : Name → String) (pairs : List (String × String))
    (attributes : List (Name × String)) : List (String × String) :=
  pairs ++ attributes.map fun a => (write a.1, a.2)

/-- An attribute as it is written in a tag. -/
def attributeText (p : String × String) : List Char :=
  ' ' :: (p.1.toList ++ '=' :: '"' :: ((Escape.value p.2).toList ++ ['"']))

namespace Doctype

lemma value?_absent (t : String) :
    absent.value? true (Escape.value t).toList = some t.toList := by
  have hfill : fillValue (fun _ => none) _ _ = some t.toList := Escape.fillValue_value le_rfl
  rw [← Escape.toList_value] at hfill
  simp [value?, absent, Entities.fits, Entities.empty, attributeValue, Entities.find?,
    AttributeRule.regular, hfill]

lemma attributes?_absent (tag : String) (pairs : List (String × String)) :
    absent.attributes? tag (escaped pairs) = some pairs := by
  have hgiven : ((escaped pairs).mapM fun a =>
      (absent.value? true a.2).map fun value => (a.1, String.ofList value)) = some pairs := by
    induction pairs with
    | nil => rfl
    | cons p pairs ih =>
      rw [escaped, List.map_cons, List.mapM_cons, ← escaped, ih, value?_absent]
      simp
  rw [attributes?]
  change (do
    let given ← (escaped pairs).mapM fun a =>
      (absent.value? true a.2).map fun value => (a.1, String.ofList value)
    return given ++ [] : Option _) = _
  rw [hgiven]
  simp

end Doctype

/-! ### Names -/

lemma ne_of_inName {d : Char} (hc : inName c = true) (hd : inName d = false) : c ≠ d := by
  rintro rfl
  rw [hc] at hd
  cases hd

lemma not_isSpace_of_inName (hc : inName c = true) : isSpace c = false := by
  have hne : ∀ d, inName d = false → c ≠ d := fun d => ne_of_inName hc
  simp [isSpace, hne ' ' (by decide), hne '\t' (by decide), hne '\n' (by decide),
    hne '\r' (by decide)]

lemma IsTag.inName_or_colon (h : IsTag cs) (hc : c ∈ cs) : inName c = true ∨ c = ':' := by
  rcases h with h | ⟨first, second, rfl, hfirst, hsecond⟩
  · exact .inl (h.all_inName c hc)
  · rcases List.mem_append.1 hc with hc | hc
    · exact .inl (hfirst.all_inName c hc)
    · exact (List.mem_cons.1 hc).symm.imp_left (hsecond.all_inName c)

lemma IsTag.exists_cons (h : IsTag cs) : ∃ c rest, cs = c :: rest ∧ beginsName c = true := by
  rcases h with ⟨c, rest, rfl, hc, -⟩ | ⟨first, second, rfl, ⟨c, rest, rfl, hc, -⟩, -⟩
  · exact ⟨c, rest, rfl, hc⟩
  · exact ⟨c, _, rfl, hc⟩

/-- What follows is no character of names. -/
def Ended (rest : List Char) : Prop := ∀ c ∈ rest.head?, inName c = false ∧ c ≠ ':'

lemma takeWhile_append_of_ended {p : Char → Bool} (hs : ∀ c ∈ s, p c = true)
    (hrest : ∀ c ∈ rest.head?, p c = false) :
    (s ++ rest).takeWhile p = s ∧ (s ++ rest).dropWhile p = rest := by
  rw [List.takeWhile_append_of_pos hs, List.dropWhile_append_of_pos hs]
  cases rest with
  | nil => simp
  | cons c rest => simp [hrest c rfl]

lemma readName_append (hs : IsName s) (hrest : ∀ c ∈ rest.head?, inName c = false) :
    readName (s ++ rest) = some (s, rest) := by
  obtain ⟨c, l, rfl, hc, hl⟩ := hs
  obtain ⟨htake, hdrop⟩ := takeWhile_append_of_ended hl hrest
  rw [List.cons_append, readName, if_pos hc, htake, hdrop]

lemma readTag_append {tag : String} (htag : IsTag tag.toList) (hrest : Ended rest) :
    readTag (tag.toList ++ rest) = some (tag, rest) := by
  have hname : ∀ c ∈ rest.head?, inName c = false := fun c hc => (hrest c hc).1
  unfold readTag
  rcases htag with h | ⟨first, second, heq, hfirst, hsecond⟩
  · rw [readName_append h hname]
    cases rest with
    | nil => simp
    | cons c rest =>
      have hc : c ≠ ':' := (hrest c rfl).2
      simp [hc]
  · have hcolon : ∀ c ∈ (':' :: (second ++ rest)).head?, inName c = false := by
      simp only [List.head?_cons, Option.mem_some_iff, forall_eq']
      decide
    rw [heq, List.append_assoc, List.cons_append, readName_append hfirst hcolon]
    simp only [Option.bind_eq_bind, Option.bind_some, readName_append hsecond hname]
    simp [← heq]

/-- A name is written as its local part, perhaps with a short form before it. -/
def Spelled (written : String) (n : Name) : Prop :=
  written = n.localPart ∨ ∃ first, IsName first ∧
    written.toList = first ++ ':' :: n.localPart.toList

variable {written : String} {n : Name}

lemma Spelled.isTag (h : Spelled written n) (hn : IsName n.localPart.toList) :
    IsTag written.toList := by
  rcases h with rfl | ⟨first, hfirst, heq⟩
  · exact .inl hn
  · exact .inr ⟨first, _, heq, hfirst, hn⟩

lemma Spelled.inName_of_head (h : Spelled written n)
    (hlocal : ∀ c ∈ n.localPart.toList, inName c = true) :
    ∀ c ∈ written.toList.head?, inName c = true := by
  intro c hc
  rcases h with rfl | ⟨first, ⟨d, rest, rfl, hd, -⟩, heq⟩
  · exact hlocal c (List.mem_of_mem_head? hc)
  · rw [heq] at hc
    cases hc
    exact inName_of_beginsName hd

lemma readName_eq_none (hs : ∀ c ∈ s, inName c = true) (hn : ¬ IsName s) :
    readName (s ++ '=' :: rest) = none := by
  cases s with
  | nil => rfl
  | cons c s =>
    have hc : beginsName c ≠ true := fun hc =>
      hn ⟨c, s, rfl, hc, (List.forall_mem_cons.1 hs).2⟩
    rw [List.cons_append, readName, if_neg hc]

/-- The name of an attribute whose local part does not begin like a name is not read. -/
lemma Spelled.readTag_eq_none (h : Spelled written n)
    (hlocal : ∀ c ∈ n.localPart.toList, inName c = true) (hn : ¬ IsName n.localPart.toList) :
    readTag (written.toList ++ '=' :: rest) = none := by
  unfold readTag
  rcases h with rfl | ⟨first, hfirst, heq⟩
  · rw [readName_eq_none hlocal hn]
    rfl
  · have hcolon : ∀ c ∈ (':' :: (n.localPart.toList ++ '=' :: rest)).head?, inName c = false := by
      simp only [List.head?_cons, Option.mem_some_iff, forall_eq']
      decide
    rw [heq, List.append_assoc, List.cons_append, readName_append hfirst hcolon]
    simp only [Option.bind_eq_bind, Option.bind_some, readName_eq_none hlocal hn]
    rfl

/-! ### Tags -/

namespace Token

variable {pairs : List (String × String)} {fuel : Nat} {closed : Bool} {tag : String}

/-- The end of a start tag as it is written. -/
def tagEnd (closed : Bool) : List Char := if closed then [' ', '/', '>'] else ['>']

lemma readQuoted_value (v : String) (rest : List Char) :
    readQuoted ('"' :: ((Escape.value v).toList ++ '"' :: rest)) =
      some ((Escape.value v).toList, rest) := by
  have hcut : ∀ l : List Char, '"' ∉ l → cutAt ['"'] (l ++ '"' :: rest) = some (l, rest) := by
    intro l hl
    induction l with
    | nil => rfl
    | cons c l ih =>
      rw [List.mem_cons, not_or] at hl
      rw [List.cons_append, cutAt, after?, if_neg hl.1, ih hl.2]
      rfl
  rw [readQuoted, if_pos (by decide)]
  exact hcut _ (Escape.quote_not_mem_value v)

lemma skipSpace_of_not {c : Char} (h : isSpace c = false) (cs : List Char) :
    skipSpace (c :: cs) = c :: cs := by
  rw [skipSpace, List.dropWhile_cons_of_neg (by simp [h])]

/-- One step of reading attributes, where what follows the space may be another one. -/
lemma readAttributes_space (hspace : isSpace c = false) (hgt : c ≠ '>') (hslash : c ≠ '/') :
    readAttributes (fuel + 1) (' ' :: c :: cs) =
        (readTag (c :: cs)).bind fun (name, afterName) => do
      let afterSign ← after? ['='] (skipSpace afterName)
      let (value, rest) ← readQuoted (skipSpace afterSign)
      if '<' ∈ value then none
      else
        let (more, closed, last) ← readAttributes fuel rest
        return ((name, value) :: more, closed, last) := by
  have hskip : skipSpace (' ' :: c :: cs) = c :: cs := skipSpace_of_not hspace cs
  rw [readAttributes]
  split
  · next h => exact absurd (List.cons.inj (hskip.symm.trans h)).1 hgt
  · next h => exact absurd (List.cons.inj (hskip.symm.trans h)).1 hslash
  · have hspaced : spaced? (' ' :: c :: cs) = some (c :: cs) :=
      congrArg some (skipSpace_of_not hspace cs)
    rw [hspaced, Option.bind_eq_bind, Option.bind_some]
    rfl

lemma readAttributes_cons (p : String × String) (rest : List Char) (hp : IsTag p.1.toList) :
    readAttributes (fuel + 1) (attributeText p ++ rest) =
      (readAttributes fuel rest).map fun (more, closed, last) =>
        ((p.1, (Escape.value p.2).toList) :: more, closed, last) := by
  obtain ⟨c, cs, hcs, hc⟩ := hp.exists_cons
  have hname : inName c = true := inName_of_beginsName hc
  have hended : Ended ('=' :: '"' :: ((Escape.value p.2).toList ++ '"' :: rest)) := by
    intro d hd
    cases hd
    decide
  have htag := readTag_append hp hended
  have hlist : attributeText p ++ rest =
      ' ' :: (p.1.toList ++ '=' :: '"' :: ((Escape.value p.2).toList ++ '"' :: rest)) := by
    simp [attributeText]
  rw [hcs, List.cons_append] at htag
  rw [hlist, hcs, List.cons_append, readAttributes_space (not_isSpace_of_inName hname)
    (ne_of_inName hname (by decide)) (ne_of_inName hname (by decide)), htag, Option.bind_some]
  have hskip : ∀ (d : Char) l, isSpace d = false → skipSpace (d :: l) = d :: l := fun d l h =>
    skipSpace_of_not h l
  simp only [hskip '=' _ rfl, after?, if_true, Option.bind_eq_bind, Option.bind_some,
    hskip '"' _ rfl, readQuoted_value, if_neg (Escape.not_mem_value p.2).1]
  cases readAttributes fuel rest <;> rfl

lemma readAttributes_eq_none {n : Name} {p : String × String} (h : Spelled p.1 n)
    (hlocal : ∀ c ∈ n.localPart.toList, inName c = true) (hn : ¬ IsName n.localPart.toList)
    (fuel : Nat) (rest : List Char) : readAttributes fuel (attributeText p ++ rest) = none := by
  cases fuel with
  | zero => rfl
  | succ fuel =>
    have hlist : attributeText p ++ rest =
        ' ' :: (p.1.toList ++ '=' :: '"' :: ((Escape.value p.2).toList ++ '"' :: rest)) := by
      simp [attributeText]
    have htag : readTag (p.1.toList ++ '=' :: '"' :: ((Escape.value p.2).toList ++ '"' :: rest)) =
      none := h.readTag_eq_none hlocal hn
    have hfirst : ∀ c ∈ p.1.toList.head?, inName c = true := h.inName_of_head hlocal
    rw [hlist]
    cases hcs : p.1.toList with
    | nil =>
      rw [hcs] at htag
      rw [List.nil_append] at htag ⊢
      rw [readAttributes_space (by decide) (by decide) (by decide), htag, Option.bind_none]
    | cons c cs =>
      have hname : inName c = true := hfirst c (by rw [hcs]; rfl)
      rw [hcs, List.cons_append] at htag
      rw [List.cons_append, readAttributes_space (not_isSpace_of_inName hname)
        (ne_of_inName hname (by decide)) (ne_of_inName hname (by decide)), htag, Option.bind_none]

lemma readAttributes_end (hfuel : 0 < fuel) :
    readAttributes fuel (tagEnd closed ++ rest) = some ([], closed, rest) := by
  obtain ⟨fuel, rfl⟩ : ∃ k, fuel = k + 1 := ⟨fuel - 1, by omega⟩
  cases closed <;> rfl

lemma readAttributes_append (hpairs : ∀ p ∈ pairs, IsTag p.1.toList)
    (hfuel : pairs.length < fuel) :
    readAttributes fuel (pairs.flatMap attributeText ++ (tagEnd closed ++ rest)) =
      some (escaped pairs, closed, rest) := by
  induction pairs generalizing fuel with
  | nil => exact readAttributes_end hfuel
  | cons p pairs ih =>
    obtain ⟨hp, hpairs⟩ := List.forall_mem_cons.1 hpairs
    rw [List.length_cons] at hfuel
    obtain ⟨fuel, rfl⟩ : ∃ k, fuel = k + 1 := ⟨fuel - 1, by omega⟩
    rw [List.flatMap_cons, List.append_assoc, readAttributes_cons p _ hp, ih hpairs (by omega)]
    rfl

/-- A start tag as it is written. -/
def tagText (tag : String) (pairs : List (String × String)) (closed : Bool) : List Char :=
  '<' :: (tag.toList ++ (pairs.flatMap attributeText ++ tagEnd closed))

lemma tagText_ne_nil (rest : List Char) : tagText tag pairs closed ++ rest ≠ [] :=
  List.cons_ne_nil _ _

lemma ended_attributes (pairs : List (String × String)) (closed : Bool) (rest : List Char) :
    Ended (pairs.flatMap attributeText ++ (tagEnd closed ++ rest)) := by
  intro c hc
  cases pairs with
  | nil => cases closed <;> cases hc <;> decide
  | cons p pairs =>
    cases hc
    decide

lemma length_attributes_le (pairs : List (String × String)) :
    pairs.length ≤ (pairs.flatMap attributeText).length := by
  induction pairs with
  | nil => exact le_rfl
  | cons p pairs ih =>
    simp only [List.flatMap_cons, List.length_append, List.length_cons, attributeText]
    omega

lemma readMarkup_of_beginsName (hc : beginsName c = true) :
    readMarkup (c :: cs) = readOpening (c :: cs) := by
  have hname : inName c = true := inName_of_beginsName hc
  unfold readMarkup
  split
  · next h => exact absurd (List.cons.inj h).1 (ne_of_inName hname (by decide))
  · next h => exact absurd (List.cons.inj h).1 (ne_of_inName hname (by decide))
  · next h => exact absurd (List.cons.inj h).1 (ne_of_inName hname (by decide))
  · rfl

lemma read_tag (htag : IsTag tag.toList) (hrest : Ended rest) :
    read ('<' :: (tag.toList ++ rest)) =
      (readAttributes (rest.length + 1) rest).map fun (attributes, closed, last) =>
        (.opening tag attributes closed, last) := by
  obtain ⟨c, cs, hcs, hc⟩ := htag.exists_cons
  rw [read, hcs, List.cons_append, readMarkup_of_beginsName hc, ← List.cons_append, ← hcs,
    readOpening, readTag_append htag hrest, Option.bind_eq_bind, Option.bind_some]
  dsimp only
  cases readAttributes (rest.length + 1) rest <;> rfl

lemma read_tagText (htag : IsTag tag.toList) (hpairs : ∀ p ∈ pairs, IsTag p.1.toList)
    (closed : Bool) (rest : List Char) :
    read (tagText tag pairs closed ++ rest) = some (.opening tag (escaped pairs) closed, rest) := by
  have hlength := length_attributes_le pairs
  simp only [tagText, List.cons_append, List.append_assoc]
  rw [read_tag htag (ended_attributes pairs closed rest), readAttributes_append hpairs]
  · rfl
  · rw [List.length_append]
    omega

section

variable {write : Name → String} {attributes : List (Name × String)}
  (hspelled : ∀ a ∈ attributes, Spelled (write a.1) a.1)
  (hlocal : ∀ a ∈ attributes, ∀ c ∈ a.1.localPart.toList, inName c = true)
  (hstray : ∃ a ∈ attributes, ¬ IsName a.1.localPart.toList)

include hspelled hlocal hstray

lemma readAttributes_stray (fuel : Nat) (rest : List Char) :
    readAttributes fuel ((tagPairs write [] attributes).flatMap attributeText ++ rest) = none := by
  unfold tagPairs
  rw [List.nil_append]
  induction attributes generalizing fuel with
  | nil =>
    obtain ⟨a, ha, -⟩ := hstray
    cases ha
  | cons a attributes ih =>
    obtain ⟨hspelled, hmore⟩ := List.forall_mem_cons.1 hspelled
    obtain ⟨hlocal, hlocals⟩ := List.forall_mem_cons.1 hlocal
    rw [List.map_cons, List.flatMap_cons, List.append_assoc]
    by_cases ha : IsName a.1.localPart.toList
    · have hstray' : ∃ a ∈ attributes, ¬ IsName a.1.localPart.toList := by
        obtain ⟨b, hb, hn⟩ := hstray
        rcases List.mem_cons.1 hb with rfl | hb
        · exact absurd ha hn
        · exact ⟨b, hb, hn⟩
      cases fuel with
      | zero => rfl
      | succ fuel =>
        rw [readAttributes_cons _ _ (hspelled.isTag ha), ih hmore hlocals hstray']
        rfl
    · exact readAttributes_eq_none hspelled hlocal ha fuel _

lemma read_tagText_eq_none (htag : IsTag tag.toList) (hpairs : ∀ p ∈ pairs, IsTag p.1.toList)
    (closed : Bool) (rest : List Char) :
    read (tagText tag (tagPairs write pairs attributes) closed ++ rest) = none := by
  have hnone : ∀ fuel, readAttributes fuel ((tagPairs write pairs attributes).flatMap
      attributeText ++ (tagEnd closed ++ rest)) = none := by
    induction pairs with
    | nil => exact fun fuel => readAttributes_stray hspelled hlocal hstray fuel _
    | cons q pairs ih =>
      intro fuel
      obtain ⟨hq, hpairs⟩ := List.forall_mem_cons.1 hpairs
      cases fuel with
      | zero => rfl
      | succ fuel =>
        rw [tagPairs, List.cons_append, List.flatMap_cons, List.append_assoc,
          readAttributes_cons q _ hq, ← tagPairs, ih hpairs]
        rfl
  simp only [tagText, List.cons_append, List.append_assoc]
  rw [read_tag htag (ended_attributes _ closed rest), hnone]
  rfl

end

lemma read_closing (htag : IsTag tag.toList) (rest : List Char) :
    read ('<' :: '/' :: (tag.toList ++ '>' :: rest)) = some (.closing tag, rest) := by
  have hended : Ended ('>' :: rest) := by
    intro c hc
    cases hc
    decide
  rw [read, readMarkup, readClosing, readTag_append htag hended]
  rfl

end Token

end BomTable.Xml
