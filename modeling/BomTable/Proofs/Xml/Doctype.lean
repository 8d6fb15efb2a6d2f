import BomTable.Proofs.Text.Fields
import BomTable.Proofs.Xml.Scanning
import BomTable.Xml.Doctype

/-!
What a document type adds to a document. Its entities and the values of its attributes consist of
characters that may stand in a document. The names of its attributes are almost those of tags, but
behind a colon any character of names may come first.
-/

namespace BomTable.Xml

/-- A name, or a name with a colon and characters of names behind it. -/
def IsLabel (cs : List Char) : Prop :=
  IsName cs ∨ ∃ first second, cs = first ++ ':' :: second ∧ IsName first ∧
    ∀ c ∈ second, inName c = true

variable {c : Char} {cs rest s : List Char} {fuel : Nat}

lemma IsTag.isLabel (h : IsTag cs) : IsLabel cs := by
  rcases h with h | ⟨first, second, rfl, hfirst, hsecond⟩
  · exact .inl h
  · exact .inr ⟨first, second, rfl, hfirst, hsecond.all_inName⟩

lemma exists_of_mem_mapM {α β : Type} {f : α → Option β} {l : List α} {m : List β} {b : β}
    (h : l.mapM f = some m) (hb : b ∈ m) : ∃ a ∈ l, f a = some b := by
  induction l generalizing m with
  | nil =>
    cases h
    cases hb
  | cons a l ih =>
    rw [List.mapM_cons] at h
    obtain ⟨x, hx, h⟩ := Option.bind_eq_some_iff.1 h
    obtain ⟨xs, hxs, h⟩ := Option.bind_eq_some_iff.1 h
    cases h
    rcases List.mem_cons.1 hb with rfl | hb
    · exact ⟨a, List.mem_cons_self, hx⟩
    · obtain ⟨a', ha', hf⟩ := ih hxs hb
      exact ⟨a', List.mem_cons_of_mem a ha', hf⟩

/-! ### Pieces -/

namespace Piece

def Legible : Piece → Prop
  | .name s => IsLabel s.toList
  | .pair s => IsLabel s.toList
  | .quoted s => Admitted s
  | _ => True

variable {p : Piece} {ps qs : List Piece}

lemma isName_of_head (hword : ∀ c ∈ s, inWord c = true) (hcolon : ':' ∉ s)
    (hhead : s.head?.any beginsName = true) : IsName s := by
  cases s with
  | nil => cases hhead
  | cons c rest =>
    refine ⟨c, rest, rfl, hhead, fun d hd => ?_⟩
    have hd' : d ∈ c :: rest := List.mem_cons_of_mem c hd
    have hne : d ≠ ':' := fun h => hcolon (h ▸ hd')
    simpa [inWord, hne] using hword d hd'

lemma ofWord_legible (hword : ∀ c ∈ s, inWord c = true) : (ofWord s).Legible := by
  unfold ofWord
  split
  case h_1 hcut =>
    split_ifs with hhead
    · rw [Legible, String.toList_ofList]
      exact .inl (isName_of_head hword (Text.not_mem_of_cut hcut) hhead)
    · trivial
  case h_2 first second hcut =>
    obtain ⟨heq, hfirst⟩ := Text.eq_of_cut hcut
    split_ifs with hpair
    · simp only [Bool.and_eq_true, Bool.not_eq_true', List.contains_eq_mem,
        decide_eq_false_iff_not] at hpair
      obtain ⟨⟨hhead, -⟩, hsecond⟩ := hpair
      rw [Legible, String.toList_ofList, heq]
      rw [heq] at hword
      refine .inr ⟨first, second, rfl,
        isName_of_head (fun c hc => hword c (by simp [hc])) hfirst hhead, fun c hc => ?_⟩
      have hne : c ≠ ':' := fun h => hsecond (h ▸ hc)
      simpa [inWord, hne] using hword c (by simp [hc])
    · trivial

lemma readWord_legible (hcs : Admitted cs) (h : readWord cs = some (p, rest)) :
    p.Legible ∧ Admitted rest := by
  have hbehind : Admitted (cs.dropWhile inWord) := hcs.of_subset (List.dropWhile_subset _)
  unfold readWord at h
  dsimp only at h
  split_ifs at h with hend
  · cases h
    exact ⟨ofWord_legible fun c hc => List.mem_takeWhile_imp hc, hbehind⟩
  · split at h
    case h_1 c last heq =>
      split_ifs at h
      obtain ⟨q, hq, heq'⟩ := Option.map_eq_some_iff.1 h
      cases heq'
      unfold repeat? at hq
      split at hq <;> cases hq <;> exact ⟨trivial, (admitted_cons.1 (heq ▸ hbehind)).2⟩
    case h_2 => cases h

lemma readKeyword_legible (hcs : Admitted cs) (h : readKeyword cs = some (p, rest)) :
    p.Legible ∧ Admitted rest := by
  obtain ⟨⟨s, last⟩, hname, h⟩ := Option.bind_eq_some_iff.1 h
  dsimp only at h
  split_ifs at h
  cases h
  exact ⟨trivial, hcs.of_subset ((readName_eq hname).2 ▸ List.subset_append_right _ _)⟩

lemma readValue_legible (hcs : Admitted cs) (h : readValue cs = some (p, rest)) :
    p.Legible ∧ Admitted rest := by
  obtain ⟨⟨s, last⟩, hquoted, h⟩ := Option.bind_eq_some_iff.1 h
  dsimp only at h
  split_ifs at h
  cases h
  obtain ⟨hs, hlast⟩ := readQuoted_subset hquoted
  exact ⟨hcs.of_subset hs, hcs.of_subset hlast⟩

lemma readPercent_legible (hcs : Admitted cs) (h : readPercent cs = some (p, rest)) :
    p.Legible ∧ Admitted rest := by
  unfold readPercent at h
  split_ifs at h
  · cases h
    exact ⟨trivial, hcs⟩
  · obtain ⟨⟨s, behind⟩, hname, h⟩ := Option.bind_eq_some_iff.1 h
    obtain ⟨last, hlast, h⟩ := Option.bind_eq_some_iff.1 h
    cases h
    have hbehind : behind ⊆ cs := (readName_eq hname).2 ▸ List.subset_append_right _ _
    exact ⟨trivial, hcs.of_subset (List.Subset.trans (after?_subset hlast) hbehind)⟩

lemma readCloseParen_legible (hcs : Admitted cs) (h : readCloseParen cs = some (p, rest)) :
    p.Legible ∧ Admitted rest := by
  unfold readCloseParen at h
  split_ifs at h
  · cases h
    exact ⟨trivial, hcs⟩
  · split at h
    · split_ifs at h
      cases h
      exact ⟨trivial, (admitted_cons.1 hcs).2⟩
    · cases h

lemma readOpening_legible (hcs : Admitted cs) (h : readOpening cs = some (p, rest)) :
    p.Legible ∧ Admitted rest := by
  unfold readOpening at h
  dsimp only at h
  split_ifs at h
  cases h
  exact ⟨trivial, hcs.of_subset (List.dropWhile_subset _)⟩

lemma read_legible (hcs : Admitted cs) (h : read cs = some (p, rest)) :
    p.Legible ∧ Admitted rest := by
  have hremark {x : Option (Token × List Char)}
      (hx : ∀ t last, x = some (t, last) → Admitted last)
      (h : (x.map fun read => (Piece.remark, read.2)) = some (p, rest)) :
      p.Legible ∧ Admitted rest := by
    obtain ⟨⟨t, last⟩, ht, heq⟩ := Option.map_eq_some_iff.1 h
    cases heq
    exact ⟨trivial, hx t _ ht⟩
  unfold read at h
  split at h
  · exact hremark (fun t last ht =>
      (Token.readInstruction_legible (admitted_cons.1 (admitted_cons.1 hcs).2).2 ht).2) h
  · exact hremark (fun t last ht => (Token.readComment_legible
      (admitted_cons.1 (admitted_cons.1 (admitted_cons.1 (admitted_cons.1 hcs).2).2).2).2 ht).2) h
  · exact readOpening_legible (admitted_cons.1 (admitted_cons.1 hcs).2).2 h
  case h_8 => exact readCloseParen_legible (admitted_cons.1 hcs).2 h
  case h_11 => exact readPercent_legible (admitted_cons.1 hcs).2 h
  case h_12 => exact readKeyword_legible (admitted_cons.1 hcs).2 h
  case h_13 =>
    split_ifs at h
    · exact readWord_legible hcs h
    · exact readValue_legible hcs h
  case h_14 => cases h
  all_goals
    cases h
    exact ⟨trivial, (admitted_cons.1 hcs).2⟩

lemma readAll_legible (hcs : Admitted cs) (h : readAll fuel cs = some (ps, rest)) :
    (∀ p ∈ ps, p.Legible) ∧ Admitted rest := by
  induction fuel generalizing cs ps with
  | zero => cases h
  | succ fuel ih =>
    have hinner : Admitted (skipSpace cs) := hcs.of_subset (skipSpace_subset cs)
    rw [readAll] at h
    dsimp only at h
    split_ifs at h
    · cases h
      exact ⟨List.forall_mem_nil _, hinner⟩
    · obtain ⟨⟨p, behind⟩, hp, h⟩ := Option.bind_eq_some_iff.1 h
      obtain ⟨⟨more, last⟩, hmore, h⟩ := Option.bind_eq_some_iff.1 h
      cases h
      obtain ⟨hlegible, hbehind⟩ := read_legible hinner hp
      obtain ⟨hall, hlast⟩ := ih hbehind hmore
      exact ⟨List.forall_mem_cons.2 ⟨hlegible, hall⟩, hlast⟩

lemma isLabel_of_tag? {name : String} (hp : p.Legible) (h : p.tag? = some name) :
    IsLabel name.toList := by
  unfold tag? at h
  split at h <;> cases h <;> exact hp

lemma outside?_subset (h : outside? ps = some qs) : qs ⊆ ps := by
  unfold outside? at h
  split at h
  · cases h
    exact List.subset_cons_of_subset _ (List.subset_cons_self _ _)
  · split_ifs at h
    cases h
    exact List.subset_cons_of_subset _
      (List.subset_cons_of_subset _ (List.subset_cons_self _ _))
  · cases h

end Piece

/-! ### Rules and declarations -/

structure AttributeRule.Legible (r : AttributeRule) : Prop where
  name : IsLabel r.name.toList
  default : ∀ v, r.default = some v → Admitted v

namespace AttributeRule

variable {element : String} {ps qs : List Piece} {rules : List AttributeRule}

lemma alternatives?_subset {isValue : Piece → Bool} (h : alternatives? isValue ps = some qs) :
    qs ⊆ ps := by
  fun_induction alternatives? isValue ps with
  | case1 p rest hp ih =>
    exact List.subset_cons_of_subset _ (List.subset_cons_of_subset _ (ih h))
  | case3 p rest hp =>
    cases h
    exact List.subset_cons_of_subset _ (List.subset_cons_self _ _)
  | case2 | case4 | case5 => cases h

lemma type?_subset {isText : Bool} (h : type? ps = some (isText, qs)) : qs ⊆ ps := by
  have hmap {x : Option (List Piece)} {b : Bool} (hx : ∀ l, x = some l → l ⊆ ps)
      (h : x.map (b, ·) = some (isText, qs)) : qs ⊆ ps := by
    obtain ⟨l, hl, heq⟩ := Option.map_eq_some_iff.1 h
    cases heq
    exact hx _ hl
  unfold type? at h
  split at h
  · cases h
    exact List.subset_cons_self _ _
  · exact hmap (fun l hl => List.subset_cons_of_subset _
      (List.subset_cons_of_subset _ (alternatives?_subset hl))) h
  · split_ifs at h
    cases h
    exact List.subset_cons_self _ _
  · exact hmap (fun l hl => List.subset_cons_of_subset _ (alternatives?_subset hl)) h
  · cases h

lemma default?_legible {default : Option (List Char)} (hps : ∀ p ∈ ps, p.Legible)
    (h : default? ps = some (default, qs)) : (∀ v, default = some v → Admitted v) ∧ qs ⊆ ps := by
  unfold default? at h
  split at h
  case h_3 s _ =>
    cases h
    refine ⟨fun v hv => ?_, List.subset_cons_of_subset _ (List.subset_cons_self _ _)⟩
    cases hv
    exact hps (.quoted s) (by simp)
  case h_4 s _ =>
    cases h
    refine ⟨fun v hv => ?_, List.subset_cons_self _ _⟩
    cases hv
    exact hps (.quoted s) List.mem_cons_self
  case h_5 => cases h
  all_goals
    cases h
    exact ⟨fun v hv => (nomatch hv), List.subset_cons_self _ _⟩

lemma readAll_legible {fuel : Nat} (hps : ∀ p ∈ ps, p.Legible)
    (h : readAll element fuel ps = some rules) : ∀ r ∈ rules, r.Legible := by
  induction fuel generalizing ps rules with
  | zero =>
    cases ps with
    | nil =>
      cases h
      exact List.forall_mem_nil _
    | cons p ps => cases h
  | succ fuel ih =>
    cases ps with
    | nil =>
      cases h
      exact List.forall_mem_nil _
    | cons p ps =>
      obtain ⟨name, hname, h⟩ := Option.bind_eq_some_iff.1 h
      obtain ⟨⟨isText, afterType⟩, htype, h⟩ := Option.bind_eq_some_iff.1 h
      obtain ⟨⟨default, last⟩, hdefault, h⟩ := Option.bind_eq_some_iff.1 h
      obtain ⟨more, hmore, h⟩ := Option.bind_eq_some_iff.1 h
      cases h
      obtain ⟨hp, hps⟩ := List.forall_mem_cons.1 hps
      have htype' : ∀ q ∈ afterType, q.Legible := fun q hq => hps q (type?_subset htype hq)
      obtain ⟨hvalue, hlast⟩ := default?_legible htype' hdefault
      exact List.forall_mem_cons.2
        ⟨⟨Piece.isLabel_of_tag? hp hname, hvalue⟩, ih (fun q hq => htype' q (hlast hq)) hmore⟩

end AttributeRule

namespace Declared

def Legible : Declared → Prop
  | .entity _ text => ∀ s, text = some s → Admitted s
  | .attributes rules => ∀ r ∈ rules, r.Legible
  | _ => True

variable {d : Declared} {ps qs : List Piece} {items : List Declared}

lemma entity?_legible (hps : ∀ p ∈ ps, p.Legible) (h : entity? ps = some d) : d.Legible := by
  unfold entity? at h
  split at h
  case h_2 n s =>
    cases h
    intro v hv
    cases hv
    exact hps (.quoted s) (by simp)
  -- an entity that is kept elsewhere has no text
  case h_4 n place _ =>
    obtain ⟨rest, -, h⟩ := Option.bind_eq_some_iff.1 h
    split_ifs at h
    cases h
    exact fun v hv => nomatch hv
  case h_5 => cases h
  case h_1 =>
    cases h
    trivial
  case h_3 =>
    obtain ⟨rest, -, h⟩ := Option.bind_eq_some_iff.1 h
    split_ifs at h
    cases h
    trivial

lemma attributes?_legible (hps : ∀ p ∈ ps, p.Legible) (h : attributes? ps = some d) :
    d.Legible := by
  unfold attributes? at h
  split at h
  · obtain ⟨element, -, h⟩ := Option.bind_eq_some_iff.1 h
    obtain ⟨rules, hrules, h⟩ := Option.bind_eq_some_iff.1 h
    cases h
    exact AttributeRule.readAll_legible (List.forall_mem_cons.1 hps).2 hrules
  · cases h

lemma element?_legible (h : element? ps = some d) : d.Legible := by
  unfold element? at h
  split at h
  · split_ifs at h
    cases h
    trivial
  · cases h

lemma format?_legible (h : format? ps = some d) : d.Legible := by
  unfold format? at h
  split at h
  · split_ifs at h
    cases h
    trivial
  · obtain ⟨rest, -, h⟩ := Option.bind_eq_some_iff.1 h
    split_ifs at h
    cases h
    trivial
  · cases h

lemma ofPieces_legible {word : String} (hps : ∀ p ∈ ps, p.Legible)
    (h : ofPieces word ps = some d) : d.Legible := by
  unfold ofPieces at h
  split at h
  · exact entity?_legible hps h
  · exact attributes?_legible hps h
  · exact element?_legible h
  · exact format?_legible h
  · cases h

lemma readAll_legible {fuel : Nat} (hps : ∀ p ∈ ps, p.Legible)
    (h : readAll fuel ps = some (items, qs)) : ∀ d ∈ items, d.Legible := by
  induction fuel generalizing ps items with
  | zero => cases ps <;> cases h
  | succ fuel ih =>
    cases ps with
    | nil => cases h
    | cons p ps =>
      replace hps := (List.forall_mem_cons.1 hps).2
      unfold readAll at h
      dsimp only at h
      split at h
      · cases h
        exact List.forall_mem_nil _
      · exact ih hps h
      · obtain ⟨⟨more, last⟩, hmore, heq⟩ := Option.map_eq_some_iff.1 h
        cases heq
        exact List.forall_mem_cons.2 ⟨trivial, ih hps hmore⟩
      · obtain ⟨d, hd, h⟩ := Option.bind_eq_some_iff.1 h
        obtain ⟨⟨more, last⟩, hmore, h⟩ := Option.bind_eq_some_iff.1 h
        cases h
        have hbody : ∀ q ∈ ps.takeWhile (· ≠ .closing), q.Legible := fun q hq =>
          hps q (List.takeWhile_subset _ hq)
        have hbehind : ∀ q ∈ (ps.dropWhile (· ≠ .closing)).drop 1, q.Legible := fun q hq =>
          hps q (List.dropWhile_subset _ (List.drop_subset _ _ hq))
        exact List.forall_mem_cons.2 ⟨ofPieces_legible hbody hd, ih hbehind hmore⟩
      · cases h

end Declared

/-! ### Values -/

def Entities.Legible (e : Entities) : Prop := ∀ x ∈ e.table, ∀ s, x.2 = some s → Admitted s

variable {e : Entities} {name : String}

lemma Entities.Legible.of_find? (he : e.Legible) (h : e.find? name = some (some s)) :
    Admitted s := by
  obtain ⟨x, hx, heq⟩ := Option.map_eq_some_iff.1 h
  exact he x (List.mem_of_find?_eq_some hx) s heq

lemma admitted_of_map_cons {x : Option (List Char)} (hc : isAllowed c.toNat = true)
    (hx : ∀ more, x = some more → Admitted more) (h : x.map (c :: ·) = some s) : Admitted s := by
  obtain ⟨more, hmore, rfl⟩ := Option.map_eq_some_iff.1 h
  exact admitted_cons.2 ⟨hc, hx more hmore⟩

lemma Entities.admitted_textOf? (hcs : Admitted cs) (h : textOf? fuel cs = some s) :
    Admitted s := by
  induction fuel generalizing cs s with
  | zero =>
    cases cs with
    | nil =>
      cases h
      exact List.forall_mem_nil _
    | cons c cs => cases h
  | succ fuel ih =>
    cases cs with
    | nil =>
      cases h
      exact List.forall_mem_nil _
    | cons c cs =>
      obtain ⟨hc, hcs⟩ := admitted_cons.1 hcs
      rw [textOf?] at h
      split_ifs at h
      · obtain ⟨⟨ref, rest⟩, href, h⟩ := Option.bind_eq_some_iff.1 h
        obtain ⟨hchar, hname, hrest⟩ := Reference.read_subset href
        cases ref with
        | char d =>
          obtain ⟨more, hmore, h⟩ := Option.bind_eq_some_iff.1 h
          cases h
          exact admitted_cons.2 ⟨hchar d rfl, ih (hcs.of_subset hrest) hmore⟩
        | entity name =>
          obtain ⟨more, hmore, h⟩ := Option.bind_eq_some_iff.1 h
          cases h
          simp only [admitted_append, admitted_cons, List.cons_append]
          exact ⟨by decide, hcs.of_subset (hname name rfl), by decide,
            ih (hcs.of_subset hrest) hmore⟩
      · exact admitted_of_map_cons hc (fun _ => ih hcs) h

lemma admitted_fillValue {entity : String → Option (List Char)}
    (hentity : ∀ name v, entity name = some v → Admitted v) (hcs : Admitted cs)
    (h : fillValue entity fuel cs = some s) : Admitted s := by
  induction fuel generalizing cs s with
  | zero =>
    cases cs with
    | nil =>
      cases h
      exact List.forall_mem_nil _
    | cons c cs => cases h
  | succ fuel ih =>
    cases cs with
    | nil =>
      cases h
      exact List.forall_mem_nil _
    | cons c cs =>
      obtain ⟨hc, hcs⟩ := admitted_cons.1 hcs
      rw [fillValue] at h
      split_ifs at h with hlt hamp hspace
      · split at h
        case h_1 => cases h
        case h_2 d rest href =>
          obtain ⟨hchar, -, hrest⟩ := Reference.read_subset href
          exact admitted_of_map_cons (hchar d rfl) (fun _ => ih (hcs.of_subset hrest)) h
        case h_3 name rest href =>
          obtain ⟨-, -, hrest⟩ := Reference.read_subset href
          split at h
          case h_1 d hd =>
            exact admitted_of_map_cons (Reference.allowed_of_predefined? hd)
              (fun _ => ih (hcs.of_subset hrest)) h
          case h_2 =>
            obtain ⟨v, hv, h⟩ := Option.bind_eq_some_iff.1 h
            obtain ⟨more, hmore, h⟩ := Option.bind_eq_some_iff.1 h
            cases h
            exact admitted_append.2 ⟨hentity name v hv, ih (hcs.of_subset hrest) hmore⟩
      · exact admitted_of_map_cons (by decide) (fun _ => ih hcs) h
      · exact admitted_of_map_cons hc (fun _ => ih hcs) h

lemma admitted_attributeValue {depth : Nat} (he : e.Legible) (hcs : Admitted cs)
    (h : attributeValue e depth cs = some s) : Admitted s := by
  have hmissing {v : List Char} (h : (if e.incomplete = true then some [] else none) = some v) :
      Admitted v := by
    split_ifs at h
    cases h
    exact List.forall_mem_nil _
  induction depth generalizing cs s with
  | zero =>
    refine admitted_fillValue (fun name v hv => ?_) hcs h
    split at hv
    · exact hmissing hv
    · cases hv
  | succ depth ih =>
    refine admitted_fillValue (fun name v hv => ?_) hcs h
    split at hv
    · exact hmissing hv
    · cases hv
    case h_3 text htext => exact ih (he.of_find? htext) hv

lemma admitted_glue {sep : Char} {pieces : List (List Char)} (hsep : isAllowed sep.toNat = true)
    (h : ∀ p ∈ pieces, Admitted p) : Admitted (Text.glue sep pieces) := by
  fun_induction Text.glue sep pieces with
  | case1 => exact List.forall_mem_nil _
  | case2 p => exact h p List.mem_cons_self
  | case3 p q ps ih =>
    obtain ⟨hp, hrest⟩ := List.forall_mem_cons.1 h
    exact admitted_append.2 ⟨hp, admitted_cons.2 ⟨hsep, ih hrest⟩⟩

lemma AttributeRule.admitted_regular {isText : Bool} (h : Admitted s) :
    Admitted (regular isText s) := by
  unfold regular
  split_ifs
  · exact h
  · refine admitted_glue (by decide) fun p hp c hc => ?_
    exact h c (Text.mem_of_mem_pieces (List.mem_of_mem_filter hp) hc)

/-! ### Document types -/

structure Doctype.Legible (d : Doctype) : Prop where
  entities : d.entities.Legible
  rules : ∀ r ∈ d.rules, r.Legible

namespace Doctype

variable {d d' : Doctype} {ps qs : List Piece} {alone : Bool}

lemma legible_absent : absent.Legible where
  entities := fun _ hx => nomatch hx
  rules := fun _ hr => nomatch hr

lemma admitted_value? {isText : Bool} {v : List Char} (hd : d.Legible) (hcs : Admitted cs)
    (h : d.value? isText cs = some v) : Admitted v := by
  unfold value? at h
  dsimp only at h
  split_ifs at h
  obtain ⟨s, hs, rfl⟩ := Option.map_eq_some_iff.1 h
  exact AttributeRule.admitted_regular (admitted_attributeValue hd.entities hcs hs)

lemma addRule_legible {r : AttributeRule} (hd : d.Legible) (hr : r.Legible)
    (h : d.addRule r = some d') : d'.Legible := by
  have hadd {default : Option (List Char)} (hdefault : ∀ v, default = some v → Admitted v)
      (h : (if (d.rule? r.element r.name).isSome then some d
        else some { d with rules := d.rules ++ [{ r with default := default }] }) = some d') :
      d'.Legible := by
    split_ifs at h
    · cases h
      exact hd
    · cases h
      exact ⟨hd.entities,
        List.forall_mem_append.2 ⟨hd.rules, List.forall_mem_singleton.2 ⟨hr.name, hdefault⟩⟩⟩
  unfold addRule at h
  cases hwritten : r.default with
  | none =>
    rw [hwritten] at h
    have hnone : ∀ v, (none : Option (List Char)) = some v → Admitted v := fun v hv => nomatch hv
    exact hadd hnone h
  | some written =>
    rw [hwritten] at h
    obtain ⟨default, hdefault, h⟩ := Option.bind_eq_some_iff.1 h
    obtain ⟨value, hvalue, rfl⟩ := Option.map_eq_some_iff.1 hdefault
    refine hadd (fun v hv => ?_) h
    cases hv
    exact admitted_value? hd (hr.default written hwritten) hvalue

lemma foldlM_legible {α : Type} {step : Doctype → α → Option Doctype} {P : α → Prop}
    (hstep : ∀ d x d', d.Legible → P x → step d x = some d' → d'.Legible) {l : List α}
    (hl : ∀ x ∈ l, P x) (hd : d.Legible) (h : l.foldlM step d = some d') : d'.Legible := by
  induction l generalizing d with
  | nil =>
    cases h
    exact hd
  | cons x l ih =>
    obtain ⟨hx, hl⟩ := List.forall_mem_cons.1 hl
    obtain ⟨next, hnext, h⟩ := Option.bind_eq_some_iff.1 h
    exact ih hl (hstep d x next hd hx hnext) h

lemma declare_legible {item : Declared} (hd : d.Legible) (hitem : item.Legible)
    (h : d.declare alone item = some d') : d'.Legible := by
  cases item with
  | insertion =>
    cases h
    exact ⟨hd.entities, hd.rules⟩
  | entity name text =>
    rw [declare] at h
    split_ifs at h
    · cases h
      exact hd
    · obtain ⟨value, hvalue, rfl⟩ := Option.map_eq_some_iff.1 h
      refine ⟨?_, hd.rules⟩
      refine List.forall_mem_append.2 ⟨hd.entities, List.forall_mem_singleton.2 fun s hs => ?_⟩
      cases text with
      | none =>
        cases hvalue
        cases hs
      | some quoted =>
        obtain ⟨t, ht, heq⟩ := Option.map_eq_some_iff.1 hvalue
        cases heq
        cases hs
        exact Entities.admitted_textOf? (hitem quoted rfl) ht
  | parameter text =>
    rw [declare] at h
    split_ifs at h
    · cases h
      exact hd
    · obtain ⟨value, -, rfl⟩ := Option.map_eq_some_iff.1 h
      exact hd
  | attributes rules =>
    rw [declare] at h
    split_ifs at h
    · cases h
      exact hd
    · exact foldlM_legible (fun _ _ _ => addRule_legible) hitem hd h
  | other =>
    cases h
    exact hd

lemma read_legible (hps : ∀ p ∈ ps, p.Legible) (h : read alone ps = some (d, qs)) :
    d.Legible := by
  cases ps with
  | nil => cases h
  | cons p ps =>
    obtain ⟨-, hps⟩ := List.forall_mem_cons.1 hps
    obtain ⟨_, -, h⟩ := Option.bind_eq_some_iff.1 h
    obtain ⟨⟨items, last⟩, hown, h⟩ := Option.bind_eq_some_iff.1 h
    obtain ⟨d', hd', h⟩ := Option.bind_eq_some_iff.1 h
    cases h
    have hinner : ∀ q ∈ (Piece.outside? ps).getD ps, q.Legible := by
      cases houtside : Piece.outside? ps with
      | none => exact hps
      | some rest => exact fun q hq => hps q (Piece.outside?_subset houtside hq)
    have hitems : ∀ item ∈ items, item.Legible := by
      unfold readOwn at hown
      split at hown
      · cases hown
        exact List.forall_mem_nil _
      case h_2 rest heq =>
        rw [heq] at hinner
        obtain ⟨⟨own, behind⟩, hall, hown⟩ := Option.bind_eq_some_iff.1 hown
        have hlegible := Declared.readAll_legible (List.forall_mem_cons.1 hinner).2 hall
        split at hown
        · next heq' =>
          cases hown
          cases heq'
          exact hlegible
        · cases hown
      · cases hown
    refine foldlM_legible (fun _ _ _ => declare_legible) hitems ⟨?_, ?_⟩ hd'
    · exact List.forall_mem_nil _
    · exact List.forall_mem_nil _

theorem legible_of_readProlog (hcs : Admitted cs) (h : readProlog alone cs = some (d, rest)) :
    d.Legible ∧ Admitted rest := by
  obtain ⟨⟨ps, last⟩, hps, h⟩ := Option.bind_eq_some_iff.1 h
  obtain ⟨d', hd', h⟩ := Option.bind_eq_some_iff.1 h
  cases h
  obtain ⟨hlegible, hrest⟩ := Piece.readAll_legible hcs hps
  have hbehind : ∀ p ∈ ps.dropWhile isRemark, p.Legible := fun p hp =>
    hlegible p (List.dropWhile_subset _ hp)
  refine ⟨?_, hrest⟩
  unfold ofPieces at hd'
  split at hd'
  · cases hd'
    exact legible_absent
  case h_2 inner heq =>
    rw [heq] at hbehind
    obtain ⟨⟨d, last⟩, hread, hd'⟩ := Option.bind_eq_some_iff.1 hd'
    dsimp only at hd'
    split_ifs at hd'
    cases hd'
    exact read_legible (List.forall_mem_cons.1 hbehind).2 hread
  · cases hd'

lemma attributes?_legible {element : String} {written : List (String × List Char)}
    {attributes : List (String × String)} (hd : d.Legible)
    (hwritten : ∀ a ∈ written, IsTag a.1.toList ∧ Admitted a.2)
    (h : d.attributes? element written = some attributes) :
    ∀ a ∈ attributes, IsLabel a.1.toList ∧ Admitted a.2.toList := by
  obtain ⟨given, hgiven, h⟩ := Option.bind_eq_some_iff.1 h
  cases h
  refine List.forall_mem_append.2 ⟨?_, fun a ha => ?_⟩
  · intro a ha
    obtain ⟨w, hw, hvalue⟩ := exists_of_mem_mapM hgiven ha
    obtain ⟨v, hv, rfl⟩ := Option.map_eq_some_iff.1 hvalue
    obtain ⟨htag, hadmitted⟩ := hwritten w hw
    rw [String.toList_ofList]
    exact ⟨htag.isLabel, admitted_value? hd hadmitted hv⟩
  · obtain ⟨r, hr, hdefault⟩ := List.mem_filterMap.1 ha
    obtain ⟨v, hv, rfl⟩ := Option.map_eq_some_iff.1 hdefault
    have hrule := hd.rules r (List.mem_of_mem_filter hr)
    rw [String.toList_ofList]
    exact ⟨hrule.name, hrule.default v hv⟩

end Doctype

end BomTable.Xml
