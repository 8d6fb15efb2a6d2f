import BomTable.Proofs.Xml.Navigation
import BomTable.Xml.Token
import Mathlib.Data.List.Infix
import Mathlib.Data.List.TakeWhile

/-!
What the readers of markup give. Every part that is read consists of characters of the text, or of
allowed ones that are given by their numbers, and so does what is left behind it. The names in tags
are names, with one colon between two of them at most.
-/

namespace BomTable.Xml

/-- All characters may stand in a document. -/
def Admitted (cs : List Char) : Prop := ∀ c ∈ cs, isAllowed c.toNat = true

/-- A name without a colon. -/
def IsName (cs : List Char) : Prop :=
  ∃ c rest, cs = c :: rest ∧ beginsName c = true ∧ ∀ d ∈ rest, inName d = true

/-- A name, or two names with a colon between them, as tags have it. -/
def IsTag (cs : List Char) : Prop :=
  IsName cs ∨ ∃ first second, cs = first ++ ':' :: second ∧ IsName first ∧ IsName second

variable {c : Char} {cs rest mark s before after : List Char}

/-! ### Characters -/

lemma Admitted.of_subset (h : Admitted cs) (hs : s ⊆ cs) : Admitted s := fun c hc => h c (hs hc)

lemma admitted_of_all (h : (cs.all fun c => isAllowed c.toNat) = true) : Admitted cs :=
  fun c => List.all_eq_true.1 h c

lemma admitted_append : Admitted (s ++ rest) ↔ Admitted s ∧ Admitted rest :=
  List.forall_mem_append

lemma admitted_cons : Admitted (c :: cs) ↔ isAllowed c.toNat = true ∧ Admitted cs :=
  List.forall_mem_cons

lemma inName_of_beginsName (h : beginsName c = true) : inName c = true := by
  unfold beginsName at h
  unfold inName
  split_ifs at h ⊢ with hc
  · rw [Bool.or_eq_true] at h
    rcases h with h | h
    · simp [Char.isAlphanum, h]
    · simp [h]
  · simp [h]

lemma IsName.all_inName (h : IsName cs) : ∀ c ∈ cs, inName c = true := by
  obtain ⟨c, rest, rfl, hc, hrest⟩ := h
  exact List.forall_mem_cons.2 ⟨inName_of_beginsName hc, hrest⟩

lemma IsName.not_mem (h : IsName cs) (hc : inName c = false) : c ∉ cs := fun hmem => by
  rw [h.all_inName c hmem] at hc
  cases hc

lemma IsName.colon_not_mem (h : IsName cs) : ':' ∉ cs := h.not_mem (by decide)

/-! ### The smallest parts -/

lemma skipSpace_subset (cs : List Char) : skipSpace cs ⊆ cs := List.dropWhile_subset _

lemma spaced?_subset (h : spaced? cs = some rest) : rest ⊆ cs := by
  unfold spaced? at h
  split at h
  · split_ifs at h
    cases h
    exact List.subset_cons_of_subset _ (skipSpace_subset _)
  · cases h

lemma after?_eq (h : after? mark cs = some rest) : cs = mark ++ rest := by
  fun_induction after? mark cs with
  | case1 cs =>
    cases h
    rfl
  | case2 c word cs ih => rw [ih h, List.cons_append]
  | case3 | case4 => cases h

lemma after?_subset (h : after? mark cs = some rest) : rest ⊆ cs :=
  after?_eq h ▸ List.subset_append_right _ _

lemma cutAt_subset (h : cutAt mark cs = some (before, rest)) : before ⊆ cs ∧ rest ⊆ cs := by
  induction cs generalizing before with
  | nil => cases h
  | cons c cs ih =>
    rw [cutAt] at h
    split at h
    case h_1 last hlast =>
      cases h
      exact ⟨List.nil_subset _, after?_subset hlast⟩
    case h_2 =>
      obtain ⟨⟨front, last⟩, hcut, heq⟩ := Option.map_eq_some_iff.1 h
      cases heq
      obtain ⟨hfront, hlast⟩ := ih hcut
      exact ⟨List.cons_subset_cons c hfront, List.subset_cons_of_subset c hlast⟩

lemma readName_eq (h : readName cs = some (s, rest)) : IsName s ∧ cs = s ++ rest := by
  unfold readName at h
  split at h
  · split_ifs at h with hc
    cases h
    refine ⟨⟨_, _, rfl, hc, fun d hd => List.mem_takeWhile_imp hd⟩, ?_⟩
    rw [List.cons_append, List.takeWhile_append_dropWhile]
  · cases h

lemma readTag_eq {tag : String} (h : readTag cs = some (tag, rest)) :
    IsTag tag.toList ∧ cs = tag.toList ++ rest := by
  obtain ⟨⟨first, last⟩, hfirst, h⟩ := Option.bind_eq_some_iff.1 h
  obtain ⟨hname, hcs⟩ := readName_eq hfirst
  dsimp only at h
  split at h
  case h_1 later =>
    obtain ⟨⟨second, last⟩, hsecond, h⟩ := Option.bind_eq_some_iff.1 h
    obtain ⟨hsecond, hlater⟩ := readName_eq hsecond
    cases h
    rw [String.toList_ofList, hcs, hlater]
    exact ⟨.inr ⟨first, second, rfl, hname, hsecond⟩, by simp⟩
  case h_2 =>
    cases h
    rw [String.toList_ofList]
    exact ⟨.inl hname, hcs⟩

lemma readQuoted_subset (h : readQuoted cs = some (s, rest)) : s ⊆ cs ∧ rest ⊆ cs := by
  unfold readQuoted at h
  split at h
  · split_ifs at h
    obtain ⟨hs, hrest⟩ := cutAt_subset h
    exact ⟨List.subset_cons_of_subset _ hs, List.subset_cons_of_subset _ hrest⟩
  · cases h

/-! ### References -/

namespace Reference

lemma toNat_ofNat_of_isAllowed {n : Nat} (h : isAllowed n = true) : (Char.ofNat n).toNat = n := by
  have hvalid : n.isValidChar := by
    simp only [isAllowed, Bool.or_eq_true, Bool.and_eq_true, decide_eq_true_eq] at h
    unfold Nat.isValidChar
    omega
  rw [Char.ofNat, dif_pos hvalid]
  exact BitVec.toNat_ofFin _

lemma allowed_of_charOf? {base : Nat} {digits : List Char} (h : charOf? base digits = some c) :
    isAllowed c.toNat = true := by
  unfold charOf? at h
  split_ifs at h with hempty
  · cases h
  · obtain ⟨n, -, h⟩ := Option.bind_eq_some_iff.1 h
    split_ifs at h with hn
    cases h
    rwa [toNat_ofNat_of_isAllowed hn]

lemma read_subset {ref : Reference} (h : read cs = some (ref, rest)) :
    (∀ c, ref = .char c → isAllowed c.toNat = true) ∧
      (∀ name, ref = .entity name → name.toList ⊆ cs) ∧ rest ⊆ cs := by
  have hnumber {base : Nat} {inner : List Char} (hinner : inner ⊆ cs)
      (h : ((cutAt [';'] inner).bind fun parts => (charOf? base parts.1).bind fun d =>
        some (.char d, parts.2)) = some (ref, rest)) :
      (∀ c, ref = .char c → isAllowed c.toNat = true) ∧
        (∀ name, ref = .entity name → name.toList ⊆ cs) ∧ rest ⊆ cs := by
    obtain ⟨⟨digits, last⟩, hcut, h⟩ := Option.bind_eq_some_iff.1 h
    obtain ⟨d, hd, h⟩ := Option.bind_eq_some_iff.1 h
    cases h
    refine ⟨fun c hc => ?_, fun name hname => ?_, List.Subset.trans (cutAt_subset hcut).2 hinner⟩
    · cases hc
      exact allowed_of_charOf? hd
    · cases hname
  unfold read at h
  split at h
  · exact hnumber (List.subset_cons_of_subset _ (List.subset_cons_self _ _)) h
  · exact hnumber (List.subset_cons_self _ _) h
  · obtain ⟨⟨name, last⟩, hname, h⟩ := Option.bind_eq_some_iff.1 h
    obtain ⟨-, hcs⟩ := readName_eq hname
    obtain ⟨behind, hbehind, h⟩ := Option.bind_eq_some_iff.1 h
    cases h
    rw [hcs]
    refine ⟨fun c hc => ?_, fun n hn => ?_,
      List.subset_append_of_subset_right _ (after?_subset hbehind)⟩
    · cases hc
    · cases hn
      rw [String.toList_ofList]
      exact List.subset_append_left _ _

lemma allowed_of_predefined? {name : String} (h : predefined? name = some c) :
    isAllowed c.toNat = true := by
  unfold predefined? at h
  split at h <;> cases h <;> decide

end Reference

/-! ### Tokens -/

namespace Token

/-- Tags have the names of tags, and what is written in a token may stand in a document. -/
def Legible : Token → Prop
  | .opening tag attributes _ =>
    IsTag tag.toList ∧ ∀ a ∈ attributes, IsTag a.1.toList ∧ Admitted a.2
  | .chars s => Admitted s
  | .quoted s => Admitted s
  | _ => True

variable {attributes : List (String × List Char)} {closed : Bool} {t : Token} {fuel : Nat}

lemma readAttributes_legible (hcs : Admitted cs)
    (h : readAttributes fuel cs = some (attributes, closed, rest)) :
    (∀ a ∈ attributes, IsTag a.1.toList ∧ Admitted a.2) ∧ Admitted rest := by
  induction fuel generalizing cs attributes with
  | zero => cases h
  | succ fuel ih =>
    have hinner : Admitted (skipSpace cs) := hcs.of_subset (skipSpace_subset cs)
    rw [readAttributes] at h
    split at h
    case h_1 last heq =>
      cases h
      exact ⟨List.forall_mem_nil _, (admitted_cons.1 (heq ▸ hinner)).2⟩
    case h_2 last heq =>
      cases h
      exact ⟨List.forall_mem_nil _, (admitted_cons.1 (admitted_cons.1 (heq ▸ hinner)).2).2⟩
    case h_3 =>
      obtain ⟨front, hfront, h⟩ := Option.bind_eq_some_iff.1 h
      obtain ⟨⟨name, afterName⟩, hname, h⟩ := Option.bind_eq_some_iff.1 h
      obtain ⟨afterSign, hsign, h⟩ := Option.bind_eq_some_iff.1 h
      obtain ⟨⟨value, behind⟩, hvalue, h⟩ := Option.bind_eq_some_iff.1 h
      obtain ⟨htag, heq⟩ := readTag_eq hname
      -- the value and what is behind it are parts of the text, and so is all that follows
      have hsubset : value ⊆ cs ∧ behind ⊆ cs := by
        obtain ⟨hv, hb⟩ := readQuoted_subset hvalue
        have hafter : afterName ⊆ cs :=
          List.Subset.trans (heq ▸ List.subset_append_right _ _) (spaced?_subset hfront)
        have hquoted : skipSpace afterSign ⊆ cs :=
          List.Subset.trans (skipSpace_subset _) <| List.Subset.trans (after?_subset hsign) <|
            List.Subset.trans (skipSpace_subset _) hafter
        exact ⟨List.Subset.trans hv hquoted, List.Subset.trans hb hquoted⟩
      dsimp only at h
      split_ifs at h
      · cases h
      · obtain ⟨⟨more, closed', last⟩, hmore, h⟩ := Option.bind_eq_some_iff.1 h
        cases h
        obtain ⟨hall, hlast⟩ := ih (hcs.of_subset hsubset.2) hmore
        exact ⟨List.forall_mem_cons.2 ⟨⟨htag, hcs.of_subset hsubset.1⟩, hall⟩, hlast⟩

lemma readOpening_legible (hcs : Admitted cs) (h : readOpening cs = some (t, rest)) :
    t.Legible ∧ Admitted rest := by
  obtain ⟨⟨tag, behind⟩, htag, h⟩ := Option.bind_eq_some_iff.1 h
  obtain ⟨⟨attributes, closed, last⟩, hattributes, h⟩ := Option.bind_eq_some_iff.1 h
  cases h
  obtain ⟨htag, heq⟩ := readTag_eq htag
  rw [heq] at hcs
  obtain ⟨hall, hlast⟩ := readAttributes_legible (admitted_append.1 hcs).2 hattributes
  exact ⟨⟨htag, hall⟩, hlast⟩

lemma readClosing_legible (hcs : Admitted cs) (h : readClosing cs = some (t, rest)) :
    t.Legible ∧ Admitted rest := by
  obtain ⟨⟨tag, behind⟩, htag, h⟩ := Option.bind_eq_some_iff.1 h
  obtain ⟨last, hlast, h⟩ := Option.bind_eq_some_iff.1 h
  cases h
  obtain ⟨-, heq⟩ := readTag_eq htag
  rw [heq] at hcs
  exact ⟨trivial, hcs.of_subset <| List.Subset.trans (after?_subset hlast) <|
    List.subset_append_of_subset_right _ (skipSpace_subset _)⟩

lemma readComment_legible (hcs : Admitted cs) (h : readComment cs = some (t, rest)) :
    t.Legible ∧ Admitted rest := by
  obtain ⟨⟨s, behind⟩, hcut, h⟩ := Option.bind_eq_some_iff.1 h
  obtain ⟨last, hlast, h⟩ := Option.bind_eq_some_iff.1 h
  cases h
  exact ⟨trivial, hcs.of_subset (List.Subset.trans (after?_subset hlast) (cutAt_subset hcut).2)⟩

lemma readInstruction_legible (hcs : Admitted cs) (h : readInstruction cs = some (t, rest)) :
    t.Legible ∧ Admitted rest := by
  obtain ⟨⟨target, behind⟩, htarget, h⟩ := Option.bind_eq_some_iff.1 h
  obtain ⟨-, heq⟩ := readName_eq htarget
  rw [heq] at hcs
  dsimp only at h
  split_ifs at h
  · cases h
  · obtain ⟨⟨data, last⟩, hcut, h⟩ := Option.bind_eq_some_iff.1 h
    have hlast : Admitted last := (admitted_append.1 hcs).2.of_subset (cutAt_subset hcut).2
    dsimp only at h
    split_ifs at h
    · cases h
      exact ⟨trivial, hlast⟩
    · obtain ⟨inner, -, h⟩ := Option.bind_eq_some_iff.1 h
      cases h
      exact ⟨trivial, hlast⟩

lemma readMarkup_legible (hcs : Admitted cs) (h : readMarkup cs = some (t, rest)) :
    t.Legible ∧ Admitted rest := by
  unfold readMarkup at h
  split at h
  · exact readClosing_legible (admitted_cons.1 hcs).2 h
  · exact readInstruction_legible (admitted_cons.1 hcs).2 h
  · have hinner := (admitted_cons.1 hcs).2
    split at h
    case h_1 inner hword => exact readComment_legible (hinner.of_subset (after?_subset hword)) h
    case h_2 =>
      obtain ⟨inner, hword, h⟩ := Option.bind_eq_some_iff.1 h
      obtain ⟨⟨s, last⟩, hcut, h⟩ := Option.bind_eq_some_iff.1 h
      cases h
      have hs := hinner.of_subset (after?_subset hword)
      exact ⟨hs.of_subset (cutAt_subset hcut).1, hs.of_subset (cutAt_subset hcut).2⟩
  · exact readOpening_legible hcs h

lemma readReference_legible (hcs : Admitted cs) (h : readReference cs = some (t, rest)) :
    t.Legible ∧ Admitted rest := by
  obtain ⟨⟨ref, last⟩, href, h⟩ := Option.bind_eq_some_iff.1 h
  obtain ⟨hchar, -, hlast⟩ := Reference.read_subset href
  cases ref with
  | char c =>
    cases h
    exact ⟨List.forall_mem_singleton.2 (hchar c rfl), hcs.of_subset hlast⟩
  | entity name =>
    dsimp only at h
    split at h
    case h_1 c hc =>
      cases h
      have hallowed : isAllowed c.toNat = true := Reference.allowed_of_predefined? hc
      exact ⟨List.forall_mem_singleton.2 hallowed, hcs.of_subset hlast⟩
    case h_2 =>
      cases h
      exact ⟨trivial, hcs.of_subset hlast⟩

lemma readChars_legible (hcs : Admitted cs) (h : readChars cs = some (t, rest)) :
    t.Legible ∧ Admitted rest := by
  unfold readChars at h
  dsimp only at h
  split_ifs at h
  cases h
  exact ⟨hcs.of_subset (List.takeWhile_subset _), hcs.of_subset (List.dropWhile_subset _)⟩

lemma read_legible (hcs : Admitted cs) (h : read cs = some (t, rest)) :
    t.Legible ∧ Admitted rest := by
  unfold read at h
  split at h
  · exact readMarkup_legible (admitted_cons.1 hcs).2 h
  · exact readReference_legible (admitted_cons.1 hcs).2 h
  · exact readChars_legible hcs h

lemma readAll_legible {ts : List Token} (hcs : Admitted cs) (h : readAll fuel cs = some ts) :
    ∀ t ∈ ts, t.Legible := by
  induction fuel generalizing cs ts with
  | zero =>
    cases cs with
    | nil =>
      cases h
      exact List.forall_mem_nil _
    | cons c cs => cases h
  | succ fuel ih =>
    cases cs with
    | nil =>
      cases h
      exact List.forall_mem_nil _
    | cons c cs =>
      obtain ⟨⟨t, rest⟩, ht, h⟩ := Option.bind_eq_some_iff.1 h
      obtain ⟨ts, hts, h⟩ := Option.bind_eq_some_iff.1 h
      cases h
      obtain ⟨hlegible, hrest⟩ := read_legible hcs ht
      exact List.forall_mem_cons.2 ⟨hlegible, ih hrest hts⟩

theorem legible_of_ofChars {ts : List Token} (hcs : Admitted cs) (h : ofChars cs = some ts) :
    ∀ t ∈ ts, t.Legible :=
  readAll_legible hcs h

end Token

end BomTable.Xml
