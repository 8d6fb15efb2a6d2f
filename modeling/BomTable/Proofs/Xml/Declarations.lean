import BomTable.Proofs.Xml.Navigation
import BomTable.Xml.Writer
import Mathlib.Data.List.Infix

/-!
The declarations in the first tag of a text tell which short forms were given to which namespaces.
An escaped value has no quotes and belongs to one value only, so a row of declarations can be cut in
one way, as long as what follows does not begin like another declaration.
-/

namespace BomTable

lemma Text.append_inj_of_not_mem {sep : Char} {front front' back back' : List Char}
    (hfront : sep ∉ front) (hfront' : sep ∉ front')
    (h : front ++ sep :: back = front' ++ sep :: back') : front = front' ∧ back = back' := by
  have hcut : cut sep (front ++ sep :: back) = some (front, back) := cut_append hfront
  have hcut' : cut sep (front' ++ sep :: back') = some (front', back') := cut_append hfront'
  rw [← h, hcut, Option.some_inj, Prod.mk.injEq] at hcut'
  exact hcut'

namespace Xml

/-! ### Escaped values -/

namespace Escape

variable {c d : Char} {x y : List Char}

/-- The characters that do not stand for themselves in a value. -/
def marked : List Char := ['&', '<', '>', '"', '\r', '\n', '\t']

lemma inValue_of_not_mem (h : c ∉ marked) : (inValue c).toList = [c] := by
  simp only [marked, List.mem_cons, List.not_mem_nil, or_false, not_or] at h
  obtain ⟨hamp, hlt, hgt, hquot, hcr, hlf, htab⟩ := h
  rw [inValue, inText]
  · simp
  all_goals assumption

lemma inValue_of_mem : ∀ c ∈ marked, (inValue c).toList.head? = some '&' ∧
    1 < (inValue c).toList.length ∧ '"' ∉ (inValue c).toList ∧
    ∀ d ∈ marked, (inValue c).toList <+: (inValue d).toList → c = d := by
  -- member by member: a quantifier over `Char` would be decided by trying every character
  simp only [← List.forall_iff_forall_mem]
  decide

lemma inValue_ne_nil (c : Char) : (inValue c).toList ≠ [] := by
  by_cases hc : c ∈ marked
  · exact List.ne_nil_of_length_pos (Nat.zero_lt_of_lt (inValue_of_mem c hc).2.1)
  · rw [inValue_of_not_mem hc]
    exact List.cons_ne_nil c []

lemma quote_not_mem_inValue (c : Char) : '"' ∉ (inValue c).toList := by
  by_cases hc : c ∈ marked
  · exact (inValue_of_mem c hc).2.2.1
  · rw [inValue_of_not_mem hc, List.mem_singleton]
    rintro rfl
    exact hc (by decide)

/-- What one character is written as never begins what another one is written as. -/
lemma eq_of_inValue_begins (h : (inValue c).toList <+: (inValue d).toList) : c = d := by
  by_cases hc : c ∈ marked <;> by_cases hd : d ∈ marked
  · exact (inValue_of_mem c hc).2.2.2 d hd h
  · have hlength := h.length_le
    rw [inValue_of_not_mem hd, List.length_singleton] at hlength
    exact absurd (inValue_of_mem c hc).2.1 (by omega)
  · rw [inValue_of_not_mem hc] at h
    have hhead := (inValue_of_mem d hd).1
    obtain ⟨rest, hrest⟩ := h
    rw [← hrest] at hhead
    cases hhead
    exact absurd (by decide) hc
  · rw [inValue_of_not_mem hc, inValue_of_not_mem hd] at h
    simpa using h

lemma inValue_append_inj (h : (inValue c).toList ++ x = (inValue d).toList ++ y) :
    c = d ∧ x = y := by
  have hcd : c = d := by
    rcases List.prefix_or_prefix_of_prefix (List.prefix_append (inValue c).toList x)
      (h ▸ List.prefix_append (inValue d).toList y) with hpre | hpre
    · exact eq_of_inValue_begins hpre
    · exact (eq_of_inValue_begins hpre).symm
  subst hcd
  exact ⟨rfl, List.append_cancel_left h⟩

lemma toList_value (s : String) :
    (value s).toList = s.toList.flatMap fun c => (inValue c).toList := by
  rw [value, String.toList_join, List.flatMap_map]

lemma quote_not_mem_value (s : String) : '"' ∉ (value s).toList := by
  rw [toList_value, List.mem_flatMap]
  rintro ⟨c, -, hc⟩
  exact quote_not_mem_inValue c hc

lemma eq_of_flatMap_inValue {l m : List Char}
    (h : (l.flatMap fun c => (inValue c).toList) = m.flatMap fun c => (inValue c).toList) :
    l = m := by
  induction l generalizing m with
  | nil =>
    cases m with
    | nil => rfl
    | cons d m => exact absurd (List.append_eq_nil_iff.1 h.symm).1 (inValue_ne_nil d)
  | cons c l ih =>
    cases m with
    | nil => exact absurd (List.append_eq_nil_iff.1 h).1 (inValue_ne_nil c)
    | cons d m =>
      obtain ⟨rfl, hrest⟩ := inValue_append_inj h
      rw [ih hrest]

lemma value_injective : Function.Injective value := fun s t h => by
  refine String.toList_injective (eq_of_flatMap_inValue ?_)
  rw [← toList_value, h, toList_value]

end Escape

/-! ### Rows of declarations -/

variable {e e' : String × String} {x x' : List Char} {l l' : Seen}

/-- The short form in a declaration. -/
def label (short : String) : List Char := if short = "" then [] else ':' :: short.toList

lemma label_injective : Function.Injective label := by
  intro s t h
  unfold label at h
  split_ifs at h with hs ht ht
  · rw [hs, ht]
  · exact String.toList_injective (List.cons.inj h).2

lemma not_mem_label {short : String} (h : '=' ∉ short.toList) : '=' ∉ label short := by
  unfold label
  split_ifs
  · exact List.not_mem_nil
  · simpa using h

lemma toList_declaration (e : String × String) : (declaration e).toList =
    " xmlns".toList ++ (label e.2 ++ '=' :: '"' :: ((Escape.value e.1).toList ++ ['"'])) := by
  have hlabel : (if e.2 = "" then "" else ":" ++ e.2).toList = label e.2 := by
    unfold label
    split_ifs <;> simp
  simp only [declaration, String.toList_append, hlabel, List.append_assoc]
  rfl

lemma declaration_append_inj (he : '=' ∉ e.2.toList) (he' : '=' ∉ e'.2.toList)
    (h : (declaration e).toList ++ x = (declaration e').toList ++ x') : e = e' ∧ x = x' := by
  rw [toList_declaration, toList_declaration] at h
  simp only [List.append_assoc, List.cons_append, List.nil_append] at h
  obtain ⟨hshort, hrest⟩ := Text.append_inj_of_not_mem (not_mem_label he) (not_mem_label he')
    (List.append_cancel_left h)
  obtain ⟨huri, hx⟩ := Text.append_inj_of_not_mem (Escape.quote_not_mem_value e.1)
    (Escape.quote_not_mem_value e'.1) (List.cons.inj hrest).2
  exact ⟨Prod.ext (Escape.value_injective (String.toList_injective huri)) (label_injective hshort),
    hx⟩

/-- The text does not begin like a declaration. -/
def Undeclared (cs : List Char) : Prop :=
  ¬ " xmlns=".toList <+: cs ∧ ¬ " xmlns:".toList <+: cs

lemma not_undeclared : ¬ Undeclared ((declaration e).toList ++ x) := by
  rw [toList_declaration, Undeclared, not_and_or, not_not, not_not]
  unfold label
  split_ifs
  · exact .inl ⟨_, rfl⟩
  · exact .inr ⟨_, rfl⟩

/-- **Declarations are cut in one way**: where a row of them ends, the rest does not go on like one.
-/
theorem declarations_append_inj (hl : ∀ e ∈ l, '=' ∉ e.2.toList) (hl' : ∀ e ∈ l', '=' ∉ e.2.toList)
    (hx : Undeclared x) (hx' : Undeclared x')
    (h : (String.join (l.map declaration)).toList ++ x =
      (String.join (l'.map declaration)).toList ++ x') : l = l' := by
  induction l generalizing l' with
  | nil =>
    cases l' with
    | nil => rfl
    | cons e' l' =>
      rw [List.map_cons, String.join_cons, String.toList_append, List.append_assoc] at h
      have hrow : x = (declaration e').toList ++ _ := h
      exact absurd (hrow ▸ hx) not_undeclared
  | cons e l ih =>
    rw [List.map_cons, String.join_cons, String.toList_append, List.append_assoc] at h
    cases l' with
    | nil =>
      have hrow : x' = (declaration e).toList ++ _ := h.symm
      exact absurd (hrow ▸ hx') not_undeclared
    | cons e' l' =>
      rw [List.map_cons, String.join_cons, String.toList_append, List.append_assoc] at h
      obtain ⟨rfl, hrest⟩ := declaration_append_inj (hl e List.mem_cons_self)
        (hl' e' List.mem_cons_self) h
      rw [ih (fun d hd => hl d (List.mem_cons_of_mem e hd))
        (fun d hd => hl' d (List.mem_cons_of_mem e hd)) hrest]

end Xml

end BomTable
