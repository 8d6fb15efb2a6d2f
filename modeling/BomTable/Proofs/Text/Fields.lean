import BomTable.Text.Fields
import Mathlib.Tactic.Common

/-!
The pieces of a text between the places of a separator: what they are made of, and how they and the
text tell each other, also when texts are put together.
-/

namespace BomTable.Text

variable {sep old c : Char} {front back p cs : List Char} {s : String}

lemma pieces_of_not_mem (h : sep ∉ front) : pieces sep front = [front] := by
  induction front with
  | nil => rfl
  | cons c cs ih =>
    have hc : c ≠ sep := fun he => h (he ▸ List.mem_cons_self)
    have hcs : sep ∉ cs := fun he => h (List.mem_cons_of_mem c he)
    simp [pieces, hc, ih hcs]

lemma pieces_append (sep : Char) (front back : List Char) :
    pieces sep (front ++ sep :: back) = pieces sep front ++ pieces sep back := by
  induction front with
  | nil => simp [pieces]
  | cons c cs ih =>
    by_cases hc : c = sep
    · simp [pieces, hc, ih]
    · obtain ⟨p, ps, hp⟩ := List.exists_cons_of_ne_nil (pieces_ne_nil sep cs)
      simp [pieces, hc, ih, hp]

lemma mem_pieces_cons (h : p ∈ pieces sep (c :: cs)) :
    p = [] ∨ p ∈ pieces sep cs ∨ c ≠ sep ∧ ∃ q ∈ pieces sep cs, p = c :: q := by
  by_cases hc : c = sep
  · simp only [pieces, hc, if_true, List.mem_cons] at h
    exact h.imp id .inl
  · obtain ⟨q, qs, hq⟩ := List.exists_cons_of_ne_nil (pieces_ne_nil sep cs)
    simp only [pieces, hc, if_false, hq, List.mem_cons] at h
    rcases h with rfl | h
    · exact .inr (.inr ⟨hc, q, hq ▸ List.mem_cons_self, rfl⟩)
    · exact .inr (.inl (hq ▸ List.mem_cons_of_mem q h))

lemma mem_of_mem_pieces (hp : p ∈ pieces sep front) (hc : c ∈ p) : c ∈ front := by
  induction front generalizing p with
  | nil => simp_all [pieces]
  | cons d cs ih =>
    rcases mem_pieces_cons hp with rfl | hp | ⟨-, q, hq, rfl⟩
    · cases hc
    · exact List.mem_cons_of_mem d (ih hp hc)
    · rcases List.mem_cons.1 hc with rfl | hc
      · exact List.mem_cons_self
      · exact List.mem_cons_of_mem d (ih hq hc)

lemma not_mem_of_mem_pieces (hp : p ∈ pieces sep front) : sep ∉ p := by
  induction front generalizing p with
  | nil => simp_all [pieces]
  | cons c cs ih =>
    rcases mem_pieces_cons hp with rfl | hp | ⟨hc, q, hq, rfl⟩
    · exact List.not_mem_nil
    · exact ih hp
    · rw [List.mem_cons, not_or]
      exact ⟨Ne.symm hc, ih hq⟩

/-- A text falls apart where its separators are put in. -/
lemma pieces_replaced (h : sep ∉ front) :
    pieces sep (front.map fun c => if c = old then sep else c) = pieces old front := by
  induction front with
  | nil => rfl
  | cons c cs ih =>
    have hc : c ≠ sep := fun he => h (he ▸ List.mem_cons_self)
    have hcs : sep ∉ cs := fun he => h (List.mem_cons_of_mem c he)
    by_cases hold : c = old
    · simp [pieces, hold, ih hcs]
    · simp [pieces, hold, hc, ih hcs]

/-! ### Fields -/

lemma fields_of_not_mem (h : sep ∉ s.toList) : fields sep s = [s] := by
  rw [fields, pieces_of_not_mem h, List.map_singleton, String.ofList_toList]

lemma fields_append (sep : Char) (s t : String) :
    fields sep (s ++ String.singleton sep ++ t) = fields sep s ++ fields sep t := by
  simp [fields, String.toList_append, pieces_append]

lemma fields_replaceChar (h : sep ∉ s.toList) :
    fields sep (replaceChar old sep s) = fields old s := by
  rw [fields, fields, replaceChar, String.toList_ofList, pieces_replaced h]

lemma not_mem_of_mem_fields {t : String} (h : t ∈ fields sep s) : sep ∉ t.toList := by
  obtain ⟨p, hp, rfl⟩ := List.mem_map.1 h
  rw [String.toList_ofList]
  exact not_mem_of_mem_pieces hp

lemma toList_joined (sep : Char) (ps : List (List Char)) :
    (joined (String.singleton sep) (ps.map String.ofList)).toList = glue sep ps := by
  induction ps with
  | nil => rfl
  | cons p ps ih =>
    cases ps with
    | nil => simp [joined, glue]
    | cons q ps =>
      rw [List.map_cons] at ih
      simp [joined, glue, String.toList_append, ih]

lemma joined_fields (sep : Char) (s : String) :
    joined (String.singleton sep) (fields sep s) = s := by
  rw [← String.toList_inj, fields, toList_joined, glue_pieces]

lemma fields_injective (sep : Char) : Function.Injective (fields sep) :=
  Function.LeftInverse.injective (joined_fields sep)

end BomTable.Text
