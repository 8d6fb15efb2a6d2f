import BomTable.Text.Ascending
import Mathlib.Data.List.Nodup

/-!
What putting a list in ascending order does. It keeps all items and orders them by their texts, so
where no text belongs to two items the result is fixed by the items alone.
-/

namespace BomTable.Text

variable {α : Type} {key : α → String} {a : α} {l m : List α}

lemma place_perm (key : α → String) (a : α) (l : List α) : (place key a l).Perm (a :: l) := by
  induction l with
  | nil => exact .refl _
  | cons b l ih =>
    rw [place]
    split_ifs
    · exact (ih.cons b).trans (.swap a b l)
    · exact .refl _

lemma ascending_perm (key : α → String) (l : List α) : (ascending key l).Perm l := by
  induction l with
  | nil => exact .refl _
  | cons a l ih => exact (place_perm key a _).trans (ih.cons a)

lemma pairwise_place (h : l.Pairwise fun a b => key a ≤ key b) :
    (place key a l).Pairwise fun a b => key a ≤ key b := by
  induction l with
  | nil => exact List.pairwise_singleton _ _
  | cons b l ih =>
    obtain ⟨hb, hl⟩ := List.pairwise_cons.1 h
    rw [place]
    split_ifs with hba
    · refine List.pairwise_cons.2 ⟨fun c hc => ?_, ih hl⟩
      rcases List.mem_cons.1 ((place_perm key a l).mem_iff.1 hc) with rfl | hc
      · exact (String.le_total (key b) (key c)).resolve_right fun hcb => String.not_lt.2 hcb hba
      · exact hb c hc
    · have hab : key a ≤ key b := String.not_lt.1 hba
      refine List.pairwise_cons.2 ⟨fun c hc => ?_, h⟩
      rcases List.mem_cons.1 hc with rfl | hc
      · exact hab
      · exact String.le_trans hab (hb c hc)

lemma pairwise_ascending (key : α → String) (l : List α) :
    (ascending key l).Pairwise fun a b => key a ≤ key b := by
  induction l with
  | nil => exact .nil
  | cons a l ih => exact pairwise_place ih

theorem ascending_eq_of_mem_iff (hl : (l.map key).Nodup) (hm : (m.map key).Nodup)
    (h : ∀ a, a ∈ l ↔ a ∈ m) : ascending key l = ascending key m := by
  have hperm : (ascending key l).Perm (ascending key m) :=
    (ascending_perm key l).trans
      (((List.perm_ext_iff_of_nodup (hl.of_map key) (hm.of_map key)).2 h).trans
        (ascending_perm key m).symm)
  refine hperm.eq_of_pairwise (fun a b ha hb hab hba => ?_) (pairwise_ascending key l)
    (pairwise_ascending key m)
  exact List.inj_on_of_nodup_map hl ((ascending_perm key l).mem_iff.1 ha)
    ((h b).2 ((ascending_perm key m).mem_iff.1 hb)) (String.le_antisymm hab hba)

end BomTable.Text
