import BomTable.Proofs.Text.Ascending
import BomTable.Property.Placeholder
import Mathlib.Tactic.Common

/-!
What can be seen of a property source: the value it has for each name. Layers, names, fingerprint
and substitution are all fixed by it.
-/

namespace BomTable.Source

lemma mem_names_of_get? {s : Source} {name v : String} (h : s.get? name = some v) :
    name ∈ s.names := by
  induction s generalizing v with
  | dict d =>
    by_contra hn
    rw [get?, Dict.get?, (Dict.find?_eq_none_iff d.entries name).2 hn] at h
    cases h
  | layered overlay base iho ihb =>
    simp only [names, List.mem_append, List.mem_filter, decide_eq_true_eq]
    by_cases ho : name ∈ overlay.names
    · exact .inl ho
    · refine .inr ⟨ihb (v := v) ?_, ho⟩
      have hn : overlay.get? name = none := by
        cases hg : overlay.get? name with
        | none => rfl
        | some u => exact absurd (iho hg) ho
      simpa [get?, hn] using h

lemma get?_of_isEmpty {s : Source} (h : s.isEmpty) (name : String) : s.get? name = none := by
  cases hg : s.get? name with
  | none => rfl
  | some v =>
    have := mem_names_of_get? hg
    simp_all [isEmpty]

theorem get?_layer (base overlay : Source) (name : String) :
    (base.layer overlay).get? name = (overlay.get? name).or (base.get? name) := by
  unfold layer
  split_ifs with ho hb
  · rw [get?_of_isEmpty ho, Option.none_or]
  · rw [get?_of_isEmpty hb, Option.or_none]
  · cases h : overlay.get? name <;> simp [get?, h]

@[simp] lemma get?_ofDict (d : Dict String) (name : String) : (ofDict d).get? name = d.get? name :=
  rfl

lemma layer_congr {base base' overlay overlay' : Source} (hb : base.get? = base'.get?)
    (ho : overlay.get? = overlay'.get?) :
    (base.layer overlay).get? = (base'.layer overlay').get? := by
  funext name
  rw [get?_layer, get?_layer, hb, ho]

/-! ### The fingerprint -/

lemma mem_fingerprint {s : Source} {name v : String} :
    (name, v) ∈ s.fingerprint ↔ s.get? name = some v := by
  rw [fingerprint, (Text.ascending_perm Prod.fst s.snapshot).mem_iff, snapshot, List.mem_filterMap]
  constructor
  · rintro ⟨n, -, h⟩
    obtain ⟨u, hu, h⟩ := Option.map_eq_some_iff.1 h
    cases h
    exact hu
  · exact fun h => ⟨name, mem_names_of_get? h, by simp [h]⟩

theorem get?_eq_of_fingerprint_eq {s t : Source} (h : s.fingerprint = t.fingerprint) :
    s.get? = t.get? := by
  funext name
  refine Option.ext fun v => ?_
  rw [← mem_fingerprint, ← mem_fingerprint, h]

/-! ### Substitution -/

lemma substitute_congr {s t : Source} (h : s.get? = t.get?) : s.substitute = t.substitute := by
  funext template
  rw [substitute, substitute, h]

lemma substitute_of_not_unresolved {s : Source} {template : String}
    (h : unresolved template = false) : s.substitute template = template := by
  unfold unresolved at h
  simp [substitute, h]

end BomTable.Source
