import BomTable.Proofs.Property.Lookup

/-!
What layers do to all that can be seen of a source. Names are listed once each and every listed name
has a value, so the fingerprint is fixed by the values alone: it tells two sources apart exactly
when some name does. Layering is associative, and laying the empty source over another or under it
changes nothing that can be seen.
-/

namespace BomTable.Source

variable {s t a b c : Source} {name v : String}

/-! ### Names and snapshots -/

lemma nodup_names (s : Source) : s.names.Nodup := by
  induction s with
  | dict d => exact d.nodup
  | layered overlay base iho ihb =>
    refine List.nodup_append.2 ⟨iho, ihb.filter _, fun x hx y hy hxy => ?_⟩
    have hnot : y ∉ overlay.names := by simpa using (List.mem_filter.1 hy).2
    exact hnot (hxy ▸ hx)

lemma exists_of_mem_names (h : name ∈ s.names) : ∃ v, s.get? name = some v := by
  rw [← Option.ne_none_iff_exists']
  induction s with
  | dict d => exact fun hnone => (Dict.find?_eq_none_iff d.entries name).1 hnone h
  | layered overlay base iho ihb =>
    rw [get?, ← Option.or_eq_orElse, Ne, Option.or_eq_none_iff, not_and_or]
    rcases List.mem_append.1 h with h | h
    · exact .inl (iho h)
    · exact .inr (ihb (List.mem_filter.1 h).1)

lemma map_fst_snapshot (s : Source) : s.snapshot.map Prod.fst = s.names := by
  have hvalue : ∀ n ∈ s.names,
      Option.map Prod.fst ((s.get? n).map ((n, ·) : String → String × String)) = some n := by
    intro n hn
    obtain ⟨v, hv⟩ := exists_of_mem_names hn
    rw [hv]
    rfl
  rw [snapshot, List.map_filterMap, List.filterMap_congr hvalue, List.filterMap_some]

lemma mem_snapshot : (name, v) ∈ s.snapshot ↔ s.get? name = some v := by
  rw [← mem_fingerprint, fingerprint, (Text.ascending_perm Prod.fst s.snapshot).mem_iff]

/-! ### Fingerprints -/

lemma fingerprint_eq_of_get?_eq (h : ∀ name, s.get? name = t.get? name) :
    s.fingerprint = t.fingerprint := by
  refine Text.ascending_eq_of_mem_iff ?_ ?_ fun p => ?_
  · exact map_fst_snapshot s ▸ nodup_names s
  · exact map_fst_snapshot t ▸ nodup_names t
  · rw [mem_snapshot, mem_snapshot, h]

/-- **The fingerprint identifies what a source says**: it is equal for two sources exactly when they
have the same value for every name, and then they fill in every text alike. -/
theorem fingerprint_eq_iff (s t : Source) :
    (s.fingerprint = t.fingerprint ↔ ∀ name, s.get? name = t.get? name) ∧
      (s.fingerprint = t.fingerprint →
        ∀ template, s.substitute? template = t.substitute? template) := by
  refine ⟨⟨fun h => congrFun (get?_eq_of_fingerprint_eq h), fingerprint_eq_of_get?_eq⟩, ?_⟩
  intro h template
  rw [substitute?, substitute?, substitute_congr (get?_eq_of_fingerprint_eq h)]

/-- The values `a` and `b` on two layers: a value is hidden, and the hiding name comes first. -/
def stacked : Source :=
  (ofDict (.ofList [("a", "1"), ("b", "hidden")])).layer (ofDict (.ofList [("b", "${a}")]))

/-- The same values on one layer. -/
def flat : Source := ofDict (.ofList [("a", "1"), ("b", "${a}")])

theorem fingerprint_stacked :
    stacked.names ≠ flat.names ∧ stacked.fingerprint = flat.fingerprint ∧
      (∀ name, stacked.get? name = flat.get? name) ∧
      stacked.substitute? (some "${b}") = some "1" := by
  obtain ⟨hvalues, htexts⟩ := fingerprint_eq_iff stacked flat
  have heq : stacked.fingerprint = flat.fingerprint := by decide +kernel
  have hflat : flat.substitute? (some "${b}") = some "1" := by decide +kernel
  exact ⟨by decide +kernel, heq, hvalues.1 heq, (htexts heq _).trans hflat⟩

/-! ### Layers on layers -/

lemma names_of_isEmpty (h : s.isEmpty) : s.names = [] := List.isEmpty_iff.1 h

lemma names_layer (base overlay : Source) :
    (base.layer overlay).names =
      overlay.names ++ base.names.filter fun n => n ∉ overlay.names := by
  unfold layer
  split_ifs with ho hb
  · simp [names_of_isEmpty ho]
  · simp [names_of_isEmpty hb]
  · rfl

/-- Nothing tells the two sources apart: names with their order, values, snapshot, fingerprint. -/
structure LooksLike (s t : Source) : Prop where
  get? : ∀ name, s.get? name = t.get? name
  names : s.names = t.names
  snapshot : s.snapshot = t.snapshot
  fingerprint : s.fingerprint = t.fingerprint

lemma LooksLike.of_names (hnames : s.names = t.names) (hget : ∀ name, s.get? name = t.get? name) :
    s.LooksLike t where
  get? := hget
  names := hnames
  snapshot := by rw [Source.snapshot, Source.snapshot, hnames, funext hget]
  fingerprint := fingerprint_eq_of_get?_eq hget

lemma names_layer_assoc (a b c : Source) :
    ((a.layer b).layer c).names = (a.layer (b.layer c)).names := by
  -- a name of `a` is left out where `b` or `c` has it; `b` has it also where `c` hides it
  have hhidden : ∀ n ∈ a.names, (decide (n ∉ c.names) && decide (n ∉ b.names)) =
      decide (n ∉ c.names ++ b.names.filter fun n => n ∉ c.names) := by
    intro n _
    by_cases hc : n ∈ c.names <;> simp [hc]
  simp only [names_layer, List.filter_append, List.filter_filter, List.append_assoc,
    List.filter_congr hhidden]

/-- **Layering is a monoid**, as far as sources can be told apart, and a layer has the value of the
overlay where there is one and that of the base otherwise. -/
theorem layer_monoid (a b c : Source) :
    ((a.layer b).layer c).LooksLike (a.layer (b.layer c)) ∧
      (empty.layer a).LooksLike a ∧ (a.layer empty).LooksLike a ∧
      ∀ name, (a.layer b).get? name = (b.get? name).or (a.get? name) := by
  refine ⟨.of_names (names_layer_assoc a b c) fun name => ?_, .of_names ?_ fun name => ?_,
    .of_names ?_ fun name => ?_, get?_layer a b⟩
  · simp only [get?_layer, Option.or_assoc]
  · exact (names_layer empty a).trans (List.append_nil a.names)
  · exact (get?_layer empty a name).trans (Option.or_none)
  · rfl
  · rfl

end BomTable.Source
