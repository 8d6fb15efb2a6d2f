import BomTable.Proofs.Resolution.Reached
import BomTable.Proofs.Run.Session

/-!
Properties that bring nothing into the difference between the table of an import with them and the one
without. The two tables are the same, so no entry of one is missing in the other or has another
version there.
-/

namespace BomTable

namespace Ledger

lemma changes_self {b : Bom} (h : (b.management.map Managed.key).Nodup) : changes b b = [] := by
  refine List.filter_eq_nil_iff.2 fun m hm => ?_
  have hfind : b.find? m.key = some m := (Key.lookup_eq_some_iff h).2 ⟨hm, rfl⟩
  rw [hfind]
  simp

/-- **Irrelevant properties pin nothing.** Where dollars stand in placeholders only, and every name
of the merged properties has the value that the BOM's own hierarchy declares or is mentioned by no POM
that the BOM leads to without them, there are no differences to report. -/
theorem diff_of_irrelevant {r : Resolver} {w : World} {i : Import} {current : Source}
    {entries : List Managed} (hw : Reachable r w)
    (hsealed : ∀ pom, Reached r.client i.coordinates .empty pom → ∀ text ∈ pom.texts,
      Placeholder.sealed text.toList = true)
    (hs : ∀ name v, (i.propertiesWith current).get? name = some v →
      Irrelevant r.client i.coordinates name v)
    (h : (diff r i current).result w = .ok entries) : entries = [] := by
  obtain ⟨overridden, default, ho, hd, rfl⟩ : Changed r.client current i entries :=
    diff_spec.value hw.holding h
  have hsame : AmountsTo r.client i.coordinates (i.propertiesWith current) default :=
    hd.of_irrelevant hsealed hs
  obtain rfl : overridden = default := ho.unique hsame
  exact changes_self hd.nodup_keys

end Ledger

/-! ### Three properties for a BOM with a parent and an import -/

namespace Layers

def resolver : Resolver := ⟨repository, 256, 50⟩

/-- An import of the outer BOM, with a value of `n` that is not the declared one. -/
def recorded : Import :=
  ⟨some "platform", outer, .ofPairs [("n", some "1"), ("z", some "9")]⟩

/-- Two properties as the outer BOM declares them. -/
def current : Source := .ofPairs [("n", some "${project.version}"), ("y", some "outer")]

/-- The world in which the import is recorded. -/
def world : World :=
  (World.start 0).afterAll resolver
    [.importBom recorded.requestedBy outer recorded.properties]

lemma mem_of_reached {pom : Pom} (h : Reached repository outer .empty pom) :
    pom ∈ [outerPom, parentPom, innerPom] := by
  have himported : above.imported .empty = [inner] := by decide +kernel
  have hnone : below.imported (above.down .empty) = [] := by decide +kernel
  rcases (reached_iff loads_outer).1 h with h | ⟨d, hd, h⟩
  · exact List.mem_append_left [innerPom] h
  · rw [himported, List.mem_singleton] at hd
    subst hd
    rcases (reached_iff loads_inner).1 h with h | ⟨e, he, -⟩
    · exact List.mem_append_right [outerPom, parentPom] h
    · rw [hnone] at he
      cases he

end Layers

namespace Ledger

/-- The current value of `n`, which an imported entry mentions, is the declared one again; `z` is
mentioned nowhere. -/
theorem diff_in_layers :
    (diff Layers.resolver Layers.recorded Layers.current).result Layers.world = .ok [] ∧
      (Layers.recorded.propertiesWith Layers.current).names = ["n", "y", "z"] := by
  have hw : Reachable Layers.resolver Layers.world := ⟨0, _, rfl⟩
  obtain ⟨entries, h⟩ : ∃ entries,
      (diff Layers.resolver Layers.recorded Layers.current).result Layers.world = .ok entries :=
    Run.exists_of_succeeds (by decide +kernel)
  have hsealed : ∀ pom ∈ [Layers.outerPom, Layers.parentPom, Layers.innerPom],
      ∀ text ∈ pom.texts, Placeholder.sealed text.toList = true := by decide +kernel
  have hnames : ∀ name ∈ (Layers.recorded.propertiesWith Layers.current).names,
      Layers.above.declared? name = (Layers.recorded.propertiesWith Layers.current).get? name ∨
        ∀ pom ∈ [Layers.outerPom, Layers.parentPom, Layers.innerPom], ∀ text ∈ pom.texts,
          name ∉ Placeholder.mentioned text.toList := by decide +kernel
  have hnil : entries = [] := by
    refine diff_of_irrelevant (i := Layers.recorded) hw
      (fun pom hpom => hsealed pom (Layers.mem_of_reached hpom)) (fun name v hv => ?_) h
    rcases hnames name (Source.mem_names_of_get? hv) with hdeclared | hnone
    · exact .inl ⟨Layers.above, Layers.loads_outer, hdeclared.trans hv⟩
    · exact .inr fun pom hpom => hnone pom (Layers.mem_of_reached hpom)
  exact ⟨hnil ▸ h, by decide +kernel⟩

/-- Without the current properties the value of the import is seen. -/
example : (diff Layers.resolver Layers.recorded .empty).result Layers.world =
    .ok [⟨⟨"x", "n", some "1"⟩, none, [], none, none⟩] :=
  Run.result_of_gives (by decide +kernel)

end Ledger

end BomTable
