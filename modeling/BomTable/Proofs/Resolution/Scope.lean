import BomTable.Proofs.Property.Reference
import BomTable.Proofs.Resolution.Hierarchy
import BomTable.Proofs.Run.Session

/-!
What placeholders stand for along a chain of imports. In the entries of a BOM a name has the value
among the properties of the BOM itself, or that with which the first BOM of the chain is resolved, or
that which the first BOM of the chain declares that declares any.

What is handed down is the value as it is written. A text means the same in an imported BOM where
nothing it refers to is a property of one of the two projects themselves, or without a value in the
importing BOM and declared by the imported one.
-/

namespace BomTable

variable {client : Client} {r : Resolver} {c d : Coordinates} {p s t u : Source}
  {path : List Coordinates} {h h' : Hierarchy}

/-! ### Lookups along a chain -/

lemma Chain.exists_above (hchain : Chain client c p path d u) :
    ∃ above, List.Forall₂ client.Loads path above ∧
      ∀ name, u.get? name = (p.get? name).or (above.findSome? (·.declared? name)) := by
  induction hchain with
  | here => exact ⟨[], .nil, fun name => by rw [List.findSome?_nil, Option.or_none]⟩
  | through hstep _ ih =>
    obtain ⟨h, hload, rfl, -⟩ := imports_iff.1 hstep
    obtain ⟨above, habove, hu⟩ := ih
    refine ⟨h :: above, .cons hload habove, fun name => ?_⟩
    rw [hu, Hierarchy.get?_down, List.findSome?_cons, Option.or_assoc]
    cases h.declared? name <;> rfl

lemma AmountsTo.exists_of_chain {b : Bom} (hb : AmountsTo client c p b)
    (hchain : Chain client c p path d u) : ∃ b, AmountsTo client d u b := by
  induction hchain generalizing b with
  | here => exact ⟨b, hb⟩
  | through hstep _ ih =>
    obtain ⟨h, hload, rfl, hd⟩ := imports_iff.1 hstep
    obtain ⟨boms, cs, -, -, himports⟩ := hb.exists_candidates hload
    exact ih (himports _ hd)

/-- **The value of a name in a BOM that is reached along a chain of imports.** Of the properties that
projects have themselves only those of the BOM are seen. The entries of the BOM are filled in with
just these values. -/
theorem lookup_along_chain (hchain : Chain r.client c p path d u) (hd : r.client.Loads d h) :
    ∃ above, List.Forall₂ r.client.Loads path above ∧
      (∀ name, (h.scope u).get? name =
        (h.builtin? name).or
          ((p.get? name).or ((above ++ [h]).findSome? (·.declared? name)))) ∧
      (∀ name, h.builtin? name = none → p.get? name = none →
        (∀ k ∈ above ++ [h], k.declared? name = none) → (h.scope u).get? name = none) ∧
      ∀ w found, Reachable r w → (r.resolve c p).result w = .ok found →
        ∃ (b : Bom) (boms : Coordinates → Bom) (cs : List Candidate),
          AmountsTo r.client d u b ∧ b.management = Candidate.select cs ∧
          Candidate.ofLevels (fun e => (boms e).management) (h.scope u) 0 h.poms = .ok cs ∧
          ∀ e ∈ h.imported u, AmountsTo r.client e (h.down u) (boms e) := by
  obtain ⟨above, habove, hu⟩ := hchain.exists_above
  have hlookup : ∀ name, (h.scope u).get? name =
      (h.builtin? name).or ((p.get? name).or ((above ++ [h]).findSome? (·.declared? name))) := by
    intro name
    rw [Hierarchy.get?_scope, hu, List.findSome?_append, Option.or_assoc]
    simp
  refine ⟨above, habove, hlookup, fun name hbuiltin hp hnone => ?_, fun w found hw hfound => ?_⟩
  · rw [hlookup, hbuiltin, hp, List.findSome?_eq_none_iff.2 hnone]
    rfl
  · obtain ⟨b, hb⟩ := (Resolver.amountsTo_of_result hw hfound).exists_of_chain hchain
    obtain ⟨boms, cs, hcs, hmanagement, hboms⟩ := hb.exists_candidates hd
    exact ⟨b, boms, cs, hb, hmanagement, hcs, hboms⟩

def Layers.overlay : Source := .ofPairs [("w", some "overlay")]

/-- Five names in an imported BOM: one of its own properties as a project, one of the caller, and one
each that the importing BOM, its parent and the imported BOM declare. -/
theorem lookup_along_layers :
    Chain Layers.repository Layers.outer Layers.overlay [Layers.outer] Layers.inner
        (Layers.above.down Layers.overlay) ∧
      (∀ name, (Layers.below.scope (Layers.above.down Layers.overlay)).get? name =
        (Layers.below.builtin? name).or ((Layers.overlay.get? name).or
          ([Layers.above, Layers.below].findSome? (·.declared? name)))) ∧
      ["project.version", "w", "y", "x", "k"].map
          (Layers.below.scope (Layers.above.down Layers.overlay)).get? =
        [some "2", some "overlay", some "outer", some "parent", some "7"] := by
  have hchain : Chain Layers.repository Layers.outer Layers.overlay [Layers.outer] Layers.inner
      (Layers.above.down Layers.overlay) :=
    .through (Layers.imports_inner Layers.overlay (by decide)) .here
  obtain ⟨above, habove, hlookup, -⟩ :=
    lookup_along_chain (r := ⟨Layers.repository, 0, 50⟩) hchain Layers.loads_inner
  obtain ⟨h, rest, hload, hrest, rfl⟩ := List.forall₂_cons_left_iff.1 habove
  obtain rfl := List.forall₂_nil_left_iff.1 hrest
  obtain rfl := hload.unique Layers.loads_outer
  exact ⟨hchain, hlookup, by decide⟩

/-! ### What is handed down -/

/-- In an imported BOM a name has the value it had, unless it is a property of one of the projects
themselves or was without a value before. -/
lemma Hierarchy.get?_scope_down {name : String} (hbuiltin : h.builtin? name = h'.builtin? name)
    (hnone : (h.scope s).get? name = none → h'.declared? name = none) :
    (h.scope s).get? name = (h'.scope (h.down s)).get? name := by
  rw [get?_scope, get?_scope, get?_down, ← hbuiltin]
  cases hown : h.builtin? name with
  | some v => rfl
  | none =>
    rw [Option.none_or, Option.none_or]
    cases hdown : (s.get? name).or (h.declared? name) with
    | some v => rfl
    | none =>
      rw [get?_scope, hown, hdown] at hnone
      rw [hnone rfl, Option.or_none]

/-- **A simple text means the same in an imported BOM**, unless it leads to a property of one of the
two projects themselves that is not the same for both, or to a name that has no value in the
importing BOM and that the imported one declares. -/
theorem substitute_in_import {template : String} (himports : Imports client c s d t)
    (hc : client.Loads c h) (_hd : client.Loads d h') (hsimple : Placeholder.simple template.toList)
    (hvalues : (h.scope s).SimpleFrom template.toList)
    (hsame : ∀ name, (h.scope s).Reaches template.toList name →
      h.builtin? name = h'.builtin? name ∧
        ((h.scope s).get? name = none → h'.declared? name = none)) :
    (h'.scope t).substitute template = (h.scope s).substitute template := by
  obtain ⟨k, hk, rfl, -⟩ := imports_iff.1 himports
  obtain rfl := hc.unique hk
  refine (Source.substitute_eq_of_agree hsimple hvalues fun name hname => ?_).symm
  exact Hierarchy.get?_scope_down (hsame name hname).1 (hsame name hname).2

/-- The property `l` refers to `y`, which both BOMs declare; what it stands for in the importing BOM
it stands for in the imported one. -/
theorem substitute_in_layers :
    Layers.below.declared? "y" = some "inner" ∧
      (Layers.below.scope (Layers.above.down .empty)).substitute
          (.ofList (Placeholder.forName "l")) =
        (Layers.above.scope .empty).substitute (.ofList (Placeholder.forName "l")) ∧
      (Layers.above.scope .empty).substitute (.ofList (Placeholder.forName "l")) = "outer" := by
  have hplain : (Layers.above.scope .empty).Plain := Source.plain_of_names (by decide +kernel)
  refine ⟨by decide, ?_, by decide +kernel⟩
  refine substitute_in_import (Layers.imports_inner .empty (by decide +kernel)) Layers.loads_outer
    Layers.loads_inner (by decide +kernel) (hplain.simpleFrom _) fun name hname => ?_
  have hmem : name ∈ ["l", "y"] := hname.mem_of_closed (by decide +kernel) (by decide +kernel)
  have hboth : ∀ name ∈ ["l", "y"], Layers.above.builtin? name = Layers.below.builtin? name ∧
      (Layers.above.scope .empty).get? name ≠ none := by decide +kernel
  exact ⟨(hboth name hmem).1, fun hnone => absurd hnone (hboth name hmem).2⟩

/-- Two properties of the importing BOM that mean something else in the imported one: `n` refers to
the version of the project, and `m` to a name that only the imported BOM declares. All values are
simple, and chains of references are short. -/
theorem meaning_changes_in_import :
    Imports Layers.repository Layers.outer .empty Layers.inner (Layers.above.down .empty) ∧
      Layers.repository.Loads Layers.outer Layers.above ∧
      Layers.repository.Loads Layers.inner Layers.below ∧
      (Layers.above.scope .empty).Plain ∧
      (Layers.below.scope (Layers.above.down .empty)).Plain ∧
      (∀ name ∈ ["n", "m"], Layers.above.builtin? name = none ∧
        Layers.below.builtin? name = none ∧ Layers.above.declared? name ≠ none) ∧
      ["n", "m"].map (fun name =>
          (Layers.above.scope .empty).substitute (.ofList (Placeholder.forName name))) =
        ["1", .ofList (Placeholder.forName "k")] ∧
      ["n", "m"].map (fun name => (Layers.below.scope (Layers.above.down .empty)).substitute
          (.ofList (Placeholder.forName name))) =
        ["2", "7"] :=
  ⟨Layers.imports_inner .empty (by decide +kernel), Layers.loads_outer, Layers.loads_inner,
    Source.plain_of_names (by decide +kernel), Source.plain_of_names (by decide +kernel),
    by decide +kernel, by decide +kernel, by decide +kernel⟩

end BomTable
