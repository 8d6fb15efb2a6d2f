import BomTable.Proofs.Publish.Pinning
import BomTable.Publish.Configuration

/-!
The entries that a POM is extended by, found from what the imported BOMs amount to, and the POM that
comes out of it. A POM is extended by the very entries that the plan finds, or not at all.
-/

namespace BomTable.Publish

variable {r : Resolver} {l : Ledger} {current : Source} {declared : List Declared}
  {action : BomAction} {w : World} {root root' : Xml.Node}

/-- What is written for the imports into a POM, where the table is known. -/
def FromBoms (client : Client) (l : Ledger) (current : Source) (declared : List Declared)
    (table : List Effective) : BomAction → List Managed → Prop
  | .copying, entries => entries = copiedEntries declared table
  | .importing, entries => ∃ overrides, Ledger.Overridden client l current overrides ∧
      entries = importedEntries declared table overrides

/-- What is written into a POM. -/
def Written (client : Client) (l : Ledger) (current : Source) (declared : List Declared)
    (action : BomAction) (entries : List Managed) : Prop :=
  ∃ fromBoms,
    FromBoms client l current declared (l.table (Ledger.overriddenTable client current)) action
      fromBoms ∧
    entries = fromBoms ++ ownEntries declared (l.table (Ledger.overriddenTable client current)) ∧
    ∀ i ∈ l.imports, ∃ b, AmountsTo client i.coordinates (i.propertiesWith current) b

lemma managedEntries_spec :
    Run.Spec (r.Holding l) (managedEntries r action current declared)
      (Written r.client l current declared action) fun _ => True := by
  refine Ledger.effectiveEntries_spec.bind fun table htable => ?_
  obtain ⟨rfl, himports⟩ := htable
  cases action with
  | copying => exact Run.Spec.pure ⟨_, rfl, rfl, himports⟩
  | importing =>
    exact Ledger.propertyOverrides_spec.bind fun overrides h =>
      Run.Spec.pure ⟨_, ⟨overrides, h, entries_ofImports Ledger.nodup_keys_table h⟩, rfl, himports⟩

namespace Plan

variable {p : Plan}

lemma extend_spec :
    Run.Spec (p.resolver.Holding l) (p.extend action root) (fun _ => True) fun _ => True := by
  have hI := p.resolver.invariant_holding l
  refine (Run.Spec.timed hI.logged managedEntries_spec).bind fun entries _ => ?_
  refine Ledger.current_spec.bind fun l' _ => ?_
  exact hI.log.map fun _ _ => trivial

lemma configure_spec {pom : Option Xml.Node} :
    Run.Spec (p.resolver.Holding l) (p.configure pom) (fun _ => True) fun _ => True := by
  have hI := p.resolver.invariant_holding l
  unfold configure
  cases p.settings with
  | foreign typeName => exact Run.Spec.fail hI.logged trivial
  | customization c =>
    dsimp only
    split_ifs with hc
    · cases pom with
      | none => exact Run.Spec.fail hI.logged trivial
      | some root =>
        dsimp only
        split_ifs
        · exact extend_spec.map fun _ _ => trivial
        · exact Run.Spec.fail hI.logged trivial
    · exact hI.log.map fun _ _ => trivial

lemma preview_spec :
    Run.Spec (p.resolver.Holding l) (p.preview root) (fun _ => True) fun _ => True := by
  unfold preview
  cases p.settings with
  | customization c => exact managedEntries_spec.mono (fun _ _ => trivial) fun _ h => h
  | foreign typeName =>
    exact Ledger.effectiveEntries_spec.bind fun _ _ => Run.Spec.throw trivial

lemma extend_eq_ok : (p.extend action root).result w = .ok root' ↔
    ∃ entries, (p.entries action root).result w = .ok entries ∧
      root' = addEntries root entries := by
  constructor
  · intro h
    obtain ⟨entries, hentries, h⟩ := Run.exists_of_result_bind h
    obtain ⟨l, -, h⟩ := Run.exists_of_result_bind h
    obtain ⟨-, -, h⟩ := Run.exists_of_result_bind h
    exact ⟨entries, hentries, by simpa using h.symm⟩
  · rintro ⟨entries, hentries, rfl⟩
    rw [extend, Run.result_bind_ok ((Run.result_timed _ _ _ _ _).trans hentries)]
    rfl

theorem configure_eq_ok (hsettings : p.settings = .customization ⟨true, action⟩) :
    (p.configure (some root)).result w = .ok (some root') ↔
      root.localName = "project" ∧ ∃ entries, (p.entries action root).result w = .ok entries ∧
        root' = addEntries root entries := by
  rw [configure, hsettings]
  dsimp only
  rw [if_pos rfl, ← extend_eq_ok]
  split_ifs with hproject
  · constructor
    · intro h
      obtain ⟨root'', hroot, h⟩ := Run.exists_of_result_bind h
      obtain rfl : root'' = root' := by simpa using h
      exact ⟨hproject, hroot⟩
    · rintro ⟨-, h⟩
      rw [Run.result_bind_ok h, Run.result_pure]
  · exact ⟨fun h => (nomatch h), fun h => absurd h.1 hproject⟩

end Plan

end BomTable.Publish
