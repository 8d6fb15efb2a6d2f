import BomTable.Proofs.Publish.Expansions
import BomTable.Proofs.Publish.Published
import BomTable.Proofs.Run.Session

/-!
Imported BOMs copied entry by entry. The published POM, resolved as a BOM, has the very table that
was written, and nothing else has to be fetched for it.
-/

namespace BomTable.Publish

open Xml

variable {client : Client} {entries : List Managed} {pub : Coordinates} {pom : Pom}

lemma candidatesOf_proper {tables : Coordinates → List Managed} (h : ∀ m ∈ entries, m.Proper) :
    entries.flatMap (candidatesOf tables) = entries.map fun m => ⟨0, m⟩ := by
  rw [List.map_eq_flatMap]
  refine List.flatMap_congr fun m hm => ?_
  rw [candidatesOf, (h m hm).notImport]
  rfl

lemma Reads.isLeaf (h : Reads client pub entries pom) (hproper : ∀ m ∈ entries, m.Proper) :
    client.isLeaf pub = true := by
  simp only [Client.isLeaf, h.document, h.parent, h.management, Option.isNone_none, Bool.true_and,
    List.all_map, List.all_eq_true, Function.comp, Managed.raw_isImport]
  intro m hm
  rw [(hproper m hm).notImport, Bool.not_false]

variable {p : Plan} {r : Resolver} {w w' : World} {root root' : Node}

/-- **A copied table is published exactly.** -/
theorem resolve_copied (hsettings : p.settings = .customization ⟨true, .copying⟩)
    (hw : Reachable p.resolver w) (halone : StandsAlone root)
    (hconfigure : (p.configure (some root)).result w = .ok (some root'))
    (hentries : (p.entries .copying root).result w = .ok entries)
    (hclean : ∀ m ∈ entries, m.Clean) (hw' : Reachable r w') (hdepth : 0 < r.maxDepth)
    (hserves : Serves r.client pub root') :
    ∃ found table, (r.resolve pub .empty).result w' = .ok found ∧
      found.bom.management = entries ∧ (entries.map Managed.key).Nodup ∧
      (Ledger.effectiveEntries p.resolver p.current).result w = .ok table ∧
      entries.Perm (table.flatMap fun e =>
        withExpansions (p.declared.getD (Pom.Reading.dependencies root)) table e.managed) ∧
      ∃ events, ((r.resolve pub .empty).after w').journal = w'.journal ++ events ∧
        Resolver.Asked r.client (fun d => d = pub) events := by
  obtain ⟨hproject, entries', hentries', rfl⟩ :=
    (Plan.configure_eq_ok hsettings).1 hconfigure
  obtain rfl : entries = entries' := Except.ok.inj (hentries.symm.trans hentries')
  obtain ⟨table, htable, -⟩ := Run.exists_of_result_bind hentries
  obtain ⟨rfl, himports⟩ := Ledger.effectiveEntries_spec.value hw.holding htable
  obtain ⟨fromBoms, hfrom, hes, -⟩ := managedEntries_spec.value hw.holding hentries
  have hperm := hes ▸ hfrom ▸ copied_perm
  have hnodup := (hperm.map Managed.key).nodup_iff.2
    (nodup_keys_withExpansions Ledger.nodup_keys_table)
  have hproper : ∀ m ∈ entries, m.Proper := by
    intro m hm
    obtain ⟨e, he, hm⟩ := List.mem_flatMap.1 (hperm.mem_iff.1 hm)
    exact withExpansions_proper (Ledger.table_proper himports he) hm
  have hwritable : ∀ m ∈ entries, Writable m := fun m hm => ⟨hclean m hm, .inl (hproper m hm)⟩
  obtain ⟨pom, hreads⟩ := exists_reads hproject halone hclean hserves
  obtain ⟨b, hb, hmanagement⟩ := hreads.exists_amountsTo hwritable fun m hm himport => by
    rw [(hproper m hm).notImport] at himport
    cases himport
  have hleaf := hreads.isLeaf hproper
  have hfits : Fits r.client r.maxDepth.toNat [] pub .empty := fits_of_isLeaf hleaf (by omega)
  obtain ⟨found, hfound, rfl⟩ := Resolver.exists_result_of_fits hw' hdepth hb hfits
  obtain ⟨events, hjournal, hasked⟩ := Resolver.resolve_asks hw'.settled.sound
  refine ⟨found, _, hfound, ?_, hnodup, htable, hperm, events, hjournal, fun e he => ?_⟩
  · have hkeys : ((entries.map fun m => (⟨0, m⟩ : Candidate)).map (·.entry.key)).Nodup := by
      rwa [List.map_map]
    rw [hmanagement, candidatesOf_proper hproper, Candidate.select_of_nodup hkeys, List.map_map]
    exact List.map_id _
  · exact (hasked e he).imp id fun ⟨d, hd, he⟩ => ⟨d, eq_of_isLeaf hleaf hd, he⟩

/-! ### A project with an imported BOM and a version of its own -/

namespace Copied

def repository : Client :=
  .memory [("g:b:1", Content.octets (.text ("<project><groupId>g</groupId>" ++
    "<artifactId>b</artifactId><dependencyManagement><dependencies><dependency>" ++
    "<groupId>x</groupId><artifactId>y</artifactId><version>1</version></dependency>" ++
    "</dependencies></dependencyManagement></project>")))]

def plan : Plan := ⟨⟨repository, 256, 2⟩, .customization ⟨true, .copying⟩, .empty, none⟩

def project : Node :=
  .element ⟨none, "project"⟩ [] [.leaf ⟨none, "groupId"⟩ "g", .leaf ⟨none, "artifactId"⟩ "p"]

def world : World :=
  (World.start 0).afterAll plan.resolver
    [.importBom none ⟨"g", "b", some "1"⟩ .empty, .addVersion none "x" "z" (some "3") []]

def written : List Managed :=
  [⟨⟨"x", "y", some "1"⟩, none, [], none, none⟩, ⟨⟨"x", "z", some "3"⟩, none, [], none, none⟩]

def consumer : Client :=
  .memory [("g:p:1",
    Content.octets (.text (Pom.serialize Registry.start (addEntries project written) "").2))]

end Copied

theorem resolve_copied_entries :
    ∃ found, (Resolver.resolve ⟨Copied.consumer, 256, 1⟩ ⟨"g", "p", some "1"⟩ .empty).result
      (World.start 0) = .ok found ∧ found.bom.management = Copied.written := by
  have hentries : (Copied.plan.entries .copying Copied.project).result Copied.world =
      .ok Copied.written := Run.result_of_gives (by decide +kernel)
  have hclean : ∀ m ∈ Copied.written, m.Clean := by decide
  have halone : StandsAlone Copied.project := ⟨by decide, by decide, rfl, rfl, rfl⟩
  have hconfigure : (Copied.plan.configure (some Copied.project)).result Copied.world =
      .ok (some (addEntries Copied.project Copied.written)) :=
    (Plan.configure_eq_ok rfl).2 ⟨rfl, _, hentries, rfl⟩
  have hserves : Serves Copied.consumer ⟨"g", "p", some "1"⟩
      (addEntries Copied.project Copied.written) :=
    serves_of_readsBack Registry.start rfl (by decide +kernel)
  have hw : Reachable Copied.plan.resolver Copied.world := ⟨0, _, rfl⟩
  have hw' : Reachable ⟨Copied.consumer, 256, 1⟩ (World.start 0) := ⟨0, [], rfl⟩
  obtain ⟨found, -, hfound, hmanagement, -⟩ := resolve_copied rfl hw halone hconfigure hentries
    hclean hw' (by decide) hserves
  exact ⟨found, hfound, hmanagement⟩

end BomTable.Publish
