import BomTable.Proofs.Run.Session

/-!
What caching does to resolutions. It never changes what a resolution gives, and it makes none fail
that succeeds without it. It does let resolutions succeed that fail without it: a kept BOM is taken
before the limit on nesting and the check for cycles are looked at. The exact condition under which
they succeed without it as well is that everything imported from the BOM on fits.
-/

namespace BomTable

variable {r r' : Resolver} {w w' : World} {c : Coordinates} {s s' : Source}
  {found found' : Resolution}

namespace Resolver

/-- **Caching never changes a result.** Resolutions of the same BOM give the same, whatever has been
asked of the two resolvers before, as long as the properties have the same values; and one that
succeeds with caching switched off succeeds with it. -/
theorem resolve_eq_of_reachable (hclient : r'.client = r.client) (hw : Reachable r w)
    (hw' : Reachable r' w') (hs : ∀ name, s.get? name = s'.get? name) :
    (∀ found found', (r.resolve c s).result w = .ok found →
      (r'.resolve c s').result w' = .ok found' → found.bom = found'.bom) ∧
    (r'.cacheSize ≤ 0 → r'.maxDepth = r.maxDepth → ∀ found',
      (r'.resolve c s').result w' = .ok found' →
        ∃ found, (r.resolve c s).result w = .ok found ∧ found.bom = found'.bom) := by
  have hs : s.get? = s'.get? := funext hs
  have hamounts' : ∀ found', (r'.resolve c s').result w' = .ok found' →
      AmountsTo r.client c s found'.bom := fun found' h' => by
    have := amountsTo_of_result hw' h'
    rw [hclient] at this
    exact this.congr hs.symm
  constructor
  · intro found found' h h'
    exact (amountsTo_of_result hw h).unique (hamounts' found' h')
  · intro hsize hdepth found' h'
    obtain ⟨hpos, hfits⟩ := fits_of_result hw' hsize h'
    rw [hclient, hdepth] at hfits
    rw [hdepth] at hpos
    exact exists_result_of_fits hw hpos (hamounts' found' h') (hfits.congr hs.symm)

/-! ### A BOM that imports another -/

namespace Nested

def outer : Coordinates := ⟨"g", "a", some "1"⟩

def inner : Coordinates := ⟨"g", "b", some "1"⟩

def client : Client :=
  .memory [
    ("g:a:1", Content.octets (.text ("<project><groupId>g</groupId><artifactId>a</artifactId>" ++
      "<dependencyManagement><dependencies><dependency><groupId>g</groupId>" ++
      "<artifactId>b</artifactId><version>1</version><type>pom</type><scope>import</scope>" ++
      "</dependency></dependencies></dependencyManagement></project>"))),
    ("g:b:1", Content.octets
      (.text "<project><groupId>g</groupId><artifactId>b</artifactId></project>"))]

/-- The world in which the inner BOM has been resolved. -/
def warm (r : Resolver) : World := (World.start 0).afterAll r [.resolve inner .empty]

end Nested

/-- A BOM resolved without caching is the same with it, when the BOM it imports is kept. -/
theorem resolve_eq_nested :
    ∃ found found', (Resolver.resolve ⟨Nested.client, 0, 2⟩ Nested.outer .empty).result
        (World.start 0) = .ok found' ∧
      (Resolver.resolve ⟨Nested.client, 256, 2⟩ Nested.outer .empty).result
        (Nested.warm ⟨Nested.client, 256, 2⟩) = .ok found ∧ found.bom = found'.bom := by
  obtain ⟨found', h'⟩ : ∃ found', (Resolver.resolve ⟨Nested.client, 0, 2⟩ Nested.outer
      .empty).result (World.start 0) = .ok found' := Run.exists_of_succeeds (by decide +kernel)
  have hw : Reachable ⟨Nested.client, 256, 2⟩ (Nested.warm ⟨Nested.client, 256, 2⟩) :=
    ⟨0, _, rfl⟩
  have hw' : Reachable ⟨Nested.client, 0, 2⟩ (World.start 0) := ⟨0, [], rfl⟩
  have hs : ∀ name, Source.empty.get? name = Source.empty.get? name := fun _ => rfl
  have hboth := resolve_eq_of_reachable (c := Nested.outer) (by rfl) hw hw' hs
  obtain ⟨found, h, heq⟩ := hboth.2 (Int.le_refl 0) rfl found' h'
  exact ⟨found, found', h', h, heq⟩

/-! ### Without caching -/

/-- The resolver with caching switched off. -/
def uncached (r : Resolver) : Resolver := { r with cacheSize := 0 }

/-- **What succeeds with caching succeeds without it just where everything fits.** Otherwise the
limit on nesting or the check for cycles ends it. -/
theorem resolve_uncached_iff_fits (hdepth : 0 < r.maxDepth) (hw : Reachable r w)
    (h : (r.resolve c s).result w = .ok found) (hw' : Reachable r.uncached w') :
    ((∃ found', (r.uncached.resolve c s).result w' = .ok found' ∧ found'.bom = found.bom) ↔
      Fits r.client r.maxDepth.toNat [] c s) ∧
    ∀ f, (r.uncached.resolve c s).result w' = .error f → f.IsNesting := by
  have hamounts : AmountsTo r.client c s found.bom := amountsTo_of_result hw h
  refine ⟨⟨?_, ?_⟩, ?_⟩
  · rintro ⟨found', h', -⟩
    exact (fits_of_result hw' (Int.le_refl 0) h').2
  · exact exists_result_of_fits hw' hdepth hamounts
  · intro f hf
    obtain ⟨-, -, hwrong⟩ := resolve_spec (r.uncached.invariant_holding w'.ledger) hdepth
      (c := c) (s := s) (fun _ _ => trivial) w' hw'.holding
    exact (hwrong f hf _ hamounts).1

/-- With room for one BOM, a BOM that imports another is resolved when that is kept, and it does not
fit. -/
theorem resolve_nested_without_room :
    ∃ found, (Resolver.resolve ⟨Nested.client, 256, 1⟩ Nested.outer .empty).result
        (Nested.warm ⟨Nested.client, 256, 1⟩) = .ok found ∧
      ¬ Fits Nested.client 1 [] Nested.outer .empty ∧
      ∀ found', (Resolver.resolve ⟨Nested.client, 0, 1⟩ Nested.outer .empty).result
        (World.start 0) ≠ .ok found' := by
  obtain ⟨found, h⟩ : ∃ found, (Resolver.resolve ⟨Nested.client, 256, 1⟩ Nested.outer
      .empty).result (Nested.warm ⟨Nested.client, 256, 1⟩) = .ok found :=
    Run.exists_of_succeeds (by decide +kernel)
  have hfails : ∀ found', (Resolver.resolve ⟨Nested.client, 0, 1⟩ Nested.outer .empty).result
      (World.start 0) ≠ .ok found' := Run.ne_ok_of_not_succeeds (by decide +kernel)
  have hw : Reachable ⟨Nested.client, 256, 1⟩ (Nested.warm ⟨Nested.client, 256, 1⟩) :=
    ⟨0, _, rfl⟩
  have hw' : Reachable (Resolver.uncached ⟨Nested.client, 256, 1⟩) (World.start 0) :=
    ⟨0, [], rfl⟩
  have hiff := (resolve_uncached_iff_fits (by decide) hw h hw').1
  refine ⟨found, h, fun hfits => ?_, hfails⟩
  obtain ⟨found', h', -⟩ := hiff.2 hfits
  exact hfails found' h'

end Resolver

end BomTable
