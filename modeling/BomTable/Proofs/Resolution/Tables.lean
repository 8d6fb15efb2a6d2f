import BomTable.Proofs.Resolution.Entries
import BomTable.Proofs.Resolution.Hierarchy
import BomTable.Proofs.Run.Session

/-!
What the entries of a resolved table are. Each is written in a document that is reached along a chain
of imports, or in one of its parents, and says what is written there with the placeholders filled in;
its exclusions are listed once each, in the order in which they are first written. No key stands
twice, so an entry is found under its key.
-/

namespace BomTable

/-! ### What is written -/

/-- The managed entry is what the written one says when the properties are put in. -/
structure RawEntry.Says (properties : Source) (raw : RawEntry) (m : Managed) : Prop where
  group : m.group = properties.substitute raw.group
  artifact : m.artifact = properties.substitute raw.artifact
  version : m.version = properties.substitute? raw.version
  classifier : m.classifier = properties.substitute? raw.classifier
  scope : m.scope = raw.scope
  packaging : m.packaging = raw.packaging
  exclusions : Firsts (raw.exclusions.map fun e =>
    ⟨properties.substitute e.1, properties.substitute e.2⟩) m.exclusions

lemma exclusions_eq {properties : Source} {written : List (String × String)}
    {es : List Exclusion}
    (h : written.mapM (fun e =>
      Exclusion.make (properties.substitute e.1) (properties.substitute e.2)) = .ok es) :
    es = written.map fun e => ⟨properties.substitute e.1, properties.substitute e.2⟩ := by
  have hsame : List.Forall₂ (· = ·) es
      (written.map fun e => ⟨properties.substitute e.1, properties.substitute e.2⟩) := by
    refine List.forall₂_map_right_iff.2 ((mapM_eq_ok.1 h).flip.imp fun e x he => ?_)
    exact (Owner.make_eq_ok.1 he).2.2
  rwa [List.forall₂_eq_eq_eq] at hsame

lemma says_of_managedEntry {properties : Source} {raw : RawEntry} {v : String} {m : Managed}
    (hv : Text.nonempty? (properties.substitute? raw.version) = some v)
    (h : Resolver.managedEntry properties raw v = .ok m) : raw.Says properties m := by
  obtain ⟨es, c, hes, hc, rfl⟩ := managedEntry_eq_ok.1 h
  obtain ⟨-, -, rfl⟩ := Owner.make_eq_ok.1 hc
  refine ⟨rfl, rfl, ?_, rfl, rfl, rfl, ?_⟩
  · exact (eq_of_nonempty? hv).1.symm
  · rw [← exclusions_eq hes]
    exact firsts_eraseDups es

/-- A document that a BOM leads to along a chain of imports, or a parent of one, writes the entry,
and the properties are those that it is filled in with. -/
def WrittenFor (client : Client) (c : Coordinates) (s : Source) (raw : RawEntry)
    (properties : Source) : Prop :=
  ∃ path d t h, Chain client c s path d t ∧ client.Loads d h ∧ properties = h.scope t ∧
    ∃ pom ∈ h.poms, raw ∈ pom.management

lemma WrittenFor.of_imports {client : Client} {c d : Coordinates} {s t properties : Source}
    {raw : RawEntry} (h : Imports client c s d t) (hraw : WrittenFor client d t raw properties) :
    WrittenFor client c s raw properties := by
  obtain ⟨path, e, u, hierarchy, hchain, hrest⟩ := hraw
  exact ⟨c :: path, e, u, hierarchy, .through h hchain, hrest⟩

theorem AmountsTo.exists_written {client : Client} {c : Coordinates} {s : Source} {b : Bom}
    (h : AmountsTo client c s b) {m : Managed} (hm : m ∈ b.management) :
    ∃ raw properties v, WrittenFor client c s raw properties ∧ raw.isImport = false ∧
      Text.nonempty? (properties.substitute? raw.version) = some v ∧
      Resolver.managedEntry properties raw v = .ok m := by
  -- What is selected stands in the table of an import or is written in the documents of the BOM.
  induction h generalizing m with
  | @mk c s pom parents cs boms hpom hparents hcs himports ih =>
    obtain ⟨candidate, hcandidate, rfl⟩ := Candidate.exists_of_mem_select hm
    rcases Candidate.mem_ofLevels hcs hcandidate with
      ⟨d, hd, -, hmem⟩ | ⟨p, hp, raw, hraw, hdirect, v, hv, hentry⟩
    · obtain ⟨raw, properties, v, hwritten, hentry⟩ := ih d hd hmem
      have hstep : Imports client c s d (Resolver.handedDown pom parents s) :=
        ⟨pom, parents, hpom, hparents, rfl, hd⟩
      exact ⟨raw, properties, v, hwritten.of_imports hstep, hentry⟩
    · exact ⟨raw, _, v, ⟨[], c, s, ⟨pom, parents⟩, .here, ⟨hpom, hparents⟩, rfl, p, hp, hraw⟩,
        hdirect, hv, hentry⟩

/-! ### Resolved tables -/

/-- An entry as it stands in a resolved table. -/
structure Managed.Resolved (client : Client) (c : Coordinates) (s : Source) (m : Managed) :
    Prop where
  notImport : m.isImport = false
  versioned : ∃ v, m.version = some v ∧ v ≠ ""
  exclusions : m.exclusions.Nodup
  written : ∃ raw properties, WrittenFor client c s raw properties ∧ raw.isImport = false ∧
    raw.Says properties m

lemma AmountsTo.resolved {client : Client} {c : Coordinates} {s : Source} {b : Bom}
    (h : AmountsTo client c s b) {m : Managed} (hm : m ∈ b.management) :
    m.Resolved client c s := by
  obtain ⟨raw, properties, v, hwritten, hdirect, hv, hentry⟩ := h.exists_written hm
  have hproper : m.Proper := managedEntry_proper hdirect hentry
  have hsays : raw.Says properties m := says_of_managedEntry hv hentry
  have hversion := eq_of_nonempty? hv
  exact ⟨hproper.notImport, ⟨v, hsays.version.trans hversion.1, hversion.2⟩, hproper.exclusions,
    raw, properties, hwritten, hdirect, hsays⟩

/-- **Resolved tables are well-formed.** No key stands twice, every entry is what a document says
and no import, with a version and with each exclusion once, and what is found under a key is the
entry that has it. -/
theorem resolve_wellFormed {r : Resolver} {w : World} {c : Coordinates} {s : Source}
    {found : Resolution} (hw : Reachable r w) (hfound : (r.resolve c s).result w = .ok found) :
    (found.bom.management.map Managed.key).Nodup ∧
      (∀ m ∈ found.bom.management, m.Resolved r.client c s) ∧
      ∀ k m, found.bom.find? k = some m ↔ m ∈ found.bom.management ∧ m.key = k := by
  have hamounts : AmountsTo r.client c s found.bom := Resolver.amountsTo_of_result hw hfound
  exact ⟨hamounts.nodup_keys, fun m hm => hamounts.resolved hm,
    fun k m => Key.lookup_eq_some_iff hamounts.nodup_keys⟩

/-! ### Keys that are one after filling in -/

namespace Folded

def outer : Coordinates := ⟨"g", "a", some "1"⟩

/-- The parent writes `x:${k}` and one of its exclusions with a placeholder; what it stands for is
written in the imported BOM and in another exclusion. -/
def documents : List (String × String) :=
  [("g:p:1", "<project><groupId>g</groupId><artifactId>p</artifactId><version>1</version>" ++
      "<properties><k>y</k></properties><dependencyManagement><dependencies><dependency>" ++
      "<groupId>x</groupId><artifactId>${k}</artifactId><version>1</version><exclusions>" ++
      "<exclusion><groupId>e</groupId><artifactId>${k}</artifactId></exclusion>" ++
      "<exclusion><groupId>e</groupId><artifactId>z</artifactId></exclusion>" ++
      "<exclusion><groupId>e</groupId><artifactId>y</artifactId></exclusion></exclusions>" ++
      "</dependency></dependencies></dependencyManagement></project>"),
    ("g:a:1", "<project><parent><groupId>g</groupId><artifactId>p</artifactId>" ++
      "<version>1</version></parent><artifactId>a</artifactId><dependencyManagement>" ++
      "<dependencies><dependency><groupId>g</groupId><artifactId>b</artifactId>" ++
      "<version>2</version><type>pom</type><scope>import</scope></dependency>" ++
      Layers.managed "w" "" ++ "</dependencies></dependencyManagement></project>"),
    ("g:b:2", "<project><groupId>g</groupId><artifactId>b</artifactId><version>2</version>" ++
      "<dependencyManagement><dependencies>" ++ Layers.managed "y" "2" ++
      Layers.managed "v" "3" ++ "</dependencies></dependencyManagement></project>")]

def resolver : Resolver :=
  ⟨.memory (documents.map fun d => (d.1, Content.octets (.text d.2))), 256, 50⟩

/-- The table is kept already. -/
def world : World := (World.start 0).afterAll resolver [.resolve outer .empty]

def entry (artifact version : String) (exclusions : List Exclusion) : Managed :=
  ⟨⟨"x", artifact, some version⟩, none, exclusions, none, none⟩

def resolution : Resolution :=
  ⟨1, ⟨outer, [entry "y" "1" [⟨"e", "y"⟩, ⟨"e", "z"⟩], entry "v" "3" []], ∅,
    .ofList [("k", "y")]⟩⟩

end Folded

theorem resolve_folded :
    (Folded.resolver.resolve Folded.outer .empty).result Folded.world = .ok Folded.resolution ∧
      (Folded.resolution.bom.management.map Managed.key).Nodup ∧
      (∀ m ∈ Folded.resolution.bom.management,
        m.Resolved Folded.resolver.client Folded.outer .empty) ∧
      ∀ k m, Folded.resolution.bom.find? k = some m ↔
        m ∈ Folded.resolution.bom.management ∧ m.key = k := by
  have hfound : (Folded.resolver.resolve Folded.outer .empty).result Folded.world =
      .ok Folded.resolution := Run.result_of_gives (by decide +kernel)
  have hw : Reachable Folded.resolver Folded.world := ⟨0, _, rfl⟩
  exact ⟨hfound, resolve_wellFormed hw hfound⟩

end BomTable
