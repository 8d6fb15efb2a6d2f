import BomTable.Proofs.Property.Blank
import BomTable.Proofs.Resolution.Nesting

/-!
A POM with its parents, and the values that names have in its entries. The properties of the project
itself come first, then those that the BOM is resolved with, then those that the nearest POM of the
hierarchy declares; imports are resolved with all but the first.
-/

namespace BomTable

/-- A POM with its parents, nearest first. -/
structure Hierarchy where
  pom : Pom
  parents : List Pom
deriving DecidableEq

namespace Hierarchy

variable (h : Hierarchy) (s : Source) (name : String)

def poms : List Pom := h.pom :: h.parents

/-- The value that the nearest of the POMs declares. -/
def declared? : Option String := h.poms.findSome? fun p => p.properties.get? name

/-- The value among the properties of the project itself. -/
def builtin? : Option String := h.pom.builtinProperties.get? name

/-- What the imports are resolved with. -/
def down : Source := Resolver.handedDown h.pom h.parents s

/-- What the entries are filled in with. -/
def scope : Source := Resolver.effective h.pom (h.down s)

lemma get?_inheritedProperties (parents : List Pom) :
    (Resolver.inheritedProperties parents).get? name =
      parents.findSome? fun p => p.properties.get? name := by
  induction parents with
  | nil => rfl
  | cons p rest ih =>
    rw [Resolver.inheritedProperties] at ih ⊢
    rw [List.foldr_cons, Dict.get?_update, ih, List.findSome?_cons]
    cases p.properties.get? name <;> rfl

lemma get?_down : (h.down s).get? name = (s.get? name).or (h.declared? name) := by
  rw [down, Resolver.handedDown, Source.get?_layer, Source.get?_ofDict, Dict.get?_update,
    get?_inheritedProperties, declared?, poms, List.findSome?_cons]
  cases h.pom.properties.get? name <;> rfl

theorem get?_scope :
    (h.scope s).get? name = (h.builtin? name).or ((s.get? name).or (h.declared? name)) := by
  rw [scope, Resolver.effective, Source.get?_layer, Source.get?_ofDict, get?_down, builtin?]

/-- The BOMs that the POMs import. -/
def imported : List Coordinates :=
  h.poms.flatMap fun pom => (pom.management.filter RawEntry.isImport).filterMap fun raw =>
    (Resolver.importCoordinates (h.scope s) pom raw).toOption

variable {h s}

lemma mem_imported {d : Coordinates} : d ∈ h.imported s ↔ Imported (h.scope s) h.poms d := by
  have hok : ∀ x : Except Error Coordinates, x.toOption = some d ↔ x = .ok d := fun x => by
    cases x <;> simp [Except.toOption]
  simp only [imported, List.mem_flatMap, List.mem_filterMap, List.mem_filter, hok, Imported,
    and_assoc]

end Hierarchy

variable {client : Client} {c d : Coordinates} {s t : Source} {h h' : Hierarchy} {limit : Nat}

/-- A repository has this hierarchy for some coordinates. -/
structure Client.Loads (client : Client) (c : Coordinates) (h : Hierarchy) : Prop where
  document : client.document c = .ok h.pom
  lineage : client.Lineage h.pom h.parents

lemma Client.Loads.unique (hc : client.Loads c h) (hc' : client.Loads c h') : h = h' := by
  obtain ⟨pom, parents⟩ := h
  obtain ⟨pom', parents'⟩ := h'
  obtain rfl : pom = pom' := Except.ok.inj (hc.document.symm.trans hc'.document)
  obtain rfl : parents = parents' := hc.lineage.unique hc'.lineage
  rfl

lemma Client.exists_read_of_document {client : Client} {c : Coordinates} {pom : Pom}
    (h : client.document c = .ok pom) : ∃ content, Pom.read (some c) content = .ok pom := by
  unfold document at h
  split at h
  · cases h
  · cases h
  · exact ⟨_, h⟩

lemma Client.exists_node_of_document {client : Client} {c : Coordinates} {pom : Pom}
    (h : client.document c = .ok pom) {raw : RawEntry} (hraw : raw ∈ pom.management) :
    ∃ n, Pom.Reading.managedEntry n = some raw := by
  obtain ⟨content, hread⟩ := exists_read_of_document h
  exact Pom.exists_node_of_read hread hraw

lemma Client.Lineage.exists_node {client : Client} {pom p : Pom} {parents : List Pom}
    (h : client.Lineage pom parents) (hp : p ∈ parents) {raw : RawEntry}
    (hraw : raw ∈ p.management) : ∃ n, Pom.Reading.managedEntry n = some raw := by
  induction h with
  | top => cases hp
  | child _ hnext _ ih =>
    rcases List.mem_cons.1 hp with rfl | hp
    · exact exists_node_of_document hnext hraw
    · exact ih hp

lemma Client.Loads.exists_node (hc : client.Loads c h) {pom : Pom} (hpom : pom ∈ h.poms)
    {raw : RawEntry} (hraw : raw ∈ pom.management) :
    ∃ n, Pom.Reading.managedEntry n = some raw := by
  rcases List.mem_cons.1 hpom with rfl | hpom
  · exact exists_node_of_document hc.document hraw
  · exact hc.lineage.exists_node hpom hraw

lemma Client.Loads.filled_builtin (hc : client.Loads c h) {name v : String}
    (hv : h.builtin? name = some v) : Text.isBlank v = false := by
  obtain ⟨content, hread⟩ := exists_read_of_document hc.document
  exact Pom.filled_of_builtinProperties hread hv

lemma imports_iff :
    Imports client c s d t ↔ ∃ h, client.Loads c h ∧ t = h.down s ∧ d ∈ h.imported s := by
  simp only [Hierarchy.mem_imported]
  constructor
  · rintro ⟨pom, parents, hpom, hparents, rfl, hd⟩
    exact ⟨⟨pom, parents⟩, ⟨hpom, hparents⟩, rfl, hd⟩
  · rintro ⟨h, hc, rfl, hd⟩
    exact ⟨h.pom, h.parents, hc.document, hc.lineage, rfl, hd⟩

lemma AmountsTo.exists_candidates {b : Bom} (hb : AmountsTo client c s b)
    (hc : client.Loads c h) :
    ∃ (boms : Coordinates → Bom) (cs : List Candidate),
      Candidate.ofLevels (fun d => (boms d).management) (h.scope s) 0 h.poms = .ok cs ∧
      b.management = Candidate.select cs ∧
      ∀ d ∈ h.imported s, AmountsTo client d (h.down s) (boms d) := by
  obtain ⟨pom, parents⟩ := h
  cases hb with
  | mk boms hpom hparents hcs himports =>
    obtain rfl : _ = pom := Except.ok.inj (hpom.symm.trans hc.document)
    obtain rfl : _ = parents := hparents.unique hc.lineage
    refine ⟨boms, _, hcs, rfl, fun d hd => ?_⟩
    have himported := Hierarchy.mem_imported.1 hd
    exact himports d himported

/-! ### Hierarchies of a bounded height -/

/-- The parents of a POM, as far as there are no more than so many. -/
def Client.lineage? (client : Client) : Nat → Pom → Option (List Pom)
  | limit, pom =>
    match pom.parent with
    | none => some []
    | some p =>
      match limit with
      | 0 => none
      | limit + 1 =>
        match client.document p with
        | .ok next => (lineage? client limit next).map (next :: ·)
        | .error _ => none

def Client.hierarchy? (client : Client) (limit : Nat) (c : Coordinates) : Option Hierarchy :=
  match client.document c with
  | .ok pom => (client.lineage? limit pom).map (⟨pom, ·⟩)
  | .error _ => none

lemma Client.lineage_of_lineage? {pom : Pom} {parents : List Pom}
    (hp : client.lineage? limit pom = some parents) : client.Lineage pom parents := by
  fun_induction client.lineage? limit pom generalizing parents with
  | case1 limit pom hnone =>
    obtain rfl := Option.some.inj hp
    exact .top hnone
  | case2 => cases hp
  | case3 pom p hparent limit next hnext ih =>
    obtain ⟨rest, hrest, rfl⟩ := Option.map_eq_some_iff.1 hp
    exact .child hparent hnext (ih hrest)
  | case4 => cases hp

lemma Client.loads_of_hierarchy? (hc : client.hierarchy? limit c = some h) :
    client.Loads c h := by
  unfold hierarchy? at hc
  cases hpom : client.document c with
  | error f => rw [hpom] at hc; cases hc
  | ok pom =>
    rw [hpom] at hc
    obtain ⟨parents, hparents, rfl⟩ := Option.map_eq_some_iff.1 hc
    exact ⟨hpom, lineage_of_lineage? hparents⟩

/-! ### A small repository -/

namespace Layers

def outer : Coordinates := ⟨"g", "a", some "1"⟩

def inner : Coordinates := ⟨"g", "b", some "2"⟩

def managed (artifact version : String) : String :=
  "<dependency><groupId>x</groupId><artifactId>" ++ artifact ++ "</artifactId><version>" ++
    version ++ "</version></dependency>"

def documents : List (String × String) :=
  [("g:p:1", "<project><groupId>g</groupId><artifactId>p</artifactId><version>1</version>" ++
      "<properties><x>parent</x><y>parent</y></properties><dependencyManagement><dependencies>" ++
      managed "y" "5" ++ managed "q" "1" ++
      "</dependencies></dependencyManagement></project>"),
    ("g:a:1", "<project><parent><groupId>g</groupId><artifactId>p</artifactId>" ++
      "<version>1</version></parent><artifactId>a</artifactId><properties><y>outer</y>" ++
      "<w>outer</w><l>${y}</l><m>${k}</m><n>${project.version}</n></properties>" ++
      "<dependencyManagement><dependencies><dependency><groupId>g</groupId>" ++
      "<artifactId>b</artifactId><version>2</version><type>pom</type><scope>import</scope>" ++
      "</dependency>" ++ managed "q" "2" ++ "</dependencies></dependencyManagement></project>"),
    ("g:b:2", "<project><groupId>g</groupId><artifactId>b</artifactId><version>2</version>" ++
      "<properties><k>7</k><y>inner</y></properties><dependencyManagement><dependencies>" ++
      managed "n" "${n}" ++ managed "m" "${m}" ++ managed "y" "9" ++
      "</dependencies></dependencyManagement></project>")]

/-- A BOM that has a parent and imports a BOM. -/
def repository : Client := .memory (documents.map fun d => (d.1, Content.octets (.text d.2)))

def entry (artifact version : String) : RawEntry :=
  ⟨"x", artifact, some version, none, none, none, []⟩

def parentPom : Pom where
  coordinates := ⟨"g", "p", some "1"⟩
  parent := none
  packaging := "jar"
  properties := .ofList [("x", "parent"), ("y", "parent")]
  management := [entry "y" "5", entry "q" "1"]
  dependencies := []

def outerPom : Pom where
  coordinates := outer
  parent := some ⟨"g", "p", some "1"⟩
  packaging := "jar"
  properties := .ofList [("y", "outer"), ("w", "outer"), ("l", "${y}"), ("m", "${k}"),
    ("n", "${project.version}")]
  management := [⟨"g", "b", some "2", none, some "import", some "pom", []⟩, entry "q" "2"]
  dependencies := []

def innerPom : Pom where
  coordinates := inner
  parent := none
  packaging := "jar"
  properties := .ofList [("k", "7"), ("y", "inner")]
  management := [entry "n" "${n}", entry "m" "${m}", entry "y" "9"]
  dependencies := []

def above : Hierarchy := ⟨outerPom, [parentPom]⟩

def below : Hierarchy := ⟨innerPom, []⟩

lemma loads_outer : repository.Loads outer above := by
  have h : repository.hierarchy? 1 outer = some above := by decide +kernel
  exact Client.loads_of_hierarchy? h

lemma loads_inner : repository.Loads inner below := by
  have h : repository.hierarchy? 0 inner = some below := by decide +kernel
  exact Client.loads_of_hierarchy? h

lemma imports_inner (s : Source) (h : inner ∈ above.imported s) :
    Imports repository outer s inner (above.down s) :=
  imports_iff.2 ⟨above, loads_outer, rfl, h⟩

end Layers

end BomTable
