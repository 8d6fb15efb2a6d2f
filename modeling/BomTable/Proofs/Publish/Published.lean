import BomTable.Pom.Printing
import BomTable.Proofs.Publish.Extended

/-!
The POM that is published, read back as a BOM. What is read is the list of entries that were
written, so the candidates of the BOM are the entries themselves, with the tables of the imported
BOMs in the places of the imports.
-/

namespace BomTable.Publish

open Xml Node

variable {root : Node} {entries : List Managed}

/-- A POM with coordinates of its own, but no parent, no properties and no managed dependencies. -/
structure StandsAlone (root : Node) : Prop where
  group : root.childText "groupId" ≠ none
  artifact : root.childText "artifactId" ≠ none
  parent : root.findChild "parent" = none
  properties : root.findChild "properties" = none
  management : root.findChild "dependencyManagement" = none

/-! ### The extended POM -/

/-- **The managed dependencies of the extended POM are the entries.** -/
theorem ofNode_addEntries (hproject : root.localName = "project") (h : StandsAlone root)
    (hclean : ∀ m ∈ entries, m.Clean) :
    ∃ pom, Pom.ofNode (addEntries root entries) = .ok pom ∧ pom.parent = none ∧
      pom.properties = ∅ ∧ pom.management = entries.map Managed.raw := by
  obtain ⟨group, hgroup⟩ := Option.ne_none_iff_exists'.1 h.group
  obtain ⟨artifact, hartifact⟩ := Option.ne_none_iff_exists'.1 h.artifact
  have hparent : Pom.Reading.parent root = none := by
    rw [Pom.Reading.parent, h.parent]
    rfl
  have hproperties : Pom.Reading.properties root = ∅ := by
    rw [Pom.Reading.properties, h.properties]
  have hmanagement : Pom.Reading.management root = [] := by
    rw [Pom.Reading.management, Xml.Node.findPath_management, h.management]
    rfl
  have hcoordinates : Pom.Reading.coordinates root none =
      .ok ⟨group, artifact, root.childText "version"⟩ := by
    simp only [Pom.Reading.coordinates, hgroup, hartifact, Option.map_none, Option.bind_none]
    cases root.childText "version" <;> rfl
  have hraw : entries.map Managed.reread = entries.map Managed.raw :=
    List.map_congr_left fun m hm => (hclean m hm).reread_eq
  have hextends := extends_addEntries hproject fun m hm => (hclean m hm).filled
  rw [hextends.ofNode_eq, Pom.ofNode, if_pos hproject, hparent, hproperties, hmanagement, hraw]
  dsimp only
  rw [hcoordinates]
  exact ⟨_, rfl, rfl, rfl, rfl⟩

/-! ### The published POM as a BOM -/

/-- A repository has a POM as it is written out, and the text is read as the POM. -/
def Serves (client : Client) (c : Coordinates) (root : Node) : Prop :=
  ∃ registry tree,
    (client.search c).result =
      .ok (some (Content.octets (.text (Pom.serialize registry root "").2))) ∧
    (Content.bytes (Content.octets (.text (Pom.serialize registry root "").2))).node false =
      .ok tree ∧
    Pom.ofNode tree = Pom.ofNode root

variable {client : Client} {pub d : Coordinates} {pom : Pom} {s : Source}

lemma Serves.document_eq (h : Serves client pub root) (hpom : Pom.ofNode root = .ok pom) :
    client.document pub = .ok pom := by
  obtain ⟨registry, tree, hsearch, hnode, htree⟩ := h
  simp only [Client.document, hsearch, Pom.read, hnode, htree, hpom]

/-- The text of a POM is read as the POM. -/
def readsBack (registry : Registry) (root : Node) : Bool :=
  match (Content.bytes (Content.octets (.text (Pom.serialize registry root "").2))).node false with
  | .error _ => false
  | .ok tree =>
    match Pom.ofNode tree, Pom.ofNode root with
    | .ok pom, .ok pom' => pom = pom'
    | _, _ => false

lemma serves_of_readsBack (registry : Registry)
    (hsearch : (client.search pub).result =
      .ok (some (Content.octets (.text (Pom.serialize registry root "").2))))
    (h : readsBack registry root = true) : Serves client pub root := by
  unfold readsBack at h
  split at h
  · cases h
  · rename_i tree hnode
    refine ⟨registry, tree, hsearch, hnode, ?_⟩
    split at h
    · rename_i pom pom' htree hroot
      rw [htree, hroot, of_decide_eq_true h]
    · cases h

/-- An entry that can be written and read back: a proper one, or the import of a BOM. -/
structure Writable (m : Managed) : Prop where
  clean : m.Clean
  kind : m.Proper ∨ ∃ c, m = .importOf c ∧ c.version ≠ none

/-- The candidates for an entry that is read back. -/
def candidatesOf (tables : Coordinates → List Managed) (m : Managed) : List Candidate :=
  if m.isImport then (tables m.coordinates).map fun n => ⟨Candidate.importedRank, n⟩ else [⟨0, m⟩]

lemma isImport_importOf (c : Coordinates) : (Managed.importOf c).isImport = true := by
  simp [Managed.isImport, Managed.importOf, Managed.make]

lemma ofEntry_of_writable {tables : Coordinates → List Managed} {m : Managed} (h : Writable m) :
    Candidate.ofEntry tables s 0 pom m.raw = .ok (candidatesOf tables m) := by
  rcases h.kind with hproper | ⟨c, rfl, hversion⟩
  · rw [ofEntry_raw h.clean hproper, candidatesOf, hproper.notImport]
    rfl
  · rw [ofEntry_importOf h.clean hversion, candidatesOf, isImport_importOf]
    rfl

lemma ofLevels_of_writable {tables : Coordinates → List Managed} (h : ∀ m ∈ entries, Writable m)
    (hpom : pom.management = entries.map Managed.raw) :
    Candidate.ofLevels tables s 0 [pom] = .ok (entries.flatMap (candidatesOf tables)) := by
  have hmap : (entries.map Managed.raw).mapM (Candidate.ofEntry tables s 0 pom) =
      .ok (entries.map (candidatesOf tables)) := by
    rw [mapM_eq_ok, List.forall₂_map_left_iff, List.forall₂_map_right_iff, List.forall₂_same]
    exact fun m hm => ofEntry_of_writable (h m hm)
  rw [Candidate.ofLevels, Candidate.ofPom, hpom, hmap, List.flatMap_def]
  rfl

lemma exists_entry_of_imported (h : ∀ m ∈ entries, Writable m)
    (hpom : pom.management = entries.map Managed.raw) (hd : Imported s [pom] d) :
    ∃ m ∈ entries, m.isImport = true ∧ m.coordinates = d := by
  obtain ⟨p, hp, raw, hraw, himport, hd⟩ := hd
  obtain rfl := List.mem_singleton.1 hp
  rw [hpom] at hraw
  obtain ⟨m, hm, rfl⟩ := List.mem_map.1 hraw
  rw [Managed.raw_isImport] at himport
  refine ⟨m, hm, himport, ?_⟩
  rcases (h m hm).kind with hproper | ⟨c, rfl, hversion⟩
  · rw [hproper.notImport] at himport
    cases himport
  · rw [importCoordinates_raw (h _ hm).clean hversion] at hd
    exact Except.ok.inj hd

/-- What is read of an extended POM. -/
structure Reads (client : Client) (c : Coordinates) (entries : List Managed) (pom : Pom) :
    Prop where
  document : client.document c = .ok pom
  parent : pom.parent = none
  properties : pom.properties = ∅
  management : pom.management = entries.map Managed.raw

lemma exists_reads (hproject : root.localName = "project") (h : StandsAlone root)
    (hclean : ∀ m ∈ entries, m.Clean) (hserves : Serves client pub (addEntries root entries)) :
    ∃ pom, Reads client pub entries pom := by
  obtain ⟨pom, hpom, hparent, hproperties, hmanagement⟩ := ofNode_addEntries hproject h hclean
  exact ⟨pom, hserves.document_eq hpom, hparent, hproperties, hmanagement⟩

lemma Reads.handedDown_eq (h : Reads client pub entries pom) :
    Resolver.handedDown pom [] .empty = .empty := by
  rw [Resolver.handedDown, h.properties]
  rfl

theorem Reads.exists_amountsTo (h : Reads client pub entries pom)
    (hwritable : ∀ m ∈ entries, Writable m)
    (himports : ∀ m ∈ entries, m.isImport = true →
      ∃ b, AmountsTo client m.coordinates .empty b) :
    ∃ b, AmountsTo client pub .empty b ∧ b.management =
      Candidate.select (entries.flatMap (candidatesOf fun d => client.table d .empty)) := by
  refine ⟨_, AmountsTo.of_tables h.document (.top h.parent)
    (ofLevels_of_writable hwritable h.management) fun d hd => ?_, ?_⟩
  · obtain ⟨m, hm, himport, rfl⟩ := exists_entry_of_imported hwritable h.management hd
    rw [h.handedDown_eq]
    exact himports m hm himport
  · rw [h.handedDown_eq]

end BomTable.Publish
