import BomTable.Proofs.Ledger.History
import BomTable.Proofs.Resolution.Reached
import BomTable.Proofs.Resolution.Tables

/-!
Blank versions and classifiers in the table of a ledger. Documents write none and none are recorded,
but putting properties into an entry may leave nothing but white space of its version, and nothing at
all of its classifier. An entry with an empty classifier then stands beside one without a classifier,
under a key of its own.
-/

namespace BomTable

/-- The version is not blank, and neither is the classifier if there is one. -/
structure Managed.Legible (m : Managed) : Prop where
  version : ∃ v, m.version = some v ∧ Text.isBlank v = false
  classifier : ∀ v, m.classifier = some v → Text.isBlank v = false

/-- The entry is written in a document with a version or a classifier that the properties leave
blank, and one of these properties is blank, which was given along with the BOM or is declared by a
POM that the BOM leads to. -/
def Managed.LeftBlank (client : Client) (c : Coordinates) (s : Source) (m : Managed) : Prop :=
  ∃ raw properties text, WrittenFor client c s raw properties ∧ raw.Says properties m ∧
    (raw.version = some text ∨ raw.classifier = some text) ∧
    Text.isBlank text = false ∧ Text.isBlank (properties.substitute text) = true ∧
    ∃ name v, properties.get? name = some v ∧ Text.isBlank v = true ∧ Supplied client c s name v

variable {client : Client} {c : Coordinates} {s properties : Source} {raw : RawEntry} {m : Managed}

/-! ### Tables of BOMs -/

lemma RawEntry.Says.exists_blank (hentry : raw.Says properties m) {v : String}
    (hversion : m.version = some v) (h : ¬ m.Legible) :
    ∃ text, (raw.version = some text ∨ raw.classifier = some text) ∧
      Text.isBlank (properties.substitute text) = true := by
  by_contra hnone
  have hfilled : ∀ text, raw.version = some text ∨ raw.classifier = some text →
      Text.isBlank (properties.substitute text) = false := fun text htext => by
    rw [← Bool.not_eq_true]
    exact fun hblank => hnone ⟨text, htext, hblank⟩
  refine h ⟨⟨v, hversion, ?_⟩, fun v hv => ?_⟩
  · obtain ⟨text, htext, rfl⟩ := Option.map_eq_some_iff.1 (hentry.version.symm.trans hversion)
    exact hfilled text (.inl htext)
  · obtain ⟨text, htext, rfl⟩ := Option.map_eq_some_iff.1 (hentry.classifier.symm.trans hv)
    exact hfilled text (.inr htext)

lemma WrittenFor.filled (h : WrittenFor client c s raw properties) {text : String}
    (htext : raw.version = some text ∨ raw.classifier = some text) :
    Text.isBlank text = false := by
  obtain ⟨path, d, t, hierarchy, -, hloads, -, pom, hpom, hraw⟩ := h
  obtain ⟨n, hn⟩ := hloads.exists_node hpom hraw
  obtain ⟨hversion, hclassifier⟩ := Pom.filled_versions_of_managedEntry hn
  exact htext.elim (hversion text) (hclassifier text)

lemma WrittenFor.supplied (h : WrittenFor client c s raw properties) {name v : String}
    (hv : properties.get? name = some v) (hblank : Text.isBlank v = true) :
    Supplied client c s name v := by
  obtain ⟨path, d, t, hierarchy, hchain, hloads, rfl, -⟩ := h
  refine (hchain.builtin_or_supplied hloads hv).resolve_left fun hbuiltin => ?_
  rw [hloads.filled_builtin hbuiltin] at hblank
  cases hblank

/-- **An entry of a table has a version and no blanks, unless blank properties left it so.** -/
theorem AmountsTo.legible_or_leftBlank {b : Bom} (h : AmountsTo client c s b)
    (hm : m ∈ b.management) : m.Legible ∨ m.LeftBlank client c s := by
  by_cases hlegible : m.Legible
  · exact .inl hlegible
  · obtain ⟨raw, properties, hwritten, -, hentry⟩ := (h.resolved hm).written
    obtain ⟨v, hversion, -⟩ := (h.resolved hm).versioned
    obtain ⟨text, htext, hblank⟩ := hentry.exists_blank hversion hlegible
    have hfilled : Text.isBlank text = false := hwritten.filled htext
    obtain ⟨name, value, hvalue, hvalueBlank⟩ := Source.exists_blank_of_substitute hfilled hblank
    exact .inr ⟨raw, properties, text, hwritten, hentry, htext, hfilled, hblank, name, value, hvalue,
      hvalueBlank, hwritten.supplied hvalue hvalueBlank⟩

/-! ### The table of a ledger -/

namespace Ledger

variable {r : Resolver} {w : World} {current : Source} {found : List Managed}

lemma legible_of_request {requestedBy version : Option String} {group artifact : String}
    {exclusions : List ExclusionEntry} {c : Coordinates} {o : Override}
    (h : request requestedBy group artifact version exclusions = .ok (c, o)) :
    o.toManaged.Legible := by
  obtain ⟨-, v, given, -, hfilled, -, rfl⟩ := request_eq_ok.1 h
  exact ⟨⟨v, rfl, hfilled⟩, fun v hv => nomatch hv⟩

theorem legible_of_reachable (hw : Reachable r w) {o : Override} (ho : o ∈ w.ledger.overrides) :
    o.toManaged.Legible := by
  obtain ⟨now, requests, rfl⟩ := hw
  rw [World.ledger_of_session] at ho
  obtain ⟨_, _, _, _, _, _, hrequest⟩ := exists_request_of_mem_ofSession ho
  exact legible_of_request hrequest

/-- **Blank versions and classifiers come out of blank properties only.** Every entry of the table
has a version that is not empty. An entry whose version or classifier is blank comes from an import,
where it is written with texts that are not blank, and some property that was put in is blank. -/
theorem effectiveManagement_legible (hw : Reachable r w)
    (h : (effectiveManagement r current).result w = .ok found) :
    (∀ m ∈ found, ∃ v, m.version = some v ∧ v ≠ "") ∧
    ∀ m ∈ found, m.Legible ∨ ∃ i ∈ w.ledger.imports,
      m ∈ overriddenTable r.client current i ∧
        m.LeftBlank r.client i.coordinates (i.propertiesWith current) := by
  obtain ⟨entries, hentries, hfound⟩ := Run.exists_of_result_bind h
  obtain rfl : entries.map (·.managed) = found := Except.ok.inj hfound
  obtain ⟨htable, himports⟩ := effectiveEntries_spec.value hw.holding hentries
  have horigin : ∀ m ∈ entries.map (·.managed),
      (∃ o ∈ w.ledger.overrides, m = o.toManaged) ∨
        ∃ i ∈ w.ledger.imports, m ∈ overriddenTable r.client current i := by
    intro m hm
    obtain ⟨e, he, rfl⟩ := List.mem_map.1 hm
    rcases mem_table (htable ▸ he) with ⟨o, place, ho, rfl⟩ | ⟨i, place, hi, hmem, -⟩
    · exact .inl ⟨o, List.mem_of_getElem? ho, rfl⟩
    · exact .inr ⟨i, List.mem_of_getElem? hi, hmem⟩
  constructor
  · intro m hm
    rcases horigin m hm with ⟨o, ho, rfl⟩ | ⟨i, hi, hmem⟩
    · obtain ⟨v, hv, hfilled⟩ := (legible_of_reachable hw ho).version
      refine ⟨v, hv, fun hempty => ?_⟩
      rw [hempty] at hfilled
      cases hfilled
    · obtain ⟨b, hb⟩ := himports i hi
      rw [overriddenTable, hb.table_eq] at hmem
      exact (hb.resolved hmem).versioned
  · intro m hm
    rcases horigin m hm with ⟨o, ho, rfl⟩ | ⟨i, hi, hmem⟩
    · exact .inl (legible_of_reachable hw ho)
    · obtain ⟨b, hb⟩ := himports i hi
      have hmem' : m ∈ b.management := hb.table_eq ▸ hmem
      exact (hb.legible_or_leftBlank hmem').imp id fun hblank => ⟨i, hi, hmem, hblank⟩

/-! ### A BOM with an empty property -/

namespace Emptied

def bom : Coordinates := ⟨"g", "a", some "1"⟩

/-- One entry has a classifier that is empty, another a version that the caller gives. -/
def resolver : Resolver :=
  ⟨.memory [("g:a:1", Content.octets (.text ("<project><groupId>g</groupId>" ++
      "<artifactId>a</artifactId><version>1</version><properties><e></e></properties>" ++
      "<dependencyManagement><dependencies><dependency><groupId>x</groupId>" ++
      "<artifactId>y</artifactId><version>1</version></dependency><dependency>" ++
      "<groupId>x</groupId><artifactId>y</artifactId><version>2</version>" ++
      "<classifier>${e}</classifier></dependency><dependency><groupId>x</groupId>" ++
      "<artifactId>z</artifactId><version>${s}</version></dependency></dependencies>" ++
      "</dependencyManagement></project>")))], 256, 50⟩

def world : World := (World.start 0).afterAll resolver [.importBom none bom .empty]

/-- The caller has a version of white space. -/
def spaced : Source := .ofPairs [("s", some " ")]

def entry (artifact version : String) (classifier : Option String) : Managed :=
  ⟨⟨"x", artifact, some version⟩, classifier, [], none, none⟩

end Emptied

/-- An empty classifier and a blank version stand in the table; both come from the import. -/
theorem effectiveManagement_emptied :
    (effectiveManagement Emptied.resolver Emptied.spaced).result Emptied.world =
      .ok [Emptied.entry "y" "1" none, Emptied.entry "y" "2" (some ""),
        Emptied.entry "z" " " none] ∧
    ∀ m ∈ [Emptied.entry "y" "2" (some ""), Emptied.entry "z" " " none],
      ¬ m.Legible ∧ ∃ i ∈ Emptied.world.ledger.imports,
        m.LeftBlank Emptied.resolver.client i.coordinates (i.propertiesWith Emptied.spaced) := by
  have hw : Reachable Emptied.resolver Emptied.world := ⟨0, _, rfl⟩
  have h : (effectiveManagement Emptied.resolver Emptied.spaced).result Emptied.world =
      .ok [Emptied.entry "y" "1" none, Emptied.entry "y" "2" (some ""),
        Emptied.entry "z" " " none] := Run.result_of_gives (by decide +kernel)
  obtain ⟨-, horigin⟩ := effectiveManagement_legible hw h
  have hclassifier : ¬ (Emptied.entry "y" "2" (some "")).Legible := fun hlegible =>
    absurd (hlegible.classifier "" rfl) (by decide)
  have hversion : ¬ (Emptied.entry "z" " " none).Legible := fun hlegible => by
    obtain ⟨v, hv, hfilled⟩ := hlegible.version
    obtain rfl : " " = v := Option.some.inj hv
    exact absurd hfilled (by decide)
  have hblank : ∀ m ∈ [Emptied.entry "y" "2" (some ""), Emptied.entry "z" " " none],
      ¬ m.Legible := by simp [hclassifier, hversion]
  refine ⟨h, fun m hm => ⟨hblank m hm, ?_⟩⟩
  obtain ⟨i, hi, -, hleft⟩ :=
    (horigin m (List.mem_cons_of_mem _ hm)).resolve_left (hblank m hm)
  exact ⟨i, hi, hleft⟩

end Ledger

end BomTable
