import BomTable.Proofs.Property.Reference
import BomTable.Proofs.Resolution.Hierarchy

/-!
The POMs that a BOM leads to along its imports, and the names in their texts. Where dollars stand in
placeholders only, a table is fixed by the values of those names. What is handed down counts, not what
the BOM is resolved with: a property with the value that the BOM's own hierarchy declares anyway makes
no difference, and neither does one that no POM on the way mentions.
-/

namespace BomTable

variable {client : Client} {c d : Coordinates} {s t : Source} {h : Hierarchy} {pom : Pom}
  {names : String → Prop} {text : String}

/-! ### Texts over some names -/

/-- Dollars stand in placeholders only, and these are for some names only. -/
structure Text.Over (names : String → Prop) (text : String) : Prop where
  sealed : Placeholder.sealed text.toList = true
  mentions : ∀ name ∈ Placeholder.mentioned text.toList, names name

namespace Source

/-- All values are texts over some names. -/
def Over (s : Source) (names : String → Prop) : Prop :=
  ∀ name v, s.get? name = some v → Text.Over names v

/-- Two sources have the same values for some names. -/
def AgreesFor (s t : Source) (names : String → Prop) : Prop :=
  ∀ name, names name → s.get? name = t.get? name

lemma Over.names_of_reaches (hs : s.Over names) (htext : Text.Over names text) {name : String}
    (hname : s.Reaches text.toList name) : names name := by
  induction hname with
  | mentions hname => exact htext.mentions _ hname
  | through _ hv hname => exact (hs _ _ hv).mentions _ hname

lemma substitute_eq_of_over (hs : s.Over names) (hst : s.AgreesFor t names)
    (htext : Text.Over names text) : s.substitute text = t.substitute text :=
  substitute_eq_of_sealed htext.sealed (fun name v _ hv => (hs name v hv).sealed)
    fun name hname => hst name (hs.names_of_reaches htext hname)

end Source

/-! ### The texts of a POM -/

/-- The texts that a table is made of: those of the entries, and the values that the POM declares or
has itself as a project. -/
def Pom.texts (pom : Pom) : List String :=
  pom.management.flatMap RawEntry.texts ++
    (pom.properties.entries ++ pom.builtinProperties.entries).map (·.2)

lemma Pom.texts_of_entry {raw : RawEntry} (hraw : raw ∈ pom.management) (h : text ∈ raw.texts) :
    text ∈ pom.texts :=
  List.mem_append_left _ (List.mem_flatMap.2 ⟨raw, hraw, h⟩)

lemma Pom.texts_of_property {name v : String} (h : pom.properties.get? name = some v) :
    v ∈ pom.texts :=
  List.mem_append_right _ (List.mem_map.2
    ⟨_, List.mem_append_left _ (Dict.mem_of_get? h), rfl⟩)

lemma Pom.texts_of_builtin {name v : String} (h : pom.builtinProperties.get? name = some v) :
    v ∈ pom.texts :=
  List.mem_append_right _ (List.mem_map.2
    ⟨_, List.mem_append_right _ (Dict.mem_of_get? h), rfl⟩)

namespace Hierarchy

lemma given_or_declared {name v : String} (hv : (h.down s).get? name = some v) :
    s.get? name = some v ∨ ∃ pom ∈ h.poms, pom.properties.get? name = some v := by
  rw [get?_down, Option.or_eq_some_iff] at hv
  exact hv.imp id fun hdeclared => List.exists_of_findSome?_eq_some hdeclared.2

section

variable (hpoms : ∀ pom ∈ h.poms, ∀ text ∈ pom.texts, Text.Over names text)
include hpoms

lemma over_down (hs : s.Over names) : (h.down s).Over names := by
  intro name v hv
  rcases given_or_declared hv with hv | ⟨pom, hpom, hv⟩
  · exact hs name v hv
  · exact hpoms pom hpom v (Pom.texts_of_property hv)

lemma over_scope (hs : s.Over names) : (h.scope s).Over names := by
  intro name v hv
  rw [get?_scope, ← get?_down, Option.or_eq_some_iff] at hv
  rcases hv with hv | ⟨-, hv⟩
  · exact hpoms h.pom List.mem_cons_self v (Pom.texts_of_builtin hv)
  · exact over_down hpoms hs name v hv

end

lemma agreesFor_down (hst : s.AgreesFor t names) : (h.down s).AgreesFor (h.down t) names :=
  fun name hname => by rw [get?_down, get?_down, hst name hname]

lemma agreesFor_scope (hst : (h.down s).AgreesFor (h.down t) names) :
    (h.scope s).AgreesFor (h.scope t) names :=
  fun name hname => by rw [get?_scope, get?_scope, ← get?_down, ← get?_down, hst name hname]

end Hierarchy

/-! ### What a BOM leads to -/

/-- A POM that a BOM leads to: that of a BOM at the end of a chain of imports, or a parent of it. -/
def Reached (client : Client) (c : Coordinates) (s : Source) (pom : Pom) : Prop :=
  ∃ path d t h, Chain client c s path d t ∧ client.Loads d h ∧ pom ∈ h.poms

lemma Reached.of_loads (hc : client.Loads c h) (hpom : pom ∈ h.poms) : Reached client c s pom :=
  ⟨[], c, s, h, .here, hc, hpom⟩

lemma Reached.of_imports (hd : Imports client c s d t) (hpom : Reached client d t pom) :
    Reached client c s pom := by
  obtain ⟨path, e, u, h, hchain, hrest⟩ := hpom
  exact ⟨c :: path, e, u, h, .through hd hchain, hrest⟩

/-- A POM is one of the BOM's own hierarchy, or an imported BOM leads to it. -/
lemma reached_iff (hc : client.Loads c h) :
    Reached client c s pom ↔
      pom ∈ h.poms ∨ ∃ d ∈ h.imported s, Reached client d (h.down s) pom := by
  constructor
  · rintro ⟨path, d, t, h', hchain, hd, hpom⟩
    cases hchain with
    | here => exact .inl (hc.unique hd ▸ hpom)
    | through himports hrest =>
      obtain ⟨k, hk, rfl, hmem⟩ := imports_iff.1 himports
      obtain rfl := hc.unique hk
      exact .inr ⟨_, hmem, _, d, t, h', hrest, hd, hpom⟩
  · rintro (hpom | ⟨d, hd, hpom⟩)
    · exact .of_loads hc hpom
    · exact .of_imports (imports_iff.2 ⟨h, hc, rfl, hd⟩) hpom

/-- A value is given along with a BOM, or declared by a POM that the BOM leads to. -/
def Supplied (client : Client) (c : Coordinates) (s : Source) (name v : String) : Prop :=
  s.get? name = some v ∨ ∃ pom, Reached client c s pom ∧ pom.properties.get? name = some v

lemma supplied_of_down (hc : client.Loads c h) {name v : String}
    (hv : (h.down s).get? name = some v) : Supplied client c s name v :=
  (Hierarchy.given_or_declared hv).imp id fun ⟨pom, hpom, hv⟩ => ⟨pom, .of_loads hc hpom, hv⟩

lemma Supplied.of_imports {name v : String} (hd : Imports client c s d t)
    (hv : Supplied client d t name v) : Supplied client c s name v := by
  rcases hv with hv | ⟨pom, hpom, hv⟩
  · obtain ⟨h, hc, rfl, -⟩ := imports_iff.1 hd
    exact supplied_of_down hc hv
  · exact .inr ⟨pom, hpom.of_imports hd, hv⟩

lemma Chain.supplied {path : List Coordinates} (hchain : Chain client c s path d t)
    {name v : String} (hv : Supplied client d t name v) : Supplied client c s name v := by
  induction hchain with
  | here => exact hv
  | through himports _ ih => exact .of_imports himports (ih hv)

theorem Chain.builtin_or_supplied {path : List Coordinates} (hchain : Chain client c s path d t)
    (hd : client.Loads d h) {name v : String} (hv : (h.scope t).get? name = some v) :
    h.builtin? name = some v ∨ Supplied client c s name v := by
  rw [Hierarchy.get?_scope, ← Hierarchy.get?_down, Option.or_eq_some_iff] at hv
  exact hv.imp id fun hdown => hchain.supplied (supplied_of_down hd hdown.2)

/-- **Only the names that are mentioned count.** Where all texts of the POMs that a BOM leads to are
over some names, the BOM amounts to the same with other properties, if those that are handed down
have the same values for these names. -/
theorem AmountsTo.of_agreesFor {b : Bom} (hb : AmountsTo client c s b) (hs : s.Over names)
    (hpoms : ∀ pom, Reached client c s pom → ∀ text ∈ pom.texts, Text.Over names text)
    (hst : ∀ h, client.Loads c h → (h.down s).AgreesFor (h.down t) names) :
    AmountsTo client c t b := by
  -- From the first BOM on both sources are handed down, so that the imports agree on all names.
  induction hb generalizing t with
  | @mk c s pom parents cs boms hpom hparents hcs himports ih =>
    let h : Hierarchy := ⟨pom, parents⟩
    have hc : client.Loads c h := ⟨hpom, hparents⟩
    have hown : ∀ p ∈ h.poms, ∀ text ∈ p.texts, Text.Over names text :=
      fun p hp => hpoms p (.of_loads hc hp)
    have hscope : (h.scope s).AgreesFor (h.scope t) names := h.agreesFor_scope (hst h hc)
    have halike : ∀ p ∈ h.poms, ∀ raw ∈ p.management, raw.FilledAlike (h.scope s) (h.scope t) :=
      fun p hp raw hraw text htext => Source.substitute_eq_of_over (h.over_scope hown hs) hscope
        (hown p hp text (Pom.texts_of_entry hraw htext))
    have hcs' : Candidate.ofLevels (fun d => (boms d).management) (h.scope t) 0 h.poms =
        .ok cs := by
      rw [← Candidate.ofLevels_congr_source halike]
      exact hcs
    refine .mk boms hpom hparents hcs' fun d hd => ?_
    have hd : Imported (h.scope s) h.poms d := (imported_congr halike).2 hd
    have hstep : Imports client c s d (h.down s) := ⟨pom, parents, hpom, hparents, rfl, hd⟩
    exact ih d hd (h.over_down hown hs) (fun p hp => hpoms p (.of_imports hstep hp))
      fun h' _ => Hierarchy.agreesFor_down (hst h hc)

/-! ### Properties that make no difference -/

/-- A property has the value that the BOM's own hierarchy declares for its name, or no POM that the
BOM leads to mentions the name. The properties that a project has itself are not declared: no other
project sees them, so a name of theirs counts as any other. -/
def Irrelevant (client : Client) (c : Coordinates) (name v : String) : Prop :=
  (∃ h, client.Loads c h ∧ h.declared? name = some v) ∨
    ∀ pom, Reached client c .empty pom → ∀ text ∈ pom.texts,
      name ∉ Placeholder.mentioned text.toList

theorem AmountsTo.of_irrelevant {b : Bom} (hb : AmountsTo client c .empty b)
    (hsealed : ∀ pom, Reached client c .empty pom → ∀ text ∈ pom.texts,
      Placeholder.sealed text.toList = true)
    (hs : ∀ name v, s.get? name = some v → Irrelevant client c name v) :
    AmountsTo client c s b := by
  let names : String → Prop := fun name => ∃ pom, Reached client c .empty pom ∧
    ∃ text ∈ pom.texts, name ∈ Placeholder.mentioned text.toList
  have hpoms : ∀ pom, Reached client c .empty pom → ∀ text ∈ pom.texts, Text.Over names text :=
    fun pom hpom text htext =>
      ⟨hsealed pom hpom text htext, fun name hname => ⟨pom, hpom, text, htext, hname⟩⟩
  refine hb.of_agreesFor (fun name v hv => nomatch hv) hpoms fun h hc name hname => ?_
  obtain ⟨pom, hpom, text, htext, hmentioned⟩ := hname
  rw [Hierarchy.get?_down, Hierarchy.get?_down]
  cases hv : s.get? name with
  | none => rfl
  | some v =>
    rcases hs name v hv with ⟨h', hc', hdeclared⟩ | hnone
    · obtain rfl := hc.unique hc'
      exact hdeclared
    · exact absurd hmentioned (hnone pom hpom text htext)

end BomTable
