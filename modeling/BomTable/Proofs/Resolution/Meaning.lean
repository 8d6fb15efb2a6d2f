import BomTable.Proofs.Property.Lookup
import BomTable.Resolution.Resolver

/-!
What a BOM amounts to in a repository: its table as the documents give it, with nothing kept, no
journal and no limit. Imported tables are what the imported BOMs amount to with the properties
handed down to them.

A BOM amounts to one table at most, and only the values of the properties decide which.
-/

namespace BomTable

/-- The POM that a repository has for some coordinates. -/
def Client.document (client : Client) (c : Coordinates) : Except Failure Pom :=
  match (client.search c).result with
  | .error f => .error f
  | .ok none => .error (.error (.absent c client.locations))
  | .ok (some content) => Pom.read (some c) (.bytes content)

/-- The parents of a POM, nearest first, up to one that has none. -/
inductive Client.Lineage (client : Client) : Pom → List Pom → Prop where
  | top {pom : Pom} (h : pom.parent = none) : Lineage client pom []
  | child {pom next : Pom} {p : Coordinates} {rest : List Pom} (h : pom.parent = some p)
      (hp : client.document p = .ok next) (hrest : Lineage client next rest) :
      Lineage client pom (next :: rest)

lemma Client.Lineage.unique {client : Client} {pom : Pom} {ps qs : List Pom}
    (hp : client.Lineage pom ps) (hq : client.Lineage pom qs) : ps = qs := by
  induction hp generalizing qs with
  | top h =>
    cases hq with
    | top => rfl
    | child h' => rw [h] at h'; cases h'
  | child h hp _ ih =>
    cases hq with
    | top h' => rw [h] at h'; cases h'
    | child h' hp' hrest' =>
      obtain rfl : _ = _ := Option.some.inj (h.symm.trans h')
      obtain rfl : _ = _ := Except.ok.inj (hp.symm.trans hp')
      rw [ih hrest']

lemma Client.Lineage.exists_child {client : Client} {pom : Pom} {parents : List Pom}
    {p : Coordinates} (h : client.Lineage pom parents) (hp : pom.parent = some p) :
    ∃ next rest, parents = next :: rest ∧ client.document p = .ok next ∧
      client.Lineage next rest := by
  cases h with
  | top h => rw [hp] at h; cases h
  | child h hdoc hrest =>
    obtain rfl : _ = _ := Option.some.inj (hp.symm.trans h)
    exact ⟨_, _, rfl, hdoc, hrest⟩

namespace Candidate

variable (tables : Coordinates → List Managed) (properties : Source)

/-- The candidates that one entry gives, where the tables of BOMs are known. -/
def ofEntry (level : Nat) (pom : Pom) (raw : RawEntry) : Except Error (List Candidate) :=
  if raw.isImport then do
    let d ← Resolver.importCoordinates properties pom raw
    return (tables d).map fun m => ⟨importedRank, m⟩
  else
    match Text.nonempty? (properties.substitute? raw.version) with
    | none => return []
    | some v => return [⟨level, ← Resolver.managedEntry properties raw v⟩]

def ofPom (level : Nat) (pom : Pom) : Except Error (List Candidate) := do
  return (← pom.management.mapM (ofEntry tables properties level pom)).flatten

/-- The candidates of a POM and its parents, nearest first, listed from the topmost parent on. -/
def ofLevels : Nat → List Pom → Except Error (List Candidate)
  | _, [] => return []
  | level, pom :: above => do
    let own ← ofPom tables properties level pom
    let upper ← ofLevels (level + 1) above
    return upper ++ own

end Candidate

/-- Some of the POMs import a BOM by these coordinates. -/
def Imported (properties : Source) (poms : List Pom) (d : Coordinates) : Prop :=
  ∃ pom ∈ poms, ∃ raw ∈ pom.management,
    raw.isImport = true ∧ Resolver.importCoordinates properties pom raw = .ok d

/-- What a BOM with some properties amounts to. -/
inductive AmountsTo (client : Client) : Coordinates → Source → Bom → Prop where
  | mk {c : Coordinates} {s : Source} {pom : Pom} {parents : List Pom} {cs : List Candidate}
      (boms : Coordinates → Bom) (hpom : client.document c = .ok pom)
      (hparents : client.Lineage pom parents)
      (hcs : Candidate.ofLevels (fun d => (boms d).management)
        (Resolver.effective pom (Resolver.handedDown pom parents s)) 0 (pom :: parents) = .ok cs)
      (himports : ∀ d, Imported (Resolver.effective pom (Resolver.handedDown pom parents s))
        (pom :: parents) d → AmountsTo client d (Resolver.handedDown pom parents s) (boms d)) :
      AmountsTo client c s
        { coordinates := c
          management := Candidate.select cs
          declared := pom.properties
          inherited := Resolver.inheritedProperties parents }

/-! ### Only imported tables count -/

lemma mapM_congr {α β : Type} {f g : α → Except Error β} {l : List α}
    (h : ∀ a ∈ l, f a = g a) : l.mapM f = l.mapM g := by
  induction l with
  | nil => rfl
  | cons a l ih =>
    rw [List.mapM_cons, List.mapM_cons, h a List.mem_cons_self,
      ih fun x hx => h x (List.mem_cons_of_mem a hx)]

namespace Candidate

variable {tables tables' : Coordinates → List Managed} {properties properties' : Source}

lemma ofEntry_congr {level : Nat} {pom : Pom} {raw : RawEntry}
    (h : ∀ d, raw.isImport = true → Resolver.importCoordinates properties pom raw = .ok d →
      tables d = tables' d) :
    ofEntry tables properties level pom raw = ofEntry tables' properties level pom raw := by
  unfold ofEntry
  split_ifs with hi
  · cases hd : Resolver.importCoordinates properties pom raw with
    | error e => rfl
    | ok d => simp only [bind, Except.bind, h d hi hd]
  · rfl

lemma ofLevels_congr {level : Nat} {poms : List Pom}
    (h : ∀ d, Imported properties poms d → tables d = tables' d) :
    ofLevels tables properties level poms = ofLevels tables' properties level poms := by
  induction poms generalizing level with
  | nil => rfl
  | cons pom above ih =>
    have hown : ofPom tables properties level pom = ofPom tables' properties level pom := by
      unfold ofPom
      rw [mapM_congr fun raw hraw => ofEntry_congr fun d hi hd =>
        h d ⟨pom, List.mem_cons_self, raw, hraw, hi, hd⟩]
    rw [ofLevels, ofLevels, hown, ih fun d ⟨p, hp, hd⟩ => h d ⟨p, List.mem_cons_of_mem pom hp, hd⟩]

end Candidate

/-- **A BOM amounts to one table at most.** -/
theorem AmountsTo.unique {client : Client} {c : Coordinates} {s : Source} {b b' : Bom}
    (h : AmountsTo client c s b) (h' : AmountsTo client c s b') : b = b' := by
  induction h generalizing b' with
  | mk boms hpom hparents hcs himports ih =>
    cases h' with
    | mk boms' hpom' hparents' hcs' himports' =>
      obtain rfl : _ = _ := Except.ok.inj (hpom.symm.trans hpom')
      obtain rfl := hparents.unique hparents'
      rw [Candidate.ofLevels_congr fun d hd => by rw [ih d hd (himports' d hd)]] at hcs
      obtain rfl : _ = _ := Except.ok.inj (hcs.symm.trans hcs')
      rfl

/-! ### Only what the texts of entries are replaced with counts -/

/-- The texts of an entry that values are put into. -/
def RawEntry.texts (raw : RawEntry) : List String :=
  [raw.group, raw.artifact] ++ raw.version.toList ++ raw.classifier.toList ++
    raw.exclusions.flatMap fun e => [e.1, e.2]

/-- Two sources replace all texts of an entry alike. -/
def RawEntry.FilledAlike (s t : Source) (raw : RawEntry) : Prop :=
  ∀ text ∈ raw.texts, s.substitute text = t.substitute text

namespace RawEntry.FilledAlike

variable {s t : Source} {raw : RawEntry}

lemma of_values (h : s.get? = t.get?) (raw : RawEntry) : raw.FilledAlike s t :=
  fun _ _ => by rw [Source.substitute_congr h]

lemma optional {text : Option String} (h : raw.FilledAlike s t)
    (htext : ∀ v ∈ text, v ∈ raw.texts) : s.substitute? text = t.substitute? text :=
  Option.map_congr fun v hv => h v (htext v hv)

lemma version (h : raw.FilledAlike s t) :
    s.substitute? raw.version = t.substitute? raw.version :=
  h.optional fun v hv => by simp [texts, Option.mem_def.1 hv]

lemma classifier (h : raw.FilledAlike s t) :
    s.substitute? raw.classifier = t.substitute? raw.classifier :=
  h.optional fun v hv => by simp [texts, Option.mem_def.1 hv]

lemma exclusion (h : raw.FilledAlike s t) {e : String × String} (he : e ∈ raw.exclusions) :
    s.substitute e.1 = t.substitute e.1 ∧ s.substitute e.2 = t.substitute e.2 := by
  have hmem : ∀ text ∈ [e.1, e.2], text ∈ raw.texts := fun text htext =>
    List.mem_append_right _ (List.mem_flatMap.2 ⟨e, he, htext⟩)
  exact ⟨h _ (hmem _ (by simp)), h _ (hmem _ (by simp))⟩

lemma importCoordinates_eq (h : raw.FilledAlike s t) (pom : Pom) :
    Resolver.importCoordinates s pom raw = Resolver.importCoordinates t pom raw := by
  unfold Resolver.importCoordinates
  rw [h raw.group (by simp [texts]), h raw.artifact (by simp [texts]), h.version]

lemma managedEntry_eq (h : raw.FilledAlike s t) (version : String) :
    Resolver.managedEntry s raw version = Resolver.managedEntry t raw version := by
  unfold Resolver.managedEntry
  rw [h raw.group (by simp [texts]), h raw.artifact (by simp [texts]), h.classifier,
    mapM_congr fun e he => by rw [(h.exclusion he).1, (h.exclusion he).2]]

lemma ofEntry_eq (h : raw.FilledAlike s t) (tables : Coordinates → List Managed) (level : Nat)
    (pom : Pom) :
    Candidate.ofEntry tables s level pom raw = Candidate.ofEntry tables t level pom raw := by
  unfold Candidate.ofEntry
  rw [h.importCoordinates_eq, h.version]
  simp only [h.managedEntry_eq]

end RawEntry.FilledAlike

section

variable {s t : Source} {poms : List Pom}
  (h : ∀ pom ∈ poms, ∀ raw ∈ pom.management, raw.FilledAlike s t)
include h

lemma Candidate.ofLevels_congr_source {tables : Coordinates → List Managed} {level : Nat} :
    ofLevels tables s level poms = ofLevels tables t level poms := by
  induction poms generalizing level with
  | nil => rfl
  | cons pom above ih =>
    have hown : ofPom tables s level pom = ofPom tables t level pom := by
      unfold ofPom
      rw [mapM_congr fun raw hraw => (h pom List.mem_cons_self raw hraw).ofEntry_eq tables level pom]
    rw [ofLevels, ofLevels, hown, ih fun p hp => h p (List.mem_cons_of_mem pom hp)]

lemma imported_congr {d : Coordinates} : Imported s poms d ↔ Imported t poms d := by
  have hraw : ∀ pom ∈ poms, ∀ raw ∈ pom.management,
      Resolver.importCoordinates s pom raw = Resolver.importCoordinates t pom raw :=
    fun pom hpom raw hraw => (h pom hpom raw hraw).importCoordinates_eq pom
  constructor
  · rintro ⟨pom, hpom, raw, hmem, hi, hd⟩
    exact ⟨pom, hpom, raw, hmem, hi, hraw pom hpom raw hmem ▸ hd⟩
  · rintro ⟨pom, hpom, raw, hmem, hi, hd⟩
    exact ⟨pom, hpom, raw, hmem, hi, (hraw pom hpom raw hmem).symm ▸ hd⟩

end

/-! ### Only the values of the properties count -/

namespace Resolver

lemma handedDown_congr {s t : Source} (h : s.get? = t.get?) (pom : Pom) (parents : List Pom) :
    (handedDown pom parents s).get? = (handedDown pom parents t).get? :=
  Source.layer_congr rfl h

lemma effective_congr {s t : Source} (h : s.get? = t.get?) (pom : Pom) :
    (effective pom s).get? = (effective pom t).get? :=
  Source.layer_congr h rfl

end Resolver

/-- **Properties with the same values give the same table.** -/
theorem AmountsTo.congr {client : Client} {c : Coordinates} {s t : Source} {b : Bom}
    (h : AmountsTo client c s b) (hst : s.get? = t.get?) : AmountsTo client c t b := by
  induction h generalizing t with
  | mk boms hpom hparents hcs himports ih =>
    rename_i pom parents cs
    have hdown := Resolver.handedDown_congr hst pom parents
    have heff : ∀ p ∈ pom :: parents, ∀ raw ∈ p.management, raw.FilledAlike _ _ :=
      fun _ _ raw _ => .of_values (Resolver.effective_congr hdown pom) raw
    refine .mk boms hpom hparents ?_ fun d hd => ih d ?_ hdown
    · rwa [← Candidate.ofLevels_congr_source heff]
    · rwa [imported_congr heff]

/-! ### The table as a function -/

open Classical in
/-- The table that a BOM amounts to; empty when it amounts to none. -/
noncomputable def Client.table (client : Client) (c : Coordinates) (s : Source) : List Managed :=
  if h : ∃ b, AmountsTo client c s b then h.choose.management else []

lemma AmountsTo.table_eq {client : Client} {c : Coordinates} {s : Source} {b : Bom}
    (h : AmountsTo client c s b) : client.table c s = b.management := by
  have hex : ∃ b, AmountsTo client c s b := ⟨b, h⟩
  rw [Client.table, dif_pos hex, hex.choose_spec.unique h]

section

open Resolver (handedDown effective inheritedProperties)

variable {client : Client} {c : Coordinates} {s : Source} {pom : Pom} {parents : List Pom}

lemma AmountsTo.exists_boms {b : Bom} (h : AmountsTo client c s b)
    (hpom : client.document c = .ok pom) (hparents : client.Lineage pom parents) :
    ∃ cs, Candidate.ofLevels (fun d => client.table d (handedDown pom parents s))
        (effective pom (handedDown pom parents s)) 0 (pom :: parents) = .ok cs ∧
      b = ⟨c, Candidate.select cs, pom.properties, inheritedProperties parents⟩ ∧
      ∀ d, Imported (effective pom (handedDown pom parents s)) (pom :: parents) d →
        ∃ b, AmountsTo client d (handedDown pom parents s) b := by
  cases h with
  | mk boms hpom' hparents' hcs himports =>
    obtain rfl : _ = _ := Except.ok.inj (hpom.symm.trans hpom')
    obtain rfl := hparents.unique hparents'
    refine ⟨_, ?_, rfl, fun d hd => ⟨_, himports d hd⟩⟩
    rw [← hcs]
    exact Candidate.ofLevels_congr fun d hd => (himports d hd).table_eq

lemma AmountsTo.of_tables {cs : List Candidate} (hpom : client.document c = .ok pom)
    (hparents : client.Lineage pom parents)
    (hcs : Candidate.ofLevels (fun d => client.table d (handedDown pom parents s))
      (effective pom (handedDown pom parents s)) 0 (pom :: parents) = .ok cs)
    (himports : ∀ d, Imported (effective pom (handedDown pom parents s)) (pom :: parents) d →
      ∃ b, AmountsTo client d (handedDown pom parents s) b) :
    AmountsTo client c s
      ⟨c, Candidate.select cs, pom.properties, inheritedProperties parents⟩ := by
  -- The rule wants a BOM for all coordinates; for those not imported any will do.
  have hex : ∀ d, ∃ b, Imported (effective pom (handedDown pom parents s)) (pom :: parents) d →
      AmountsTo client d (handedDown pom parents s) b := fun d => by
    by_cases hd : Imported (effective pom (handedDown pom parents s)) (pom :: parents) d
    · obtain ⟨b, hb⟩ := himports d hd
      exact ⟨b, fun _ => hb⟩
    · exact ⟨⟨c, [], ∅, ∅⟩, fun h => absurd h hd⟩
  choose boms hboms using hex
  refine .mk boms hpom hparents ?_ hboms
  rw [← hcs]
  exact Candidate.ofLevels_congr fun d hd => (hboms d hd).table_eq.symm

end

end BomTable
