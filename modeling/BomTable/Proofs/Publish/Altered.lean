import BomTable.Proofs.Ledger.Order
import BomTable.Proofs.Publish.Importing

/-!
Which entries are pinned when BOMs are imported again. Every import is compared with what it amounts
to without properties, and what is common to several imports goes to the one that the table has the
entry by. Together the pinned entries are those of the table that properties alter, in its order.
-/

namespace BomTable

/-- The table has no entry for the key of the entry, or one of another version. -/
def Bom.differs (b : Bom) (m : Managed) : Bool :=
  (b.find? m.key).all fun d => d.version != m.version

/-- The import that an entry comes from. -/
def Effective.import? (l : Ledger) (e : Effective) : Option Import :=
  match e.origin with
  | .bom place => l.imports[place]?
  | .override _ => none

/-- The entry comes from an import, and what the import amounts to by default differs on it. -/
def Effective.isAltered (l : Ledger) (defaults : Import → Bom) (e : Effective) : Bool :=
  (e.import? l).any fun i => (defaults i).differs e.managed

lemma Ledger.changes_eq (overridden default : Bom) :
    changes overridden default = overridden.management.filter default.differs := by
  refine List.filter_congr fun m _ => ?_
  rw [Bom.differs]
  cases default.find? m.key <;> rfl

namespace Publish

open Xml

/-! ### Kinds of entries -/

/-- The entry imports a BOM of the ledger. -/
def isImportNode (l : Ledger) (m : Managed) : Bool :=
  l.imports.any fun i => m = .importOf i.coordinates

/-- An entry of the table expands to this one. -/
def isExpansion (declared : List Declared) (table : List Effective) (m : Managed) : Bool :=
  table.any fun e => m ∈ expansions declared table e.managed

/-- The entry is a version of the project's own. -/
def isOwn (table : List Effective) (m : Managed) : Bool :=
  table.any fun e => !e.fromBom && e.managed = m

/-- The entry is none of these. -/
def isPin (l : Ledger) (declared : List Declared) (table : List Effective) (m : Managed) : Bool :=
  !isImportNode l m && !isExpansion declared table m && !isOwn table m

section

variable {r : Resolver} {client : Client} {l : Ledger} {current : Source}
  {declared : List Declared} {table : List Effective} {place : Nat} {e : Effective} {m : Managed}
  {overrides : List (Import × Nat × List Managed)} {o : Import × Nat × List Managed}
  {defaults : Import → Bom} {w : World} {entries : List Managed}

lemma isImportNode_of_proper (h : m.Proper) : isImportNode l m = false := by
  refine List.any_eq_false.2 fun i _ => ?_
  rw [decide_eq_true_eq]
  rintro rfl
  have hnot := h.notImport
  rw [isImport_importOf] at hnot
  cases hnot

lemma isImportNode_importOf {i : Import} (hi : i ∈ l.imports) :
    isImportNode l (.importOf i.coordinates) = true :=
  List.any_eq_true.2 ⟨i, hi, decide_eq_true rfl⟩

lemma isExpansion_of_mem (he : e ∈ table) (hm : m ∈ expansions declared table e.managed) :
    isExpansion declared table m = true :=
  List.any_eq_true.2 ⟨e, he, decide_eq_true hm⟩

lemma isExpansion_of_hasKey (h : hasKey table m.key = true) :
    isExpansion declared table m = false := by
  refine List.any_eq_false.2 fun e _ => ?_
  rw [decide_eq_true_eq]
  intro hm
  rw [(mem_expansions.1 hm).2.1] at h
  cases h

/-! ### Pinned entries, import by import -/

lemma exists_defaults (hoverrides : Ledger.Overridden client l current overrides) :
    ∃ defaults : Import → Bom,
      ∀ i ∈ l.imports, AmountsTo client i.coordinates .empty (defaults i) := by
  have hexists : ∀ i : Import, ∃ b, i ∈ l.imports → AmountsTo client i.coordinates .empty b := by
    intro i
    by_cases hi : i ∈ l.imports
    · obtain ⟨place, hplace⟩ := List.mem_iff_getElem?.1 hi
      obtain ⟨_, _, _, b, -, hb, -⟩ := exists_mem_overrides hoverrides hplace
      exact ⟨b, fun _ => hb⟩
    · exact ⟨⟨i.coordinates, [], ∅, ∅⟩, fun hmem => absurd hmem hi⟩
  choose defaults hdefaults using hexists
  exact ⟨defaults, hdefaults⟩

lemma overrides_eq (hoverrides : Ledger.Overridden client l current overrides)
    (hdefaults : ∀ i ∈ l.imports, AmountsTo client i.coordinates .empty (defaults i)) :
    overrides = (Ledger.latestFirst l.imports).map fun i =>
      (i.1, i.2, (Ledger.overriddenTable client current i.1).filter (defaults i.1).differs) := by
  have hmem : ∀ i ∈ Ledger.latestFirst l.imports, i.1 ∈ l.imports := fun i hi =>
    List.mem_of_getElem? (Ledger.mem_latestFirst.1 hi)
  have hsame : List.Forall₂ (· = ·) ((Ledger.latestFirst l.imports).map fun i =>
      (i.1, i.2, (Ledger.overriddenTable client current i.1).filter (defaults i.1).differs))
      overrides := by
    refine List.forall₂_map_left_iff.2 (((List.forall₂_and_left
      (p := fun i : Import × Nat => i.1 ∈ l.imports) _ _).2 ⟨hmem, hoverrides⟩).imp ?_)
    rintro i ⟨i', place, changed⟩ ⟨hi, rfl, rfl, overridden, default, ho, hd, rfl⟩
    -- Every record has default tables of its own, but they are what its BOM amounts to.
    obtain rfl : default = defaults i.1 := hd.unique (hdefaults _ hi)
    rw [Ledger.changes_eq, Ledger.overriddenTable, ho.table_eq]
  rw [List.forall₂_eq_eq_eq] at hsame
  exact hsame.symm

/-- The table has the key of an entry by an import just if it has the entry itself. -/
lemma holds_iff (htable : table = l.table (Ledger.overriddenTable client current)) {i : Import}
    (hi : l.imports[place]? = some i) (hm : m ∈ Ledger.overriddenTable client current i) :
    Draft.Holds table place m.key ↔ ⟨m, .bom place⟩ ∈ table := by
  constructor
  · rintro ⟨⟨n, origin⟩, he, hkey, rfl⟩
    have hn : n ∈ Ledger.overriddenTable client current i :=
      Ledger.mem_of_origin (htable ▸ he) rfl hi
    obtain rfl : n = m := List.inj_on_of_nodup_map overridden_nodup_keys hn hm hkey
    exact he
  · intro he
    exact ⟨_, he, rfl, rfl⟩

/-- What is pinned for one import is what is altered and left of its table. -/
lemma pinned_eq (htable : table = l.table (Ledger.overriddenTable client current)) {i : Import}
    (hplace : l.imports[place]? = some i) :
    pinned table place ((Ledger.overriddenTable client current i).filter (defaults i).differs) =
      (((Ledger.overriddenTable client current i).map fun m => (⟨m, .bom place⟩ : Effective)).filter
        fun e => e.isAltered l defaults && decide (e ∈ table)).map (·.managed) := by
  rw [pinned, List.filter_filter, List.filter_map, List.map_map, List.map_id'']
  · refine List.filter_congr fun m hm => ?_
    rw [Bool.eq_iff_iff]
    have hheld := holds_iff htable hplace hm
    simp [Effective.isAltered, Effective.import?, hplace, ← hheld, Draft.Holds, and_comm]
  · exact fun m => rfl

lemma filter_ownEntries {p : Effective → Bool} :
    l.ownEntries.filter (fun e => e.isAltered l defaults && p e) = [] := by
  refine List.filter_eq_nil_iff.2 fun e he => ?_
  obtain ⟨o, -, rfl⟩ := List.mem_map.1 he
  simp [Effective.isAltered, Effective.import?]

/-- **What is pinned for all imports is what properties alter in the table.** -/
theorem flatMap_pinned (htable : table = l.table (Ledger.overriddenTable client current))
    (hoverrides : Ledger.Overridden client l current overrides)
    (hdefaults : ∀ i ∈ l.imports, AmountsTo client i.coordinates .empty (defaults i)) :
    (overrides.flatMap fun o => pinned table o.2.1 o.2.2) =
      (table.filter (·.isAltered l defaults)).map (·.managed) := by
  have hnodup : ∀ i ∈ l.imports,
      ((Ledger.overriddenTable client current i).map Managed.key).Nodup := fun _ _ =>
    overridden_nodup_keys
  -- Both sides are what is left of the table of one import after the other.
  calc (overrides.flatMap fun o => pinned table o.2.1 o.2.2)
      = (Ledger.latestFirst l.imports).flatMap fun i => pinned table i.2
          ((Ledger.overriddenTable client current i.1).filter (defaults i.1).differs) := by
        rw [overrides_eq hoverrides hdefaults, List.flatMap_map]
    _ = ((l.brought (Ledger.overriddenTable client current)).filter
          fun e => e.isAltered l defaults && decide (e ∈ table)).map (·.managed) := by
        rw [Ledger.brought, List.filter_append, filter_ownEntries, List.nil_append,
          List.filter_flatMap, List.map_flatMap]
        exact List.flatMap_congr fun i hi => pinned_eq htable (Ledger.mem_latestFirst.1 hi)
    _ = (table.filter (·.isAltered l defaults)).map (·.managed) := by
        rw [← List.filter_filter, htable, Ledger.filter_brought hnodup]

/-! ### What is written, by kinds -/

section

variable (htable : table = l.table (Ledger.overriddenTable client current))
  (hoverrides : Ledger.Overridden client l current overrides)
  (himports : ∀ i ∈ l.imports, ∃ b, AmountsTo client i.coordinates (i.propertiesWith current) b)

include htable hoverrides

lemma exists_of_mem_pinned (ho : o ∈ overrides) (hm : m ∈ pinned table o.2.1 o.2.2) :
    ∃ e ∈ table, e.managed = m ∧ e.origin = .bom o.2.1 := by
  obtain ⟨hchanged, e, he, hkey, horigin⟩ := Draft.mem_pinned.1 hm
  exact ⟨e, he, (eq_of_pinned htable hoverrides ho hchanged he hkey.symm horigin).1.symm, horigin⟩

include himports

lemma isPin_of_mem_pinned (ho : o ∈ overrides) (hm : m ∈ pinned table o.2.1 o.2.2) :
    isPin l declared table m = true := by
  obtain ⟨e, he, rfl, horigin⟩ := exists_of_mem_pinned htable hoverrides ho hm
  have hown : isOwn table e.managed = false := by
    refine List.any_eq_false.2 fun d hd hsame => ?_
    obtain ⟨hfrom, hsame⟩ : d.fromBom = false ∧ d.managed = e.managed := by simpa using hsame
    obtain rfl : d = e := List.inj_on_of_nodup_map (htable ▸ Ledger.nodup_keys_table) hd he
      (congrArg Managed.key hsame)
    simp [Effective.fromBom, horigin] at hfrom
  simp [isPin, hown, isExpansion_of_hasKey (hasKey_iff.2 ⟨e, he, rfl⟩),
    isImportNode_of_proper (Ledger.table_proper himports (htable ▸ he))]

lemma filter_importPart (ho : o ∈ overrides) :
    (importPart declared table o.2.1 o.2.2).filter (isPin l declared table) =
      pinned table o.2.1 o.2.2 := by
  have hexpansion : ∀ {m n}, m ∈ table.map (·.managed) → n ∈ expansions declared table m →
      ¬ isPin l declared table n = true := by
    intro m n hm hn
    obtain ⟨e, he, rfl⟩ := List.mem_map.1 hm
    simp [isPin, isExpansion_of_mem he hn]
  have hpins : ∀ m ∈ pinned table o.2.1 o.2.2,
      (withExpansions declared table m).filter (isPin l declared table) = [m] := by
    intro m hm
    obtain ⟨e, he, rfl, -⟩ := exists_of_mem_pinned htable hoverrides ho hm
    rw [withExpansions, List.filter_cons_of_pos
      (isPin_of_mem_pinned htable hoverrides himports ho hm),
      List.filter_eq_nil_iff.2 fun n hn => hexpansion (List.mem_map_of_mem he) hn]
  rw [importPart, List.filter_append, List.filter_flatMap, List.flatMap_congr hpins,
    List.flatMap_singleton', List.filter_eq_nil_iff.2, List.append_nil]
  intro n hn
  obtain ⟨e, he, hn⟩ := List.mem_flatMap.1 hn
  exact hexpansion (List.mem_map_of_mem (List.mem_filter.1 he).1) hn

/-- **Apart from imports, expansions and versions of the project's own, the altered entries of the
table are written.** -/
theorem filter_importing
    (hdefaults : ∀ i ∈ l.imports, AmountsTo client i.coordinates .empty (defaults i)) :
    (importing declared table overrides).filter (isPin l declared table) =
      (table.filter (·.isAltered l defaults)).map (·.managed) := by
  have hnodes : (overrides.map fun o => Managed.importOf o.1.coordinates).filter
      (isPin l declared table) = [] := by
    refine List.filter_eq_nil_iff.2 fun m hm => ?_
    obtain ⟨o, ho, rfl⟩ := List.mem_map.1 hm
    simp [isPin, isImportNode_importOf
      (List.mem_of_getElem? (changed_of_mem_overrides hoverrides ho).1)]
  have hown : (ownEntries declared table).filter (isPin l declared table) = [] := by
    refine List.filter_eq_nil_iff.2 fun m hm => ?_
    obtain ⟨e, he, hm⟩ := List.mem_flatMap.1 hm
    obtain ⟨he, hfrom⟩ := List.mem_filter.1 he
    rcases List.mem_cons.1 hm with rfl | hm
    · have : isOwn table e.managed = true := List.any_eq_true.2 ⟨e, he, by simpa using hfrom⟩
      simp [isPin, this]
    · simp [isPin, isExpansion_of_mem he hm]
  rw [importing, importedEntries, List.filter_append, List.filter_append, hnodes, hown,
    List.append_nil, List.append_nil, List.filter_flatMap, ← flatMap_pinned htable hoverrides
    hdefaults]
  exact List.flatMap_congr fun o ho => filter_importPart htable hoverrides himports ho

end

/-! ### The entries of a plan -/

/-- **Which entries are pinned.** Of the written entries, those that are no imports, no expansions and
no versions of the project's own are the entries that the table has by an import and that the
import, resolved without properties, does not have or has in another version. Each is written once,
and they stand in the order of the table. -/
theorem managedEntries_importing (hw : Reachable r w)
    (h : (managedEntries r .importing current declared).result w = .ok entries) :
    ∃ (table : List Effective) (defaults : Import → Bom),
      (Ledger.effectiveEntries r current).result w = .ok table ∧
      (∀ i ∈ w.ledger.imports, AmountsTo r.client i.coordinates .empty (defaults i) ∧
        ∀ w' found, Reachable r w' → (r.resolve i.coordinates .empty).result w' = .ok found →
          found.bom = defaults i) ∧
      entries.filter (isPin w.ledger declared table) =
        (table.filter (·.isAltered w.ledger defaults)).map (·.managed) ∧
      ((entries.filter (isPin w.ledger declared table)).map Managed.key).Nodup := by
  obtain ⟨table, htable, -⟩ := Run.exists_of_result_bind h
  obtain ⟨heq, himports⟩ := Ledger.effectiveEntries_spec.value hw.holding htable
  obtain ⟨_, ⟨overrides, hoverrides, rfl⟩, hes, -⟩ := managedEntries_spec.value hw.holding h
  rw [← heq] at hes
  obtain ⟨defaults, hdefaults⟩ := exists_defaults hoverrides
  have hpins : entries.filter (isPin w.ledger declared table) =
      (table.filter (·.isAltered w.ledger defaults)).map (·.managed) := by
    rw [hes]
    exact filter_importing heq hoverrides himports hdefaults
  refine ⟨table, defaults, htable, fun i hi => ⟨hdefaults i hi, fun w' found hw' hfound =>
    (Resolver.amountsTo_of_result hw' hfound).unique (hdefaults i hi)⟩, hpins, ?_⟩
  have hkeys : (table.map (·.managed.key)).Nodup := heq ▸ Ledger.nodup_keys_table
  rw [hpins, List.map_map]
  exact hkeys.sublist (List.filter_sublist.map _)

end

/-! ### BOMs that share an entry -/

namespace Shared

def first : Coordinates := ⟨"g", "a", some "1"⟩

def second : Coordinates := ⟨"g", "b", some "1"⟩

def managed (artifact version rest : String) : String :=
  "<dependency><groupId>x</groupId><artifactId>" ++ artifact ++ "</artifactId><version>" ++
    version ++ "</version>" ++ rest ++ "</dependency>"

def document (artifact entries : String) : Bytes :=
  Content.octets (.text ("<project><groupId>g</groupId><artifactId>" ++ artifact ++
    "</artifactId><version>1</version><properties><v>1</v></properties><dependencyManagement>" ++
    "<dependencies>" ++ entries ++ "</dependencies></dependencyManagement></project>"))

/-- Both BOMs have `x:p`. -/
def resolver : Resolver where
  client := .memory
    [("g:a:1", document "a" (managed "p" "${v}" "" ++ managed "q" "${v}" "" ++
        managed "s" "1" "")),
      ("g:b:1", document "b" (managed "t" "1" "<classifier>linux</classifier>" ++
        managed "p" "${v}" "" ++ managed "t" "${v}" ""))]
  cacheSize := 256
  maxDepth := 50

/-- The first BOM is imported twice, and the project has a version of its own for `x:q`. -/
def world : World :=
  (World.start 0).afterAll resolver
    [.importBom none first .empty, .addVersion none "x" "q" (some "9") [],
      .importBom none second .empty, .importBom none first .empty]

def current : Source := .ofPairs [("v", some "2")]

def declared : List Declared :=
  [("p", "tests"), ("q", "tests"), ("s", "sources"), ("t", "linux"), ("t", "tests"),
    ("p", "tests")].map fun d => ⟨"x", d.1, some d.2, none, none⟩

def entry (artifact version : String) (classifier : Option String) : Managed :=
  ⟨⟨"x", artifact, some version⟩, classifier, [], none, none⟩

def table : List Effective :=
  [⟨entry "q" "9" none, .override 0⟩, ⟨entry "p" "2" none, .bom 2⟩, ⟨entry "s" "1" none, .bom 2⟩,
    ⟨entry "t" "1" (some "linux"), .bom 1⟩, ⟨entry "t" "2" none, .bom 1⟩]

def written : List Managed :=
  [entry "p" "2" none, entry "p" "2" (some "tests"), entry "s" "1" (some "sources"),
    entry "t" "2" none, entry "t" "2" (some "tests"), .importOf first, .importOf second,
    .importOf first, entry "q" "9" none, entry "q" "9" (some "tests")]

lemma result_written : (managedEntries resolver .importing current declared).result world =
    .ok written :=
  Run.result_of_gives (by decide +kernel)

lemma result_table : (Ledger.effectiveEntries resolver current).result world = .ok table :=
  Run.result_of_gives (by decide +kernel)

end Shared

theorem managedEntries_shared :
    (managedEntries Shared.resolver .importing Shared.current Shared.declared).result Shared.world =
        .ok Shared.written ∧
      (Ledger.effectiveEntries Shared.resolver Shared.current).result Shared.world =
        .ok Shared.table ∧
      ∃ defaults : Import → Bom,
        (∀ i ∈ Shared.world.ledger.imports,
          AmountsTo Shared.resolver.client i.coordinates .empty (defaults i)) ∧
        (Shared.table.filter (·.isAltered Shared.world.ledger defaults)).map (·.managed) =
          [Shared.entry "p" "2" none, Shared.entry "t" "2" none] := by
  have hpins : Shared.written.filter (isPin Shared.world.ledger Shared.declared Shared.table) =
      [Shared.entry "p" "2" none, Shared.entry "t" "2" none] := by decide +kernel
  have hw : Reachable Shared.resolver Shared.world := ⟨0, _, rfl⟩
  obtain ⟨table, defaults, htable, hdefaults, haltered, -⟩ :=
    managedEntries_importing hw Shared.result_written
  obtain rfl : Shared.table = table := Except.ok.inj (Shared.result_table.symm.trans htable)
  exact ⟨Shared.result_written, Shared.result_table, defaults, fun i hi => (hdefaults i hi).1,
    haltered.symm.trans hpins⟩

end Publish

end BomTable
