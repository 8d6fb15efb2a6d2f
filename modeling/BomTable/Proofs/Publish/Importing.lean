import BomTable.Proofs.Publish.Expansions
import BomTable.Proofs.Publish.Published
import BomTable.Proofs.Run.Session

/-!
Imported BOMs imported again by the published POM. The imports are then resolved without the
properties of the project. An entry comes back in its version unless the properties leave it as it
is and a later import has its key, without the properties, in another version.
-/

namespace BomTable.Publish

open Xml

variable {client : Client} {l : Ledger} {current : Source} {declared : List Declared}
  {overrides : List (Import × Nat × List Managed)} {e : Effective} {m : Managed} {k : Key}

/-! ### Which entries are written -/

/-- The entry that an import has for a key when no properties are given. -/
noncomputable def defaultEntry (client : Client) (i : Import) (k : Key) : Option Managed :=
  (client.table i.coordinates .empty).find? fun m => m.key = k

/-- The entry that the latest import with the key has for it when no properties are given. -/
noncomputable def latestDefault (client : Client) (l : Ledger) (k : Key) : Option Managed :=
  (Ledger.latestFirst l.imports).findSome? fun i => defaultEntry client i.1 k

/-- The properties change the entry or bring it in. -/
def Altered (client : Client) (i : Import) (m : Managed) : Prop :=
  ∀ d, defaultEntry client i m.key = some d → d.version ≠ m.version

lemma mem_of_changed {i : Import} {changed : List Managed}
    (h : Ledger.Changed client current i changed) :
    m ∈ changed ↔ m ∈ Ledger.overriddenTable client current i ∧ Altered client i m := by
  obtain ⟨overridden, default, ho, hd, rfl⟩ := h
  rw [Ledger.overriddenTable, ho.table_eq, Ledger.changes, List.mem_filter, Altered, defaultEntry,
    hd.table_eq]
  refine and_congr_right fun _ => ?_
  rw [Bom.find?, Key.lookup_eq_find? hd.nodup_keys]
  cases default.management.find? fun n => n.key = m.key with
  | none => simp
  | some d => simp

lemma mem_importPart {table : List Effective} {place : Nat} {changed : List Managed}
    (h : m ∈ importPart declared table place changed) (hkey : hasKey table m.key = true) :
    m ∈ changed ∧ ∃ e ∈ table, e.managed.key = m.key ∧ e.origin = .bom place := by
  rcases List.mem_append.1 h with h | h
  · obtain ⟨n, hn, h⟩ := List.mem_flatMap.1 h
    rcases List.mem_cons.1 h with rfl | h
    · obtain ⟨hchanged, hpin⟩ := List.mem_filter.1 hn
      obtain ⟨e, he, hpin⟩ := List.any_eq_true.1 hpin
      exact ⟨hchanged, e, he, by simpa using hpin⟩
    · rw [(mem_expansions.1 h).2.1] at hkey
      cases hkey
  · obtain ⟨d, -, h⟩ := List.mem_flatMap.1 h
    rw [(mem_expansions.1 h).2.1] at hkey
    cases hkey

lemma overridden_nodup_keys {i : Import} :
    ((Ledger.overriddenTable client current i).map Managed.key).Nodup := by
  by_cases h : ∃ b, AmountsTo client i.coordinates (i.propertiesWith current) b
  · obtain ⟨b, hb⟩ := h
    rw [Ledger.overriddenTable, hb.table_eq]
    exact hb.nodup_keys
  · rw [Ledger.overriddenTable, Client.table, dif_neg h]
    exact List.nodup_nil

/-- What is written when imports are imported again. -/
def importing (declared : List Declared) (table : List Effective)
    (overrides : List (Import × Nat × List Managed)) : List Managed :=
  importedEntries declared table overrides ++ ownEntries declared table

/-- The properties leave the entry as it is, so it is not written. -/
def Unaltered (client : Client) (l : Ledger) (e : Effective) : Prop :=
  ∃ i place d, e.origin = .bom place ∧ l.imports[place]? = some i ∧
    defaultEntry client i e.managed.key = some d ∧ d.version = e.managed.version

/-- The entry is not written, and the latest import with its key has another version for it. -/
def Eclipsed (client : Client) (l : Ledger) (e : Effective) : Prop :=
  Unaltered client l e ∧
    ∃ d, latestDefault client l e.managed.key = some d ∧ d.version ≠ e.managed.version

section

variable {table : List Effective}
  (htable : table = l.table (Ledger.overriddenTable client current))
  (hoverrides : Ledger.Overridden client l current overrides)

include hoverrides

lemma changed_of_mem_overrides {o : Import × Nat × List Managed} (ho : o ∈ overrides) :
    l.imports[o.2.1]? = some o.1 ∧ Ledger.Changed client current o.1 o.2.2 := by
  obtain ⟨i, hi, h1, h2, hchanged⟩ := exists_of_forall₂_right hoverrides ho
  rw [h1, h2]
  exact ⟨Ledger.mem_latestFirst.1 hi, hchanged⟩

lemma exists_mem_overrides {i : Import} {place : Nat} (hi : l.imports[place]? = some i) :
    ∃ changed, (i, place, changed) ∈ overrides ∧ Ledger.Changed client current i changed := by
  obtain ⟨⟨i', place', changed⟩, ho, h1, h2, hchanged⟩ := exists_of_forall₂_right
    (List.Forall₂.flip (R := flip _) hoverrides) (Ledger.mem_latestFirst (a := (i, place)).2 hi)
  obtain rfl : i' = i := h1
  obtain rfl : place' = place := h2
  exact ⟨changed, ho, hchanged⟩

include htable

lemma eq_of_pinned {o : Import × Nat × List Managed} (ho : o ∈ overrides) (hm : m ∈ o.2.2)
    (he : e ∈ table) (hkey : m.key = e.managed.key) (horigin : e.origin = .bom o.2.1) :
    m = e.managed ∧ ¬ Unaltered client l e := by
  obtain ⟨hplace, hchanged⟩ := changed_of_mem_overrides hoverrides ho
  obtain ⟨hm, haltered⟩ := (mem_of_changed hchanged).1 hm
  have hmem := Ledger.mem_of_origin (htable ▸ he) horigin hplace
  obtain rfl := List.inj_on_of_nodup_map overridden_nodup_keys hm hmem hkey
  refine ⟨rfl, ?_⟩
  rintro ⟨j, place, n, horigin', hj, hn, hversion⟩
  obtain rfl := Origin.bom.inj (horigin'.symm.trans horigin)
  obtain rfl : _ = j := Option.some.inj (hplace.symm.trans hj)
  exact haltered n hn hversion

lemma eq_of_mem_written (he : e ∈ table) (hkey : m.key = e.managed.key)
    (himport : m.isImport = false)
    (hm : m ∈ importing declared table overrides) :
    m = e.managed ∧ ¬ Unaltered client l e := by
  have hhas : hasKey table m.key = true := hasKey_iff.2 ⟨e, he, hkey.symm⟩
  have hsame : ∀ d ∈ table, d.managed.key = m.key → d = e := fun d hd hk =>
    List.inj_on_of_nodup_map (htable ▸ Ledger.nodup_keys_table) hd he (hk.trans hkey)
  rcases List.mem_append.1 hm with hm | hm
  · rcases List.mem_append.1 hm with hm | hm
    · obtain ⟨o, ho, hm⟩ := List.mem_flatMap.1 hm
      obtain ⟨hm, d, hd, hk, horigin⟩ := mem_importPart hm hhas
      obtain rfl := hsame d hd hk
      exact eq_of_pinned htable hoverrides ho hm he hkey horigin
    · obtain ⟨o, -, rfl⟩ := List.mem_map.1 hm
      rw [isImport_importOf] at himport
      cases himport
  · obtain ⟨d, hd, hm⟩ := List.mem_flatMap.1 hm
    obtain ⟨hd, hfrom⟩ := List.mem_filter.1 hd
    rcases List.mem_cons.1 hm with rfl | hm
    · obtain rfl := hsame d hd rfl
      refine ⟨rfl, ?_⟩
      rintro ⟨i, place, -, horigin, -⟩
      simp [Effective.fromBom, horigin] at hfrom
    · rw [(mem_expansions.1 hm).2.1] at hhas
      cases hhas

lemma importPart_proper {o : Import × Nat × List Managed} (ho : o ∈ overrides)
    (himports : ∀ i ∈ l.imports,
      ∃ b, AmountsTo client i.coordinates (i.propertiesWith current) b)
    (hm : m ∈ importPart declared table o.2.1 o.2.2) : m.Proper := by
  obtain ⟨hplace, hchanged⟩ := changed_of_mem_overrides hoverrides ho
  rcases List.mem_append.1 hm with hm | hm
  · obtain ⟨n, hn, hm⟩ := List.mem_flatMap.1 hm
    have hn := ((mem_of_changed hchanged).1 (List.mem_filter.1 hn).1).1
    exact withExpansions_proper
      (Ledger.overridden_proper hn (himports _ (List.mem_of_getElem? hplace))) hm
  · obtain ⟨d, hd, hm⟩ := List.mem_flatMap.1 hm
    exact expansion_proper (Ledger.table_proper himports (htable ▸ (List.mem_filter.1 hd).1)) hm

omit hoverrides in
lemma ownEntries_proper
    (himports : ∀ i ∈ l.imports,
      ∃ b, AmountsTo client i.coordinates (i.propertiesWith current) b)
    (hm : m ∈ ownEntries declared table) : m.Proper := by
  obtain ⟨d, hd, hm⟩ := List.mem_flatMap.1 hm
  exact withExpansions_proper
    (Ledger.table_proper himports (htable ▸ (List.mem_filter.1 hd).1)) hm

/-- All entries but those that the properties leave unaltered are written. -/
lemma mem_written (he : e ∈ table) (h : ¬ Unaltered client l e) :
    e.managed ∈ importing declared table overrides := by
  rcases Ledger.mem_table (htable ▸ he) with ⟨o, place, -, rfl⟩ | ⟨i, place, hi, hmem, horigin⟩
  · refine List.mem_append_right _ (List.mem_flatMap.2 ⟨_, List.mem_filter.2 ⟨he, rfl⟩, ?_⟩)
    exact List.mem_cons_self
  · obtain ⟨changed, ho, hchanged⟩ := exists_mem_overrides hoverrides hi
    have hm : e.managed ∈ changed := (mem_of_changed hchanged).2
      ⟨hmem, fun d hd hversion => h ⟨i, place, d, horigin, hi, hd, hversion⟩⟩
    have hpin : e.managed ∈ pinned table place changed :=
      List.mem_filter.2 ⟨hm, List.any_eq_true.2 ⟨e, he, by simp [horigin]⟩⟩
    refine List.mem_append_left _ (List.mem_append_left _ (List.mem_flatMap.2 ⟨_, ho, ?_⟩))
    exact List.mem_append_left _ (List.mem_flatMap.2 ⟨_, hpin, List.mem_cons_self⟩)

end

/-! ### Finding an entry again -/

section

variable {table : List Effective} {tables : Coordinates → List Managed}

lemma find?_candidatesOf_proper (h : m.isImport = false) :
    (candidatesOf tables m).find? (fun c => c.entry.key = k ∧ c.rank = Candidate.importedRank) =
      none := by
  rw [candidatesOf, h]
  simp [Candidate.importedRank]

lemma find?_candidatesOf_importOf (c : Coordinates) :
    (candidatesOf tables (.importOf c)).find?
        (fun c => c.entry.key = k ∧ c.rank = Candidate.importedRank) =
      ((tables c).find? fun m => m.key = k).map fun m => ⟨Candidate.importedRank, m⟩ := by
  rw [candidatesOf, isImport_importOf, if_pos rfl, List.find?_map]
  have hpred : ((fun c : Candidate => decide (c.entry.key = k ∧ c.rank = Candidate.importedRank)) ∘
      fun n => ⟨Candidate.importedRank, n⟩) = fun m : Managed => decide (m.key = k) := by
    funext m
    simp
  rw [hpred]
  rfl

variable (htable : table = l.table (Ledger.overriddenTable client current))
  (hoverrides : Ledger.Overridden client l current overrides)
  (himports : ∀ i ∈ l.imports, ∃ b, AmountsTo client i.coordinates (i.propertiesWith current) b)

include htable hoverrides himports

/-- The first candidate for a key that comes from an import is that of the latest import. -/
lemma find?_imported (declared : List Declared) (k : Key)
    (htables : ∀ i ∈ l.imports, tables i.coordinates = client.table i.coordinates .empty) :
    ((importing declared table overrides).flatMap
        (candidatesOf tables)).find?
        (fun c => c.entry.key = k ∧ c.rank = Candidate.importedRank) =
      (latestDefault client l k).map fun m => ⟨Candidate.importedRank, m⟩ := by
  -- Pinned entries and the project's own come before and after the imports, with other ranks.
  have hnone : ∀ ms : List Managed, (∀ m ∈ ms, m.Proper) → (ms.findSome? fun m =>
      (candidatesOf tables m).find? fun c => c.entry.key = k ∧ c.rank = Candidate.importedRank) =
      none := fun ms hms =>
    List.findSome?_eq_none_iff.2 fun m hm => find?_candidatesOf_proper (hms m hm).notImport
  have hwritten : importing declared table overrides =
      (overrides.flatMap fun o => importPart declared table o.2.1 o.2.2) ++
        overrides.map (fun o => .importOf o.1.coordinates) ++ ownEntries declared table := rfl
  have hparts : ∀ m ∈ overrides.flatMap (fun o => importPart declared table o.2.1 o.2.2),
      m.Proper := by
    intro m hm
    obtain ⟨o, ho, hm⟩ := List.mem_flatMap.1 hm
    exact importPart_proper htable hoverrides ho himports hm
  have hown : ∀ m ∈ ownEntries declared table, m.Proper := fun m hm =>
    ownEntries_proper htable himports hm
  rw [List.find?_flatMap, hwritten, List.findSome?_append, List.findSome?_append, hnone _ hparts,
    hnone _ hown, Option.none_or, Option.or_none, List.findSome?_map, latestDefault,
    List.map_findSome?]
  have hmem : ∀ i ∈ Ledger.latestFirst l.imports, i.1 ∈ l.imports := fun i hi =>
    List.mem_of_getElem? (Ledger.mem_latestFirst.1 hi)
  refine (findSome?_eq_of_forall₂
    (((List.forall₂_and_left (p := fun i : Import × Nat => i.1 ∈ l.imports) _ _).2
      ⟨hmem, hoverrides⟩).imp ?_)).symm
  rintro i o ⟨hi, ho, -⟩
  simp only [Function.comp, ho, find?_candidatesOf_importOf, htables _ hi, defaultEntry]

lemma importing_kind (hm : m ∈ importing declared table overrides) :
    m.Proper ∨ ∃ i ∈ l.imports, m = .importOf i.coordinates := by
  rcases List.mem_append.1 hm with hm | hm
  · rcases List.mem_append.1 hm with hm | hm
    · obtain ⟨o, ho, hm⟩ := List.mem_flatMap.1 hm
      exact .inl (importPart_proper htable hoverrides ho himports hm)
    · obtain ⟨o, ho, rfl⟩ := List.mem_map.1 hm
      exact .inr ⟨o.1, List.mem_of_getElem? (changed_of_mem_overrides hoverrides ho).1, rfl⟩
  · exact .inl (ownEntries_proper htable himports hm)

omit himports in
lemma candidate_cases {c : Candidate} (he : e ∈ table)
    (hc : c ∈ (importing declared table overrides).flatMap (candidatesOf tables))
    (hkey : c.entry.key = e.managed.key) :
    c.rank = Candidate.importedRank ∨ c = ⟨0, e.managed⟩ ∧ ¬ Unaltered client l e := by
  obtain ⟨m, hm, hc⟩ := List.mem_flatMap.1 hc
  rw [candidatesOf] at hc
  split_ifs at hc with himport
  · obtain ⟨n, -, rfl⟩ := List.mem_map.1 hc
    exact .inl rfl
  · obtain rfl := List.mem_singleton.1 hc
    obtain ⟨rfl, hunaltered⟩ :=
      eq_of_mem_written htable hoverrides he hkey (by simpa using himport) hm
    exact .inr ⟨rfl, hunaltered⟩

/-- An entry that is not written comes from the latest import that has its key. -/
lemma find?_select_of_unaltered {d : Managed} (he : e ∈ table) (h : Unaltered client l e)
    (htables : ∀ i ∈ l.imports, tables i.coordinates = client.table i.coordinates .empty)
    (hd : latestDefault client l e.managed.key = some d) :
    (Candidate.select ((importing declared table overrides).flatMap
      (candidatesOf tables))).find? (fun m => m.key = e.managed.key) = some d := by
  have hfind := find?_imported htable hoverrides himports declared e.managed.key htables
  rw [hd, Option.map_some] at hfind
  refine Candidate.find?_select (fun c hc hkey => ?_) hfind
  rcases candidate_cases htable hoverrides he hc hkey with hrank | ⟨-, haltered⟩
  · exact Nat.le_of_eq hrank.symm
  · exact absurd h haltered

lemma find?_select_of_altered (he : e ∈ table) (h : ¬ Unaltered client l e) :
    (Candidate.select ((importing declared table overrides).flatMap
      (candidatesOf tables))).find? (fun m => m.key = e.managed.key) = some e.managed := by
  have hproper := Ledger.table_proper himports (htable ▸ he)
  have hmem : (⟨0, e.managed⟩ : Candidate) ∈
      (importing declared table overrides).flatMap (candidatesOf tables) := by
    refine List.mem_flatMap.2 ⟨_, mem_written htable hoverrides he h, ?_⟩
    simp [candidatesOf, hproper.notImport]
  obtain ⟨c, hc⟩ := Option.isSome_iff_exists.1 (List.find?_isSome
    (p := fun c : Candidate => c.entry.key = e.managed.key ∧ c.rank = 0) |>.2 ⟨_, hmem, by simp⟩)
  have hp : c.entry.key = e.managed.key ∧ c.rank = 0 := by
    simpa using List.find?_some hc
  rcases candidate_cases htable hoverrides he (List.mem_of_find?_eq_some hc) hp.1 with
    hrank | ⟨rfl, -⟩
  · rw [hp.2] at hrank
    exact absurd hrank (by decide)
  · exact Candidate.find?_select (fun c _ _ => Nat.zero_le c.rank) hc

/-- **An entry is found again in its version unless it is eclipsed.** -/
theorem find?_select_importing (he : e ∈ table)
    (htables : ∀ i ∈ l.imports, tables i.coordinates = client.table i.coordinates .empty) :
    ∃ m, (Candidate.select ((importing declared table overrides).flatMap
        (candidatesOf tables))).find? (fun m => m.key = e.managed.key) = some m ∧
      (m.version = e.managed.version ↔ ¬ Eclipsed client l e) := by
  by_cases h : Unaltered client l e
  · obtain ⟨d, hd⟩ : ∃ d, latestDefault client l e.managed.key = some d := by
      obtain ⟨i, place, d, -, hi, hd, -⟩ := h
      exact Option.isSome_iff_exists.1 (List.findSome?_isSome_iff.2
        ⟨(i, place), Ledger.mem_latestFirst.2 hi, by simp [hd]⟩)
    refine ⟨d, find?_select_of_unaltered htable hoverrides himports he h htables hd, ?_⟩
    constructor
    · rintro hversion ⟨-, n, hn, hne⟩
      obtain rfl := Option.some.inj (hd.symm.trans hn)
      exact hne hversion
    · intro hneclipsed
      by_contra hversion
      exact hneclipsed ⟨h, d, hd, hversion⟩
  · refine ⟨e.managed, find?_select_of_altered htable hoverrides himports he h, ?_⟩
    exact ⟨fun _ heclipsed => h heclipsed.1, fun _ => rfl⟩

end

/-! ### The published POM -/

variable {p : Plan} {r : Resolver} {w w' : World} {root root' : Node} {entries : List Managed}
  {pub : Coordinates}

/-- **An entry keeps its version just where it is not eclipsed.** The published POM imports the BOMs
as they are without the properties of the project. Every key of the table is found in it, and if it
cannot be resolved, then for the limit on nesting or the check for cycles. -/
theorem resolve_importing (hsettings : p.settings = .customization .standard)
    (hw : Reachable p.resolver w) (halone : StandsAlone root)
    (hconfigure : (p.configure (some root)).result w = .ok (some root'))
    (hentries : (p.entries .importing root).result w = .ok entries)
    (hclean : ∀ m ∈ entries, m.Clean) (hw' : Reachable r w')
    (hserves : Serves r.client pub root')
    (hsame : ∀ i ∈ w.ledger.imports, ∀ d, LeadsTo p.resolver.client i.coordinates .empty d →
      (r.client.search d).result = (p.resolver.client.search d).result) :
    ∃ table, (Ledger.effectiveEntries p.resolver p.current).result w = .ok table ∧
      (∀ found, (r.resolve pub .empty).result w' = .ok found → ∀ e ∈ table,
        ∃ m, found.bom.find? e.managed.key = some m ∧
          (m.version = e.managed.version ↔ ¬ Eclipsed p.resolver.client w.ledger e)) ∧
      (0 < r.maxDepth → ∀ f, (r.resolve pub .empty).result w' = .error f → f.IsNesting) := by
  obtain ⟨hproject, entries', hentries', rfl⟩ :=
    (Plan.configure_eq_ok hsettings).1 hconfigure
  obtain rfl : entries = entries' := Except.ok.inj (hentries.symm.trans hentries')
  obtain ⟨table, htable, -⟩ := Run.exists_of_result_bind hentries
  obtain ⟨heq, himports⟩ := Ledger.effectiveEntries_spec.value hw.holding htable
  obtain ⟨_, ⟨overrides, hoverrides, rfl⟩, hes, -⟩ :=
    managedEntries_spec.value hw.holding hentries
  rw [← heq] at hes
  -- The default tables were looked at to find the changes, so the imports are there to be read.
  have hdefaults : ∀ i ∈ w.ledger.imports, ∃ b,
      AmountsTo p.resolver.client i.coordinates .empty b ∧
        AmountsTo r.client i.coordinates .empty b := by
    intro i hi
    obtain ⟨place, hplace⟩ := List.mem_iff_getElem?.1 hi
    obtain ⟨_, _, _, b, -, hb, -⟩ := exists_mem_overrides hoverrides hplace
    exact ⟨b, hb, hb.transfer (hsame i hi)⟩
  have hkind : ∀ m ∈ entries, m.Proper ∨ ∃ i ∈ w.ledger.imports, m = .importOf i.coordinates :=
    fun m hm => importing_kind heq hoverrides himports (hes ▸ hm)
  have hwritable : ∀ m ∈ entries, Writable m := fun m hm => by
    refine ⟨hclean m hm, (hkind m hm).imp id ?_⟩
    rintro ⟨i, hi, rfl⟩
    refine ⟨_, rfl, fun hnone => hw.settled.versioned i hi ?_⟩
    rw [hnone]
    rfl
  obtain ⟨pom, hreads⟩ := exists_reads hproject halone hclean hserves
  obtain ⟨b, hb, hmanagement⟩ := hreads.exists_amountsTo hwritable fun m hm himport => by
    rcases hkind m hm with hproper | ⟨i, hi, rfl⟩
    · rw [hproper.notImport] at himport
      cases himport
    · obtain ⟨b, -, hb⟩ := hdefaults i hi
      exact ⟨b, hb⟩
  refine ⟨table, htable, fun found hfound e he => ?_, fun hdepth f hf => ?_⟩
  · obtain rfl := (Resolver.amountsTo_of_result hw' hfound).unique hb
    rw [Bom.find?, Key.lookup_eq_find? hb.nodup_keys, hmanagement, hes]
    refine find?_select_importing heq hoverrides himports he fun i hi => ?_
    obtain ⟨b, hb, hb'⟩ := hdefaults i hi
    rw [hb.table_eq, hb'.table_eq]
  · obtain ⟨-, -, hwrong⟩ := Resolver.resolve_spec (r.invariant_holding w'.ledger) hdepth
      (c := pub) (s := .empty) (fun _ _ => trivial) w' hw'.holding
    exact (hwrong f hf b hb).1

/-! ### An eclipsed entry -/

namespace Eclipse

def first : Coordinates := ⟨"g", "a", some "1"⟩

def second : Coordinates := ⟨"g", "b", some "1"⟩

/-- The first BOM has `x:y` in version 1. The second one has it in version 2, but as `x:z` when
`n` is `z`. -/
def documents : List (String × Bytes) :=
  [("g:a:1", Content.octets (.text ("<project><groupId>g</groupId><artifactId>a</artifactId>" ++
      "<version>1</version><dependencyManagement><dependencies><dependency>" ++
      "<groupId>x</groupId><artifactId>y</artifactId><version>1</version></dependency>" ++
      "</dependencies></dependencyManagement></project>"))),
    ("g:b:1", Content.octets (.text ("<project><groupId>g</groupId><artifactId>b</artifactId>" ++
      "<version>1</version><properties><n>y</n></properties><dependencyManagement>" ++
      "<dependencies><dependency><groupId>x</groupId><artifactId>${n}</artifactId>" ++
      "<version>2</version></dependency></dependencies></dependencyManagement></project>")))]

def plan : Plan :=
  ⟨⟨.memory documents, 256, 50⟩, .customization .standard, .ofPairs [("n", some "z")], none⟩

def project : Node :=
  .element ⟨none, "project"⟩ [] [.leaf ⟨none, "groupId"⟩ "g", .leaf ⟨none, "artifactId"⟩ "p",
    .leaf ⟨none, "version"⟩ "1"]

def world : World :=
  (World.start 0).afterAll plan.resolver
    [.importBom none first .empty, .importBom none second .empty]

/-- The entry `x:y` is not written, for the properties leave it as it is. -/
def written : List Managed :=
  [⟨⟨"x", "z", some "2"⟩, none, [], none, none⟩, .importOf second, .importOf first]

/-- The entry that is eclipsed. -/
def entry : Effective := ⟨⟨⟨"x", "y", some "1"⟩, none, [], none, none⟩, .bom 0⟩

def consumer : Resolver :=
  ⟨.memory (documents ++ [("g:p:1",
    Content.octets (.text (Pom.serialize Registry.start (addEntries project written) "").2))]),
    256, 50⟩

def published : Resolution :=
  ⟨2, ⟨⟨"g", "p", some "1"⟩, [⟨⟨"x", "z", some "2"⟩, none, [], none, none⟩,
    ⟨⟨"x", "y", some "2"⟩, none, [], none, none⟩], ∅, ∅⟩⟩

end Eclipse

theorem resolve_eclipsed :
    (Eclipse.consumer.resolve ⟨"g", "p", some "1"⟩ .empty).result (World.start 0) =
        .ok Eclipse.published ∧
      (∃ table, (Ledger.effectiveEntries Eclipse.plan.resolver Eclipse.plan.current).result
        Eclipse.world = .ok table ∧ Eclipse.entry ∈ table) ∧
      (Eclipse.published.bom.find? Eclipse.entry.managed.key).map Managed.version =
        some (some "2") ∧
      Eclipsed Eclipse.plan.resolver.client Eclipse.world.ledger Eclipse.entry := by
  have hentries : (Eclipse.plan.entries .importing Eclipse.project).result Eclipse.world =
      .ok Eclipse.written := Run.result_of_gives (by decide +kernel)
  have hclean : ∀ m ∈ Eclipse.written, m.Clean := by decide
  have halone : StandsAlone Eclipse.project := ⟨by decide, by decide, rfl, rfl, rfl⟩
  have hconfigure : (Eclipse.plan.configure (some Eclipse.project)).result Eclipse.world =
      .ok (some (addEntries Eclipse.project Eclipse.written)) :=
    (Plan.configure_eq_ok rfl).2 ⟨rfl, _, hentries, rfl⟩
  have hserves : Serves Eclipse.consumer.client ⟨"g", "p", some "1"⟩
      (addEntries Eclipse.project Eclipse.written) :=
    serves_of_readsBack Registry.start rfl (by decide +kernel)
  have hw : Reachable Eclipse.plan.resolver Eclipse.world := ⟨0, _, rfl⟩
  have hw' : Reachable Eclipse.consumer (World.start 0) := ⟨0, [], rfl⟩
  have hsame : ∀ i ∈ Eclipse.world.ledger.imports, ∀ d,
      LeadsTo Eclipse.plan.resolver.client i.coordinates .empty d →
      (Eclipse.consumer.client.search d).result =
        (Eclipse.plan.resolver.client.search d).result := by
    intro i hi d hd
    have hcoordinates : Eclipse.world.ledger.imports.map (·.coordinates) =
        [Eclipse.first, Eclipse.second] := by decide +kernel
    have hleaves : ∀ c ∈ [Eclipse.first, Eclipse.second],
        Eclipse.plan.resolver.client.isLeaf c = true := by decide +kernel
    have hi : i.coordinates ∈ [Eclipse.first, Eclipse.second] :=
      hcoordinates ▸ List.mem_map_of_mem hi
    obtain rfl := eq_of_isLeaf (hleaves _ hi) hd
    rcases List.mem_pair.1 hi with h | h <;> rw [h] <;> rfl
  have hfound : (Eclipse.consumer.resolve ⟨"g", "p", some "1"⟩ .empty).result (World.start 0) =
      .ok Eclipse.published := Run.result_of_gives (by decide +kernel)
  have htable : (Ledger.effectiveEntries Eclipse.plan.resolver Eclipse.plan.current).result
      Eclipse.world = .ok [⟨⟨⟨"x", "z", some "2"⟩, none, [], none, none⟩, .bom 1⟩, Eclipse.entry] :=
    Run.result_of_gives (by decide +kernel)
  obtain ⟨table, htable', hversions, -⟩ :=
    resolve_importing rfl hw halone hconfigure hentries hclean hw' hserves hsame
  obtain rfl : _ = table := Except.ok.inj (htable.symm.trans htable')
  have hmem : Eclipse.entry ∈ [⟨⟨⟨"x", "z", some "2"⟩, none, [], none, none⟩, .bom 1⟩,
      Eclipse.entry] := by simp
  have hfind : (Eclipse.published.bom.find? Eclipse.entry.managed.key).map Managed.version =
      some (some "2") := by decide
  obtain ⟨m, hm, hversion⟩ := hversions _ hfound _ hmem
  refine ⟨hfound, ⟨_, htable, hmem⟩, hfind, ?_⟩
  by_contra hneclipsed
  rw [hm, Option.map_some, hversion.2 hneclipsed] at hfind
  exact absurd hfind (by decide)

end BomTable.Publish
