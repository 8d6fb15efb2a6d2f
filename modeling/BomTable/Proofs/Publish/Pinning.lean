import BomTable.Proofs.Ledger.Table
import BomTable.Proofs.Resolution.Entries
import BomTable.Publish.Entries
import Mathlib.Data.List.Nodup

/-!
What is written for imports that are imported again, import by import. A key belongs to the one
record whose entry the table has for it, so no import has to know what was pinned for another: each
writes the changed entries that the table has by it, with what they expand to, and what its other
entries of the table expand to.
-/

namespace BomTable.Publish

/-- The changed entries of an import that are in the table by that import. -/
def pinned (table : List Effective) (place : Nat) (changed : List Managed) : List Managed :=
  changed.filter fun m => table.any fun e => e.managed.key = m.key && e.origin = .bom place

/-- The pinned entries of one import, then what its other entries expand to. -/
def importPart (declared : List Declared) (table : List Effective) (place : Nat)
    (changed : List Managed) : List Managed :=
  let pins := pinned table place changed
  let others := table.filter fun e =>
    e.origin = .bom place && !pins.any fun m => m.key = e.managed.key
  pins.flatMap (withExpansions declared table) ++
    others.flatMap fun e => expansions declared table e.managed

/-- The parts of all imports, then the imports themselves. -/
def importedEntries (declared : List Declared) (table : List Effective)
    (overrides : List (Import × Nat × List Managed)) : List Managed :=
  (overrides.flatMap fun (_, place, changed) => importPart declared table place changed) ++
    overrides.map fun o => .importOf o.1.coordinates

namespace Draft

variable {declared : List Declared} {table : List Effective} {place : Nat} {d : Draft}
  {changed : List Managed} {m : Managed} {k : Key}

/-- The table has the entry of an import for a key. -/
def Holds (table : List Effective) (place : Nat) (k : Key) : Prop :=
  ∃ e ∈ table, e.managed.key = k ∧ e.origin = .bom place

lemma mem_pinned :
    m ∈ Publish.pinned table place changed ↔ m ∈ changed ∧ Holds table place m.key := by
  simp [Publish.pinned, Holds]

section

variable (htable : (table.map (·.managed.key)).Nodup)

include htable

lemma any_lookup_iff : ((Key.lookup (·.managed.key) table k).any fun e => e.origin = .bom place) =
    true ↔ Holds table place k := by
  simp only [Option.any_eq_true, decide_eq_true_eq, Key.lookup_eq_some_iff htable, Holds, and_assoc]

lemma Holds.place_eq {place' : Nat} (h : Holds table place k) (h' : Holds table place' k) :
    place = place' := by
  obtain ⟨e, he, rfl, horigin⟩ := h
  obtain ⟨e', he', hkey, horigin'⟩ := h'
  obtain rfl : e' = e := List.inj_on_of_nodup_map htable he' he hkey
  exact Origin.bom.inj (horigin.symm.trans horigin')

/-- The changed entries of an import are pinned just where the table has them by it. -/
lemma foldl_pin (hchanged : (changed.map Managed.key).Nodup)
    (hnew : ∀ k ∈ d.pinned, ∀ m ∈ changed, Holds table place m.key → m.key ≠ k) :
    changed.foldl (pin declared table place) d =
      ⟨d.entries ++ (Publish.pinned table place changed).flatMap (withExpansions declared table),
        d.pinned ++ (Publish.pinned table place changed).map Managed.key⟩ := by
  -- No key pinned so far is one that the import still has to pin; a new one has left the list.
  induction changed generalizing d with
  | nil => simp [Publish.pinned]
  | cons m rest ih =>
    rw [List.map_cons, List.nodup_cons] at hchanged
    have hrest : ∀ n ∈ rest, n.key ≠ m.key := fun n hn hkey =>
      hchanged.1 (hkey ▸ List.mem_map_of_mem hn)
    by_cases hm : Holds table place m.key
    · have hpin : d.pin declared table place m =
          ⟨d.entries ++ withExpansions declared table m, d.pinned ++ [m.key]⟩ := by
        refine if_pos ⟨(any_lookup_iff htable).2 hm, fun hk => ?_⟩
        exact hnew m.key hk m List.mem_cons_self hm rfl
      have hpinned : Publish.pinned table place (m :: rest) =
          m :: Publish.pinned table place rest := by
        refine List.filter_cons_of_pos ?_
        simpa [Holds] using hm
      rw [List.foldl_cons, hpin, ih hchanged.2 ?_, hpinned]
      · simp
      · intro k hk n hn hheld
        rcases List.mem_append.1 hk with hk | hk
        · exact hnew k hk n (List.mem_cons_of_mem m hn) hheld
        · obtain rfl := List.mem_singleton.1 hk
          exact hrest n hn
    · have hpin : d.pin declared table place m = d :=
        if_neg fun h => hm ((any_lookup_iff htable).1 h.1)
      have hpinned : Publish.pinned table place (m :: rest) = Publish.pinned table place rest := by
        refine List.filter_cons_of_neg ?_
        simpa [Holds] using hm
      rw [List.foldl_cons, hpin, ih hchanged.2 ?_, hpinned]
      exact fun k hk n hn => hnew k hk n (List.mem_cons_of_mem m hn)

end

lemma foldl_expand {es : List Effective} : es.foldl (expand declared table place) d =
    { d with entries := d.entries ++
        (es.filter fun e => e.origin = .bom place ∧ e.managed.key ∉ d.pinned).flatMap fun e =>
          expansions declared table e.managed } := by
  induction es generalizing d with
  | nil => simp
  | cons e rest ih =>
    by_cases he : e.origin = .bom place ∧ e.managed.key ∉ d.pinned
    · have hexpand : d.expand declared table place e =
          { d with entries := d.entries ++ expansions declared table e.managed } := if_pos he
      rw [List.foldl_cons, hexpand, ih, List.filter_cons_of_pos (by simpa using he)]
      simp
    · have hexpand : d.expand declared table place e = d := if_neg he
      rw [List.foldl_cons, hexpand, ih, List.filter_cons_of_neg (by simpa using he)]

/-- **An import is written without regard to what is pinned for others.** -/
lemma addImport_eq {i : Import} (htable : (table.map (·.managed.key)).Nodup)
    (hchanged : (changed.map Managed.key).Nodup)
    (hothers : ∀ k ∈ d.pinned, ¬ Holds table place k) :
    d.addImport declared table (i, place, changed) =
      ⟨d.entries ++ importPart declared table place changed,
        d.pinned ++ (Publish.pinned table place changed).map Managed.key⟩ := by
  have hpins : changed.foldl (pin declared table place) d =
      ⟨d.entries ++ (Publish.pinned table place changed).flatMap (withExpansions declared table),
        d.pinned ++ (Publish.pinned table place changed).map Managed.key⟩ :=
    foldl_pin htable hchanged fun k hk m _ hm hkey => hothers k hk (hkey ▸ hm)
  have hfilter : (table.filter fun e => e.origin = .bom place ∧
      e.managed.key ∉ d.pinned ++ (Publish.pinned table place changed).map Managed.key) =
      table.filter fun e => e.origin = .bom place &&
        !(Publish.pinned table place changed).any fun m => m.key = e.managed.key := by
    -- What other imports have pinned is not what the table has by this one.
    refine List.filter_congr fun e he => ?_
    by_cases horigin : e.origin = .bom place
    · have hnew : e.managed.key ∉ d.pinned := fun hk => hothers _ hk ⟨e, he, rfl, horigin⟩
      rw [Bool.eq_iff_iff]
      simp [horigin, hnew]
    · simp [horigin]
  rw [addImport, hpins, foldl_expand, hfilter, importPart, List.append_assoc]

lemma foldl_addImport {overrides : List (Import × Nat × List Managed)}
    (htable : (table.map (·.managed.key)).Nodup)
    (hchanged : ∀ o ∈ overrides, (o.2.2.map Managed.key).Nodup)
    (hplaces : (overrides.map (·.2.1)).Nodup)
    (hothers : ∀ k ∈ d.pinned, ∀ o ∈ overrides, ¬ Holds table o.2.1 k) :
    (overrides.foldl (addImport declared table) d).entries =
      d.entries ++ overrides.flatMap fun o => importPart declared table o.2.1 o.2.2 := by
  induction overrides generalizing d with
  | nil => simp
  | cons o rest ih =>
    obtain ⟨i, place, changed⟩ := o
    rw [List.map_cons, List.nodup_cons] at hplaces
    rw [List.foldl_cons, addImport_eq htable (hchanged _ List.mem_cons_self)
      fun k hk => hothers k hk _ List.mem_cons_self]
    rw [ih (fun o ho => hchanged o (List.mem_cons_of_mem _ ho)) hplaces.2 fun k hk o ho hheld => ?_]
    · rw [List.flatMap_cons, List.append_assoc]
    · rcases List.mem_append.1 hk with hk | hk
      · exact hothers k hk o (List.mem_cons_of_mem _ ho) hheld
      · obtain ⟨m, hm, rfl⟩ := List.mem_map.1 hk
        obtain rfl : place = o.2.1 := (mem_pinned.1 hm).2.place_eq htable hheld
        exact hplaces.1 (List.mem_map.2 ⟨o, ho, rfl⟩)

end Draft

theorem entries_ofImports {client : Client} {l : Ledger} {current : Source}
    {declared : List Declared} {table : List Effective}
    {overrides : List (Import × Nat × List Managed)}
    (htable : (table.map (·.managed.key)).Nodup)
    (hoverrides : Ledger.Overridden client l current overrides) :
    (Draft.ofImports declared table overrides).entries ++
        (overrides.map fun o => .importOf o.1.coordinates) =
      importedEntries declared table overrides := by
  have hchanged : ∀ o ∈ overrides, (o.2.2.map Managed.key).Nodup := by
    intro o ho
    obtain ⟨i, -, -, -, overridden, default, hb, -, hchanges⟩ :=
      exists_of_forall₂_right hoverrides ho
    rw [hchanges]
    exact hb.nodup_keys.sublist (List.filter_sublist.map Managed.key)
  have hplaces : overrides.map (·.2.1) = (Ledger.latestFirst l.imports).map (·.2) := by
    rw [← hoverrides.imports_eq, List.map_map]
    rfl
  have hnodup : (overrides.map (·.2.1)).Nodup := by
    rw [hplaces, Ledger.latestFirst, List.map_reverse, List.nodup_reverse, List.zipIdx_map_snd]
    exact List.nodup_range'
  rw [Draft.ofImports, Draft.foldl_addImport htable hchanged hnodup (List.forall_mem_nil _)]
  rfl

end BomTable.Publish
