import BomTable.Ledger.Effective
import BomTable.Proofs.Resolution.Resolve

/-!
The table of a ledger, found from what the imported BOMs amount to. Every entry of it was brought in
by a record, and no key stands in it twice.
-/

namespace BomTable

/-! ### Keys stand once -/

namespace Effective

variable {table xs ys : List Effective} {e : Effective}

lemma addNew_append : addNew table (xs ++ ys) = addNew (addNew table xs) ys := by
  induction xs generalizing table with
  | nil => rfl
  | cons x xs ih =>
    rw [List.cons_append, addNew, addNew]
    split_ifs <;> exact ih

lemma mem_of_mem_addNew (h : e ∈ addNew table xs) : e ∈ table ∨ e ∈ xs := by
  induction xs generalizing table with
  | nil => exact .inl h
  | cons x xs ih =>
    rw [addNew] at h
    split_ifs at h
    · exact (ih h).imp id (List.mem_cons_of_mem x)
    · rcases ih h with h | h
      · rcases List.mem_append.1 h with h | h
        · exact .inl h
        · exact .inr (List.mem_cons.2 (.inl (List.mem_singleton.1 h)))
      · exact .inr (List.mem_cons_of_mem x h)

lemma nodup_keys_addNew (h : (table.map (·.managed.key)).Nodup) :
    ((addNew table xs).map (·.managed.key)).Nodup := by
  induction xs generalizing table with
  | nil => exact h
  | cons x xs ih =>
    rw [addNew]
    split_ifs with hx
    · exact ih h
    · refine ih ?_
      have hnew : x.managed.key ∉ table.map (·.managed.key) := by
        intro hmem
        obtain ⟨d, hd, hk⟩ := List.mem_map.1 hmem
        exact hx (List.any_eq_true.2 ⟨d, hd, by simpa using hk⟩)
      rw [List.map_append, List.map_singleton, List.nodup_append]
      refine ⟨h, by simp, fun k hk l hl => ?_⟩
      rw [List.mem_singleton.1 hl]
      exact fun heq => hnew (heq ▸ hk)

end Effective

namespace Ledger

/-- All entries that a ledger brings in, where the tables of its imports are known. -/
def brought (l : Ledger) (tables : Import → List Managed) : List Effective :=
  l.ownEntries ++ (latestFirst l.imports).flatMap fun i =>
    (tables i.1).map fun m => ⟨m, .bom i.2⟩

def table (l : Ledger) (tables : Import → List Managed) : List Effective :=
  Effective.addNew [] (l.brought tables)

variable {l : Ledger} {tables : Import → List Managed} {e : Effective}

lemma nodup_keys_table : ((l.table tables).map (·.managed.key)).Nodup :=
  Effective.nodup_keys_addNew List.nodup_nil

lemma mem_latestFirst {α : Type} {records : List α} {a : α × Nat} :
    a ∈ latestFirst records ↔ records[a.2]? = some a.1 := by
  rw [latestFirst, List.mem_reverse, List.mem_zipIdx_iff_getElem?]

lemma mem_table (h : e ∈ l.table tables) :
    (∃ o place, l.overrides[place]? = some o ∧ e = ⟨o.toManaged, .override place⟩) ∨
      ∃ i place, l.imports[place]? = some i ∧ e.managed ∈ tables i ∧ e.origin = .bom place := by
  rcases Effective.mem_of_mem_addNew h with h | h
  · cases h
  · rcases List.mem_append.1 h with h | h
    · obtain ⟨o, ho, rfl⟩ := List.mem_map.1 h
      exact .inl ⟨o.1, o.2, mem_latestFirst.1 ho, rfl⟩
    · obtain ⟨i, hi, h⟩ := List.mem_flatMap.1 h
      obtain ⟨m, hm, rfl⟩ := List.mem_map.1 h
      exact .inr ⟨i.1, i.2, mem_latestFirst.1 hi, hm, rfl⟩

lemma mem_of_origin {i : Import} {place : Nat} (h : e ∈ l.table tables)
    (horigin : e.origin = .bom place) (hi : l.imports[place]? = some i) : e.managed ∈ tables i := by
  rcases mem_table h with ⟨_, _, -, rfl⟩ | ⟨i', place', hi', hm, horigin'⟩
  · cases horigin
  · obtain rfl := Origin.bom.inj (horigin.symm.trans horigin')
    obtain rfl : i = i' := Option.some.inj (hi.symm.trans hi')
    exact hm

/-! ### Finding it -/

variable {r : Resolver} {current : Source}

/-- The table of an import with the current properties. -/
noncomputable def overriddenTable (client : Client) (current : Source) (i : Import) :
    List Managed :=
  client.table i.coordinates (i.propertiesWith current)

lemma current_spec {E : Failure → Prop} :
    Run.Spec (r.Holding l) Ledger.current (fun l' => l' = l) E :=
  Run.Spec.bind (Q := fun w : World => w.ledger = l) (Run.Spec.get fun _ h => h.2)
    fun _ hw => Run.Spec.pure hw

lemma addImports_spec {table : List Effective} {imports : List (Import × Nat)} :
    Run.Spec (r.Holding l) (addImports r current table imports)
      (fun found =>
        found = Effective.addNew table (imports.flatMap fun i =>
          (overriddenTable r.client current i.1).map fun m => ⟨m, .bom i.2⟩) ∧
        ∀ i ∈ imports, ∃ b, AmountsTo r.client i.1.coordinates (i.1.propertiesWith current) b)
      fun _ => True := by
  induction imports generalizing table with
  | nil => exact Run.Spec.pure ⟨rfl, by simp⟩
  | cons i rest ih =>
    refine (Resolver.resolve_gives (r.invariant_holding l) fun _ _ => trivial).bind
      fun found hfound => ih.mono (fun t ht => ?_) fun _ h => h
    obtain ⟨rfl, hrest⟩ := ht
    refine ⟨?_, fun j hj => ?_⟩
    · rw [List.flatMap_cons, Effective.addNew_append, overriddenTable, hfound.table_eq]
    · rcases List.mem_cons.1 hj with rfl | hj
      · exact ⟨_, hfound⟩
      · exact hrest j hj

theorem effectiveEntries_spec :
    Run.Spec (r.Holding l) (effectiveEntries r current)
      (fun found => found = l.table (overriddenTable r.client current) ∧
        ∀ i ∈ l.imports, ∃ b, AmountsTo r.client i.coordinates (i.propertiesWith current) b)
      fun _ => True := by
  have hI := r.invariant_holding l
  refine current_spec.bind fun l' hl => ?_
  subst hl
  refine Run.Spec.timed hI.logged (addImports_spec.mono (fun found h => ?_) fun _ h => h)
  refine ⟨?_, fun i hi => ?_⟩
  · rw [h.1, ← Effective.addNew_append]
    rfl
  · obtain ⟨place, hplace⟩ := List.mem_iff_getElem?.1 hi
    exact h.2 (i, place) (mem_latestFirst.2 hplace)

/-! ### What properties change -/

/-- The entries of an import that properties change, by what the BOM amounts to. -/
def Changed (client : Client) (current : Source) (i : Import) (entries : List Managed) : Prop :=
  ∃ overridden default, AmountsTo client i.coordinates (i.propertiesWith current) overridden ∧
    AmountsTo client i.coordinates .empty default ∧ entries = changes overridden default

/-- The imports, the last recorded first, with what the properties change in them. -/
def Overridden (client : Client) (l : Ledger) (current : Source)
    (overrides : List (Import × Nat × List Managed)) : Prop :=
  List.Forall₂ (fun i o => o.1 = i.1 ∧ o.2.1 = i.2 ∧ Changed client current i.1 o.2.2)
    (latestFirst l.imports) overrides

lemma Overridden.imports_eq {client : Client} {overrides : List (Import × Nat × List Managed)}
    (h : Overridden client l current overrides) :
    overrides.map (fun o => (o.1, o.2.1)) = latestFirst l.imports := by
  have hsame : List.Forall₂ (· = ·) (latestFirst l.imports)
      (overrides.map fun o => (o.1, o.2.1)) :=
    List.forall₂_map_right_iff.2 (h.imp fun i o ho => Prod.ext ho.1.symm ho.2.1.symm)
  rw [List.forall₂_eq_eq_eq] at hsame
  exact hsame.symm

lemma diff_spec {i : Import} :
    Run.Spec (r.Holding l) (diff r i current) (Changed r.client current i) fun _ => True := by
  have hI := r.invariant_holding l
  refine (Resolver.resolve_gives hI fun _ _ => trivial).bind fun overridden ho => ?_
  refine (Resolver.resolve_gives hI fun _ _ => trivial).bind fun default hd => ?_
  have hchanged : Changed r.client current i (changes overridden.bom default.bom) :=
    ⟨_, _, ho, hd, rfl⟩
  dsimp only
  split_ifs
  · exact hI.log.bind fun _ _ => Run.Spec.pure hchanged
  · exact Run.Spec.pure hchanged

lemma propertyOverrides_spec :
    Run.Spec (r.Holding l) (propertyOverrides r current) (Overridden r.client l current)
      fun _ => True := by
  refine current_spec.bind fun l' hl => ?_
  subst hl
  exact Run.Spec.mapM fun i _ => diff_spec.map fun ms hms => ⟨rfl, rfl, hms⟩

end Ledger

end BomTable
