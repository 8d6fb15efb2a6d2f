import BomTable.Proofs.Publish.Extending
import BomTable.Proofs.Resolution.Entries
import Mathlib.Data.List.Nodup

/-!
The entries that are written for a table with what they expand to. An expansion has a key that no
entry of the table has, so entries and expansions together have every key once.
-/

namespace BomTable

/-! ### The table -/

namespace Ledger

variable {client : Client} {l : Ledger} {current : Source} {e : Effective}

lemma overridden_proper {i : Import} {m : Managed} (hm : m ∈ overriddenTable client current i)
    (hi : ∃ b, AmountsTo client i.coordinates (i.propertiesWith current) b) : m.Proper := by
  obtain ⟨b, hb⟩ := hi
  rw [overriddenTable, hb.table_eq] at hm
  exact hb.proper m hm

lemma toManaged_proper (o : Override) : o.toManaged.Proper where
  versioned := Option.some_ne_none o.version
  exclusions := nodup_eraseDups o.exclusions
  notImport := by simp [Managed.isImport, Override.toManaged, Managed.make]

lemma table_proper
    (himports : ∀ i ∈ l.imports,
      ∃ b, AmountsTo client i.coordinates (i.propertiesWith current) b)
    (h : e ∈ l.table (overriddenTable client current)) : e.managed.Proper := by
  rcases mem_table h with ⟨o, place, -, rfl⟩ | ⟨i, place, hi, hm, -⟩
  · exact toManaged_proper o
  · exact overridden_proper hm (himports i (List.mem_of_getElem? hi))

end Ledger

namespace Publish

variable {declared : List Declared} {table : List Effective} {e : Effective} {m n : Managed}
  {k : Key}

/-! ### Expansions -/

lemma hasKey_iff : hasKey table k = true ↔ ∃ e ∈ table, e.managed.key = k := by
  simp [hasKey]

lemma mem_expansions : n ∈ expansions declared table m ↔
    m.classifier = none ∧ hasKey table n.key = false ∧
      ∃ c ∈ classifiersOf declared m.group m.artifact, n = m.withClassifier (some c) := by
  unfold expansions
  cases hc : m.classifier with
  | none =>
    simp only [Option.isSome_none, Bool.false_eq_true, if_false, List.mem_filter, List.mem_map,
      Bool.not_eq_true', true_and]
    constructor
    · rintro ⟨⟨c, hc, rfl⟩, hkey⟩
      exact ⟨hkey, c, hc, rfl⟩
    · rintro ⟨hkey, c, hc, rfl⟩
      exact ⟨⟨c, hc, rfl⟩, hkey⟩
  | some c => simp

lemma expansion_proper (h : m.Proper) (hn : n ∈ expansions declared table m) : n.Proper := by
  obtain ⟨-, -, c, -, rfl⟩ := mem_expansions.1 hn
  exact ⟨h.versioned, h.exclusions, h.notImport⟩

lemma withExpansions_proper (h : m.Proper) (hn : n ∈ withExpansions declared table m) :
    n.Proper := by
  rcases List.mem_cons.1 hn with rfl | hn
  · exact h
  · exact expansion_proper h hn

lemma key_of_mem_expansions (hn : n ∈ expansions declared table m) :
    m.key = ⟨n.key.group, n.key.artifact, none⟩ := by
  obtain ⟨hm, -, c, -, rfl⟩ := mem_expansions.1 hn
  simp [Managed.key, Managed.withClassifier, Managed.group, Managed.artifact, hm]

lemma nodup_keys_expansions : ((expansions declared table m).map Managed.key).Nodup := by
  unfold expansions
  split_ifs
  · exact List.nodup_nil
  · refine List.Nodup.sublist (List.Sublist.map _ List.filter_sublist) ?_
    rw [List.map_map]
    exact (nodup_eraseDups _).map fun c d h => Option.some.inj (congrArg Key.classifier h)

theorem nodup_keys_withExpansions (h : (table.map (·.managed.key)).Nodup) :
    ((table.flatMap fun e => withExpansions declared table e.managed).map Managed.key).Nodup := by
  rw [List.map_flatMap, List.nodup_flatMap]
  constructor
  · intro e he
    rw [withExpansions, List.map_cons, List.nodup_cons]
    refine ⟨fun hk => ?_, nodup_keys_expansions⟩
    obtain ⟨n, hn, hk⟩ := List.mem_map.1 hk
    have hnew := (mem_expansions.1 hn).2.1
    rw [hk, hasKey_iff.2 ⟨e, he, rfl⟩] at hnew
    cases hnew
  · -- A key of two entries is the key of an entry for neither, so both are told by it.
    refine List.Pairwise.imp_of_mem ?_ (List.pairwise_map.1 h)
    intro d e hd he hne k hkd hke
    obtain ⟨m, hm, hmk⟩ := List.mem_map.1 hkd
    obtain ⟨n, hn, hnk⟩ := List.mem_map.1 hke
    rcases List.mem_cons.1 hm with rfl | hm <;> rcases List.mem_cons.1 hn with rfl | hn
    · exact hne (hmk.trans hnk.symm)
    · have hnew := (mem_expansions.1 hn).2.1
      rw [hnk, hasKey_iff.2 ⟨d, hd, hmk⟩] at hnew
      cases hnew
    · have hnew := (mem_expansions.1 hm).2.1
      rw [hmk, hasKey_iff.2 ⟨e, he, hnk⟩] at hnew
      cases hnew
    · refine hne ((key_of_mem_expansions hm).trans ?_)
      rw [hmk, ← hnk]
      exact (key_of_mem_expansions hn).symm

lemma copied_perm :
    (copiedEntries declared table ++ ownEntries declared table).Perm
      (table.flatMap fun e => withExpansions declared table e.managed) := by
  rw [copiedEntries, ownEntries, ← List.flatMap_append]
  exact (List.filter_append_perm _ table).flatMap_right _

end Publish

end BomTable
