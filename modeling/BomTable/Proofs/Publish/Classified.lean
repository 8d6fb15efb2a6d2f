import BomTable.Proofs.Publish.Altered
import Mathlib.Data.List.Flatten
import Mathlib.Data.List.Perm.Basic

/-!
What is written for the classifiers with which artifacts are declared. An entry of the table may be
left to the imports, but what it expands to never is: up to the order, all that is written is what is
kept of the table and the expansions of all of it. So no key is written twice, and no expansion is
forgotten.
-/

namespace BomTable.Publish

open Xml

/-- What is written for an entry of the table: the entry if it is kept, and what it expands to. -/
def spread (declared : List Declared) (table : List Effective) (keep : Effective → Bool)
    (e : Effective) : List Managed :=
  if keep e then withExpansions declared table e.managed else expansions declared table e.managed

/-- The imports that are written, the last recorded first. -/
def importNodes (l : Ledger) : BomAction → List Managed
  | .importing => (Ledger.latestFirst l.imports).map fun i => .importOf i.1.coordinates
  | .copying => []

/-- A dependency is declared with a classifier, and the table has the artifact without a classifier
but not with this one. -/
structure Expands (declared : List Declared) (table : List Effective) (e : Effective)
    (d : Declared) (c : String) : Prop where
  mem : e ∈ table
  declared : d ∈ declared
  classifier : d.classifier = some c
  nonempty : c ≠ ""
  key : e.managed.key = ⟨d.group, d.artifact, none⟩
  missing : ∀ e' ∈ table, e'.managed.key ≠ ⟨d.group, d.artifact, some c⟩

section

variable {r : Resolver} {client : Client} {l : Ledger} {current : Source}
  {declared : List Declared} {action : BomAction} {table : List Effective}
  {keep : Effective → Bool} {e : Effective} {d : Declared} {c : String} {m : Managed}
  {overrides : List (Import × Nat × List Managed)} {o : Import × Nat × List Managed}
  {defaults : Import → Bom} {w : World} {entries : List Managed}

/-! ### Declared classifiers -/

lemma mem_classifiersOf {group artifact : String} : c ∈ classifiersOf declared group artifact ↔
    ∃ d ∈ declared, d.group = group ∧ d.artifact = artifact ∧ d.classifier = some c ∧ c ≠ "" := by
  rw [classifiersOf, List.mem_eraseDups, List.mem_filterMap]
  refine exists_congr fun d => and_congr_right fun _ => ?_
  constructor
  · intro h
    split_ifs at h with hsame
    exact ⟨hsame.1, hsame.2, eq_of_nonempty? h⟩
  · rintro ⟨hgroup, hartifact, hclassifier, hne⟩
    rw [if_pos ⟨hgroup, hartifact⟩, hclassifier, Text.nonempty?, if_neg hne]

lemma key_withClassifier {group artifact : String} (h : m.key = ⟨group, artifact, none⟩) :
    (m.withClassifier (some c)).key = ⟨group, artifact, some c⟩ := by
  obtain ⟨rfl, rfl, -⟩ := Key.mk.inj h
  rfl

lemma Expands.mem_expansions (h : Expands declared table e d c) :
    e.managed.withClassifier (some c) ∈ expansions declared table e.managed := by
  obtain ⟨hgroup, hartifact, hclassifier⟩ := Key.mk.inj h.key
  have hmissing : hasKey table (e.managed.withClassifier (some c)).key = false := by
    refine Bool.eq_false_iff.2 fun hhas => ?_
    obtain ⟨e', he', hkey⟩ := hasKey_iff.1 hhas
    exact h.missing e' he' (hkey.trans (key_withClassifier h.key))
  exact Publish.mem_expansions.2 ⟨hclassifier, hmissing, c, mem_classifiersOf.2
    ⟨d, h.declared, hgroup.symm, hartifact.symm, h.classifier, h.nonempty⟩, rfl⟩

lemma exists_expands (he : e ∈ table) (hm : m ∈ expansions declared table e.managed) :
    ∃ d c, Expands declared table e d c ∧ m = e.managed.withClassifier (some c) := by
  obtain ⟨hnone, hmissing, c, hc, rfl⟩ := mem_expansions.1 hm
  obtain ⟨d, hd, hgroup, hartifact, hclassifier, hne⟩ := mem_classifiersOf.1 hc
  have hkey : e.managed.key = ⟨d.group, d.artifact, none⟩ := by
    rw [hgroup, hartifact, Managed.key, hnone]
  refine ⟨d, c, ⟨he, hd, hclassifier, hne, hkey, fun e' he' hk => ?_⟩, rfl⟩
  have hhas : hasKey table (e.managed.withClassifier (some c)).key = true :=
    hasKey_iff.2 ⟨e', he', hk.trans (key_withClassifier hkey).symm⟩
  rw [hmissing] at hhas
  cases hhas

/-! ### The table spread out -/

lemma mem_spread : m ∈ spread declared table keep e ↔
    (keep e = true ∧ m = e.managed) ∨ m ∈ expansions declared table e.managed := by
  unfold spread
  split_ifs with hkeep
  · simp [withExpansions, hkeep]
  · simp [hkeep]

lemma flatMap_filter_spread (table : List Effective) {kind : Effective → Bool}
    {f : Effective → List Managed}
    (h : ∀ e, kind e = true → f e = spread declared table keep e) :
    (table.filter kind).flatMap f = (table.filter kind).flatMap (spread declared table keep) :=
  List.flatMap_congr fun e he => h e (List.mem_filter.1 he).2

lemma nodup_keys_spread (h : (table.map (·.managed.key)).Nodup) :
    ((table.flatMap (spread declared table keep)).map Managed.key).Nodup := by
  have hall : ((table.flatMap fun e => withExpansions declared table e.managed).map
      Managed.key).Nodup := nodup_keys_withExpansions h
  refine hall.sublist ((List.Sublist.flatMap_right table fun e _ => ?_).map Managed.key)
  unfold spread
  split_ifs
  · exact List.Sublist.refl _
  · exact List.sublist_cons_self _ _

/-- The table falls into what is altered, what is left to the imports and what is the project's own. -/
lemma partition_perm : (table.filter (·.isAltered l defaults) ++
    (table.filter fun e => !e.isAltered l defaults && e.fromBom) ++
    table.filter fun e => !e.fromBom).Perm table := by
  have hfrom : ∀ e : Effective, e.fromBom = false → e.isAltered l defaults = false := by
    rintro ⟨m, place | place⟩ h
    · rfl
    · cases h
  -- What is left to the imports and what is the project's own are the two parts of what is not
  -- altered.
  have hboms : (table.filter fun e => !e.isAltered l defaults && e.fromBom) =
      (table.filter fun e => !e.isAltered l defaults).filter (·.fromBom) := by
    rw [List.filter_filter]
    exact List.filter_congr fun e _ => Bool.and_comm _ _
  have hown : (table.filter fun e => !e.fromBom) =
      (table.filter fun e => !e.isAltered l defaults).filter fun e => !e.fromBom := by
    rw [List.filter_filter]
    refine List.filter_congr fun e _ => ?_
    cases h : e.fromBom with
    | false => simp [hfrom e h]
    | true => rfl
  rw [hboms, hown, List.append_assoc]
  exact ((List.filter_append_perm _ _).append_left _).trans (List.filter_append_perm _ table)

/-! ### What is written, up to the order -/

section

variable (htable : table = l.table (Ledger.overriddenTable client current))
  (hoverrides : Ledger.Overridden client l current overrides)
  (hdefaults : ∀ i ∈ l.imports, AmountsTo client i.coordinates .empty (defaults i))

include htable hoverrides

lemma exists_override (he : e ∈ table) (hfrom : e.fromBom = true) :
    ∃ o ∈ overrides, e.origin = .bom o.2.1 := by
  rcases Ledger.mem_table (htable ▸ he) with ⟨_, _, -, rfl⟩ | ⟨i, place, hi, -, horigin⟩
  · cases hfrom
  · obtain ⟨changed, ho, -⟩ := exists_mem_overrides hoverrides hi
    exact ⟨_, ho, horigin⟩

lemma grouped_perm (p : Effective → Bool) :
    (overrides.flatMap fun o => table.filter fun e => p e && decide (e.origin = .bom o.2.1)).Perm
      (table.filter fun e => p e && e.fromBom) := by
  have htables : table.Nodup := List.Nodup.of_map _ (htable ▸ Ledger.nodup_keys_table)
  have hplaces : overrides.Pairwise fun o o' => o'.2.1 < o.2.1 := by
    have h := Ledger.pairwise_latestFirst l.imports
    rw [← hoverrides.imports_eq, List.pairwise_map] at h
    exact h
  -- An entry has one origin, so nothing is in two of the groups.
  have hgroups : (overrides.flatMap fun o =>
      table.filter fun e => p e && decide (e.origin = .bom o.2.1)).Nodup := by
    refine List.nodup_flatMap.2 ⟨fun o _ => htables.filter _, hplaces.imp fun {o o'} hlt => ?_⟩
    intro e he he'
    simp only [List.mem_filter, Bool.and_eq_true, decide_eq_true_eq] at he he'
    have heq := Origin.bom.inj (he.2.2.symm.trans he'.2.2)
    omega
  refine (List.perm_ext_iff_of_nodup hgroups (htables.filter _)).2 fun e => ?_
  simp only [List.mem_flatMap, List.mem_filter, Bool.and_eq_true, decide_eq_true_eq]
  constructor
  · rintro ⟨o, -, he, hp, horigin⟩
    exact ⟨he, hp, by rw [Effective.fromBom, horigin]⟩
  · rintro ⟨he, hp, hfrom⟩
    obtain ⟨o, ho, horigin⟩ := exists_override htable hoverrides he hfrom
    exact ⟨o, ho, he, hp, horigin⟩

include hdefaults

lemma exists_pinned_iff (ho : o ∈ overrides) (he : e ∈ table) (horigin : e.origin = .bom o.2.1) :
    (∃ m ∈ pinned table o.2.1 o.2.2, m.key = e.managed.key) ↔ e.isAltered l defaults = true := by
  rw [overrides_eq hoverrides hdefaults] at ho
  obtain ⟨i, hi, rfl⟩ := List.mem_map.1 ho
  have hplace : l.imports[i.2]? = some i.1 := Ledger.mem_latestFirst.1 hi
  have haltered : e.isAltered l defaults = (defaults i.1).differs e.managed := by
    simp [Effective.isAltered, Effective.import?, horigin, hplace]
  have hmem : e.managed ∈ Ledger.overriddenTable client current i.1 :=
    Ledger.mem_of_origin (htable ▸ he) horigin hplace
  rw [haltered]
  constructor
  · rintro ⟨m, hm, hkey⟩
    obtain ⟨hm, hdiffers⟩ := List.mem_filter.1 (Draft.mem_pinned.1 hm).1
    obtain rfl : m = e.managed := List.inj_on_of_nodup_map overridden_nodup_keys hm hmem hkey
    exact hdiffers
  · intro hdiffers
    exact ⟨_, Draft.mem_pinned.2 ⟨List.mem_filter.2 ⟨hmem, hdiffers⟩, e, he, rfl, horigin⟩, rfl⟩

lemma importPart_eq (ho : o ∈ overrides) : importPart declared table o.2.1 o.2.2 =
    (pinned table o.2.1 o.2.2).flatMap (withExpansions declared table) ++
      (table.filter fun e => !e.isAltered l defaults && decide (e.origin = .bom o.2.1)).flatMap
        fun e => expansions declared table e.managed := by
  have hothers : (table.filter fun e => e.origin = .bom o.2.1 &&
      !(pinned table o.2.1 o.2.2).any fun m => m.key = e.managed.key) =
      table.filter fun e => !e.isAltered l defaults && decide (e.origin = .bom o.2.1) := by
    refine List.filter_congr fun e he => ?_
    by_cases horigin : e.origin = .bom o.2.1
    · have hpinned : ((pinned table o.2.1 o.2.2).any fun m => decide (m.key = e.managed.key)) =
          e.isAltered l defaults := by
        rw [Bool.eq_iff_iff, ← exists_pinned_iff htable hoverrides hdefaults ho he horigin]
        simp
      simp [horigin, hpinned]
    · simp [horigin]
  rw [importPart, hothers]

/-- What is written for all imports is what is altered, and what the whole of their tables expands
to. -/
lemma importParts_perm : (overrides.flatMap fun o => importPart declared table o.2.1 o.2.2).Perm
    ((table.filter (·.isAltered l defaults)).flatMap
        (fun e => withExpansions declared table e.managed) ++
      (table.filter fun e => !e.isAltered l defaults && e.fromBom).flatMap
        fun e => expansions declared table e.managed) := by
  rw [List.flatMap_congr fun o ho => importPart_eq htable hoverrides hdefaults ho]
  refine (List.flatMap_append_perm _ _ _).symm.trans ?_
  rw [← List.flatMap_assoc, ← List.flatMap_assoc, flatMap_pinned htable hoverrides hdefaults,
    List.flatMap_map]
  exact (((grouped_perm htable hoverrides _).flatMap_right _).append_left _)

theorem importing_perm : ((overrides.flatMap fun o => importPart declared table o.2.1 o.2.2) ++
    ownEntries declared table).Perm
      (table.flatMap (spread declared table fun e => e.isAltered l defaults || !e.fromBom)) := by
  let keep : Effective → Bool := fun e => e.isAltered l defaults || !e.fromBom
  have haltered := flatMap_filter_spread table
    (fun e (h : e.isAltered l defaults = true) =>
      show withExpansions declared table e.managed = spread declared table keep e by
        simp [spread, keep, h])
  have hleft := flatMap_filter_spread table
    (fun e (h : (!e.isAltered l defaults && e.fromBom) = true) =>
      show expansions declared table e.managed = spread declared table keep e by
        simp only [Bool.and_eq_true, Bool.not_eq_true'] at h
        simp [spread, keep, h])
  have hown := flatMap_filter_spread table
    (fun e (h : (!e.fromBom) = true) =>
      show withExpansions declared table e.managed = spread declared table keep e by
        simp [spread, keep, h])
  refine ((importParts_perm htable hoverrides hdefaults).append_right _).trans ?_
  rw [ownEntries, haltered, hleft, hown, ← List.flatMap_append, ← List.flatMap_append]
  exact partition_perm.flatMap_right _

end

/-! ### Imports and what is written besides -/

lemma filter_isImportNode {before nodes after : List Managed} (hbefore : ∀ m ∈ before, m.Proper)
    (hnodes : ∀ m ∈ nodes, isImportNode l m = true) (hafter : ∀ m ∈ after, m.Proper) :
    (before ++ nodes ++ after).filter (isImportNode l) = nodes ∧
      ((before ++ nodes ++ after).filter fun m => !isImportNode l m) = before ++ after := by
  have hproper : ∀ {ms : List Managed}, (∀ m ∈ ms, m.Proper) →
      ms.filter (isImportNode l) = [] ∧ (ms.filter fun m => !isImportNode l m) = ms := by
    intro ms hms
    have hfalse : ∀ m ∈ ms, isImportNode l m = false := fun m hm =>
      isImportNode_of_proper (hms m hm)
    refine ⟨List.filter_eq_nil_iff.2 fun m hm => ?_, List.filter_eq_self.2 fun m hm => ?_⟩
    · rw [hfalse m hm]
      exact Bool.false_ne_true
    · rw [hfalse m hm, Bool.not_false]
  have hall : (nodes.filter fun m => !isImportNode l m) = [] :=
    List.filter_eq_nil_iff.2 fun m hm => by simp [hnodes m hm]
  constructor
  · rw [List.filter_append, List.filter_append, (hproper hbefore).1, (hproper hafter).1,
      List.filter_eq_self.2 hnodes, List.nil_append, List.append_nil]
  · rw [List.filter_append, List.filter_append, (hproper hbefore).2, (hproper hafter).2, hall,
      List.append_nil]

/-- **Besides the imports, what is written is the table spread out.** -/
theorem Written.perm (htable : table = l.table (Ledger.overriddenTable client current))
    (h : Written client l current declared action entries) :
    entries.filter (isImportNode l) = importNodes l action ∧
      ∃ keep, (entries.filter fun m => !isImportNode l m).Perm
        (table.flatMap (spread declared table keep)) := by
  obtain ⟨fromBoms, hfrom, rfl, himports⟩ := h
  rw [← htable] at hfrom ⊢
  have hown : ∀ m ∈ ownEntries declared table, m.Proper := fun m hm =>
    ownEntries_proper htable himports hm
  cases action with
  | copying =>
    obtain rfl : fromBoms = copiedEntries declared table := hfrom
    have hcopied : ∀ m ∈ copiedEntries declared table, m.Proper := by
      intro m hm
      obtain ⟨e, he, hm⟩ := List.mem_flatMap.1 hm
      exact withExpansions_proper
        (Ledger.table_proper himports (htable ▸ (List.mem_filter.1 he).1)) hm
    have hfilter := @filter_isImportNode l _ [] _ hcopied (List.forall_mem_nil _) hown
    rw [List.append_nil] at hfilter
    refine ⟨hfilter.1, fun _ => true, ?_⟩
    rw [hfilter.2]
    exact copied_perm
  | importing =>
    obtain ⟨overrides, hoverrides, rfl⟩ := hfrom
    obtain ⟨defaults, hdefaults⟩ := exists_defaults hoverrides
    have hparts : ∀ m ∈ overrides.flatMap fun o => importPart declared table o.2.1 o.2.2,
        m.Proper := by
      intro m hm
      obtain ⟨o, ho, hm⟩ := List.mem_flatMap.1 hm
      exact importPart_proper htable hoverrides ho himports hm
    have hnodes : ∀ m ∈ overrides.map fun o => Managed.importOf o.1.coordinates,
        isImportNode l m = true := by
      intro m hm
      obtain ⟨o, ho, rfl⟩ := List.mem_map.1 hm
      exact isImportNode_importOf
        (List.mem_of_getElem? (changed_of_mem_overrides hoverrides ho).1)
    obtain ⟨himported, hrest⟩ := filter_isImportNode hparts hnodes hown
    rw [importedEntries]
    refine ⟨himported.trans ?_, fun e => e.isAltered l defaults || !e.fromBom, ?_⟩
    · rw [importNodes, ← hoverrides.imports_eq, List.map_map]
      rfl
    · rw [hrest]
      exact importing_perm htable hoverrides hdefaults

lemma Written.exists_entry (htable : table = l.table (Ledger.overriddenTable client current))
    (h : Written client l current declared action entries) (hm : m ∈ entries) :
    (∃ i ∈ l.imports, m = .importOf i.coordinates) ∨
      ∃ e ∈ table, m = e.managed ∨ m ∈ expansions declared table e.managed := by
  obtain ⟨-, keep, hperm⟩ := h.perm htable
  cases hnode : isImportNode l m with
  | true =>
    obtain ⟨i, hi, hsame⟩ := List.any_eq_true.1 hnode
    exact .inl ⟨i, hi, of_decide_eq_true hsame⟩
  | false =>
    have hmem : m ∈ entries.filter fun m => !isImportNode l m :=
      List.mem_filter.2 ⟨hm, by rw [hnode, Bool.not_false]⟩
    obtain ⟨e, he, hm⟩ := List.mem_flatMap.1 (hperm.subset hmem)
    exact .inr ⟨e, he, (mem_spread.1 hm).imp And.right id⟩

lemma filter_key_of_classified {k : Key} (hk : k.classifier ≠ none) :
    (entries.filter fun m => m.key = k) =
      (entries.filter fun m => !isImportNode l m).filter fun m => m.key = k := by
  rw [List.filter_filter]
  refine List.filter_congr fun m _ => ?_
  by_cases hm : m.key = k
  · have hnode : isImportNode l m = false := by
      refine List.any_eq_false.2 fun i _ => ?_
      rw [decide_eq_true_eq]
      rintro rfl
      exact hk (hm ▸ rfl)
    simp [hm, hnode]
  · simp [hm]

lemma filter_key_eq_singleton {ms : List Managed} (h : (ms.map Managed.key).Nodup) (hm : m ∈ ms) :
    (ms.filter fun n => n.key = m.key) = [m] := by
  have hnodup : ms.Nodup := List.Nodup.of_map _ h
  refine List.perm_singleton.1 ((List.perm_ext_iff_of_nodup (hnodup.filter _)
    (List.nodup_singleton m)).2 fun n => ?_)
  rw [List.mem_filter, decide_eq_true_eq, List.mem_singleton]
  constructor
  · rintro ⟨hn, hkey⟩
    exact List.inj_on_of_nodup_map h hn hm hkey
  · rintro rfl
    exact ⟨hm, rfl⟩

/-- **Classifiers are completed, and nothing is written twice.** Besides the imports no key is written
twice. For every declared classifier that the table has no entry for, just one entry is written, that
of the artifact with the classifier put in. Other entries with a classifier are those of the table. -/
theorem managedEntries_classified (hw : Reachable r w)
    (h : (managedEntries r action current declared).result w = .ok entries) :
    ∃ table, (Ledger.effectiveEntries r current).result w = .ok table ∧
      entries.filter (isImportNode w.ledger) = importNodes w.ledger action ∧
      ((entries.filter fun m => !isImportNode w.ledger m).map Managed.key).Nodup ∧
      (∀ e d c, Expands declared table e d c →
        (entries.filter fun m => m.key = ⟨d.group, d.artifact, some c⟩) =
          [e.managed.withClassifier (some c)]) ∧
      ∀ m ∈ entries, m.classifier ≠ none →
        (∃ e ∈ table, e.managed = m) ∨
          ∃ e d c, Expands declared table e d c ∧ m = e.managed.withClassifier (some c) := by
  obtain ⟨table, htable, -⟩ := Run.exists_of_result_bind h
  obtain ⟨heq, -⟩ := Ledger.effectiveEntries_spec.value hw.holding htable
  have hwritten : Written r.client w.ledger current declared action entries :=
    managedEntries_spec.value hw.holding h
  obtain ⟨hnodes, keep, hperm⟩ := hwritten.perm heq
  have hkeys : ((entries.filter fun m => !isImportNode w.ledger m).map Managed.key).Nodup :=
    (hperm.map Managed.key).nodup_iff.2 (nodup_keys_spread (heq ▸ Ledger.nodup_keys_table))
  refine ⟨table, htable, hnodes, hkeys, fun e d c hexpands => ?_, fun m hm hclassifier => ?_⟩
  · have hmem : e.managed.withClassifier (some c) ∈
        entries.filter fun m => !isImportNode w.ledger m :=
      hperm.mem_iff.2 (List.mem_flatMap.2
        ⟨e, hexpands.mem, mem_spread.2 (.inr hexpands.mem_expansions)⟩)
    -- Imports have no classifier, so they may be left out.
    rw [← key_withClassifier hexpands.key, @filter_key_of_classified w.ledger _ _ (Option.some_ne_none c)]
    exact filter_key_eq_singleton hkeys hmem
  · rcases hwritten.exists_entry heq hm with ⟨i, -, rfl⟩ | ⟨e, he, rfl | hm⟩
    · exact absurd rfl hclassifier
    · exact .inl ⟨e, he, rfl⟩
    · obtain ⟨d, c, hexpands, rfl⟩ := exists_expands he hm
      exact .inr ⟨e, d, c, hexpands, rfl⟩

end

/-- The sources of `x:s` are written, though `x:s` itself is left to the import. -/
theorem managedEntries_shared_classified :
    (managedEntries Shared.resolver .importing Shared.current Shared.declared).result Shared.world =
        .ok Shared.written ∧
      Shared.written.filter (isImportNode Shared.world.ledger) =
        importNodes Shared.world.ledger .importing ∧
      ((Shared.written.filter fun m => !isImportNode Shared.world.ledger m).map
        Managed.key).Nodup ∧
      (Shared.written.filter fun m => m.key = ⟨"x", "s", some "sources"⟩) =
        [Shared.entry "s" "1" (some "sources")] := by
  have hw : Reachable Shared.resolver Shared.world := ⟨0, _, rfl⟩
  obtain ⟨table, htable, hnodes, hkeys, hexpands, -⟩ :=
    managedEntries_classified hw Shared.result_written
  obtain rfl : Shared.table = table := Except.ok.inj (Shared.result_table.symm.trans htable)
  have hsources : Expands Shared.declared Shared.table ⟨Shared.entry "s" "1" none, .bom 2⟩
      ⟨"x", "s", some "sources", none, none⟩ "sources" :=
    ⟨by decide, by decide, rfl, by decide, rfl, by decide⟩
  exact ⟨Shared.result_written, hnodes, hkeys, hexpands _ _ _ hsources⟩

end BomTable.Publish
