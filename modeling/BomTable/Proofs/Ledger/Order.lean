import BomTable.Proofs.Ledger.Table
import Mathlib.Data.List.Nodup

/-!
Which entries stand in the table of a ledger, and in which order. A version of the project's own
wins over all imports, and of several the last recorded one; else the import that was recorded last
wins. The winners stand in the order in which they are asked for: own versions first, the last
recorded first, then the imports, the last recorded first, each in the order of its table. There is
no other table of which this is true.
-/

namespace BomTable

/-! ### Keeping the first of each key -/

namespace Effective

variable {table xs : List Effective} {e : Effective} {k : Key}

lemma exists_addNew (table xs : List Effective) :
    ∃ new, addNew table xs = table ++ new ∧ new.Sublist xs := by
  induction xs generalizing table with
  | nil => exact ⟨[], by simp [addNew], List.Sublist.slnil⟩
  | cons x xs ih =>
    rw [addNew]
    split_ifs
    · obtain ⟨new, hnew, hsub⟩ := ih table
      exact ⟨new, hnew, hsub.cons x⟩
    · obtain ⟨new, hnew, hsub⟩ := ih (table ++ [x])
      exact ⟨x :: new, by rw [hnew, List.append_assoc, List.singleton_append], hsub.cons_cons x⟩

lemma sublist_addNew : (addNew [] xs).Sublist xs := by
  obtain ⟨new, hnew, hsub⟩ := exists_addNew [] xs
  rw [hnew]
  exact hsub

lemma mem_addNew_of_mem (h : e ∈ table) : e ∈ addNew table xs := by
  obtain ⟨new, hnew, -⟩ := exists_addNew table xs
  rw [hnew]
  exact List.mem_append_left new h

lemma mem_keys_addNew :
    k ∈ (addNew table xs).map (·.managed.key) ↔
      k ∈ table.map (·.managed.key) ∨ k ∈ xs.map (·.managed.key) := by
  induction xs generalizing table with
  | nil => simp [addNew]
  | cons x xs ih =>
    rw [addNew]
    split_ifs with hx
    · have hold : x.managed.key ∈ table.map (·.managed.key) := by
        obtain ⟨d, hd, hk⟩ := List.any_eq_true.1 hx
        exact List.mem_map.2 ⟨d, hd, by simpa using hk⟩
      rw [ih, List.map_cons, List.mem_cons]
      refine ⟨fun h => h.imp id .inr, fun h => ?_⟩
      rcases h with h | rfl | h
      · exact .inl h
      · exact .inl hold
      · exact .inr h
    · rw [ih, List.map_append, List.map_singleton, List.mem_append, List.mem_singleton,
        List.map_cons, List.mem_cons, or_assoc]

lemma mem_addNew_of_first {front back : List Effective}
    (htable : ∀ d ∈ table, d.managed.key ≠ e.managed.key)
    (hfront : ∀ d ∈ front, d.managed.key ≠ e.managed.key) :
    e ∈ addNew table (front ++ e :: back) := by
  induction front generalizing table with
  | nil =>
    have hnew : ¬ (table.any fun d => d.managed.key = e.managed.key) = true := by
      simpa using htable
    rw [List.nil_append, addNew, if_neg hnew]
    exact mem_addNew_of_mem (List.mem_append_right table (List.mem_singleton_self e))
  | cons d front ih =>
    have hrest : ∀ x ∈ front, x.managed.key ≠ e.managed.key := fun x hx =>
      hfront x (List.mem_cons_of_mem d hx)
    rw [List.cons_append, addNew]
    split_ifs
    · exact ih htable hrest
    · refine ih (fun x hx => ?_) hrest
      rcases List.mem_append.1 hx with hx | hx
      · exact htable x hx
      · obtain rfl := List.mem_singleton.1 hx
        exact hfront x List.mem_cons_self

/-- An entry that is kept was there before, or it is the first one with its key. -/
lemma exists_first_of_mem_addNew (h : e ∈ addNew table xs) :
    e ∈ table ∨ (∀ d ∈ table, d.managed.key ≠ e.managed.key) ∧
      ∃ front back, xs = front ++ e :: back ∧ ∀ d ∈ front, d.managed.key ≠ e.managed.key := by
  induction xs generalizing table with
  | nil => exact .inl h
  | cons x xs ih =>
    rw [addNew] at h
    split_ifs at h with hx
    · rcases ih h with h | ⟨hnew, front, back, rfl, hfirst⟩
      · exact .inl h
      · obtain ⟨d, hd, hkey⟩ := List.any_eq_true.1 hx
        have hx : x.managed.key ≠ e.managed.key := of_decide_eq_true hkey ▸ hnew d hd
        exact .inr ⟨hnew, x :: front, back, rfl, List.forall_mem_cons.2 ⟨hx, hfirst⟩⟩
    · have hx : ∀ d ∈ table, d.managed.key ≠ x.managed.key := by simpa using hx
      rcases ih h with h | ⟨hnew, front, back, rfl, hfirst⟩
      · rcases List.mem_append.1 h with h | h
        · exact .inl h
        · obtain rfl := List.mem_singleton.1 h
          exact .inr ⟨hx, [], xs, rfl, List.forall_mem_nil _⟩
      · obtain ⟨hnew, hlast⟩ := List.forall_mem_append.1 hnew
        have hx : x.managed.key ≠ e.managed.key := hlast x (List.mem_singleton_self x)
        exact .inr ⟨hnew, x :: front, back, rfl, List.forall_mem_cons.2 ⟨hx, hfirst⟩⟩

lemma mem_addNew_of_pairwise {R : Effective → Effective → Prop} (hR : xs.Pairwise R) (he : e ∈ xs)
    (hfirst : ∀ d ∈ xs, R d e → d.managed.key ≠ e.managed.key) : e ∈ addNew [] xs := by
  obtain ⟨front, back, rfl⟩ := List.append_of_mem he
  refine mem_addNew_of_first (fun d hd => nomatch hd) fun d hd => ?_
  exact hfirst d (List.mem_append_left _ hd)
    ((List.pairwise_append.1 hR).2.2 d hd e List.mem_cons_self)

end Effective

namespace Ledger

variable {l : Ledger} {tables : Import → List Managed}

/-! ### The order of the table -/

/-- One entry stands before another: own versions before imports, later records before earlier ones,
and entries of one import as in its table. -/
def Precedes (l : Ledger) (tables : Import → List Managed) (a b : Effective) : Prop :=
  match a.origin, b.origin with
  | .override place, .override place' => place' < place
  | .override _, .bom _ => True
  | .bom _, .override _ => False
  | .bom place, .bom place' =>
    place' < place ∨ place = place' ∧
      ∃ i, l.imports[place]? = some i ∧ [a.managed, b.managed].Sublist (tables i)

lemma pairwise_latestFirst {α : Type} (records : List α) :
    (latestFirst records).Pairwise fun a b => b.2 < a.2 := by
  rw [latestFirst, List.pairwise_reverse]
  have hplaces : (records.zipIdx.map (·.2)).Pairwise (· < ·) := by
    rw [List.zipIdx_map_snd]
    exact List.pairwise_lt_range'
  exact List.pairwise_map.1 hplaces

lemma mem_ownEntries {e : Effective} :
    e ∈ l.ownEntries ↔ ∃ place o, l.overrides[place]? = some o ∧
      e = ⟨o.toManaged, .override place⟩ := by
  rw [ownEntries, List.mem_map]
  constructor
  · rintro ⟨⟨o, place⟩, ho, rfl⟩
    exact ⟨place, o, mem_latestFirst.1 ho, rfl⟩
  · rintro ⟨place, o, ho, rfl⟩
    exact ⟨(o, place), mem_latestFirst.2 ho, rfl⟩

lemma mem_importedEntries {e : Effective} :
    (e ∈ (latestFirst l.imports).flatMap fun i => (tables i.1).map fun m => ⟨m, .bom i.2⟩) ↔
      ∃ place i m, l.imports[place]? = some i ∧ m ∈ tables i ∧ e = ⟨m, .bom place⟩ := by
  rw [List.mem_flatMap]
  constructor
  · rintro ⟨⟨i, place⟩, hi, he⟩
    obtain ⟨m, hm, rfl⟩ := List.mem_map.1 he
    exact ⟨place, i, m, mem_latestFirst.1 hi, hm, rfl⟩
  · rintro ⟨place, i, m, hi, hm, rfl⟩
    exact ⟨(i, place), mem_latestFirst.2 hi, List.mem_map_of_mem hm⟩

lemma mem_brought {e : Effective} :
    e ∈ l.brought tables ↔
      (∃ place o, l.overrides[place]? = some o ∧ e = ⟨o.toManaged, .override place⟩) ∨
      ∃ place i m, l.imports[place]? = some i ∧ m ∈ tables i ∧ e = ⟨m, .bom place⟩ := by
  rw [brought, List.mem_append, mem_ownEntries, mem_importedEntries]

lemma pairwise_brought : (l.brought tables).Pairwise (l.Precedes tables) := by
  refine List.pairwise_append.2 ⟨?_, ?_, fun a ha b hb => ?_⟩
  · exact List.pairwise_map.2 ((pairwise_latestFirst l.overrides).imp fun h => h)
  · refine List.pairwise_flatMap.2 ⟨fun i hi => ?_, ?_⟩
    · refine List.pairwise_map.2 (List.pairwise_iff_forall_sublist.2 fun hsub => ?_)
      exact .inr ⟨rfl, i.1, mem_latestFirst.1 hi, hsub⟩
    · refine (pairwise_latestFirst l.imports).imp fun {i j} hij a ha b hb => ?_
      obtain ⟨m, -, rfl⟩ := List.mem_map.1 ha
      obtain ⟨m', -, rfl⟩ := List.mem_map.1 hb
      exact .inl hij
  · obtain ⟨place, o, -, rfl⟩ := mem_ownEntries.1 ha
    obtain ⟨place', i, m, -, -, rfl⟩ := mem_importedEntries.1 hb
    trivial

/-! ### The entries of the table -/

/-- Entries are the table of a ledger whose imports have these tables. -/
structure Describes (l : Ledger) (tables : Import → List Managed) (entries : List Effective) :
    Prop where
  /-- No key stands twice. -/
  nodup : (entries.map (·.managed.key)).Nodup
  /-- There is an entry for each key that a record asks for, and for no other. -/
  covers : ∀ k, k ∈ entries.map (·.managed.key) ↔
    (∃ o ∈ l.overrides, k = ⟨o.group, o.artifact, none⟩) ∨
      ∃ i ∈ l.imports, k ∈ (tables i).map Managed.key
  /-- Of the versions recorded for an artifact the last one stands in the table. -/
  ofOverride : ∀ place o, l.overrides[place]? = some o →
    (∀ later o', place < later → l.overrides[later]? = some o' →
      ¬ (o'.group = o.group ∧ o'.artifact = o.artifact)) →
    ⟨o.toManaged, .override place⟩ ∈ entries
  /-- An entry of an import stands in the table, unless a version is recorded for its key or the
  key is in an import recorded later. -/
  ofImport : ∀ place i m, l.imports[place]? = some i → m ∈ tables i →
    (∀ o ∈ l.overrides, m.key ≠ ⟨o.group, o.artifact, none⟩) →
    (∀ later i', place < later → l.imports[later]? = some i' →
      m.key ∉ (tables i').map Managed.key) →
    ⟨m, .bom place⟩ ∈ entries
  ordered : entries.Pairwise (l.Precedes tables)

lemma key_toManaged (o : Override) : o.toManaged.key = ⟨o.group, o.artifact, none⟩ := rfl

lemma mem_keys_brought {k : Key} :
    k ∈ (l.brought tables).map (·.managed.key) ↔
      (∃ o ∈ l.overrides, k = ⟨o.group, o.artifact, none⟩) ∨
        ∃ i ∈ l.imports, k ∈ (tables i).map Managed.key := by
  rw [List.mem_map]
  constructor
  · rintro ⟨e, he, rfl⟩
    rcases mem_brought.1 he with ⟨place, o, ho, rfl⟩ | ⟨place, i, m, hi, hm, rfl⟩
    · exact .inl ⟨o, List.mem_of_getElem? ho, key_toManaged o⟩
    · exact .inr ⟨i, List.mem_of_getElem? hi, List.mem_map_of_mem hm⟩
  · rintro (⟨o, ho, rfl⟩ | ⟨i, hi, hk⟩)
    · obtain ⟨place, hplace⟩ := List.mem_iff_getElem?.1 ho
      exact ⟨_, mem_brought.2 (.inl ⟨place, o, hplace, rfl⟩), key_toManaged o⟩
    · obtain ⟨place, hplace⟩ := List.mem_iff_getElem?.1 hi
      obtain ⟨m, hm, rfl⟩ := List.mem_map.1 hk
      exact ⟨⟨m, .bom place⟩, mem_brought.2 (.inr ⟨place, i, m, hplace, hm, rfl⟩), rfl⟩

lemma key_ne_of_sublist {ms : List Managed} {m m' : Managed} (h : (ms.map Managed.key).Nodup)
    (hsub : [m, m'].Sublist ms) : m.key ≠ m'.key := by
  have hkeys : [m.key, m'.key].Nodup := h.sublist (hsub.map Managed.key)
  simpa using hkeys

/-- **What stands in the table of a ledger.** -/
theorem describes_table (htables : ∀ i ∈ l.imports, ((tables i).map Managed.key).Nodup) :
    l.Describes tables (l.table tables) where
  nodup := nodup_keys_table
  covers := by
    intro k
    rw [table, Effective.mem_keys_addNew, mem_keys_brought]
    simp
  ofOverride := by
    intro place o ho hlast
    refine Effective.mem_addNew_of_pairwise pairwise_brought
      (mem_brought.2 (.inl ⟨place, o, ho, rfl⟩)) fun d hd hprecedes => ?_
    rcases mem_brought.1 hd with ⟨later, o', ho', rfl⟩ | ⟨_, _, _, _, _, rfl⟩
    · rw [key_toManaged, key_toManaged]
      intro hkey
      obtain ⟨hgroup, hartifact, -⟩ := Key.mk.inj hkey
      exact hlast later o' hprecedes ho' ⟨hgroup, hartifact⟩
    · exact hprecedes.elim
  ofImport := by
    intro place i m hi hm hown hlast
    refine Effective.mem_addNew_of_pairwise pairwise_brought
      (mem_brought.2 (.inr ⟨place, i, m, hi, hm, rfl⟩)) fun d hd hprecedes => ?_
    rcases mem_brought.1 hd with ⟨_, o, ho, rfl⟩ | ⟨later, i', m', hi', hm', rfl⟩
    · exact fun hkey => hown o (List.mem_of_getElem? ho) (hkey.symm.trans (key_toManaged o))
    · rcases hprecedes with hlater | ⟨-, j, hj, hsub⟩
      · exact fun hkey => hlast later i' hlater hi' (hkey ▸ List.mem_map_of_mem hm')
      · exact key_ne_of_sublist (htables j (List.mem_of_getElem? hj)) hsub
  ordered := pairwise_brought.sublist Effective.sublist_addNew

/-! ### The description is complete -/

lemma not_sublist_swap {α : Type} {a b : α} {xs : List α} (hxs : xs.Nodup)
    (h : [a, b].Sublist xs) : ¬ [b, a].Sublist xs := by
  induction xs with
  | nil => cases h
  | cons x xs ih =>
    obtain ⟨hx, hnodup⟩ := List.nodup_cons.1 hxs
    intro h'
    cases h with
    | cons _ h =>
      cases h' with
      | cons _ h' => exact ih hnodup h h'
      | cons_cons _ h' => exact hx (h.subset (by simp))
    | cons_cons _ h =>
      have hb : b ∈ xs := h.subset (List.mem_singleton_self b)
      cases h' with
      | cons _ h' => exact hx (h'.subset (by simp))
      | cons_cons _ h' => exact hx hb

lemma not_precedes_swap (htables : ∀ i ∈ l.imports, ((tables i).map Managed.key).Nodup)
    {a b : Effective} (h : l.Precedes tables a b) : ¬ l.Precedes tables b a := by
  intro h'
  obtain ⟨m, place | place⟩ := a <;> obtain ⟨m', place' | place'⟩ := b
  · exact Nat.lt_asymm h h'
  · exact h'
  · exact h
  · rcases h with hlt | ⟨rfl, i, hi, hsub⟩ <;> rcases h' with hlt' | ⟨hplaces, i', hi', hsub'⟩
    · exact Nat.lt_asymm hlt hlt'
    · omega
    · exact Nat.lt_irrefl _ hlt'
    · obtain rfl : i = i' := Option.some.inj (hi.symm.trans hi')
      have hnodup : (tables i).Nodup := List.Nodup.of_map _ (htables i (List.mem_of_getElem? hi))
      exact not_sublist_swap hnodup hsub hsub'

lemma nodup_brought (htables : ∀ i ∈ l.imports, ((tables i).map Managed.key).Nodup) :
    (l.brought tables).Nodup := by
  refine pairwise_brought.imp fun {a b} hprecedes heq => ?_
  subst heq
  exact not_precedes_swap htables hprecedes hprecedes

/-- The table is what it keeps of the entries that are brought in. -/
lemma filter_brought (htables : ∀ i ∈ l.imports, ((tables i).map Managed.key).Nodup) :
    (l.brought tables).filter (· ∈ l.table tables) = l.table tables := by
  have hsub : (l.table tables).Sublist (l.brought tables) := Effective.sublist_addNew
  have hnodup : (l.brought tables).Nodup := nodup_brought htables
  have hkept : (l.table tables).Sublist ((l.brought tables).filter (· ∈ l.table tables)) := by
    have h := hsub.filter (· ∈ l.table tables)
    rwa [List.filter_eq_self.2 fun e he => decide_eq_true he] at h
  have hperm : (l.table tables).Perm ((l.brought tables).filter (· ∈ l.table tables)) := by
    refine (List.perm_ext_iff_of_nodup (hnodup.sublist hsub) (hnodup.filter _)).2 fun e => ?_
    rw [List.mem_filter, decide_eq_true_eq]
    exact ⟨fun he => ⟨hsub.subset he, he⟩, fun he => he.2⟩
  exact (hkept.eq_of_length hperm.length_eq).symm

lemma precedes_of_key_eq {e d : Effective} (he : e ∈ l.table tables) (hd : d ∈ l.brought tables)
    (hkey : d.managed.key = e.managed.key) : d = e ∨ l.Precedes tables e d := by
  rcases Effective.exists_first_of_mem_addNew he with he | ⟨-, front, back, hbrought, hfirst⟩
  · cases he
  · rw [hbrought] at hd
    rcases List.mem_append.1 hd with hd | hd
    · exact absurd hkey (hfirst d hd)
    · rcases List.mem_cons.1 hd with rfl | hd
      · exact .inl rfl
      · have hordered : (front ++ e :: back).Pairwise (l.Precedes tables) :=
          hbrought ▸ pairwise_brought
        exact .inr (List.rel_of_pairwise_cons (List.pairwise_append.1 hordered).2.1 hd)

lemma Describes.mem_of_mem_table {entries : List Effective} (h : l.Describes tables entries)
    {e : Effective} (he : e ∈ l.table tables) : e ∈ entries := by
  rcases mem_table he with ⟨o, place, ho, rfl⟩ | ⟨i, place, hi, hm, horigin⟩
  · refine h.ofOverride place o ho fun later o' hlater ho' hsame => ?_
    have hd : ⟨o'.toManaged, .override later⟩ ∈ l.brought tables :=
      mem_brought.2 (.inl ⟨later, o', ho', rfl⟩)
    have hkey : o'.toManaged.key = o.toManaged.key := by
      rw [key_toManaged, key_toManaged, hsame.1, hsame.2]
    rcases precedes_of_key_eq he hd hkey with heq | hprecedes
    · have hplaces : later = place := Origin.override.inj (congrArg Effective.origin heq)
      omega
    · exact Nat.lt_asymm hlater hprecedes
  · obtain ⟨m, origin⟩ := e
    obtain rfl : origin = .bom place := horigin
    refine h.ofImport place i m hi hm (fun o ho hkey => ?_) fun later i' hlater hi' hkey => ?_
    · obtain ⟨place', hplace'⟩ := List.mem_iff_getElem?.1 ho
      have hd : ⟨o.toManaged, .override place'⟩ ∈ l.brought tables :=
        mem_brought.2 (.inl ⟨place', o, hplace', rfl⟩)
      rcases precedes_of_key_eq he hd hkey.symm with heq | hprecedes
      · cases congrArg Effective.origin heq
      · exact hprecedes
    · obtain ⟨m', hm', hkey⟩ := List.mem_map.1 hkey
      have hd : ⟨m', .bom later⟩ ∈ l.brought tables :=
        mem_brought.2 (.inr ⟨later, i', m', hi', hm', rfl⟩)
      rcases precedes_of_key_eq he hd hkey with heq | hlt | ⟨hplaces, -⟩
      · have hplaces : later = place := Origin.bom.inj (congrArg Effective.origin heq)
        omega
      · exact Nat.lt_asymm hlater hlt
      · omega

/-- **No other table is described so.** -/
theorem Describes.eq_table (htables : ∀ i ∈ l.imports, ((tables i).map Managed.key).Nodup)
    {entries : List Effective} (h : l.Describes tables entries) : entries = l.table tables := by
  have htable : l.Describes tables (l.table tables) := describes_table htables
  have hmem : ∀ e, e ∈ entries ↔ e ∈ l.table tables := by
    refine fun e => ⟨fun he => ?_, h.mem_of_mem_table⟩
    have hkey : e.managed.key ∈ (l.table tables).map (·.managed.key) :=
      (htable.covers _).2 ((h.covers _).1 (List.mem_map_of_mem he))
    obtain ⟨e', he', hkeys⟩ := List.mem_map.1 hkey
    obtain rfl : e' = e :=
      List.inj_on_of_nodup_map h.nodup (h.mem_of_mem_table he') he hkeys
    exact he'
  have hperm : entries.Perm (l.table tables) :=
    (List.perm_ext_iff_of_nodup (List.Nodup.of_map _ h.nodup)
      (List.Nodup.of_map _ htable.nodup)).2 hmem
  refine List.Perm.eq_of_pairwise (fun a b _ _ hab hba => ?_) h.ordered htable.ordered hperm
  exact absurd hba (not_precedes_swap htables hab)

end Ledger

end BomTable
