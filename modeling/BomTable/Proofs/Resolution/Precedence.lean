import BomTable.Proofs.Resolution.Entries
import BomTable.Proofs.Resolution.Hierarchy
import BomTable.Proofs.Run.Session

/-!
Which of the entries of a hierarchy come into the table. The entries are listed from the topmost
parent down, with the whole table of a BOM in the place of its import. For each key the table has the
first entry that the lowest level declares, or the first imported one where no level declares any;
all stay in the order of the listing.
-/

namespace BomTable

/-- An entry as a hierarchy lists it, with the level that declares it; imported ones have none. -/
structure Listed where
  level? : Option Nat
  entry : Managed
deriving DecidableEq

namespace Listed

def key (x : Listed) : Key := x.entry.key

/-- What one entry of the POM of a level lists, where the tables of BOMs are known. -/
def ofEntry (tables : Coordinates → List Managed) (properties : Source) (level : Nat) (pom : Pom)
    (raw : RawEntry) : Except Error (List Listed) :=
  if raw.isImport then do
    let d ← Resolver.importCoordinates properties pom raw
    return (tables d).map fun m => ⟨none, m⟩
  else
    match Text.nonempty? (properties.substitute? raw.version) with
    | none => return []
    | some v => return [⟨some level, ← Resolver.managedEntry properties raw v⟩]

/-- The entries of a hierarchy, those of the topmost parent first. -/
def ofHierarchy (tables : Coordinates → List Managed) (h : Hierarchy) (s : Source) :
    Except Error (List Listed) := do
  let lists ← h.poms.zipIdx.reverse.mapM fun x =>
    x.1.management.mapM (ofEntry tables (h.scope s) x.2 x.1)
  return lists.flatten.flatten

/-- The entry at a position of a listing is the one for its key: the first that the lowest level
declares, or the first imported one where no level declares any. -/
def Chosen (listing : List Listed) (i : Nat) (x : Listed) : Prop :=
  match x.level? with
  | some n =>
    (∀ y ∈ listing, y.key = x.key → ∀ m, y.level? = some m → n ≤ m) ∧
      ∀ y ∈ listing.take i, y.key = x.key → y.level? ≠ some n
  | none =>
    (∀ y ∈ listing, y.key = x.key → y.level? = none) ∧ ∀ y ∈ listing.take i, y.key ≠ x.key

/-- The candidate that an entry is. -/
def candidate (x : Listed) : Candidate := ⟨x.level?.getD Candidate.importedRank, x.entry⟩

variable {tables : Coordinates → List Managed} {properties : Source} {level : Nat} {pom : Pom}
  {raw : RawEntry} {cs : List Candidate} {listing : List Listed} {x : Listed} {i : Nat}

/-! ### Candidates are listed -/

lemma ofEntry_eq : Candidate.ofEntry tables properties level pom raw =
    (ofEntry tables properties level pom raw).map (List.map candidate) := by
  unfold Candidate.ofEntry ofEntry
  split_ifs
  · cases Resolver.importCoordinates properties pom raw with
    | error e => rfl
    | ok d =>
      simp only [bind, Except.bind, pure, Except.pure, Except.map, List.map_map]
      rfl
  · cases Text.nonempty? (properties.substitute? raw.version) with
    | none => rfl
    | some v => cases hm : Resolver.managedEntry properties raw v <;> simp [hm] <;> rfl

lemma exists_lists {raws : List RawEntry} {css : List (List Candidate)}
    (h : List.Forall₂ (fun raw cs => Candidate.ofEntry tables properties level pom raw = .ok cs)
      raws css) :
    ∃ lists, List.Forall₂ (fun raw l => ofEntry tables properties level pom raw = .ok l)
        raws lists ∧ css = lists.map (List.map candidate) := by
  induction h with
  | nil => exact ⟨[], .nil, rfl⟩
  | @cons raw cs raws css hcs _ ih =>
    obtain ⟨lists, hlists, rfl⟩ := ih
    rw [ofEntry_eq] at hcs
    cases hl : ofEntry tables properties level pom raw with
    | error e => rw [hl] at hcs; cases hcs
    | ok l =>
      rw [hl] at hcs
      obtain rfl := Except.ok.inj hcs
      exact ⟨l :: lists, .cons hl hlists, rfl⟩

lemma exists_listing {poms : List Pom}
    (h : Candidate.ofLevels tables properties level poms = .ok cs) :
    ∃ lists, (poms.zipIdx level).reverse.mapM (fun x =>
        x.1.management.mapM (ofEntry tables properties x.2 x.1)) = .ok lists ∧
      cs = lists.flatten.flatten.map candidate := by
  induction poms generalizing level cs with
  | nil =>
    obtain rfl := Except.ok.inj h
    exact ⟨[], rfl, rfl⟩
  | cons pom above ih =>
    obtain ⟨own, hown, h⟩ := bind_eq_ok.1 h
    obtain ⟨upper, hupper, h⟩ := bind_eq_ok.1 h
    obtain rfl := Except.ok.inj h
    obtain ⟨lists, hlists, rfl⟩ := ih hupper
    obtain ⟨css, hcss, hflat⟩ := bind_eq_ok.1 hown
    obtain rfl := Except.ok.inj hflat
    obtain ⟨last, hlast, rfl⟩ := exists_lists (mapM_eq_ok.1 hcss)
    refine ⟨lists ++ [last], mapM_eq_ok.2 ?_, by simp⟩
    rw [List.zipIdx_cons, List.reverse_cons]
    exact List.rel_append (mapM_eq_ok.1 hlists) (.cons (mapM_eq_ok.2 hlast) .nil)

lemma ofHierarchy_eq_ok {h : Hierarchy} {s : Source} :
    ofHierarchy tables h s = .ok listing ↔
      ∃ lists, h.poms.zipIdx.reverse.mapM (fun x =>
          x.1.management.mapM (ofEntry tables (h.scope s) x.2 x.1)) = .ok lists ∧
        listing = lists.flatten.flatten := by
  rw [ofHierarchy, bind_eq_ok]
  exact ⟨fun ⟨lists, hlists, h⟩ => ⟨lists, hlists, (Except.ok.inj h).symm⟩,
    fun ⟨lists, hlists, h⟩ => ⟨lists, hlists, h ▸ rfl⟩⟩

/-! ### Levels -/

lemma level_of_mem_ofEntry {l : List Listed} {n : Nat}
    (h : ofEntry tables properties level pom raw = .ok l) (hx : x ∈ l) (hn : x.level? = some n) :
    n = level := by
  unfold ofEntry at h
  split_ifs at h
  · obtain ⟨d, -, h⟩ := bind_eq_ok.1 h
    obtain rfl := Except.ok.inj h
    obtain ⟨m, -, rfl⟩ := List.mem_map.1 hx
    cases hn
  · cases hv : Text.nonempty? (properties.substitute? raw.version) with
    | none =>
      rw [hv] at h
      obtain rfl := Except.ok.inj h
      cases hx
    | some v =>
      rw [hv] at h
      obtain ⟨m, -, h⟩ := bind_eq_ok.1 h
      obtain rfl := Except.ok.inj h
      obtain rfl := List.mem_singleton.1 hx
      exact (Option.some.inj hn).symm

lemma level_lt {h : Hierarchy} {s : Source} {n : Nat}
    (hlisting : ofHierarchy tables h s = .ok listing) (hx : x ∈ listing)
    (hn : x.level? = some n) : n < h.poms.length := by
  obtain ⟨lists, hlists, rfl⟩ := ofHierarchy_eq_ok.1 hlisting
  obtain ⟨l, hl, hx⟩ := List.mem_flatten.1 hx
  obtain ⟨ls, hls, hl⟩ := List.mem_flatten.1 hl
  obtain ⟨⟨pom, level⟩, hpom, hls⟩ := exists_of_forall₂_right (mapM_eq_ok.1 hlists) hls
  obtain ⟨raw, -, hl⟩ := exists_of_forall₂_right (mapM_eq_ok.1 hls) hl
  rw [level_of_mem_ofEntry hl hx hn]
  have := (List.mem_zipIdx (List.mem_reverse.1 hpom)).2.1
  omega

/-! ### Winners are chosen -/

lemma mem_iff_of_getElem? {y : Listed} (hi : listing[i]? = some x) :
    y ∈ listing ↔ y ∈ listing.take i ∨ y = x ∨ y ∈ listing.drop (i + 1) := by
  conv_lhs => rw [← List.take_append_drop i listing]
  rw [List.mem_append, List.drop_eq_getElem?_toList_append, hi]
  simp

lemma winsAt_iff : Candidate.winsAt (listing.map candidate) (x.candidate, i) = true ↔
    (∀ y ∈ listing.take i, y.key = x.key → x.candidate.rank < y.candidate.rank) ∧
      ∀ y ∈ listing.drop (i + 1), y.key = x.key → x.candidate.rank ≤ y.candidate.rank := by
  rw [Candidate.winsAt, Candidate.wins_iff, ← List.map_take, ← List.map_drop]
  simp only [List.forall_mem_map]
  rfl

/-- All levels come before the rank of imported entries. -/
def Below (listing : List Listed) : Prop :=
  ∀ y ∈ listing, ∀ n, y.level? = some n → n < Candidate.importedRank

lemma rank_of_imported (h : x.level? = none) : x.candidate.rank = Candidate.importedRank := by
  rw [candidate, h]
  rfl

lemma rank_of_declared {n : Nat} (h : x.level? = some n) : x.candidate.rank = n := by
  rw [candidate, h]
  rfl

lemma Below.rank_le (h : Below listing) {y : Listed} (hy : y ∈ listing) :
    y.candidate.rank ≤ Candidate.importedRank ∧
      (y.candidate.rank = Candidate.importedRank → y.level? = none) := by
  cases hn : y.level? with
  | none => exact ⟨Nat.le_of_eq (rank_of_imported hn), fun _ => rfl⟩
  | some n =>
    have hlt := h y hy n hn
    have hrank := rank_of_declared hn
    exact ⟨by omega, by omega⟩

lemma winsAt_iff_of_imported (hbelow : Below listing) (hi : listing[i]? = some x)
    (hx : x.level? = none) :
    Candidate.winsAt (listing.map candidate) (x.candidate, i) = true ↔
      (∀ y ∈ listing, y.key = x.key → y.level? = none) ∧
        ∀ y ∈ listing.take i, y.key ≠ x.key := by
  rw [winsAt_iff, rank_of_imported hx]
  constructor
  · rintro ⟨hbefore, hafter⟩
    have hfirst : ∀ y ∈ listing.take i, y.key ≠ x.key := fun y hy hk =>
      Nat.not_lt.2 (hbelow.rank_le (List.mem_of_mem_take hy)).1 (hbefore y hy hk)
    refine ⟨fun y hy hk => ?_, hfirst⟩
    rcases (mem_iff_of_getElem? hi).1 hy with hy' | rfl | hy'
    · exact absurd hk (hfirst y hy')
    · exact hx
    · obtain ⟨hle, hnone⟩ := hbelow.rank_le hy
      exact hnone (Nat.le_antisymm hle (hafter y hy' hk))
  · rintro ⟨hnone, hfirst⟩
    refine ⟨fun y hy hk => absurd hk (hfirst y hy), fun y hy hk => ?_⟩
    exact Nat.le_of_eq (rank_of_imported (hnone y (List.mem_of_mem_drop hy) hk)).symm

lemma winsAt_iff_of_declared (hbelow : Below listing) (hi : listing[i]? = some x) {n : Nat}
    (hx : x.level? = some n) :
    Candidate.winsAt (listing.map candidate) (x.candidate, i) = true ↔
      (∀ y ∈ listing, y.key = x.key → ∀ m, y.level? = some m → n ≤ m) ∧
        ∀ y ∈ listing.take i, y.key = x.key → y.level? ≠ some n := by
  have hmem : x ∈ listing := (mem_iff_of_getElem? hi).2 (.inr (.inl rfl))
  have hn : n < Candidate.importedRank := hbelow x hmem n hx
  rw [winsAt_iff, rank_of_declared hx]
  constructor
  · rintro ⟨hbefore, hafter⟩
    refine ⟨fun y hy hk m hm => ?_, fun y hy hk hyn => ?_⟩
    · have hrank := rank_of_declared hm
      rcases (mem_iff_of_getElem? hi).1 hy with hy' | rfl | hy'
      · have := hbefore y hy' hk
        omega
      · rw [hx] at hm
        exact Nat.le_of_eq (Option.some.inj hm)
      · have := hafter y hy' hk
        omega
    · have hrank := rank_of_declared hyn
      have := hbefore y hy hk
      omega
  · rintro ⟨hlowest, hfirst⟩
    have hle : ∀ y ∈ listing, y.key = x.key → n ≤ y.candidate.rank := fun y hy hk => by
      cases hm : y.level? with
      | none => rw [rank_of_imported hm]; omega
      | some m => rw [rank_of_declared hm]; exact hlowest y hy hk m hm
    refine ⟨fun y hy hk => ?_, fun y hy hk => hle y (List.mem_of_mem_drop hy) hk⟩
    refine Nat.lt_of_le_of_ne (hle y (List.mem_of_mem_take hy) hk) fun hrank => ?_
    have hne := hfirst y hy hk
    cases hm : y.level? with
    | none => rw [rank_of_imported hm] at hrank; omega
    | some m => exact hne (by rw [hm, hrank, rank_of_declared hm])

/-- A candidate wins where its entry is the one that is chosen for its key. -/
lemma winsAt_iff_chosen (hbelow : Below listing) (hi : listing[i]? = some x) :
    Candidate.winsAt (listing.map candidate) (x.candidate, i) = true ↔ Chosen listing i x := by
  unfold Chosen
  cases hx : x.level? with
  | none => exact winsAt_iff_of_imported hbelow hi hx
  | some n => exact winsAt_iff_of_declared hbelow hi hx

/-- **What is selected from the candidates of a listing are the chosen entries, in their order.** -/
theorem exists_kept (hbelow : Below listing) :
    ∃ kept : List (Listed × Nat), kept.Sublist listing.zipIdx ∧
      Candidate.select (listing.map candidate) = kept.map (·.1.entry) ∧
      ∀ x i, (x, i) ∈ kept ↔ listing[i]? = some x ∧ Chosen listing i x := by
  refine ⟨listing.zipIdx.filter fun x =>
    Candidate.winsAt (listing.map candidate) (x.1.candidate, x.2), List.filter_sublist, ?_,
    fun x i => ?_⟩
  · rw [Candidate.select_eq_filter, List.zipIdx_map, List.filter_map, List.map_map]
    rfl
  · rw [List.mem_filter, List.mk_mem_zipIdx_iff_getElem?]
    exact and_congr_right fun hi => winsAt_iff_chosen hbelow hi

end Listed

/-! ### Resolved tables -/

/-- **Precedence over a whole hierarchy.** The table has, in the order of the listing, the chosen
entry for each key that occurs: the first that the lowest level declares, or else the first imported
one. -/
theorem resolve_precedence {r : Resolver} {w : World} {c : Coordinates} {s : Source}
    {found : Resolution} {h : Hierarchy} (hw : Reachable r w)
    (hfound : (r.resolve c s).result w = .ok found) (hc : r.client.Loads c h)
    (hlevels : h.poms.length < 1000000) :
    ∃ (boms : Coordinates → Bom) (listing : List Listed) (kept : List (Listed × Nat)),
      (∀ d ∈ h.imported s, AmountsTo r.client d (h.down s) (boms d) ∧
        ∀ w' found', Reachable r w' → (r.resolve d (h.down s)).result w' = .ok found' →
          found'.bom = boms d) ∧
      Listed.ofHierarchy (fun d => (boms d).management) h s = .ok listing ∧
      kept.Sublist listing.zipIdx ∧
      found.bom.management = kept.map (·.1.entry) ∧
      (∀ x i, (x, i) ∈ kept ↔ listing[i]? = some x ∧ Listed.Chosen listing i x) ∧
      (found.bom.management.map Managed.key).Nodup ∧
      ∀ k, k ∈ found.bom.management.map Managed.key ↔ ∃ x ∈ listing, x.key = k := by
  obtain ⟨boms, cs, hcs, hmanagement, hboms⟩ :=
    (Resolver.amountsTo_of_result hw hfound).exists_candidates hc
  obtain ⟨lists, hlists, rfl⟩ := Listed.exists_listing hcs
  have hlisting : Listed.ofHierarchy (fun d => (boms d).management) h s =
      .ok lists.flatten.flatten := Listed.ofHierarchy_eq_ok.2 ⟨lists, hlists, rfl⟩
  have hbelow : Listed.Below lists.flatten.flatten := fun x hx n hn =>
    Nat.lt_trans (Listed.level_lt hlisting hx hn) hlevels
  obtain ⟨kept, hsublist, hselect, hkept⟩ := Listed.exists_kept hbelow
  refine ⟨boms, lists.flatten.flatten, kept, fun d hd => ⟨hboms d hd, fun w' found' hw' hfound' =>
    (Resolver.amountsTo_of_result hw' hfound').unique (hboms d hd)⟩, hlisting, hsublist,
    hmanagement.trans hselect, hkept, ?_, fun k => ?_⟩
  · rw [hmanagement]
    exact Candidate.nodup_keys_select
  · rw [hmanagement, Candidate.mem_keys_select]
    constructor
    · rintro ⟨c, hc, hk⟩
      obtain ⟨x, hx, rfl⟩ := List.mem_map.1 hc
      exact ⟨x, hx, hk⟩
    · rintro ⟨x, hx, hk⟩
      exact ⟨x.candidate, List.mem_map_of_mem hx, hk⟩

namespace Layers

def version (artifact version : String) : Managed :=
  ⟨⟨"x", artifact, some version⟩, none, [], none, none⟩

/-- Of `y` the version of the parent is kept, not the imported one, and of `q` that of the BOM, not
that of its parent. -/
def resolution : Resolution :=
  ⟨1, ⟨outer, [version "y" "5", version "n" "2", version "m" "7", version "q" "2"],
    outerPom.properties, parentPom.properties⟩⟩

lemma result_outer : (Resolver.resolve ⟨repository, 0, 50⟩ outer .empty).result (World.start 0) =
    .ok resolution :=
  Run.result_of_gives (by decide +kernel)

end Layers

theorem precedence_in_layers :
    (Resolver.resolve ⟨Layers.repository, 0, 50⟩ Layers.outer .empty).result (World.start 0) =
        .ok Layers.resolution ∧
      Layers.above.poms.length < 1000000 ∧
      ∃ (boms : Coordinates → Bom) (listing : List Listed) (kept : List (Listed × Nat)),
        AmountsTo Layers.repository Layers.inner (Layers.above.down .empty) (boms Layers.inner) ∧
        Listed.ofHierarchy (fun d => (boms d).management) Layers.above .empty = .ok listing ∧
        kept.Sublist listing.zipIdx ∧
        Layers.resolution.bom.management = kept.map (·.1.entry) ∧
        ∀ x i, (x, i) ∈ kept ↔ listing[i]? = some x ∧ Listed.Chosen listing i x := by
  have hw : Reachable ⟨Layers.repository, 0, 50⟩ (World.start 0) := ⟨0, [], rfl⟩
  have hlevels : Layers.above.poms.length < 1000000 := by decide
  obtain ⟨boms, listing, kept, hboms, hlisting, hsublist, htable, hkept, -⟩ :=
    resolve_precedence hw Layers.result_outer Layers.loads_outer hlevels
  have hinner : Layers.inner ∈ Layers.above.imported .empty := by decide +kernel
  exact ⟨Layers.result_outer, hlevels, boms, listing, kept, (hboms _ hinner).1, hlisting,
    hsublist, htable, hkept⟩

end BomTable
