import BomTable.Proofs.Resolution.Steps

/-!
Resolutions as a whole. From a sound world, a resolution gives what its BOM amounts to; if the BOM
amounts to anything, nothing but the limit on nesting and the check for cycles can make it fail, and
these only where the imports do not fit. Where nothing is kept, only imports that fit are resolved.
-/

namespace BomTable

/-- The event is a log record. -/
def Event.IsLog : Event → Prop
  | .logged _ => True
  | _ => False

namespace Resolver

variable {r : Resolver} {asks : Coordinates → Prop} {I : World → Prop} {E : Failure → Prop}
  {c : Coordinates} {s : Source}

lemma cached?_spec (hI : Invariant r asks I) :
    Run.Spec I (cached? (keyOf c s))
      (fun found => ∀ f, found = some f → AmountsTo r.client c s f.bom ∧ 0 < r.cacheSize) E := by
  refine Run.Spec.modifyGet (fun w hw => ?_) fun w hw f hf => ?_
  · have hs := hI.sound w hw
    refine hI.kept w _ hw ⟨hs.fetched, fun e he => ?_, ?_⟩ rfl rfl
    · exact hs.cached e (Cache.mem_of_mem_touch he)
    · exact Cache.exists_calls_perform hs.called (.touch (keyOf c s))
  · have hs := hI.sound w hw
    have hmem := Cache.mem_of_touch_eq_some hf
    refine ⟨hs.cached _ hmem s rfl, ?_⟩
    by_contra hsize
    simp [hs.disabled (Int.not_lt.1 hsize)] at hmem

lemma register_spec (hI : Invariant r asks I) {b : Bom} (hb : AmountsTo r.client c s b) :
    Run.Spec I (r.register (keyOf c s) b) (fun found => found.bom = b) E := by
  refine Run.Spec.modifyGet (fun w hw => ?_) fun w hw => rfl
  have hs := hI.sound w hw
  refine hI.kept w _ hw ⟨hs.fetched, fun e he t ht => ?_, ?_⟩ rfl rfl
  · rcases Cache.mem_of_mem_keep he with he | rfl
    · exact hs.cached e he t ht
    · exact hb.congr (Source.get?_eq_of_fingerprint_eq (congrArg CacheKey.properties ht).symm)
  · exact Cache.exists_calls_perform hs.called (.keep (keyOf c s) ⟨w.made, b⟩)

/-! ### One BOM -/

/-- What is known of a resolution that succeeds. -/
def Right (r : Resolver) (limit : Nat) (chain : List Coordinates) (c : Coordinates) (s : Source)
    (found : Resolution) : Prop :=
  AmountsTo r.client c s found.bom ∧ (r.cacheSize ≤ 0 → Fits r.client limit chain c s)

/-- What is known of a resolution that fails. -/
def Wrong (r : Resolver) (limit : Nat) (chain : List Coordinates) (c : Coordinates) (s : Source)
    (f : Failure) : Prop :=
  ∀ b, AmountsTo r.client c s b → f.IsNesting ∧ ¬ Fits r.client limit chain c s

lemma climbs_iff_admissible {chain : List Coordinates} {room : Nat} {pom : Pom}
    {parents : List Pom} (hpom : r.client.document c = .ok pom)
    (hparents : r.client.Lineage pom parents) (hchain : (chain ++ [c]).Nodup) :
    Climbs (chain ++ [c]) [c] room pom parents ↔
      Admissible r.client (chain.length + (room + 1)) chain c := by
  have hlen := hparents.length_above
  have hnodup : (chain ++ c :: pom.above parents).Nodup ↔
      (pom.above parents).Nodup ∧ ∀ p ∈ pom.above parents, p ∉ [c] ∧ p ∉ chain ++ [c] := by
    rw [List.append_cons, List.nodup_append]
    grind
  unfold Climbs
  constructor
  · rintro ⟨hroom, hclimbs⟩
    refine ⟨pom, parents, hpom, hparents, hnodup.2 hclimbs, ?_⟩
    simp only [List.length_append, List.length_cons]
    omega
  · rintro ⟨pom', parents', hpom', hparents', hn, hl⟩
    obtain rfl : _ = _ := Except.ok.inj (hpom.symm.trans hpom')
    obtain rfl := hparents.unique hparents'
    simp only [List.length_append, List.length_cons] at hl
    exact ⟨by omega, hnodup.1 hn⟩

lemma candidates_follow (hI : Invariant r asks I) {limit : Nat} {chain : List Coordinates}
    {pom : Pom} {parents : List Pom} {nested : Coordinates → Source → Run Resolution}
    (hpom : r.client.document c = .ok pom) (hl : r.client.Lineage pom parents)
    (hnested : ∀ d t, Imports r.client c s d t →
      Run.Spec I (nested d t) (Right r limit (chain ++ [c]) d t)
        (Wrong r limit (chain ++ [c]) d t)) :
    Run.Follows I
      (expandLevels (fun d => nested d (handedDown pom parents s))
        (effective pom (handedDown pom parents s)) 0 (pom :: parents))
      (Candidate.ofLevels (fun d => r.client.table d (handedDown pom parents s))
        (effective pom (handedDown pom parents s)) 0 (pom :: parents))
      (∀ d, Imported (effective pom (handedDown pom parents s)) (pom :: parents) d →
        (∃ b, AmountsTo r.client d (handedDown pom parents s) b) ∧
          (r.cacheSize ≤ 0 → Fits r.client limit (chain ++ [c]) d (handedDown pom parents s)))
      (Wrong r limit chain c s) := by
  refine expandLevels_follows hI 0 fun d hd => ?_
  have himports : Imports r.client c s d (handedDown pom parents s) :=
    ⟨pom, parents, hpom, hl, rfl, hd⟩
  refine (hnested d _ himports).mono (fun found h => ⟨h.1.table_eq.symm, ⟨_, h.1⟩, h.2⟩) ?_
  intro f hf b hb
  obtain ⟨-, -, -, hboms⟩ := hb.exists_boms hpom hl
  obtain ⟨b', hb'⟩ := hboms d hd
  exact ⟨(hf b' hb').1, fun h => (hf b' hb').2 (h.next himports)⟩

lemma make_spec (hI : Invariant r asks I) {chain : List Coordinates} {room : Nat}
    {nested : Coordinates → Source → Run Resolution} (hchain : (chain ++ [c]).Nodup)
    (hasks : ∀ d, LeadsTo r.client c s d → asks d)
    (hnested : ∀ d t, Imports r.client c s d t →
      Run.Spec I (nested d t) (Right r (chain.length + (room + 1)) (chain ++ [c]) d t)
        (Wrong r (chain.length + (room + 1)) (chain ++ [c]) d t)) :
    Run.Spec I (r.make room (chain ++ [c]) c s nested)
      (Right r (chain.length + (room + 1)) chain c s)
      (Wrong r (chain.length + (room + 1)) chain c s) := by
  unfold make
  refine ((load_spec hI (hasks c (.of_parents .refl))).mono (fun _ h => h) fun f hf b hb =>
    ?_).bind fun pom hpom => ?_
  · cases hb with
    | mk _ hpom => rw [hf] at hpom; cases hpom
  have hparents := ancestors_spec hI (chain ++ [c]) c room [c] pom fun p d hp hd =>
    hasks d (.of_parents (.head ⟨pom, hpom, hp⟩ hd))
  refine (hparents.mono (fun _ h => h) fun f hf b hb => ?_).bind fun parents hparents => ?_
  · cases hb with
    | mk _ hpom' hl =>
      obtain rfl : _ = _ := Except.ok.inj (hpom.symm.trans hpom')
      obtain ⟨hnesting, hclimbs⟩ := hf _ hl
      exact ⟨hnesting, fun h => hclimbs ((climbs_iff_admissible hpom hl hchain).2 h.admissible)⟩
  obtain ⟨hl, hclimbs⟩ := hparents
  have hadmissible := (climbs_iff_admissible hpom hl hchain).1 hclimbs
  have hfollows := candidates_follow hI hpom hl hnested
  refine (Run.Spec.mono hfollows (fun _ h => h) fun f hf b hb => ?_).bind fun cs hcs => ?_
  · rcases hf with hf | ⟨e, -, he⟩
    · exact hf b hb
    · obtain ⟨cs, hcs, -⟩ := hb.exists_boms hpom hl
      rw [he] at hcs
      cases hcs
  have hbom := AmountsTo.of_tables hpom hl hcs.1 fun d hd => (hcs.2 d hd).1
  refine hI.log.bind fun _ _ => ?_
  refine (register_spec hI hbom).mono (fun found hfound => ⟨hfound ▸ hbom, fun hsize => ?_⟩)
    fun _ h => h
  refine .of_imports hadmissible fun d t hd => ?_
  obtain ⟨pom', parents', hpom', hl', rfl, hd⟩ := hd
  obtain rfl : _ = _ := Except.ok.inj (hpom.symm.trans hpom')
  obtain rfl := hl.unique hl'
  exact (hcs.2 d hd).2 hsize

/-- The check of what is kept and of the chain, before a BOM is resolved anew. -/
lemma guarded_spec (hI : Invariant r asks I) {limit : Nat} {chain : List Coordinates}
    {anew : Run Resolution}
    (hanew : c ∉ chain → Run.Spec I anew (Right r limit chain c s) (Wrong r limit chain c s)) :
    Run.Spec I (guarded chain c s anew) (Right r limit chain c s) (Wrong r limit chain c s) := by
  refine (cached?_spec hI).bind fun found hfound => ?_
  cases found with
  | some f =>
    obtain ⟨hf, hsize⟩ := hfound f rfl
    exact Run.Spec.pure ⟨hf, fun h => absurd hsize (Int.not_lt.2 h)⟩
  | none =>
    dsimp only
    split_ifs with hc
    · refine Run.Spec.fail hI.logged fun b hb => ⟨trivial, fun h => ?_⟩
      obtain ⟨pom, parents, -, -, hnodup, -⟩ := h.admissible
      exact (List.nodup_append.1 hnodup).2.2 c hc c List.mem_cons_self rfl
    · exact hanew hc

/-- **The rule for a resolution behind a chain of imports.** -/
theorem resolveAt_spec (hI : Invariant r asks I) (room : Nat) {chain : List Coordinates}
    (hchain : chain.Nodup) (hroom : 0 < chain.length + room)
    (hasks : ∀ d, LeadsTo r.client c s d → asks d) :
    Run.Spec I (r.resolveAt room chain c s) (Right r (chain.length + room) chain c s)
      (Wrong r (chain.length + room) chain c s) := by
  -- The chain grows as the room shrinks, so the limit is the same all the way down.
  induction room generalizing chain c s with
  | zero =>
    refine guarded_spec hI fun hc => ?_
    cases chain with
    | nil => simp at hroom
    | cons first rest =>
      refine Run.Spec.fail hI.logged fun b hb => ⟨trivial, fun h => ?_⟩
      obtain ⟨pom, parents, -, -, -, hlen⟩ := h.admissible
      simp only [List.length_append, List.length_cons] at hlen
      omega
  | succ room ih =>
    refine guarded_spec hI fun hc => ?_
    have hchain' : (chain ++ [c]).Nodup := by
      rw [List.nodup_append]
      grind
    refine make_spec hI hchain' hasks fun d t hd => ?_
    have hlen : (chain ++ [c]).length + room = chain.length + (room + 1) := by
      simp only [List.length_append, List.length_singleton]
      omega
    rw [← hlen]
    exact ih hchain' (by omega) fun e he => hasks e (.of_imports hd he)

theorem resolve_spec (hI : Invariant r asks I) (hdepth : 0 < r.maxDepth)
    (hasks : ∀ d, LeadsTo r.client c s d → asks d) :
    Run.Spec I (r.resolve c s) (Right r r.maxDepth.toNat [] c s)
      (Wrong r r.maxDepth.toNat [] c s) := by
  have h := resolveAt_spec hI r.maxDepth.toNat List.nodup_nil
    (by simp only [List.length_nil]; omega) hasks
  rw [List.length_nil, Nat.zero_add] at h
  exact h.timed hI.logged

lemma resolve_spec_of_nonpos (hI : Invariant r asks I) (hdepth : r.maxDepth ≤ 0) :
    Run.Spec I (r.resolve c s)
      (fun found => AmountsTo r.client c s found.bom ∧ 0 < r.cacheSize) fun _ => True := by
  refine Run.Spec.timed hI.logged ?_
  rw [Int.toNat_of_nonpos hdepth]
  refine (cached?_spec hI).bind fun found hfound => ?_
  cases found with
  | some f => exact Run.Spec.pure (hfound f rfl)
  | none => exact Run.Spec.throw trivial

/-- **A resolution that succeeds gives what the BOM amounts to.** -/
theorem resolve_gives (hI : Invariant r asks I) (hasks : ∀ d, LeadsTo r.client c s d → asks d) :
    Run.Spec I (r.resolve c s) (fun found => AmountsTo r.client c s found.bom) fun _ => True := by
  by_cases hdepth : 0 < r.maxDepth
  · exact (resolve_spec hI hdepth hasks).mono (fun _ h => h.1) fun _ _ => trivial
  · exact (resolve_spec_of_nonpos hI (Int.not_lt.1 hdepth)).mono (fun _ h => h.1) fun _ h => h

/-! ### What is asked for -/

/-- Nothing but log records, and what searches for some coordinates note. -/
def Asked (client : Client) (wanted : Coordinates → Prop) (events : List Event) : Prop :=
  ∀ e ∈ events, e.IsLog ∨ ∃ d, wanted d ∧ e ∈ (client.search d).events

lemma invariant_asking (r : Resolver) (start : World) (wanted : Coordinates → Prop) :
    Invariant r wanted fun w => r.Sound w ∧
      ∃ events, w.journal = start.journal ++ events ∧ Asked r.client wanted events where
  sound := fun _ h => h.1
  logged := by
    rintro w record ⟨hs, events, hj, hasked⟩
    refine ⟨hs.noting _, events ++ [.logged record], ?_, fun e he => ?_⟩
    · rw [Run.noting, hj, List.append_assoc]
    · rcases List.mem_append.1 he with he | he
      · exact hasked e he
      · rw [List.mem_singleton.1 he]
        exact .inl trivial
  searched := by
    rintro w c hc ⟨hs, events, hj, hasked⟩
    refine ⟨hs.noting _, events ++ (r.client.search c).events, ?_, fun e he => ?_⟩
    · rw [Run.noting, hj, List.append_assoc]
    · rcases List.mem_append.1 he with he | he
      · exact hasked e he
      · exact .inr ⟨c, hc, he⟩
  kept := fun _ _ ⟨_, events, hj, hasked⟩ hs hj' _ => ⟨hs, events, hj'.trans hj, hasked⟩

theorem resolve_asks {w : World} (hw : r.Sound w) :
    ∃ events, ((r.resolve c s).after w).journal = w.journal ++ events ∧
      Asked r.client (LeadsTo r.client c s) events := by
  have hI := invariant_asking r w (LeadsTo r.client c s)
  have hstart : Asked r.client (LeadsTo r.client c s) [] := fun e he => nomatch he
  exact ((resolve_gives hI fun _ h => h).keeps ⟨hw, [], by simp, hstart⟩).2

end Resolver

end BomTable
