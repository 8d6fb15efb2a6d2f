import BomTable.Proofs.Resolution.Nesting
import BomTable.Proofs.Resolution.Recency
import BomTable.Proofs.Run.Outcome

/-!
The steps of a resolution, each with a rule: what it gives, and how it fails. All steps keep the
world sound: fetched documents are those of the repository, and every resolution that is kept is
what its BOM amounts to with the properties it is kept under.
-/

namespace BomTable

namespace Resolver

/-- Everything that is kept is right, and the cache is what some calls make of an empty one. -/
structure Sound (r : Resolver) (w : World) : Prop where
  fetched : ∀ e ∈ w.fetched, (r.client.search e.1).result = .ok (some e.2)
  cached : ∀ e ∈ w.cache, ∀ s, keyOf e.1.coordinates s = e.1 →
    AmountsTo r.client e.1.coordinates s e.2.bom
  called : ∃ calls, w.cache = Cache.after r.cacheSize calls

lemma Sound.disabled {r : Resolver} {w : World} (h : r.Sound w) (hsize : r.cacheSize ≤ 0) :
    w.cache = [] := by
  obtain ⟨calls, hcalls⟩ := h.called
  rw [hcalls, Cache.after_of_nonpos hsize]

/-- What a property of worlds has to allow for a resolver's steps to keep it, as far as the resolver
asks for nothing but `asks`. -/
structure Invariant (r : Resolver) (asks : Coordinates → Prop) (I : World → Prop) : Prop where
  sound : ∀ w, I w → r.Sound w
  logged : ∀ w record, I w → I (Run.noting w [.logged record])
  searched : ∀ w c, asks c → I w → I (Run.noting w (r.client.search c).events)
  kept : ∀ w w', I w → r.Sound w' → w'.journal = w.journal → w'.ledger = w.ledger → I w'

variable {r : Resolver} {asks : Coordinates → Prop} {I : World → Prop} {E : Failure → Prop}

/-- A sound world with some ledger. -/
def Holding (r : Resolver) (l : Ledger) (w : World) : Prop := r.Sound w ∧ w.ledger = l

lemma Invariant.log (hI : Invariant r asks I) {record : Record} :
    Run.Spec I (Run.log record) (fun _ => True) E :=
  Run.Spec.log fun w hw => hI.logged w record hw

lemma Sound.noting {w : World} (h : r.Sound w) (events : List Event) :
    r.Sound (Run.noting w events) :=
  ⟨h.1, h.2, h.3⟩

lemma invariant_holding (r : Resolver) (l : Ledger) :
    Invariant r (fun _ => True) (r.Holding l) where
  sound := fun _ h => h.1
  logged := fun _ _ h => ⟨h.1.noting _, h.2⟩
  searched := fun _ _ _ h => ⟨h.1.noting _, h.2⟩
  kept := fun _ _ h hs _ hl => ⟨hs, hl.trans h.2⟩

/-! ### Loading -/

lemma fetch_spec (hI : Invariant r asks I) {c : Coordinates} (hc : asks c) :
    Run.Spec I (r.fetch c) (fun content => (r.client.search c).result = .ok (some content))
      fun f => r.client.document c = .error f := by
  refine (Run.Spec.get hI.sound).bind fun w hw => ?_
  cases hfind : w.fetched.find? fun e => e.1 = c with
  | some e =>
    have hmem := hw.fetched e (List.mem_of_find?_eq_some hfind)
    have he : e.1 = c := by simpa using List.find?_some hfind
    exact Run.Spec.pure (he ▸ hmem)
  | none =>
    refine (Run.Spec.note fun v hv => hI.searched v c hc hv).bind fun _ _ => ?_
    refine (Run.Spec.ofFailure (Q := fun a => (r.client.search c).result = .ok a) hI.logged
      (fun a h => h) fun f h => by simp [Client.document, h]).bind fun found hfound => ?_
    cases found with
    | none => exact Run.Spec.fail hI.logged (by simp [Client.document, hfound])
    | some content =>
      refine (Run.Spec.modify fun v hv => ?_).bind fun _ _ => Run.Spec.pure hfound
      have hs := hI.sound v hv
      refine hI.kept v _ hv ⟨fun e he => ?_, hs.cached, hs.called⟩ rfl rfl
      rcases List.mem_append.1 he with he | he
      · exact hs.fetched e he
      · obtain rfl := List.mem_singleton.1 he
        exact hfound

lemma load_spec (hI : Invariant r asks I) {c : Coordinates} (hc : asks c) :
    Run.Spec I (r.load c) (fun pom => r.client.document c = .ok pom)
      fun f => r.client.document c = .error f :=
  (fetch_spec hI hc).bind fun content h =>
    Run.Spec.ofFailure hI.logged (fun pom hp => by simp [Client.document, h, hp])
      fun f hf => by simp [Client.document, h, hf]

/-- What the limit and the check for cycles ask of the parents of a POM. -/
def Climbs (chain seen : List Coordinates) (room : Nat) (pom : Pom) (parents : List Pom) : Prop :=
  parents.length ≤ room ∧ (pom.above parents).Nodup ∧
    ∀ p ∈ pom.above parents, p ∉ seen ∧ p ∉ chain

lemma climbs_child {chain seen : List Coordinates} {room : Nat} {pom next : Pom}
    {p : Coordinates} {rest : List Pom} (h : pom.parent = some p) :
    Climbs chain seen (room + 1) pom (next :: rest) ↔
      p ∉ seen ∧ p ∉ chain ∧ Climbs chain (p :: seen) room next rest := by
  simp only [Climbs, Pom.above_child h, List.length_cons, List.nodup_cons, List.mem_cons,
    forall_eq_or_imp, Nat.add_le_add_iff_right, not_or]
  constructor
  · rintro ⟨hlen, ⟨hp, hnodup⟩, ⟨hs, hc⟩, hall⟩
    exact ⟨hs, hc, hlen, hnodup, fun q hq =>
      ⟨⟨fun h => hp (h ▸ hq), (hall q hq).1⟩, (hall q hq).2⟩⟩
  · rintro ⟨hs, hc, hlen, hnodup, hall⟩
    exact ⟨hlen, ⟨fun hp => (hall p hp).1.1 rfl, hnodup⟩, ⟨hs, hc⟩, fun q hq =>
      ⟨(hall q hq).1.2, (hall q hq).2⟩⟩

end Resolver

/-- The check for cycles or the limit on nesting has ended a resolution. -/
def Failure.IsNesting : Failure → Prop
  | .error (.importCycle _ _) => True
  | .error (.importsTooDeep _ _ _) => True
  | .error (.parentCycle _ _) => True
  | .error (.parentsTooDeep _) => True
  | _ => False

namespace Resolver

variable {r : Resolver} {asks : Coordinates → Prop} {I : World → Prop} {E : Failure → Prop}

/-- The parents are found as they stand in the repository, unless they go too far. -/
lemma ancestors_spec (hI : Invariant r asks I) (chain : List Coordinates) (c : Coordinates)
    (room : Nat) (seen : List Coordinates) (pom : Pom)
    (hasks : ∀ p d, pom.parent = some p → Relation.ReflTransGen r.client.HasParent p d → asks d) :
    Run.Spec I (r.ancestors chain c room seen pom)
      (fun parents => r.client.Lineage pom parents ∧ Climbs chain seen room pom parents)
      fun f => ∀ parents, r.client.Lineage pom parents →
        f.IsNesting ∧ ¬ Climbs chain seen room pom parents := by
  fun_induction r.ancestors chain c room seen pom with
  | case1 room seen pom hp =>
    exact Run.Spec.pure ⟨.top hp, by simp [Climbs, Pom.above_top hp]⟩
  | case2 room seen pom p hp hcycle =>
    refine Run.Spec.fail hI.logged fun parents hl => ⟨trivial, fun h => ?_⟩
    obtain ⟨next, rest, rfl, -, -⟩ := hl.exists_child hp
    have := h.2.2 p (by simp [Pom.above_child hp])
    tauto
  | case3 seen pom p hp hcycle =>
    refine Run.Spec.fail hI.logged fun parents hl => ⟨trivial, fun h => ?_⟩
    obtain ⟨next, rest, rfl, -, -⟩ := hl.exists_child hp
    simp [Climbs] at h
  | case4 seen pom p hp hcycle room ih =>
    rw [not_or] at hcycle
    refine ((load_spec hI (hasks p p hp .refl)).mono (fun _ h => h) fun f hf parents hl =>
      ?_).bind fun next hnext => ?_
    · obtain ⟨next, rest, rfl, hnext, -⟩ := hl.exists_child hp
      rw [hf] at hnext
      cases hnext
    · have hrest := ih next fun q d hq hd => hasks p d hp (.head ⟨next, hnext, hq⟩ hd)
      refine (hrest.mono (fun _ h => h) fun f hf parents hl => ?_).bind fun rest hrest => ?_
      · obtain ⟨next', rest, rfl, hnext', hl⟩ := hl.exists_child hp
        obtain rfl : _ = _ := Except.ok.inj (hnext.symm.trans hnext')
        obtain ⟨hnesting, hclimbs⟩ := hf _ hl
        exact ⟨hnesting, fun h => hclimbs ((climbs_child hp).1 h).2.2⟩
      · exact Run.Spec.pure ⟨.child hp hnext hrest.1,
          (climbs_child hp).2 ⟨hcycle.1, hcycle.2, hrest.2⟩⟩

/-! ### Entries -/

variable {nested : Coordinates → Run Resolution} {tables : Coordinates → List Managed}
  {P : Coordinates → Prop} {properties : Source}

lemma expandEntry_follows (hI : Invariant r asks I) (level : Nat) {pom : Pom} {raw : RawEntry}
    (hnested : ∀ d, raw.isImport = true → importCoordinates properties pom raw = .ok d →
      Run.Spec I (nested d) (fun found => found.bom.management = tables d ∧ P d) E) :
    Run.Follows I (expandEntry nested properties level pom raw)
      (Candidate.ofEntry tables properties level pom raw)
      (∀ d, raw.isImport = true → importCoordinates properties pom raw = .ok d → P d) E := by
  unfold expandEntry Candidate.ofEntry
  split_ifs with hi
  · refine ((Run.Follows.ofExcept hI.logged).bind (R := ∀ d, importCoordinates properties pom raw =
      .ok d → P d) fun d hd _ => ?_).mono (fun h d _ => h.2 d) fun _ h => h
    refine ((hnested d hi hd).mono (fun _ h => h) fun f hf => .inl hf).bind fun found h => ?_
    refine Run.Spec.pure ⟨by rw [h.1]; rfl, fun e he => ?_⟩
    obtain rfl : _ = _ := Except.ok.inj (hd.symm.trans he)
    exact h.2
  · cases Text.nonempty? (properties.substitute? raw.version) with
    | none =>
      exact hI.log.bind fun _ _ =>
        Run.Spec.pure ⟨rfl, fun d h => absurd h hi⟩
    | some v =>
      exact ((Run.Follows.ofExcept hI.logged).bind fun m _ _ => Run.Follows.pure trivial).mono
        (fun _ d h => absurd h hi) fun _ h => h

lemma expandPom_follows (hI : Invariant r asks I) (level : Nat) {pom : Pom}
    (hnested : ∀ d, Imported properties [pom] d →
      Run.Spec I (nested d) (fun found => found.bom.management = tables d ∧ P d) E) :
    Run.Follows I (expandPom nested properties level pom)
      (Candidate.ofPom tables properties level pom) (∀ d, Imported properties [pom] d → P d) E := by
  have hmap := Run.Follows.mapM (l := pom.management) fun raw hraw =>
    expandEntry_follows hI level fun d hi hd =>
      hnested d ⟨pom, List.mem_singleton_self pom, raw, hraw, hi, hd⟩
  refine (hmap.bind fun css _ _ => Run.Follows.pure trivial).mono ?_ fun _ h => h
  rintro ⟨h, -⟩ d ⟨p, hp, raw, hraw, hi, hd⟩
  obtain rfl := List.mem_singleton.1 hp
  exact h raw hraw d hi hd

lemma expandLevels_follows (hI : Invariant r asks I) (level : Nat) {poms : List Pom}
    (hnested : ∀ d, Imported properties poms d →
      Run.Spec I (nested d) (fun found => found.bom.management = tables d ∧ P d) E) :
    Run.Follows I (expandLevels nested properties level poms)
      (Candidate.ofLevels tables properties level poms) (∀ d, Imported properties poms d → P d)
      E := by
  induction poms generalizing level with
  | nil => exact Run.Follows.pure (by simp [Imported])
  | cons pom above ih =>
    have hown := expandPom_follows hI level fun d ⟨p, hp, hd⟩ =>
      hnested d ⟨p, List.mem_cons.2 (.inl (List.mem_singleton.1 hp)), hd⟩
    have habove := ih (level + 1) fun d ⟨p, hp, hd⟩ =>
      hnested d ⟨p, List.mem_cons_of_mem pom hp, hd⟩
    refine (hown.bind fun own _ _ => habove.bind fun upper _ _ =>
      Run.Follows.pure trivial).mono ?_ fun _ h => h
    rintro ⟨hp, ha, -⟩ d ⟨p, hmem, hd⟩
    rcases List.mem_cons.1 hmem with rfl | hmem
    · exact hp d ⟨p, List.mem_singleton_self p, hd⟩
    · exact ha d ⟨p, hmem, hd⟩

end Resolver

end BomTable
