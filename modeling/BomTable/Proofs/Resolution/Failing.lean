import BomTable.Proofs.Resolution.Causes
import BomTable.Proofs.Resolution.Hierarchy
import BomTable.Proofs.Resolution.Resolve
import Mathlib.Data.List.Chain
import Mathlib.Data.List.Nodup

/-!
Why resolutions fail. A resolution that fails has met its cause in the repository, at a BOM to which
a chain of imports leads: a document that cannot be had, an entry that cannot be filled in, a way
back to where imports or parents come from, or no room left for another BOM.
-/

namespace BomTable

variable {r : Resolver} {I : World → Prop} {chain : List Coordinates} {c : Coordinates}
  {s : Source}

/-- What can end the resolution of a BOM behind a chain of imports, apart from what ends the
resolutions of its imports. -/
inductive Resolver.Breaks (r : Resolver) (chain : List Coordinates) (c : Coordinates)
    (s : Source) : Failure → Prop where
  | noRoom (h : r.maxDepth.toNat = 0) : Breaks r chain c s .noRoom
  | importCycle (h : c ∈ chain) : Breaks r chain c s (.error (.importCycle (chain ++ [c]) c))
  | importsTooDeep {first : Coordinates} {rest : List Coordinates} (hchain : chain = first :: rest)
      (hnodup : (chain ++ [c]).Nodup) (hlength : (chain ++ [c]).length = r.maxDepth.toNat + 1) :
      Breaks r chain c s (.error (.importsTooDeep first r.maxDepth c))
  | document {p : Coordinates} {f : Failure} (hp : Relation.ReflTransGen r.client.HasParent c p)
      (h : r.client.Lacks p f) : Breaks r chain c s f
  | parentCycle {above : List Coordinates} {p : Coordinates}
      (h : (c :: above ++ [p]).IsChain r.client.HasParent) (hp : p ∈ chain ++ c :: above) :
      Breaks r chain c s (.error (.parentCycle p c))
  | parentsTooDeep (above : List Coordinates) (h : (c :: above).IsChain r.client.HasParent)
      (hnodup : (chain ++ c :: above).Nodup)
      (hlength : (chain ++ c :: above).length = r.maxDepth.toNat + 1) :
      Breaks r chain c s (.error (.parentsTooDeep c))
  | entry (h : Hierarchy) {pom : Pom} {raw : RawEntry} {e : Error} (hc : r.client.Loads c h)
      (hpom : pom ∈ h.poms) (hraw : raw ∈ pom.management)
      (he : raw.Refused (h.scope s) pom e) : Breaks r chain c s (.error e)

/-- Some BOM to which a chain of imports leads has the cause. -/
def Resolver.Fails (r : Resolver) (chain : List Coordinates) (c : Coordinates) (s : Source)
    (f : Failure) : Prop :=
  ∃ path d t, Chain r.client c s path d t ∧ (chain ++ path).Nodup ∧ r.Breaks (chain ++ path) d t f

namespace Resolver

/-! ### The parents -/

lemma document_breaks {above : List Coordinates} {p : Coordinates} {f : Failure}
    (h : (c :: above ++ [p]).IsChain r.client.HasParent) (hf : r.client.document p = .error f) :
    r.Breaks chain c s f :=
  .document (List.relationReflTransGen_of_exists_isChain_cons _ h (by simp))
    (Client.lacks_of_document hf)

lemma nodup_snoc (hchain : chain.Nodup) (hc : c ∉ chain) : (chain ++ [c]).Nodup := by
  rw [← List.concat_eq_append]
  exact hchain.concat hc

lemma nodup_above {above : List Coordinates} {p : Coordinates} (h : (chain ++ c :: above).Nodup)
    (hp : p ∉ chain ++ c :: above) : (chain ++ c :: (above ++ [p])).Nodup := by
  rw [← List.cons_append, ← List.append_assoc]
  exact nodup_snoc h hp

/-- The loop over the parents, when it has got to the last of `above`, which has the POM. -/
lemma ancestors_breaks (hI : Invariant r (fun _ => True) I) (room : Nat)
    {seen : List Coordinates} (above : List Coordinates) {pom : Pom}
    (hseen : ∀ p, p ∈ seen ↔ p ∈ c :: above)
    (habove : ∀ p, pom.parent = some p → (c :: above ++ [p]).IsChain r.client.HasParent)
    (hnodup : (chain ++ c :: above).Nodup)
    (hlength : (chain ++ c :: above).length + room = r.maxDepth.toNat) :
    Run.Spec I (r.ancestors (chain ++ [c]) c room seen pom) (fun _ => True)
      (r.Breaks chain c s) := by
  fun_induction r.ancestors (chain ++ [c]) c room seen pom generalizing above with
  | case1 => exact Run.Spec.pure trivial
  | case2 room seen pom p hp hcycle =>
    exact Run.Spec.fail hI.logged (.parentCycle (habove p hp) (by grind))
  | case3 seen pom p hp hcycle =>
    refine Run.Spec.fail hI.logged (.parentsTooDeep (above ++ [p]) (habove p hp)
      (nodup_above hnodup (by grind)) ?_)
    simp only [List.length_append, List.length_cons, List.length_nil] at hlength ⊢
    omega
  | case4 seen pom p hp hcycle room ih =>
    refine ((load_spec hI trivial).mono (fun _ h => h) fun f hf =>
      document_breaks (habove p hp) hf).bind fun next hnext => ?_
    refine Run.Spec.bind (Q := fun _ => True) ?_ fun _ _ => Run.Spec.pure trivial
    refine ih next (above ++ [p]) (by grind) (fun q hq => ?_)
      (nodup_above hnodup (by grind)) ?_
    · have hpq : r.client.HasParent p q := ⟨next, hnext, hq⟩
      rw [List.cons_append, List.append_assoc, List.singleton_append,
        List.isChain_cons_append_cons_cons]
      exact ⟨habove p hp, hpq, List.isChain_singleton q⟩
    · simp only [List.length_append, List.length_cons, List.length_nil] at hlength ⊢
      omega

/-! ### One BOM -/

lemma Breaks.fails {f : Failure} (hchain : chain.Nodup) (h : r.Breaks chain c s f) :
    r.Fails chain c s f :=
  ⟨[], c, s, .here, by simpa using hchain, by simpa using h⟩

lemma Fails.of_imports {d : Coordinates} {t : Source} {f : Failure}
    (hd : Imports r.client c s d t) (h : r.Fails (chain ++ [c]) d t f) : r.Fails chain c s f := by
  obtain ⟨path, e, u, hpath, hnodup, hf⟩ := h
  rw [List.append_assoc, List.singleton_append] at hnodup hf
  exact ⟨c :: path, e, u, .through hd hpath, hnodup, hf⟩

lemma parents_fails (hI : Invariant r (fun _ => True) I) {room : Nat} {pom : Pom}
    (hpom : r.client.document c = .ok pom) (hchain : (chain ++ [c]).Nodup)
    (hlength : chain.length + (room + 1) = r.maxDepth.toNat) :
    Run.Spec I (r.ancestors (chain ++ [c]) c room [c] pom)
      (fun parents => r.client.Lineage pom parents) (r.Fails chain c s) := by
  have hspec := ancestors_spec hI (chain ++ [c]) c room [c] pom fun _ _ _ _ => trivial
  have hparent : ∀ p, pom.parent = some p → [c, p].IsChain r.client.HasParent := fun p hp =>
    List.isChain_pair.2 ⟨pom, hpom, hp⟩
  have hroom : (chain ++ [c]).length + room = r.maxDepth.toNat := by
    simp only [List.length_append, List.length_singleton]
    omega
  have hbreaks : Run.Spec I (r.ancestors (chain ++ [c]) c room [c] pom) (fun _ => True)
      (r.Breaks chain c s) := ancestors_breaks hI room [] (fun p => Iff.rfl) hparent hchain hroom
  exact (hspec.and hbreaks).mono (fun _ h => h.1.1) fun f hf =>
    hf.2.fails (List.nodup_append.1 hchain).1

lemma make_fails (hI : Invariant r (fun _ => True) I) {room : Nat}
    {nested : Coordinates → Source → Run Resolution} (hchain : (chain ++ [c]).Nodup)
    (hlength : chain.length + (room + 1) = r.maxDepth.toNat)
    (hnested : ∀ d t, Imports r.client c s d t → Run.Spec I (nested d t)
      (fun found => AmountsTo r.client d t found.bom) (r.Fails (chain ++ [c]) d t)) :
    Run.Spec I (r.make room (chain ++ [c]) c s nested) (fun _ => True) (r.Fails chain c s) := by
  have hchain' : chain.Nodup := (List.nodup_append.1 hchain).1
  unfold make
  refine ((load_spec hI trivial).mono (fun _ h => h) fun f hf =>
    Breaks.fails hchain' (.document .refl (Client.lacks_of_document hf))).bind fun pom hpom => ?_
  refine (parents_fails hI hpom hchain hlength).bind fun parents hl => ?_
  have hfollows : Run.Follows I
      (expandLevels (fun d => nested d (handedDown pom parents s))
        (effective pom (handedDown pom parents s)) 0 (pom :: parents))
      (Candidate.ofLevels (fun d => r.client.table d (handedDown pom parents s))
        (effective pom (handedDown pom parents s)) 0 (pom :: parents))
      (∀ d, Imported (effective pom (handedDown pom parents s)) (pom :: parents) d →
        ∃ b, AmountsTo r.client d (handedDown pom parents s) b)
      (r.Fails chain c s) := by
    refine expandLevels_follows hI 0 fun d hd => ?_
    have himports : Imports r.client c s d (handedDown pom parents s) :=
      ⟨pom, parents, hpom, hl, rfl, hd⟩
    exact (hnested d _ himports).mono (fun found h => ⟨h.table_eq.symm, _, h⟩) fun f hf =>
      .of_imports himports hf
  refine (Run.Spec.mono hfollows (fun _ h => h) fun f hf => ?_).bind fun cs hcs => ?_
  · rcases hf with hf | ⟨e, rfl, he⟩
    · exact hf
    · obtain ⟨p, hp, raw, hraw, he⟩ := Candidate.exists_refused_of_ofLevels he
      exact Breaks.fails hchain' (.entry ⟨pom, parents⟩ ⟨hpom, hl⟩ hp hraw he)
  refine hI.log.bind fun _ _ => ?_
  exact (register_spec hI (.of_tables hpom hl hcs.1 hcs.2)).mono (fun _ _ => trivial) fun _ h => h

lemma guarded_fails (hI : Invariant r (fun _ => True) I) {anew : Run Resolution}
    (hchain : chain.Nodup)
    (hanew : c ∉ chain → Run.Spec I anew (fun _ => True) (r.Fails chain c s)) :
    Run.Spec I (guarded chain c s anew) (fun _ => True) (r.Fails chain c s) := by
  refine (cached?_spec hI).bind fun found _ => ?_
  cases found with
  | some f => exact Run.Spec.pure trivial
  | none =>
    dsimp only
    split_ifs with hc
    · exact Run.Spec.fail hI.logged (Breaks.fails hchain (.importCycle hc))
    · exact hanew hc

/-- **Why a resolution behind a chain of imports fails.** -/
theorem resolveAt_fails (hI : Invariant r (fun _ => True) I) (room : Nat) (hchain : chain.Nodup)
    (hlength : chain.length + room = r.maxDepth.toNat) :
    Run.Spec I (r.resolveAt room chain c s) (fun _ => True) (r.Fails chain c s) := by
  -- The chain grows as the room shrinks, so both reach the limit together.
  induction room generalizing chain c s with
  | zero =>
    refine guarded_fails hI hchain fun hc => ?_
    cases chain with
    | nil =>
      have hroom : r.maxDepth.toNat = 0 := by simpa using hlength.symm
      exact Run.Spec.throw (Breaks.fails hchain (.noRoom hroom))
    | cons first rest =>
      have hlength' : (first :: rest ++ [c]).length = r.maxDepth.toNat + 1 := by
        simp only [List.length_append, List.length_cons, List.length_nil] at hlength ⊢
        omega
      exact Run.Spec.fail hI.logged
        (Breaks.fails hchain (.importsTooDeep rfl (nodup_snoc hchain hc) hlength'))
  | succ room ih =>
    refine guarded_fails hI hchain fun hc => ?_
    have hchain' : (chain ++ [c]).Nodup := nodup_snoc hchain hc
    have hlength' : (chain ++ [c]).length + room = r.maxDepth.toNat := by
      simp only [List.length_append, List.length_singleton]
      omega
    refine make_fails hI hchain' hlength fun d t hd => ?_
    have hgives : Run.Spec I (r.resolveAt room (chain ++ [c]) d t) _ _ :=
      resolveAt_spec hI room hchain' (by omega) fun _ _ => trivial
    exact (hgives.and (ih hchain' hlength')).mono (fun _ h => h.1.1) fun _ h => h.2

theorem resolve_fails (hI : Invariant r (fun _ => True) I) :
    Run.Spec I (r.resolve c s) (fun _ => True) (r.Fails [] c s) :=
  (resolveAt_fails hI r.maxDepth.toNat List.nodup_nil (Nat.zero_add _)).timed hI.logged

end Resolver

end BomTable
