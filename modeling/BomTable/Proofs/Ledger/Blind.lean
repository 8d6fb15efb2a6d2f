import BomTable.Ledger.Effective
import BomTable.Proofs.Run.Blind

/-!
Resolutions and the table of a ledger do not depend on what was noted before.
-/

namespace BomTable

open Run (Blind)

namespace Resolver

variable {r : Resolver}

lemma blind_fetch (c : Coordinates) : Blind (r.fetch c) := by
  refine Blind.get (fun _ => rfl) fun w => ?_
  split
  · exact Blind.pure
  · refine Blind.note.bind fun _ => Blind.ofFailure.bind fun found => ?_
    cases found with
    | none => exact Blind.fail
    | some content => exact (Blind.modify fun _ => rfl).bind fun _ => Blind.pure

lemma blind_load (c : Coordinates) : Blind (r.load c) :=
  (blind_fetch c).bind fun _ => Blind.ofFailure

lemma blind_ancestors (chain : List Coordinates) (c : Coordinates) (room : Nat)
    (seen : List Coordinates) (pom : Pom) : Blind (r.ancestors chain c room seen pom) := by
  fun_induction r.ancestors chain c room seen pom with
  | case1 => exact Blind.pure
  | case2 => exact Blind.fail
  | case3 => exact Blind.fail
  | case4 _ _ p _ _ _ ih => exact (blind_load p).bind fun next => (ih next).bind fun _ => Blind.pure

variable {nested : Coordinates → Run Resolution}

lemma blind_expandEntry (hnested : ∀ d, Blind (nested d)) (properties : Source) (level : Nat)
    (pom : Pom) (raw : RawEntry) : Blind (expandEntry nested properties level pom raw) := by
  unfold expandEntry
  split_ifs
  · exact Blind.ofExcept.bind fun d => (hnested d).bind fun _ => Blind.pure
  · split
    · exact Blind.log.bind fun _ => Blind.pure
    · exact Blind.ofExcept.bind fun _ => Blind.pure

lemma blind_expandLevels (hnested : ∀ d, Blind (nested d)) (properties : Source) (level : Nat)
    (poms : List Pom) : Blind (expandLevels nested properties level poms) := by
  induction poms generalizing level with
  | nil => exact Blind.pure
  | cons pom above ih =>
    have hown : Blind (expandPom nested properties level pom) :=
      (Blind.mapM fun raw => blind_expandEntry hnested properties level pom raw).bind
        fun _ => Blind.pure
    exact hown.bind fun _ => (ih (level + 1)).bind fun _ => Blind.pure

lemma blind_guarded {chain : List Coordinates} {c : Coordinates} {s : Source}
    {anew : Run Resolution} (hanew : Blind anew) : Blind (guarded chain c s anew) := by
  refine (Blind.modifyGet (fun _ => rfl) fun _ => rfl).bind fun found => ?_
  cases found with
  | some found => exact Blind.pure
  | none =>
    dsimp only
    split_ifs
    · exact Blind.fail
    · exact hanew

lemma blind_make {room : Nat} {chain : List Coordinates} {c : Coordinates} {s : Source}
    {nested : Coordinates → Source → Run Resolution} (hnested : ∀ d t, Blind (nested d t)) :
    Blind (r.make room chain c s nested) := by
  refine (blind_load c).bind fun pom => ?_
  refine (blind_ancestors chain c room [c] pom).bind fun parents => ?_
  refine (blind_expandLevels (fun d => hnested d _) _ 0 _).bind fun _ => Blind.log.bind fun _ => ?_
  exact Blind.modifyGet (fun _ => rfl) fun _ => rfl

lemma blind_resolveAt (room : Nat) (chain : List Coordinates) (c : Coordinates) (s : Source) :
    Blind (r.resolveAt room chain c s) := by
  induction room generalizing chain c s with
  | zero =>
    refine blind_guarded ?_
    cases chain with
    | nil => exact Blind.throw
    | cons first rest => exact Blind.fail
  | succ room ih => exact blind_guarded (blind_make fun d t => ih _ d t)

theorem blind_resolve (c : Coordinates) (s : Source) : Blind (r.resolve c s) :=
  (blind_resolveAt _ _ c s).timed

end Resolver

namespace Ledger

variable {r : Resolver}

lemma blind_addImports (current : Source) (table : List Effective)
    (imports : List (Import × Nat)) : Blind (addImports r current table imports) := by
  induction imports generalizing table with
  | nil => exact Blind.pure
  | cons i rest ih => exact (Resolver.blind_resolve _ _).bind fun _ => ih _

theorem blind_effectiveManagement (current : Source) : Blind (effectiveManagement r current) := by
  have hcurrent : Blind Ledger.current := Blind.get (fun _ => rfl) fun _ => Blind.pure
  have hentries : Blind (effectiveEntries r current) :=
    hcurrent.bind fun l => (blind_addImports current _ _).timed
  exact hentries.bind fun _ => Blind.pure

end Ledger

end BomTable
