import BomTable.Proofs.Property.Blank
import BomTable.Proofs.Repository.Containment

/-!
Which coordinates share a place in repositories. Where no part of the coordinates has a slash in it,
the slashes of the place stand between its names only: those of the group, the artifact, the version
and the file. The place then tells the coordinates.
-/

namespace BomTable

namespace Coordinates

variable {c d : Coordinates} {place : String}

/-- No part of the coordinates has a slash in it. -/
structure Slashless (c : Coordinates) : Prop where
  group : '/' ∉ c.group.toList
  artifact : '/' ∉ c.artifact.toList
  version : ∀ v, c.version = some v → '/' ∉ v.toList

/-- The names of a place are those of the group, then the artifact, the version and the file. -/
lemma fields_pomPath (hc : c.Slashless) (h : c.pomPath = some place) :
    ∃ v, c.version = some v ∧ Text.fields '/' place =
      Text.fields '.' c.group ++ [c.artifact, v, c.artifact ++ "-" ++ v ++ ".pom"] := by
  obtain ⟨v, hv, rfl⟩ := pomPath_eq_some h
  obtain ⟨hversion, -⟩ := eq_of_nonempty? hv
  have hslash : '/' ∉ v.toList := hc.version v hversion
  have hfile : '/' ∉ (c.artifact ++ "-" ++ v ++ ".pom").toList := by
    simp [String.toList_append, hc.artifact, hslash]
  have hcut : ∀ s t : String, Text.fields '/' (s ++ "/" ++ t) =
      Text.fields '/' s ++ Text.fields '/' t := Text.fields_append '/'
  refine ⟨v, hversion, ?_⟩
  rw [hcut, hcut, hcut, Text.fields_replaceChar hc.group,
    Text.fields_of_not_mem hc.artifact, Text.fields_of_not_mem hslash,
    Text.fields_of_not_mem hfile]
  simp only [List.append_assoc, List.cons_append, List.nil_append]

/-- **The place tells the coordinates.** -/
theorem pomPath_eq_iff (hc : c.Slashless) (hd : d.Slashless)
    (hversion : Text.nonempty? c.version ≠ none) : c.pomPath = d.pomPath ↔ c = d := by
  refine ⟨fun h => ?_, fun h => h ▸ rfl⟩
  obtain ⟨place, hplace⟩ : ∃ place, c.pomPath = some place :=
    Option.ne_none_iff_exists'.1 (mt Option.map_eq_none_iff.1 hversion)
  obtain ⟨v, hv, hfields⟩ := fields_pomPath hc hplace
  obtain ⟨w, hw, hfields'⟩ := fields_pomPath hd (h ▸ hplace)
  obtain ⟨hgroup, hrest⟩ := List.append_inj' (hfields.symm.trans hfields') rfl
  simp only [List.cons.injEq] at hrest
  obtain ⟨hartifact, rfl, -⟩ := hrest
  cases c
  cases d
  simp only [Coordinates.mk.injEq]
  exact ⟨Text.fields_injective '.' hgroup, hartifact, hv.trans hw.symm⟩

/-- Two artifacts whose files have the same name, `a-1-2.pom`, have different places. -/
theorem pomPath_ne_hyphenated :
    Slashless ⟨"org.g", "a-1", some "2"⟩ ∧ Slashless ⟨"org.g", "a", some "1-2"⟩ ∧
      pomPath ⟨"org.g", "a-1", some "2"⟩ ≠ pomPath ⟨"org.g", "a", some "1-2"⟩ := by
  have hc : Slashless ⟨"org.g", "a-1", some "2"⟩ :=
    ⟨by decide, by decide, fun v hv => Option.some.inj hv ▸ by decide⟩
  have hd : Slashless ⟨"org.g", "a", some "1-2"⟩ :=
    ⟨by decide, by decide, fun v hv => Option.some.inj hv ▸ by decide⟩
  have hiff := pomPath_eq_iff hc hd (by decide)
  exact ⟨hc, hd, hiff.not.2 (by decide)⟩

/-- A slash in a group stands for the same as a point. -/
example : pomPath ⟨"org/g", "a", some "1"⟩ = pomPath ⟨"org.g", "a", some "1"⟩ := by decide

end Coordinates

end BomTable
