import BomTable.Artifact.Reading
import BomTable.Proofs.Property.Blank
import BomTable.Proofs.Text.Fields

/-!
Reading what was written. Coordinates and exclusions that were read from a text are read as the same
from their written form, so the written form tells them. Only an empty version is not written: it is
missing then, and the blanks that end the artifact go with it.
-/

namespace BomTable

open Text

/-! ### What is built and read -/

namespace Owner

variable {α : Type} {owner : Owner} {group artifact : String} {x y : α} {e : Error}

lemma make_eq_ok : owner.make group artifact x = .ok y ↔
    isBlank group = false ∧ isBlank artifact = false ∧ y = x := by
  unfold make require
  cases isBlank group with
  | true => exact ⟨fun h => (nomatch h), fun h => (nomatch h.1)⟩
  | false =>
    cases isBlank artifact with
    | true => exact ⟨fun h => (nomatch h), fun h => (nomatch h.2.1)⟩
    | false => exact ⟨fun h => ⟨rfl, rfl, (Except.ok.inj h).symm⟩, fun h => congrArg _ h.2.2.symm⟩

lemma blank_of_make_eq_error (h : owner.make group artifact x = .error e) :
    isBlank group = true ∧ e = .blankPart owner .group ∨
      isBlank artifact = true ∧ e = .blankPart owner .artifact := by
  unfold make require at h
  cases hg : isBlank group with
  | true =>
    rw [hg] at h
    exact .inl ⟨rfl, (Except.error.inj h).symm⟩
  | false =>
    cases ha : isBlank artifact with
    | true =>
      rw [hg, ha] at h
      exact .inr ⟨rfl, (Except.error.inj h).symm⟩
    | false =>
      rw [hg, ha] at h
      cases h

end Owner

variable {text : Option String} {c : Coordinates} {e : Exclusion}

lemma map_fields_eq_some_iff {first second : String} {rest : List String} :
    (nonempty? text).map (fun s => fields ':' (strip s)) = some (first :: second :: rest) ↔
      ∃ s, text = some s ∧ fields ':' (strip s) = first :: second :: rest := by
  constructor
  · intro h
    obtain ⟨s, hs, hfields⟩ := Option.map_eq_some_iff.1 h
    exact ⟨s, (eq_of_nonempty? hs).1, hfields⟩
  · rintro ⟨s, rfl, hfields⟩
    have hne : s ≠ "" := by
      rintro rfl
      have hempty : fields ':' (strip "") = [""] := by decide
      rw [hempty] at hfields
      cases hfields
    rw [nonempty?, if_neg hne, Option.map_some, hfields]

namespace Coordinates

/-- What stands between the colons of a text that is read as the coordinates. -/
def parts (c : Coordinates) : List String := c.group :: c.artifact :: c.version.toList

lemma read_eq_ok_iff : read text = .ok c ↔
    isBlank c.group = false ∧ isBlank c.artifact = false ∧
      ∃ s, text = some s ∧ fields ':' (strip s) = c.parts := by
  constructor
  · intro h
    unfold read at h
    split at h
    · next g a hfields =>
      obtain ⟨hg, ha, rfl⟩ := Owner.make_eq_ok.1 h
      exact ⟨hg, ha, map_fields_eq_some_iff.1 hfields⟩
    · next g a v hfields =>
      obtain ⟨hg, ha, rfl⟩ := Owner.make_eq_ok.1 h
      exact ⟨hg, ha, map_fields_eq_some_iff.1 hfields⟩
    · cases h
  · rintro ⟨hg, ha, hs⟩
    have hfields := map_fields_eq_some_iff.2 hs
    obtain ⟨g, a, v⟩ := c
    have hmade : make g a v = .ok ⟨g, a, v⟩ := Owner.make_eq_ok.2 ⟨hg, ha, rfl⟩
    cases v <;> simpa [read, hfields] using hmade

end Coordinates

lemma Exclusion.read_eq_ok_iff : read text = .ok e ↔
    isBlank e.group = false ∧ isBlank e.artifact = false ∧
      ∃ s, text = some s ∧ fields ':' (strip s) = [e.group, e.artifact] := by
  constructor
  · intro h
    unfold read at h
    split at h
    · next g a hfields =>
      obtain ⟨hg, ha, rfl⟩ := Owner.make_eq_ok.1 h
      exact ⟨hg, ha, map_fields_eq_some_iff.1 hfields⟩
    · cases h
  · rintro ⟨hg, ha, hs⟩
    have hmade : make e.group e.artifact = .ok e := Owner.make_eq_ok.2 ⟨hg, ha, rfl⟩
    simpa [read, map_fields_eq_some_iff.2 hs] using hmade

/-! ### What is written and read again -/

namespace Coordinates

lemma written_eq_joined (hversion : c.version ≠ some "") : c.written = joined ":" c.parts := by
  obtain ⟨g, a, v⟩ := c
  cases v with
  | none => rfl
  | some v =>
    have hv : v ≠ "" := fun he => hversion (congrArg some he)
    simp [written, unversioned, parts, joined, nonempty?, hv, String.append_assoc]

lemma read_written_of_version (h : read text = .ok c) (hversion : c.version ≠ some "") :
    read (some c.written) = .ok c := by
  obtain ⟨hg, ha, s, -, hparts⟩ := read_eq_ok_iff.1 h
  have hwritten : c.written = strip s := by
    rw [written_eq_joined hversion, ← hparts]
    exact joined_fields ':' (strip s)
  refine read_eq_ok_iff.2 ⟨hg, ha, c.written, rfl, ?_⟩
  rw [hwritten, strip_strip, hparts]

/-- Stripping what is not blank on both sides of a colon takes the blanks at the end only, if there
are none at the beginning. -/
lemma fields_strip_unversioned (hg : isBlank c.group = false) (ha : isBlank c.artifact = false)
    (hstart : stripStart c.group.toList = c.group.toList) (hcolon : ∀ t ∈ c.parts, ':' ∉ t.toList) :
    fields ':' (strip c.unversioned) =
      [c.group, String.ofList (stripEnd c.artifact.toList)] := by
  have hgroup : ':' ∉ c.group.toList := hcolon c.group (by simp [parts])
  have hartifact : ':' ∉ stripEnd c.artifact.toList := fun hmem =>
    hcolon c.artifact (by simp [parts]) ((List.rdropWhile_prefix isBlankChar _).subset hmem)
  have hchars : stripChars c.unversioned.toList =
      c.group.toList ++ ':' :: stripEnd c.artifact.toList := by
    have hunversioned : c.unversioned.toList = c.group.toList ++ ([':'] ++ c.artifact.toList) := by
      simp [unversioned, String.toList_append]
    rw [hunversioned, stripChars, stripStart_append hg, hstart, ← List.append_assoc,
      stripEnd_append ha, List.append_assoc, List.singleton_append]
  rw [fields, strip, String.toList_ofList, hchars, pieces_append, pieces_of_not_mem hgroup,
    pieces_of_not_mem hartifact]
  simp

lemma read_written_of_empty (h : read text = .ok c) (hversion : c.version = some "") :
    read (some c.written) = .ok ⟨c.group, String.ofList (stripEnd c.artifact.toList), none⟩ := by
  obtain ⟨hg, ha, s, -, hparts⟩ := read_eq_ok_iff.1 h
  have hcolon : ∀ t ∈ c.parts, ':' ∉ t.toList := fun t ht =>
    not_mem_of_mem_fields (hparts ▸ ht)
  have hstart : stripStart c.group.toList = c.group.toList := by
    have hchars : stripChars s.toList =
        c.group.toList ++ (':' :: (c.artifact.toList ++ [':'])) := by
      have hjoined : joined ":" c.parts = strip s := hparts ▸ joined_fields ':' (strip s)
      rw [← String.toList_ofList (l := stripChars s.toList), ← strip, ← hjoined]
      simp [parts, hversion, joined, String.toList_append]
    have hstripped := stripStart_stripChars s.toList
    rw [hchars, stripStart_append hg] at hstripped
    exact List.append_cancel_right hstripped
  have hwritten : c.written = c.unversioned := by
    simp [written, hversion, nonempty?]
  refine read_eq_ok_iff.2 ⟨hg, ?_, c.written, rfl, ?_⟩
  · rw [isBlank, String.toList_ofList, ← Bool.not_eq_true]
    exact fun hblank => Bool.false_ne_true (ha.symm.trans (all_blank_of_stripEnd hblank))
  · rw [hwritten, fields_strip_unversioned hg ha hstart hcolon]
    rfl

end Coordinates

lemma Exclusion.read_written_of_read (h : read text = .ok e) : read (some e.written) = .ok e := by
  obtain ⟨hg, ha, s, -, hparts⟩ := read_eq_ok_iff.1 h
  have hwritten : e.written = strip s := by
    rw [← joined_fields ':' (strip s), hparts]
    simp [Exclusion.written, joined]
  refine read_eq_ok_iff.2 ⟨hg, ha, e.written, rfl, ?_⟩
  rw [hwritten, strip_strip, hparts]

/-- **What was read is read again from its written form**, and is told by it. Coordinates with an
empty version are the only exception: they come back without a version, and without the blanks that
end the artifact. -/
theorem reread_written (text : Option String) :
    (∀ c, Coordinates.read text = .ok c →
      (Coordinates.read (some c.written) = .ok c ↔ c.version ≠ some "") ∧
      (c.version = some "" → Coordinates.read (some c.written) =
        .ok ⟨c.group, String.ofList (stripEnd c.artifact.toList), none⟩) ∧
      ∀ text' d, Coordinates.read text' = .ok d → c.version ≠ some "" → d.version ≠ some "" →
        c.written = d.written → c = d) ∧
    ∀ e, Exclusion.read text = .ok e → Exclusion.read (some e.written) = .ok e := by
  refine ⟨fun c h => ⟨⟨fun hsame hversion => ?_, ?_⟩, ?_, fun text' d h' hc hd hwritten => ?_⟩,
    fun e h => ?_⟩
  · rw [Coordinates.read_written_of_empty h hversion, Except.ok.injEq] at hsame
    rw [← hsame] at hversion
    cases hversion
  · exact Coordinates.read_written_of_version h
  · exact Coordinates.read_written_of_empty h
  · have hread := Coordinates.read_written_of_version h hc
    rw [hwritten, Coordinates.read_written_of_version h' hd] at hread
    exact (Except.ok.inj hread).symm
  · exact Exclusion.read_written_of_read h

/-- The blank before the second colon is at the end of the text when that colon is not written. -/
theorem reread_written_spaced :
    Coordinates.read (some " g:a :\n") = .ok ⟨"g", "a ", some ""⟩ ∧
    Coordinates.read (some (Coordinates.written ⟨"g", "a ", some ""⟩)) = .ok ⟨"g", "a", none⟩ ∧
    Coordinates.read (some "g:a : 1\n") = .ok ⟨"g", "a ", some " 1"⟩ ∧
    Coordinates.read (some (Coordinates.written ⟨"g", "a ", some " 1"⟩)) =
      .ok ⟨"g", "a ", some " 1"⟩ ∧
    Coordinates.written ⟨"g", "a ", some " 1"⟩ ≠ Coordinates.written ⟨"g", "a", some " 1"⟩ ∧
    Exclusion.read (some " *:\ta") = .ok ⟨"*", "\ta"⟩ ∧
    Exclusion.read (some (Exclusion.written ⟨"*", "\ta"⟩)) = .ok ⟨"*", "\ta"⟩ := by
  have hempty : Coordinates.read (some " g:a :\n") = .ok ⟨"g", "a ", some ""⟩ := by decide
  have hfull : Coordinates.read (some "g:a : 1\n") = .ok ⟨"g", "a ", some " 1"⟩ := by decide
  have hother : Coordinates.read (some "g:a: 1") = .ok ⟨"g", "a", some " 1"⟩ := by decide
  have hexclusion : Exclusion.read (some " *:\ta") = .ok ⟨"*", "\ta"⟩ := by decide
  obtain ⟨-, hdropped, -⟩ := (reread_written _).1 _ hempty
  obtain ⟨hkept, -, htold⟩ := (reread_written _).1 _ hfull
  exact ⟨hempty, hdropped rfl, hfull, hkept.2 (by decide),
    mt (htold _ _ hother (by decide) (by decide)) (by decide),
    hexclusion, (reread_written _).2 _ hexclusion⟩

end BomTable
