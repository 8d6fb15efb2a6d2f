import BomTable.Pom.Document
import BomTable.Property.Placeholder
import Mathlib.Data.List.DropRight
import Mathlib.Data.List.TakeWhile
import Mathlib.Tactic.Common

/-!
Blank texts. The names that a document writes are not blank, and putting values into a text that is
not blank leaves nothing of it only where some of the values are blank themselves.
-/

namespace BomTable

namespace Text

variable {s t : String} {cs front back : List Char}

lemma not_isBlank_iff : isBlank s = false ↔ ∃ c ∈ s.toList, isBlankChar c = false := by
  rw [isBlank, List.all_eq_false]
  simp only [Bool.not_eq_true]

lemma all_blank_of_stripStart (h : (stripStart cs).all isBlankChar = true) :
    cs.all isBlankChar = true := by
  induction cs with
  | nil => rfl
  | cons c cs ih =>
    unfold stripStart at h ih
    by_cases hc : isBlankChar c = true
    · rw [List.dropWhile_cons_of_pos hc] at h
      rw [List.all_cons, hc, ih h, Bool.and_self]
    · rw [List.dropWhile_cons_of_neg hc] at h
      exact h

lemma all_blank_of_stripEnd (h : (stripEnd cs).all isBlankChar = true) :
    cs.all isBlankChar = true := by
  rw [stripEnd, List.all_reverse] at h
  have hback := all_blank_of_stripStart h
  rwa [List.all_reverse] at hback

lemma all_blank_of_stripChars (h : (stripChars cs).all isBlankChar = true) :
    cs.all isBlankChar = true :=
  all_blank_of_stripStart (all_blank_of_stripEnd h)

lemma not_isBlank_of_filled? (h : filled? s = some t) : isBlank t = false := by
  unfold filled? at h
  split_ifs at h with hs
  obtain rfl : strip s = t := Option.some.inj h
  by_contra ht
  rw [Bool.not_eq_false, isBlank, strip, String.toList_ofList] at ht
  exact hs (all_blank_of_stripChars ht)

lemma stripStart_append (h : front.all isBlankChar = false) :
    stripStart (front ++ back) = stripStart front ++ back := by
  have hne : (front.dropWhile isBlankChar).isEmpty = false := by
    rw [List.isEmpty_eq_false_iff, ne_eq, List.dropWhile_eq_nil_iff, ← List.all_eq_true, h]
    exact Bool.false_ne_true
  rw [stripStart, stripStart, List.dropWhile_append, hne, if_neg Bool.false_ne_true]

lemma stripEnd_append (h : back.all isBlankChar = false) :
    stripEnd (front ++ back) = front ++ stripEnd back := by
  rw [stripEnd, stripEnd, List.reverse_append, stripStart_append (List.all_reverse.trans h),
    List.reverse_append, List.reverse_reverse]

lemma stripStart_stripChars (cs : List Char) : stripStart (stripChars cs) = stripChars cs := by
  refine List.dropWhile_eq_self_iff.2 fun hlength => ?_
  -- The first character that is left stands before all blanks that the end loses.
  have hkept : stripChars cs <+: cs.dropWhile isBlankChar :=
    List.rdropWhile_prefix isBlankChar (cs.dropWhile isBlankChar)
  have hstart : 0 < (cs.dropWhile isBlankChar).length :=
    Nat.lt_of_lt_of_le hlength hkept.length_le
  rw [hkept.getElem hlength]
  exact List.dropWhile_get_zero_not isBlankChar cs hstart

lemma stripChars_stripChars (cs : List Char) : stripChars (stripChars cs) = stripChars cs := by
  calc stripChars (stripChars cs)
      = stripEnd (stripChars cs) := by rw [stripChars, stripStart_stripChars]
    _ = stripChars cs := List.rdropWhile_idempotent isBlankChar (stripStart cs)

lemma strip_strip (s : String) : strip (strip s) = strip s := by
  rw [strip, strip, String.toList_ofList, stripChars_stripChars]

lemma filled?_of_filled? (h : filled? s = some t) : filled? t = some t := by
  have hfilled : isBlank t = false := not_isBlank_of_filled? h
  unfold filled? at h
  split_ifs at h
  obtain rfl : strip s = t := Option.some.inj h
  rw [filled?, hfilled, strip_strip]
  rfl

lemma bind_filled? {v : Option String} : (v.bind filled?).bind filled? = v.bind filled? := by
  cases v with
  | none => rfl
  | some s =>
    rw [Option.bind_some]
    cases h : filled? s with
    | none => rfl
    | some t => exact filled?_of_filled? h

end Text

lemma eq_of_nonempty? {x : Option String} {v : String} (h : Text.nonempty? x = some v) :
    x = some v ∧ v ≠ "" := by
  cases x with
  | none => cases h
  | some t =>
    rw [Text.nonempty?] at h
    split_ifs at h with ht
    obtain rfl := Option.some.inj h
    exact ⟨rfl, ht⟩

/-! ### Filling in -/

namespace Placeholder

variable {lookup : String → Option String} {cs : List Char}

/-- The characters that the scan has read but not given yet. -/
def Phase.pending : Phase → List Char
  | .plain => []
  | .dollar => ['$']
  | .inside read => '$' :: '{' :: read.reverse

lemma written_verbatim : (verbatim cs).flatMap Piece.written = cs := by
  induction cs with
  | nil => rfl
  | cons c cs ih =>
    rw [verbatim, List.map_cons, List.flatMap_cons, ← verbatim, ih]
    rfl

lemma written_scan {phase : Phase} :
    (scan phase cs).flatMap Piece.written = phase.pending ++ cs := by
  fun_induction scan phase cs with
  | case1 => rfl
  | case2 => rfl
  | case3 read => simp [written_verbatim, Phase.pending]
  | case4 cs ih => simpa [Phase.pending] using ih
  | case5 c cs hc ih => simpa [Phase.pending, Piece.written] using ih
  | case6 cs ih => simpa [Phase.pending] using ih
  | case7 cs hc ih => simpa [Phase.pending, Piece.written] using ih
  | case8 c cs hc hd ih => simpa [Phase.pending, Piece.written] using ih
  | case9 read cs hread ih =>
    obtain rfl := List.isEmpty_iff.1 hread
    simpa [Phase.pending, List.flatMap_append, written_verbatim] using ih
  | case10 read cs hread ih => simpa [Phase.pending, Piece.written] using ih
  | case11 read c cs hc ih => simpa [Phase.pending] using ih

lemma written_pieces (cs : List Char) : (pieces cs).flatMap Piece.written = cs := written_scan

/-- A round with values that are not blank leaves something of a text. -/
lemma filled_expand (hvalues : ∀ name v, lookup name = some v → Text.isBlank v = false)
    (hcs : ∃ c ∈ cs, Text.isBlankChar c = false) :
    ∃ c ∈ expand lookup cs, Text.isBlankChar c = false := by
  obtain ⟨c, hc, hfilled⟩ := hcs
  rw [← written_pieces cs] at hc
  obtain ⟨p, hp, hc⟩ := List.mem_flatMap.1 hc
  suffices h : ∃ c ∈ p.filled lookup, Text.isBlankChar c = false by
    obtain ⟨c, hc, hfilled⟩ := h
    exact ⟨c, List.mem_flatMap.2 ⟨p, hp, hc⟩, hfilled⟩
  cases p with
  | char d => exact ⟨c, hc, hfilled⟩
  | hole inner =>
    rw [Piece.filled]
    cases hv : lookup (nameOf inner) with
    | none => exact ⟨c, hc, hfilled⟩
    | some v => exact Text.not_isBlank_iff.1 (hvalues _ v hv)

lemma filled_rounds (hvalues : ∀ name v, lookup name = some v → Text.isBlank v = false) (n : Nat)
    (hcs : ∃ c ∈ cs, Text.isBlankChar c = false) :
    ∃ c ∈ rounds lookup n cs, Text.isBlankChar c = false := by
  induction n generalizing cs with
  | zero => exact hcs
  | succ n ih =>
    rw [rounds]
    split_ifs
    · exact hcs
    · exact ih (filled_expand hvalues hcs)

end Placeholder

lemma Source.exists_blank_of_substitute {s : Source} {text : String}
    (htext : Text.isBlank text = false) (h : Text.isBlank (s.substitute text) = true) :
    ∃ name v, s.get? name = some v ∧ Text.isBlank v = true := by
  by_contra hnone
  have hvalues : ∀ name v, s.get? name = some v → Text.isBlank v = false := fun name v hv => by
    rw [← Bool.not_eq_true]
    exact fun hblank => hnone ⟨name, v, hv, hblank⟩
  have hfilled : Text.isBlank (s.substitute text) = false := by
    unfold substitute
    split_ifs
    · rw [Text.not_isBlank_iff, String.toList_ofList]
      exact Placeholder.filled_rounds hvalues _ (Text.not_isBlank_iff.1 htext)
    · exact htext
  rw [hfilled] at h
  cases h

/-! ### What documents write -/

/-- No group and no artifact in an entry is blank. -/
structure RawEntry.Filled (raw : RawEntry) : Prop where
  group : Text.isBlank raw.group = false
  artifact : Text.isBlank raw.artifact = false
  exclusions : ∀ x ∈ raw.exclusions, Text.isBlank x.1 = false ∧ Text.isBlank x.2 = false

namespace Pom

lemma filled_of_childText {n : Xml.Node} {tag s : String} (h : n.childText tag = some s) :
    Text.isBlank s = false := by
  obtain ⟨t, -, ht⟩ := Option.bind_eq_some_iff.1 h
  exact Text.not_isBlank_of_filled? ht

lemma filled_of_artifactOf {n : Xml.Node} {x : String × String}
    (h : Reading.artifactOf n = some x) :
    Text.isBlank x.1 = false ∧ Text.isBlank x.2 = false := by
  obtain ⟨group, hgroup, h⟩ := Option.bind_eq_some_iff.1 h
  obtain ⟨artifact, hartifact, h⟩ := Option.bind_eq_some_iff.1 h
  obtain rfl : (group, artifact) = x := Option.some.inj h
  exact ⟨filled_of_childText hgroup, filled_of_childText hartifact⟩

lemma filled_of_managedEntry {n : Xml.Node} {raw : RawEntry}
    (h : Reading.managedEntry n = some raw) : raw.Filled := by
  obtain ⟨x, hx, h⟩ := Option.bind_eq_some_iff.1 h
  obtain rfl := Option.some.inj h
  obtain ⟨hgroup, hartifact⟩ := filled_of_artifactOf hx
  refine ⟨hgroup, hartifact, fun y hy => ?_⟩
  obtain ⟨e, -, he⟩ := List.mem_filterMap.1 hy
  exact filled_of_artifactOf he

lemma filled_versions_of_managedEntry {n : Xml.Node} {raw : RawEntry}
    (h : Reading.managedEntry n = some raw) :
    (∀ v, raw.version = some v → Text.isBlank v = false) ∧
      ∀ v, raw.classifier = some v → Text.isBlank v = false := by
  obtain ⟨x, -, h⟩ := Option.bind_eq_some_iff.1 h
  obtain rfl := Option.some.inj h
  exact ⟨fun v => filled_of_childText, fun v => filled_of_childText⟩

lemma exists_of_ofNode {root : Xml.Node} {pom : Pom} (h : Pom.ofNode root = .ok pom) :
    ∃ c, Reading.coordinates root (Reading.parent root) = .ok c ∧
      pom = { coordinates := c
              parent := Reading.parent root
              packaging := (root.childText "packaging").getD defaultPackaging
              properties := Reading.properties root
              management := Reading.management root
              dependencies := Reading.dependencies root } := by
  unfold ofNode at h
  split_ifs at h
  dsimp only at h
  cases hc : Reading.coordinates root (Reading.parent root) with
  | error e =>
    rw [hc] at h
    cases h
  | ok c =>
    rw [hc] at h
    exact ⟨c, rfl, (Except.ok.inj h).symm⟩

lemma exists_root_of_read {source : Option Coordinates} {content : Content} {pom : Pom}
    (h : Pom.read source content = .ok pom) : ∃ root, Pom.ofNode root = .ok pom := by
  unfold Pom.read at h
  split at h
  · cases h
  · cases h
  · cases h
  · split at h
    case h_1 hok =>
      cases h
      exact ⟨_, hok⟩
    case h_2 => cases h

lemma exists_node_of_read {source : Option Coordinates} {content : Content} {pom : Pom}
    (h : Pom.read source content = .ok pom) {raw : RawEntry} (hraw : raw ∈ pom.management) :
    ∃ n, Reading.managedEntry n = some raw := by
  obtain ⟨root, hroot⟩ := exists_root_of_read h
  obtain ⟨c, -, rfl⟩ := exists_of_ofNode hroot
  rw [Reading.management] at hraw
  split at hraw
  · obtain ⟨n, -, hn⟩ := List.mem_filterMap.1 hraw
    exact ⟨n, hn⟩
  · cases hraw

end Pom

/-! ### The properties that a project has itself -/

/-- Neither the group nor the artifact nor the version is blank. -/
structure Coordinates.Full (c : Coordinates) : Prop where
  group : Text.isBlank c.group = false
  artifact : Text.isBlank c.artifact = false
  version : ∀ v, c.version = some v → Text.isBlank v = false

namespace Pom

lemma full_of_parent {root : Xml.Node} {p : Coordinates} (h : Reading.parent root = some p) :
    p.Full := by
  obtain ⟨n, -, h⟩ := Option.bind_eq_some_iff.1 h
  obtain ⟨group, hgroup, h⟩ := Option.bind_eq_some_iff.1 h
  obtain ⟨artifact, hartifact, h⟩ := Option.bind_eq_some_iff.1 h
  obtain ⟨version, hversion, h⟩ := Option.bind_eq_some_iff.1 h
  obtain rfl := Option.some.inj h
  refine ⟨filled_of_childText hgroup, filled_of_childText hartifact, fun v hv => ?_⟩
  exact Option.some.inj hv ▸ filled_of_childText hversion

lemma own_or_inherited {own inherited : Option String} {v : String}
    (h : (own.orElse fun _ => inherited) = some v) : own = some v ∨ inherited = some v := by
  cases own with
  | none => exact .inr h
  | some t => exact .inl h

lemma full_of_coordinates {root : Xml.Node} {c : Coordinates}
    (h : Reading.coordinates root (Reading.parent root) = .ok c) : c.Full := by
  have hgroup : ∀ g, ((root.childText "groupId").orElse fun _ =>
      (Reading.parent root).map (·.group)) = some g → Text.isBlank g = false := fun g hg => by
    rcases own_or_inherited hg with hg | hg
    · exact filled_of_childText hg
    · obtain ⟨p, hp, rfl⟩ := Option.map_eq_some_iff.1 hg
      exact (full_of_parent hp).group
  have hversion : ∀ v, ((root.childText "version").orElse fun _ =>
      (Reading.parent root).bind (·.version)) = some v → Text.isBlank v = false := fun v hv => by
    rcases own_or_inherited hv with hv | hv
    · exact filled_of_childText hv
    · obtain ⟨p, hp, hv⟩ := Option.bind_eq_some_iff.1 hv
      exact (full_of_parent hp).version v hv
  unfold Reading.coordinates at h
  dsimp only at h
  split at h
  case h_1 g a hg ha =>
    split_ifs at h
    obtain rfl := Except.ok.inj h
    exact ⟨hgroup g hg, filled_of_childText ha, hversion⟩
  case h_2 => cases h

lemma filled_of_builtinPair {name : String} {value : Option String} {e : String × String}
    (hvalue : ∀ v, value = some v → Text.isBlank v = false) (h : e ∈ builtinPair name value) :
    Text.isBlank e.2 = false := by
  cases value with
  | none => cases h
  | some v =>
    have he : e.2 = v := by
      rcases List.mem_cons.1 h with rfl | h
      · rfl
      · rw [List.mem_singleton.1 h]
    rw [he, hvalue v rfl]

lemma filled_of_builtinParent {parent : Option Coordinates} {e : String × String}
    (hparent : ∀ p, parent = some p → p.Full) (h : e ∈ builtinParent parent) :
    Text.isBlank e.2 = false := by
  cases parent with
  | none => cases h
  | some p =>
    have hp : p.Full := hparent p rfl
    rcases List.mem_append.1 h with h | h
    · rcases List.mem_cons.1 h with rfl | h
      · exact hp.group
      · rw [List.mem_singleton.1 h]
        exact hp.artifact
    · obtain ⟨v, hv, rfl⟩ := Option.map_eq_some_iff.1 (Option.mem_toList.1 h)
      exact hp.version v (eq_of_nonempty? hv).1

theorem filled_of_builtinProperties {source : Option Coordinates} {content : Content} {pom : Pom}
    (h : Pom.read source content = .ok pom) {name v : String}
    (hv : pom.builtinProperties.get? name = some v) : Text.isBlank v = false := by
  obtain ⟨root, hroot⟩ := exists_root_of_read h
  obtain ⟨c, hc, rfl⟩ := exists_of_ofNode hroot
  have hfull : c.Full := full_of_coordinates hc
  have hpackaging : ∀ p, some ((root.childText "packaging").getD defaultPackaging) = some p →
      Text.isBlank p = false := fun p hp => by
    obtain rfl := Option.some.inj hp
    cases hchild : root.childText "packaging" with
    | none => decide
    | some t => exact filled_of_childText hchild
  have hmem := Dict.mem_of_mem_ofList (Dict.mem_of_get? hv)
  simp only [List.mem_append] at hmem
  rcases hmem with (((h | h) | h) | h) | h
  · exact filled_of_builtinPair (fun g hg => Option.some.inj hg ▸ hfull.group) h
  · exact filled_of_builtinPair (fun a ha => Option.some.inj ha ▸ hfull.artifact) h
  · exact filled_of_builtinPair hfull.version h
  · exact filled_of_builtinPair hpackaging h
  · exact filled_of_builtinParent (fun p hp => full_of_parent hp) h

end Pom

end BomTable
