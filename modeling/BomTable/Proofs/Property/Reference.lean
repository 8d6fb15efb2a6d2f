import BomTable.Proofs.Property.Lookup

/-!
References between properties. A simple text mentions names in placeholders and has no other dollars
and braces. Where no dollar stands outside of placeholders, putting in values never makes a
placeholder that was in none of them, so what a text is replaced with depends on no names but those
that it reaches through the values of the names it mentions.
-/

namespace BomTable

namespace Placeholder

/-- A character that cannot be part of a placeholder, or a placeholder with a name. -/
def Piece.isSimple : Piece → Bool
  | char c => c ≠ '$' && c ≠ '{' && c ≠ '}'
  | hole inner => nameOf inner ≠ ""

/-- A text in which dollars and braces stand in placeholders with a name only. -/
def simple (cs : List Char) : Bool := (pieces cs).all Piece.isSimple

/-- A text in which dollars stand in placeholders only. -/
def sealed (cs : List Char) : Bool := Piece.char '$' ∉ pieces cs

def Piece.name? : Piece → Option String
  | char _ => none
  | hole inner => some (nameOf inner)

/-- The names in the placeholders of a text. -/
def mentioned (cs : List Char) : List String := (pieces cs).filterMap Piece.name?

/-- The placeholder for a name. -/
def forName (name : String) : List Char := (Piece.hole name.toList).written

variable {phase : Phase} {a b cs : List Char} {p : Piece} {lookup lookup' : String → Option String}

/-! ### Texts behind each other -/

/-- A dollar that opens no placeholder might open one with the text behind; without such a dollar
the scan ends in plain text. -/
lemma scan_append (h : Piece.char '$' ∉ scan phase a) :
    scan phase (a ++ b) = scan phase a ++ scan .plain b := by
  fun_induction scan phase a with
  | case1 => rfl
  | case2 => simp at h
  | case3 read => simp [verbatim] at h
  | case4 cs ih => simpa [scan] using ih h
  | case5 c cs hc ih =>
    rw [List.mem_cons, not_or] at h
    simpa [scan, hc] using ih h.2
  | case6 cs ih => simpa [scan] using ih h
  | case7 cs hc ih => simp at h
  | case8 c cs hc hd ih => simp at h
  | case9 read cs hread ih => simp [verbatim] at h
  | case10 read cs hread ih =>
    rw [List.mem_cons, not_or] at h
    simpa [scan, hread] using ih h.2
  | case11 read c cs hc ih => simpa [scan, hc] using ih h

lemma pieces_append (h : sealed a = true) : pieces (a ++ b) = pieces a ++ pieces b :=
  scan_append (of_decide_eq_true h)

lemma sealed_of_simple (h : simple cs = true) : sealed cs = true := by
  refine decide_eq_true fun hmem => ?_
  have := List.all_eq_true.1 h _ hmem
  simp [Piece.isSimple] at this

lemma pieces_flatMap {α : Type} {l : List α} {f : α → List Char}
    (h : ∀ x ∈ l, sealed (f x) = true) :
    pieces (l.flatMap f) = l.flatMap fun x => pieces (f x) := by
  induction l with
  | nil => rfl
  | cons x l ih =>
    rw [List.flatMap_cons, List.flatMap_cons, pieces_append (h x List.mem_cons_self),
      ih fun y hy => h y (List.mem_cons_of_mem x hy)]

/-! ### A piece by itself -/

lemma scan_inside {inner read : List Char} (h : '}' ∉ inner) :
    scan (.inside read) (inner ++ '}' :: b) = scan (.inside (inner.reverse ++ read)) ('}' :: b) := by
  induction inner generalizing read with
  | nil => rfl
  | cons c inner ih =>
    rw [List.mem_cons, not_or] at h
    rw [List.cons_append, scan, if_neg (Ne.symm h.1), ih h.2, List.reverse_cons, List.append_assoc]
    rfl

lemma inner_of_mem_scan {inner : List Char} (hphase : ∀ read, phase = .inside read → '}' ∉ read)
    (h : .hole inner ∈ scan phase a) : inner ≠ [] ∧ '}' ∉ inner := by
  fun_induction scan phase a with
  | case1 => cases h
  | case2 => simp at h
  | case3 read => simp [verbatim] at h
  | case4 cs ih => exact ih (by simp) h
  | case5 c cs hc ih => exact ih (by simp) (by simpa using h)
  | case6 cs ih => exact ih (by simp) h
  | case7 cs hc ih => exact ih (by simp) (by simpa using h)
  | case8 c cs hc hd ih => exact ih (by simp) (by simpa using h)
  | case9 read cs hread ih => exact ih (by simp) (by simpa [verbatim] using h)
  | case10 read cs hread ih =>
    rcases List.mem_cons.1 h with h | h
    · obtain rfl := Piece.hole.inj h
      exact ⟨by simpa using hread, by simpa using hphase read rfl⟩
    · exact ih (by simp) h
  | case11 read c cs hc ih =>
    refine ih (fun read' hread' => ?_) h
    obtain rfl := Phase.inside.inj hread'
    simpa [Ne.symm hc] using hphase read rfl

lemma pieces_written (h : p ∈ pieces cs) (hp : p ≠ .char '$') : pieces p.written = [p] := by
  cases p with
  | char c =>
    have hc : c ≠ '$' := fun hc => hp (hc ▸ rfl)
    simp [Piece.written, pieces, scan, hc]
  | hole inner =>
    obtain ⟨hne, hclose⟩ := inner_of_mem_scan (by simp) h
    have hopen : pieces (Piece.hole inner).written = scan (.inside []) (inner ++ ['}']) := by
      simp [Piece.written, pieces, scan]
    rw [hopen, scan_inside hclose]
    simp [scan, hne]

/-! ### One round -/

lemma ne_of_sealed (h : sealed cs = true) (hp : p ∈ pieces cs) : p ≠ .char '$' :=
  fun hdollar => of_decide_eq_true h (hdollar ▸ hp)

/-- The values that a round may put into a text are sealed. -/
def SealedIn (lookup : String → Option String) (cs : List Char) : Prop :=
  ∀ name ∈ mentioned cs, ∀ v, lookup name = some v → sealed v.toList = true

lemma name_mem_mentioned {inner : List Char} (h : .hole inner ∈ pieces cs) :
    nameOf inner ∈ mentioned cs :=
  List.mem_filterMap.2 ⟨_, h, rfl⟩

lemma sealed_written (hcs : sealed cs = true) (hp : p ∈ pieces cs) : sealed p.written = true := by
  have hne : p ≠ .char '$' := ne_of_sealed hcs hp
  rw [sealed, pieces_written hp hne]
  simpa using hne.symm

lemma sealed_filled (hcs : sealed cs = true) (hvalues : SealedIn lookup cs) (hp : p ∈ pieces cs) :
    sealed (p.filled lookup) = true := by
  have hself : sealed p.written = true := sealed_written hcs hp
  cases p with
  | char c => exact hself
  | hole inner =>
    rw [Piece.filled]
    cases hv : lookup (nameOf inner) with
    | none => exact hself
    | some v => exact hvalues _ (name_mem_mentioned hp) v hv

/-- The pieces behind a round are those of what was put in. -/
lemma pieces_expand (hcs : sealed cs = true) (hvalues : SealedIn lookup cs) :
    pieces (expand lookup cs) = (pieces cs).flatMap fun p => pieces (p.filled lookup) :=
  pieces_flatMap fun _ hp => sealed_filled hcs hvalues hp

lemma sealed_expand (hcs : sealed cs = true) (hvalues : SealedIn lookup cs) :
    sealed (expand lookup cs) = true := by
  refine decide_eq_true fun hmem => ?_
  rw [pieces_expand hcs hvalues, List.mem_flatMap] at hmem
  obtain ⟨p, hp, hmem⟩ := hmem
  exact of_decide_eq_true (sealed_filled hcs hvalues hp) hmem

lemma mem_mentioned_expand {name : String} (hcs : sealed cs = true)
    (hvalues : SealedIn lookup cs) (h : name ∈ mentioned (expand lookup cs)) :
    name ∈ mentioned cs ∨
      ∃ other ∈ mentioned cs, ∃ v, lookup other = some v ∧ name ∈ mentioned v.toList := by
  rw [mentioned, pieces_expand hcs hvalues, List.mem_filterMap] at h
  obtain ⟨q, hq, hname⟩ := h
  obtain ⟨p, hp, hq⟩ := List.mem_flatMap.1 hq
  have hself : q ∈ pieces p.written → name ∈ mentioned cs := fun h => by
    rw [pieces_written hp (ne_of_sealed hcs hp), List.mem_singleton] at h
    exact List.mem_filterMap.2 ⟨p, hp, h ▸ hname⟩
  cases p with
  | char c => exact .inl (hself hq)
  | hole inner =>
    rw [Piece.filled] at hq
    cases hv : lookup (nameOf inner) with
    | none => exact .inl (hself (by simpa [hv] using hq))
    | some v =>
      rw [hv] at hq
      exact .inr ⟨_, name_mem_mentioned hp, v, hv, List.mem_filterMap.2 ⟨q, hq, hname⟩⟩

lemma expand_congr (h : ∀ name ∈ mentioned cs, lookup name = lookup' name) :
    expand lookup cs = expand lookup' cs := by
  have hfilled : ∀ p ∈ pieces cs, p.filled lookup = p.filled lookup' := fun p hp => by
    cases p with
    | char c => rfl
    | hole inner => rw [Piece.filled, Piece.filled, h _ (name_mem_mentioned hp)]
  rw [expand, expand, List.flatMap_def, List.flatMap_def, List.map_congr_left hfilled]

end Placeholder

namespace Source

open Placeholder

/-- The names that a text mentions, and those that the values of names it reaches mention. -/
inductive Reaches (s : Source) (cs : List Char) : String → Prop where
  | mentions {name : String} (h : name ∈ mentioned cs) : Reaches s cs name
  | through {name other v : String} (h : Reaches s cs other) (hv : s.get? other = some v)
      (hname : name ∈ mentioned v.toList) : Reaches s cs name

/-- Every value of a name that a text reaches is simple. -/
def SimpleFrom (s : Source) (cs : List Char) : Prop :=
  ∀ name v, s.Reaches cs name → s.get? name = some v → simple v.toList = true

/-- Every value of a name that a text reaches is sealed. -/
def SealedFrom (s : Source) (cs : List Char) : Prop :=
  ∀ name v, s.Reaches cs name → s.get? name = some v → sealed v.toList = true

variable {s t : Source} {cs start : List Char}

/-- A text reaches no names but those of a list that holds what it mentions and, with a name, what
the value of the name mentions. -/
lemma Reaches.mem_of_closed {name : String} (h : s.Reaches cs name) {names : List String}
    (hstart : mentioned cs ⊆ names)
    (hclosed : (names.all fun n => (s.get? n).all fun v =>
      (mentioned v.toList).all (· ∈ names)) = true) : name ∈ names := by
  induction h with
  | mentions h => exact hstart h
  | through _ hv hname ih =>
    have hother := List.all_eq_true.1 hclosed _ ih
    rw [hv, Option.all_some] at hother
    simpa using List.all_eq_true.1 hother _ hname

lemma rounds_eq_of_agree (hvalues : s.SealedFrom start)
    (hagree : ∀ name, s.Reaches start name → s.get? name = t.get? name) (n : Nat)
    (hcs : sealed cs = true) (hreach : ∀ name ∈ mentioned cs, s.Reaches start name) :
    rounds s.get? n cs = rounds t.get? n cs := by
  -- What the text reaches shrinks from round to round, so it is measured from the start.
  induction n generalizing cs with
  | zero => rfl
  | succ n ih =>
    have hsealed : SealedIn s.get? cs := fun name hname v hv => hvalues name v (hreach name hname) hv
    have hnext : expand s.get? cs = expand t.get? cs :=
      expand_congr fun name hname => hagree name (hreach name hname)
    have hrounds := ih (sealed_expand hcs hsealed) fun name hname => by
      rcases mem_mentioned_expand hcs hsealed hname with h | ⟨other, hother, v, hv, h⟩
      · exact hreach name h
      · exact .through (hreach other hother) hv h
    rw [rounds, rounds, ← hnext, hrounds]

/-- **A text is replaced alike by two sources that agree on all names it reaches.** -/
theorem substitute_eq_of_sealed {template : String} (hsealed : sealed template.toList = true)
    (hvalues : s.SealedFrom template.toList)
    (hagree : ∀ name, s.Reaches template.toList name → s.get? name = t.get? name) :
    s.substitute template = t.substitute template := by
  rw [substitute, substitute,
    rounds_eq_of_agree hvalues hagree maxRounds hsealed fun _ h => .mentions h]

lemma substitute_eq_of_agree {template : String} (hsimple : simple template.toList = true)
    (hvalues : s.SimpleFrom template.toList)
    (hagree : ∀ name, s.Reaches template.toList name → s.get? name = t.get? name) :
    s.substitute template = t.substitute template :=
  substitute_eq_of_sealed (sealed_of_simple hsimple)
    (fun name v hname hv => sealed_of_simple (hvalues name v hname hv)) hagree

/-! ### Chains of references -/

/-- Every chain of references from a text passes through at most so many names with a value. -/
def settles (s : Source) : Nat → List Char → Bool
  | 0, cs => (mentioned cs).all fun name => (s.get? name).isNone
  | n + 1, cs => (mentioned cs).all fun name => (s.get? name).all fun v => s.settles n v.toList

/-- All values are simple, and no chain of references passes through more names than there are
rounds. -/
def Plain (s : Source) : Prop :=
  ∀ name v, s.get? name = some v →
    simple v.toList = true ∧ s.settles (maxRounds - 1) v.toList = true

lemma Plain.simpleFrom (h : s.Plain) (cs : List Char) : s.SimpleFrom cs :=
  fun name v _ hv => (h name v hv).1

lemma all_of_names {s : Source} {P : String → Bool}
    (h : (s.names.all fun name => (s.get? name).all P) = true) {name v : String}
    (hv : s.get? name = some v) : P v = true := by
  have hname := List.all_eq_true.1 h name (mem_names_of_get? hv)
  rwa [hv] at hname

lemma plain_of_names {s : Source} (h : (s.names.all fun name => (s.get? name).all fun v =>
    simple v.toList && s.settles (maxRounds - 1) v.toList) = true) : s.Plain :=
  fun _ _ hv => (Bool.and_eq_true ..).mp (all_of_names h hv)

end Source

end BomTable
