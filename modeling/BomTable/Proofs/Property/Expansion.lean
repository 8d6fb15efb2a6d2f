import BomTable.Proofs.Property.Blank
import BomTable.Proofs.Property.Reference
import Mathlib.Logic.Function.Iterate

/-!
The full expansion of a text. A placeholder whose name has a value stands for the expansion of that
value, everything else stands for itself. Rounds go over the text as a whole; where no dollar stands
outside of placeholders they act on each piece by itself, and a text is expanded fully in as many
rounds as the longest chain of references from it has names with a value.
-/

namespace BomTable

namespace Placeholder

/-- What pieces amount to when every value that is put in is expanded itself. -/
inductive Expands (lookup : String → Option String) : List Piece → List Char → Prop where
  | done : Expands lookup [] []
  | char {c : Char} {ps : List Piece} {out : List Char} (rest : Expands lookup ps out) :
      Expands lookup (.char c :: ps) (c :: out)
  | unknown {inner : List Char} {ps : List Piece} {out : List Char}
      (h : lookup (nameOf inner) = none) (rest : Expands lookup ps out) :
      Expands lookup (.hole inner :: ps) ((Piece.hole inner).written ++ out)
  | known {inner : List Char} {v : String} {ps : List Piece} {value out : List Char}
      (h : lookup (nameOf inner) = some v) (hvalue : Expands lookup (pieces v.toList) value)
      (rest : Expands lookup ps out) : Expands lookup (.hole inner :: ps) (value ++ out)

variable {lookup : String → Option String} {cs a b out out' : List Char} {p : Piece}
  {ps qs : List Piece}

namespace Expands

theorem unique (h : Expands lookup ps out) (h' : Expands lookup ps out') : out = out' := by
  induction h generalizing out' with
  | done =>
    cases h'
    rfl
  | char _ ih =>
    cases h' with
    | char rest => rw [ih rest]
  | unknown hnone _ ih =>
    cases h' with
    | unknown _ rest => rw [ih rest]
    | known hsome => rw [hnone] at hsome; cases hsome
  | known hsome _ _ ihvalue ih =>
    cases h' with
    | unknown hnone => rw [hsome] at hnone; cases hnone
    | known hsome' hvalue rest =>
      obtain rfl := Option.some.inj (hsome.symm.trans hsome')
      rw [ihvalue hvalue, ih rest]

lemma append (h : Expands lookup ps out) (h' : Expands lookup qs out') :
    Expands lookup (ps ++ qs) (out ++ out') := by
  induction h with
  | done => exact h'
  | char _ ih => exact .char ih
  | unknown hnone _ ih =>
    rw [List.append_assoc]
    exact .unknown hnone ih
  | known hsome hvalue _ _ ih =>
    rw [List.append_assoc]
    exact .known hsome hvalue ih

end Expands

/-! ### Rounds -/

/-- Ending early makes no difference, as a text that a round leaves alone is left alone for good. -/
lemma rounds_eq_iterate (n : Nat) : rounds lookup n cs = (expand lookup)^[n] cs := by
  induction n generalizing cs with
  | zero => rfl
  | succ n ih =>
    rw [rounds, Function.iterate_succ_apply]
    split_ifs with hfixed
    · rw [hfixed, Function.iterate_fixed hfixed]
    · exact ih

lemma sealed_append (ha : sealed a = true) (hb : sealed b = true) : sealed (a ++ b) = true := by
  have ha' : Piece.char '$' ∉ pieces a := of_decide_eq_true ha
  have hb' : Piece.char '$' ∉ pieces b := of_decide_eq_true hb
  refine decide_eq_true ?_
  rw [pieces_append ha, List.mem_append, not_or]
  exact ⟨ha', hb'⟩

lemma mentioned_append (ha : sealed a = true) :
    mentioned (a ++ b) = mentioned a ++ mentioned b := by
  rw [mentioned, pieces_append ha, List.filterMap_append]
  rfl

lemma expand_append (ha : sealed a = true) :
    expand lookup (a ++ b) = expand lookup a ++ expand lookup b := by
  rw [expand, pieces_append ha, List.flatMap_append]
  rfl

lemma expand_eq_self (h : ∀ name ∈ mentioned cs, lookup name = none) : expand lookup cs = cs := by
  have hwritten : ∀ p : Piece, p.filled (fun _ => none) = p.written := fun p => by cases p <;> rfl
  calc expand lookup cs
      = expand (fun _ => none) cs := expand_congr h
    _ = (pieces cs).flatMap Piece.written := by rw [expand, funext hwritten]
    _ = cs := written_pieces cs

/-- A piece that is read as it was when it is written by itself, and is no dollar. -/
def Piece.Stands (p : Piece) : Prop := p ≠ .char '$' ∧ pieces p.written = [p]

lemma stands_of_mem (hcs : sealed cs = true) (hp : p ∈ pieces cs) : p.Stands :=
  ⟨ne_of_sealed hcs hp, pieces_written hp (ne_of_sealed hcs hp)⟩

lemma Piece.Stands.sealed (hp : p.Stands) : sealed p.written = true := by
  refine decide_eq_true ?_
  rw [hp.2, List.mem_singleton]
  exact hp.1.symm

lemma Piece.Stands.expand_eq (hp : p.Stands) : expand lookup p.written = p.filled lookup := by
  rw [expand, hp.2, List.flatMap_singleton]

lemma Piece.Stands.mentioned_eq (hp : p.Stands) : mentioned p.written = p.name?.toList := by
  rw [mentioned, hp.2]
  cases p <;> rfl

section

variable (hvalues : ∀ name v, lookup name = some v → sealed v.toList = true)
include hvalues

lemma iterate_append (n : Nat) (ha : sealed a = true) :
    (expand lookup)^[n] (a ++ b) = (expand lookup)^[n] a ++ (expand lookup)^[n] b := by
  induction n generalizing a b with
  | zero => rfl
  | succ n ih =>
    have hnext : sealed (expand lookup a) = true :=
      sealed_expand ha fun name _ v hv => hvalues name v hv
    rw [Function.iterate_succ_apply, Function.iterate_succ_apply, Function.iterate_succ_apply,
      expand_append ha, ih hnext]

/-- Rounds over a text do what they do to each of its pieces. -/
lemma expands_of_each {n : Nat} (hps : ∀ p ∈ ps, p.Stands)
    (heach : ∀ p ∈ ps, Expands lookup [p] ((expand lookup)^[n] p.written)) :
    Expands lookup ps ((expand lookup)^[n] (ps.flatMap Piece.written)) := by
  induction ps with
  | nil =>
    have hnil : expand lookup [] = [] := rfl
    rw [List.flatMap_nil, Function.iterate_fixed hnil]
    exact .done
  | cons p ps ih =>
    rw [List.flatMap_cons, iterate_append hvalues n (hps p List.mem_cons_self).sealed]
    refine (heach p List.mem_cons_self).append ?_
    exact ih (fun q hq => hps q (List.mem_cons_of_mem p hq))
      fun q hq => heach q (List.mem_cons_of_mem p hq)

lemma Expands.sealed_unknown (h : Expands lookup ps out) (hps : ∀ p ∈ ps, p.Stands) :
    sealed out = true ∧ ∀ name ∈ mentioned out, lookup name = none := by
  have hboth : ∀ {a b}, sealed a = true → (∀ name ∈ mentioned a, lookup name = none) →
      sealed b = true ∧ (∀ name ∈ mentioned b, lookup name = none) →
      sealed (a ++ b) = true ∧ ∀ name ∈ mentioned (a ++ b), lookup name = none := by
    intro a b ha hnames hb
    refine ⟨sealed_append ha hb.1, fun name hname => ?_⟩
    rw [mentioned_append ha, List.mem_append] at hname
    exact hname.elim (hnames name) (hb.2 name)
  induction h with
  | done => exact ⟨rfl, fun _ hname => nomatch hname⟩
  | @char c ps out _ ih =>
    have hp : (Piece.char c).Stands := hps _ List.mem_cons_self
    have hnames : ∀ name ∈ mentioned [c], lookup name = none := fun name hname => by
      rw [← Piece.written, hp.mentioned_eq] at hname
      cases hname
    exact hboth hp.sealed hnames (ih fun q hq => hps q (List.mem_cons_of_mem _ hq))
  | @unknown inner ps out hnone _ ih =>
    have hp : (Piece.hole inner).Stands := hps _ List.mem_cons_self
    have hnames : ∀ name ∈ mentioned (Piece.hole inner).written, lookup name = none :=
      fun name hname => by
        rw [hp.mentioned_eq] at hname
        obtain rfl : name = nameOf inner := List.mem_singleton.1 hname
        exact hnone
    exact hboth hp.sealed hnames (ih fun q hq => hps q (List.mem_cons_of_mem _ hq))
  | @known inner v ps value out hsome _ _ ihvalue ih =>
    obtain ⟨hvalue, hnames⟩ := ihvalue fun q hq => stands_of_mem (hvalues _ v hsome) hq
    exact hboth hvalue hnames (ih fun q hq => hps q (List.mem_cons_of_mem _ hq))

end

/-! ### Texts without an opening -/

lemma containsChars_append {needle front back : List Char} :
    Text.containsChars needle (front ++ (needle ++ back)) = true := by
  induction front with
  | nil =>
    cases needle with
    | nil => cases back <;> rfl
    | cons c needle =>
      have hprefix : (c :: needle).isPrefixOf (c :: (needle ++ back)) = true :=
        List.isPrefixOf_iff_prefix.2 (List.prefix_append (c :: needle) back)
      rw [List.nil_append, List.cons_append, Text.containsChars, hprefix, Bool.true_or]
  | cons c front ih => rw [List.cons_append, Text.containsChars, ih, Bool.or_true]

lemma opensIn_of_hole {inner : List Char} (h : .hole inner ∈ pieces cs) : opensIn cs = true := by
  obtain ⟨before, behind, hpieces⟩ := List.append_of_mem h
  have hcs : cs = before.flatMap Piece.written ++
      (['$', '{'] ++ (inner ++ ['}'] ++ behind.flatMap Piece.written)) := by
    rw [← written_pieces cs, hpieces, List.flatMap_append, List.flatMap_cons, Piece.written]
    simp
  rw [opensIn, hcs]
  exact containsChars_append

lemma mentioned_of_not_opensIn (h : opensIn cs = false) : mentioned cs = [] := by
  refine List.filterMap_eq_nil_iff.2 fun p hp => ?_
  cases p with
  | char c => rfl
  | hole inner =>
    rw [opensIn_of_hole hp] at h
    cases h

end Placeholder

namespace Source

open Placeholder

variable {s : Source} {cs : List Char} {template : String}

lemma toList_substitute :
    (s.substitute template).toList = (expand s.get?)^[maxRounds] template.toList := by
  unfold substitute
  split_ifs with hopens
  · rw [String.toList_ofList, rounds_eq_iterate]
  · have hnone : mentioned template.toList = [] :=
      mentioned_of_not_opensIn (by simpa using hopens)
    have hfixed : expand s.get? template.toList = template.toList :=
      expand_eq_self fun name hname => by
        rw [hnone] at hname
        cases hname
    rw [Function.iterate_fixed hfixed]

/-- A name with a value takes one of the references that a chain may have. -/
lemma settles_of_mentioned {n : Nat} {name v : String} (h : s.settles n cs = true)
    (hname : name ∈ mentioned cs) (hv : s.get? name = some v) :
    ∃ m, n = m + 1 ∧ s.settles m v.toList = true := by
  cases n with
  | zero =>
    have hnone := List.all_eq_true.1 h name hname
    rw [hv] at hnone
    cases hnone
  | succ m =>
    have hsettles := List.all_eq_true.1 h name hname
    rw [hv] at hsettles
    exact ⟨m, rfl, hsettles⟩

variable (hvalues : ∀ name v, s.get? name = some v → sealed v.toList = true)
include hvalues

/-- **As many rounds as a chain of references may be long expand a text fully.** -/
theorem expands_iterate {n : Nat} (hcs : sealed cs = true) (hsettles : s.settles n cs = true) :
    Expands s.get? (pieces cs) ((expand s.get?)^[n] cs) := by
  -- A piece with a value takes one round and leaves the value, from which chains are shorter by one.
  induction n using Nat.strong_induction_on generalizing cs with
  | _ n ih =>
    have heach : ∀ p ∈ pieces cs, Expands s.get? [p] ((expand s.get?)^[n] p.written) := by
      intro p hp
      have hstands : p.Stands := stands_of_mem hcs hp
      cases p with
      | char c =>
        have hfixed : expand s.get? (Piece.char c).written = (Piece.char c).written :=
          hstands.expand_eq
        rw [Function.iterate_fixed hfixed]
        exact .char .done
      | hole inner =>
        have hfilled : expand s.get? (Piece.hole inner).written =
            (Piece.hole inner).filled s.get? := hstands.expand_eq
        rw [Piece.filled] at hfilled
        cases hv : s.get? (nameOf inner) with
        | none =>
          rw [hv] at hfilled
          rw [Function.iterate_fixed hfilled]
          have hexpands := Expands.unknown hv Expands.done
          rwa [List.append_nil] at hexpands
        | some v =>
          rw [hv] at hfilled
          obtain ⟨m, rfl, hrest⟩ := settles_of_mentioned hsettles (name_mem_mentioned hp) hv
          rw [Function.iterate_succ_apply, hfilled]
          have hvalue := ih m (Nat.lt_succ_self m) (hvalues _ v hv) hrest
          have hexpands := Expands.known hv hvalue Expands.done
          rwa [List.append_nil] at hexpands
    have hwhole := expands_of_each hvalues (fun p hp => stands_of_mem hcs hp) heach
    rwa [written_pieces] at hwhole

end Source

/-- **Substitution is full expansion.** With simple values, a simple text from which no chain of
references passes through more names with a value than there are rounds is replaced with its one
expansion. No name with a value is left in it, and to replace again changes nothing. -/
theorem Source.substitute_expansion {s : Source} {template : String}
    (hvalues : ∀ name v, s.get? name = some v → Placeholder.simple v.toList = true)
    (htemplate : Placeholder.simple template.toList = true)
    (hsettles : s.settles Placeholder.maxRounds template.toList = true) :
    (∀ out, Placeholder.Expands s.get? (Placeholder.pieces template.toList) out ↔
      (s.substitute template).toList = out) ∧
    (∀ name ∈ Placeholder.mentioned (s.substitute template).toList, s.get? name = none) ∧
    s.substitute (s.substitute template) = s.substitute template := by
  have hsealed : ∀ name v, s.get? name = some v → Placeholder.sealed v.toList = true :=
    fun name v hv => Placeholder.sealed_of_simple (hvalues name v hv)
  have hcs : Placeholder.sealed template.toList = true := Placeholder.sealed_of_simple htemplate
  have hexpands : Placeholder.Expands s.get? (Placeholder.pieces template.toList)
      (s.substitute template).toList := by
    rw [toList_substitute]
    exact expands_iterate hsealed hcs hsettles
  have hnone : ∀ name ∈ Placeholder.mentioned (s.substitute template).toList,
      s.get? name = none :=
    (hexpands.sealed_unknown hsealed fun p hp => Placeholder.stands_of_mem hcs hp).2
  refine ⟨fun out => ⟨hexpands.unique, fun h => h ▸ hexpands⟩, hnone, ?_⟩
  refine String.toList_injective ?_
  rw [toList_substitute, Function.iterate_fixed (Placeholder.expand_eq_self hnone)]

namespace Linked

/-- The placeholder for the name that a number is. -/
def link (i : Nat) : String := .ofList (Placeholder.forName (toString i))

/-- So many names, each of which refers to the next; the last one has a text with a placeholder for
a name without a value. -/
def source (length : Nat) : Source :=
  .ofPairs ((List.range length).map fun i =>
    (toString i, some (if i + 1 = length then "end ${lost}" else link (i + 1))))

end Linked

/-- A chain of sixteen names, which is as long as chains may be. -/
theorem Source.substitute_linked :
    ((Linked.source 16).settles 15 (Linked.link 0).toList) = false ∧
      (Linked.source 16).substitute (Linked.link 0) = "end ${lost}" ∧
      Placeholder.Expands (Linked.source 16).get? (Placeholder.pieces (Linked.link 0).toList)
        "end ${lost}".toList ∧
      (Linked.source 16).substitute "end ${lost}" = "end ${lost}" := by
  have hvalues : ∀ name v, (Linked.source 16).get? name = some v →
      Placeholder.simple v.toList = true := fun _ _ hv =>
    all_of_names (P := fun v => Placeholder.simple v.toList) (by decide +kernel) hv
  have hlinked : (Linked.source 16).substitute (Linked.link 0) = "end ${lost}" := by
    decide +kernel
  obtain ⟨hexpands, -, hagain⟩ := substitute_expansion hvalues
    (by decide +kernel : Placeholder.simple (Linked.link 0).toList = true) (by decide +kernel)
  refine ⟨by decide +kernel, hlinked, (hexpands _).2 (congrArg String.toList hlinked), ?_⟩
  rwa [hlinked] at hagain

/-- One name more is not reached. -/
example : (Linked.source 17).substitute (Linked.link 0) = Linked.link 16 := by decide +kernel

end BomTable
