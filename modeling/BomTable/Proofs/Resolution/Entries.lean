import BomTable.Proofs.Artifact.Written
import BomTable.Proofs.Property.Blank
import BomTable.Proofs.Resolution.Meaning
import BomTable.Proofs.Resolution.Selection
import Mathlib.Data.List.Forall2
import Mathlib.Data.List.Induction

/-!
The entries of tables: where candidates come from, and what every entry of a table has. An entry has
a version, no exclusion stands in it twice, and it never stands for a table itself.
-/

namespace BomTable

/-! ### First occurrences -/

section

variable {α : Type} [DecidableEq α]

/-- What occurs in a list, each once and in the order of the first occurrences. -/
structure Firsts (written kept : List α) : Prop where
  mem_iff : ∀ x, x ∈ kept ↔ x ∈ written
  ordered : kept.Pairwise fun x y => written.idxOf x < written.idxOf y

lemma Firsts.nodup {written kept : List α} (h : Firsts written kept) : kept.Nodup :=
  h.ordered.imp fun hlt heq => Nat.ne_of_lt hlt (congrArg written.idxOf heq)

lemma firsts_eraseDups (written : List α) : Firsts written written.eraseDups := by
  refine ⟨fun x => List.mem_eraseDups, ?_⟩
  induction written using List.reverseRecOn with
  | nil => exact .nil
  | append_singleton front a ih =>
    have hfront : front.eraseDups.Pairwise fun x y =>
        (front ++ [a]).idxOf x < (front ++ [a]).idxOf y := by
      refine ih.imp_of_mem fun {x y} hx hy hlt => ?_
      rwa [List.idxOf_append_of_mem (List.mem_eraseDups.1 hx),
        List.idxOf_append_of_mem (List.mem_eraseDups.1 hy)]
    rw [List.eraseDups_append]
    by_cases ha : a ∈ front
    · have hnone : ([a].removeAll front).eraseDups = [] := by simp [List.removeAll, ha]
      rw [hnone, List.append_nil]
      exact hfront
    · have hnew : ([a].removeAll front).eraseDups = [a] := by
        simp [List.removeAll, ha, List.eraseDups_cons]
      rw [hnew, List.pairwise_append]
      refine ⟨hfront, List.pairwise_singleton _ _, fun x hx y hy => ?_⟩
      obtain rfl := List.mem_singleton.1 hy
      have hx : x ∈ front := List.mem_eraseDups.1 hx
      calc (front ++ [y]).idxOf x
          = front.idxOf x := List.idxOf_append_of_mem hx
        _ < front.length := List.idxOf_lt_length_of_mem hx
        _ ≤ (front ++ [y]).idxOf y := by rw [List.idxOf_append_of_notMem ha]; omega

lemma nodup_eraseDups (l : List α) : l.eraseDups.Nodup := (firsts_eraseDups l).nodup

end

section

variable {α β : Type}

lemma eraseDups_of_nodup [DecidableEq α] {l : List α} (h : l.Nodup) : l.eraseDups = l := by
  induction l with
  | nil => rfl
  | cons a l ih =>
    obtain ⟨ha, hl⟩ := List.nodup_cons.1 h
    have hfilter : (l.filter fun b => !b == a) = l :=
      List.filter_eq_self.2 fun b hb => by
        have : b ≠ a := fun hba => ha (hba ▸ hb)
        simpa using this
    rw [List.eraseDups_cons, hfilter, ih hl]

lemma bind_eq_ok {ε : Type} {x : Except ε α} {f : α → Except ε β} {b : β} :
    x >>= f = .ok b ↔ ∃ a, x = .ok a ∧ f a = .ok b := by
  cases x with
  | error e => exact ⟨fun h => (nomatch h), fun ⟨_, h, _⟩ => (nomatch h)⟩
  | ok a => exact ⟨fun h => ⟨a, rfl, h⟩, fun ⟨_, rfl, h⟩ => h⟩

lemma mapM_eq_ok {ε : Type} {f : α → Except ε β} {l : List α} {bs : List β} :
    l.mapM f = .ok bs ↔ List.Forall₂ (fun a b => f a = .ok b) l bs := by
  induction l generalizing bs with
  | nil =>
    rw [List.forall₂_nil_left_iff, List.mapM_nil]
    exact ⟨fun h => (Except.ok.inj h).symm, fun h => h ▸ rfl⟩
  | cons a l ih =>
    simp only [List.mapM_cons, bind_eq_ok, ih, List.forall₂_cons_left_iff]
    constructor
    · rintro ⟨b, hb, rest, hrest, h⟩
      exact ⟨b, rest, hb, hrest, (Except.ok.inj h).symm⟩
    · rintro ⟨b, rest, hb, hrest, rfl⟩
      exact ⟨b, hb, rest, hrest, rfl⟩

lemma bind_eq_error {ε : Type} {x : Except ε α} {f : α → Except ε β} {e : ε} :
    x >>= f = .error e ↔ x = .error e ∨ ∃ a, x = .ok a ∧ f a = .error e := by
  cases x with
  | error e' =>
    exact ⟨fun h => .inl (congrArg Except.error (Except.error.inj h)),
      fun h => h.elim (fun h => congrArg Except.error (Except.error.inj h))
        fun ⟨_, h, _⟩ => nomatch h⟩
  | ok a =>
    exact ⟨fun h => .inr ⟨a, rfl, h⟩,
      fun h => h.elim (fun h => nomatch h) fun ⟨_, ha, h⟩ => Except.ok.inj ha ▸ h⟩

lemma exists_front_of_mapM_eq_error {ε : Type} {f : α → Except ε β} {l : List α} {e : ε}
    (h : l.mapM f = .error e) :
    ∃ front a back bs, l = front ++ a :: back ∧ front.mapM f = .ok bs ∧ f a = .error e := by
  induction l with
  | nil => cases h
  | cons a l ih =>
    rw [List.mapM_cons] at h
    rcases bind_eq_error.1 h with h | ⟨b, hb, h⟩
    · exact ⟨[], a, l, [], rfl, rfl, h⟩
    · rcases bind_eq_error.1 h with h | ⟨bs, -, h⟩
      · obtain ⟨front, x, back, bs, rfl, hfront, hx⟩ := ih h
        refine ⟨a :: front, x, back, b :: bs, rfl, ?_, hx⟩
        rw [List.mapM_cons, hb, hfront]
        rfl
      · cases h

lemma exists_of_mapM_eq_error {ε : Type} {f : α → Except ε β} {l : List α} {e : ε}
    (h : l.mapM f = .error e) : ∃ a ∈ l, f a = .error e := by
  obtain ⟨front, a, back, -, rfl, -, ha⟩ := exists_front_of_mapM_eq_error h
  exact ⟨a, List.mem_append_right front List.mem_cons_self, ha⟩

lemma exists_of_forall₂_right {R : α → β → Prop} {l : List α} {bs : List β}
    (h : List.Forall₂ R l bs) {b : β} (hb : b ∈ bs) : ∃ a ∈ l, R a b := by
  induction h with
  | nil => cases hb
  | cons hr _ ih =>
    rcases List.mem_cons.1 hb with rfl | hb
    · exact ⟨_, List.mem_cons_self, hr⟩
    · obtain ⟨a, ha, hr⟩ := ih hb
      exact ⟨a, List.mem_cons_of_mem _ ha, hr⟩

lemma findSome?_eq_of_forall₂ {γ : Type} {f : α → Option γ} {g : β → Option γ} {l : List α}
    {bs : List β} (h : List.Forall₂ (fun a b => f a = g b) l bs) :
    l.findSome? f = bs.findSome? g := by
  induction h with
  | nil => rfl
  | cons heq _ ih => rw [List.findSome?_cons, List.findSome?_cons, heq, ih]

end

/-! ### What an entry has -/

structure Managed.Proper (m : Managed) : Prop where
  versioned : m.version ≠ none
  exclusions : m.exclusions.Nodup
  notImport : m.isImport = false

lemma Managed.isImport_eq (m : Managed) (raw : RawEntry) (hscope : m.scope = raw.scope)
    (hpackaging : m.packaging = raw.packaging) : m.isImport = raw.isImport := by
  have hpom : (Text.nonempty? raw.packaging).getD "jar" = "pom" ↔ raw.packaging = some "pom" := by
    cases raw.packaging with
    | none => decide
    | some p =>
      by_cases hp : p = "" <;> simp [Text.nonempty?, hp]
  simp only [Managed.isImport, RawEntry.isImport, hscope, hpackaging, hpom]

lemma managedEntry_eq_ok {properties : Source} {raw : RawEntry} {v : String} {m : Managed} :
    Resolver.managedEntry properties raw v = .ok m ↔
      ∃ exclusions coordinates,
        raw.exclusions.mapM (fun e =>
          Exclusion.make (properties.substitute e.1) (properties.substitute e.2)) =
            .ok exclusions ∧
        Coordinates.make (properties.substitute raw.group) (properties.substitute raw.artifact)
          (some v) = .ok coordinates ∧
        m = .make coordinates (properties.substitute? raw.classifier) exclusions raw.scope
          raw.packaging := by
  simp only [Resolver.managedEntry, bind_eq_ok]
  constructor
  · rintro ⟨es, hes, c, hc, h⟩
    exact ⟨es, c, hes, hc, (Except.ok.inj h).symm⟩
  · rintro ⟨es, c, hes, hc, rfl⟩
    exact ⟨es, hes, c, hc, rfl⟩

lemma managedEntry_proper {properties : Source} {raw : RawEntry} {v : String} {m : Managed}
    (hraw : raw.isImport = false) (h : Resolver.managedEntry properties raw v = .ok m) :
    m.Proper := by
  obtain ⟨es, c, -, hc, rfl⟩ := managedEntry_eq_ok.1 h
  obtain ⟨-, -, rfl⟩ := Owner.make_eq_ok.1 hc
  exact ⟨Option.some_ne_none v, nodup_eraseDups es, (Managed.isImport_eq _ raw rfl rfl).trans hraw⟩

/-! ### Where candidates come from -/

namespace Candidate

variable {tables : Coordinates → List Managed} {properties : Source} {level : Nat}
  {pom : Pom} {raw : RawEntry} {cs : List Candidate} {c : Candidate}

lemma mem_ofEntry (h : ofEntry tables properties level pom raw = .ok cs) (hc : c ∈ cs) :
    (∃ d, raw.isImport = true ∧ Resolver.importCoordinates properties pom raw = .ok d ∧
      c.rank = importedRank ∧ c.entry ∈ tables d) ∨
    (raw.isImport = false ∧ c.rank = level ∧
      ∃ v, Text.nonempty? (properties.substitute? raw.version) = some v ∧
        Resolver.managedEntry properties raw v = .ok c.entry) := by
  unfold ofEntry at h
  split_ifs at h with hi
  · obtain ⟨d, hd, h⟩ := bind_eq_ok.1 h
    obtain rfl := Except.ok.inj h
    obtain ⟨m, hm, rfl⟩ := List.mem_map.1 hc
    exact .inl ⟨d, hi, hd, rfl, hm⟩
  · cases hv : Text.nonempty? (properties.substitute? raw.version) with
    | none =>
      rw [hv] at h
      obtain rfl := Except.ok.inj h
      cases hc
    | some v =>
      rw [hv] at h
      obtain ⟨m, hm, h⟩ := bind_eq_ok.1 h
      obtain rfl := Except.ok.inj h
      obtain rfl := List.mem_singleton.1 hc
      exact .inr ⟨by simpa using hi, rfl, v, rfl, hm⟩

lemma mem_ofPom (h : ofPom tables properties level pom = .ok cs) (hc : c ∈ cs) :
    ∃ raw ∈ pom.management, ∃ cs', ofEntry tables properties level pom raw = .ok cs' ∧
      c ∈ cs' := by
  obtain ⟨css, hcss, h⟩ := bind_eq_ok.1 h
  obtain rfl := Except.ok.inj h
  obtain ⟨cs', hcs', hc⟩ := List.mem_flatten.1 hc
  obtain ⟨raw, hraw, h⟩ := exists_of_forall₂_right (mapM_eq_ok.1 hcss) hcs'
  exact ⟨raw, hraw, cs', h, hc⟩

lemma mem_ofLevels {poms : List Pom} (h : ofLevels tables properties level poms = .ok cs)
    (hc : c ∈ cs) :
    (∃ d, Imported properties poms d ∧ c.rank = importedRank ∧ c.entry ∈ tables d) ∨
    ∃ pom ∈ poms, ∃ raw ∈ pom.management, raw.isImport = false ∧
      ∃ v, Text.nonempty? (properties.substitute? raw.version) = some v ∧
        Resolver.managedEntry properties raw v = .ok c.entry := by
  induction poms generalizing level cs with
  | nil =>
    obtain rfl := Except.ok.inj h
    cases hc
  | cons pom above ih =>
    obtain ⟨own, hown, h⟩ := bind_eq_ok.1 h
    obtain ⟨upper, hupper, h⟩ := bind_eq_ok.1 h
    obtain rfl := Except.ok.inj h
    rcases List.mem_append.1 hc with hc | hc
    · rcases ih hupper hc with ⟨d, ⟨p, hp, hd⟩, hrank, hm⟩ | ⟨p, hp, hraw⟩
      · exact .inl ⟨d, ⟨p, List.mem_cons_of_mem pom hp, hd⟩, hrank, hm⟩
      · exact .inr ⟨p, List.mem_cons_of_mem pom hp, hraw⟩
    · obtain ⟨raw, hraw, cs', hcs', hc⟩ := mem_ofPom hown hc
      rcases mem_ofEntry hcs' hc with ⟨d, hi, hd, hrank, hm⟩ | ⟨hi, -, hv⟩
      · exact .inl ⟨d, ⟨pom, List.mem_cons_self, raw, hraw, hi, hd⟩, hrank, hm⟩
      · exact .inr ⟨pom, List.mem_cons_self, raw, hraw, hi, hv⟩

end Candidate

theorem AmountsTo.proper {client : Client} {c : Coordinates} {s : Source} {b : Bom}
    (h : AmountsTo client c s b) : ∀ m ∈ b.management, m.Proper := by
  induction h with
  | mk boms hpom hparents hcs himports ih =>
    intro m hm
    obtain ⟨cand, hcand, rfl⟩ := Candidate.exists_of_mem_select hm
    rcases Candidate.mem_ofLevels hcs hcand with ⟨d, hd, -, hmem⟩ | ⟨p, -, raw, -, hraw, v, -, hv⟩
    · exact ih d hd _ hmem
    · exact managedEntry_proper hraw hv

lemma AmountsTo.nodup_keys {client : Client} {c : Coordinates} {s : Source} {b : Bom}
    (h : AmountsTo client c s b) : (b.management.map Managed.key).Nodup := by
  cases h
  exact Candidate.nodup_keys_select

end BomTable
