import BomTable.Proofs.Resolution.Meaning
import Mathlib.Logic.Relation

/-!
Chains of imports, and what the limit on nesting and the check for cycles ask of them: along every
chain, the BOMs of the chain and the parents of the last one are different from each other, and
there are not too many of them.
-/

namespace BomTable

variable {client : Client} {c d e : Coordinates} {s t u : Source}

/-- A BOM imports another, which is resolved with the properties handed down to it. -/
def Imports (client : Client) (c : Coordinates) (s : Source) (d : Coordinates) (t : Source) :
    Prop :=
  ∃ pom parents, client.document c = .ok pom ∧ client.Lineage pom parents ∧
    t = Resolver.handedDown pom parents s ∧
    Imported (Resolver.effective pom t) (pom :: parents) d

/-- The BOMs passed on a way of imports from one BOM to another, without the last. -/
inductive Chain (client : Client) : Coordinates → Source → List Coordinates → Coordinates →
    Source → Prop where
  | here {c : Coordinates} {s : Source} : Chain client c s [] c s
  | through {c d e : Coordinates} {s t u : Source} {path : List Coordinates}
      (h : Imports client c s d t) (rest : Chain client d t path e u) :
      Chain client c s (c :: path) e u

/-- The coordinates of the parents of a POM. -/
def Pom.above (pom : Pom) (parents : List Pom) : List Coordinates :=
  (pom :: parents).filterMap (·.parent)

lemma Pom.above_top {pom : Pom} (h : pom.parent = none) : pom.above [] = [] := by
  simp [above, h]

lemma Pom.above_child {pom : Pom} {p : Coordinates} (h : pom.parent = some p) (next : Pom)
    (rest : List Pom) : pom.above (next :: rest) = p :: next.above rest := by
  simp [above, h]

lemma Client.Lineage.length_above {pom : Pom} {parents : List Pom}
    (h : client.Lineage pom parents) : (pom.above parents).length = parents.length := by
  induction h with
  | top h => rw [Pom.above_top h, List.length_nil, List.length_nil]
  | child h _ _ ih => rw [Pom.above_child h, List.length_cons, List.length_cons, ih]

/-- A BOM and its parents may follow a chain: nothing comes twice, and there is room for all. -/
def Admissible (client : Client) (limit : Nat) (chain : List Coordinates) (c : Coordinates) :
    Prop :=
  ∃ pom parents, client.document c = .ok pom ∧ client.Lineage pom parents ∧
    (chain ++ c :: pom.above parents).Nodup ∧ (chain ++ c :: pom.above parents).length ≤ limit

/-- Whatever is imported from a BOM on, behind a chain that leads to it, is admissible. -/
def Fits (client : Client) (limit : Nat) (chain : List Coordinates) (c : Coordinates)
    (s : Source) : Prop :=
  ∀ path d t, Chain client c s path d t → Admissible client limit (chain ++ path) d

lemma Fits.admissible {limit : Nat} {chain : List Coordinates} (h : Fits client limit chain c s) :
    Admissible client limit chain c := by
  simpa using h [] c s .here

lemma Fits.next {limit : Nat} {chain : List Coordinates} (h : Fits client limit chain c s)
    (hd : Imports client c s d t) : Fits client limit (chain ++ [c]) d t := by
  intro path e u hpath
  simpa using h (c :: path) e u (.through hd hpath)

lemma Fits.of_imports {limit : Nat} {chain : List Coordinates}
    (hc : Admissible client limit chain c)
    (h : ∀ d t, Imports client c s d t → Fits client limit (chain ++ [c]) d t) :
    Fits client limit chain c s := by
  intro path e u hpath
  cases hpath with
  | here => simpa using hc
  | through hd hrest => simpa using h _ _ hd _ _ _ hrest

/-! ### Properties with the same values -/

lemma Imports.congr {s' : Source} (h : Imports client c s d t) (hs : s.get? = s'.get?) :
    ∃ t', Imports client c s' d t' ∧ t.get? = t'.get? := by
  obtain ⟨pom, parents, hpom, hparents, rfl, hd⟩ := h
  have hdown := Resolver.handedDown_congr hs pom parents
  exact ⟨_, ⟨pom, parents, hpom, hparents, rfl,
    (imported_congr fun _ _ raw _ => .of_values (Resolver.effective_congr hdown pom) raw).1 hd⟩,
    hdown⟩

lemma Chain.congr {path : List Coordinates} {s' : Source} (h : Chain client c s path e u)
    (hs : s.get? = s'.get?) : ∃ u', Chain client c s' path e u' := by
  induction h generalizing s' with
  | here => exact ⟨s', .here⟩
  | through hd _ ih =>
    obtain ⟨t', hd', ht⟩ := hd.congr hs
    obtain ⟨u', hrest⟩ := ih ht
    exact ⟨u', .through hd' hrest⟩

lemma Fits.congr {limit : Nat} {chain : List Coordinates} {s' : Source}
    (h : Fits client limit chain c s) (hs : s.get? = s'.get?) :
    Fits client limit chain c s' := by
  intro path d t hpath
  obtain ⟨t', hpath'⟩ := hpath.congr hs.symm
  exact h path d t' hpath'

/-! ### Everything a resolution may ask for -/

def Client.HasParent (client : Client) (c p : Coordinates) : Prop :=
  ∃ pom, client.document c = .ok pom ∧ pom.parent = some p

/-- A BOM leads to what is imported along some chain and to the parents of that. -/
def LeadsTo (client : Client) (c : Coordinates) (s : Source) (d : Coordinates) : Prop :=
  ∃ path e t, Chain client c s path e t ∧ Relation.ReflTransGen client.HasParent e d

lemma LeadsTo.of_parents (h : Relation.ReflTransGen client.HasParent c d) :
    LeadsTo client c s d :=
  ⟨[], c, s, .here, h⟩

lemma LeadsTo.of_imports (h : Imports client c s d t) (hd : LeadsTo client d t e) :
    LeadsTo client c s e := by
  obtain ⟨path, e', u, hpath, hp⟩ := hd
  exact ⟨c :: path, e', u, .through h hpath, hp⟩

/-! ### Leaves -/

/-- The BOM has no parent and imports nothing. -/
def Client.isLeaf (client : Client) (c : Coordinates) : Bool :=
  match client.document c with
  | .ok pom => pom.parent.isNone && pom.management.all fun raw => !raw.isImport
  | .error _ => false

lemma exists_of_isLeaf (h : client.isLeaf c = true) :
    ∃ pom, client.document c = .ok pom ∧ pom.parent = none ∧
      ∀ raw ∈ pom.management, raw.isImport = false := by
  unfold Client.isLeaf at h
  cases hpom : client.document c with
  | error e => rw [hpom] at h; cases h
  | ok pom =>
    simp only [hpom, Bool.and_eq_true, Option.isNone_iff_eq_none, List.all_eq_true,
      Bool.not_eq_true'] at h
    exact ⟨pom, rfl, h⟩

lemma not_imports_of_isLeaf (h : client.isLeaf c = true) : ¬ Imports client c s d t := by
  rintro ⟨pom, parents, hpom, hparents, -, p, hp, raw, hraw, himport, -⟩
  obtain ⟨pom', hpom', hparent, hraws⟩ := exists_of_isLeaf h
  obtain rfl : _ = _ := Except.ok.inj (hpom.symm.trans hpom')
  obtain rfl := hparents.unique (.top hparent)
  obtain rfl := List.mem_singleton.1 hp
  rw [hraws raw hraw] at himport
  cases himport

lemma fits_of_isLeaf (h : client.isLeaf c = true) {limit : Nat} (hlimit : 0 < limit) :
    Fits client limit [] c s := by
  obtain ⟨pom, hpom, hparent, -⟩ := exists_of_isLeaf h
  refine .of_imports ⟨pom, [], hpom, .top hparent, ?_, ?_⟩ fun d t hd =>
    absurd hd (not_imports_of_isLeaf h)
  · simp [Pom.above_top hparent]
  · simp only [Pom.above_top hparent, List.nil_append, List.length_singleton]
    omega

lemma eq_of_isLeaf (h : client.isLeaf c = true) (hd : LeadsTo client c s d) : d = c := by
  obtain ⟨path, e, t, hpath, hparents⟩ := hd
  cases hpath with
  | through hd _ => exact absurd hd (not_imports_of_isLeaf h)
  | here =>
    rcases hparents.cases_head with heq | ⟨p, ⟨pom, hpom, hp⟩, -⟩
    · exact heq.symm
    · obtain ⟨pom', hpom', hparent, -⟩ := exists_of_isLeaf h
      obtain rfl : _ = _ := Except.ok.inj (hpom.symm.trans hpom')
      rw [hparent] at hp
      cases hp

/-! ### Another repository -/

section

variable {client' : Client} {pom : Pom} {parents : List Pom} {b : Bom}

lemma Client.document_of_result_eq (h : (client'.search c).result = (client.search c).result)
    (hpom : client.document c = .ok pom) : client'.document c = .ok pom := by
  unfold document at hpom ⊢
  rw [h]
  cases hresult : (client.search c).result with
  | error e => rw [hresult] at hpom; cases hpom
  | ok found =>
    rw [hresult] at hpom
    cases found with
    | none => cases hpom
    | some content => exact hpom

lemma Client.Lineage.transfer (h : client.Lineage pom parents)
    (hsame : ∀ p d, pom.parent = some p → Relation.ReflTransGen client.HasParent p d →
      (client'.search d).result = (client.search d).result) :
    client'.Lineage pom parents := by
  induction h with
  | top h => exact .top h
  | child h hp _ ih =>
    refine .child h (document_of_result_eq (hsame _ _ h .refl) hp) (ih fun q d hq hd => ?_)
    exact hsame _ d h (.head ⟨_, hp, hq⟩ hd)

/-- **A BOM amounts to the same in a repository that has the same documents where it leads.** -/
theorem AmountsTo.transfer (h : AmountsTo client c s b)
    (hsame : ∀ d, LeadsTo client c s d → (client'.search d).result = (client.search d).result) :
    AmountsTo client' c s b := by
  induction h with
  | mk boms hpom hparents hcs himports ih =>
    refine .mk boms (Client.document_of_result_eq (hsame _ (.of_parents .refl)) hpom)
      (hparents.transfer fun p d hp hd => hsame d (.of_parents (.head ⟨_, hpom, hp⟩ hd))) hcs
      fun d hd => ih d hd fun e he => hsame e ?_
    exact .of_imports ⟨_, _, hpom, hparents, rfl, hd⟩ he

end

end BomTable
