import BomTable.Proofs.Resolution.Precedence
import BomTable.Proofs.Run.Alike

/-!
The properties that a project has itself. Where every POM has a version, every name of a group, an
artifact, a version or a packaging has a value in the entries of every hierarchy, whatever a
resolution is asked with. Two sources that differ in these names only are handed down as two such
sources, and no text of any POM on the way is replaced differently; so both resolutions come to the
same end.
-/

namespace BomTable

/-- The names of a project's group, artifact, version and packaging. -/
def Pom.ownNames : List String :=
  ["project.groupId", "pom.groupId", "project.artifactId", "pom.artifactId", "project.version",
    "pom.version", "project.packaging", "pom.packaging"]

lemma Pom.isSome_builtin {pom : Pom} (hversion : pom.coordinates.version ≠ none) {name : String}
    (hname : name ∈ ownNames) : (pom.builtinProperties.get? name).isSome := by
  obtain ⟨v, hv⟩ := Option.ne_none_iff_exists'.1 hversion
  refine Dict.isSome_get?_ofList ?_
  rw [hv]
  simp only [Dict.names, builtinPair, List.map_append, List.mem_append]
  exact .inl (by simpa [ownNames, or_assoc] using hname)

/-- Every POM of a repository has a version, its own or that of its parent. -/
def Client.Versioned (client : Client) : Prop :=
  ∀ c pom, client.document c = .ok pom → pom.coordinates.version ≠ none

lemma Pom.read_of_read {content : Content} {pom : Pom} {source : Option Coordinates}
    (h : Pom.read source content = .ok pom) : Pom.read none content = .ok pom := by
  unfold Pom.read at h ⊢
  split at h
  · cases h
  · cases h
  · cases h
  · split at h
    · exact h
    · cases h

lemma Client.versioned_memory {poms : List (String × Xml.Bytes)}
    (h : ∀ p ∈ poms, (Pom.read none (.bytes p.2)).toOption.all
      fun pom => pom.coordinates.version.isSome) : (Client.memory poms).Versioned := by
  intro c pom hpom
  rw [document, search] at hpom
  cases hfind : poms.find? fun p => p.1 = c.written with
  | none => rw [hfind] at hpom; cases hpom
  | some p =>
    rw [hfind] at hpom
    have hread : Pom.read none (.bytes p.2) = .ok pom := Pom.read_of_read hpom
    have hall := h p (List.mem_of_find?_eq_some hfind)
    rw [hread] at hall
    exact Option.isSome_iff_ne_none.1 hall

/-- Two sources have the same value for every name but those of a project itself. -/
def Source.AgreesOn (s t : Source) : Prop := ∀ name, name ∉ Pom.ownNames → s.get? name = t.get? name

lemma Source.agreesOn_empty {s : Source} (h : s.names ⊆ Pom.ownNames) : s.AgreesOn .empty := by
  intro name hname
  cases hs : s.get? name with
  | none => rfl
  | some v => exact absurd (h (mem_names_of_get? hs)) hname

namespace Hierarchy

variable {h : Hierarchy} {s t : Source}

lemma agrees_down (hst : s.AgreesOn t) : (h.down s).AgreesOn (h.down t) := by
  intro name hname
  rw [get?_down, get?_down, hst name hname]

lemma scope_eq (hversion : h.pom.coordinates.version ≠ none) (hst : s.AgreesOn t) :
    (h.scope s).get? = (h.scope t).get? := by
  funext name
  rw [get?_scope, get?_scope]
  by_cases hname : name ∈ Pom.ownNames
  · obtain ⟨v, hv⟩ := Option.isSome_iff_exists.1 (Pom.isSome_builtin hversion hname)
    rw [builtin?, hv, Option.some_or, Option.some_or]
  · rw [hst name hname]

end Hierarchy

namespace Resolver

/-- Two resolutions of the same BOM. -/
def SameBom (found found' : Resolution) : Prop := found.bom = found'.bom

variable {r : Resolver} {c : Coordinates} {s t : Source}

lemma invariant_sound (r : Resolver) : Invariant r (fun _ => True) r.Sound where
  sound := fun _ h => h
  logged := fun _ _ h => h.noting _
  searched := fun _ _ _ h => h.noting _
  kept := fun _ _ _ h _ _ => h

/-! ### Loading -/

lemma load_alike : Run.Alike r.Sound (r.load c) (r.load c)
    fun pom pom' => r.client.document c = .ok pom ∧ pom = pom' :=
  .of_spec (load_spec r.invariant_sound trivial)

lemma ancestors_alike (chain : List Coordinates) (c : Coordinates) (room : Nat)
    (seen : List Coordinates) (pom : Pom) :
    Run.Alike r.Sound (r.ancestors chain c room seen pom) (r.ancestors chain c room seen pom)
      Eq := by
  fun_induction r.ancestors chain c room seen pom with
  | case1 => exact .pure rfl
  | case2 => exact .fail r.invariant_sound.logged
  | case3 => exact .fail r.invariant_sound.logged
  | case4 seen pom p hp hcycle room ih =>
    refine load_alike.bind fun next _ hnext => hnext.2 ▸ ?_
    exact (ih next).bind fun rest _ hrest => hrest ▸ .pure rfl

/-! ### Entries -/

variable {nested nested' : Coordinates → Run Resolution}

lemma expandEntry_alike (hst : s.get? = t.get?)
    (hnested : ∀ d, Run.Alike r.Sound (nested d) (nested' d) SameBom) (level : Nat) (pom : Pom)
    (raw : RawEntry) :
    Run.Alike r.Sound (expandEntry nested s level pom raw) (expandEntry nested' t level pom raw)
      Eq := by
  have halike : raw.FilledAlike s t := .of_values hst raw
  unfold expandEntry
  rw [halike.importCoordinates_eq, halike.version]
  simp only [halike.managedEntry_eq]
  split_ifs
  · refine (Run.Alike.ofExcept r.invariant_sound.logged).bind fun d _ hd => hd ▸ ?_
    refine (hnested d).bind fun found found' hfound => .pure ?_
    rw [hfound]
  · cases Text.nonempty? (t.substitute? raw.version) with
    | none => exact (Run.Alike.log r.invariant_sound.logged).bind fun _ _ _ => .pure rfl
    | some v =>
      exact (Run.Alike.ofExcept r.invariant_sound.logged).bind fun m _ hm => hm ▸ .pure rfl

lemma expandPom_alike (hst : s.get? = t.get?)
    (hnested : ∀ d, Run.Alike r.Sound (nested d) (nested' d) SameBom) (level : Nat) (pom : Pom) :
    Run.Alike r.Sound (expandPom nested s level pom) (expandPom nested' t level pom) Eq :=
  (Run.Alike.mapM fun raw _ => expandEntry_alike hst hnested level pom raw).bind
    fun _ _ hcss => hcss ▸ .pure rfl

lemma expandLevels_alike (hst : s.get? = t.get?)
    (hnested : ∀ d, Run.Alike r.Sound (nested d) (nested' d) SameBom) (level : Nat)
    (poms : List Pom) :
    Run.Alike r.Sound (expandLevels nested s level poms) (expandLevels nested' t level poms)
      Eq := by
  induction poms generalizing level with
  | nil => exact .pure rfl
  | cons pom above ih =>
    refine (expandPom_alike hst hnested level pom).bind fun own _ hown => hown ▸ ?_
    exact (ih (level + 1)).bind fun upper _ hupper => hupper ▸ .pure rfl

/-! ### One BOM -/

variable (hsize : r.cacheSize ≤ 0)
include hsize

lemma cached?_alike : Run.Alike r.Sound (cached? (keyOf c s)) (cached? (keyOf c t))
    fun found found' => found = none ∧ found' = none := by
  have hnone : ∀ s, Run.Spec r.Sound (cached? (keyOf c s)) (· = none) fun _ => False := fun s =>
    (cached?_spec r.invariant_sound).mono (fun found hfound => by
      cases found with
      | none => rfl
      | some f => exact absurd (hfound f rfl).2 (Int.not_lt.2 hsize)) fun _ h => h
  exact .of_specs (hnone s) (hnone t) fun _ _ h h' => ⟨h, h'⟩

lemma register_alike (k k' : CacheKey) (b : Bom) :
    Run.Alike r.Sound (r.register k b) (r.register k' b) SameBom := by
  have hbom : ∀ k, Run.Spec r.Sound (r.register k b) (fun found => found.bom = b)
      fun _ => False := fun k =>
    Run.Spec.modifyGet (fun w hw => ⟨hw.fetched,
      fun e he => hw.cached e (by simpa only [Cache.keep_of_nonpos hsize] using he),
      by simpa only [Cache.keep_of_nonpos hsize] using hw.called⟩) fun _ _ => rfl
  exact .of_specs (hbom k) (hbom k') fun _ _ h h' => h.trans h'.symm

lemma guarded_alike {chain : List Coordinates} {anew anew' : Run Resolution}
    (hanew : Run.Alike r.Sound anew anew' SameBom) :
    Run.Alike r.Sound (guarded chain c s anew) (guarded chain c t anew') SameBom := by
  refine (cached?_alike hsize).bind fun found found' ⟨hfound, hfound'⟩ => ?_
  subst hfound hfound'
  dsimp only
  split_ifs
  · exact .fail r.invariant_sound.logged
  · exact hanew

variable (hversions : r.client.Versioned)
include hversions

lemma make_alike {room : Nat} {chain : List Coordinates} (hst : s.AgreesOn t)
    {nested nested' : Coordinates → Source → Run Resolution}
    (hnested : ∀ d s t, s.AgreesOn t → Run.Alike r.Sound (nested d s) (nested' d t) SameBom) :
    Run.Alike r.Sound (r.make room chain c s nested) (r.make room chain c t nested') SameBom := by
  unfold make
  refine load_alike.bind fun pom _ ⟨hpom, heq⟩ => heq ▸ ?_
  refine (ancestors_alike chain c room [c] pom).bind fun parents _ heq => heq ▸ ?_
  -- The properties handed down may differ, those that the entries are filled in with do not.
  have hscope := Hierarchy.scope_eq (h := ⟨pom, parents⟩) (hversions c pom hpom) hst
  have hdown := Hierarchy.agrees_down (h := ⟨pom, parents⟩) hst
  refine (expandLevels_alike hscope (fun d => hnested d _ _ hdown) 0 (pom :: parents)).bind
    fun cs _ heq => heq ▸ ?_
  refine (Run.Alike.log r.invariant_sound.logged).bind fun _ _ _ => ?_
  exact register_alike hsize _ _ _

theorem resolveAt_alike (room : Nat) {chain : List Coordinates} (hst : s.AgreesOn t) :
    Run.Alike r.Sound (r.resolveAt room chain c s) (r.resolveAt room chain c t) SameBom := by
  induction room generalizing chain c s t with
  | zero =>
    refine guarded_alike hsize ?_
    cases chain with
    | nil => exact .throw
    | cons first rest => exact .fail r.invariant_sound.logged
  | succ room ih =>
    exact guarded_alike hsize (make_alike hsize hversions hst fun d s t hst => ih hst)

/-- **The properties of a project itself cannot be overridden.** Where every POM has a version,
resolutions without caching with two sources that differ in such names only give the same BOM or fail
for the same cause. -/
theorem resolve_eq_of_agreesOn {w w' : World} (hst : s.AgreesOn t) (hw : Reachable r w)
    (hw' : Reachable r w') :
    ((r.resolve c s).result w).map (·.bom) = ((r.resolve c t).result w').map (·.bom) := by
  have h : Run.Alike r.Sound (r.resolve c s) (r.resolve c t) SameBom :=
    (resolveAt_alike hsize hversions r.maxDepth.toNat hst).timed r.invariant_sound.logged
  exact (h w w' hw.settled.sound hw'.settled.sound).2.2.map_eq fun _ _ h => h

end Resolver

/-- The caller's version of a project. -/
def Layers.impostor : Source :=
  .ofPairs [("project.version", some "9"), ("pom.version", some "9")]

/-- The version that the caller gives is not seen, although a property that is handed down to the
imported BOM refers to it. -/
theorem Layers.resolve_eq_with_impostor :
    Layers.impostor.get? "project.version" = some "9" ∧
      ((Resolver.resolve ⟨Layers.repository, 0, 50⟩ Layers.outer Layers.impostor).result
        (World.start 0)).map (·.bom) = .ok Layers.resolution.bom := by
  have hversions : Layers.repository.Versioned := Client.versioned_memory (by decide +kernel)
  have hw : Reachable ⟨Layers.repository, 0, 50⟩ (World.start 0) := ⟨0, [], rfl⟩
  have hst : Layers.impostor.AgreesOn .empty := Source.agreesOn_empty (by decide)
  refine ⟨by decide, ?_⟩
  rw [Resolver.resolve_eq_of_agreesOn (Int.le_refl 0) hversions hst hw hw, Layers.result_outer]
  rfl

end BomTable
