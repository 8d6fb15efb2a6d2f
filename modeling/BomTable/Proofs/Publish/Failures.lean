import BomTable.Proofs.Property.Blank
import BomTable.Proofs.Resolution.Failing
import BomTable.Proofs.Run.Session

/-!
What kinds of failure resolutions and the publishing of POMs end with. A resolution that fails is
reported as that, with one exception: where the value of a property is empty, nothing may be left of
a group or an artifact, and then the report is that no coordinates or no exclusion can be made of
it.
-/

namespace BomTable

/-- Every document is in a known encoding, and a search that fails is reported. -/
structure Client.Encoded (client : Client) : Prop where
  reported : ∀ c f, (client.search c).result = .error f → ∃ e, f = .error e
  known : ∀ c content fault, (client.search c).result = .ok (some content) →
    Xml.Node.ofBytes false content = .error fault → fault = .malformed

lemma Client.encoded_memory {poms : List (String × Xml.Bytes)}
    (h : ∀ p ∈ poms, (Xml.Node.ofBytes false p.2).isOk = true) : (Client.memory poms).Encoded := by
  refine ⟨fun c f hf => (nomatch hf), fun c content fault hcontent hfault => ?_⟩
  rw [search] at hcontent
  obtain ⟨p, hp, rfl⟩ := Option.map_eq_some_iff.1 (Except.ok.inj hcontent)
  have hok := h p (List.mem_of_find?_eq_some hp)
  rw [hfault] at hok
  cases hok

/-- A resolution comes to an entry of which a group or an artifact is left blank, as one of the
values that may be filled in there is. -/
def Client.LeavesBlank (client : Client) (c : Coordinates) (s : Source) (owner : Owner)
    (part : Part) : Prop :=
  ∃ path d t h pom raw, Chain client c s path d t ∧ client.Loads d h ∧ pom ∈ h.poms ∧
    raw ∈ pom.management ∧ raw.Blank (h.scope t) owner part ∧
    ∃ name v, (h.scope t).get? name = some v ∧ Text.isBlank v = true

/-- How the failure of a resolution is reported. -/
inductive Client.Reports (client : Client) (c : Coordinates) (s : Source) : Failure → Prop where
  | resolution {e : Error} (h : e.kind.isResolution = true) : Reports client c s (.error e)
  | blank {owner : Owner} {part : Part} (h : client.LeavesBlank c s owner part) :
      Reports client c s (.error (.blankPart owner part))

variable {r : Resolver} {c : Coordinates} {s current : Source} {f : Failure} {l : Ledger}

lemma Search.Refused.isResolution {client : Client} {e : Error} (h : Refused client c (.error e)) :
    e.kind.isResolution = true := by
  cases h <;> rfl

/-! ### Blank values -/

lemma RawEntry.Blank.exists_value {raw : RawEntry} {owner : Owner} {part : Part}
    (h : raw.Blank s owner part) (hraw : raw.Filled) :
    ∃ name v, s.get? name = some v ∧ Text.isBlank v = true := by
  cases h with
  | group h => exact Source.exists_blank_of_substitute hraw.group h
  | artifact h => exact Source.exists_blank_of_substitute hraw.artifact h
  | exclusionGroup hx h => exact Source.exists_blank_of_substitute (hraw.exclusions _ hx).1 h
  | exclusionArtifact hx h => exact Source.exists_blank_of_substitute (hraw.exclusions _ hx).2 h

/-! ### One resolution -/

namespace Resolver

lemma Fails.reports (hdepth : 0 < r.maxDepth) (hclient : r.client.Encoded)
    (h : r.Fails [] c s f) : r.client.Reports c s f := by
  obtain ⟨path, d, t, hpath, -, hbreaks⟩ := h
  cases hbreaks with
  | noRoom h => omega
  | importCycle | importsTooDeep | parentCycle | parentsTooDeep => exact .resolution rfl
  | document hp hlacks =>
    cases hlacks with
    | refused hc h =>
      obtain ⟨e, rfl⟩ := hclient.reported _ _ hc
      exact .resolution h.isResolution
    | nowhere | unusable => exact .resolution rfl
    | unknownEncoding hc h => exact nomatch hclient.known _ _ _ hc h
    | longEncoding hc h => exact nomatch hclient.known _ _ _ hc h
  | entry h hload hpom hraw he =>
    cases he with
    | unresolved => exact .resolution rfl
    | blank hblank =>
      obtain ⟨n, hn⟩ := hload.exists_node hpom hraw
      have hvalue := hblank.exists_value (Pom.filled_of_managedEntry hn)
      exact .blank ⟨path, d, t, h, _, _, hpath, hload, hpom, hraw, hblank, hvalue⟩

end Resolver

/-! ### All imports of a ledger -/

/-- The resolution of an import fails, with the current properties or without any. -/
def Ledger.Fails (r : Resolver) (l : Ledger) (current : Source) (f : Failure) : Prop :=
  ∃ i ∈ l.imports, ∃ s, (s = i.propertiesWith current ∨ s = .empty) ∧
    r.Fails [] i.coordinates s f

namespace Ledger

lemma resolve_fails {i : Import} (hi : i ∈ l.imports)
    (hs : s = i.propertiesWith current ∨ s = .empty) :
    Run.Spec (r.Holding l) (r.resolve i.coordinates s) (fun _ => True) (Fails r l current) :=
  (Resolver.resolve_fails (r.invariant_holding l)).mono (fun _ h => h) fun _ hf =>
    ⟨i, hi, s, hs, hf⟩

lemma addImports_fails {table : List Effective} {imports : List (Import × Nat)}
    (himports : ∀ i ∈ imports, i.1 ∈ l.imports) :
    Run.Spec (r.Holding l) (addImports r current table imports) (fun _ => True)
      (Fails r l current) := by
  induction imports generalizing table with
  | nil => exact Run.Spec.pure trivial
  | cons i rest ih =>
    have hi : i.1 ∈ l.imports := himports i List.mem_cons_self
    have hrest : ∀ j ∈ rest, j.1 ∈ l.imports := fun j hj => himports j (List.mem_cons_of_mem i hj)
    exact (resolve_fails hi (.inl rfl)).bind fun _ _ => ih hrest

lemma mem_imports_of_mem_latestFirst {i : Import × Nat} (h : i ∈ latestFirst l.imports) :
    i.1 ∈ l.imports :=
  List.mem_of_getElem? (mem_latestFirst.1 h)

lemma effectiveEntries_fails :
    Run.Spec (r.Holding l) (effectiveEntries r current) (fun _ => True) (Fails r l current) := by
  refine current_spec.bind fun l' hl => ?_
  subst hl
  exact (addImports_fails fun _ => mem_imports_of_mem_latestFirst).timed
    (r.invariant_holding l').logged

lemma diff_fails {i : Import} (hi : i ∈ l.imports) :
    Run.Spec (r.Holding l) (diff r i current) (fun _ => True) (Fails r l current) := by
  have hI := r.invariant_holding l
  refine (resolve_fails hi (.inl rfl)).bind fun _ _ => ?_
  refine (resolve_fails hi (.inr rfl)).bind fun _ _ => ?_
  dsimp only
  split_ifs
  · exact hI.log.bind fun _ _ => Run.Spec.pure trivial
  · exact Run.Spec.pure trivial

lemma propertyOverrides_fails :
    Run.Spec (r.Holding l) (propertyOverrides r current) (fun _ => True) (Fails r l current) := by
  refine current_spec.bind fun l' hl => ?_
  subst hl
  have hdiffs : Run.Spec (r.Holding l')
      ((latestFirst l'.imports).mapM fun i => do return (i.1, i.2, ← diff r i.1 current))
      (List.Forall₂ (fun _ _ => True) (latestFirst l'.imports)) (Fails r l' current) :=
    Run.Spec.mapM fun i hi =>
      (diff_fails (mem_imports_of_mem_latestFirst hi)).map fun _ _ => trivial
  exact hdiffs.mono (fun _ _ => trivial) fun _ h => h

end Ledger

/-! ### Publishing -/

namespace Publish

lemma managedEntries_fails {action : BomAction} {declared : List Declared} :
    Run.Spec (r.Holding l) (managedEntries r action current declared) (fun _ => True)
      (Ledger.Fails r l current) := by
  refine Ledger.effectiveEntries_fails.bind fun table _ => ?_
  cases action with
  | copying => exact Run.Spec.pure trivial
  | importing => exact Ledger.propertyOverrides_fails.bind fun _ _ => Run.Spec.pure trivial

namespace Plan

variable {p : Plan} {root : Xml.Node}

lemma extend_fails {action : BomAction} :
    Run.Spec (p.resolver.Holding l) (p.extend action root) (fun _ => True)
      (Ledger.Fails p.resolver l p.current) := by
  have hI := p.resolver.invariant_holding l
  refine (managedEntries_fails.timed hI.logged).bind fun entries _ => ?_
  refine Ledger.current_spec.bind fun _ _ => ?_
  exact hI.log.map fun _ _ => trivial

lemma configure_fails {customization : Customization}
    (hsettings : p.settings = .customization customization) (hroot : root.localName = "project") :
    Run.Spec (p.resolver.Holding l) (p.configure (some root)) (fun _ => True)
      (Ledger.Fails p.resolver l p.current) := by
  have hI := p.resolver.invariant_holding l
  rw [configure, hsettings]
  dsimp only
  split_ifs
  · exact extend_fails.map fun _ _ => trivial
  · exact hI.log.map fun _ _ => trivial

end Plan

end Publish

/-- **How failures are reported.** A resolution that fails is reported as a failed resolution,
unless it comes to an entry of which a group or an artifact is left blank. With settings of the
right kind and a project, publishing fails for no other cause than an import, and is reported in the
same way. -/
theorem failures_reported (hdepth : 0 < r.maxDepth) (hclient : r.client.Encoded) {w : World}
    (hw : Reachable r w) :
    (∀ c s f, (r.resolve c s).result w = .error f → r.client.Reports c s f) ∧
    ∀ (settings : Customization) (current : Source) (declared : Option (List Declared))
      (root : Xml.Node) (f : Failure), root.localName = "project" →
      (Publish.Plan.configure ⟨r, .customization settings, current, declared⟩
        (some root)).result w = .error f →
      ∃ i ∈ w.ledger.imports, ∃ s, (s = i.propertiesWith current ∨ s = .empty) ∧
        r.client.Reports i.coordinates s f := by
  constructor
  · intro c s f hf
    have hfails : r.Fails [] c s f :=
      (Resolver.resolve_fails (r.invariant_holding w.ledger) w hw.holding).2.2 f hf
    exact hfails.reports hdepth hclient
  · intro settings current declared root f hroot hf
    obtain ⟨i, hi, s, hs, hfails⟩ :=
      (Publish.Plan.configure_fails (p := ⟨r, .customization settings, current, declared⟩) rfl hroot
        w hw.holding).2.2 f hf
    exact ⟨i, hi, s, hs, hfails.reports hdepth hclient⟩

/-! ### An empty property -/

namespace Emptied

def bom : Coordinates := ⟨"g", "a", some "1"⟩

/-- A BOM that imports another one, whose artifact is an empty property. -/
def document : String :=
  "<project><groupId>g</groupId><artifactId>a</artifactId><version>1</version>" ++
    "<properties><e></e></properties><dependencyManagement><dependencies><dependency>" ++
    "<groupId>g</groupId><artifactId>${e}</artifactId><version>1</version><type>pom</type>" ++
    "<scope>import</scope></dependency></dependencies></dependencyManagement></project>"

def resolver : Resolver := ⟨.memory [("g:a:1", Content.octets (.text document))], 256, 50⟩

/-- The world in which the import of the BOM has been recorded. -/
def world : World := (World.start 0).afterAll resolver [.importBom none bom .empty]

def project : Xml.Node := .bare (.ofText "project")

def cause : Failure := .error (.blankPart .coordinates .artifact)

end Emptied

/-- An import whose artifact is an empty property ends both a resolution and publishing, and is not
reported as a failed resolution. -/
theorem failures_reported_emptied :
    (Emptied.resolver.resolve Emptied.bom .empty).result Emptied.world = .error Emptied.cause ∧
      (Publish.Plan.configure ⟨Emptied.resolver, .customization .standard, .empty, none⟩
        (some Emptied.project)).result Emptied.world = .error Emptied.cause ∧
      (Error.blankPart .coordinates .artifact).kind.isResolution = false ∧
      Emptied.resolver.client.Reports Emptied.bom .empty Emptied.cause ∧
      ∃ i ∈ Emptied.world.ledger.imports, ∃ s,
        (s = i.propertiesWith .empty ∨ s = .empty) ∧
        Emptied.resolver.client.Reports i.coordinates s Emptied.cause := by
  have hencoded : Emptied.resolver.client.Encoded := Client.encoded_memory (by decide +kernel)
  have hresolve : (Emptied.resolver.resolve Emptied.bom .empty).result Emptied.world =
      .error Emptied.cause := Run.result_of_failsWith (by decide +kernel)
  have hconfigure : (Publish.Plan.configure
      ⟨Emptied.resolver, .customization .standard, .empty, none⟩
      (some Emptied.project)).result Emptied.world = .error Emptied.cause :=
    Run.result_of_failsWith (by decide +kernel)
  obtain ⟨hresolution, hpublishing⟩ := failures_reported (by decide : 0 < Emptied.resolver.maxDepth)
    hencoded (⟨0, _, rfl⟩ : Reachable Emptied.resolver Emptied.world)
  exact ⟨hresolve, hconfigure, rfl, hresolution _ _ _ hresolve,
    hpublishing _ _ none _ _ (by decide +kernel) hconfigure⟩

end BomTable
