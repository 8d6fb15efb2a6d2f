import BomTable.Proofs.Ledger.History
import BomTable.Proofs.Publish.Classified
import BomTable.Proofs.Publish.Extended
import BomTable.Proofs.Resolution.Tables

/-!
What a project publishes is what is read of its POM. All that is written has groups and artifacts,
whether it comes out of documents or was recorded, and so it is read back, stripped of white space.
Scopes and types are written as they were read in documents, so imports are read back as imports and
nothing else is.
-/

namespace BomTable

/-! ### Entries that are read back -/

/-- No group and no artifact in the entry is blank, and scope and type have been stripped. -/
structure Managed.Tidy (m : Managed) : Prop where
  filled : m.Filled
  scope : m.scope.bind Text.filled? = m.scope
  packaging : m.packaging.bind Text.filled? = m.packaging

namespace Managed.Tidy

variable {m n : Managed}

lemma isImport_reread (h : m.Tidy) : m.reread.isImport = m.isImport :=
  (m.isImport_eq m.reread h.scope.symm h.packaging.symm).symm

lemma of_expansion {declared : List Declared} {table : List Effective} (h : m.Tidy)
    (hn : n ∈ Publish.expansions declared table m) : n.Tidy := by
  obtain ⟨-, -, c, -, rfl⟩ := Publish.mem_expansions.1 hn
  exact ⟨⟨h.filled.group, h.filled.artifact, h.filled.exclusions⟩, h.scope, h.packaging⟩

lemma importOf {c : Coordinates} (h : (Managed.importOf c).Filled) :
    (Managed.importOf c).Tidy := by
  have hscope : (some "import").bind Text.filled? = some "import" := by decide
  have hpackaging : (some "pom").bind Text.filled? = some "pom" := by decide
  exact ⟨h, hscope, hpackaging⟩

lemma toManaged {o : Override} (h : o.toManaged.Filled) : o.toManaged.Tidy := ⟨h, rfl, rfl⟩

end Managed.Tidy

lemma stripped_of_managedEntry {n : Xml.Node} {raw : RawEntry}
    (h : Pom.Reading.managedEntry n = some raw) :
    raw.scope.bind Text.filled? = raw.scope ∧ raw.packaging.bind Text.filled? = raw.packaging := by
  obtain ⟨x, -, h⟩ := Option.bind_eq_some_iff.1 h
  obtain rfl := Option.some.inj h
  exact ⟨Text.bind_filled?, Text.bind_filled?⟩

lemma filled_of_managedEntry {properties : Source} {raw : RawEntry} {v : String} {m : Managed}
    (h : Resolver.managedEntry properties raw v = .ok m) : m.Filled := by
  obtain ⟨es, c, hes, hc, rfl⟩ := managedEntry_eq_ok.1 h
  obtain ⟨hgroup, hartifact, rfl⟩ := Owner.make_eq_ok.1 hc
  refine ⟨hgroup, hartifact, fun e he => ?_⟩
  obtain ⟨x, -, hx⟩ := exists_of_forall₂_right (mapM_eq_ok.1 hes) (List.mem_eraseDups.1 he)
  obtain ⟨hgroup, hartifact, rfl⟩ := Owner.make_eq_ok.1 hx
  exact ⟨hgroup, hartifact⟩

/-- **Entries of tables are tidy.** -/
theorem AmountsTo.tidy {client : Client} {c : Coordinates} {s : Source} {b : Bom}
    (h : AmountsTo client c s b) {m : Managed} (hm : m ∈ b.management) : m.Tidy := by
  obtain ⟨raw, properties, v, hwritten, -, -, hentry⟩ := h.exists_written hm
  obtain ⟨path, d, t, hierarchy, -, hloads, -, pom, hpom, hraw⟩ := hwritten
  obtain ⟨n, hn⟩ := hloads.exists_node hpom hraw
  have hfilled : m.Filled := filled_of_managedEntry hentry
  have hstripped := stripped_of_managedEntry hn
  obtain ⟨es, c, -, -, rfl⟩ := managedEntry_eq_ok.1 hentry
  exact ⟨hfilled, hstripped.1, hstripped.2⟩

/-! ### What is recorded -/

/-- The coordinates can be made of their parts. -/
def Coordinates.Valid (c : Coordinates) : Prop := make c.group c.artifact c.version = .ok c

/-- The exclusion can be made of its parts. -/
def Exclusion.Valid (e : Exclusion) : Prop := make e.group e.artifact = .ok e

/-- The coordinates and exclusions that are recorded as they are given can be made of their parts. -/
def Request.Valid : Request → Prop
  | importBom _ c _ => c.Valid
  | addVersion _ _ _ _ exclusions => ∀ e, .built e ∈ exclusions → e.Valid
  | addVersions _ _ _ entries => ∀ x ∈ entries, ∀ e, .built e ∈ x.2 → e.Valid
  | _ => True

lemma Coordinates.Valid.filled {c : Coordinates} (h : c.Valid) : (Managed.importOf c).Filled := by
  obtain ⟨hgroup, hartifact, -⟩ := Owner.make_eq_ok.1 h
  refine ⟨hgroup, hartifact, fun e he => ?_⟩
  cases he

/-- No group and no artifact of a record is blank. -/
structure Ledger.Filled (l : Ledger) : Prop where
  imports : ∀ i ∈ l.imports, (Managed.importOf i.coordinates).Filled
  overrides : ∀ o ∈ l.overrides, o.toManaged.Filled

lemma Exclusion.filled_of_resolve {x : ExclusionEntry} {e : Exclusion}
    (hx : ∀ e, x = .built e → e.Valid) (h : x.resolve = .ok e) :
    Text.isBlank e.group = false ∧ Text.isBlank e.artifact = false := by
  cases x with
  | built e' =>
    obtain rfl : e' = e := Except.ok.inj h
    obtain ⟨hgroup, hartifact, -⟩ := Owner.make_eq_ok.1 (hx e' rfl)
    exact ⟨hgroup, hartifact⟩
  | written s =>
    obtain ⟨hgroup, hartifact, -⟩ := Exclusion.read_eq_ok_iff.1 h
    exact ⟨hgroup, hartifact⟩

namespace Ledger

variable {requestedBy version : Option String} {group artifact : String}

lemma filled_of_request {exclusions : List ExclusionEntry} {c : Coordinates} {o : Override}
    (hexclusions : ∀ e, .built e ∈ exclusions → e.Valid)
    (h : request requestedBy group artifact version exclusions = .ok (c, o)) :
    o.toManaged.Filled := by
  obtain ⟨hc, v, given, -, -, hgiven, rfl⟩ := request_eq_ok.1 h
  obtain ⟨hgroup, hartifact, -⟩ := Owner.make_eq_ok.1 hc
  refine ⟨hgroup, hartifact, fun e he => ?_⟩
  have he : e ∈ given := List.mem_eraseDups.1 (List.mem_eraseDups.1 he)
  obtain ⟨x, hx, hresolved⟩ := exists_of_forall₂_right (mapM_eq_ok.1 hgiven) he
  exact Exclusion.filled_of_resolve (fun e' hbuilt => hexclusions e' (hbuilt ▸ hx)) hresolved

lemma filled_of_mem_versions {entries : List (String × List ExclusionEntry)} {o : Override}
    (hentries : ∀ x ∈ entries, ∀ e, .built e ∈ x.2 → e.Valid)
    (h : o ∈ versions requestedBy group version entries) : o.toManaged.Filled := by
  obtain ⟨x, hx, c, hrequest⟩ := exists_request_of_mem_versions h
  exact filled_of_request (hentries x hx) hrequest

lemma filled_records {q : Request} (h : q.Valid) : q.records.Filled := by
  constructor
  · intro i hi
    cases q with
    | importBom requestedBy c properties =>
      rw [Request.records] at hi
      split_ifs at hi
      · cases hi
      · obtain rfl := List.mem_singleton.1 hi
        exact Coordinates.Valid.filled h
    | _ => cases hi
  · intro o ho
    cases q with
    | importBom requestedBy c properties =>
      rw [Request.records] at ho
      split_ifs at ho <;> cases ho
    | addVersion requestedBy group artifact version exclusions =>
      refine filled_of_mem_versions (fun x hx => ?_) ho
      obtain rfl := List.mem_singleton.1 hx
      exact h
    | addVersions requestedBy group version entries => exact filled_of_mem_versions h ho
    | _ => cases ho

theorem filled_ofSession {requests : List Request} (h : ∀ q ∈ requests, q.Valid) :
    (ofSession requests).Filled := by
  constructor
  · intro i hi
    obtain ⟨q, hq, hi⟩ := List.mem_flatMap.1 hi
    exact (filled_records (h q hq)).imports i hi
  · intro o ho
    obtain ⟨q, hq, ho⟩ := List.mem_flatMap.1 ho
    exact (filled_records (h q hq)).overrides o ho

end Ledger

namespace Publish

section

/-! ### What is written -/

variable {client : Client} {l : Ledger} {current : Source} {declared : List Declared}
  {action : BomAction} {entries : List Managed} {m : Managed}

lemma Written.tidy (hl : l.Filled) (h : Written client l current declared action entries)
    (hm : m ∈ entries) : m.Tidy ∧ m.isImport = isImportNode l m := by
  obtain ⟨-, -, -, himports⟩ := id h
  rcases h.exists_entry rfl hm with ⟨i, hi, rfl⟩ | ⟨e, he, hm⟩
  · exact ⟨.importOf (hl.imports i hi), (isImport_importOf _).trans (isImportNode_importOf hi).symm⟩
  · have hproper : e.managed.Proper := Ledger.table_proper himports he
    have htidy : e.managed.Tidy := by
      rcases Ledger.mem_table he with ⟨o, place, ho, rfl⟩ | ⟨i, place, hi, hmem, -⟩
      · exact .toManaged (hl.overrides o (List.mem_of_getElem? ho))
      · obtain ⟨b, hb⟩ := himports i (List.mem_of_getElem? hi)
        rw [Ledger.overriddenTable, hb.table_eq] at hmem
        exact hb.tidy hmem
    rcases hm with rfl | hm
    · exact ⟨htidy, hproper.notImport.trans (isImportNode_of_proper hproper).symm⟩
    · have hproper' : m.Proper := expansion_proper hproper hm
      exact ⟨htidy.of_expansion hm, hproper'.notImport.trans (isImportNode_of_proper hproper').symm⟩

/-! ### What is read of the tree -/

variable {p : Plan} {c : Customization} {now : Nat} {requests : List Request} {root : Xml.Node}

/-- **What is published is what is read.** Behind a session, the tree that was extended is read as
before, and behind its managed dependencies the entries are read that were written, stripped of white
space. Imports are read of those only that import the recorded BOMs. -/
theorem configureInPlace_reread (hsettings : p.settings = .customization c)
    (henabled : c.enabled = true) (hrequests : ∀ q ∈ requests, q.Valid)
    (hok : p.configureInPlace.result ((World.start now).afterAll p.resolver requests) (some root) =
      .ok ()) :
    ∃ root' entries,
      p.configureInPlace.treeAfter ((World.start now).afterAll p.resolver requests) (some root) =
        some root' ∧
      (p.entries c.action root).result ((World.start now).afterAll p.resolver requests) =
        .ok entries ∧
      Pom.Reading.Extends root root' (entries.map Managed.reread) ∧
      (∀ m ∈ entries, m.reread.isImport = isImportNode (Ledger.ofSession requests) m) ∧
      entries.filter (isImportNode (Ledger.ofSession requests)) =
        importNodes (Ledger.ofSession requests) c.action := by
  obtain ⟨enabled, action⟩ := c
  obtain rfl : enabled = true := henabled
  have hw : Reachable p.resolver ((World.start now).afterAll p.resolver requests) :=
    ⟨now, requests, rfl⟩
  have hrun := run_configureInPlace (p := p)
    (w := (World.start now).afterAll p.resolver requests) (some root)
  rw [Editing.result, hrun] at hok
  cases hconfigure : (p.configure (some root)).result
      ((World.start now).afterAll p.resolver requests) with
  | error f => rw [hconfigure] at hok; cases hok
  | ok tree =>
    obtain ⟨_, root', hroot, rfl⟩ := exists_roots hsettings hconfigure
    obtain ⟨hproject, entries, hentries, rfl⟩ := (Plan.configure_eq_ok hsettings).1 hconfigure
    have hledger : ((World.start now).afterAll p.resolver requests).ledger =
        Ledger.ofSession requests := World.ledger_of_session
    have hwritten := managedEntries_spec.value hw.holding hentries
    rw [hledger] at hwritten
    have htidy := fun m hm => hwritten.tidy (m := m) (Ledger.filled_ofSession hrequests) hm
    refine ⟨_, entries, ?_, hentries, extends_addEntries hproject fun m hm => (htidy m hm).1.filled,
      fun m hm => (htidy m hm).1.isImport_reread.trans (htidy m hm).2, (hwritten.perm rfl).1⟩
    rw [Editing.treeAfter, hrun, hconfigure]

end

/-! ### A section in another namespace -/

namespace Spaced

open Xml

/-- The artifact, the version and an exclusion are written with spaces around them. -/
def requests : List Request :=
  [.importBom none Shared.first .empty,
    .addVersion none "x" " y " (some " 1 ") [.built ⟨" e ", "f"⟩, .written "h:k"]]

def plan : Plan := ⟨Shared.resolver, .customization .standard, Shared.current, some []⟩

def world : World := (World.start 0).afterAll plan.resolver requests

/-- The section stands there in another namespace, with an entry and a remark in it. -/
def project : Node :=
  .element (.within "project" (some "u")) []
    [.element (.within "dependencyManagement" none) []
      [.remark (.comment "b") [], .element (.within "dependencies" (some "w")) []
        [.element (.within "dependency" none) []
          [.leaf (.within "groupId" none) " o ", .leaf (.within "artifactId" none) "l"]]],
      .element (.within "dependencies" (some "u")) []
        [dependencyNode none (.make ⟨"x", "z", some "1"⟩ none [] none none)]]

def written : List Managed :=
  [Shared.entry "p" "2" none, Shared.entry "q" "2" none, .importOf Shared.first,
    ⟨⟨"x", " y ", some " 1 "⟩, none, [⟨" e ", "f"⟩, ⟨"h", "k"⟩], none, none⟩]

def raw (artifact version : String) (exclusions : List (String × String)) : RawEntry :=
  ⟨"x", artifact, some version, none, none, none, exclusions⟩

/-- The entry that was there, and those that were written. -/
def read : List RawEntry :=
  [⟨"o", "l", none, none, none, none, []⟩, raw "p" "2" [], raw "q" "2" [],
    ⟨"g", "a", some "1", none, some "import", some "pom", []⟩,
    raw "y" "1" [("e", "f"), ("h", "k")]]

end Spaced

theorem configureInPlace_reread_spaced :
    (∀ q ∈ Spaced.requests, q.Valid) ∧
      Spaced.plan.configureInPlace.result Spaced.world (some Spaced.project) = .ok () ∧
      ∃ root', Spaced.plan.configureInPlace.treeAfter Spaced.world (some Spaced.project) =
          some root' ∧
        Pom.Reading.management root' = Spaced.read ∧
        Pom.Reading.dependencies root' = Pom.Reading.dependencies Spaced.project := by
  have hrequests : ∀ q ∈ Spaced.requests, q.Valid := by
    intro q hq
    rcases List.mem_pair.1 hq with rfl | rfl
    · rfl
    · intro e he
      rcases List.mem_pair.1 he with h | h <;> cases h
      rfl
  have hok : Spaced.plan.configureInPlace.result Spaced.world (some Spaced.project) = .ok () :=
    Editing.result_of_isOk (by decide +kernel)
  have hwritten : (Spaced.plan.entries .importing Spaced.project).result Spaced.world =
      .ok Spaced.written := Run.result_of_gives (by decide +kernel)
  have hbefore : Pom.Reading.management Spaced.project ++ Spaced.written.map Managed.reread =
      Spaced.read := by decide +kernel
  obtain ⟨root', entries, htree, hentries, hextends, -⟩ :=
    configureInPlace_reread rfl rfl hrequests hok
  obtain rfl : Spaced.written = entries := Except.ok.inj (hwritten.symm.trans hentries)
  exact ⟨hrequests, hok, root', htree, hextends.management.trans hbefore, hextends.dependencies⟩

end Publish

end BomTable
