import BomTable.Proofs.Run.Session
import BomTable.Proofs.Xml.Changes

/-!
A POM that is extended where it stands comes out as the extended POM, and stays as it is unless all
goes well. Nothing is done to it but to add the new entries at the end of its managed dependencies.
-/

namespace BomTable

open Xml (Node)

namespace Editing

variable {α β : Type}

def result (x : Editing α) (w : World) (tree : Option Node) : Except Failure α :=
  (x.run.run (w, tree)).1

/-- The tree behind a computation, whether it succeeds or not. -/
def treeAfter (x : Editing α) (w : World) (tree : Option Node) : Option Node :=
  (x.run.run (w, tree)).2.2

lemma result_of_isOk {x : Editing Unit} {w : World} {tree : Option Node}
    (h : (x.result w tree).isOk = true) : x.result w tree = .ok () := by
  cases hx : x.result w tree with
  | ok u => rfl
  | error f => rw [hx] at h; cases h

lemma exists_error_of_isOk {x : Editing α} {w : World} {tree : Option Node}
    (h : (x.result w tree).isOk = false) : ∃ f, x.result w tree = .error f := by
  cases hx : x.result w tree with
  | ok a => rw [hx] at h; cases h
  | error f => exact ⟨f, rfl⟩

lemma run_ofRun (x : Run α) (w : World) (tree : Option Node) :
    (ofRun x).run.run (w, tree) = (x.result w, (x.after w, tree)) := rfl

lemma run_bind (x : Editing α) (f : α → Editing β) (s : World × Option Node) :
    (x >>= f).run.run s =
      match x.run.run s with
      | (.ok a, s) => (f a).run.run s
      | (.error e, s) => (.error e, s) := by
  simp only [ExceptT.run_bind, StateT.run_bind]
  rcases x.run.run s with ⟨r, s'⟩
  cases r <;> rfl

end Editing

namespace Publish

variable {p : Plan} {action : BomAction} {w : World} {root : Node}

/-! ### One change -/

lemma along_steps (nodes : List Node) :
    Node.along (.append nodes) ["dependencyManagement", "dependencies"]
      (Node.along id ["dependencyManagement", "dependencies"]
        (Node.along id ["dependencyManagement"] root)) =
      root.withChild "dependencyManagement" (Node.withChild "dependencies" (.append nodes)) := by
  have hmanagement : Node.IsTag "dependencyManagement" := ⟨by decide, by decide, by decide⟩
  have hdependencies : Node.IsTag "dependencies" := ⟨by decide, by decide, by decide⟩
  have hinner : Node.withChild "dependencies" (Node.append nodes) ∘
      Node.withChild "dependencies" id = Node.withChild "dependencies" (Node.append nodes) :=
    funext fun n => Node.withChild_withChild hdependencies Node.keepsName_id n
  simp only [Node.along]
  rw [Node.withChild_withChild hmanagement Node.keepsName_id, Function.comp_id,
    Node.withChild_withChild hmanagement Node.keepsName_withChild, hinner]

/-- The tree that stands in the state comes out as the extended POM. -/
lemma run_extendInPlace :
    (p.extendInPlace action root).run.run (w, some root) =
      match (p.extend action root).result w with
      | .ok root' => (.ok (), ((p.extend action root).after w, some root'))
      | .error f => (.error f, ((p.extend action root).after w, some root)) := by
  rw [Plan.extendInPlace, Editing.run_bind, Editing.run_ofRun, Plan.extend]
  cases h : (Run.timed component "configure_pom" [] (p.entries action root)).result w with
  | error f =>
    rw [Run.result_bind_error h, Run.after_bind_error h]
  | ok entries =>
    rw [Run.result_bind_ok h, Run.after_bind_ok h]
    dsimp only
    rw [Run.result_bind_ok rfl, Run.after_bind_ok rfl, Run.result_bind_ok rfl,
      Run.after_bind_ok rfl, addEntries, ← along_steps]
    rfl

/-- **Extending a POM where it stands is extending it.** A failure leaves the tree as it was. -/
theorem run_configureInPlace (tree : Option Node) :
    p.configureInPlace.run.run (w, tree) =
      match (p.configure tree).result w with
      | .ok tree' => (.ok (), ((p.configure tree).after w, tree'))
      | .error f => (.error f, ((p.configure tree).after w, tree)) := by
  unfold Plan.configureInPlace Plan.configure
  cases p.settings with
  | foreign typeName => rfl
  | customization c =>
    dsimp only
    split_ifs with henabled
    · cases tree with
      | none => rfl
      | some root =>
        rw [Editing.run_bind]
        change (if root.localName = "project" then p.extendInPlace c.action root
          else Editing.ofRun (Run.fail .noProject)).run.run (w, some root) = _
        dsimp only
        split_ifs
        · rw [run_extendInPlace]
          cases h : (p.extend c.action root).result w with
          | ok root' => rw [Run.result_bind_ok h, Run.after_bind_ok h]; rfl
          | error f => rw [Run.result_bind_error h, Run.after_bind_error h]
        · rfl
    · rfl

/-! ### What is added -/

/-- All elements are in a namespace. -/
inductive AllWithin (space : Option String) : Node → Prop where
  | text (s : String) : AllWithin space (.text s)
  | element {tag : String} {attributes : List (Xml.Name × String)} {content : List Node}
      (h : ∀ c ∈ content, AllWithin space c) :
      AllWithin space (.element (.within tag space) attributes content)

variable {space : Option String}

lemma allWithin_leaf {tag s : String} : AllWithin space (.leaf (.within tag space) s) := by
  unfold Node.leaf
  split_ifs
  · exact .element fun c hc => nomatch hc
  · refine .element fun c hc => ?_
    obtain rfl := List.mem_singleton.1 hc
    exact .text s

lemma allWithin_optionalLeaf {tag : String} {v : Option String} :
    ∀ n ∈ optionalLeaf space tag v, AllWithin space n := by
  intro n hn
  cases v with
  | none => cases hn
  | some s =>
    obtain rfl := List.mem_singleton.1 hn
    exact allWithin_leaf

lemma allWithin_exclusionsNode {es : List Exclusion} :
    ∀ n ∈ exclusionsNode space es, AllWithin space n := by
  intro n hn
  unfold exclusionsNode at hn
  split_ifs at hn
  · cases hn
  · obtain rfl := List.mem_singleton.1 hn
    refine .element fun c hc => ?_
    obtain ⟨e, -, rfl⟩ := List.mem_map.1 hc
    refine .element fun d hd => ?_
    simp only [List.mem_cons, List.not_mem_nil, or_false] at hd
    rcases hd with rfl | rfl <;> exact allWithin_leaf

lemma allWithin_dependencyNode (m : Managed) : AllWithin space (dependencyNode space m) := by
  refine .element fun c hc => ?_
  simp only [List.mem_append, or_assoc] at hc
  rcases hc with h | h | h | h | h | h | h
  all_goals first | exact allWithin_optionalLeaf c h | exact allWithin_exclusionsNode c h

lemma changesChild_addEntries (hroot : root.localName = "project") (entries : List Managed) :
    Node.ChangesChild "dependencyManagement" (Node.ChangesChild "dependencies"
      (Node.Appends (entries.map (dependencyNode root.space?)))) root
      (addEntries root entries) := by
  refine Node.changesChild_withChild ⟨by decide, by decide, by decide⟩ (by decide) hroot
    fun c hc => ?_
  refine Node.changesChild_withChild ⟨by decide, by decide, by decide⟩ (by decide) hc fun d hd => ?_
  exact Node.appends_append (by decide) hd

lemma exists_roots (hsettings : p.settings = .customization ⟨true, action⟩)
    {tree tree' : Option Node} (h : (p.configure tree).result w = .ok tree') :
    ∃ root root', tree = some root ∧ tree' = some root' := by
  rw [Plan.configure, hsettings] at h
  cases tree with
  | none => cases h
  | some root =>
    dsimp only at h
    rw [if_pos rfl] at h
    split_ifs at h
    · obtain ⟨root', -, h⟩ := Run.exists_of_result_bind h
      exact ⟨root, root', rfl, (Except.ok.inj h).symm⟩
    · cases h

/-- **Publishing is all or nothing, and adds nothing but entries.** Where publishing fails or is
switched off, the tree stays as it is. Otherwise the only change is that one element for each entry
stands, in order, at the end of the managed dependencies, in the namespace of the root. -/
theorem configureInPlace_all_or_nothing (p : Plan) (w : World) (tree : Option Node) :
    (∀ f, p.configureInPlace.result w tree = .error f →
      p.configureInPlace.treeAfter w tree = tree) ∧
    (∀ c, p.settings = .customization c → c.enabled = false →
      p.configureInPlace.result w tree = .ok () ∧ p.configureInPlace.treeAfter w tree = tree) ∧
    ∀ c, p.settings = .customization c → c.enabled = true →
      p.configureInPlace.result w tree = .ok () →
      ∃ root root' entries, tree = some root ∧ p.configureInPlace.treeAfter w tree = some root' ∧
        (p.preview root).result w = .ok entries ∧
        Node.ChangesChild "dependencyManagement" (Node.ChangesChild "dependencies"
          (Node.Appends (entries.map (dependencyNode root.space?)))) root root' ∧
        ∀ n ∈ entries.map (dependencyNode root.space?),
          n.localName = "dependency" ∧ AllWithin root.space? n := by
  have hrun := run_configureInPlace (p := p) (w := w) tree
  refine ⟨fun f hf => ?_, fun c hc hdisabled => ?_, fun c hc henabled hok => ?_⟩
  · rw [Editing.result, hrun] at hf
    rw [Editing.treeAfter, hrun]
    cases h : (p.configure tree).result w with
    | ok tree' => rw [h] at hf; cases hf
    | error g => rfl
  · have h : (p.configure tree).result w = .ok tree := by
      rw [Plan.configure, hc]
      dsimp only
      rw [hdisabled]
      rfl
    rw [Editing.result, Editing.treeAfter, hrun, h]
    exact ⟨rfl, rfl⟩
  · obtain ⟨enabled, action⟩ := c
    obtain rfl : enabled = true := henabled
    rw [Editing.result, hrun] at hok
    cases h : (p.configure tree).result w with
    | error g => rw [h] at hok; cases hok
    | ok tree' =>
      obtain ⟨root, root', rfl, rfl⟩ := exists_roots hc h
      obtain ⟨hproject, entries, hentries, rfl⟩ := (Plan.configure_eq_ok hc).1 h
      refine ⟨root, addEntries root entries, entries, rfl, ?_, ?_,
        changesChild_addEntries hproject entries, fun n hn => ?_⟩
      · rw [Editing.treeAfter, hrun, h]
      · rw [Plan.preview, hc]
        exact hentries
      · obtain ⟨m, -, rfl⟩ := List.mem_map.1 hn
        exact ⟨Node.localName_within (by decide), allWithin_dependencyNode m⟩

/-! ### A project in a namespace -/

namespace Namespaced

def resolver : Resolver := ⟨.memory [], 256, 50⟩

def plan : Plan := ⟨resolver, .customization .standard, .empty, none⟩

/-- The section stands there in another namespace, with a remark in it. -/
def project : Node :=
  .element (.within "project" (some "u")) []
    [.text "a", .element (.within "dependencyManagement" none) [] [.remark (.comment "b") []],
      .text "c"]

def managed : Managed := .make ⟨"x", "y", some "1"⟩ none [] none none

/-- The world in which a version of one artifact has been recorded. -/
def managing : World := (World.start 0).afterAll resolver [.addVersion none "x" "y" (some "1") []]

/-- The world in which an import of a BOM has been recorded that the repository does not have. -/
def importing : World :=
  (World.start 0).afterAll resolver [.importBom none ⟨"x", "y", some "1"⟩ .empty]

end Namespaced

theorem configureInPlace_namespaced :
    (∃ root', Namespaced.plan.configureInPlace.treeAfter Namespaced.managing
        (some Namespaced.project) = some root' ∧
      Node.ChangesChild "dependencyManagement" (Node.ChangesChild "dependencies"
        (Node.Appends [dependencyNode (some "u") Namespaced.managed])) Namespaced.project root') ∧
    (∃ f, Namespaced.plan.configureInPlace.result Namespaced.importing (some Namespaced.project) =
      .error f) ∧
    Namespaced.plan.configureInPlace.treeAfter Namespaced.importing (some Namespaced.project) =
      some Namespaced.project := by
  have hsettings : Namespaced.plan.settings = .customization .standard := rfl
  obtain ⟨-, -, hextended⟩ :=
    configureInPlace_all_or_nothing Namespaced.plan Namespaced.managing (some Namespaced.project)
  obtain ⟨hfailed, -, -⟩ :=
    configureInPlace_all_or_nothing Namespaced.plan Namespaced.importing (some Namespaced.project)
  have hok : Namespaced.plan.configureInPlace.result Namespaced.managing
      (some Namespaced.project) = .ok () := Editing.result_of_isOk (by decide +kernel)
  obtain ⟨f, hf⟩ : ∃ f, Namespaced.plan.configureInPlace.result Namespaced.importing
      (some Namespaced.project) = .error f := Editing.exists_error_of_isOk (by decide +kernel)
  have hentries : (Namespaced.plan.preview Namespaced.project).result Namespaced.managing =
      .ok [Namespaced.managed] := Run.result_of_gives (by decide +kernel)
  obtain ⟨root, root', entries, hroot, htree, hpreview, hchange, -⟩ :=
    hextended _ hsettings rfl hok
  obtain rfl := Option.some.inj hroot
  obtain rfl : [Namespaced.managed] = entries := Except.ok.inj (hentries.symm.trans hpreview)
  exact ⟨⟨root', htree, hchange⟩, ⟨f, hf⟩, hfailed f hf⟩

end Publish

end BomTable
