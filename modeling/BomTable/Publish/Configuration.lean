import BomTable.Publish.Entries

/-!
A POM extended by the entries to be published. All entries are found before anything is added, so a
POM is either extended by all of them or stays as it is.
-/

namespace BomTable

/-- How a POM is to be extended. -/
structure Customization where
  enabled : Bool
  action : BomAction
deriving DecidableEq, Inhabited

namespace Customization

def standard : Customization := ⟨true, .importing⟩

end Customization

/-- Settings as a caller gives them, which may be something else altogether. -/
inductive GivenSettings where
  | customization (c : Customization)
  | foreign (typeName : String)
deriving DecidableEq, Inhabited

namespace Publish

open Xml

def optionalLeaf (space : Option String) (tag : String) : Option String → List Node
  | some s => [.leaf (.within tag space) s]
  | none => []

def exclusionNode (space : Option String) (e : Exclusion) : Node :=
  .element (.within "exclusion" space) []
    [.leaf (.within "groupId" space) e.group, .leaf (.within "artifactId" space) e.artifact]

def exclusionsNode (space : Option String) (es : List Exclusion) : List Node :=
  if es.isEmpty then []
  else [.element (.within "exclusions" space) [] (es.map (exclusionNode space))]

/-- The element that writes an entry. -/
def dependencyNode (space : Option String) (m : Managed) : Node :=
  .element (.within "dependency" space) []
    (optionalLeaf space "groupId" (some m.group) ++
      optionalLeaf space "artifactId" (some m.artifact) ++
      optionalLeaf space "version" m.version ++
      optionalLeaf space "type" m.packaging ++
      optionalLeaf space "classifier" m.classifier ++
      optionalLeaf space "scope" m.scope ++
      exclusionsNode space m.exclusions)

/-- Adds entries at the end of the managed dependencies of a POM. -/
def addEntries (root : Node) (entries : List Managed) : Node :=
  let nodes := entries.map (dependencyNode root.space?)
  root.withChild "dependencyManagement" (Node.withChild "dependencies" (Node.append nodes))

def component : String := "pom_configurer"

/-- Everything that has a say in how a POM is extended. -/
structure Plan where
  resolver : Resolver
  settings : GivenSettings
  current : Source
  /-- The declared dependencies, unless they are read from the POM. -/
  declared : Option (List Declared)
deriving Inhabited

namespace Plan

/-- The entries to be written into a POM. -/
def entries (p : Plan) (action : BomAction) (root : Node) : Run (List Managed) :=
  managedEntries p.resolver action p.current (p.declared.getD (Pom.Reading.dependencies root))

/-- The entries that would be written into a POM. Foreign settings do not say what becomes of
imported BOMs. -/
def preview (p : Plan) (root : Node) : Run (List Managed) :=
  match p.settings with
  | .customization c => p.entries c.action root
  | .foreign _ => do
    let _ ← Ledger.effectiveEntries p.resolver p.current
    throw .undecided

def added (l : Ledger) (count : Nat) : Record :=
  .ofComponent .info component ("Added " ++ toString count ++ " managed dependencies to the POM")
    [("imports", .int l.imports.length), ("overrides", .int l.overrides.length)]

def extend (p : Plan) (action : BomAction) (root : Node) : Run Node := do
  let entries ← Run.timed component "configure_pom" [] (p.entries action root)
  Run.log (added (← Ledger.current) entries.length)
  return addEntries root entries

/-- Extends a POM, unless that is switched off. There must be a root element `project`. -/
def configure (p : Plan) (pom : Option Node) : Run (Option Node) :=
  match p.settings with
  | .foreign typeName => Run.fail (.wrongSettings typeName)
  | .customization c =>
    if c.enabled then
      match pom with
      | some root =>
        if root.localName = "project" then do return some (← p.extend c.action root)
        else Run.fail .noProject
      | none => Run.fail .noProject
    else do
      Run.log (.ofComponent .debug component "POM customization is disabled" [])
      return pom

end Plan

end Publish

end BomTable
