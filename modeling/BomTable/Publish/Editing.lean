import BomTable.Publish.Configuration

/-!
A POM that is extended where it stands. The tree is part of the state, and what has been done to it
stays done when a later step fails. Elements are looked for, and added if they are missing, one step
after the other.
-/

namespace BomTable

namespace Xml.Node

/-- Applies a change to the node at the end of a path of local names; nodes that are missing on the
way are added. -/
def along (f : Node → Node) : List String → Node → Node
  | [] => f
  | tag :: path => withChild tag (along f path)

end Xml.Node

/-- A computation in the world that also changes a tree, and may fail. -/
abbrev Editing (α : Type) := ExceptT Failure (StateM (World × Option Xml.Node)) α

namespace Editing

variable {α : Type}

/-- A computation that has nothing to do with the tree. -/
def ofRun (x : Run α) : Editing α :=
  ExceptT.mk fun (w, tree) =>
    let (result, w) := x.run.run w
    (result, (w, tree))

def tree : Editing (Option Xml.Node) := do return (← get).2

def change (f : Xml.Node → Xml.Node) : Editing Unit :=
  modify fun (w, tree) => (w, tree.map f)

end Editing

namespace Publish.Plan

/-- Adds the entries at the end of the managed dependencies of a project. -/
def extendInPlace (p : Plan) (action : BomAction) (root : Xml.Node) : Editing Unit := do
  let entries ← .ofRun (Run.timed component "configure_pom" [] (p.entries action root))
  let nodes := entries.map (dependencyNode root.space?)
  Editing.change (.along id ["dependencyManagement"])
  Editing.change (.along id ["dependencyManagement", "dependencies"])
  Editing.change (.along (.append nodes) ["dependencyManagement", "dependencies"])
  Editing.ofRun do Run.log (added (← Ledger.current) entries.length)

/-- Extends the POM that stands in the state, unless that is switched off. -/
def configureInPlace (p : Plan) : Editing Unit :=
  match p.settings with
  | .foreign typeName => .ofRun (Run.fail (.wrongSettings typeName))
  | .customization c =>
    if c.enabled then do
      match ← Editing.tree with
      | some root =>
        if root.localName = "project" then p.extendInPlace c.action root
        else .ofRun (Run.fail .noProject)
      | none => .ofRun (Run.fail .noProject)
    else .ofRun (Run.log (.ofComponent .debug component "POM customization is disabled" []))

end Publish.Plan

end BomTable
