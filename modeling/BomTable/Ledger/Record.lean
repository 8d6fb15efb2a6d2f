import BomTable.Artifact.Basic
import BomTable.Property.Source

/-!
What a project has asked for: imports of BOMs and versions of its own, each in the order in which it
was recorded. Nothing is looked up when it is recorded.
-/

namespace BomTable

/-- The import of a BOM, with the properties given along with it. -/
structure Import where
  requestedBy : Option String
  coordinates : Coordinates
  properties : Source

/-- The properties that an import is resolved with: the current ones over its own. -/
def Import.propertiesWith (i : Import) (current : Source) : Source := i.properties.layer current

/-- A version that the project manages itself. -/
structure Override where
  requestedBy : Option String
  group : String
  artifact : String
  version : String
  exclusions : List Exclusion
deriving DecidableEq

def Override.toManaged (o : Override) : Managed :=
  .make ⟨o.group, o.artifact, some o.version⟩ none o.exclusions none none

structure Ledger where
  imports : List Import
  overrides : List Override

namespace Ledger

def empty : Ledger := ⟨[], []⟩

instance : Inhabited Ledger := ⟨empty⟩

def isEmpty (l : Ledger) : Bool := l.imports.isEmpty && l.overrides.isEmpty

def addImport (l : Ledger) (i : Import) : Ledger := { l with imports := l.imports ++ [i] }

def addOverride (l : Ledger) (o : Override) : Ledger := { l with overrides := l.overrides ++ [o] }

end Ledger

end BomTable
