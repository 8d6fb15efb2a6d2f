import BomTable.Artifact.Reading
import BomTable.Resolution.World

/-!
Requests written into the ledger. A request that cannot be met is refused before anything is
written; of a set of requests those before the refused one stay.
-/

namespace BomTable

namespace Ledger

def current : Run Ledger := do return (← get).ledger

def component : String := "container"

/-- The remark that something was recorded. -/
def recorded (what : String) (c : Coordinates) (requestedBy : Option String) : Record :=
  .ofComponent .debug component ("Recorded " ++ what ++ " " ++ c.written)
    [("coordinates", .text c.written), ("requested_by", .optional requestedBy)]

/-- Records the import of a BOM, which must have a version. -/
def importBom (requestedBy : Option String) (c : Coordinates) (properties : Source) :
    Run Import := do
  if (Text.nonempty? c.version).isNone then Run.fail (.unversionedImport c)
  else
    let i : Import := ⟨requestedBy, c, properties⟩
    modify fun w => { w with ledger := w.ledger.addImport i }
    Run.log (recorded "import of" c requestedBy)
    return i

/-- Records the import of a BOM whose coordinates have still to be read. -/
def importRead (requestedBy : Option String) (given : Except Error Coordinates)
    (properties : Source) : Run Import := do
  importBom requestedBy (← Run.ofExcept given) properties

/-- The warning that an artifact is kept out of its own dependencies. -/
def selfExcluded (c : Coordinates) (e : Exclusion) : Record :=
  .ofComponent .warning component
    ("Managed version " ++ c.written ++ " excludes itself through " ++ e.written)
    [("coordinates", .text c.written), ("exclusion", .text e.written)]

/-- What a request for a version asks for, if it can be met. -/
def request (requestedBy : Option String) (group artifact : String) (version : Option String)
    (exclusions : List ExclusionEntry) : Except Error (Coordinates × Override) := do
  let c ← Coordinates.make group artifact version
  match version with
  | some v =>
    if Text.isBlank v then throw (.blankVersion c)
    else return (c, ⟨requestedBy, group, artifact, v, ← Exclusion.readAll exclusions⟩)
  | none => throw (.blankVersion c)

/-- Records a version of one artifact. -/
def addVersion (requestedBy : Option String) (group artifact : String) (version : Option String)
    (exclusions : List ExclusionEntry) : Run Override := do
  let (c, o) ← Run.ofExcept (request requestedBy group artifact version exclusions)
  Run.note ((o.exclusions.filter fun e => e.applies group artifact).map fun e =>
    .logged (selfExcluded c e))
  modify fun w => { w with ledger := w.ledger.addOverride o }
  Run.log (recorded "managed version" c requestedBy)
  return o

/-- Records one version for several artifacts of a group, each with its own exclusions. -/
def addVersions (requestedBy : Option String) (group : String) (version : Option String)
    (entries : List (String × List ExclusionEntry)) : Run (List Override) :=
  entries.mapM fun e => addVersion requestedBy group e.1 version e.2

end Ledger

end BomTable
