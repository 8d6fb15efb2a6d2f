import BomTable.Error.Basic
import BomTable.Text.Fields

/-!
Coordinates and exclusions built from their parts or read from one text with colons. The white space
around the whole text is dropped, the white space around a part belongs to the part.
-/

namespace BomTable

namespace Owner

/-- A part must not be blank. -/
def require (owner : Owner) (part : Part) (value : String) : Except Error Unit :=
  if Text.isBlank value then .error (.blankPart owner part) else .ok ()

/-- What is made of a group and an artifact, neither of which may be blank. -/
def make {α : Type} (owner : Owner) (group artifact : String) (made : α) : Except Error α := do
  owner.require .group group
  owner.require .artifact artifact
  return made

end Owner

/-- Any version, also an empty one, is taken. -/
def Coordinates.make (group artifact : String) (version : Option String) :
    Except Error Coordinates :=
  Owner.coordinates.make group artifact ⟨group, artifact, version⟩

/-- Reads `group:artifact` or `group:artifact:version`. -/
def Coordinates.read (text : Option String) : Except Error Coordinates :=
  match (Text.nonempty? text).map fun s => Text.fields ':' (Text.strip s) with
  | some [g, a] => make g a none
  | some [g, a, v] => make g a (some v)
  | _ => .error (.notCoordinates text)

def Exclusion.make (group artifact : String) : Except Error Exclusion :=
  Owner.exclusion.make group artifact ⟨group, artifact⟩

/-- Reads `group:artifact`. -/
def Exclusion.read (text : Option String) : Except Error Exclusion :=
  match (Text.nonempty? text).map fun s => Text.fields ':' (Text.strip s) with
  | some [g, a] => make g a
  | _ => .error (.notExclusion text)

/-- An exclusion as a caller gives it: built already, or still to be read. -/
inductive ExclusionEntry where
  | built (e : Exclusion)
  | written (s : String)
deriving DecidableEq, Inhabited

def ExclusionEntry.resolve : ExclusionEntry → Except Error Exclusion
  | built e => .ok e
  | written s => Exclusion.read (some s)

/-- Reads all entries in order, up to the first that cannot be read; each exclusion is kept once. -/
def Exclusion.readAll (entries : List ExclusionEntry) : Except Error (List Exclusion) := do
  return (← entries.mapM ExclusionEntry.resolve).eraseDups

end BomTable
