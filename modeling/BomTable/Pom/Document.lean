import BomTable.Error.Basic
import BomTable.Property.Source
import BomTable.Xml.Encoding
import BomTable.Xml.Navigation

/-!
What a POM says, value by value as it is written. A group or version that the POM lacks is that of
its parent. The properties of a project itself go by two families of names.
-/

namespace BomTable

/-- A POM as far as managed versions depend on it. -/
structure Pom where
  coordinates : Coordinates
  parent : Option Coordinates
  packaging : String
  properties : Dict String
  management : List RawEntry
  dependencies : List Declared
deriving DecidableEq

namespace Pom

/-- The packaging of a POM that names none. -/
def defaultPackaging : String := "jar"

/-- A value of the project under both names that it goes by. -/
def builtinPair (name : String) : Option String → List (String × String)
  | some v => [("project." ++ name, v), ("pom." ++ name, v)]
  | none => []

def builtinParent : Option Coordinates → List (String × String)
  | none => []
  | some p =>
    [("project.parent.groupId", p.group), ("project.parent.artifactId", p.artifact)] ++
      ((Text.nonempty? p.version).map fun v => ("project.parent.version", v)).toList

/-- The properties that every project has. -/
def builtins (coordinates : Coordinates) (parent : Option Coordinates)
    (packaging : Option String) : Dict String :=
  .ofList (builtinPair "groupId" (some coordinates.group) ++
    builtinPair "artifactId" (some coordinates.artifact) ++
    builtinPair "version" coordinates.version ++
    builtinPair "packaging" packaging ++
    builtinParent parent)

def builtinProperties (p : Pom) : Dict String := builtins p.coordinates p.parent (some p.packaging)

end Pom

namespace Pom.Reading

open Xml

/-- The parent, if it is named completely. -/
def parent (root : Node) : Option Coordinates := do
  let p ← root.findChild "parent"
  let group ← p.childText "groupId"
  let artifact ← p.childText "artifactId"
  let version ← p.childText "version"
  return ⟨group, artifact, some version⟩

/-- The coordinates of the POM itself. -/
def coordinates (root : Node) (parent : Option Coordinates) : Except PomDefect Coordinates :=
  let group := (root.childText "groupId").orElse fun _ => parent.map (·.group)
  let version := (root.childText "version").orElse fun _ => parent.bind (·.version)
  match group, root.childText "artifactId" with
  | some g, some a =>
    let c : Coordinates := ⟨g, a, version⟩
    if (parent.map fun p => p.sameArtifact c).getD false then .error (.ownParent c.unversioned)
    else .ok c
  | _, _ => .error .noCoordinates

/-- The names and stripped texts of the elements among the properties. -/
def properties (root : Node) : Dict String :=
  match root.findChild "properties" with
  | none => ∅
  | some p => .ofList (p.children.filterMap fun c =>
      c.name?.map fun name => (name.tag, Text.strip (c.ownText.getD "")))

/-- Group and artifact of an element, if it has both. -/
def artifactOf (n : Node) : Option (String × String) := do
  return (← n.childText "groupId", ← n.childText "artifactId")

/-- The elements of a name inside the first element of another. -/
def inside (n : Node) (outer inner : String) : List Node :=
  match n.findChild outer with
  | some o => o.findChildren inner
  | none => []

def managedEntry (n : Node) : Option RawEntry := do
  let (group, artifact) ← artifactOf n
  return {
    group
    artifact
    version := n.childText "version"
    classifier := n.childText "classifier"
    scope := n.childText "scope"
    packaging := n.childText "type"
    exclusions := (inside n "exclusions" "exclusion").filterMap artifactOf }

def management (root : Node) : List RawEntry :=
  match root.findPath "dependencyManagement/dependencies" with
  | some d => (d.findChildren "dependency").filterMap managedEntry
  | none => []

def declaredEntry (n : Node) : Option Declared := do
  let (group, artifact) ← artifactOf n
  return {
    group
    artifact
    classifier := n.childText "classifier"
    version := n.childText "version"
    scope := n.childText "scope" }

/-- The dependencies that the project declares for itself. -/
def dependencies (root : Node) : List Declared :=
  (inside root "dependencies" "dependency").filterMap declaredEntry

end Pom.Reading

/-- What a tree says as a POM. -/
def Pom.ofNode (root : Xml.Node) : Except PomDefect Pom :=
  if root.localName = "project" then do
    let parent := Reading.parent root
    return {
      coordinates := ← Reading.coordinates root parent
      parent
      packaging := (root.childText "packaging").getD defaultPackaging
      properties := Reading.properties root
      management := Reading.management root
      dependencies := Reading.dependencies root }
  else .error (.wrongRoot root.localName)

/-- A document as it comes: a text, whose encoding is settled, or octets. -/
inductive Content where
  | text (s : String)
  | bytes (b : Xml.Bytes)
deriving DecidableEq, Inhabited

/-- The octets of a text. -/
def Content.octets : Content → Xml.Bytes
  | text s => s.toUTF8.data.toList
  | bytes b => b

def Content.node (keep : Bool) : Content → Except Xml.Fault Xml.Node
  | text s =>
    match Xml.Node.ofText keep s with
    | some root => .ok root
    | none => .error .malformed
  | bytes b => Xml.Node.ofBytes keep b

/-- Reads a POM; `source` is what it was fetched for. -/
def Pom.read (source : Option Coordinates) (content : Content) : Except Failure Pom :=
  match content.node false with
  | .error .malformed => .error (.error (.unusablePom source .notXml))
  | .error (.unknownEncoding name) => .error (.unknownEncoding name)
  | .error (.longEncoding name) => .error (.longEncoding name)
  | .ok root =>
    match Pom.ofNode root with
    | .ok pom => .ok pom
    | .error defect => .error (.error (.unusablePom source defect))

end BomTable
