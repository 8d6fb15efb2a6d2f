import BomTable.Artifact.Basic
import BomTable.Error.Report

/-!
The causes of failure. Each cause keeps the values it is about; its report, with message and advice,
is made from them in one place. Causes without a report end a run at once.
-/

namespace BomTable

/-- What has a group and an artifact. -/
inductive Owner where
  | coordinates | exclusion
deriving DecidableEq, Inhabited

inductive Part where
  | group | artifact
deriving DecidableEq, Inhabited

namespace Owner

def name : Owner → String
  | coordinates => "Coordinates"
  | exclusion => "Exclusion"

end Owner

namespace Part

def name : Part → String
  | group => "group_id"
  | artifact => "artifact_id"

end Part

/-- What the outside answered instead of a document: the kind of the problem and its text. -/
structure Problem where
  kind : String
  text : String
deriving DecidableEq, Inhabited

/-- Why the system refuses to follow a path: the number and the text of its reason. -/
structure Obstacle where
  number : Nat
  text : String
deriving DecidableEq, Inhabited

/-- Why a document is no usable POM. -/
inductive PomDefect where
  | notXml
  | wrongRoot (tag : String)
  | noCoordinates
  | ownParent (artifact : String)
deriving DecidableEq, Inhabited

/-- How a text that is not well-formed XML is spoken of. -/
def xmlProblem : String := "<xml error>"

namespace PomDefect

def text : PomDefect → String
  | notXml => "Invalid POM XML: " ++ xmlProblem
  | wrongRoot tag => "Root element is <" ++ tag ++ ">, expected <project>"
  | noCoordinates => "Missing required coordinates: groupId or artifactId"
  | ownParent artifact => "POM " ++ artifact ++ " declares itself as its parent"

def cause : PomDefect → Option String
  | notXml => some xmlProblem
  | _ => none

end PomDefect

/-- The causes that are reported. -/
inductive Error where
  | blankPart (owner : Owner) (part : Part)
  | notCoordinates (text : Option String)
  | notExclusion (text : Option String)
  | unversionedImport (c : Coordinates)
  | blankVersion (c : Coordinates)
  | notProperty (text : String)
  | notExclude (text : String)
  | absent (c : Coordinates) (searched : List String)
  | unfetched (c : Coordinates) (location : String) (problem : Problem)
  | unusablePom (source : Option Coordinates) (defect : PomDefect)
  | importCycle (path : List Coordinates) (c : Coordinates)
  | importsTooDeep (first : Coordinates) (limit : Int) (c : Coordinates)
  | parentCycle (parent c : Coordinates)
  | parentsTooDeep (c : Coordinates)
  | unresolvedImport (entry : RawEntry) (pom : Coordinates)
  | wrongSettings (found : String)
  | noProject
  | unreadablePom (path : String) (problem : Problem)
  | malformedPom (path : String)
deriving DecidableEq, Inhabited

namespace Error

/-- An import as the document writes it. -/
def writtenImport (e : RawEntry) : String :=
  e.group ++ ":" ++ e.artifact ++ ":" ++ e.version.getD "None"

def report : Error → Report
  | blankPart owner part =>
    .construction (owner.name ++ " " ++ part.name ++ " must not be empty") (some part.name) {}
  | notCoordinates text =>
    .construction
      ("Invalid coordinates '" ++ text.getD "None" ++ "', expected group:artifact[:version]")
      (some "coordinates") {}
  | notExclusion text =>
    .construction ("Invalid exclusion '" ++ text.getD "None" ++ "', expected group:artifact")
      (some "exclusion") {}
  | unversionedImport c =>
    .construction ("Imported BOM " ++ c.written ++ " must have a version") (some "version") {}
  | blankVersion c =>
    .construction ("Managed version of " ++ c.written ++ " must not be empty") (some "version") {}
  | notProperty text =>
    .construction ("Invalid property '" ++ text ++ "', expected NAME=VALUE") (some "property") {}
  | notExclude text =>
    .construction ("Invalid exclusion '" ++ text ++ "', expected G:A:EG:EA") (some "exclude") {}
  | absent c searched => .notFound (some c.written) searched {}
  | unfetched c location problem =>
    .fetchFailure (some c.written) location problem.kind problem.text true
  | unusablePom source defect =>
    .parseFailure (source.map Coordinates.written) defect.text defect.cause
  | importCycle path c =>
    .resolution
      ("BOM import cycle detected: " ++ Text.joined " -> " (path.map Coordinates.written))
      (some c.written) {}
  | importsTooDeep first limit c =>
    .resolution
      ("BOM imports of " ++ first.written ++ " are nested more than " ++ toString limit ++
        " levels deep")
      (some c.written) {}
  | parentCycle parent c =>
    .resolution ("Parent cycle detected at " ++ parent.written) (some c.written) {}
  | parentsTooDeep c =>
    .resolution ("Parents of " ++ c.written ++ " are nested too deeply") (some c.written) {}
  | unresolvedImport entry pom =>
    .resolution
      ("Cannot resolve BOM import " ++ writtenImport entry ++ " in " ++ pom.written ++
        ": unresolved properties")
      (some pom.written)
      { context := some
          { component := "resolver"
            operation := "import"
            coordinates := some pom.written
            data := [("import", .text (writtenImport entry))] } }
  | wrongSettings found =>
    .configuration ("Expected PomCustomizationSettings, got " ++ found) (some "settings") {}
  | noProject => .configuration "POM has no <project> root element" (some "pom") {}
  | unreadablePom path problem =>
    .configuration ("Cannot read POM " ++ path ++ ": " ++ problem.text) (some "pom")
      { cause := some problem.text }
  | malformedPom path =>
    .configuration ("Invalid POM " ++ path ++ ": " ++ xmlProblem) (some "pom")
      { cause := some xmlProblem }

def message (e : Error) : String := e.report.message

def kind (e : Error) : Kind := e.report.kind

end Error

/-- What ends a computation: a cause with a report, or one of the causes that have none. -/
inductive Failure where
  | error (e : Error)
  /-- A document names a character encoding that is not known. -/
  | unknownEncoding (name : String)
  /-- A document names a character encoding in which characters take several octets. -/
  | longEncoding (name : String)
  /-- The system refuses to say what stands at a path. -/
  | refusedPath (path : String) (why : Obstacle)
  /-- Asking an address has failed in a way that nobody expects of it. -/
  | unforeseen (url : String) (problem : Problem)
  /-- No path may have the character of number zero in it. -/
  | brokenPath (path : String)
  /-- The limit on nesting leaves no room for even one BOM. -/
  | noRoom
  /-- Nothing says what becomes of imported BOMs. -/
  | undecided
  /-- These settings have values that are not allowed. -/
  | invalidSettings (names : List String)
  /-- A setting that has to be a structured value is not written as one. -/
  | unstructuredSetting
deriving DecidableEq, Inhabited

end BomTable
