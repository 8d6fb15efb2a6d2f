import BomTable.Json.Basic
import BomTable.Text.Blank
import BomTable.Text.Fields

/-!
Reports: what is told about a failure. A report has a message, a category and a severity, says where
the failure happened and what may help. Each kind of failure fills in what the caller leaves open.
-/

namespace BomTable

inductive Severity where
  | low | medium | high | critical
deriving DecidableEq, Inhabited

inductive Category where
  | configuration | construction | resolution | network | validation
deriving DecidableEq, Inhabited

/-- The kinds of failure a caller may want to tell apart. -/
inductive Kind where
  | general | construction | resolution | notFound | configuration
deriving DecidableEq, Inhabited

namespace Severity

def name : Severity → String
  | low => "low"
  | medium => "medium"
  | high => "high"
  | critical => "critical"

end Severity

namespace Category

def name : Category → String
  | configuration => "configuration"
  | construction => "construction"
  | resolution => "resolution"
  | network => "network"
  | validation => "validation"

/-- The name in capital letters, as error codes begin. -/
def capitals (c : Category) : String := c.name.toUpper

end Category

namespace Kind

/-- The name under which a failure of this kind is logged. -/
def name : Kind → String
  | general => "DependencyManagementException"
  | construction => "ConstructionError"
  | resolution => "ResolutionError"
  | notFound => "ArtifactNotFoundError"
  | configuration => "ConfigurationError"

/-- A missing artifact is a failed resolution too. -/
def isResolution (k : Kind) : Bool := k = resolution ∨ k = notFound

end Kind

/-- Where a failure happened. -/
structure Context where
  component : String
  operation : String
  coordinates : Option String
  data : List (String × Json)
deriving Inhabited

namespace Context

def plain (component operation : String) : Context := ⟨component, operation, none, []⟩

def note (c : Context) (name : String) (value : Json) : Context :=
  { c with data := Dict.put c.data name value }

/-- Adds coordinates unless some are already there. -/
def locate (c : Context) (coordinates : Option String) : Context :=
  match c.coordinates, coordinates with
  | some s, _ => if s = "" then { c with coordinates := coordinates.orElse fun _ => some s } else c
  | none, given => { c with coordinates := given }

end Context

/-- What a report of a certain kind holds besides. -/
inductive Detail where
  | nothing
  | field (name : Option String)
  | subject (coordinates : Option String)
  | search (coordinates : Option String) (repositories : List String)
  | setting (name : Option String)
deriving DecidableEq, Inhabited

structure Report where
  message : String
  /-- A code given by the caller; without one the category and the time make up the code. -/
  code : Option String
  severity : Severity
  category : Category
  component : String
  context : Context
  cause : Option String
  steps : List String
  detail : Detail
deriving Inhabited

/-- What a caller may say about a failure; all that is left open is filled in by its kind. -/
structure Particulars where
  code : Option String := none
  severity : Option Severity := none
  category : Option Category := none
  context : Option Context := none
  /-- Whether nothing is to be filled in for a missing context. -/
  contextless : Bool := false
  cause : Option String := none
  steps : List String := []
  component : Option String := none
deriving Inhabited

/-- The context with what a kind of failure fills in. -/
def Particulars.contextOr (p : Particulars) (default : Context) : Option Context :=
  if p.contextless then p.context else some (p.context.getD default)

namespace Report

def kind (r : Report) : Kind :=
  match r.detail with
  | .nothing => .general
  | .field _ => .construction
  | .subject _ => .resolution
  | .search .. => .notFound
  | .setting _ => .configuration

/-- A report of no particular kind. -/
def general (message : String) (p : Particulars) : Report :=
  let component :=
    (Text.nonempty? p.component).getD ((p.context.map Context.component).getD "unknown")
  { message
    code := Text.nonempty? p.code
    severity := p.severity.getD .medium
    category := p.category.getD .resolution
    component
    context := p.context.getD (.plain component "unknown")
    cause := p.cause
    steps := p.steps
    detail := .nothing }

/-- Values that no coordinates or exclusion can be made of. -/
def construction (message : String) (field : Option String) (p : Particulars) : Report :=
  let r := general message
    { p with
      severity := some (p.severity.getD .high)
      category := some (p.category.getD .construction)
      context := p.contextOr (.plain "model" "construct") }
  { r with
    detail := .field field
    context := match Text.nonempty? field with
      | some f => r.context.note "field" (.text f)
      | none => r.context }

def resolutionSteps : List String :=
  ["Check that the BOM coordinates are correct",
    "Verify the configured repositories are reachable",
    "Check property values used in the BOM's import coordinates"]

/-- A BOM, or one it leads to, could not be fetched, read or resolved. -/
def resolution (message : String) (coordinates : Option String) (p : Particulars) : Report :=
  let context := (p.context.getD (.plain "resolver" "resolve")).locate coordinates
  { general message
      { p with
        severity := some (p.severity.getD .high)
        category := some (p.category.getD .resolution)
        context := some context
        steps := p.steps ++ resolutionSteps } with
    detail := .subject coordinates }

/-- The text that stands for missing coordinates. -/
def subjectText (coordinates : Option String) : String := coordinates.getD "None"

/-- No repository has the document; the ones that were searched are named. -/
def notFound (coordinates : Option String) (repositories : List String) (p : Particulars) :
    Report :=
  let place := if repositories.isEmpty then "" else " in " ++ Text.joined ", " repositories
  let r := resolution ("Could not find POM for " ++ subjectText coordinates ++ place) coordinates p
  { r with
    detail := .search coordinates repositories
    context := r.context.note "repositories" (.texts repositories) }

/-- The document to be configured, or the settings for it, cannot be used. -/
def configuration (message : String) (setting : Option String) (p : Particulars) : Report :=
  let advice :=
    match Text.nonempty? setting with
    | some s => "Verify " ++ s ++ " configuration"
    | none => "Check the POM customization settings"
  let r := general message
    { p with
      severity := some (p.severity.getD .high)
      category := some (p.category.getD .configuration)
      context := p.contextOr (.plain "pom_configurer" "configure")
      steps := p.steps ++ [advice, "Check that the POM has a project root element"] }
  { r with
    detail := .setting setting
    context := match Text.nonempty? setting with
      | some s => r.context.note "config_key" (.text s)
      | none => r.context }

/-- A repository could not be read; the cause has a kind and a text. -/
def fetchFailure (coordinates : Option String) (location causeKind causeText : String)
    (hasCause : Bool) : Report :=
  let subject := subjectText coordinates
  resolution ("Failed to fetch POM for " ++ subject ++ " from " ++ location ++ ": " ++ causeText)
    coordinates
    { category := some .network
      cause := if hasCause then some causeText else none
      context := some
        { component := "repository"
          operation := "fetch"
          coordinates := some subject
          data := [("location", .text location), ("cause_type", .text causeKind)] } }

/-- A document is not a usable POM. -/
def parseFailure (coordinates : Option String) (details : String) (cause : Option String) :
    Report :=
  resolution ("Invalid POM for " ++ subjectText coordinates ++ ": " ++ details) coordinates
    { category := some .validation
      cause
      context := some
        { component := "maven_parser"
          operation := "parse"
          coordinates
          data := [] } }

def addStep (r : Report) (step : String) : Report := { r with steps := r.steps ++ [step] }

/-- The last six digits of a time in seconds. -/
def stamp (now : Nat) : String :=
  let ds := (toString now).toList
  String.ofList (ds.drop (ds.length - 6))

/-- The code of a failure at a time: the given one, or the category followed by the time. -/
def codeAt (r : Report) (now : Nat) : String :=
  r.code.getD (r.category.capitals ++ "_" ++ stamp now)

def toJson (r : Report) (now : Nat) : Json :=
  .object
    [("error_code", .text (r.codeAt now)),
      ("message", .text r.message),
      ("severity", .text r.severity.name),
      ("category", .text r.category.name),
      ("context", .object
        [("component", .text r.context.component),
          ("operation", .text r.context.operation),
          ("coordinates", .optional r.context.coordinates),
          ("context_data", .object r.context.data)]),
      ("cause", .optional r.cause),
      ("troubleshooting_steps", .texts r.steps)]

end Report

end BomTable
