import BomTable.CommandLine.Arguments
import BomTable.CommandLine.Values
import BomTable.Log.Output
import BomTable.Pom.Printing
import BomTable.Settings.Basic

/-!
A run of the program from its arguments and its surroundings to what it writes. The surroundings are
given as values: variables, files and what addresses answer to those who ask in a certain way.
-/

namespace BomTable.CommandLine

structure Surroundings where
  environment : List (String × String)
  disk : Disk
  web : Asking → Web
  now : Nat
deriving Inhabited

/-- What a run amounts to: the text it writes and where, what has happened, and whether it was
successful. -/
inductive Outcome where
  | refused
  | help
  | failed (events : List Event)
  | printed (text : String) (events : List Event)
  | stored (path text : String) (events : List Event)
deriving Inhabited

namespace Outcome

def exitCode : Outcome → Nat
  | refused => 2
  | failed _ => 1
  | _ => 0

def events : Outcome → List Event
  | failed events => events
  | printed _ events => events
  | stored _ _ events => events
  | _ => []

end Outcome

/-- The document that is extended when none is named. -/
def emptyPom : String := "<project></project>"

def component : String := "main"

/-- How it is told that a path could not be read. -/
def obstacle (why : Obstacle) (path : Path) : Problem :=
  ⟨"OSError",
    "[Errno " ++ toString why.number ++ "] " ++ why.text ++ ": " ++ Text.quoted path.written⟩

/-- The octets of a file. -/
def readFile (disk : Disk) (path : Path) : Except Problem Xml.Bytes :=
  match disk.look path with
  | .entry (.file content) => .ok content
  | .entry .directory => .error (obstacle ⟨21, "Is a directory"⟩ path)
  | .entry (.closed why) => .error (obstacle why path)
  | .entry .unreadable => .error ⟨"OSError", "[Errno 5] Input/output error"⟩
  | .missing => .error (obstacle ⟨2, "No such file or directory"⟩ path)
  | .blocked => .error (obstacle ⟨20, "Not a directory"⟩ path)
  | .refused why => .error (obstacle why path)

/-- The document to be extended, as it comes. -/
def readPom (disk : Disk) (pom : Option String) : Run Content :=
  match Text.nonempty? pom with
  | none => return .text emptyPom
  | some p => do
    if p.toList.contains '\x00' then throw (.brokenPath p)
    let path := Path.read p
    Run.note [.looked path]
    match readFile disk path with
    | .ok content => return .bytes content
    | .error problem => Run.fail (.unreadablePom p problem)

def parsePom (pom : Option String) (content : Content) : Run Xml.Node :=
  match content.node false with
  | .ok root => return root
  | .error .malformed => Run.fail (.malformedPom (pom.getD ""))
  | .error (.unknownEncoding name) => throw (.unknownEncoding name)
  | .error (.longEncoding name) => throw (.longEncoding name)

/-- The settings with those of the arguments in their place. -/
def adjusted (s : Settings) (a : Arguments) : Settings :=
  { s with
    repositoryUrls := if a.repositories.isEmpty then s.repositoryUrls else a.repositories
    localRepository := (Text.nonempty? a.localRepository).orElse fun _ => s.localRepository }

/-- What the arguments say about publishing. -/
def given (a : Arguments) : List (String × Json) :=
  (if a.disabled then [("enabled", Json.bool false)] else []) ++
    ((Text.nonempty? a.action).map fun s => ("imported_bom_action", Json.text s)).toList

def recordManaged (exclusions : Dict (List Exclusion)) (written : String) : Run Override := do
  let c ← Run.ofExcept (Coordinates.read (some written))
  Ledger.addVersion none c.group c.artifact c.version
    (((exclusions.get? c.unversioned).getD []).map .built)

/-- The extended document. The first thing that is wrong, in the order of these steps, ends it. -/
def extended (around : Surroundings) (s : Settings) (a : Arguments) : Run String := do
  let s := adjusted s a
  let resolver : Resolver := ⟨s.client around.disk around.web, s.cacheSize, s.maxDepth⟩
  a.boms.forM fun b => do let _ ← Ledger.importRead none (Coordinates.read (some b)) .empty
  let exclusions ← Run.ofExcept (readExclusions a.excludes)
  a.managed.forM fun m => do let _ ← recordManaged exclusions m
  let customization ← Run.ofFailure (Customization.ofSources ⟨around.environment, given a⟩)
  let root ← parsePom a.pom (← readPom around.disk a.pom)
  let properties ← Run.ofExcept (readProperties a.properties)
  let plan : Publish.Plan :=
    ⟨resolver, .customization customization, .ofDict properties, none⟩
  let result ← plan.configure (some root)
  return (Pom.serialize .start (result.getD root) "").2

/-- How a failure is told at the end of a run. -/
def told (e : Error) (now : Nat) : Record :=
  .ofFailure component e.kind.name e.message (some (e.report.toJson now)) []

def warning (message : String) : Event := .logged (.ofComponent .warning component message [])

def stored (path : String) : Event :=
  .logged (.ofComponent .info component ("Wrote " ++ path) [])

/-- A run with valid settings. -/
def runWith (around : Surroundings) (s : Settings) (arguments : List String) :
    Except Failure Outcome :=
  match Request.read arguments with
  | .refused => .ok .refused
  | .help => .ok .help
  | .run a =>
    let (result, w) := (extended around s a).run (World.start around.now)
    let events := s.warnings.map warning ++ w.journal
    match result with
    | .ok text =>
      match Text.nonempty? a.output with
      | some path => .ok (.stored path text (events ++ [stored path]))
      | none => .ok (.printed text events)
    | .error (.error e) => .ok (.failed (events ++ [.logged (told e around.now)]))
    | .error f => .error f

/-- A run: its log, as far as the settings let it through, and what it amounts to. -/
def run (around : Surroundings) (arguments : List String) :
    Except Failure (List LogLine × Outcome) := do
  let s ← Settings.ofSources ⟨around.environment, []⟩
  let outcome ← runWith around s arguments
  let log : LogOutput := ⟨s.logLevel.severity, s.logJson, 0⟩
  let records := outcome.events.filterMap fun e =>
    match e with
    | .logged r => some r
    | _ => none
  return ((log.writeAll records).2, outcome)

end BomTable.CommandLine
