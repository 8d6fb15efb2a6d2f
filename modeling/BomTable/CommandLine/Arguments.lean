import BomTable.Text.Digit
import BomTable.Text.Fields

/-!
Arguments of the command line. An option is given by its name or by the beginning of its name, as
long as only one option is meant; its value follows it or stands behind an equals sign. Words that
belong to no option are refused.
-/

namespace BomTable.CommandLine

/-- The options. -/
inductive Flag where
  | pom | output | bom | managed | exclude | property | repository | localRepository | action
  | disable | help
deriving DecidableEq, Inhabited

namespace Flag

def all : List Flag :=
  [pom, output, bom, managed, exclude, property, repository, localRepository, action, disable, help]

def name : Flag → String
  | pom => "--pom"
  | output => "--output"
  | bom => "--import"
  | managed => "--managed"
  | exclude => "--exclude"
  | property => "--property"
  | repository => "--repository"
  | localRepository => "--local-repository"
  | action => "--imported-bom-action"
  | disable => "--disable-customization"
  | help => "--help"

/-- The option with exactly this name; help has a short name as well. -/
def named? (s : String) : Option Flag :=
  if s = "-h" then some help else all.find? fun f => f.name = s

/-- The options whose names begin with a text. -/
def beginning (cs : List Char) : List Flag :=
  all.filter fun f => cs.isPrefixOf f.name.toList

end Flag

/-- What an argument is by its looks. -/
inductive Word where
  | plain (s : String)
  | flag (f : Flag) (value : Option String)
  /-- The short name of help with letters behind it or behind an equals sign. -/
  | shortHelp (more : List Char)
  | unknown
  /-- Two hyphens, behind which everything is plain. -/
  | separator
deriving DecidableEq, Inhabited

namespace Word

/-- One or more digits, and perhaps the end of a line. -/
def isDigits (cs : List Char) : Bool :=
  let rest := cs.dropWhile Text.isDecimalDigit
  cs.head?.any Text.isDecimalDigit && (rest.isEmpty || rest = ['\n'])

/-- A negative number, which is a value and no option. -/
def isNegative (cs : List Char) : Bool :=
  match cs with
  | '-' :: rest =>
    isDigits rest ||
      match rest.dropWhile Text.isDecimalDigit with
      | '.' :: places => isDigits places
      | _ => false
  | _ => false

/-- A word that is no name of an option and no beginning of one. -/
def other (s : String) (cs : List Char) : Word :=
  if isNegative cs || cs.contains ' ' then plain s else unknown

/-- A word that may be the beginning of a name, if it is not the beginning of several. -/
def abbreviated? (s : String) (cs : List Char) : Option Word :=
  let (name, value) :=
    match Text.cut '=' cs with
    | some (name, value) => (name, some (String.ofList value))
    | none => (cs, none)
  match Flag.beginning name with
  | [] => some (other s cs)
  | [f] => some (flag f value)
  | _ => none

/-- The option in front of an equals sign. -/
def assigned? (cs : List Char) : Option Word :=
  match Text.cut '=' cs with
  | some (['-', 'h'], value) => some (shortHelp value)
  | some (name, value) =>
    (Flag.named? (String.ofList name)).map fun f => flag f (some (String.ofList value))
  | none => none

/-- What an argument is; there is no answer when it may be several options. -/
def read? (s : String) : Option Word :=
  match Flag.named? s with
  | some f => some (flag f none)
  | none =>
    match assigned? s.toList, s.toList with
    | some w, _ => some w
    | none, ['-'] => some (plain s)
    | none, '-' :: '-' :: rest => abbreviated? s ('-' :: '-' :: rest)
    | none, '-' :: 'h' :: more => some (shortHelp more)
    | none, '-' :: rest => some (other s ('-' :: rest))
    | none, _ => some (plain s)

def readAll? : List String → Option (List Word)
  | [] => some []
  | s :: rest =>
    if s = "--" then some (separator :: rest.map plain)
    else do return (← read? s) :: (← readAll? rest)

end Word

/-- What the arguments ask for. -/
structure Arguments where
  pom : Option String
  output : Option String
  boms : List String
  managed : List String
  excludes : List String
  properties : List String
  repositories : List String
  localRepository : Option String
  action : Option String
  disabled : Bool
deriving DecidableEq, Inhabited

namespace Arguments

def nothing : Arguments := ⟨none, none, [], [], [], [], [], none, none, false⟩

/-- Gives an option a value. What becomes of imported BOMs has two values only. -/
def set? (a : Arguments) (value : String) : Flag → Option Arguments
  | .pom => some { a with pom := some value }
  | .output => some { a with output := some value }
  | .bom => some { a with boms := a.boms ++ [value] }
  | .managed => some { a with managed := a.managed ++ [value] }
  | .exclude => some { a with excludes := a.excludes ++ [value] }
  | .property => some { a with properties := a.properties ++ [value] }
  | .repository => some { a with repositories := a.repositories ++ [value] }
  | .localRepository => some { a with localRepository := some value }
  | .action =>
    if value = "import" ∨ value = "copy" then some { a with action := some value } else none
  | .disable => none
  | .help => none

end Arguments

/-- What is to be done. -/
inductive Request where
  | run (a : Arguments)
  | help
  | refused
deriving DecidableEq, Inhabited

namespace Request

/-- Letters behind the short name of help have to ask for help once more. -/
def ofShortHelp (more : List Char) : Request :=
  if !more.isEmpty && more.all (· == 'h') then help else refused

/-- Goes through the words; once one belongs to no option, only help can still be asked for. -/
def ofWords (a : Arguments) (stray : Bool) : List Word → Request
  | [] => if stray then refused else run a
  | .flag .help value :: _ => if value.isNone then help else refused
  | .flag .disable value :: rest =>
    if value.isNone then ofWords { a with disabled := true } stray rest else refused
  | .flag f (some value) :: rest =>
    match a.set? value f with
    | some b => ofWords b stray rest
    | none => refused
  | .flag f none :: .plain value :: rest =>
    match a.set? value f with
    | some b => ofWords b stray rest
    | none => refused
  | .flag _ none :: _ => refused
  | .shortHelp more :: _ => ofShortHelp more
  | _ :: rest => ofWords a true rest

/-- What the arguments of a call ask for. -/
def read (arguments : List String) : Request :=
  match Word.readAll? arguments with
  | some words => ofWords .nothing false words
  | none => refused

end Request

end BomTable.CommandLine
