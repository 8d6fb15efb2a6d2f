import BomTable.Xml.AttributeRule
import BomTable.Xml.Content

/-!
The declarations inside a document type, read from their pieces. Of declarations about the content
of elements and about formats only the form counts.
-/

namespace BomTable.Xml

inductive Declared where
  /-- An entity with its quoted text; one that is found elsewhere has none. -/
  | entity (name : String) (text : Option (List Char))
  /-- An entity that only declarations can name. -/
  | parameter (text : Option (List Char))
  | attributes (rules : List AttributeRule)
  /-- A place where declarations go that are found elsewhere. -/
  | insertion
  | other

namespace Declared

/-- The remark that something outside is no text at all, where there is one. -/
def isRemarkOnFormat : List Piece → Bool
  | [] => true
  | [.name "NDATA", .name _] => true
  | _ => false

def entity? : List Piece → Option Declared
  | [.percent, .name _, .quoted s] => some (.parameter (some s))
  | [.name n, .quoted s] => some (.entity n (some s))
  | .percent :: .name _ :: place => do
    if (← Piece.outside? place).isEmpty then return .parameter none else none
  | .name n :: place => do
    if isRemarkOnFormat (← Piece.outside? place) then return .entity n none else none
  | _ => none

/-- A format, which may have a public name alone. -/
def format? : List Piece → Option Declared
  | [.name _, .name "PUBLIC", .quoted id] => if id.all Piece.inPublic then some .other else none
  | .name _ :: place => do
    if (← Piece.outside? place).isEmpty then return .other else none
  | _ => none

def element? : List Piece → Option Declared
  | p :: content => if p.tag?.isSome && Content.holds content then some .other else none
  | [] => none

def attributes? : List Piece → Option Declared
  | p :: rules => do return .attributes (← AttributeRule.readAll (← p.tag?) rules.length rules)
  | [] => none

/-- A declaration by its opening word, from the pieces up to its end. -/
def ofPieces (word : String) (body : List Piece) : Option Declared :=
  match word with
  | "ENTITY" => entity? body
  | "ATTLIST" => attributes? body
  | "ELEMENT" => element? body
  | "NOTATION" => format? body
  | _ => none

/-- The declarations up to the closing bracket; the fuel counts the pieces. -/
def readAll : Nat → List Piece → Option (List Declared × List Piece)
  | fuel + 1, p :: rest =>
    match p with
    | .closeBracket => some ([], rest)
    | .remark => readAll fuel rest
    | .insertion _ => (readAll fuel rest).map fun (more, last) => (.insertion :: more, last)
    | .opening word => do
      let d ← ofPieces word (rest.takeWhile (· ≠ .closing))
      let (more, last) ← readAll fuel ((rest.dropWhile (· ≠ .closing)).drop 1)
      return (d :: more, last)
    | _ => none
  | _, _ => none

end Declared

end BomTable.Xml
