import BomTable.Dict

/-!
Structured values: what a log record carries besides its message, and what a setting given as text
may stand for. Whole numbers and floating-point numbers are kept apart.
-/

namespace BomTable

inductive Json where
  | null
  | bool (b : Bool)
  | int (n : Int)
  | float (x : Float)
  | text (s : String)
  | list (items : List Json)
  | object (members : List (String × Json))
deriving Inhabited

namespace Json

def texts (items : List String) : Json := .list (items.map .text)

/-- A text, or null where there is none. -/
def optional : Option String → Json
  | none => .null
  | some s => .text s

def text? : Json → Option String
  | .text s => some s
  | _ => none

def list? : Json → Option (List Json)
  | .list items => some items
  | _ => none

def members? : Json → Option (List (String × Json))
  | .object members => some members
  | _ => none

/-- The member of an object under a name. -/
def member? (name : String) : Json → Option Json
  | .object members => Dict.find? members name
  | _ => none

end Json

end BomTable
