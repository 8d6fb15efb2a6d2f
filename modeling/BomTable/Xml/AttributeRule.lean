import BomTable.Xml.Piece

/-!
What a document type says about the attributes of an element: whether their values are texts or
lists of words, and which value an attribute has that is not written.
-/

namespace BomTable.Xml

structure AttributeRule where
  element : String
  name : String
  /-- Whether a value is any text, and not a list of words. -/
  isText : Bool
  default : Option (List Char)

namespace AttributeRule

/-- Alternatives up to the closing parenthesis. -/
def alternatives? (isValue : Piece → Bool) : List Piece → Option (List Piece)
  | p :: .bar :: rest => if isValue p then alternatives? isValue rest else none
  | p :: .closeParen none :: rest => if isValue p then some rest else none
  | _ => none

def isName : Piece → Bool
  | .name _ => true
  | _ => false

def isWord : Piece → Bool
  | .name _ => true
  | .pair _ => true
  | .word _ => true
  | _ => false

/-- Whether the values of a type are texts. -/
def type? : List Piece → Option (Bool × List Piece)
  | .name "CDATA" :: rest => some (true, rest)
  | .name "NOTATION" :: .openParen :: rest => (alternatives? isName rest).map (false, ·)
  | .name s :: rest =>
    if s ∈ ["ID", "IDREF", "IDREFS", "ENTITY", "ENTITIES", "NMTOKEN", "NMTOKENS"] then
      some (false, rest)
    else none
  | .openParen :: rest => (alternatives? isWord rest).map (false, ·)
  | _ => none

/-- The value of an attribute that is not written, if it has one. -/
def default? : List Piece → Option (Option (List Char) × List Piece)
  | .keyword "IMPLIED" :: rest => some (none, rest)
  | .keyword "REQUIRED" :: rest => some (none, rest)
  | .keyword "FIXED" :: .quoted s :: rest => some (some s, rest)
  | .quoted s :: rest => some (some s, rest)
  | _ => none

/-- The rules of a declaration about an element; the fuel counts its pieces. -/
def readAll (element : String) : Nat → List Piece → Option (List AttributeRule)
  | _, [] => some []
  | 0, _ :: _ => none
  | fuel + 1, p :: rest => do
    let name ← p.tag?
    let (isText, afterType) ← type? rest
    let (default, last) ← default? afterType
    return ⟨element, name, isText, default⟩ :: (← readAll element fuel last)

/-- A value as its kind has it: in a list of words there are single spaces, and none at the ends. -/
def regular (isText : Bool) (value : List Char) : List Char :=
  if isText then value else Text.squeezed ' ' value

end AttributeRule

end BomTable.Xml
