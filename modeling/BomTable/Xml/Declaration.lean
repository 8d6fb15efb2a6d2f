import BomTable.Xml.Scan

/-!
The declaration in the first line of a document: its version, which may be any, the encoding of its
characters, and whether it stands alone.
-/

namespace BomTable.Xml

structure Declaration where
  encoding : Option String
  standalone : Bool
deriving DecidableEq

namespace Declaration

def inValue (c : Char) : Bool :=
  c.isAlphanum || c = '.' || c = '-' || c = '_'

/-- The settings of a declaration, each a name and a quoted value after white space. -/
def readSettings : Nat → List Char → Option (List (String × String))
  | 0, _ => none
  | fuel + 1, cs =>
    if (skipSpace cs).isEmpty then some []
    else do
      let (name, afterName) ← readName (← spaced? cs)
      let afterSign ← after? ['='] (skipSpace afterName)
      let (value, rest) ← readQuoted (skipSpace afterSign)
      if value.all inValue then
        return (String.ofList name, String.ofList value) :: (← readSettings fuel rest)
      else none

def encoding? (value : String) : Option String :=
  match value.toList with
  | c :: _ => if c.isAlpha then some value else none
  | [] => none

def standalone? (value : String) : Option Bool :=
  if value = "yes" then some true else if value = "no" then some false else none

/-- A version first, then perhaps an encoding, then perhaps whether the document stands alone. -/
def ofSettings : List (String × String) → Option Declaration
  | [("version", _)] => some ⟨none, false⟩
  | [("version", _), ("encoding", e)] => do return ⟨some (← encoding? e), false⟩
  | [("version", _), ("standalone", s)] => do return ⟨none, ← standalone? s⟩
  | [("version", _), ("encoding", e), ("standalone", s)] => do
    return ⟨some (← encoding? e), ← standalone? s⟩
  | _ => none

/-- What holds for a document without a declaration. -/
def absent : Declaration := ⟨none, false⟩

/-- The declaration at the start of a text, if there is one, and what follows. -/
def read (cs : List Char) : Option (Declaration × List Char) :=
  match afterWord? "<?xml" cs with
  | some (c :: rest) =>
    if isSpace c then do
      let (inner, last) ← cutAt ['?', '>'] (c :: rest)
      return (← ofSettings (← readSettings (inner.length + 1) inner), last)
    else some (absent, cs)
  | _ => some (absent, cs)

end Declaration

end BomTable.Xml
