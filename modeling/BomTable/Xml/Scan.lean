import BomTable.Text.Hex
import BomTable.Xml.NameChars

/-!
The smallest parts of markup: white space, names, quoted values and references. Each reader takes
its part from the front of a text and gives back what is left.
-/

namespace BomTable.Xml

def isSpace (c : Char) : Bool := c = ' ' || c = '\t' || c = '\n' || c = '\r'

def skipSpace (cs : List Char) : List Char := cs.dropWhile isSpace

/-- The text after white space, of which there must be some. -/
def spaced? (cs : List Char) : Option (List Char) :=
  match cs with
  | c :: rest => if isSpace c then some (skipSpace rest) else none
  | [] => none

/-- A character that a document may contain, written out or by its number. -/
def isAllowed (n : Nat) : Bool :=
  n = 9 || n = 10 || n = 13 || (32 ≤ n && n < 0xD800) || (0xE000 ≤ n && n < 0xFFFE) ||
    (0x10000 ≤ n && n < 0x110000)

/-- Every line end as one line feed. -/
def singleLineEnds : List Char → List Char
  | '\r' :: '\n' :: rest => '\n' :: singleLineEnds rest
  | '\r' :: rest => '\n' :: singleLineEnds rest
  | c :: rest => c :: singleLineEnds rest
  | [] => []

/-- The text after a word it begins with. -/
def after? : List Char → List Char → Option (List Char)
  | [], cs => some cs
  | w :: word, c :: cs => if w = c then after? word cs else none
  | _ :: _, [] => none

def afterWord? (word : String) (cs : List Char) : Option (List Char) := after? word.toList cs

/-- The parts before and after the first place where a mark stands. -/
def cutAt (mark : List Char) : List Char → Option (List Char × List Char)
  | [] => none
  | c :: cs =>
    match after? mark (c :: cs) with
    | some rest => some ([], rest)
    | none => (cutAt mark cs).map fun (before, rest) => (c :: before, rest)

/-- A name without a colon. -/
def readName (cs : List Char) : Option (List Char × List Char) :=
  match cs with
  | c :: rest =>
    if beginsName c then some (c :: rest.takeWhile inName, rest.dropWhile inName) else none
  | [] => none

/-- A name with at most one colon, which stands between two names. -/
def readTag (cs : List Char) : Option (String × List Char) := do
  let (first, rest) ← readName cs
  match rest with
  | ':' :: later =>
    let (second, last) ← readName later
    return (String.ofList (first ++ ':' :: second), last)
  | _ => return (String.ofList first, rest)

/-- A value between two quotes of the same kind. -/
def readQuoted (cs : List Char) : Option (List Char × List Char) :=
  match cs with
  | c :: rest => if c = '"' || c = '\'' then cutAt [c] rest else none
  | [] => none

/-- What stands between an ampersand and a semicolon. -/
inductive Reference where
  | char (c : Char)
  | entity (name : String)
deriving DecidableEq

namespace Reference

/-- The character whose number the digits write. -/
def charOf? (base : Nat) (digits : List Char) : Option Char := do
  if digits.isEmpty then none
  let n ← Text.numeral? base digits
  if isAllowed n then some (Char.ofNat n) else none

/-- Reads a reference after its ampersand. -/
def read (cs : List Char) : Option (Reference × List Char) :=
  match cs with
  | '#' :: 'x' :: rest => do
    let (digits, last) ← cutAt [';'] rest
    return (.char (← charOf? 16 digits), last)
  | '#' :: rest => do
    let (digits, last) ← cutAt [';'] rest
    return (.char (← charOf? 10 digits), last)
  | _ => do
    let (name, rest) ← readName cs
    return (.entity (String.ofList name), ← after? [';'] rest)

/-- The entities that every document has. -/
def predefined? (name : String) : Option Char :=
  match name with
  | "lt" => some '<'
  | "gt" => some '>'
  | "amp" => some '&'
  | "quot" => some '"'
  | "apos" => some '\''
  | _ => none

end Reference

end BomTable.Xml
