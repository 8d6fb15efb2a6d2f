import BomTable.Text.Fields
import BomTable.Xml.Token

/-!
The part of a document before its root element as a list of pieces: words, quoted values and signs.
White space between pieces does not matter, but behind words, values and closing brackets something
has to stand that ends them.
-/

namespace BomTable.Xml

inductive Piece where
  /-- A name without a colon. -/
  | name (s : String)
  /-- A name, a colon, and a second part that any character of names may begin. -/
  | pair (s : String)
  /-- Other characters of names, with colons among them or not. -/
  | word (s : String)
  /-- A name or a pair with a sign that says how often it occurs. -/
  | repeated (s : String)
  /-- A name behind a number sign. -/
  | keyword (s : String)
  | quoted (s : List Char)
  | percent
  /-- A name between a percent sign and a semicolon. -/
  | insertion (s : String)
  | comma
  | bar
  | openParen
  /-- A closing parenthesis, perhaps with a sign that says how often its group occurs. -/
  | closeParen (often : Option Char)
  | openBracket
  | closeBracket
  /-- The word a declaration begins with. -/
  | opening (s : String)
  /-- The end of a declaration. -/
  | closing
  /-- A comment or a processing instruction. -/
  | remark
deriving DecidableEq

namespace Piece

def inWord (c : Char) : Bool := inName c || c = ':'

def isOften (c : Char) : Bool := c = '?' || c = '*' || c = '+'

/-- Whether a text goes on with white space or one of some signs. -/
def endsAt (signs : List Char) : List Char → Bool
  | c :: _ => isSpace c || signs.contains c
  | [] => false

/-- The kind of a word by the places of its colons. -/
def ofWord (s : List Char) : Piece :=
  match Text.cut ':' s with
  | none => if s.head?.any beginsName then .name (String.ofList s) else .word (String.ofList s)
  | some (first, second) =>
    if first.head?.any beginsName && !second.isEmpty && !second.contains ':' then
      .pair (String.ofList s)
    else .word (String.ofList s)

/-- The name or pair that occurs more or less often than once. -/
def repeat? : Piece → Option Piece
  | name s => some (.repeated s)
  | pair s => some (.repeated s)
  | _ => none

def readWord (cs : List Char) : Option (Piece × List Char) :=
  let p := ofWord (cs.takeWhile inWord)
  let rest := cs.dropWhile inWord
  if endsAt ['>', ')', ',', '|', '[', '%'] rest then some (p, rest)
  else
    match rest with
    | c :: last => if isOften c then p.repeat?.map (·, last) else none
    | [] => none

def readKeyword (cs : List Char) : Option (Piece × List Char) := do
  let (s, rest) ← readName cs
  if endsAt ['>', ')', '|', '%'] rest then return (.keyword (String.ofList s), rest) else none

def readValue (cs : List Char) : Option (Piece × List Char) := do
  let (s, rest) ← readQuoted cs
  if endsAt ['>', '%', '['] rest then return (.quoted s, rest) else none

def readPercent (cs : List Char) : Option (Piece × List Char) :=
  if endsAt ['%'] cs then some (.percent, cs)
  else do
    let (s, rest) ← readName cs
    return (.insertion (String.ofList s), ← after? [';'] rest)

def readCloseParen (cs : List Char) : Option (Piece × List Char) :=
  if endsAt ['>', ')', ',', '|'] cs then some (.closeParen none, cs)
  else
    match cs with
    | c :: rest => if isOften c then some (.closeParen (some c), rest) else none
    | [] => none

def inOpening (c : Char) : Bool := c.isAlpha || c = '_'

def readOpening (cs : List Char) : Option (Piece × List Char) :=
  let s := cs.takeWhile inOpening
  let rest := cs.dropWhile inOpening
  if !s.isEmpty && endsAt [] rest then some (.opening (String.ofList s), rest) else none

def read (cs : List Char) : Option (Piece × List Char) :=
  match cs with
  | '<' :: '?' :: rest => (Token.readInstruction rest).map fun (_, last) => (.remark, last)
  | '<' :: '!' :: '-' :: '-' :: rest =>
    (Token.readComment rest).map fun (_, last) => (.remark, last)
  | '<' :: '!' :: rest => readOpening rest
  | '>' :: rest => some (.closing, rest)
  | '[' :: rest => some (.openBracket, rest)
  | ']' :: rest => some (.closeBracket, rest)
  | '(' :: rest => some (.openParen, rest)
  | ')' :: rest => readCloseParen rest
  | ',' :: rest => some (.comma, rest)
  | '|' :: rest => some (.bar, rest)
  | '%' :: rest => readPercent rest
  | '#' :: rest => readKeyword rest
  | c :: _ => if inWord c then readWord cs else readValue cs
  | [] => none

/-- Whether a text begins with a start tag. -/
def atElement : List Char → Bool
  | '<' :: c :: _ => beginsName c
  | _ => false

/-- The pieces up to the first start tag, and the text from there; no piece is empty. -/
def readAll : Nat → List Char → Option (List Piece × List Char)
  | 0, _ => none
  | fuel + 1, cs =>
    let inner := skipSpace cs
    if atElement inner then some ([], inner)
    else do
      let (p, rest) ← read inner
      let (more, last) ← readAll fuel rest
      return (p :: more, last)

/-- The name of an element or an attribute, with or without a colon. -/
def tag? : Piece → Option String
  | name s => some s
  | pair s => some s
  | _ => none

/-- A character that may stand in the public name of something outside. -/
def inPublic (c : Char) : Bool :=
  c.isAlphanum || " \n\r-'()+,./:=?;!*#@$_%".toList.contains c

/-- A place outside, with a public name or without. What follows it is given back. -/
def outside? : List Piece → Option (List Piece)
  | name "SYSTEM" :: quoted _ :: rest => some rest
  | name "PUBLIC" :: quoted id :: quoted _ :: rest => if id.all inPublic then some rest else none
  | _ => none

end Piece

end BomTable.Xml
