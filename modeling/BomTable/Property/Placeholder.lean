import BomTable.Property.Source
import BomTable.Text.Blank
import BomTable.Text.Fields

/-!
Placeholders in a text and their replacement. A placeholder opens with a dollar and a brace and
reaches to the next closing brace, with at least one character between. One round replaces every
placeholder whose name has a value; the values may hold placeholders of their own, so rounds follow
each other until nothing changes.
-/

namespace BomTable.Placeholder

/-- A text cut into characters that stand for themselves and placeholders. -/
inductive Piece where
  | char (c : Char)
  | hole (inner : List Char)
deriving DecidableEq

/-- Where the scan stands: in plain text, after a dollar, or inside a placeholder so far read. -/
inductive Phase where
  | plain
  | dollar
  | inside (read : List Char)
deriving DecidableEq

def verbatim (cs : List Char) : List Piece := cs.map .char

def scan : Phase → List Char → List Piece
  | .plain, [] => []
  | .dollar, [] => [.char '$']
  | .inside read, [] => verbatim ('$' :: '{' :: read.reverse)
  | .plain, c :: cs => if c = '$' then scan .dollar cs else .char c :: scan .plain cs
  | .dollar, c :: cs =>
    if c = '{' then scan (.inside []) cs
    else if c = '$' then .char '$' :: scan .dollar cs
    else .char '$' :: .char c :: scan .plain cs
  | .inside read, c :: cs =>
    if c = '}' then
      if read.isEmpty then verbatim ['$', '{', '}'] ++ scan .plain cs
      else .hole read.reverse :: scan .plain cs
    else scan (.inside (c :: read)) cs

def pieces (cs : List Char) : List Piece := scan .plain cs

/-- The piece as it was written. -/
def Piece.written : Piece → List Char
  | char c => [c]
  | hole inner => '$' :: '{' :: inner ++ ['}']

/-- The name in a placeholder, without the white space around it. -/
def nameOf (inner : List Char) : String := String.ofList (Text.stripChars inner)

/-- The piece with its value put in, or as it was written when its name has none. -/
def Piece.filled (lookup : String → Option String) : Piece → List Char
  | char c => [c]
  | hole inner =>
    match lookup (nameOf inner) with
    | some v => v.toList
    | none => (hole inner).written

/-- One round: every placeholder with a value is replaced. -/
def expand (lookup : String → Option String) (cs : List Char) : List Char :=
  (pieces cs).flatMap (Piece.filled lookup)

/-- At most this many rounds follow each other. -/
def maxRounds : Nat := 16

def rounds (lookup : String → Option String) : Nat → List Char → List Char
  | 0, cs => cs
  | n + 1, cs =>
    let next := expand lookup cs
    if next = cs then cs else rounds lookup n next

/-- A dollar and an opening brace, one right behind the other. -/
def opensIn (cs : List Char) : Bool := Text.containsChars ['$', '{'] cs

end Placeholder

namespace Source

/-- The text with its placeholders replaced; those without a value stay as they are. -/
def substitute (s : Source) (template : String) : String :=
  if Placeholder.opensIn template.toList then
    String.ofList (Placeholder.rounds s.get? Placeholder.maxRounds template.toList)
  else template

def substitute? (s : Source) (template : Option String) : Option String :=
  template.map s.substitute

end Source

/-- A text that still holds the beginning of a placeholder. -/
def unresolved (s : String) : Bool := Placeholder.opensIn s.toList

end BomTable
