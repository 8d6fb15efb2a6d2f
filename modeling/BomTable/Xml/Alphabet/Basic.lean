import BomTable.Text.Fields

/-!
Alphabets in which every character is one octet. Below 128 they agree but for one sign, and from 128
on each has letters of its own. Names of alphabets are compared in a form that ignores the case of
letters and the kind of the signs between words.
-/

namespace BomTable.Xml

structure Alphabet where
  names : List String
  /-- Names in which a point may stand for an underscore. -/
  aliases : List String := []
  /-- The last letters in the order of their octets, up to 255; octets from 128 on before them stand
  for the characters of their own numbers. The replacement character marks an octet without one. -/
  letters : List String := []
  /-- A character below 128 that the alphabet has no octet for. -/
  lacking : Option Char := none
deriving Inhabited

namespace Alphabet

/-- A name in small letters, with points kept and one underscore for other signs between words. -/
def plainName (name : String) : String :=
  String.ofList (Text.squeezed '_' (name.toList.map fun c =>
    if c.isAlphanum || c = '.' then c.toLower else '_'))

/-- Whether a plain name is one of these. -/
def isAmong (names aliases : List String) (plain : String) : Bool :=
  names.contains plain || aliases.contains plain ||
    aliases.contains (Text.replaceChar '.' '_' plain)

def isNamed (a : Alphabet) (plain : String) : Bool := isAmong a.names a.aliases plain

/-- The characters of the last octets. -/
def table (a : Alphabet) : Array Char := (a.letters.flatMap String.toList).toArray

/-- What marks an octet without a character. -/
def mark : Char := Char.ofNat 0xFFFD

/-- The character of an octet, where the last octets have those of a table. -/
def char? (table : Array Char) (lacking : Option Char) (octet : Nat) : Option Char :=
  let first := 256 - table.size
  let c := if octet < first then Char.ofNat octet else table.getD (octet - first) mark
  if c = mark || lacking = some c then none else some c

/-- The characters of some octets. -/
def decode (a : Alphabet) (octets : List UInt8) : Option (List Char) :=
  let table := a.table
  octets.mapM fun b => char? table a.lacking b.toNat

/-- No octet from 128 on stands for a character. -/
def noLetters : List String := [String.ofList (List.replicate 128 mark)]

end Alphabet

end BomTable.Xml
