import BomTable.Xml.Piece

/-!
What a document type says about the content of elements. It is checked for its form only: no content
is ever compared with it. Groups are separated by commas or by bars, never by both.
-/

namespace BomTable.Xml.Content

/-- What stands in a group, besides groups. -/
def isItem : Piece → Bool
  | .name _ => true
  | .pair _ => true
  | .repeated _ => true
  | _ => false

def isSeparator (p : Piece) : Bool := p = .comma || p = .bar

/-- Groups that are open, each with the separator it has had, innermost first. Between an item and
the next there is a separator; the outermost group ends the list of pieces. -/
def closes : Bool → List (Option Piece) → List Piece → Bool
  | _, _, [] => false
  | false, seps, p :: rest =>
    if p = .openParen then closes false (none :: seps) rest else isItem p && closes true seps rest
  | true, seps, p :: rest =>
    match p, seps with
    | .closeParen _, [_] => rest.isEmpty
    | .closeParen _, _ :: outer => closes true outer rest
    | p, sep :: outer =>
      isSeparator p && (sep.isNone || sep = some p) && closes false (some p :: outer) rest
    | _, [] => false

/-- Alternatives behind the word for text, which occur any number of times. -/
def mixes : List Piece → Bool
  | [.closeParen (some '*')] => true
  | .bar :: p :: rest => p.tag?.isSome && mixes rest
  | _ => false

/-- Whether pieces say what an element contains. -/
def holds : List Piece → Bool
  | [.name "EMPTY"] => true
  | [.name "ANY"] => true
  | [.openParen, .keyword "PCDATA", .closeParen none] => true
  | .openParen :: .keyword "PCDATA" :: rest => mixes rest
  | .openParen :: rest => closes false [none] rest
  | _ => false

end BomTable.Xml.Content
