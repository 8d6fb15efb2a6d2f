import BomTable.Text.Hex
import BomTable.Text.Unprintable

/-!
A text in quotes, as it is shown to a person. Single quotes stand around it unless only they occur
inside; what cannot be printed is shown by its code point.
-/

namespace BomTable.Text

/-- The quote that stands around a text. -/
def quoteFor (cs : List Char) : Char :=
  if '\'' ∈ cs ∧ '"' ∉ cs then '"' else '\''

/-- One character between the given quotes. -/
def shown (quote c : Char) : List Char :=
  if c = quote || c = '\\' then ['\\', c]
  else if c = '\n' then ['\\', 'n']
  else if c = '\r' then ['\\', 'r']
  else if c = '\t' then ['\\', 't']
  else if isUnprintable c then
    if c.toNat < 0x100 then '\\' :: 'x' :: hexDigits 2 c.toNat
    else if c.toNat < 0x10000 then '\\' :: 'u' :: hexDigits 4 c.toNat
    else '\\' :: 'U' :: hexDigits 8 c.toNat
  else [c]

def quoted (s : String) : String :=
  let quote := quoteFor s.toList
  String.ofList (quote :: s.toList.flatMap (shown quote) ++ [quote])

end BomTable.Text
