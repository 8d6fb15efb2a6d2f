import BomTable.Json.Basic
import BomTable.Decimal.Text
import BomTable.Text.Hex

/-!
Structured values as one line of text. Only what would break the line or the quotes is escaped, all
other characters stand for themselves.
-/

namespace BomTable.Json

/-- The written form of one character inside quotes. -/
def escaped (c : Char) : List Char :=
  if c = '"' then ['\\', '"']
  else if c = '\\' then ['\\', '\\']
  else if c = '\n' then ['\\', 'n']
  else if c = '\r' then ['\\', 'r']
  else if c = '\t' then ['\\', 't']
  else if c.toNat = 8 then ['\\', 'b']
  else if c.toNat = 12 then ['\\', 'f']
  else if c.toNat < 32 then '\\' :: 'u' :: Text.hexDigits 4 c.toNat
  else [c]

def quoted (s : String) : String :=
  String.ofList ('"' :: s.toList.flatMap escaped ++ ['"'])

mutual

def render : Json → String
  | .null => "null"
  | .bool b => if b then "true" else "false"
  | .int n => toString n
  | .float x => Decimal.Style.structured.render x
  | .text s => quoted s
  | .list items => "[" ++ renderItems items ++ "]"
  | .object members => "\x7b" ++ renderMembers members ++ "\x7d"

def renderItems : List Json → String
  | [] => ""
  | [v] => v.render
  | v :: w :: rest => v.render ++ ", " ++ renderItems (w :: rest)

def renderMembers : List (String × Json) → String
  | [] => ""
  | [(n, v)] => quoted n ++ ": " ++ v.render
  | (n, v) :: e :: rest => quoted n ++ ": " ++ v.render ++ ", " ++ renderMembers (e :: rest)

end

end BomTable.Json
