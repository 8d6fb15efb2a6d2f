/-!
White space of a text: which characters it is made of, and the text without it at both ends.
Stripping looks at the ends only, so what stands between two filled characters is kept.
-/

namespace BomTable.Text

/-- The separators of Unicode, and the control characters that end a line or a page. -/
def isSpaceChar (c : Char) : Bool :=
  let n := c.toNat
  (9 ≤ n && n ≤ 13) || n == 32 || n == 0x85 || n == 0xA0 || n == 0x1680 ||
    (0x2000 ≤ n && n ≤ 0x200A) || n == 0x2028 || n == 0x2029 || n == 0x202F || n == 0x205F ||
    n == 0x3000

/-- White space, and the control characters that end a record or a part of one. -/
def isBlankChar (c : Char) : Bool := isSpaceChar c || (28 ≤ c.toNat && c.toNat ≤ 31)

/-- A text is blank when it holds nothing but white space. -/
def isBlank (s : String) : Bool := s.toList.all isBlankChar

def stripStart (cs : List Char) : List Char := cs.dropWhile isBlankChar

def stripEnd (cs : List Char) : List Char := (stripStart cs.reverse).reverse

def stripChars (cs : List Char) : List Char := stripEnd (stripStart cs)

/-- The characters without the spaces at their two ends; ends of records are kept. -/
def trimChars (cs : List Char) : List Char :=
  ((cs.dropWhile isSpaceChar).reverse.dropWhile isSpaceChar).reverse

/-- The text without the white space at its two ends. -/
def strip (s : String) : String := String.ofList (stripChars s.toList)

/-- The stripped text, or nothing when it is blank. -/
def filled? (s : String) : Option String :=
  if isBlank s then none else some (strip s)

/-- A text that is present and not empty. -/
def nonempty? : Option String → Option String
  | some s => if s = "" then none else some s
  | none => none

end BomTable.Text
