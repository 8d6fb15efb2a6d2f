import BomTable.Decimal.Text
import BomTable.Json.Basic
import BomTable.Text.Blank
import BomTable.Text.Fields

/-!
Values of settings. A value is given as it is or written as text; each kind of setting says which
texts it understands.
-/

namespace BomTable.Setting

/-- The words for yes and no, in letters of any case. -/
def boolOfText (s : String) : Option Bool :=
  let word := s.toLower
  if word ∈ ["1", "on", "t", "true", "y", "yes"] then some true
  else if word ∈ ["0", "off", "f", "false", "n", "no"] then some false
  else none

def bool? : Json → Option Bool
  | .bool b => some b
  | .text s => boolOfText s
  | .int n => if n = 0 then some false else if n = 1 then some true else none
  | .float x => if x == 0 then some false else if x == 1 then some true else none
  | _ => none

def text? : Json → Option String
  | .text s => some s
  | _ => none

/-- A text or nothing. -/
def optionalText? : Json → Option (Option String)
  | .null => some none
  | .text s => some (some s)
  | _ => none

def texts? : Json → Option (List String)
  | .list items => items.mapM text?
  | _ => none

/-- The names of the items of a list that are no texts; a value that is no list has one name. -/
def faultyTexts (name : String) : Json → List String
  | .list items =>
    (items.zipIdx.filter fun item => (text? item.1).isNone).map fun item =>
      name ++ "." ++ toString item.2
  | _ => [name]

/-- A sign and the text behind it. -/
def signed (cs : List Char) : Bool × List Char :=
  match cs with
  | '-' :: rest => (true, rest)
  | '+' :: rest => (false, rest)
  | _ => (false, cs)

/-- The text without its underscores, which must stand alone and not at its ends. -/
def withoutUnderscores? (cs : List Char) : Option (List Char) :=
  let pieces := Text.pieces '_' cs
  if pieces.any List.isEmpty then none else some pieces.flatten

/-- The text behind a plus sign, which no other sign follows. -/
def withoutPlus? : List Char → Option (List Char)
  | '+' :: '-' :: _ => none
  | '+' :: rest => some rest
  | cs => some cs

/-- Whether a number can begin here that no zeros stand before. -/
def beginsNumber (c : Char) : Bool := c = '-' || (c.isDigit && c != '0')

/-- The text without the zeros it begins with and the underscores among them. The last one is kept
where no other digit follows. -/
def withoutLeadingZeros? : List Char → Option (List Char)
  | [] => none
  | c :: cs =>
    if c = '0' then
      let zeros := (c :: cs).takeWhile fun d => d = '0' || d = '_'
      match (c :: cs).drop zeros.length with
      | [] => some [zeros.getLastD c]
      | d :: rest =>
        if d = '.' then some (zeros.getLastD c :: d :: rest)
        else if beginsNumber d then some (d :: rest)
        else none
    else if beginsNumber c then some (c :: cs)
    else none

/-- The text without a point that only zeros follow, at least one of them. -/
def withoutZeroPlaces (cs : List Char) : List Char :=
  match cs.dropWhile (· != '.') with
  | _ :: zero :: places =>
    if (zero :: places).all (· == '0') then cs.takeWhile (· != '.') else cs
  | _ => cs

/-- The longest numeral that is read. -/
def maxLength : Nat := 4300

/-- Digits without needless zeros, behind a minus sign or not. -/
def intOfDigits? (cs : List Char) : Option Int :=
  let (negative, digits) := signed cs
  let n : Int := Decimal.natOfDigits digits
  let isPlain := digits = ['0'] || digits.head?.any beginsNumber
  if cs.length ≤ maxLength && digits.all Char.isDigit && isPlain then
    some (if negative then -n else n)
  else none

/-- A whole number with zeros before it, underscores between its digits, and perhaps zeros after a
point. A minus sign stands before its first digit that counts. -/
def intOfText (s : String) : Option Int := do
  let number ← withoutLeadingZeros? (← withoutPlus? (Text.trimChars s.toList))
  let digits := withoutZeroPlaces number
  intOfDigits? ((withoutUnderscores? digits).getD digits)

/-- The whole number that a floating-point number is, if it fits into 64 bits. -/
def intOfFloat (x : Float) : Option Int :=
  if x.floor == x && x.abs < 9223372036854775808.0 then
    let n : Int := x.abs.toUInt64.toNat
    some (if x < 0 then -n else n)
  else none

def int? : Json → Option Int
  | .int n => some n
  | .bool b => some (if b then 1 else 0)
  | .float x => intOfFloat x
  | .text s => intOfText s
  | _ => none

/-- A number with digits before or after a point, and perhaps an exponent. -/
def numberOfText (negative : Bool) (cs : List Char) : Option Float := do
  let whole := cs.takeWhile Char.isDigit
  let afterWhole := cs.dropWhile Char.isDigit
  let (places, afterPlaces) :=
    match afterWhole with
    | '.' :: rest => (rest.takeWhile Char.isDigit, rest.dropWhile Char.isDigit)
    | rest => ([], rest)
  if whole.isEmpty && places.isEmpty then none
  let (exponent, rest) ← Decimal.readExponent afterPlaces
  if rest.isEmpty then
    return Decimal.Written.toFloat ⟨negative, whole, places, exponent.getD 0⟩
  else none

/-- A number, or a word for infinity or for no number, in letters of any case. -/
def floatOfChars (cs : List Char) : Option Float :=
  let (negative, rest) := signed cs
  let word := (String.ofList rest).toLower
  if word = "inf" ∨ word = "infinity" then some (if negative then -1.0 / 0.0 else 1.0 / 0.0)
  else if word = "nan" then some (0.0 / 0.0)
  else numberOfText negative rest

/-- A number with white space around it, or with underscores in it. -/
def floatOfText (s : String) : Option Float :=
  (floatOfChars (Text.trimChars s.toList)).orElse fun _ =>
    (withoutUnderscores? s.toList).bind floatOfChars

def float? : Json → Option Float
  | .float x => some x
  | .int n =>
    let x := Decimal.nearest (n < 0) n.natAbs 0
    if x.isInf then none else some x
  | .bool b => some (if b then 1.0 else 0.0)
  | .text s => floatOfText s
  | _ => none

end BomTable.Setting
