import BomTable.Json.Basic
import BomTable.Decimal.Text
import BomTable.Text.Hex

/-!
Reading a structured value from text. The reader goes through the text once; its fuel counts the
nested and neighbouring values and the characters of a quoted text still allowed. A character is
never worth more than two steps, so twice the length of the text is always enough.
-/

namespace BomTable.Json

open Decimal (readExponent Written)

def isSpace (c : Char) : Bool := c = ' ' || c = '\t' || c = '\n' || c = '\r'

def skipSpace (cs : List Char) : List Char := cs.dropWhile isSpace

/-- Stands where half of a pair of code units has no other half. -/
def replacement : Char := Char.ofNat 0xFFFD

def isHighHalf (n : Nat) : Bool := 0xD800 ≤ n && n < 0xDC00

def isLowHalf (n : Nat) : Bool := 0xDC00 ≤ n && n < 0xE000

/-- The four digits after `\u`. -/
def codeUnit? : List Char → Option (Nat × List Char)
  | a :: b :: c :: d :: rest => (Text.numeral? 16 [a, b, c, d]).map (·, rest)
  | _ => none

/-- The second half of a pair, written as another escape right behind the first. -/
def lowHalf? : List Char → Option (Nat × List Char)
  | '\\' :: 'u' :: rest =>
    match codeUnit? rest with
    | some (n, after) => if isLowHalf n then some (n, after) else none
    | none => none
  | _ => none

def simpleEscape? : Char → Option Char
  | '"' => some '"'
  | '\\' => some '\\'
  | '/' => some '/'
  | 'b' => some (Char.ofNat 8)
  | 'f' => some (Char.ofNat 12)
  | 'n' => some '\n'
  | 'r' => some '\r'
  | 't' => some '\t'
  | _ => none

/-- One escape, without its backslash. -/
def escape? (cs : List Char) : Option (Char × List Char) :=
  match cs with
  | 'u' :: rest => do
    let (n, after) ← codeUnit? rest
    if isHighHalf n then
      match lowHalf? after with
      | some (m, later) =>
        return (Char.ofNat (0x10000 + (n - 0xD800) * 0x400 + (m - 0xDC00)), later)
      | none => return (replacement, after)
    else if isLowHalf n then return (replacement, after)
    else return (Char.ofNat n, after)
  | c :: rest => (simpleEscape? c).map (·, rest)
  | [] => none

/-- A quoted text after its opening quote. -/
def readText : Nat → List Char → List Char → Option (String × List Char)
  | 0, _, _ => none
  | fuel + 1, read, cs =>
    match cs with
    | [] => none
    | c :: rest =>
      if c = '"' then some (String.ofList read.reverse, rest)
      else if c = '\\' then
        match escape? rest with
        | some (d, after) => readText fuel (d :: read) after
        | none => none
      else if c.toNat < 32 then none
      else readText fuel (c :: read) rest

/-- The digits of a whole number, which has no leading zero. -/
def readWhole (cs : List Char) : Option (List Char × List Char) :=
  match cs with
  | '0' :: rest => some (['0'], rest)
  | _ =>
    let ds := cs.takeWhile Char.isDigit
    if ds.isEmpty then none else some (ds, cs.dropWhile Char.isDigit)

/-- The digits after a point; a point without digits does not belong to the number. -/
def readPlaces (cs : List Char) : List Char × List Char :=
  match cs with
  | '.' :: rest =>
    let ds := rest.takeWhile Char.isDigit
    if ds.isEmpty then ([], cs) else (ds, rest.dropWhile Char.isDigit)
  | _ => ([], cs)

def readNumber (negative : Bool) (cs : List Char) : Option (Json × List Char) := do
  let (whole, afterWhole) ← readWhole cs
  let (places, afterPlaces) := readPlaces afterWhole
  let (exponent, rest) := (readExponent afterPlaces).getD (none, afterPlaces)
  if places.isEmpty && exponent.isNone then
    let n : Int := Decimal.natOfDigits whole
    return (.int (if negative then -n else n), rest)
  else
    return (.float (Written.toFloat ⟨negative, whole, places, exponent.getD 0⟩), rest)

def literal? (word : String) (value : Json) (cs : List Char) : Option (Json × List Char) :=
  if word.toList.isPrefixOf cs then some (value, cs.drop word.length) else none

def readLiteral (cs : List Char) : Option (Json × List Char) :=
  (literal? "null" .null cs).orElse fun _ => (literal? "true" (.bool true) cs).orElse fun _ =>
    (literal? "false" (.bool false) cs).orElse fun _ =>
    (literal? "NaN" (.float (0.0 / 0.0)) cs).orElse fun _ =>
    (literal? "Infinity" (.float (1.0 / 0.0)) cs).orElse fun _ =>
    literal? "-Infinity" (.float (-1.0 / 0.0)) cs

mutual

/-- A value at the start of the text, and what follows it. -/
def readValue : Nat → List Char → Option (Json × List Char)
  | 0, _ => none
  | fuel + 1, cs =>
    match cs with
    | '"' :: rest => (readText fuel [] rest).map fun (s, after) => (.text s, after)
    | '[' :: rest =>
      match skipSpace rest with
      | ']' :: after => some (.list [], after)
      | inner => (readItems fuel inner).map fun (vs, after) => (.list vs, after)
    | '{' :: rest =>
      match skipSpace rest with
      | '}' :: after => some (.object [], after)
      | inner => (readMembers fuel inner []).map fun (ms, after) => (.object ms, after)
    | _ =>
      match readLiteral cs with
      | some found => some found
      | none =>
        match cs with
        | '-' :: rest => readNumber true rest
        | _ => readNumber false cs

/-- The items of a list up to its closing bracket. -/
def readItems : Nat → List Char → Option (List Json × List Char)
  | 0, _ => none
  | fuel + 1, cs =>
    match readValue fuel cs with
    | none => none
    | some (v, after) =>
      match skipSpace after with
      | ']' :: rest => some ([v], rest)
      | ',' :: rest => (readItems fuel (skipSpace rest)).map fun (vs, last) => (v :: vs, last)
      | _ => none

/-- The members of an object up to its closing brace; a repeated name takes its last value. -/
def readMembers : Nat → List Char → List (String × Json) → Option (List (String × Json) × List Char)
  | 0, _, _ => none
  | fuel + 1, cs, read =>
    match cs with
    | '"' :: rest =>
      match readText fuel [] rest with
      | none => none
      | some (name, afterName) =>
        match skipSpace afterName with
        | ':' :: beforeValue =>
          match readValue fuel (skipSpace beforeValue) with
          | none => none
          | some (v, after) =>
            match skipSpace after with
            | '}' :: last => some (Dict.put read name v, last)
            | ',' :: next => readMembers fuel (skipSpace next) (Dict.put read name v)
            | _ => none
        | _ => none
    | _ => none

end

/-- The value that a whole text stands for. -/
def read? (s : String) : Option Json :=
  let cs := s.toList
  match readValue (2 * cs.length + 2) (skipSpace cs) with
  | some (v, rest) => if (skipSpace rest).isEmpty then some v else none
  | none => none

end BomTable.Json
