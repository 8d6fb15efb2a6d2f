import BomTable.Decimal.Shortest

/-!
Numbers as text. A style says which numbers are written with a plain decimal point and how an
exponent looks otherwise; a fixed number of places is rounded half to even.
-/

namespace BomTable.Decimal

/-- How a floating-point number is written. -/
structure Style where
  /-- Numbers whose point stands at this place or lower get an exponent. -/
  lowest : Int
  /-- Numbers whose point stands higher than this get an exponent. -/
  highest : Int
  /-- The least number of digits of an exponent. -/
  exponentWidth : Nat
  infinity : String
  undefined : String

/-- Plain between `0.0001` and `10 ^ 16`, exponents with a sign and two digits, `.0` kept. -/
def Style.standard : Style := ⟨-4, 16, 2, "inf", "nan"⟩

/-- The style of numbers in structured records. -/
def Style.structured : Style := { Style.standard with infinity := "Infinity", undefined := "NaN" }

def zeros (n : Nat) : String := String.ofList (List.replicate n '0')

def dropZeros (ds : List Char) : List Char := (ds.reverse.dropWhile (· == '0')).reverse

def padded (width n : Nat) : String :=
  let t := toString n
  zeros (width - t.length) ++ t

def Style.unsigned (style : Style) (b : Binary) : String :=
  if b.mantissa = 0 then "0.0"
  else
    let s := b.shortest
    let all := (toString s.digits).toList
    let point : Int := all.length + s.exponent
    let ds := dropZeros all
    if style.lowest < point && point ≤ style.highest then
      if point ≤ 0 then "0." ++ zeros (-point).toNat ++ String.ofList ds
      else
        let whole := ds.take point.toNat
        let rest := ds.drop point.toNat
        String.ofList whole ++ zeros (point.toNat - whole.length) ++ "." ++
          (if rest.isEmpty then "0" else String.ofList rest)
    else
      let e := point - 1
      String.ofList (ds.take 1) ++
        (if ds.length ≤ 1 then "" else "." ++ String.ofList (ds.drop 1)) ++
        "e" ++ (if e < 0 then "-" else "+") ++ padded style.exponentWidth e.natAbs

def Style.render (style : Style) (x : Float) : String :=
  match Double.ofFloat x with
  | .finite b => (if b.negative then "-" else "") ++ style.unsigned b
  | .infinite negative => (if negative then "-" else "") ++ style.infinity
  | .undefined => style.undefined

/-- The number with exactly two places. -/
def hundredths (x : Float) : String :=
  match Double.ofFloat x with
  | .finite b =>
    let n := (Ratio.scaled (100 * b.mantissa) 2 b.exponent).round
    (if b.negative then "-" else "") ++ toString (n / 100) ++ "." ++ padded 2 (n % 100)
  | .infinite negative => if negative then "-inf" else "inf"
  | .undefined => "nan"

def digitValue (c : Char) : Nat := c.toNat - '0'.toNat

def natOfDigits (ds : List Char) : Nat := ds.foldl (fun n c => 10 * n + digitValue c) 0

/-- The double nearest to `± mantissa * 10 ^ exponent`. -/
def nearest (negative : Bool) (mantissa : Nat) (exponent : Int) : Float :=
  let size : Int := (toString mantissa).length + exponent
  let x :=
    if mantissa = 0 || size < -400 then 0.0
    else if 400 < size then 1.0 / 0.0
    else Float.ofScientific mantissa (exponent < 0) exponent.natAbs
  if negative then -x else x

/-- The parts of a written number: digits before and after the point, and the exponent. -/
structure Written where
  negative : Bool
  whole : List Char
  places : List Char
  exponent : Int
deriving DecidableEq

def Written.toFloat (w : Written) : Float :=
  nearest w.negative (natOfDigits (w.whole ++ w.places)) (w.exponent - w.places.length)

/-- An exponent mark with its digits, or nothing at all. -/
def readExponent (cs : List Char) : Option (Option Int × List Char) :=
  match cs with
  | c :: rest =>
    if c = 'e' || c = 'E' then
      let (negative, ds) :=
        match rest with
        | '-' :: t => (true, t)
        | '+' :: t => (false, t)
        | t => (false, t)
      let digits := ds.takeWhile Char.isDigit
      if digits.isEmpty then none
      else
        let n : Int := natOfDigits digits
        some (some (if negative then -n else n), ds.dropWhile Char.isDigit)
    else some (none, cs)
  | [] => some (none, [])

end BomTable.Decimal
