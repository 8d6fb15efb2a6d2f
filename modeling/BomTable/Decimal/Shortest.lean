import BomTable.Decimal.Binary

/-!
The shortest decimal that reads back as a given double, and of the shortest ones the nearest. Every
candidate lies on a decimal grid next to the exact value, so only two have to be tried per grid.
-/

namespace BomTable.Decimal

/-- `digits * 10 ^ exponent`. -/
structure Scaled where
  digits : Nat
  exponent : Int
deriving DecidableEq

def Binary.value (b : Binary) : Ratio := .scaled (4 * b.mantissa) 2 (b.exponent - 2)

/-- The ends of the interval of numbers that round to the double. -/
def Binary.low (b : Binary) : Ratio :=
  .scaled (4 * b.mantissa - if b.narrowBelow then 1 else 2) 2 (b.exponent - 2)

def Binary.high (b : Binary) : Ratio := .scaled (4 * b.mantissa + 2) 2 (b.exponent - 2)

def Scaled.value (s : Scaled) : Ratio := .scaled s.digits 10 s.exponent

/-- A decimal reads back as the double when it lies in its interval; the ends belong to it when the
mantissa is even. -/
def Binary.reads (b : Binary) (s : Scaled) : Bool :=
  if b.mantissa % 2 = 0 then b.low.le s.value && s.value.le b.high
  else b.low.lt s.value && s.value.lt b.high

/-- How many zeros follow the point of a value below one. -/
def Binary.leadingZeros (b : Binary) : Nat :=
  ((List.range 400).find? fun (k : Nat) => (Ratio.scaled 1 10 (-(k + 1))).le b.value).getD 400

/-- The place of the decimal point: the value lies between `10 ^ (p - 1)` and `10 ^ p`. -/
def Binary.point (b : Binary) : Int :=
  if b.value.floor = 0 then -(b.leadingZeros : Int) else (toString b.value.floor).length

/-- The decimal next to the value on the grid of `10 ^ exponent` that reads back, if any. -/
def Binary.onGrid (b : Binary) (exponent : Int) : Option Scaled :=
  let below := (b.value.mul (.scaled 1 10 (-exponent))).floor
  let lower : Scaled := ⟨below, exponent⟩
  let upper : Scaled := ⟨below + 1, exponent⟩
  match b.reads lower, b.reads upper with
  | true, true =>
    let middle := Ratio.scaled (10 * below + 5) 10 (exponent - 1)
    if b.value.lt middle then some lower
    else if middle.lt b.value then some upper
    else some (if below % 2 = 0 then lower else upper)
  | true, false => some lower
  | false, true => some upper
  | false, false => none

def Binary.search (b : Binary) (point : Int) : Nat → Nat → Scaled
  | 0, tried => ⟨(b.value.mul (.scaled 1 10 ((tried : Int) - point))).round, point - tried⟩
  | more + 1, tried =>
    match b.onGrid (point - tried) with
    | some s => s
    | none => b.search point more (tried + 1)

/-- Grids of one up to seventeen digits, the coarsest first. -/
def Binary.shortest (b : Binary) : Scaled := b.search b.point 16 1

end BomTable.Decimal
