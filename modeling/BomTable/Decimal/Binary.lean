/-!
A double taken apart: a sign and `mantissa * 2 ^ exponent`, or one of the values that are no number.
All arithmetic on it is done exactly, on natural numbers.
-/

namespace BomTable.Decimal

/-- A finite double, `± mantissa * 2 ^ exponent`. -/
structure Binary where
  negative : Bool
  mantissa : Nat
  exponent : Int
  /-- The neighbour below is only half as far away as the neighbour above. -/
  narrowBelow : Bool
deriving DecidableEq

inductive Double where
  | finite (b : Binary)
  | infinite (negative : Bool)
  | undefined
deriving DecidableEq

/-- Reads the 64 bits of a double: a sign bit, 11 bits of exponent, 52 bits of fraction. -/
def Double.ofBits (bits : Nat) : Double :=
  let negative := bits >>> 63 % 2 == 1
  let e : Nat := bits >>> 52 % 2048
  let f : Nat := bits % (1 <<< 52)
  if e = 2047 then if f = 0 then .infinite negative else .undefined
  else if e = 0 then .finite ⟨negative, f, -1074, false⟩
  else .finite ⟨negative, f + 1 <<< 52, (e : Int) - 1075, f == 0 && e != 1⟩

def Double.ofFloat (x : Float) : Double := .ofBits x.toBits.toNat

/-- A fraction of natural numbers. -/
structure Ratio where
  num : Nat
  den : Nat
deriving DecidableEq

/-- `n * base ^ e` as a fraction. -/
def Ratio.scaled (n base : Nat) (e : Int) : Ratio :=
  if e < 0 then ⟨n, base.pow (-e).toNat⟩ else ⟨n * base.pow e.toNat, 1⟩

def Ratio.le (a b : Ratio) : Bool := a.num * b.den ≤ b.num * a.den

def Ratio.lt (a b : Ratio) : Bool := a.num * b.den < b.num * a.den

def Ratio.mul (a b : Ratio) : Ratio := ⟨a.num * b.num, a.den * b.den⟩

def Ratio.floor (a : Ratio) : Nat := a.num / a.den

/-- The nearest natural number; a tie goes to the even one. -/
def Ratio.round (a : Ratio) : Nat :=
  let q := a.num / a.den
  let twice := 2 * (a.num % a.den)
  if twice < a.den then q
  else if a.den < twice then q + 1
  else if q % 2 = 0 then q else q + 1

end BomTable.Decimal
