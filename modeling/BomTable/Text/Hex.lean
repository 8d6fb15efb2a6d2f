/-!
Numbers in base sixteen, written with small letters and a fixed number of digits, and read with
letters of any case. The reader takes any base up to sixteen.
-/

namespace BomTable.Text

def hexDigit (n : Nat) : Char := "0123456789abcdef".toList.getD n '0'

/-- The last `width` digits of a number in base sixteen. -/
def hexDigits : Nat → Nat → List Char
  | 0, _ => []
  | width + 1, n => hexDigits width (n / 16) ++ [hexDigit (n % 16)]

def hexValue? (c : Char) : Option Nat :=
  if c.isDigit then some (c.toNat - '0'.toNat)
  else if 'a' ≤ c && c ≤ 'f' then some (c.toNat - 'a'.toNat + 10)
  else if 'A' ≤ c && c ≤ 'F' then some (c.toNat - 'A'.toNat + 10)
  else none

/-- The number that digits write in a base. -/
def numeral? (base : Nat) (digits : List Char) : Option Nat :=
  digits.foldlM (fun n c => ((hexValue? c).filter (· < base)).map (base * n + ·)) 0

end BomTable.Text
