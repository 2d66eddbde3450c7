/-!
This module contains natural numbers in hexadecimal digits.
-/

namespace Calculator

/--
The value of a hexadecimal digit in lower or upper case.
-/
def hexDigit? (c : Char) : Option Nat :=
  if c.isDigit then some (c.toNat - '0'.toNat)
  else if 'a' ≤ c ∧ c ≤ 'f' then some (c.toNat - 'a'.toNat + 10)
  else if 'A' ≤ c ∧ c ≤ 'F' then some (c.toNat - 'A'.toNat + 10)
  else none

/--
The number with the given digits, the most significant first.
-/
def ofHexDigits? (digits : List Char) : Option Nat :=
  digits.foldlM (fun n c => (hexDigit? c).map (16 * n + ·)) 0

end Calculator
