import Calculator.Number.Binary64
import Calculator.Number.Hexadecimal

/-!
This module contains the interchange form of `Binary64`: a word of 64 bits with the sign, 11 bits of
exponent and 52 bits of fraction, written as 16 hexadecimal digits.
-/

namespace Calculator

namespace Binary64

def signBit (negative : Bool) : Nat := if negative then Nat.pow 2 63 else 0

/--
The word without its sign bit that stands for a magnitude of `units`.
-/
def magnitudeBits (units : Nat) : Nat :=
  let shift := lastBit units
  shift * Nat.pow 2 52 + units >>> shift

/--
The word of a number. A word with a fraction but no finite exponent stands for `nan`.
-/
def toBits : Binary64 → Nat
  | .nan => 2047 * Nat.pow 2 52 + Nat.pow 2 51
  | .infinity negative => signBit negative + 2047 * Nat.pow 2 52
  | .finite negative units _ => signBit negative + magnitudeBits units

def ofBits (bits : Nat) : Binary64 :=
  let negative := bits / Nat.pow 2 63 % 2 = 1
  let exponent := bits / Nat.pow 2 52 % 2048
  let fraction := bits % Nat.pow 2 52
  if exponent = 2047 then
    if fraction = 0 then .infinity negative else .nan
  else if exponent = 0 then
    ofUnits negative fraction
  else
    ofUnits negative ((Nat.pow 2 52 + fraction) <<< (exponent - 1))

/--
Read the 16 hexadecimal digits of a word, the most significant first.
-/
def ofHex? (word : String) : Option Binary64 :=
  if word.toList.length = 16 then (ofHexDigits? word.toList).map ofBits else none

/--
The 16 hexadecimal digits of the word of a number. All words of `nan` are written alike.
-/
def toHex : Binary64 → String
  | .nan => "NaN"
  | x =>
    let digits := Nat.toDigits 16 x.toBits
    String.ofList (List.replicate (16 - digits.length) '0' ++ digits)

end Binary64

end Calculator
