/-!
This module contains decimal fractions and their canonical text, in which neither the whole part nor
the fraction has a digit too many.
-/

namespace Calculator

/--
The number `digits / 10 ^ places`.
-/
structure Decimal where
  digits : Nat
  places : Nat
deriving DecidableEq

namespace Decimal

/--
Drop the zeros at the end of the fraction.
-/
def trim : Nat → Nat → Decimal
  | digits, 0 => ⟨digits, 0⟩
  | digits, places + 1 =>
    if digits % 10 = 0 then trim (digits / 10) places else ⟨digits, places + 1⟩

theorem trim_digits_mul (digits places : Nat) :
    (trim digits places).digits * Nat.pow 10 (places - (trim digits places).places) = digits
      ∧ (trim digits places).places ≤ places := by
  induction places generalizing digits with
  | zero => simp [trim]
  | succ places ih =>
    simp only [trim]
    split
    · next h =>
      obtain ⟨hdigits, hplaces⟩ := ih (digits / 10)
      refine ⟨?_, by omega⟩
      rw [Nat.succ_sub hplaces, Nat.pow_eq, Nat.pow_succ, ← Nat.mul_assoc, ← Nat.pow_eq, hdigits]
      omega
    · simp

/--
The decimal digits of `n`, with zeros in front up to the given width.
-/
def padded (width n : Nat) : List Char :=
  let digits := Nat.toDigits 10 n
  List.replicate (width - digits.length) '0' ++ digits

/--
The text of a decimal fraction that does not end in a zero: the point is left out before an empty
fraction.
-/
def chars : Decimal → List Char
  | ⟨digits, 0⟩ => Nat.toDigits 10 digits
  | ⟨digits, places⟩ =>
    Nat.toDigits 10 (digits / Nat.pow 10 places)
      ++ '.' :: padded places (digits % Nat.pow 10 places)

theorem chars_ne_nil (d : Decimal) : d.chars ≠ [] := by
  obtain ⟨digits, places⟩ := d
  cases places with
  | zero => exact Nat.toDigits_ne_nil
  | succ places => exact List.append_ne_nil_of_left_ne_nil Nat.toDigits_ne_nil _

/--
The shortest text of the number.
-/
def text (d : Decimal) : List Char := (trim d.digits d.places).chars

end Decimal

end Calculator
