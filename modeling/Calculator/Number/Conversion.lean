import Calculator.Number.Binary64
import Calculator.Number.Decimal

/-!
This module contains the two roundings between decimal fractions and `Binary64`, and the text that
shows a number on the display.
-/

namespace Calculator

def Decimal.toBinary64 (d : Decimal) : Binary64 :=
  Binary64.ofRatio false (d.digits * Binary64.one) (Nat.pow 10 d.places)

namespace Binary64

/--
The decimal fraction with the given number of places that is nearest to a magnitude of `units`. It
rounds the exact value, and a tie goes to the even last digit.
-/
def roundUnits (units places : Nat) : Decimal :=
  ⟨roundHalfEven (units * Nat.pow 10 places) one, places⟩

/--
The number of places that is enough to write every magnitude exactly.
-/
def exactPlaces : Nat := 1074

theorem two_pow_dvd_ten_pow (n : Nat) : Nat.pow 2 n ∣ Nat.pow 10 n := by
  rw [Nat.pow_eq, Nat.pow_eq, show 10 = 2 * 5 from rfl, Nat.mul_pow]
  apply Nat.dvd_mul_right

theorem one_dvd_pow_exactPlaces : one ∣ Nat.pow 10 exactPlaces := by
  unfold one exactPlaces
  -- The power is too large to be evaluated, and its exponent does not matter.
  generalize 1074 = n
  apply two_pow_dvd_ten_pow

def signed (negative : Bool) (text : List Char) : List Char :=
  if negative then '-' :: text else text

def displayChars (places : Nat) : Binary64 → List Char
  | .nan => "NaN".toList
  | .infinity negative => signed negative "Infinity".toList
  | .finite negative units _ =>
    signed negative (roundUnits units (min places exactPlaces)).text

/--
The text that shows a number with at most `places` digits after the point. A minus sign stands for
the sign of the number even if all its digits are rounded away.
-/
def display (places : Nat) (x : Binary64) : String :=
  String.ofList (x.displayChars places)

theorem signed_ne_nil (negative : Bool) {text : List Char} (h : text ≠ []) :
    signed negative text ≠ [] := by
  unfold signed
  split
  · apply List.cons_ne_nil
  · exact h

theorem displayChars_ne_nil (places : Nat) (x : Binary64) : x.displayChars places ≠ [] := by
  cases x with
  | nan => apply List.cons_ne_nil
  | infinity negative =>
    apply signed_ne_nil
    decide
  | finite negative units =>
    apply signed_ne_nil
    apply Decimal.chars_ne_nil

theorem display_ne_empty (places : Nat) (x : Binary64) : x.display places ≠ "" := by
  unfold display
  rw [Ne, String.ofList_eq_empty_iff]
  apply displayChars_ne_nil

end Binary64

end Calculator
