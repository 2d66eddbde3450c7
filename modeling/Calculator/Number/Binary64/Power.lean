import Calculator.Number.Binary64
import Calculator.Number.FixedPoint

/-!
This module contains the power of two numbers. A power of finite numbers is computed as the
exponential of a product with a logarithm, to 256 bits, and then rounded to the format. A power that
the format holds exactly or that lies halfway between two of its numbers has fewer than 256 bits, so
it survives the first rounding unchanged.

The precision of a power that is left to the mathematical library of a platform is not specified: it
may differ from this one in the last place, for instance for `23.1^11.7` and `8.5^13`.
-/

namespace Calculator

namespace Binary64

def isInteger (units : Nat) : Bool := units % one = 0

def isOddInteger (units : Nat) : Bool := units % (2 * one) = one

/--
The natural logarithm of a positive magnitude of `units`, as a fixed point number.
-/
def lnUnits (units : Nat) : Int :=
  let significand := (units <<< FixedPoint.bits) >>> units.log2
  ((units.log2 : Int) - 1074) * FixedPoint.lnTwo + FixedPoint.ln significand

/--
The number nearest to the exponential of the fixed point number `x`: with `x` split into a multiple
`n` of the logarithm of two and a rest below it, this is the exponential of the rest, shifted by
`n`. All `n` outside the given range over- or underflow alike.
-/
def expRounded (negative : Bool) (x : Int) : Binary64 :=
  let n := x.fdiv FixedPoint.lnTwo
  if n > 1100 then
    .infinity negative
  else if n < -1200 then
    zero negative
  else
    let rest := (x - n * FixedPoint.lnTwo).toNat
    let significand := roundHalfEven (FixedPoint.exp rest) (Nat.pow 2 (FixedPoint.bits - 255))
    let shift := n - 255 + 1074
    ofRatio negative (significand <<< shift.toNat) (1 <<< (-shift).toNat)

def powUnits (negative : Bool) (units : Nat) (negative₂ : Bool) (units₂ : Nat) : Binary64 :=
  let product := Int.shiftRight (lnUnits units * units₂) 1074
  expRounded negative (if negative₂ then -product else product)

/--
What a power grows to without bound: an infinity if it `grows`, and zero if it shrinks.
-/
def extreme (negative grows : Bool) : Binary64 :=
  if grows then .infinity negative else zero negative

/--
The power `x ^ y`. It is one whenever `y` is zero or `x` is one, and only an exponent that is an odd
integer lets the sign of `x` through.
-/
def pow : Binary64 → Binary64 → Binary64
  | _, .finite _ 0 _ => ofUnits false one
  | .finite negative units _, .nan =>
    if units = one ∧ !negative then ofUnits false one else .nan
  | .nan, _ | .infinity _, .nan => .nan
  | .infinity _, .infinity negative₂ => extreme false !negative₂
  | .finite _ units _, .infinity negative₂ =>
    if units = one then ofUnits false one
    else extreme false ((one < units) != negative₂)
  | .infinity negative, .finite negative₂ units₂ _ =>
    extreme (negative && isOddInteger units₂) !negative₂
  | .finite negative units _, .finite negative₂ units₂ _ =>
    if units = 0 then
      extreme (negative && isOddInteger units₂) negative₂
    else if negative && !isInteger units₂ then
      .nan
    else
      powUnits (negative && isOddInteger units₂) units negative₂ units₂

instance : HPow Binary64 Binary64 Binary64 := ⟨pow⟩

end Binary64

end Calculator
