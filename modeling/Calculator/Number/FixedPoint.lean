/-!
This module contains the logarithm and the exponential function on fixed point numbers: a number
counts units of 2^-384. The results are exact up to a few units in the last place, which is far
beyond what a power rounded to 53 bits can show.
-/

namespace Calculator

namespace FixedPoint

def bits : Nat := 384

def one : Nat := Nat.pow 2 bits

def mul (x y : Nat) : Nat := (x * y) >>> bits

def div (x y : Nat) : Nat := (x <<< bits) / y

/--
The inverse hyperbolic tangent of `x`, which is at most `1 / 3`: the sum of `x ^ (2 * k + 1)`
divided by `2 * k + 1`, of which 130 summands exceed the last place.
-/
def artanh (x : Nat) : Nat :=
  let square := mul x x
  mul x ((List.range 130).foldr (fun k sum => one / (2 * k + 1) + mul square sum) 0)

/--
The natural logarithm of `x`, which lies between one and two.
-/
def ln (x : Nat) : Nat := 2 * artanh (div (x - one) (x + one))

def lnTwo : Nat := ln (2 * one)

/--
The exponential function of `x`, which is at most one: the sum of `x ^ k` divided by the factorial
of `k`, of which 100 summands exceed the last place.
-/
def exp (x : Nat) : Nat :=
  (List.range 100).foldr (fun k sum => one + mul x sum / (k + 1)) one

end FixedPoint

end Calculator
