import Calculator.Number.Binary64

/-!
This module contains the arithmetic of `Binary64`. On finite numbers each operation is the exact
result on magnitudes followed by one rounding, and no operation fails: what has no value is `nan`.
-/

namespace Calculator

namespace Binary64

def neg : Binary64 → Binary64
  | .nan => .nan
  | .infinity negative => .infinity !negative
  | .finite negative units h => .finite (!negative) units h

instance : Neg Binary64 := ⟨neg⟩

/--
The sum of two magnitudes with signs. Two opposite magnitudes of equal size add up to positive zero.
-/
def addUnits (negative : Bool) (units : Nat) (negative₂ : Bool) (units₂ : Nat) : Binary64 :=
  if negative = negative₂ then
    ofUnits negative (units + units₂)
  else if units < units₂ then
    ofUnits negative₂ (units₂ - units)
  else if units₂ < units then
    ofUnits negative (units - units₂)
  else
    zero false

def add : Binary64 → Binary64 → Binary64
  | .nan, _ | _, .nan => .nan
  | .infinity negative, .infinity negative₂ =>
    if negative = negative₂ then .infinity negative else .nan
  | .infinity negative, .finite .. | .finite .., .infinity negative => .infinity negative
  | .finite negative units _, .finite negative₂ units₂ _ =>
    addUnits negative units negative₂ units₂

instance : Add Binary64 := ⟨add⟩

instance : Sub Binary64 := ⟨fun x y => x + -y⟩

def mul : Binary64 → Binary64 → Binary64
  | .nan, _ | _, .nan => .nan
  | .infinity negative, .infinity negative₂ => .infinity (negative ^^ negative₂)
  | .infinity negative, .finite negative₂ units _
  | .finite negative units _, .infinity negative₂ =>
    if units = 0 then .nan else .infinity (negative ^^ negative₂)
  | .finite negative units _, .finite negative₂ units₂ _ =>
    ofRatio (negative ^^ negative₂) (units * units₂) one

instance : Mul Binary64 := ⟨mul⟩

def div : Binary64 → Binary64 → Binary64
  | .nan, _ | _, .nan => .nan
  | .infinity _, .infinity _ => .nan
  | .infinity negative, .finite negative₂ .. => .infinity (negative ^^ negative₂)
  | .finite negative .., .infinity negative₂ => zero (negative ^^ negative₂)
  | .finite negative units _, .finite negative₂ units₂ _ =>
    if units₂ = 0 then
      if units = 0 then .nan else .infinity (negative ^^ negative₂)
    else
      ofRatio (negative ^^ negative₂) (units * one) units₂

instance : Div Binary64 := ⟨div⟩

/--
The remainder of the division that truncates its quotient. It has the sign of the dividend.
-/
def mod : Binary64 → Binary64 → Binary64
  | .nan, _ | _, .nan => .nan
  | .infinity _, _ => .nan
  | .finite negative units h, .infinity _ => .finite negative units h
  | .finite negative units _, .finite _ units₂ _ =>
    if units₂ = 0 then .nan else ofUnits negative (units % units₂)

instance : Mod Binary64 := ⟨mod⟩

/--
The square root. The integer square root of a positive magnitude has far more bits than the format
keeps, so half a unit stands for all that it drops, and rounding sees the same as on the exact root.
-/
def sqrt : Binary64 → Binary64
  | .nan => .nan
  | .infinity negative => if negative then .nan else .infinity false
  | .finite negative units h =>
    if units = 0 then
      .finite negative units h
    else if negative then
      .nan
    else
      let square := units * one
      let root := floorSqrt square
      let rest := if root * root = square then 0 else 1
      ofRatio false (2 * root + rest) 2

end Binary64

end Calculator
