import Calculator.Number.Binary64.Arithmetic
import Calculator.Proofs.Number.Nearest

/-!
This module contains what a sign in front of an operand changes in comparison to adding the operand
to zero or taking it from zero: nothing but the sign of a zero.
-/

namespace Calculator

namespace Binary64

theorem nearest_of_dvd {units : Nat} (h : Nat.pow 2 (lastBit units) ∣ units) :
    nearest units 1 = units := by
  have hclose := dist_nearest_le units Nat.one_pos h
  rw [Nat.mul_one, Nat.mul_one, Nat.dist_self, Nat.le_zero] at hclose
  exact Nat.eq_of_dist_eq_zero hclose

theorem ofUnits_eq_finite {units : Nat} (negative : Bool) (h : Representable units) :
    ofUnits negative units = .finite negative units h := by
  have hnearest := nearest_of_dvd h.pow_dvd
  unfold ofUnits ofRatio
  rw [dif_pos (hnearest.symm ▸ h.lt_limit)]
  simp only [hnearest]

theorem neg_nan : -nan = nan := rfl

theorem neg_infinity (negative : Bool) : -infinity negative = infinity !negative := rfl

theorem neg_finite {units : Nat} (negative : Bool) (h : Representable units) :
    -finite negative units h = finite (!negative) units h := rfl

theorem neg_zero (negative : Bool) : -zero negative = zero !negative := rfl

theorem neg_ofRatio (negative : Bool) (num den : Nat) :
    -ofRatio negative num den = ofRatio (!negative) num den := by
  unfold ofRatio
  split <;> rfl

theorem neg_ite (c : Prop) [Decidable c] (x y : Binary64) :
    -(if c then x else y) = if c then -x else -y := by
  split <;> rfl

theorem neg_mul (x y : Binary64) : -x * y = -(x * y) := by
  show mul (-x) y = -mul x y
  cases x with
  | nan => rfl
  | infinity negative =>
    cases y <;> simp only [neg_nan, neg_infinity, neg_ite, mul, Bool.not_xor]
  | finite negative units h =>
    cases y <;>
      simp only [neg_nan, neg_infinity, neg_finite, neg_ite, neg_ofRatio, mul, Bool.not_xor]

theorem neg_div (x y : Binary64) : -x / y = -(x / y) := by
  show div (-x) y = -div x y
  cases x with
  | nan => rfl
  | infinity negative => cases y <;> simp only [neg_nan, neg_infinity, div, Bool.not_xor]
  | finite negative units h =>
    cases y <;>
      simp only [neg_nan, neg_infinity, neg_finite, neg_zero, neg_ite, neg_ofRatio, div,
        Bool.not_xor]

theorem neg_mod (x y : Binary64) : -x % y = -(x % y) := by
  show mod (-x) y = -mod x y
  cases x with
  | nan => rfl
  | infinity negative => cases y <;> simp only [neg_nan, neg_infinity, mod]
  | finite negative units h =>
    cases y <;> simp only [neg_nan, neg_finite, neg_ite, neg_ofRatio, mod, ofUnits]

theorem negZero_add (x : Binary64) : zero true + x = x := by
  cases x with
  | nan => rfl
  | infinity => rfl
  | finite negative units h =>
    show addUnits true 0 negative units = _
    unfold addUnits
    cases negative with
    | true => rw [if_pos rfl, Nat.zero_add, ofUnits_eq_finite true h]
    | false =>
      by_cases hpos : 0 < units
      · rw [if_neg (by decide), if_pos hpos, Nat.sub_zero, ofUnits_eq_finite false h]
      · obtain rfl : units = 0 := by omega
        rfl

theorem zero_add_of_ne {x : Binary64} (h : x ≠ zero true) : zero false + x = x := by
  cases x with
  | nan => rfl
  | infinity => rfl
  | finite negative units hunits =>
    show addUnits false 0 negative units = _
    unfold addUnits
    cases negative with
    | false => rw [if_pos rfl, Nat.zero_add, ofUnits_eq_finite false hunits]
    | true =>
      have hpos : 0 < units := by
        apply Nat.pos_of_ne_zero
        rintro rfl
        exact h rfl
      rw [if_neg (by decide), if_pos hpos, Nat.sub_zero, ofUnits_eq_finite true hunits]

/--
The second number is the first one, unless that is zero and the second one is negative zero.
-/
def EqOrNegZero (x y : Binary64) : Prop := y = x ∨ (x = zero false ∧ y = zero true)

theorem eqOrNegZero_zero_add (x : Binary64) : EqOrNegZero (zero false + x) x := by
  by_cases h : x = zero true
  · rw [h]
    exact .inr ⟨rfl, rfl⟩
  · exact .inl (zero_add_of_ne h).symm

theorem EqOrNegZero.add {x y : Binary64} (h : EqOrNegZero x y) (z : Binary64) :
    EqOrNegZero (x + z) (y + z) := by
  rcases h with rfl | ⟨rfl, rfl⟩
  · exact .inl rfl
  · rw [negZero_add]
    exact eqOrNegZero_zero_add z

end Binary64

end Calculator
