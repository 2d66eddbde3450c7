/-!
This module contains the two exact integer operations that all number formats of the calculator are
built on: the rounding of a quotient to the nearest natural number and the integer square root.
-/

namespace Calculator

/--
The natural number nearest to `num / den`. A quotient halfway between two natural numbers goes to
the even one.
-/
def roundHalfEven (num den : Nat) : Nat :=
  let quotient := num / den
  let twiceRest := 2 * (num % den)
  if twiceRest < den ∨ (twiceRest = den ∧ quotient % 2 = 0) then quotient else quotient + 1

theorem div_le_roundHalfEven (num den : Nat) : num / den ≤ roundHalfEven num den := by
  simp only [roundHalfEven]
  split <;> omega

theorem roundHalfEven_le (num den : Nat) : roundHalfEven num den ≤ num / den + 1 := by
  simp only [roundHalfEven]
  split <;> omega

/--
The largest natural number whose square is at most `n`, found two binary digits at a time.
-/
def floorSqrt (n : Nat) : Nat :=
  if h : n < 2 then
    n
  else
    have : n / 4 < n := by omega
    let root := 2 * floorSqrt (n / 4)
    if (root + 1) * (root + 1) ≤ n then root + 1 else root

theorem floorSqrt_mul_self_le (n : Nat) : floorSqrt n * floorSqrt n ≤ n := by
  fun_induction floorSqrt n with
  | case1 n h =>
    match n, h with
    | 0, _ => simp
    | 1, _ => simp
  | case2 n h hlt root hroot => exact hroot
  | case3 n h hlt root hroot ih =>
    have hsq : root * root = 4 * (floorSqrt (n / 4) * floorSqrt (n / 4)) := by
      simp only [root, Nat.mul_assoc, Nat.mul_left_comm]
      omega
    omega

theorem lt_succ_floorSqrt_mul_self (n : Nat) : n < (floorSqrt n + 1) * (floorSqrt n + 1) := by
  fun_induction floorSqrt n with
  | case1 n h =>
    match n, h with
    | 0, _ => simp
    | 1, _ => simp
  | case2 n h hlt root hroot ih =>
    have hsq : (root + 2) * (root + 2)
        = 4 * ((floorSqrt (n / 4) + 1) * (floorSqrt (n / 4) + 1)) := by
      have : root + 2 = 2 * (floorSqrt (n / 4) + 1) := by simp only [root]; omega
      rw [this]
      simp only [Nat.mul_assoc, Nat.mul_left_comm]
      omega
    show n < (root + 2) * (root + 2)
    omega
  | case3 n h hlt root hroot ih => omega

end Calculator
