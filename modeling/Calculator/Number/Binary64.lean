import Calculator.Number.Rounding

/-!
This module contains the binary floating point numbers that expressions are valued in: a sign, and a
magnitude that counts units of 2^-1074. Every finite number of the format is a natural number of
such units, so arithmetic on magnitudes is exact and a result is rounded once, by `ofRatio`.
-/

namespace Calculator

namespace Binary64

/--
The number one, in units of 2^-1074.
-/
def one : Nat := Nat.pow 2 1074

/--
The least magnitude that is too large for the format, in units of 2^-1074.
-/
def limit : Nat := Nat.pow 2 2098

/--
The magnitudes of the format: below `limit`, and with no bit set after the first 53.
-/
structure Representable (units : Nat) : Prop where
  lt_limit : units < limit
  pow_dvd : Nat.pow 2 (units.log2 - 52) ∣ units

end Binary64

/--
A number with a significand of 53 bits and an exponent of 11 bits.
-/
inductive Binary64 where
  | nan
  | infinity (negative : Bool)
  | finite (negative : Bool) (units : Nat) (representable : Binary64.Representable units)
deriving DecidableEq

namespace Binary64

/--
The last of the 53 bits that a magnitude of `units` keeps.
-/
def lastBit (units : Nat) : Nat := units.log2 - 52

/--
The magnitude nearest to `num / den` among those with at most 53 significant bits, where a tie goes
to the one whose last bit is zero.
-/
def nearest (num den : Nat) : Nat :=
  let shift := lastBit (num / den)
  roundHalfEven num (den <<< shift) <<< shift

theorem lt_pow_lastBit (units : Nat) : units < Nat.pow 2 (lastBit units + 53) :=
  Nat.lt_of_lt_of_le Nat.lt_log2_self
    (Nat.pow_le_pow_right (by decide) (by unfold lastBit; omega))

theorem roundHalfEven_lastBit_le (num den : Nat) :
    roundHalfEven num (den <<< lastBit (num / den)) ≤ Nat.pow 2 53 := by
  have hle := roundHalfEven_le num (den <<< lastBit (num / den))
  have hlt : num / (den <<< lastBit (num / den)) < 2 ^ 53 := by
    rw [Nat.shiftLeft_eq, ← Nat.div_div_eq_div_mul]
    apply Nat.div_lt_of_lt_mul
    rw [← Nat.pow_add]
    exact lt_pow_lastBit (num / den)
  rw [Nat.pow_eq]
  omega

theorem pow_lastBit_dvd_shiftLeft {significand : Nat} (h : significand ≤ Nat.pow 2 53) (shift : Nat) :
    Nat.pow 2 (lastBit (significand <<< shift)) ∣ significand <<< shift := by
  rw [Nat.pow_eq] at h ⊢
  rw [Nat.shiftLeft_eq]
  by_cases hzero : significand = 0
  · simp [hzero]
  have hpos : significand * 2 ^ shift ≠ 0 :=
    Nat.mul_ne_zero hzero (Nat.ne_of_gt (Nat.two_pow_pos shift))
  by_cases hfull : significand = 2 ^ 53
  · rw [hfull, ← Nat.pow_add]
    apply Nat.pow_dvd_pow
    rw [lastBit, Nat.log2_two_pow]
    omega
  · have hlog : (significand * 2 ^ shift).log2 < 53 + shift := by
      rw [Nat.log2_lt hpos, Nat.pow_add]
      exact Nat.mul_lt_mul_of_pos_right (by omega) (Nat.two_pow_pos shift)
    exact Nat.dvd_trans (Nat.pow_dvd_pow 2 (by unfold lastBit; omega)) (Nat.dvd_mul_left _ _)

theorem pow_lastBit_dvd_nearest (num den : Nat) :
    Nat.pow 2 (lastBit (nearest num den)) ∣ nearest num den :=
  pow_lastBit_dvd_shiftLeft (roundHalfEven_lastBit_le num den) _

/--
The number of the format nearest to `num / den` units, an infinity if there is none below `limit`.
-/
def ofRatio (negative : Bool) (num den : Nat) : Binary64 :=
  if h : nearest num den < limit then
    .finite negative (nearest num den) ⟨h, pow_lastBit_dvd_nearest num den⟩
  else
    .infinity negative

def ofUnits (negative : Bool) (units : Nat) : Binary64 :=
  ofRatio negative units 1

def zero (negative : Bool) : Binary64 :=
  .finite negative 0 ⟨by decide +kernel, by simp⟩

end Binary64

end Calculator
