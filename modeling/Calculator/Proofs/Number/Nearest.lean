import Calculator.Number.Binary64
import Mathlib.Data.Nat.Dist

/-!
This module contains what it means that both roundings go to the nearest number: nothing that could
be chosen instead lies closer. A quotient `num / den` is compared with a number by its distance from
the multiple of `den`, so there is no division in these statements.
-/

namespace Calculator

section Rounding

variable {num den : Nat}

theorem two_mul_dist_roundHalfEven_le (num : Nat) (hden : 0 < den) :
    2 * Nat.dist (roundHalfEven num den * den) num ≤ den := by
  have hsplit := Nat.div_add_mod num den
  have hlt := Nat.mod_lt num hden
  have hnext := Nat.add_one_mul (num / den) den
  rw [Nat.mul_comm] at hsplit
  simp only [roundHalfEven, Nat.dist]
  split <;> omega

theorem even_roundHalfEven_of_tie (num : Nat) (hden : 0 < den)
    (htie : 2 * Nat.dist (roundHalfEven num den * den) num = den) :
    roundHalfEven num den % 2 = 0 := by
  have hsplit := Nat.div_add_mod num den
  have hlt := Nat.mod_lt num hden
  have hnext := Nat.add_one_mul (num / den) den
  rw [Nat.mul_comm] at hsplit
  simp only [roundHalfEven, Nat.dist] at htie ⊢
  split
  · next hdown =>
    rw [if_pos hdown] at htie
    omega
  · next hup =>
    rw [if_neg hup] at htie
    omega

/--
A number at most a half away is the rounded one, unless it is odd and a half away.
-/
theorem roundHalfEven_eq_of_dist {quotient : Nat} (hden : 0 < den)
    (hhalf : 2 * Nat.dist (quotient * den) num ≤ den)
    (heven : 2 * Nat.dist (quotient * den) num = den → quotient % 2 = 0) :
    roundHalfEven num den = quotient := by
  have hhalf' := two_mul_dist_roundHalfEven_le num hden
  have heven' := even_roundHalfEven_of_tie num hden
  generalize roundHalfEven num den = rounded at hhalf' heven' ⊢
  have hgap := Nat.dist_mul_right rounded den quotient
  have htriangle := Nat.dist.triangle_inequality (rounded * den) num (quotient * den)
  rw [Nat.dist_comm num] at htriangle
  have hdist : Nat.dist rounded quotient * den ≤ 1 * den := by omega
  have hclose := Nat.le_of_mul_le_mul_right hdist hden
  by_cases hnear : Nat.dist rounded quotient = 0
  · exact Nat.eq_of_dist_eq_zero hnear
  · -- Two neighbours are both a half away, and one of them is odd.
    have hone : Nat.dist rounded quotient = 1 := by omega
    rw [hone, Nat.one_mul] at hgap
    have hparity := heven (by omega)
    have hparity' := heven' (by omega)
    simp only [Nat.dist] at hone
    omega

/--
Two multiples of `den` cannot both be closer than a half.
-/
theorem le_dist_roundHalfEven_add (num den : Nat) {other : Nat}
    (hne : other ≠ roundHalfEven num den) :
    den ≤ Nat.dist (roundHalfEven num den * den) num + Nat.dist (other * den) num := by
  generalize roundHalfEven num den = rounded at hne ⊢
  have hgap := Nat.dist_mul_right rounded den other
  have htriangle := Nat.dist.triangle_inequality (rounded * den) num (other * den)
  rw [Nat.dist_comm num] at htriangle
  have hpos := Nat.dist_pos_of_ne hne.symm
  have hdist : 1 * den ≤ Nat.dist rounded other * den := Nat.mul_le_mul_right den hpos
  omega

theorem dist_roundHalfEven_le (num : Nat) (hden : 0 < den) (other : Nat) :
    Nat.dist (roundHalfEven num den * den) num ≤ Nat.dist (other * den) num := by
  have hhalf := two_mul_dist_roundHalfEven_le num hden
  by_cases heq : other = roundHalfEven num den
  · rw [heq]
  · have hsum := le_dist_roundHalfEven_add num den heq
    omega

theorem even_roundHalfEven_of_dist_eq (num : Nat) (hden : 0 < den) {other : Nat}
    (hne : other ≠ roundHalfEven num den)
    (heq : Nat.dist (roundHalfEven num den * den) num = Nat.dist (other * den) num) :
    roundHalfEven num den % 2 = 0 := by
  have hhalf := two_mul_dist_roundHalfEven_le num hden
  have hsum := le_dist_roundHalfEven_add num den hne
  exact even_roundHalfEven_of_tie num hden (by omega)

theorem roundHalfEven_mul_left {scale : Nat} (hscale : 0 < scale) (num den : Nat) :
    roundHalfEven (scale * num) (scale * den) = roundHalfEven num den := by
  have hlt : 2 * (scale * (num % den)) < scale * den ↔ 2 * (num % den) < den := by
    rw [Nat.mul_left_comm, Nat.mul_lt_mul_left hscale]
  have heq : 2 * (scale * (num % den)) = scale * den ↔ 2 * (num % den) = den := by
    rw [Nat.mul_left_comm, Nat.mul_right_inj hscale.ne']
  simp only [roundHalfEven, Nat.mul_div_mul_left _ _ hscale, Nat.mul_mod_mul_left, hlt, heq]

end Rounding

namespace Binary64

variable {num den : Nat}

theorem shiftLeft_mul_eq_mul_shiftLeft (quotient shift den : Nat) :
    (quotient <<< shift) * den = quotient * (den <<< shift) := by
  rw [Nat.shiftLeft_eq, Nat.shiftLeft_eq, Nat.mul_assoc, Nat.mul_comm (2 ^ shift)]

theorem exists_shiftLeft_of_dvd {shift units : Nat} (h : Nat.pow 2 shift ∣ units) :
    ∃ quotient, units = quotient <<< shift := by
  obtain ⟨quotient, rfl⟩ := h
  exact ⟨quotient, by rw [Nat.shiftLeft_eq, Nat.mul_comm, Nat.pow_eq]⟩

theorem shiftLeft_pos {shift : Nat} (hden : 0 < den) : 0 < den <<< shift := by
  rw [Nat.shiftLeft_eq]
  exact Nat.mul_pos hden (Nat.two_pow_pos shift)

theorem dist_nearest_le_of_dvd (hden : 0 < den) {units : Nat}
    (h : Nat.pow 2 (lastBit (num / den)) ∣ units) :
    Nat.dist (nearest num den * den) num ≤ Nat.dist (units * den) num := by
  obtain ⟨multiple, rfl⟩ := exists_shiftLeft_of_dvd h
  simp only [nearest, shiftLeft_mul_eq_mul_shiftLeft]
  exact dist_roundHalfEven_le num (shiftLeft_pos hden) multiple

theorem even_of_dist_nearest_eq (hden : 0 < den) {units : Nat}
    (h : Nat.pow 2 (lastBit (num / den)) ∣ units) (hne : units ≠ nearest num den)
    (heq : Nat.dist (nearest num den * den) num = Nat.dist (units * den) num) :
    roundHalfEven num (den <<< lastBit (num / den)) % 2 = 0 := by
  obtain ⟨multiple, rfl⟩ := exists_shiftLeft_of_dvd h
  simp only [nearest, shiftLeft_mul_eq_mul_shiftLeft] at heq
  refine even_roundHalfEven_of_dist_eq num (shiftLeft_pos hden) ?_ heq
  rintro rfl
  exact hne rfl

/--
A magnitude that has places behind the last bit of the quotient has fewer digits than the quotient,
so the power of two with which the digits of the quotient start lies between the two.
-/
theorem exists_multiple_between {units : Nat} (h : Nat.pow 2 (lastBit units) ∣ units)
    (hdvd : ¬ Nat.pow 2 (lastBit (num / den)) ∣ units) :
    ∃ power, Nat.pow 2 (lastBit (num / den)) ∣ power ∧ units < power ∧ power * den ≤ num := by
  have hshift : lastBit units < lastBit (num / den) := by
    by_contra hle
    exact hdvd (Nat.dvd_trans (Nat.pow_dvd_pow 2 (Nat.le_of_not_lt hle)) h)
  unfold lastBit at hshift
  have hne : num / den ≠ 0 := by
    intro hzero
    simp [hzero] at hshift
  refine ⟨2 ^ (num / den).log2, Nat.pow_dvd_pow 2 (Nat.sub_le _ _), ?_, ?_⟩
  · exact Nat.lt_of_lt_of_le Nat.lt_log2_self (Nat.pow_le_pow_right (by decide) (by omega))
  · exact Nat.le_trans (Nat.mul_le_mul_right den (Nat.log2_self_le hne))
      (Nat.div_mul_le_self num den)

theorem dist_nearest_lt_of_not_dvd (hden : 0 < den) {units : Nat}
    (h : Nat.pow 2 (lastBit units) ∣ units) (hdvd : ¬ Nat.pow 2 (lastBit (num / den)) ∣ units) :
    Nat.dist (nearest num den * den) num < Nat.dist (units * den) num := by
  obtain ⟨power, hpower, hlt, hle⟩ := exists_multiple_between h hdvd
  have hnearest := dist_nearest_le_of_dvd hden hpower
  have hmul := (Nat.mul_lt_mul_right hden).mpr hlt
  simp only [Nat.dist] at hnearest ⊢
  omega

theorem dist_nearest_le (num : Nat) (hden : 0 < den) {units : Nat}
    (h : Nat.pow 2 (lastBit units) ∣ units) :
    Nat.dist (nearest num den * den) num ≤ Nat.dist (units * den) num := by
  by_cases hdvd : Nat.pow 2 (lastBit (num / den)) ∣ units
  · exact dist_nearest_le_of_dvd hden hdvd
  · exact (dist_nearest_lt_of_not_dvd hden h hdvd).le

theorem nearest_mul_left {scale : Nat} (hscale : 0 < scale) (num den : Nat) :
    nearest (scale * num) (scale * den) = nearest num den := by
  simp only [nearest, Nat.shiftLeft_eq, Nat.mul_assoc, Nat.mul_div_mul_left _ _ hscale,
    roundHalfEven_mul_left hscale]

theorem ofRatio_mul_left {scale : Nat} (hscale : 0 < scale) (negative : Bool) (num den : Nat) :
    ofRatio negative (scale * num) (scale * den) = ofRatio negative num den := by
  simp only [ofRatio, nearest_mul_left hscale]

end Binary64

end Calculator
