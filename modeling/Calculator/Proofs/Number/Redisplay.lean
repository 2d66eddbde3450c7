import Calculator.Number.Conversion
import Calculator.Proofs.Number.Nearest

/-!
This module contains what two roundings in a row do: the decimal fraction that shows a magnitude,
rounded to `Binary64`, is shown by the same decimal fraction again. Both roundings go to the nearest
number, so the second one moves no further than the first one did.
-/

namespace Calculator

namespace Binary64

def isFinite : Binary64 → Bool
  | .nan => false
  | .infinity _ => false
  | .finite .. => true

theorem exists_eq_finite {x : Binary64} (h : x.isFinite = true) :
    ∃ negative units representable, x = .finite negative units representable := by
  cases x with
  | nan => cases h
  | infinity => cases h
  | finite negative units representable => exact ⟨negative, units, representable, rfl⟩

theorem one_pos : 0 < one := by
  unfold one
  generalize 1074 = n
  apply Nat.two_pow_pos

variable {units : Nat}

theorem add_pow_lt_pow_of_dvd {low high : Nat} (hlow : low + 53 < high)
    (hlt : units < Nat.pow 2 high) (hdvd : Nat.pow 2 (lastBit units) ∣ units) :
    units + Nat.pow 2 low < Nat.pow 2 high := by
  obtain ⟨half, rfl⟩ : ∃ half, high = half + 1 := ⟨high - 1, by omega⟩
  have hhalf : Nat.pow 2 (half + 1) = Nat.pow 2 half * 2 := rfl
  have hpow : Nat.pow 2 low < Nat.pow 2 (half - 52) := Nat.pow_lt_pow_right (by decide) (by omega)
  have hle : Nat.pow 2 (half - 52) ≤ Nat.pow 2 half := Nat.pow_le_pow_right (by decide) (by omega)
  by_cases hbig : Nat.pow 2 half ≤ units
  · -- The last bit of such a magnitude counts for more than the lower power.
    have hlog : half ≤ units.log2 := by
      rw [Nat.le_log2 (Nat.ne_of_gt (Nat.lt_of_lt_of_le (Nat.two_pow_pos half) hbig))]
      exact hbig
    have hunits : Nat.pow 2 (half - 52) ∣ units :=
      Nat.dvd_trans (Nat.pow_dvd_pow 2 (by unfold lastBit; omega)) hdvd
    have hlimit : Nat.pow 2 (half - 52) ∣ Nat.pow 2 (half + 1) := Nat.pow_dvd_pow 2 (by omega)
    have hgap := Nat.le_of_dvd (Nat.sub_pos_of_lt hlt) (Nat.dvd_sub hlimit hunits)
    omega
  · omega

/--
The largest magnitude is more than one away from the limit.
-/
theorem Representable.add_one_lt_limit (h : Representable units) : units + one < limit := by
  have hlt := h.lt_limit
  have hexponents : 1074 + 53 < 2098 := by decide
  unfold limit at hlt ⊢
  unfold one
  generalize 1074 = low at hexponents ⊢
  generalize 2098 = high at hexponents hlt ⊢
  exact add_pow_lt_pow_of_dvd hexponents hlt h.pow_dvd

variable {negative : Bool} {num den : Nat}

/--
If a magnitude lies close to a quotient, the quotient is rounded to a finite number.
-/
theorem nearest_lt_limit (hden : 0 < den) (h : Representable units)
    (hclose : 2 * Nat.dist (units * den) num ≤ one) : nearest num den < limit := by
  have hnearest := dist_nearest_le num hden h.pow_dvd
  have htriangle := Nat.dist.triangle_inequality (nearest num den * den) num (units * den)
  rw [Nat.dist_comm num, Nat.dist_mul_right] at htriangle
  have hmoved := Nat.le_mul_of_pos_right (Nat.dist (nearest num den) units) hden
  have hlimit := h.add_one_lt_limit
  simp only [Nat.dist] at hmoved htriangle hnearest hclose
  omega

theorem ofRatio_of_lt (h : nearest num den < limit) :
    ofRatio negative num den
      = .finite negative (nearest num den) ⟨h, pow_lastBit_dvd_nearest num den⟩ :=
  dif_pos h

theorem exists_toBinary64_roundUnits (h : Representable units) (places : Nat) :
    ∃ (units' : Nat) (h' : Representable units'),
      (roundUnits units places).toBinary64 = .finite false units' h'
        ∧ roundUnits units' places = roundUnits units places := by
  have hplaces : 0 < Nat.pow 10 places := Nat.pow_pos (by decide)
  have hclose := two_mul_dist_roundHalfEven_le (units * Nat.pow 10 places) one_pos
  have hparity := even_roundHalfEven_of_tie (units * Nat.pow 10 places) one_pos
  unfold roundUnits Decimal.toBinary64
  dsimp only
  generalize roundHalfEven (units * Nat.pow 10 places) one = digits at hclose hparity ⊢
  rw [Nat.dist_comm] at hclose hparity
  have hfinite := nearest_lt_limit hplaces h hclose
  have hvalue := @ofRatio_of_lt false (digits * one) (Nat.pow 10 places) hfinite
  have hnearest := dist_nearest_le (digits * one) hplaces h.pow_dvd
  have hdigits : roundHalfEven (nearest (digits * one) (Nat.pow 10 places) * Nat.pow 10 places) one
      = digits := by
    -- If the second rounding moves by half a digit, so did the first one, which made it even.
    apply roundHalfEven_eq_of_dist one_pos
    · rw [Nat.dist_comm]
      omega
    · intro htie
      rw [Nat.dist_comm] at htie
      apply hparity
      omega
  exact ⟨_, _, hvalue, by rw [hdigits]⟩

end Binary64

namespace Decimal

theorem toBinary64_trim (digits places : Nat) :
    (trim digits places).toBinary64 = toBinary64 ⟨digits, places⟩ := by
  obtain ⟨hdigits, hplaces⟩ := trim_digits_mul digits places
  have hpower := Nat.pow_add 10 (places - (trim digits places).places) (trim digits places).places
  rw [Nat.sub_add_cancel hplaces] at hpower
  have hpos : 0 < Nat.pow 10 (places - (trim digits places).places) := Nat.pow_pos (by decide)
  unfold toBinary64
  rw [← Binary64.ofRatio_mul_left hpos, ← Nat.mul_assoc, Nat.mul_comm (Nat.pow 10 _), hdigits]
  exact congrArg _ hpower.symm

end Decimal

end Calculator
