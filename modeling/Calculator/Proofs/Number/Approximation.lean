import Calculator.Proofs.Number.Display

/-!
This module contains the theorem that a literal stands for the nearest number of the format. The
digits of a numeral denote a rational number, and exactly one `Binary64` approximates it: the
nearest one, of two that are equally near the one with an even significand, and an infinity if that
one is too large for the format.
-/

namespace Calculator

namespace Numeral

/--
The number that the digits denote.
-/
def toRat (n : Numeral) : ℚ :=
  Nat.ofDigitChars 10 n.whole 0 + Nat.ofDigitChars 10 n.fraction 0 / 10 ^ n.fraction.length

theorem toRat_toDecimal (n : Numeral) : n.toDecimal.toRat = n.toRat := by
  have hdigits : Nat.ofDigitChars 10 (n.whole ++ n.fraction) 0
      = 10 ^ n.fraction.length * Nat.ofDigitChars 10 n.whole 0
        + Nat.ofDigitChars 10 n.fraction 0 := by
    rw [Nat.ofDigitChars_append, Nat.ofDigitChars_eq_ofDigitChars_zero]
  rw [Decimal.toRat, toDecimal, toRat]
  dsimp only
  rw [hdigits]
  push_cast
  field_simp

end Numeral

namespace Binary64

/--
A significand of at most 53 bits for a magnitude. The exponent has no upper bound here, and the unit
of 2^-1074 is its lower bound.
-/
def HasSignificand (units significand : ℕ) : Prop :=
  significand < 2 ^ 53 ∧ ∃ exponent : ℕ, units = significand * 2 ^ exponent

/--
The magnitude of 53 significant bits that is nearest to `q`. Of two that are equally near it is the
one with an even significand.
-/
structure IsNearest (q : ℚ) (units : ℕ) : Prop where
  exists_significand : ∃ significand, HasSignificand units significand
  le {other significand : ℕ} : HasSignificand other significand →
    |(units : ℚ) / one - q| ≤ |(other : ℚ) / one - q|
  even_of_tie {other significand : ℕ} : HasSignificand other significand → other ≠ units →
    |(units : ℚ) / one - q| = |(other : ℚ) / one - q| →
    ∃ significand, Even significand ∧ HasSignificand units significand

/--
The number of the format that stands for a magnitude `q`: the nearest one, and an infinity if that
one reaches `limit`.
-/
inductive Approximates (q : ℚ) : Binary64 → Prop where
  | finite {units : ℕ} (hnearest : IsNearest q units) (h : Representable units) :
    Approximates q (.finite false units h)
  | infinity {units : ℕ} (hnearest : IsNearest q units) (hlimit : limit ≤ units) :
    Approximates q (.infinity false)

section Significand

variable {units significand : ℕ}

theorem HasSignificand.pow_lastBit_dvd (h : HasSignificand units significand) :
    Nat.pow 2 (lastBit units) ∣ units := by
  obtain ⟨hlt, exponent, rfl⟩ := h
  rw [← Nat.shiftLeft_eq]
  exact pow_lastBit_dvd_shiftLeft hlt.le exponent

/--
An even significand leaves the last of the 53 bits clear.
-/
theorem HasSignificand.pow_lastBit_succ_dvd (h : HasSignificand units significand)
    (heven : Even significand) : Nat.pow 2 (lastBit units + 1) ∣ units := by
  obtain ⟨hlt, exponent, hunits⟩ := h
  obtain ⟨half, rfl⟩ := heven
  have hdvd : 2 ^ (exponent + 1) ∣ units := ⟨half, by rw [hunits]; ring⟩
  refine Nat.dvd_trans (Nat.pow_dvd_pow 2 ?_) hdvd
  by_cases hzero : units = 0
  · simp [hzero, lastBit]
  · have hlog : units.log2 < 53 + exponent := by
      rw [Nat.log2_lt hzero, Nat.pow_add, hunits]
      exact Nat.mul_lt_mul_of_pos_right hlt (Nat.two_pow_pos exponent)
    unfold lastBit
    omega

theorem exists_shiftLeft_lastBit (h : Nat.pow 2 (lastBit units) ∣ units) :
    ∃ significand < 2 ^ 53, units = significand <<< lastBit units := by
  obtain ⟨significand, hunits⟩ := exists_shiftLeft_of_dvd h
  refine ⟨significand, ?_, hunits⟩
  have hlt := lt_pow_lastBit units
  rw [Nat.pow_eq, Nat.pow_add, Nat.mul_comm] at hlt
  rw [Nat.shiftLeft_eq] at hunits
  have hmul := Nat.lt_of_le_of_lt hunits.ge hlt
  exact Nat.lt_of_mul_lt_mul_right hmul

theorem exists_hasSignificand_of_dvd (h : Nat.pow 2 (lastBit units) ∣ units) :
    ∃ significand, HasSignificand units significand := by
  obtain ⟨significand, hlt, hunits⟩ := exists_shiftLeft_lastBit h
  rw [Nat.shiftLeft_eq] at hunits
  exact ⟨significand, hlt, lastBit units, hunits⟩

theorem lastBit_le_lastBit {units' : ℕ} (h : units ≤ units') :
    lastBit units ≤ lastBit units' := by
  by_cases hzero : units = 0
  · simp [hzero, lastBit]
  · have hlog : units.log2 ≤ units'.log2 :=
      (Nat.le_log2 (by omega)).mpr (Nat.le_trans (Nat.log2_self_le hzero) h)
    exact Nat.sub_le_sub_right hlog 52

/--
Between two magnitudes with even significands there is one with an odd significand.
-/
theorem exists_hasSignificand_between {units' : ℕ} (h : Nat.pow 2 (lastBit units + 1) ∣ units)
    (h' : Nat.pow 2 (lastBit units' + 1) ∣ units') (hlt : units < units') :
    ∃ next significand, HasSignificand next significand ∧ units < next ∧ next < units' := by
  obtain ⟨significand, hsignificand, hunits⟩ :=
    exists_shiftLeft_lastBit (Nat.dvd_trans (Nat.pow_dvd_pow 2 (Nat.le_succ _)) h)
  obtain ⟨next, hnext⟩ := exists_hasSignificand_of_dvd
    (pow_lastBit_dvd_shiftLeft (Nat.succ_le_of_lt hsignificand) (lastBit units))
  refine ⟨(significand + 1) <<< lastBit units, next, hnext, ?_⟩
  have hstep : (significand + 1) <<< lastBit units = units + 2 ^ lastBit units := by
    rw [Nat.shiftLeft_eq, Nat.add_one_mul, ← Nat.shiftLeft_eq, ← hunits]
  have hpos := Nat.two_pow_pos (lastBit units)
  have hdvd : 2 ^ (lastBit units + 1) ∣ units' - units := by
    refine Nat.dvd_sub (Nat.dvd_trans (Nat.pow_dvd_pow 2 ?_) h') h
    exact Nat.succ_le_succ (lastBit_le_lastBit hlt.le)
  have hgap := Nat.le_of_dvd (Nat.sub_pos_of_lt hlt) hdvd
  rw [Nat.pow_succ] at hgap
  omega

theorem exists_even_hasSignificand (hle : significand ≤ 2 ^ 53) (heven : Even significand)
    (shift : ℕ) :
    ∃ significand', Even significand' ∧ HasSignificand (significand <<< shift) significand' := by
  rw [Nat.shiftLeft_eq]
  by_cases hfull : significand = 2 ^ 53
  · -- All 53 bits carry over, and the next exponent takes the one that is left.
    refine ⟨2 ^ 52, by decide, by decide, shift + 1, ?_⟩
    rw [hfull]
    ring
  · exact ⟨significand, heven, by omega, shift, rfl⟩

end Significand

variable {q : ℚ}

/--
The distance from a quotient on a common denominator.
-/
theorem abs_div_sub_div {num den unit : ℕ} (hden : 0 < den) (hunit : 0 < unit) (units : ℕ) :
    |(units : ℚ) / unit - num / (den * unit : ℕ)|
      = (Nat.dist (units * den) num : ℕ) / (den * unit : ℕ) := by
  have hpos : (0 : ℚ) < (den * unit : ℕ) := by exact_mod_cast Nat.mul_pos hden hunit
  have hdist : ((Nat.dist (units * den) num : ℕ) : ℚ) = |(units * den : ℕ) - (num : ℚ)| := by
    exact_mod_cast natCast_dist (units * den) num
  rw [hdist, ← abs_of_pos hpos, ← abs_div, abs_of_pos hpos]
  congr 1
  push_cast
  field_simp

theorem isNearest_nearest (num : ℕ) {den : ℕ} (hden : 0 < den) :
    IsNearest (num / (den * one : ℕ)) (nearest num den) := by
  have hpos : (0 : ℚ) < (den * one : ℕ) := by exact_mod_cast Nat.mul_pos hden one_pos
  have habs := @abs_div_sub_div num den one hden one_pos
  refine ⟨exists_hasSignificand_of_dvd (pow_lastBit_dvd_nearest num den), ?_, ?_⟩
  · intro other significand hother
    rw [habs, habs, div_le_div_iff_of_pos_right hpos, Nat.cast_le]
    exact dist_nearest_le num hden hother.pow_lastBit_dvd
  · intro other significand hother hne htie
    rw [habs, habs, div_left_inj' hpos.ne', Nat.cast_inj] at htie
    by_cases hdvd : Nat.pow 2 (lastBit (num / den)) ∣ other
    · have heven := even_of_dist_nearest_eq hden hdvd hne htie
      exact exists_even_hasSignificand (roundHalfEven_lastBit_le num den)
        (Nat.even_iff.mpr heven) _
    · exact absurd htie (dist_nearest_lt_of_not_dvd hden hother.pow_lastBit_dvd hdvd).ne

theorem abs_sub_lt_of_between {a b c : ℚ} (htie : |a - q| = |b - q|) (hac : a < c)
    (hcb : c < b) : |c - q| < |a - q| := by
  rcases abs_eq_abs.mp htie with heq | hmiddle
  · linarith
  · rw [abs_of_neg (by linarith : a - q < 0), abs_lt]
    constructor <;> linarith

/--
Two nearest magnitudes would both be even, and what lies between them is nearer.
-/
theorem IsNearest.le_of_isNearest {units units' : ℕ} (h : IsNearest q units)
    (h' : IsNearest q units') : units' ≤ units := by
  by_contra hle
  have hlt : units < units' := Nat.lt_of_not_le hle
  obtain ⟨_, hsignificand⟩ := h.exists_significand
  obtain ⟨_, hsignificand'⟩ := h'.exists_significand
  have htie := le_antisymm (h.le hsignificand') (h'.le hsignificand)
  obtain ⟨_, heven, hhalf⟩ := h.even_of_tie hsignificand' hlt.ne' htie
  obtain ⟨_, heven', hhalf'⟩ := h'.even_of_tie hsignificand hlt.ne htie.symm
  obtain ⟨next, _, hnext, hbelow, habove⟩ := exists_hasSignificand_between
    (hhalf.pow_lastBit_succ_dvd heven) (hhalf'.pow_lastBit_succ_dvd heven') hlt
  have hone : (0 : ℚ) < one := by exact_mod_cast one_pos
  have hnearer : |(next : ℚ) / one - q| < |(units : ℚ) / one - q| := by
    apply abs_sub_lt_of_between htie
    · exact div_lt_div_of_pos_right (by exact_mod_cast hbelow) hone
    · exact div_lt_div_of_pos_right (by exact_mod_cast habove) hone
  exact absurd (h.le hnext) hnearer.not_ge

theorem IsNearest.eq_of_isNearest {units units' : ℕ} (h : IsNearest q units)
    (h' : IsNearest q units') : units = units' :=
  le_antisymm (h'.le_of_isNearest h) (h.le_of_isNearest h')

theorem approximates_ofRatio (num : ℕ) {den : ℕ} (hden : 0 < den) :
    Approximates (num / (den * one : ℕ)) (ofRatio false num den) := by
  have hnearest := isNearest_nearest num hden
  unfold ofRatio
  split
  · exact .finite hnearest _
  · next hlimit => exact .infinity hnearest (Nat.le_of_not_lt hlimit)

theorem Approximates.eq_of_approximates {x y : Binary64} (hx : Approximates q x)
    (hy : Approximates q y) : x = y := by
  cases hx with
  | finite hunits h =>
    cases hy with
    | finite hunits' _ =>
      cases hunits.eq_of_isNearest hunits'
      rfl
    | infinity hunits' hlimit =>
      cases hunits.eq_of_isNearest hunits'
      exact absurd h.lt_limit (Nat.not_lt_of_le hlimit)
  | infinity hunits hlimit =>
    cases hy with
    | finite hunits' h =>
      cases hunits.eq_of_isNearest hunits'
      exact absurd h.lt_limit (Nat.not_lt_of_le hlimit)
    | infinity => rfl

end Binary64

theorem Decimal.approximates_toBinary64 (d : Decimal) :
    Binary64.Approximates d.toRat d.toBinary64 := by
  have hone : (Binary64.one : ℚ) ≠ 0 := by exact_mod_cast Binary64.one_pos.ne'
  have hquotient : ((d.digits * Binary64.one : ℕ) : ℚ) / (Nat.pow 10 d.places * Binary64.one : ℕ)
      = d.toRat := by
    rw [Nat.cast_mul, Nat.cast_mul, mul_div_mul_right _ _ hone, Nat.pow_eq, Nat.cast_pow]
    rfl
  rw [← hquotient]
  exact Binary64.approximates_ofRatio _ (Nat.pow_pos (by decide))

theorem Numeral.approximates_toRat_iff (n : Numeral) (x : Binary64) :
    Binary64.Approximates n.toRat x ↔ n.toDecimal.toBinary64 = x := by
  have hnearest := n.toDecimal.approximates_toBinary64
  rw [n.toRat_toDecimal] at hnearest
  constructor
  · exact hnearest.eq_of_approximates
  · rintro rfl
    exact hnearest

end Calculator
