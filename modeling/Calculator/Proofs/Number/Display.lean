import Calculator.Proofs.Expression.Literal
import Mathlib.Algebra.Order.Ring.Unbundled.Rat
import Mathlib.Algebra.Order.Field.Basic
import Mathlib.Data.Rat.Cast.Order
import Mathlib.Tactic.FieldSimp
import Mathlib.Tactic.Linarith
import Mathlib.Tactic.Ring

/-!
This module contains the theorem about the text that shows a finite number. The text has no digit
too many, and it denotes the decimal fraction that is nearest to the exact value of the number.
-/

namespace Calculator

theorem natCast_dist (m n : Nat) : ((Nat.dist m n : Nat) : ℤ) = |(m : ℤ) - n| := by
  unfold Nat.dist
  rcases abs_cases ((m : ℤ) - n) with ⟨habs, _⟩ | ⟨habs, _⟩ <;> rw [habs] <;> omega

/--
Any other multiple of `den` is farther away, or equally far, and then the rounded number is even.
-/
theorem abs_roundHalfEven_lt_or_tie (num : Nat) {den : Nat} (hden : 0 < den) {other : ℤ}
    (hother : other ≠ roundHalfEven num den) :
    |(roundHalfEven num den : ℤ) * den - num| < |other * den - num|
      ∨ (|(roundHalfEven num den : ℤ) * den - num| = |other * den - num|
        ∧ Even (roundHalfEven num den : ℤ)) := by
  have hhalf := two_mul_dist_roundHalfEven_le num hden
  have htie := even_roundHalfEven_of_tie num hden
  generalize roundHalfEven num den = rounded at hother hhalf htie ⊢
  have hdist := natCast_dist (rounded * den) num
  rw [Nat.cast_mul] at hdist
  have hstep : (den : ℤ) ≤ |(other - rounded) * den| := by
    rw [abs_mul, Nat.abs_cast]
    exact le_mul_of_one_le_left (by omega) (Int.one_le_abs (sub_ne_zero.mpr hother))
  have htriangle := abs_sub_le (other * den) num ((rounded : ℤ) * den)
  rw [← sub_mul, abs_sub_comm (num : ℤ)] at htriangle
  by_cases heq : |(rounded : ℤ) * den - num| = |other * den - num|
  · refine .inr ⟨heq, ?_⟩
    have heven := htie (by omega)
    exact_mod_cast Nat.even_iff.mpr heven
  · left
    omega

namespace Decimal

def toRat (d : Decimal) : ℚ := d.digits / 10 ^ d.places

theorem toRat_trim (digits places : Nat) :
    (trim digits places).toRat = toRat ⟨digits, places⟩ := by
  obtain ⟨hdigits, hplaces⟩ := trim_digits_mul digits places
  have hcast : ((trim digits places).digits : ℚ) * 10 ^ (places - (trim digits places).places)
      = digits := by
    exact_mod_cast hdigits
  have hpower : (10 : ℚ) ^ places
      = 10 ^ (places - (trim digits places).places) * 10 ^ (trim digits places).places := by
    rw [← pow_add, Nat.sub_add_cancel hplaces]
  unfold toRat
  dsimp only
  rw [hpower, ← hcast]
  field_simp

/--
The multiple of `10 ^ -places` that is nearest to `q`. Of two that are equally near it is the one
with an even last digit.
-/
structure IsNearest (places : Nat) (q r : ℚ) : Prop where
  exists_eq : ∃ last : ℤ, r = last / 10 ^ places
  le (other : ℤ) : |r - q| ≤ |other / 10 ^ places - q|
  even_of_tie (other : ℤ) : other / 10 ^ places ≠ r → |r - q| = |other / 10 ^ places - q| →
    ∃ last : ℤ, Even last ∧ r = last / 10 ^ places

variable {places : Nat} {q r : ℚ}

theorem IsNearest.neg (h : IsNearest places q r) : IsNearest places (-q) (-r) := by
  have habs (x : ℚ) : |-x - -q| = |x - q| := by
    rw [← neg_sub', abs_neg]
  have hcast (other : ℤ) : (other : ℚ) / 10 ^ places = -((-other : ℤ) / 10 ^ places) := by
    push_cast
    ring
  obtain ⟨last, hlast⟩ := h.exists_eq
  refine ⟨⟨-last, ?_⟩, ?_, ?_⟩
  · rw [hlast, hcast, neg_neg]
  · intro other
    rw [hcast, habs, habs]
    exact h.le (-other)
  · intro other hne htie
    rw [hcast, habs, habs] at htie
    rw [hcast, ne_eq, neg_inj] at hne
    obtain ⟨last, heven, hlast⟩ := h.even_of_tie (-other) hne htie
    refine ⟨-last, heven.neg, ?_⟩
    rw [hlast, hcast, neg_neg]

/--
A decimal fraction does not change if it is rounded to as many places as it has.
-/
theorem isNearest_toRat {d : Decimal} (h : d.places ≤ places) :
    IsNearest places d.toRat d.toRat := by
  refine ⟨⟨d.digits * 10 ^ (places - d.places), ?_⟩, ?_, ?_⟩
  · have hsplit : (10 : ℚ) ^ places = 10 ^ (places - d.places) * 10 ^ d.places := by
      rw [← pow_add, Nat.sub_add_cancel h]
    rw [toRat, hsplit]
    push_cast
    field_simp
  · intro other
    rw [sub_self, abs_zero]
    exact abs_nonneg _
  · intro other hne htie
    rw [sub_self, abs_zero] at htie
    exact absurd (sub_eq_zero.mp (abs_eq_zero.mp htie.symm)) hne

theorem isNearest_roundHalfEven (num : Nat) {den : Nat} (hden : 0 < den) (places : Nat) :
    IsNearest places (num / den)
      (toRat ⟨roundHalfEven (num * Nat.pow 10 places) den, places⟩) := by
  have hpos : (0 : ℚ) < den * 10 ^ places := by positivity
  have hdist (last : ℤ) : |(last : ℚ) / 10 ^ places - num / den|
      = (|last * den - (num * Nat.pow 10 places : Nat)| : ℤ) / (den * 10 ^ places) := by
    rw [Int.cast_abs, ← abs_of_pos hpos, ← abs_div, Nat.pow_eq]
    congr 1
    push_cast
    field_simp
  have hbest {other : ℤ} := @abs_roundHalfEven_lt_or_tie (num * Nat.pow 10 places) den hden other
  generalize roundHalfEven (num * Nat.pow 10 places) den = rounded at hbest ⊢
  have hrounded : toRat ⟨rounded, places⟩ = ((rounded : ℤ) : ℚ) / 10 ^ places := rfl
  rw [hrounded]
  refine ⟨⟨rounded, rfl⟩, ?_, ?_⟩
  · intro other
    rw [hdist, hdist, div_le_div_iff_of_pos_right hpos, Int.cast_le]
    by_cases hother : other = rounded
    · rw [hother]
    · rcases hbest hother with hlt | ⟨heq, -⟩
      · exact hlt.le
      · exact heq.le
  · intro other hne htie
    rw [hdist, hdist, div_left_inj' hpos.ne', Int.cast_inj] at htie
    have hother : other ≠ rounded := by
      rintro rfl
      exact hne rfl
    rcases hbest hother with hlt | ⟨-, heven⟩
    · exact absurd htie hlt.ne
    · exact ⟨rounded, heven, rfl⟩

end Decimal

/--
No digit can be left out: neither a zero in front of other digits, nor one at the end of a fraction,
nor a fraction without any other digit.
-/
structure Numeral.IsCanonical (n : Numeral) : Prop where
  isWellFormed : n.IsWellFormed
  whole : n.whole = ['0'] ∨ ∃ first rest, n.whole = first :: rest ∧ first ≠ '0'
  fraction : ∀ fraction ∈ n.fraction?, ∃ front last, fraction = front ++ [last] ∧ last ≠ '0'

namespace Decimal

theorem isCanonical_numeral {d : Decimal} (h : d.places = 0 ∨ d.digits % 10 ≠ 0) :
    d.numeral.IsCanonical := by
  refine ⟨d.isWellFormed_numeral, ?_, ?_⟩
  · obtain ⟨digits, places⟩ := d
    cases places <;> apply toDigits_eq_zero_or_cons
  · obtain ⟨digits, places⟩ := d
    cases places with
    | zero => rintro _ ⟨⟩
    | succ places =>
      have hlast := getLast?_padded (places + 1) (digits % Nat.pow 10 (places + 1))
      have hmod : digits % Nat.pow 10 (places + 1) % 10 = digits % 10 :=
        Nat.mod_mod_of_dvd digits (Dvd.intro_left (Nat.pow 10 places) rfl)
      rw [hmod, List.getLast?_eq_some_iff] at hlast
      obtain ⟨front, hfront⟩ := hlast
      rintro _ ⟨⟩
      refine ⟨front, _, hfront, ?_⟩
      rw [ne_eq, Nat.digitChar_eq_zero]
      exact h.resolve_left (Nat.succ_ne_zero places)

theorem length_fraction_numeral (d : Decimal) : d.numeral.fraction.length = d.places := by
  obtain ⟨digits, places⟩ := d
  cases places with
  | zero => rfl
  | succ places =>
    exact length_padded (Nat.succ_pos places) (Nat.mod_lt digits (Nat.pow_pos (by decide)))

end Decimal

namespace Binary64

def signedRat (negative : Bool) (q : ℚ) : ℚ := if negative then -q else q

/--
The number that a text denotes: a numeral, which may have a minus sign in front of it.
-/
def denoted? : List Char → Option ℚ
  | '-' :: text => (Numeral.ofChars? text).map fun n => -n.toDecimal.toRat
  | text => (Numeral.ofChars? text).map fun n => n.toDecimal.toRat

variable {n : Numeral} (h : n.IsWellFormed)

include h

theorem head?_chars_ne_minus : n.chars.head? ≠ some '-' := by
  intro hhead
  cases Numeral.isNumeric_of_mem_chars h (List.mem_of_mem_head? hhead)

theorem head?_signed (negative : Bool) :
    (signed negative n.chars).head? = some '-' ↔ negative = true := by
  cases negative with
  | false => simpa [signed] using head?_chars_ne_minus h
  | true => simp [signed]

theorem denoted?_signed (negative : Bool) :
    denoted? (signed negative n.chars) = some (signedRat negative n.toDecimal.toRat) := by
  cases negative with
  | false =>
    unfold signed denoted?
    simp only [Bool.false_eq_true, if_false]
    split
    · next text htext =>
      have hhead := head?_chars_ne_minus h
      rw [htext] at hhead
      exact absurd rfl hhead
    · rw [Numeral.ofChars?_chars h]
      rfl
  | true =>
    simp only [signed, denoted?, if_true, Numeral.ofChars?_chars h]
    rfl

omit h

theorem roundHalfEven_mul_self (n : Nat) {den : Nat} (hden : 0 < den) :
    roundHalfEven (den * n) den = n := by
  unfold roundHalfEven
  rw [Nat.mul_div_cancel_left n hden, Nat.mul_mod_right]
  exact if_pos (.inl hden)

theorem toRat_roundUnits_exactPlaces (units : Nat) :
    (roundUnits units exactPlaces).toRat = units / one := by
  obtain ⟨factor, hfactor⟩ := one_dvd_pow_exactPlaces
  have hpower : (10 : ℚ) ^ exactPlaces = one * factor := by
    rw [← Nat.cast_mul, ← hfactor, Nat.pow_eq, Nat.cast_pow, Nat.cast_ofNat]
  have hne : (one : ℚ) * factor ≠ 0 := by
    rw [← hpower]
    positivity
  rw [roundUnits, hfactor, Nat.mul_left_comm, roundHalfEven_mul_self _ one_pos, Decimal.toRat]
  dsimp only
  rw [hpower, Nat.cast_mul, mul_div_mul_right _ _ (right_ne_zero_of_mul hne)]

theorem isNearest_roundUnits (units places : Nat) :
    Decimal.IsNearest places (units / one) (roundUnits units (min places exactPlaces)).toRat := by
  by_cases hplaces : places ≤ exactPlaces
  · rw [Nat.min_eq_left hplaces]
    exact Decimal.isNearest_roundHalfEven units one_pos places
  · -- Further places show nothing more, because the number is already exact.
    have hle : exactPlaces ≤ places := Nat.le_of_not_le hplaces
    rw [Nat.min_eq_right hle, ← toRat_roundUnits_exactPlaces units]
    exact Decimal.isNearest_toRat hle

theorem display_isNearest (negative : Bool) {units : Nat} (h : Representable units) (places : Nat) :
    ∃ (n : Numeral) (r : ℚ), n.IsCanonical ∧ n.fraction.length ≤ places
      ∧ ((finite negative units h).display places).toList = signed negative n.chars
      ∧ (((finite negative units h).display places).toList.head? = some '-' ↔ negative = true)
      ∧ denoted? ((finite negative units h).display places).toList = some r
      ∧ Decimal.IsNearest places (signedRat negative (units / one)) r := by
  have hnearest := isNearest_roundUnits units places
  have hplaces : (roundUnits units (min places exactPlaces)).places ≤ places :=
    Nat.min_le_left places exactPlaces
  have hchars : ((finite negative units h).display places).toList
      = signed negative (roundUnits units (min places exactPlaces)).text :=
    String.toList_ofList
  rw [hchars]
  generalize roundUnits units (min places exactPlaces) = rounded at hnearest hplaces ⊢
  have hvalue : (Decimal.trim rounded.digits rounded.places).toRat = rounded.toRat :=
    Decimal.toRat_trim rounded.digits rounded.places
  have hfewer := (Decimal.trim_digits_mul rounded.digits rounded.places).2
  have hlast := Decimal.last_digit_trim rounded.digits rounded.places
  unfold Decimal.text
  generalize Decimal.trim rounded.digits rounded.places = shown at hvalue hfewer hlast ⊢
  have hwellFormed := shown.isWellFormed_numeral
  rw [← hvalue] at hnearest
  rw [← Decimal.chars_numeral]
  refine ⟨shown.numeral, _, Decimal.isCanonical_numeral hlast, ?_, rfl, head?_signed hwellFormed _,
    denoted?_signed hwellFormed _, ?_⟩
  · rw [Decimal.length_fraction_numeral]
    exact hfewer.trans hplaces
  · rw [Decimal.toDecimal_numeral]
    cases negative with
    | false => exact hnearest
    | true => exact hnearest.neg

theorem display_isNearest_tie :
    ∃ h : Representable (Nat.pow 2 1063),
      (finite true (Nat.pow 2 1063) h).display 10 = "-0.0004882812"
        ∧ Decimal.IsNearest 10 (-((Nat.pow 2 1063 : Nat) / one)) (-(4882812 / 10 ^ 10)) := by
  have h : Representable (Nat.pow 2 1063) := ⟨by decide +kernel, by decide +kernel⟩
  have hshown : (finite true (Nat.pow 2 1063) h).display 10 = "-0.0004882812" := by
    have htext : String.ofList (signed true (roundUnits (Nat.pow 2 1063) 10).text)
        = "-0.0004882812" := by decide +kernel
    exact htext
  obtain ⟨n, r, -, -, -, -, hdenoted, hnearest⟩ := display_isNearest true h 10
  rw [hshown] at hdenoted
  have hr : r = -(4882812 / 10 ^ 10) := by
    rw [← Option.some_inj, ← hdenoted]
    rfl
  rw [hr] at hnearest
  exact ⟨h, hshown, hnearest⟩

end Binary64

end Calculator
