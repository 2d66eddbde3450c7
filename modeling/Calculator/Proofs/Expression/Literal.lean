import Calculator.Proofs.Expression.Acceptance
import Calculator.Proofs.Expression.NormalForm
import Calculator.Proofs.Number.Digits
import Calculator.Proofs.Number.Redisplay

/-!
This module contains what becomes of the text of a number that is evaluated: a finite number is read
back as a number with the same text, and the text of any other number is no expression.
-/

namespace Calculator

namespace Decimal

/--
The numeral that writes a decimal fraction.
-/
def numeral : Decimal → Numeral
  | ⟨digits, 0⟩ => ⟨Nat.toDigits 10 digits, none⟩
  | ⟨digits, places⟩ =>
    ⟨Nat.toDigits 10 (digits / Nat.pow 10 places),
      some (padded places (digits % Nat.pow 10 places))⟩

theorem chars_numeral (d : Decimal) : d.numeral.chars = d.chars := by
  obtain ⟨digits, places⟩ := d
  cases places <;> rfl

theorem isWellFormed_numeral (d : Decimal) : d.numeral.IsWellFormed := by
  obtain ⟨digits, places⟩ := d
  have hwhole : ∀ c ∈ (numeral ⟨digits, places⟩).whole, c.isDigit = true := by
    cases places <;> exact fun _ => isDigit_of_mem_toDigits
  have hfraction : ∀ c ∈ (numeral ⟨digits, places⟩).fraction, c.isDigit = true := by
    cases places with
    | zero => exact fun _ h => nomatch h
    | succ places => exact fun _ => isDigit_of_mem_padded
  have hnonempty : (numeral ⟨digits, places⟩).whole ≠ [] := by
    cases places <;> exact Nat.toDigits_ne_nil
  refine ⟨?_, List.append_ne_nil_of_left_ne_nil hnonempty _⟩
  rw [List.all_append, Bool.and_eq_true, List.all_eq_true, List.all_eq_true]
  exact ⟨hwhole, hfraction⟩

theorem isNumeric_of_mem_text {d : Decimal} {c : Char} (h : c ∈ d.text) :
    Cursor.isNumeric c = true := by
  unfold text at h
  rw [← chars_numeral] at h
  exact Numeral.isNumeric_of_mem_chars (isWellFormed_numeral _) h

theorem toDecimal_numeral (d : Decimal) : d.numeral.toDecimal = d := by
  obtain ⟨digits, places⟩ := d
  cases places with
  | zero => simp [numeral, Numeral.toDecimal, Numeral.fraction, Nat.ofDigitChars_ten_toDigits]
  | succ places =>
    have hpos : 0 < Nat.pow 10 (places + 1) := Nat.pow_pos (by decide)
    have hlength := length_padded (Nat.succ_pos places) (Nat.mod_lt digits hpos)
    simp only [numeral, Numeral.toDecimal, Numeral.fraction, Option.getD_some, hlength]
    rw [Nat.ofDigitChars_append, Nat.ofDigitChars_ten_toDigits, Nat.ofDigitChars_eq_ofDigitChars_zero,
      ofDigitChars_padded, hlength]
    congr 1
    exact Nat.div_add_mod digits _

end Decimal

namespace Derivation

def ofNumeral (n : Numeral) (h : n.IsWellFormed) : Derivation .factor :=
  .ofPowers (.ofBase (.number n h))

/--
A numeral, with a sign in front of it if it is negative.
-/
def ofSigned (negative : Bool) (n : Numeral) (h : n.IsWellFormed) : Derivation .expression :=
  .ofTerm (.ofFactor (if negative then .signedFactor .minus (ofNumeral n h) else ofNumeral n h))

variable {n : Numeral} (h : n.IsWellFormed) (negative : Bool)

theorem chars_ofSigned : (ofSigned negative n h).chars = Binary64.signed negative n.chars := by
  cases negative <;> rfl

theorem value_ofSigned {units : Nat} {hunits : Binary64.Representable units}
    (hvalue : n.toDecimal.toBinary64 = .finite false units hunits) :
    (ofSigned negative n h).value = .finite negative units hunits := by
  cases negative with
  | false =>
    simp only [ofSigned, ofNumeral, value, tree, Expr.value, Bool.false_eq_true, if_false, hvalue]
  | true =>
    simp only [ofSigned, ofNumeral, value, tree, Expr.value, if_true, hvalue]
    rfl

end Derivation

namespace Expr

/--
The text of a canonical derivation has its value if no glyph has to be replaced.
-/
theorem evaluate_ofList_chars {d : Derivation .expression} (hcanonical : d.IsCanonical)
    (hdepth : d.depth ≤ maxDepth) (hplain : ∀ c ∈ d.chars, c ≠ ' ' ∧ canonical c = c) :
    evaluate (String.ofList d.chars) = .ok d.value := by
  have hcompletes : d.Completes (normalize (String.ofList d.chars)).toList 0 := by
    refine ⟨?_, hcanonical, d.map_chars_numerals⟩
    rw [normalize_ofList hplain, String.toList_ofList]
    exact (List.append_nil _).symm
  exact evaluate_of_completes hcompletes hdepth

theorem plain_of_isNumeric {c : Char} (h : Cursor.isNumeric c = true) :
    c ≠ ' ' ∧ canonical c = c := by
  constructor
  · rintro rfl
    cases h
  · unfold canonical
    split <;> first | rfl | cases h

theorem evaluate_signed_numeral {n : Numeral} (h : n.IsWellFormed) (negative : Bool) :
    evaluate (String.ofList (Binary64.signed negative n.chars))
      = .ok (Derivation.ofSigned negative n h).value := by
  rw [← Derivation.chars_ofSigned h]
  apply evaluate_ofList_chars
  · cases negative <;> trivial
  · cases negative <;> simp [Derivation.ofSigned, Derivation.ofNumeral, Derivation.depth, maxDepth]
  · intro c hc
    have hplain : c ∈ n.chars → c ≠ ' ' ∧ canonical c = c :=
      fun hmem => plain_of_isNumeric (Numeral.isNumeric_of_mem_chars h hmem)
    rw [Derivation.chars_ofSigned] at hc
    cases negative with
    | false => exact hplain hc
    | true =>
      rcases List.mem_cons.mp hc with rfl | hc
      · exact ⟨by decide, rfl⟩
      · exact hplain hc

end Expr

namespace Binary64

variable {x : Binary64}

/--
A text that shows a finite number has a finite value, which is shown by the same text.
-/
theorem exists_evaluate_display (h : x.isFinite = true) (places : Nat) :
    ∃ y : Binary64, y.isFinite = true ∧ Expr.evaluate (x.display places) = .ok y
      ∧ y.display places = x.display places := by
  obtain ⟨negative, units, hunits, rfl⟩ := exists_eq_finite h
  obtain ⟨units', hunits', hvalue, hround⟩ :=
    exists_toBinary64_roundUnits hunits (min places exactPlaces)
  refine ⟨.finite negative units' hunits', rfl, ?_, ?_⟩
  · generalize hshown : roundUnits units (min places exactPlaces) = shown at hvalue
    have hliteral := Expr.evaluate_signed_numeral
      (Decimal.trim shown.digits shown.places).isWellFormed_numeral negative
    rw [Decimal.chars_numeral, Derivation.value_ofSigned] at hliteral
    · simp only [display, displayChars, hshown]
      exact hliteral
    · rw [Decimal.toDecimal_numeral, Decimal.toBinary64_trim]
      exact hvalue
  · simp only [display, displayChars, hround]

theorem display_infinity (negative : Bool) (places : Nat) :
    (infinity negative).display places = if negative then "-Infinity" else "Infinity" := by
  cases negative <;> rfl

theorem evaluate_display_of_not_finite (h : x.isFinite = false) (places : Nat) :
    ∃ cause, Expr.evaluate (x.display places) = .error cause := by
  cases x with
  | nan =>
    have hdisplay : nan.display places = "NaN" := rfl
    rw [hdisplay]
    exact ⟨.unexpectedChar 'N' 0, rfl⟩
  | infinity negative =>
    rw [display_infinity]
    cases negative with
    | false => exact ⟨.unexpectedChar 'I' 0, rfl⟩
    | true => exact ⟨.unexpectedChar 'I' 1, rfl⟩
  | finite => cases h

/--
The texts of numbers that are not finite have no fraction to be rounded.
-/
theorem display_of_not_finite (h : x.isFinite = false) (places₁ places₂ : Nat) :
    x.display places₁ = x.display places₂ := by
  cases x with
  | nan => rfl
  | infinity => rfl
  | finite => cases h

end Binary64

end Calculator
