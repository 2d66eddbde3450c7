import Calculator.Number.Decimal

/-!
This module contains what the decimal digits of a number and of a decimal fraction look like: which
characters they are, how many, with which one they start and with which one they end.
-/

namespace Calculator

namespace Decimal

theorem isDigit_of_mem_toDigits {n : Nat} {c : Char} (h : c ∈ Nat.toDigits 10 n) :
    c.isDigit = true :=
  Nat.isDigit_of_mem_toDigits (by decide) (by decide) h

theorem isDigit_of_mem_padded {width n : Nat} {c : Char} (h : c ∈ padded width n) :
    c.isDigit = true := by
  rcases List.mem_append.mp h with hzero | hdigit
  · rw [List.eq_of_mem_replicate hzero]
    rfl
  · exact isDigit_of_mem_toDigits hdigit

theorem length_padded {width n : Nat} (hwidth : 0 < width) (h : n < Nat.pow 10 width) :
    (padded width n).length = width := by
  have hlength := (Nat.length_toDigits_le_iff (by decide) hwidth).mpr h
  simp only [padded, List.length_append, List.length_replicate]
  omega

theorem ofDigitChars_padded (width n : Nat) : Nat.ofDigitChars 10 (padded width n) 0 = n := by
  rw [padded, Nat.ofDigitChars_append, Nat.ofDigitChars_replicate_zero, Nat.mul_zero]
  exact Nat.ofDigitChars_ten_toDigits

theorem head?_toDigits_ne {n : Nat} (h : n ≠ 0) : (Nat.toDigits 10 n).head? ≠ some '0' := by
  induction n using Nat.strongRecOn with
  | ind n ih =>
    by_cases hlt : n < 10
    · rw [Nat.toDigits_of_lt_base hlt]
      simpa using h
    · have hfront := ih (n / 10) (by omega) (by omega)
      obtain ⟨first, rest, hdigits⟩ := List.exists_cons_of_ne_nil (@Nat.toDigits_ne_nil (n / 10) 10)
      rw [Nat.toDigits_of_base_le (by decide) (Nat.le_of_not_lt hlt), hdigits]
      rw [hdigits] at hfront
      exact hfront

theorem toDigits_eq_zero_or_cons (n : Nat) :
    Nat.toDigits 10 n = ['0'] ∨ ∃ first rest, Nat.toDigits 10 n = first :: rest ∧ first ≠ '0' := by
  by_cases hzero : n = 0
  · left
    rw [hzero, Nat.toDigits_zero]
  · right
    obtain ⟨first, rest, hdigits⟩ := List.exists_cons_of_ne_nil (@Nat.toDigits_ne_nil n 10)
    have hfirst := head?_toDigits_ne hzero
    rw [hdigits, List.head?_cons, ne_eq, Option.some.injEq] at hfirst
    exact ⟨first, rest, hdigits, hfirst⟩

theorem getLast?_toDigits (n : Nat) :
    (Nat.toDigits 10 n).getLast? = some (Nat.digitChar (n % 10)) := by
  by_cases hlt : n < 10
  · rw [Nat.toDigits_of_lt_base hlt, Nat.mod_eq_of_lt hlt]
    rfl
  · rw [Nat.toDigits_of_base_le (by decide) (Nat.le_of_not_lt hlt), List.getLast?_concat]

theorem getLast?_padded (width n : Nat) :
    (padded width n).getLast? = some (Nat.digitChar (n % 10)) := by
  unfold padded
  rw [List.getLast?_append, getLast?_toDigits]
  rfl

theorem last_digit_trim (digits places : Nat) :
    (trim digits places).places = 0 ∨ (trim digits places).digits % 10 ≠ 0 := by
  fun_induction trim digits places with
  | case1 => exact .inl rfl
  | case2 digits places hzero ih => exact ih
  | case3 digits places hdigit => exact .inr hdigit

end Decimal

end Calculator
