import Calculator.Number.Decimal

/-!
This module contains the numbers of an expression as they are written: digits with at most one point
before, between or behind them.
-/

namespace Calculator

/--
The digits before the point and, if there is a point, those behind it.
-/
structure Numeral where
  whole : List Char
  fraction? : Option (List Char)
deriving DecidableEq

namespace Numeral

def fraction (n : Numeral) : List Char := n.fraction?.getD []

/--
The text that is read as this numeral.
-/
def chars (n : Numeral) : List Char :=
  match n.fraction? with
  | none => n.whole
  | some fraction => n.whole ++ '.' :: fraction

/--
A numeral has nothing but digits around its point, and at least one.
-/
def IsWellFormed (n : Numeral) : Prop :=
  (n.whole ++ n.fraction).all Char.isDigit ∧ n.whole ++ n.fraction ≠ []

instance (n : Numeral) : Decidable n.IsWellFormed := by
  unfold IsWellFormed; infer_instance

def split : List Char → Numeral
  | [] => ⟨[], none⟩
  | c :: text =>
    if c = '.' then ⟨[], some text⟩ else ⟨c :: (split text).whole, (split text).fraction?⟩

/--
Read a text as a numeral. A second point leaves something that is no digit.
-/
def ofChars? (text : List Char) : Option Numeral :=
  if (split text).IsWellFormed then some (split text) else none

def toDecimal (n : Numeral) : Decimal :=
  ⟨Nat.ofDigitChars 10 (n.whole ++ n.fraction) 0, n.fraction.length⟩

theorem chars_split (text : List Char) : (split text).chars = text := by
  induction text with
  | nil => rfl
  | cons c text ih =>
    unfold split
    split
    · next h => simp [chars, h]
    · cases h : (Numeral.split text).fraction? <;> simp_all [chars]

theorem isWellFormed_of_ofChars? {text : List Char} {n : Numeral} (h : ofChars? text = some n) :
    n.IsWellFormed := by
  unfold ofChars? at h
  split at h
  · next hsplit => cases h; exact hsplit
  · cases h

theorem chars_of_ofChars? {text : List Char} {n : Numeral} (h : ofChars? text = some n) :
    n.chars = text := by
  unfold ofChars? at h
  split at h
  · cases h; exact chars_split text
  · cases h

theorem split_append_cons {whole : List Char} (h : '.' ∉ whole) (fraction : List Char) :
    split (whole ++ '.' :: fraction) = ⟨whole, some fraction⟩ := by
  induction whole with
  | nil => rfl
  | cons c whole ih =>
    rw [List.mem_cons, not_or] at h
    simp [split, ih h.2, Ne.symm h.1]

theorem split_eq_of_notMem {whole : List Char} (h : '.' ∉ whole) : split whole = ⟨whole, none⟩ := by
  induction whole with
  | nil => rfl
  | cons c whole ih =>
    rw [List.mem_cons, not_or] at h
    simp [split, ih h.2, Ne.symm h.1]

theorem ofChars?_chars {n : Numeral} (h : n.IsWellFormed) : ofChars? n.chars = some n := by
  have hwhole : '.' ∉ n.whole := by
    intro hmem
    have := List.all_eq_true.mp h.1 '.' (List.mem_append_left _ hmem)
    cases this
  have hsplit : split n.chars = n := by
    obtain ⟨whole, fraction?⟩ := n
    cases fraction? with
    | none => exact split_eq_of_notMem hwhole
    | some fraction => exact split_append_cons hwhole fraction
  simp only [ofChars?, hsplit, h, if_true]

end Numeral

end Calculator
