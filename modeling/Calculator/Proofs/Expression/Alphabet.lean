import Calculator.Proofs.Expression.Acceptance
import Calculator.Proofs.Expression.NormalForm

/-!
This module contains the characters that expressions are written with: a text that has a value
consists of them, of operator glyphs and of spaces.
-/

namespace Calculator

namespace Expr

def punctuation : List Char := ['+', '-', '*', '/', '%', '^', '(', ')', '√', 's', 'q', 'r', 't']

/--
Whether a character may occur in an expression in normal form.
-/
def isSymbol (c : Char) : Bool := Cursor.isNumeric c || punctuation.contains c

theorem isSymbol_sign (sign : Sign) : isSymbol sign.symbol = true := by
  cases sign <;> decide

theorem isSymbol_operator (op : BinaryOp) : isSymbol op.symbol = true := by
  cases op <;> decide

theorem all_isSymbol_numeral {n : Numeral} (h : n.IsWellFormed) : n.chars.all isSymbol = true := by
  rw [List.all_eq_true]
  intro c hmem
  rw [isSymbol, Numeral.isNumeric_of_mem_chars h hmem, Bool.true_or]

end Expr

theorem Derivation.all_isSymbol_chars {rule : Rule} (d : Derivation rule) :
    d.chars.all Expr.isSymbol = true := by
  have hkeyword : "sqrt".toList.all Expr.isSymbol = true := by decide
  have hradical : Expr.isSymbol '√' = true := by decide
  have hpower : Expr.isSymbol '^' = true := by decide
  have hopening : Expr.isSymbol '(' = true := by decide
  have hclosing : Expr.isSymbol ')' = true := by decide
  induction d with
  | ofTerm _ ih | ofFactor _ ih | ofPowers _ ih | ofBase _ ih | ofPrimary _ ih | ofGroup _ ih =>
    exact ih
  | sum _ op _ _ ihLeft ihRight | product _ op _ _ ihLeft ihRight =>
    rw [chars, List.all_append, List.all_cons, Expr.isSymbol_operator, ihLeft, ihRight]
    rfl
  | power _ _ ihBase ihExponent =>
    rw [chars, List.all_append, List.all_cons, hpower, ihBase, ihExponent]
    rfl
  | signedFactor sign _ ih | signedOperand sign _ ih =>
    rw [chars, List.all_cons, Expr.isSymbol_sign, ih]
    rfl
  | number numeral h => exact Expr.all_isSymbol_numeral h
  | keywordGroup _ ih | keywordFactor _ ih =>
    rw [chars, List.all_append, hkeyword, ih]
    rfl
  | radical _ ih =>
    rw [chars, List.all_cons, hradical, ih]
    rfl
  | group _ ih =>
    rw [chars, List.all_cons, List.all_append, List.all_cons, hopening, hclosing, ih]
    rfl

namespace Expr

theorem mem_normalize_of_mem {text : String} {c : Char} (hmem : c ∈ text.toList) (hc : c ≠ ' ') :
    canonical c ∈ (normalize text).toList := by
  rw [normalize, String.toList_ofList]
  apply List.mem_map_of_mem
  rw [List.mem_filter]
  exact ⟨hmem, by simpa using hc⟩

theorem isSymbol_of_evaluate {text : String} {v : Binary64} (h : evaluate text = .ok v) {c : Char}
    (hmem : c ∈ text.toList) : c = ' ' ∨ isSymbol (canonical c) = true := by
  by_cases hc : c = ' '
  · exact .inl hc
  · right
    obtain ⟨e, hparse, -⟩ := evaluate_eq_ok_iff.mp h
    obtain ⟨missing, d, hcompletes, -, -⟩ := parseWithin_eq_ok_iff.mp hparse
    apply List.all_eq_true.mp d.all_isSymbol_chars
    rw [hcompletes.chars]
    exact List.mem_append_left _ (mem_normalize_of_mem hmem hc)

end Expr

end Calculator
