/-!
This module contains the keys of the calculator.
-/

namespace Calculator

inductive Key where
  /--
  A digit or the decimal point.
  -/
  | digit (symbol : Char)
  /--
  An operator or a parenthesis, which may have several characters, as `√(` has.
  -/
  | operator (symbol : String)
  | clear
  | delete
  | calculate
  | clearHistory
deriving DecidableEq

namespace Key

/--
The key that a typed character stands for. The digits are those of ASCII.
-/
def ofChar (c : Char) : Key :=
  if c.isDigit || c = '.' then .digit c else .operator (String.singleton c)

/--
What a key puts behind the buffer.
-/
def symbol? : Key → Option String
  | .digit symbol => some (String.singleton symbol)
  | .operator symbol => some symbol
  | _ => none

/--
The operators of which only the last one counts if several are pressed in a row.
-/
def binaryOperators : List String := ["+", "-", "×", "÷", "^", "%"]

def isBinaryOperator (symbol : String) : Bool := binaryOperators.contains symbol

/--
The characters that a binary operator replaces. The decimal point is one of them, so `5.` followed
by `+` becomes `5+`.
-/
def replaceableTail : List Char := ['+', '-', '×', '÷', '^', '%', '.']

end Key

end Calculator
