/-!
This module contains the reasons why a text is no expression. They are the only failures of an
evaluation: an operation without a value, like a division of zero by zero, is no error.
-/

namespace Calculator

/--
Positions count characters of the normal form of a text from zero.
-/
inductive SyntaxError where
  /--
  An operand has to start with another character.
  -/
  | unexpectedChar (found : Char) (position : Nat)
  | unexpectedEnd
  /--
  A complete expression cannot go on with this character.
  -/
  | trailingInput (found : Char) (position : Nat)
  /--
  A run of digits and points has no digit or more than one point.
  -/
  | invalidNumber (literal : String)
  | tooDeeplyNested (limit : Nat)
deriving DecidableEq

namespace SyntaxError

def message : SyntaxError → String
  | .unexpectedChar found position =>
    "Unexpected character '" ++ found.toString ++ "' at position " ++ toString position
  | .unexpectedEnd => "Unexpected end of expression"
  | .trailingInput found position =>
    "Unexpected '" ++ found.toString ++ "' after expression at position " ++ toString position
  | .invalidNumber literal => "Invalid number literal: " ++ literal
  | .tooDeeplyNested limit => "Expression nested deeper than " ++ toString limit ++ " levels"

end SyntaxError

end Calculator
