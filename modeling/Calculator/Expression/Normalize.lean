/-!
This module contains the normal form of expressions as they are typed: operator glyphs of the keypad
stand for their plain characters, and spaces mean nothing.
-/

namespace Calculator

namespace Expr

/--
The character that an operator glyph of the keypad stands for.
-/
def canonical : Char → Char
  | '×' => '*'
  | '÷' => '/'
  | c => c

def normalizeChars (text : List Char) : List Char :=
  (text.filter (· ≠ ' ')).map canonical

/--
Only the space character is dropped. Any other blank stays and is no part of an expression.
-/
def normalize (text : String) : String :=
  String.ofList (normalizeChars text.toList)

end Expr

end Calculator
