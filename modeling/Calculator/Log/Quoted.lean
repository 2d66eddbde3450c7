import Calculator.Log.Invisible

/-!
This module contains the quoted text of a log, which shows on one line what cannot be seen.
-/

namespace Calculator

namespace Log

/--
The code point of a character in hexadecimal digits.
-/
def codePoint (c : Char) : List Char :=
  ['\\', 'u', '{'] ++ Nat.toDigits 16 c.toNat ++ ['}']

/--
A character between two `delimiter`s.
-/
def escape (delimiter c : Char) : List Char :=
  if c = delimiter || c = '\\' then ['\\', c]
  else if c = '\x00' then ['\\', '0']
  else if c = '\t' then ['\\', 't']
  else if c = '\n' then ['\\', 'n']
  else if c = '\r' then ['\\', 'r']
  else if isInvisible c then codePoint c
  else [c]

def quote (delimiter : Char) (text : List Char) : String :=
  String.ofList (delimiter :: text.flatMap (escape delimiter) ++ [delimiter])

end Log

end Calculator
