/-!
This module contains the grammar of JSON numbers.
-/

namespace Calculator

namespace Json

def isDigits (text : List Char) : Bool := text ≠ [] && text.all Char.isDigit

/--
Nothing, or a mark of an exponent with digits behind it that may have a sign.
-/
def isExponent : List Char → Bool
  | [] => true
  | mark :: rest =>
    (mark = 'e' || mark = 'E') &&
      match rest with
      | sign :: digits =>
        if sign = '+' || sign = '-' then isDigits digits else isDigits rest
      | [] => false

/--
Nothing, or a point with digits behind it, and then an exponent.
-/
def isFraction : List Char → Bool
  | '.' :: rest =>
    isDigits (rest.takeWhile Char.isDigit) && isExponent (rest.dropWhile Char.isDigit)
  | rest => isExponent rest

/--
A whole part has no zero in front of other digits.
-/
def isWhole (digits : List Char) : Bool :=
  isDigits digits && (digits = ['0'] || digits.head? ≠ some '0')

def isUnsigned (literal : List Char) : Bool :=
  isWhole (literal.takeWhile Char.isDigit) && isFraction (literal.dropWhile Char.isDigit)

def isNumber : List Char → Bool
  | '-' :: rest => isUnsigned rest
  | literal => isUnsigned literal

end Json

end Calculator
