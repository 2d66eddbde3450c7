import Calculator.Expression.Numeral
import Calculator.Number.Binary64.Arithmetic
import Calculator.Number.Binary64.Power
import Calculator.Number.Conversion

/-!
This module contains the syntax trees of expressions and their values.
-/

namespace Calculator

inductive Sign where
  | plus
  | minus
deriving DecidableEq

def Sign.apply : Sign → Binary64 → Binary64
  | .plus, x => x
  | .minus, x => -x

inductive BinaryOp where
  | add
  | sub
  | mul
  | div
  | mod
  | pow
deriving DecidableEq

namespace BinaryOp

def apply : BinaryOp → Binary64 → Binary64 → Binary64
  | .add, x, y => x + y
  | .sub, x, y => x - y
  | .mul, x, y => x * y
  | .div, x, y => x / y
  | .mod, x, y => x % y
  | .pow, x, y => x ^ y

/--
The operators between the terms of an expression.
-/
def additive? : Char → Option BinaryOp
  | '+' => some .add
  | '-' => some .sub
  | _ => none

/--
The operators between the factors of a term.
-/
def multiplicative? : Char → Option BinaryOp
  | '*' => some .mul
  | '/' => some .div
  | '%' => some .mod
  | _ => none

/--
The operator between the operands of a factor.
-/
def power? : Char → Option BinaryOp
  | '^' => some .pow
  | _ => none

end BinaryOp

inductive RootSymbol where
  | keyword
  | radical
deriving DecidableEq

/--
An expression as it is written: each operand in parentheses is a `group`, and the tree of `sqrt(2)`
has a group below its root.
-/
inductive Expr where
  | number (numeral : Numeral)
  | group (body : Expr)
  | root (symbol : RootSymbol) (argument : Expr)
  | signed (sign : Sign) (operand : Expr)
  | binary (op : BinaryOp) (left right : Expr)
deriving DecidableEq

namespace Expr

def value : Expr → Binary64
  | .number numeral => numeral.toDecimal.toBinary64
  | .group body => body.value
  | .root _ argument => argument.value.sqrt
  | .signed sign operand => sign.apply operand.value
  | .binary op left right => op.apply left.value right.value

end Expr

end Calculator
