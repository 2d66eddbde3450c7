import Calculator.Expression.Normalize
import Calculator.Expression.Reader

/-!
This module contains the grammar of expressions:

* an expression is a sum of terms, a term is a product of factors;
* a factor is a signed factor or a chain of powers;
* the operand behind the operator `^` is a signed operand or a primary;
* a primary is a group in parentheses, a number or a square root.

The constructs that contain themselves are factors, operands and groups. They may be nested up to a
limit, so the grammar is defined by recursion on the number of levels that are left.
-/

namespace Calculator

/--
The readers of the constructs that contain themselves.
-/
structure Nested where
  factor : Reader
  operand : Reader
  group : Reader

namespace Grammar

variable (inner : Nested)

/--
Factors with `*`, `/` and `%` between them.
-/
def term : Reader :=
  .chain BinaryOp.multiplicative? inner.factor inner.factor

/--
Terms with `+` and `-` between them.
-/
def expression : Reader :=
  .chain BinaryOp.additive? (term inner) (term inner)

/--
A square root behind its keyword, where a parenthesis always opens the whole argument.
-/
def keywordRoot : Reader :=
  .afterKeyword "(" (inner.group.map (.root .keyword)) (inner.factor.map (.root .keyword))

/--
A group, a number or a square root.
-/
def primary : Reader :=
  .afterKeyword "(" inner.group <|
  .numberOr <|
  .afterKeyword "sqrt" (keywordRoot inner) <|
  .afterKeyword "√" (inner.factor.map (.root .radical)) <|
  .noOperand

/--
A primary raised to powers, where `2^3^2` is the square of `2^3`.
-/
def powers : Reader :=
  .chain BinaryOp.power? (primary inner) inner.operand

/--
The signs of a factor apply to all of its powers.
-/
def factor : Reader :=
  .afterKeyword "+" (inner.factor.map (.signed .plus)) <|
  .afterKeyword "-" (inner.factor.map (.signed .minus)) <|
  powers inner

/--
The right operand of a power, which leaves further powers to the chain that it is part of.
-/
def operand : Reader :=
  .afterKeyword "+" (inner.operand.map (.signed .plus)) <|
  .afterKeyword "-" (inner.operand.map (.signed .minus)) <|
  primary inner

/--
The rest of a group behind its opening parenthesis.
-/
def group : Reader :=
  ((expression inner).closing).map .group

end Grammar

/--
The readers of constructs that may be nested `levels` deep, of `limit` levels in all.
-/
def Nested.ofLevels (limit : Nat) : (levels : Nat) → Nested
  | 0 =>
    let refuse := .fail fun _ => .tooDeeplyNested limit
    ⟨refuse, refuse, refuse⟩
  | levels + 1 =>
    let inner := ofLevels limit levels
    ⟨Grammar.factor inner, Grammar.operand inner, Grammar.group inner⟩

namespace Expr

def maxDepth : Nat := 256

/--
Read the whole of a text in normal form with constructs nested up to `limit` levels.
-/
def parseWithin (limit : Nat) (text : String) : Except SyntaxError Expr :=
  match (Grammar.expression (.ofLevels limit limit)).read (.ofString text) with
  | .error cause => .error cause
  | .ok result =>
    match result.next.current? with
    | some found => .error (.trailingInput found result.next.position)
    | none => .ok result.expr

def parse (text : String) : Except SyntaxError Expr :=
  parseWithin maxDepth (normalize text)

/--
The value of the expression that a text stands for.
-/
def evaluate (text : String) : Except SyntaxError Binary64 :=
  (parse text).map value

end Expr

end Calculator
