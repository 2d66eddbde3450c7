import Calculator.Expression.Cursor
import Calculator.Expression.Tree

/-!
This module contains the derivations of expressions. The rules of the grammar are

* `expression → term (("+" | "-") term)*`
* `term → factor (("*" | "/" | "%") factor)*`
* `factor → "+" factor | "-" factor | powers`
* `powers → primary ("^" operand)*`
* `operand → "+" operand | "-" operand | primary`
* `primary → group | number | "sqrt" group | "sqrt" factor | "√" factor`
* `group → "(" expression ")"`

and a derivation has one constructor for each alternative. A repetition is a chain that grows to the
right, so its operators associate to the left. The grammar alone is ambiguous about roots, which
`Derivation.IsCanonical` settles.
-/

namespace Calculator

inductive Rule where
  | expression
  | term
  | factor
  | powers
  | operand
  | primary
  | group
deriving DecidableEq

def Sign.symbol : Sign → Char
  | .plus => '+'
  | .minus => '-'

namespace BinaryOp

def symbol : BinaryOp → Char
  | .add => '+'
  | .sub => '-'
  | .mul => '*'
  | .div => '/'
  | .mod => '%'
  | .pow => '^'

/--
The rule whose chains have this operator between their links.
-/
def rule : BinaryOp → Rule
  | .add | .sub => .expression
  | .mul | .div | .mod => .term
  | .pow => .powers

end BinaryOp

def Rule.operator? : Rule → Char → Option BinaryOp
  | .expression => BinaryOp.additive?
  | .term => BinaryOp.multiplicative?
  | .powers => BinaryOp.power?
  | _ => fun _ => none

theorem Rule.operator?_eq_some_iff {rule : Rule} {c : Char} {op : BinaryOp} :
    rule.operator? c = some op ↔ c = op.symbol ∧ op.rule = rule := by
  constructor
  · intro h
    cases rule <;> simp only [operator?, BinaryOp.additive?, BinaryOp.multiplicative?,
      BinaryOp.power?, reduceCtorEq] at h
    all_goals
      split at h <;> cases h <;> exact ⟨rfl, rfl⟩
  · rintro ⟨rfl, rfl⟩
    cases op <;> rfl

inductive Derivation : Rule → Type where
  | ofTerm (only : Derivation .term) : Derivation .expression
  | sum (left : Derivation .expression) (op : BinaryOp) (h : op.rule = .expression)
      (right : Derivation .term) : Derivation .expression
  | ofFactor (only : Derivation .factor) : Derivation .term
  | product (left : Derivation .term) (op : BinaryOp) (h : op.rule = .term)
      (right : Derivation .factor) : Derivation .term
  | signedFactor (sign : Sign) (argument : Derivation .factor) : Derivation .factor
  | ofPowers (only : Derivation .powers) : Derivation .factor
  | ofBase (only : Derivation .primary) : Derivation .powers
  | power (base : Derivation .powers) (exponent : Derivation .operand) : Derivation .powers
  | signedOperand (sign : Sign) (argument : Derivation .operand) : Derivation .operand
  | ofPrimary (only : Derivation .primary) : Derivation .operand
  | ofGroup (only : Derivation .group) : Derivation .primary
  | number (numeral : Numeral) (h : numeral.IsWellFormed) : Derivation .primary
  | keywordGroup (argument : Derivation .group) : Derivation .primary
  | keywordFactor (argument : Derivation .factor) : Derivation .primary
  | radical (argument : Derivation .factor) : Derivation .primary
  | group (body : Derivation .expression) : Derivation .group

namespace Derivation

variable {rule : Rule}

def chars {rule : Rule} : Derivation rule → List Char
  | ofTerm only => only.chars
  | sum left op _ right => left.chars ++ op.symbol :: right.chars
  | ofFactor only => only.chars
  | product left op _ right => left.chars ++ op.symbol :: right.chars
  | signedFactor sign argument => sign.symbol :: argument.chars
  | ofPowers only => only.chars
  | ofBase only => only.chars
  | power base exponent => base.chars ++ '^' :: exponent.chars
  | signedOperand sign argument => sign.symbol :: argument.chars
  | ofPrimary only => only.chars
  | ofGroup only => only.chars
  | number numeral _ => numeral.chars
  | keywordGroup argument => "sqrt".toList ++ argument.chars
  | keywordFactor argument => "sqrt".toList ++ argument.chars
  | radical argument => '√' :: argument.chars
  | group body => '(' :: (body.chars ++ [')'])

/--
The largest number of factors, operands and groups on one path from the root to a leaf.
-/
def depth {rule : Rule} : Derivation rule → Nat
  | ofTerm only => only.depth
  | sum left _ _ right => max left.depth right.depth
  | ofFactor only => only.depth
  | product left _ _ right => max left.depth right.depth
  | signedFactor _ argument => argument.depth + 1
  | ofPowers only => only.depth + 1
  | ofBase only => only.depth
  | power base exponent => max base.depth exponent.depth
  | signedOperand _ argument => argument.depth + 1
  | ofPrimary only => only.depth + 1
  | ofGroup only => only.depth
  | number _ _ => 0
  | keywordGroup argument => argument.depth
  | keywordFactor argument => argument.depth
  | radical argument => argument.depth
  | group body => body.depth + 1

/--
Whether the text ends with the argument of a root that has no parentheses of its own.
-/
def endsInRoot {rule : Rule} : Derivation rule → Bool
  | ofTerm only => only.endsInRoot
  | sum _ _ _ right => right.endsInRoot
  | ofFactor only => only.endsInRoot
  | product _ _ _ right => right.endsInRoot
  | signedFactor _ argument => argument.endsInRoot
  | ofPowers only => only.endsInRoot
  | ofBase only => only.endsInRoot
  | power _ exponent => exponent.endsInRoot
  | signedOperand _ argument => argument.endsInRoot
  | ofPrimary only => only.endsInRoot
  | ofGroup _ => false
  | number _ _ => false
  | keywordGroup _ => false
  | keywordFactor _ => true
  | radical _ => true
  | group _ => false

/--
The choices that the grammar leaves open: the argument of a root without parentheses takes all
powers that follow it, and a parenthesis behind `sqrt` opens the whole argument.
-/
def IsCanonical {rule : Rule} : Derivation rule → Prop
  | ofTerm only => only.IsCanonical
  | sum left _ _ right => left.IsCanonical ∧ right.IsCanonical
  | ofFactor only => only.IsCanonical
  | product left _ _ right => left.IsCanonical ∧ right.IsCanonical
  | signedFactor _ argument => argument.IsCanonical
  | ofPowers only => only.IsCanonical
  | ofBase only => only.IsCanonical
  | power base exponent =>
    base.IsCanonical ∧ exponent.IsCanonical ∧ base.endsInRoot = false
  | signedOperand _ argument => argument.IsCanonical
  | ofPrimary only => only.IsCanonical
  | ofGroup only => only.IsCanonical
  | number _ _ => True
  | keywordGroup argument => argument.IsCanonical
  | keywordFactor argument => argument.IsCanonical ∧ argument.chars.head? ≠ some '('
  | radical argument => argument.IsCanonical
  | group body => body.IsCanonical

def tree {rule : Rule} : Derivation rule → Expr
  | ofTerm only => only.tree
  | sum left op _ right => .binary op left.tree right.tree
  | ofFactor only => only.tree
  | product left op _ right => .binary op left.tree right.tree
  | signedFactor sign argument => .signed sign argument.tree
  | ofPowers only => only.tree
  | ofBase only => only.tree
  | power base exponent => .binary .pow base.tree exponent.tree
  | signedOperand sign argument => .signed sign argument.tree
  | ofPrimary only => only.tree
  | ofGroup only => only.tree
  | number numeral _ => .number numeral
  | keywordGroup argument => .root .keyword argument.tree
  | keywordFactor argument => .root .keyword argument.tree
  | radical argument => .root .radical argument.tree
  | group body => .group body.tree

/--
What the tree is evaluated to.
-/
def value (d : Derivation rule) : Binary64 := d.tree.value

theorem value_tree (d : Derivation rule) : d.tree.value = d.value := rfl

theorem value_sum (left : Derivation .expression) (op : BinaryOp) (h : op.rule = .expression)
    (right : Derivation .term) :
    (sum left op h right).value = op.apply left.value right.value := rfl

theorem value_product (left : Derivation .term) (op : BinaryOp) (h : op.rule = .term)
    (right : Derivation .factor) :
    (product left op h right).value = op.apply left.value right.value := rfl

end Derivation

-- The longest runs of digits and points: what stands between two of them separates numbers.
def numericRuns (text : List Char) : List (List Char) :=
  (text.splitOnP (!Cursor.isNumeric ·)).filter (· ≠ [])

def Expr.numerals : Expr → List Numeral
  | .number numeral => [numeral]
  | .group body => body.numerals
  | .root _ argument => argument.numerals
  | .signed _ operand => operand.numerals
  | .binary _ left right => left.numerals ++ right.numerals

/--
`d` is the derivation of a text behind which `missing` closing parentheses are added.
-/
structure Derivation.Completes (d : Derivation .expression) (text : List Char) (missing : Nat) :
    Prop where
  chars : d.chars = text ++ List.replicate missing ')'
  canonical : d.IsCanonical
  numbers : d.tree.numerals.map Numeral.chars = numericRuns d.chars

end Calculator
