import Calculator.Proofs.Expression.Reading

/-!
This module contains the rules of the grammar with a counter for the nesting level, which goes up
where a factor, an operand or a group starts and down again behind it. The largest level is
recorded, and a limit is only checked if there is one. Without a limit nothing but the text ends the
recursion.
-/

namespace Calculator

structure Counter where
  depth : Nat
  peak : Nat
deriving DecidableEq

namespace Counter

def zero : Counter := ⟨0, 0⟩

def down (counter : Counter) : Counter := ⟨counter.depth + 1, max counter.peak (counter.depth + 1)⟩

def up (counter : Counter) : Counter := { counter with depth := counter.depth - 1 }

end Counter

/--
A computation that counts levels. It has no outcome if it does not get on in the text.
-/
abbrev Counted := StateT Counter Option

namespace Counted

def wrap (f : Expr → Expr) (outcome : Except SyntaxError Reading) : Except SyntaxError Reading :=
  outcome.map fun result => ⟨f result.expr, result.next⟩

def close (body : Reading) : Reading :=
  ⟨.group body.expr, (body.next.eatKeyword? ")").getD body.next⟩

/--
Go on behind `start`, which is why the recursion of the rules ends. This check never fails.
-/
def onward {α : Type} (start next : Cursor) (m : next.remaining < start.remaining → Counted α) :
    Counted α :=
  if h : next.remaining < start.remaining then m h else failure

theorem onward_of_lt {α : Type} {start next : Cursor}
    {m : next.remaining < start.remaining → Counted α} (h : next.remaining < start.remaining) :
    onward start next m = m h :=
  dif_pos h

variable (limit? : Option Nat)

def descend : Counted (Except SyntaxError Unit) := do
  modify Counter.down
  match limit? with
  | some limit => return if (← get).depth > limit then .error (.tooDeeplyNested limit) else .ok ()
  | none => return .ok ()

mutual

def expression (start : Cursor) : Counted (Except SyntaxError Reading) := do
  match ← term start with
  | .error cause => return .error cause
  | .ok left => onward start left.next fun _ => sums left
termination_by (start.remaining, 5)

def sums (left : Reading) : Counted (Except SyntaxError Reading) :=
  match left.next.eatMap? BinaryOp.additive? with
  | none => return .ok left
  | some (op, next) => do
    match ← onward left.next next fun _ => term next with
    | .error cause => return .error cause
    | .ok right =>
      onward left.next right.next fun _ => sums ⟨.binary op left.expr right.expr, right.next⟩
termination_by (left.next.remaining, 0)

def term (start : Cursor) : Counted (Except SyntaxError Reading) := do
  match ← factor start with
  | .error cause => return .error cause
  | .ok left => onward start left.next fun _ => products left
termination_by (start.remaining, 4)

def products (left : Reading) : Counted (Except SyntaxError Reading) :=
  match left.next.eatMap? BinaryOp.multiplicative? with
  | none => return .ok left
  | some (op, next) => do
    match ← onward left.next next fun _ => factor next with
    | .error cause => return .error cause
    | .ok right =>
      onward left.next right.next fun _ => products ⟨.binary op left.expr right.expr, right.next⟩
termination_by (left.next.remaining, 0)

/--
The level is left with and without an error, as by an operand. A group leaves it without one only.
-/
def factor (start : Cursor) : Counted (Except SyntaxError Reading) := do
  match ← descend limit? with
  | .error cause => return .error cause
  | .ok () =>
    let outcome ← signedFactor start
    modify Counter.up
    return outcome
termination_by (start.remaining, 3)

def signedFactor (start : Cursor) : Counted (Except SyntaxError Reading) :=
  match start.eatKeyword? "+" with
  | some next => wrap (.signed .plus) <$> onward start next fun _ => factor next
  | none =>
    match start.eatKeyword? "-" with
    | some next => wrap (.signed .minus) <$> onward start next fun _ => factor next
    | none => powers start
termination_by (start.remaining, 2)

def powers (start : Cursor) : Counted (Except SyntaxError Reading) := do
  match ← primary start with
  | .error cause => return .error cause
  | .ok base => onward start base.next fun _ => exponents base
termination_by (start.remaining, 1)

def exponents (left : Reading) : Counted (Except SyntaxError Reading) :=
  match left.next.eatMap? BinaryOp.power? with
  | none => return .ok left
  | some (op, next) => do
    match ← onward left.next next fun _ => operand next with
    | .error cause => return .error cause
    | .ok right =>
      onward left.next right.next fun _ => exponents ⟨.binary op left.expr right.expr, right.next⟩
termination_by (left.next.remaining, 0)

def operand (start : Cursor) : Counted (Except SyntaxError Reading) := do
  match ← descend limit? with
  | .error cause => return .error cause
  | .ok () =>
    let outcome ← signedOperand start
    modify Counter.up
    return outcome
termination_by (start.remaining, 2)

def signedOperand (start : Cursor) : Counted (Except SyntaxError Reading) :=
  match start.eatKeyword? "+" with
  | some next => wrap (.signed .plus) <$> onward start next fun _ => operand next
  | none =>
    match start.eatKeyword? "-" with
    | some next => wrap (.signed .minus) <$> onward start next fun _ => operand next
    | none => primary start
termination_by (start.remaining, 1)

def primary (start : Cursor) : Counted (Except SyntaxError Reading) :=
  match start.eatKeyword? "(" with
  | some next => onward start next fun _ => group next
  | none =>
    if start.number = [] then
      match start.eatKeyword? "sqrt" with
      | some next => onward start next fun _ => keywordRoot next
      | none =>
        match start.eatKeyword? "√" with
        | some next => wrap (.root .radical) <$> onward start next fun _ => factor next
        | none =>
          match start.current? with
          | some found => return .error (.unexpectedChar found start.position)
          | none => return .error .unexpectedEnd
    else
      match Numeral.ofChars? start.number with
      | some numeral => return .ok ⟨.number numeral, start.skipNumber⟩
      | none => return .error (.invalidNumber (String.ofList start.number))
termination_by (start.remaining, 0)

def keywordRoot (start : Cursor) : Counted (Except SyntaxError Reading) :=
  match start.eatKeyword? "(" with
  | some next => wrap (.root .keyword) <$> onward start next fun _ => group next
  | none => wrap (.root .keyword) <$> factor start
termination_by (start.remaining, 4)

def group (start : Cursor) : Counted (Except SyntaxError Reading) := do
  match ← descend limit? with
  | .error cause => return .error cause
  | .ok () =>
    match ← expression start with
    | .error cause => return .error cause
    | .ok body =>
      modify Counter.up
      return .ok (close body)
termination_by (start.remaining, 6)

end

/--
An expression is the whole of a text, so nothing is left behind it.
-/
def complete (outcome : Except SyntaxError Reading) : Except SyntaxError Expr :=
  match outcome with
  | .error cause => .error cause
  | .ok result =>
    match result.next.current? with
    | some found => .error (.trailingInput found result.next.position)
    | none => .ok result.expr

/--
The outcome for a text together with the counter at its end.
-/
def evaluate (text : String) : Option (Except SyntaxError Binary64 × Counter) :=
  (do
    let outcome ← expression limit? (.ofString (Expr.normalize text))
    return (complete outcome).map Expr.value).run .zero

/--
The rule that stands behind a rule of the grammar. That of a group starts behind its parenthesis.
-/
def rule : Rule → Cursor → Counted (Except SyntaxError Reading)
  | .expression => expression limit?
  | .term => term limit?
  | .factor => factor limit?
  | .powers => powers limit?
  | .operand => operand limit?
  | .primary => primary limit?
  | .group => group limit?

end Counted

end Calculator
