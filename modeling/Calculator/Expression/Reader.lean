import Calculator.Expression.Cursor
import Calculator.Expression.SyntaxError
import Calculator.Expression.Tree

/-!
This module contains the readers that the grammar of expressions is made of. A reader that succeeds
has consumed at least one character, which is why repetition ends.
-/

namespace Calculator

/--
What a reader has read, and the place where it stopped.
-/
structure Reading where
  expr : Expr
  next : Cursor

structure Reader where
  read : Cursor → Except SyntaxError Reading
  remaining_lt : ∀ {start : Cursor} {result : Reading},
    read start = .ok result → result.next.remaining < start.remaining

namespace Reader

def fail (cause : Cursor → SyntaxError) : Reader where
  read start := .error (cause start)
  remaining_lt h := nomatch h

/--
Refuse a text that does not go on with an operand.
-/
def noOperand : Reader :=
  fail fun start =>
    match start.current? with
    | some found => .unexpectedChar found start.position
    | none => .unexpectedEnd

def map (f : Expr → Expr) (reader : Reader) : Reader where
  read start := (reader.read start).map fun result => ⟨f result.expr, result.next⟩
  remaining_lt {start result} h := by
    cases hread : reader.read start with
    | error => simp [hread, Except.map] at h
    | ok inner =>
      simp only [hread, Except.map, Except.ok.injEq] at h
      subst h
      have hlt := reader.remaining_lt hread
      exact hlt

/--
Read with `inside` behind `keyword`, and with `otherwise` if `keyword` is not there.
-/
def afterKeyword (keyword : String) (inside otherwise : Reader) : Reader where
  read start :=
    match start.eatKeyword? keyword with
    | some next => inside.read next
    | none => otherwise.read start
  remaining_lt {start result} h := by
    split at h
    · next next hnext =>
      exact Nat.lt_of_lt_of_le (inside.remaining_lt h) (Cursor.remaining_eatKeyword?_le hnext)
    · exact otherwise.remaining_lt h

/--
Read the longest possible number, or with `otherwise` if there is no character of a number.
-/
def numberOr (otherwise : Reader) : Reader where
  read start :=
    if start.number = [] then
      otherwise.read start
    else
      match Numeral.ofChars? start.number with
      | some numeral => .ok ⟨.number numeral, start.skipNumber⟩
      | none => .error (.invalidNumber (String.ofList start.number))
  remaining_lt {start result} h := by
    split at h
    · exact otherwise.remaining_lt h
    · next hne =>
      split at h
      · cases h
        have hpos := List.length_pos_iff.mpr hne
        have hle := start.number_length_le
        simp only [Cursor.skipNumber, Cursor.remaining_skip]
        omega
      · cases h

/--
Consume a closing parenthesis behind what `reader` reads. It may be missing.
-/
def closing (reader : Reader) : Reader where
  read start :=
    (reader.read start).map fun result =>
      { result with next := (result.next.eatKeyword? ")").getD result.next }
  remaining_lt {start result} h := by
    cases hread : reader.read start with
    | error => simp [hread, Except.map] at h
    | ok inner =>
      simp only [hread, Except.map, Except.ok.injEq] at h
      subst h
      have hlt := reader.remaining_lt hread
      cases heat : inner.next.eatKeyword? ")" with
      | none => simpa [heat] using hlt
      | some next =>
        simpa [heat] using Nat.lt_of_le_of_lt (Cursor.remaining_eatKeyword?_le heat) hlt

/--
Extend what has been read by all operators that follow it and by their right operands. Operators of
one chain associate to the left.
-/
def extend (op? : Char → Option BinaryOp) (operand : Reader) (left : Reading) :
    Except SyntaxError Reading :=
  match hop : left.next.eatMap? op? with
  | none => .ok left
  | some (op, next) =>
    match hright : operand.read next with
    | .error cause => .error cause
    | .ok right =>
      have := Cursor.remaining_eatMap?_lt hop
      have := operand.remaining_lt hright
      extend op? operand ⟨.binary op left.expr right.expr, right.next⟩
termination_by left.next.remaining

theorem remaining_extend_le {op? : Char → Option BinaryOp} {operand : Reader}
    {left result : Reading} (h : extend op? operand left = .ok result) :
    result.next.remaining ≤ left.next.remaining := by
  fun_induction extend op? operand left with
  | case1 => cases h; exact Nat.le_refl _
  | case2 => cases h
  | case3 _ _ _ _ _ _ _ _ ih =>
    have := ih h
    dsimp only at this
    omega

/--
Read operands with operators between them, the first with `first`.
-/
def chain (op? : Char → Option BinaryOp) (first operand : Reader) : Reader where
  read start :=
    match first.read start with
    | .error cause => .error cause
    | .ok left => extend op? operand left
  remaining_lt {start result} h := by
    split at h
    · cases h
    · next left hleft =>
      exact Nat.lt_of_le_of_lt (remaining_extend_le h) (first.remaining_lt hleft)

end Reader

end Calculator
