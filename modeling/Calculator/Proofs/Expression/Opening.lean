import Calculator.Proofs.Expression.Unambiguity

/-!
This module contains openings: derivations that are cut off in front of an operand, which is missing.
A primary that fills the gap makes a derivation of them again.
-/

namespace Calculator

/--
What comes before the missing operand. All that stands there is either complete, like the left side
of an operator, or still open, like the group around the gap.
-/
inductive Opening : Rule → Type where
  | ofTerm (only : Opening .term) : Opening .expression
  | sum (left : Derivation .expression) (op : BinaryOp) (h : op.rule = .expression)
      (right : Opening .term) : Opening .expression
  | ofFactor (only : Opening .factor) : Opening .term
  | product (left : Derivation .term) (op : BinaryOp) (h : op.rule = .term)
      (right : Opening .factor) : Opening .term
  | signedFactor (sign : Sign) (argument : Opening .factor) : Opening .factor
  | ofPowers (only : Opening .powers) : Opening .factor
  | ofBase (only : Opening .primary) : Opening .powers
  | power (base : Derivation .powers) (exponent : Opening .operand) : Opening .powers
  | signedOperand (sign : Sign) (argument : Opening .operand) : Opening .operand
  | ofPrimary (only : Opening .primary) : Opening .operand
  | gap : Opening .primary
  | ofGroup (only : Opening .group) : Opening .primary
  | keywordGroup (argument : Opening .group) : Opening .primary
  | keywordFactor (argument : Opening .factor) : Opening .primary
  | radical (argument : Opening .factor) : Opening .primary
  | group (body : Opening .expression) : Opening .group

namespace Opening

variable {rule : Rule}

def chars {rule : Rule} : Opening rule → List Char
  | ofTerm only => only.chars
  | sum left op _ right => left.chars ++ op.symbol :: right.chars
  | ofFactor only => only.chars
  | product left op _ right => left.chars ++ op.symbol :: right.chars
  | signedFactor sign argument => sign.symbol :: argument.chars
  | ofPowers only => only.chars
  | ofBase only => only.chars
  | power base exponent => base.chars ++ '^' :: exponent.chars
  | signedOperand sign argument => sign.symbol :: argument.chars
  | ofPrimary only => only.chars
  | gap => []
  | ofGroup only => only.chars
  | keywordGroup argument => "sqrt".toList ++ argument.chars
  | keywordFactor argument => "sqrt".toList ++ argument.chars
  | radical argument => '√' :: argument.chars
  | group body => '(' :: body.chars

def depth {rule : Rule} : Opening rule → Nat
  | ofTerm only => only.depth
  | sum left _ _ right => max left.depth right.depth
  | ofFactor only => only.depth
  | product left _ _ right => max left.depth right.depth
  | signedFactor _ argument => argument.depth + 1
  | ofPowers only => only.depth + 1
  | ofBase only => only.depth
  | power base exponent => max base.depth exponent.depth
  | signedOperand _ argument => argument.depth + 1
  | ofPrimary only => only.depth + 1
  | gap => 0
  | ofGroup only => only.depth
  | keywordGroup argument => argument.depth
  | keywordFactor argument => argument.depth
  | radical argument => argument.depth
  | group body => body.depth + 1

def IsCanonical {rule : Rule} : Opening rule → Prop
  | ofTerm only => only.IsCanonical
  | sum left _ _ right => left.IsCanonical ∧ right.IsCanonical
  | ofFactor only => only.IsCanonical
  | product left _ _ right => left.IsCanonical ∧ right.IsCanonical
  | signedFactor _ argument => argument.IsCanonical
  | ofPowers only => only.IsCanonical
  | ofBase only => only.IsCanonical
  | power base exponent =>
    base.IsCanonical ∧ exponent.IsCanonical ∧ base.endsInRoot = false
  | signedOperand _ argument => argument.IsCanonical
  | ofPrimary only => only.IsCanonical
  | gap => True
  | ofGroup only => only.IsCanonical
  | keywordGroup argument => argument.IsCanonical
  | keywordFactor argument => argument.IsCanonical ∧ argument.chars.head? ≠ some '('
  | radical argument => argument.IsCanonical
  | group body => body.IsCanonical

/--
The number of groups around the gap.
-/
def unclosed {rule : Rule} : Opening rule → Nat
  | ofTerm only => only.unclosed
  | sum _ _ _ right => right.unclosed
  | ofFactor only => only.unclosed
  | product _ _ _ right => right.unclosed
  | signedFactor _ argument => argument.unclosed
  | ofPowers only => only.unclosed
  | ofBase only => only.unclosed
  | power _ exponent => exponent.unclosed
  | signedOperand _ argument => argument.unclosed
  | ofPrimary only => only.unclosed
  | gap => 0
  | ofGroup only => only.unclosed
  | keywordGroup argument => argument.unclosed
  | keywordFactor argument => argument.unclosed
  | radical argument => argument.unclosed
  | group body => body.unclosed + 1

def fill {rule : Rule} (operand : Derivation .primary) : Opening rule → Derivation rule
  | ofTerm only => .ofTerm (only.fill operand)
  | sum left op h right => .sum left op h (right.fill operand)
  | ofFactor only => .ofFactor (only.fill operand)
  | product left op h right => .product left op h (right.fill operand)
  | signedFactor sign argument => .signedFactor sign (argument.fill operand)
  | ofPowers only => .ofPowers (only.fill operand)
  | ofBase only => .ofBase (only.fill operand)
  | power base exponent => .power base (exponent.fill operand)
  | signedOperand sign argument => .signedOperand sign (argument.fill operand)
  | ofPrimary only => .ofPrimary (only.fill operand)
  | gap => operand
  | ofGroup only => .ofGroup (only.fill operand)
  | keywordGroup argument => .keywordGroup (argument.fill operand)
  | keywordFactor argument => .keywordFactor (argument.fill operand)
  | radical argument => .radical (argument.fill operand)
  | group body => .group (body.fill operand)

variable {operand : Derivation .primary}

theorem chars_fill (o : Opening rule) :
    (o.fill operand).chars = o.chars ++ operand.chars ++ List.replicate o.unclosed ')' := by
  induction o with
  | gap => simp [fill, chars, unclosed]
  | group body ih =>
    simp only [fill, Derivation.chars, chars, unclosed, ih, List.replicate_succ', List.cons_append,
      List.append_assoc]
  | _ => simp_all [fill, Derivation.chars, chars, unclosed]

theorem depth_fill (h : operand.depth = 0) (o : Opening rule) :
    (o.fill operand).depth = o.depth := by
  induction o with
  | gap => exact h
  | _ => simp_all [fill, Derivation.depth, depth]

theorem isCanonical_fill (h : operand.IsCanonical) (hopen : operand.chars.head? ≠ some '(')
    {o : Opening rule} (ho : o.IsCanonical) : (o.fill operand).IsCanonical := by
  induction o with
  | gap => exact h
  | keywordFactor argument ih =>
    refine ⟨ih ho.1, ?_⟩
    -- The argument starts as its opening does, or as the operand that fills the gap.
    rw [chars_fill]
    cases hchars : argument.chars with
    | nil =>
      obtain ⟨c, hc, -⟩ := operand.exists_head?_chars
      obtain ⟨tail, hoperand⟩ := List.head?_eq_some_iff.mp hc
      simpa [hoperand] using hopen
    | cons c tail => simpa [hchars] using ho.2
  | sum left op hrule right ih => exact ⟨ho.1, ih ho.2⟩
  | product left op hrule right ih => exact ⟨ho.1, ih ho.2⟩
  | power base exponent ih => exact ⟨ho.1, ih ho.2.1, ho.2.2⟩
  | ofTerm _ ih | ofFactor _ ih | ofPowers _ ih | ofBase _ ih | ofPrimary _ ih | ofGroup _ ih
  | keywordGroup _ ih | radical _ ih | group _ ih => exact ih ho
  | signedFactor _ _ ih | signedOperand _ _ ih => exact ih ho

theorem notNumeric_getLast?_append_cons {front back : List Char} {c : Char}
    (hc : Cursor.isNumeric c = false) (hback : ∀ x ∈ back.getLast?, Cursor.isNumeric x = false) :
    ∀ x ∈ (front ++ c :: back).getLast?, Cursor.isNumeric x = false := by
  intro x hx
  rw [List.getLast?_append, List.getLast?_cons, Option.some_or, Option.mem_some_iff] at hx
  subst hx
  cases hlast : back.getLast? with
  | none => exact hc
  | some last => exact hback last hlast

/--
No number ends in front of the gap, so whatever fills it does not continue one.
-/
theorem notNumeric_getLast?_chars (o : Opening rule) :
    ∀ c ∈ o.chars.getLast?, Cursor.isNumeric c = false := by
  induction o with
  | ofTerm _ ih | ofFactor _ ih | ofPowers _ ih | ofBase _ ih | ofPrimary _ ih | ofGroup _ ih =>
    exact ih
  | gap => nofun
  | sum _ op _ _ ih | product _ op _ _ ih =>
    exact notNumeric_getLast?_append_cons (Derivation.isNumeric_symbol op) ih
  | power _ _ ih => exact notNumeric_getLast?_append_cons rfl ih
  | signedFactor sign _ ih | signedOperand sign _ ih =>
    have hsign : Cursor.isNumeric sign.symbol = false := by cases sign <;> rfl
    exact @notNumeric_getLast?_append_cons [] _ _ hsign ih
  | keywordGroup _ ih | keywordFactor _ ih =>
    have hkeyword : "sqrt".toList = "sqr".toList ++ ['t'] := rfl
    rw [chars, hkeyword, List.append_assoc]
    exact notNumeric_getLast?_append_cons rfl ih
  | radical _ ih => exact @notNumeric_getLast?_append_cons [] _ '√' (by decide) ih
  | group _ ih => exact @notNumeric_getLast?_append_cons [] _ '(' rfl ih

end Opening

end Calculator
