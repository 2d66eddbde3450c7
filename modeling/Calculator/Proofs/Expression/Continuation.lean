import Calculator.Proofs.Expression.Unambiguity
import Calculator.Proofs.Number.SignedZero

/-!
This module contains continuations: derivations that start with a number, without that number. They
say what may be put in its place, and what is left of an expression without its first number.
-/

namespace Calculator

namespace BinaryOp

variable {op : BinaryOp} {sign : Sign}

theorem symbol_mem_operators (op : BinaryOp) : op.symbol ∈ op.rule.operators := by
  cases op <;> decide

/--
A sign in front of a dividend or a factor is a sign in front of the result.
-/
theorem apply_sign (hop : op.rule = .term) (x y : Binary64) :
    op.apply (sign.apply x) y = sign.apply (op.apply x y) := by
  cases sign with
  | plus => rfl
  | minus =>
    cases op with
    | mul => exact Binary64.neg_mul x y
    | div => exact Binary64.neg_div x y
    | mod => exact Binary64.neg_mod x y
    | add | sub | pow => cases hop

theorem eqOrNegZero_apply {x y : Binary64} (hop : op.rule = .expression)
    (h : Binary64.EqOrNegZero x y) (z : Binary64) :
    Binary64.EqOrNegZero (op.apply x z) (op.apply y z) := by
  cases op with
  | add => exact h.add z
  | sub => exact h.add (-z)
  | mul | div | mod | pow => cases hop

theorem eqOrNegZero_apply_zero (hop : op.symbol = sign.symbol) (x : Binary64) :
    Binary64.EqOrNegZero (op.apply (.zero false) x) (sign.apply x) := by
  cases sign with
  | plus =>
    cases op with
    | add => exact Binary64.eqOrNegZero_zero_add x
    | sub | mul | div | mod | pow => cases hop
  | minus =>
    cases op with
    | sub => exact Binary64.eqOrNegZero_zero_add (-x)
    | add | mul | div | mod | pow => cases hop

end BinaryOp

inductive Continuation : Rule → Type where
  | ofTerm (only : Continuation .term) : Continuation .expression
  | sum (left : Continuation .expression) (op : BinaryOp) (h : op.rule = .expression)
      (right : Derivation .term) : Continuation .expression
  | ofFactor (only : Continuation .factor) : Continuation .term
  | product (left : Continuation .term) (op : BinaryOp) (h : op.rule = .term)
      (right : Derivation .factor) : Continuation .term
  | ofPowers (only : Continuation .powers) : Continuation .factor
  | ofBase (only : Continuation .primary) : Continuation .powers
  | power (base : Continuation .powers) (exponent : Derivation .operand) : Continuation .powers
  | ofPrimary (only : Continuation .primary) : Continuation .operand
  | nothing : Continuation .primary

namespace Continuation

variable {rule : Rule}

def chars {rule : Rule} : Continuation rule → List Char
  | ofTerm only => only.chars
  | sum left op _ right => left.chars ++ op.symbol :: right.chars
  | ofFactor only => only.chars
  | product left op _ right => left.chars ++ op.symbol :: right.chars
  | ofPowers only => only.chars
  | ofBase only => only.chars
  | power base exponent => base.chars ++ '^' :: exponent.chars
  | ofPrimary only => only.chars
  | nothing => []

def behind {rule : Rule} (n : Numeral) (h : n.IsWellFormed) : Continuation rule → Derivation rule
  | ofTerm only => .ofTerm (only.behind n h)
  | sum left op hop right => .sum (left.behind n h) op hop right
  | ofFactor only => .ofFactor (only.behind n h)
  | product left op hop right => .product (left.behind n h) op hop right
  | ofPowers only => .ofPowers (only.behind n h)
  | ofBase only => .ofBase (only.behind n h)
  | power base exponent => .power (base.behind n h) exponent
  | ofPrimary only => .ofPrimary (only.behind n h)
  | nothing => .number n h

variable {n m : Numeral} {hn : n.IsWellFormed} {hm : m.IsWellFormed} {c : Continuation rule}

theorem chars_behind (c : Continuation rule) : (c.behind n hn).chars = n.chars ++ c.chars := by
  induction c with
  | nothing => simp [behind, Derivation.chars, chars]
  | _ => simp_all [behind, Derivation.chars, chars]

theorem depth_behind (c : Continuation rule) : (c.behind n hn).depth = (c.behind m hm).depth := by
  induction c with
  | nothing => rfl
  | _ => simp_all [behind, Derivation.depth]

theorem value_behind (h : n.toDecimal.toBinary64 = m.toDecimal.toBinary64) (c : Continuation rule) :
    (c.behind n hn).value = (c.behind m hm).value := by
  induction c with
  | nothing => exact h
  | _ => simp_all [behind, Derivation.value, Derivation.tree, Expr.value]

theorem endsInRoot_behind (c : Continuation rule) :
    (c.behind n hn).endsInRoot = (c.behind m hm).endsInRoot := by
  induction c with
  | nothing => rfl
  | _ => simp_all [behind, Derivation.endsInRoot]

theorem isCanonical_behind (c : Continuation rule) (h : (c.behind n hn).IsCanonical) :
    (c.behind m hm).IsCanonical := by
  induction c with
  | nothing => trivial
  | ofTerm _ ih | ofFactor _ ih | ofPowers _ ih | ofBase _ ih | ofPrimary _ ih => exact ih h
  | sum _ _ _ _ ih | product _ _ _ _ ih => exact ⟨ih h.1, h.2⟩
  | power base _ ih => exact ⟨ih h.1, h.2.1, base.endsInRoot_behind.trans h.2.2⟩

theorem forall_head?_append {front back : List Char} {operators : List Char} {op : BinaryOp}
    (hfront : ∀ x ∈ front.head?, x ∈ operators) (hop : op.symbol ∈ operators) :
    ∀ x ∈ (front ++ op.symbol :: back).head?, x ∈ operators := by
  intro x hx
  cases front with
  | nil =>
    cases hx
    exact hop
  | cons first front => exact hfront x hx

/--
A number is only followed by an operator of the chains that it is part of.
-/
theorem head?_mem_operators (c : Continuation rule) : ∀ x ∈ c.chars.head?, x ∈ rule.operators := by
  induction c with
  | ofTerm _ ih | ofFactor _ ih =>
    intro x hx
    have hop := ih x hx
    simp only [Rule.operators, List.mem_cons, List.not_mem_nil, or_false] at hop ⊢
    simp [hop]
  | ofPowers _ ih => exact ih
  | ofBase _ ih | ofPrimary _ ih =>
    intro x hx
    cases ih x hx
  | sum _ op hop _ ih | product _ op hop _ ih =>
    exact forall_head?_append ih (hop ▸ op.symbol_mem_operators)
  | power _ _ ih => exact forall_head?_append ih BinaryOp.pow.symbol_mem_operators
  | nothing =>
    intro x hx
    cases hx

theorem exists_numeric_head? (left : Derivation rule) {back : List Char}
    (h : ∃ x ∈ (left.chars ++ back).head?, Cursor.isNumeric x = true) :
    ∃ x ∈ left.chars.head?, Cursor.isNumeric x = true := by
  obtain ⟨x, hx, -⟩ := left.exists_head?_chars
  obtain ⟨tail, hchars⟩ := List.head?_eq_some_iff.mp hx
  rw [hchars] at h ⊢
  exact h

theorem exists_eq_behind (d : Derivation rule)
    (h : ∃ x ∈ d.chars.head?, Cursor.isNumeric x = true) :
    ∃ (c : Continuation rule) (n : Numeral) (hn : n.IsWellFormed), d = c.behind n hn := by
  induction d with
  | ofTerm _ ih =>
    obtain ⟨c, n, hn, rfl⟩ := ih h
    exact ⟨.ofTerm c, n, hn, rfl⟩
  | ofFactor _ ih =>
    obtain ⟨c, n, hn, rfl⟩ := ih h
    exact ⟨.ofFactor c, n, hn, rfl⟩
  | ofPowers _ ih =>
    obtain ⟨c, n, hn, rfl⟩ := ih h
    exact ⟨.ofPowers c, n, hn, rfl⟩
  | ofBase _ ih =>
    obtain ⟨c, n, hn, rfl⟩ := ih h
    exact ⟨.ofBase c, n, hn, rfl⟩
  | ofPrimary _ ih =>
    obtain ⟨c, n, hn, rfl⟩ := ih h
    exact ⟨.ofPrimary c, n, hn, rfl⟩
  | sum left op hop right ih =>
    obtain ⟨c, n, hn, rfl⟩ := ih (exists_numeric_head? left h)
    exact ⟨.sum c op hop right, n, hn, rfl⟩
  | product left op hop right ih =>
    obtain ⟨c, n, hn, rfl⟩ := ih (exists_numeric_head? left h)
    exact ⟨.product c op hop right, n, hn, rfl⟩
  | power base exponent ih =>
    obtain ⟨c, n, hn, rfl⟩ := ih (exists_numeric_head? base h)
    exact ⟨.power c exponent, n, hn, rfl⟩
  | number n hn => exact ⟨.nothing, n, hn, rfl⟩
  | signedFactor sign | signedOperand sign =>
    obtain ⟨x, hx, hnumeric⟩ := h
    cases hx
    cases sign <;> cases hnumeric
  | ofGroup only =>
    cases only
    obtain ⟨x, hx, hnumeric⟩ := h
    cases hx
    cases hnumeric
  | keywordGroup | keywordFactor | radical | group =>
    obtain ⟨x, hx, hnumeric⟩ := h
    cases hx
    exact absurd hnumeric (by decide)

theorem value_behind_of_chars_eq_nil {c : Continuation rule} (h : c.chars = []) :
    (c.behind n hn).value = n.toDecimal.toBinary64 := by
  induction c with
  | nothing => rfl
  | ofTerm _ ih | ofFactor _ ih | ofPowers _ ih | ofBase _ ih | ofPrimary _ ih => exact ih h
  | sum | product | power => simp [chars] at h

end Continuation

namespace Derivation

/--
The term with a sign in front of its first factor.
-/
def withSign (sign : Sign) : Derivation .term → Derivation .term
  | ofFactor only => ofFactor (signedFactor sign only)
  | product left op h right => product (withSign sign left) op h right

variable {sign : Sign}

theorem chars_withSign (d : Derivation .term) :
    (d.withSign sign).chars = sign.symbol :: d.chars := by
  fun_induction withSign sign d with
  | case1 only => rfl
  | case2 left op h right ih => rw [chars, ih, List.cons_append, chars]

theorem value_withSign (d : Derivation .term) : (d.withSign sign).value = sign.apply d.value := by
  fun_induction withSign sign d with
  | case1 only => rfl
  | case2 left op h right ih => rw [value_product, ih, BinaryOp.apply_sign h, value_product]

theorem depth_withSign_le (d : Derivation .term) : (d.withSign sign).depth ≤ d.depth + 1 := by
  fun_induction withSign sign d with
  | case1 only => exact Nat.le_refl _
  | case2 left op h right ih =>
    simp only [depth]
    omega

theorem isCanonical_withSign {d : Derivation .term} (h : d.IsCanonical) :
    (d.withSign sign).IsCanonical := by
  fun_induction withSign sign d with
  | case1 only => exact h
  | case2 left op hop right ih => exact ⟨ih h.1, h.2⟩

end Derivation

namespace Continuation

variable {n : Numeral} {hn : n.IsWellFormed} {sign : Sign}

theorem chars_ofTerm_ne_signed (c : Continuation .term) {tail : List Char} :
    (Continuation.ofTerm c).chars ≠ sign.symbol :: tail := by
  intro h
  have hop := c.head?_mem_operators sign.symbol (by rw [chars] at h; rw [h]; rfl)
  cases sign <;> revert hop <;> decide

/--
A zero in front of a sign is an operand of its own. Without it the sign is one of the first factor,
which is nested a level deeper then.
-/
theorem exists_signed_of_zero (c : Continuation .expression) {tail : List Char}
    (hzero : n.toDecimal.toBinary64 = .zero false) (hsign : c.chars = sign.symbol :: tail)
    (hcanonical : (c.behind n hn).IsCanonical) :
    ∃ d : Derivation .expression, d.chars = c.chars ∧ d.IsCanonical
      ∧ d.depth ≤ (c.behind n hn).depth + 1
      ∧ Binary64.EqOrNegZero (c.behind n hn).value d.value := by
  match c with
  | .ofTerm only => exact absurd hsign only.chars_ofTerm_ne_signed
  | .sum left op hop right =>
    rw [chars] at hsign
    by_cases hleft : left.chars = []
    · rw [hleft, List.nil_append, List.cons.injEq] at hsign
      refine ⟨.ofTerm (right.withSign sign), ?_, right.isCanonical_withSign hcanonical.2, ?_, ?_⟩
      · rw [Derivation.chars, right.chars_withSign, chars, hleft, List.nil_append, hsign.1]
      · have hdepth := @right.depth_withSign_le sign
        simp only [behind, Derivation.depth]
        omega
      · have hsigned : (Derivation.ofTerm (right.withSign sign)).value = sign.apply right.value :=
          right.value_withSign
        rw [hsigned, behind, Derivation.value_sum, value_behind_of_chars_eq_nil hleft, hzero]
        exact BinaryOp.eqOrNegZero_apply_zero hsign.1 right.value
    · obtain ⟨first, rest, hfirst⟩ := List.exists_cons_of_ne_nil hleft
      rw [hfirst, List.cons_append, List.cons.injEq] at hsign
      obtain ⟨rfl, -⟩ := hsign
      obtain ⟨d, hchars, hd, hdepth, hvalue⟩ :=
        left.exists_signed_of_zero hzero hfirst hcanonical.1
      refine ⟨.sum d op hop right, ?_, ⟨hd, hcanonical.2⟩, ?_, ?_⟩
      · rw [Derivation.chars, hchars, chars]
      · simp only [behind, Derivation.depth]
        omega
      · rw [behind, Derivation.value_sum, Derivation.value_sum]
        exact BinaryOp.eqOrNegZero_apply hop hvalue right.value

end Continuation

end Calculator
