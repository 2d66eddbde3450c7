import Calculator.Proofs.Expression.Acceptance
import Calculator.Proofs.Number.Approximation

/-!
This module contains the values of derivations and the theorem that ties the evaluation of a text to
them: a text has a value exactly if closing parentheses at its end make it derivable, and then it
has the value of its only derivation.
-/

namespace Calculator

namespace Derivation

/--
What a derivation is worth. The operators are those of `Binary64`, and a literal is worth the number
of the format that approximates what its digits denote.
-/
inductive HasValue : {rule : Rule} → Derivation rule → Binary64 → Prop where
  | ofTerm {only : Derivation .term} {x : Binary64} (hx : HasValue only x) :
    HasValue (.ofTerm only) x
  | add {left : Derivation .expression} {right : Derivation .term} {x y : Binary64}
    {h : BinaryOp.add.rule = .expression} (hx : HasValue left x) (hy : HasValue right y) :
    HasValue (.sum left .add h right) (x + y)
  | sub {left : Derivation .expression} {right : Derivation .term} {x y : Binary64}
    {h : BinaryOp.sub.rule = .expression} (hx : HasValue left x) (hy : HasValue right y) :
    HasValue (.sum left .sub h right) (x - y)
  | ofFactor {only : Derivation .factor} {x : Binary64} (hx : HasValue only x) :
    HasValue (.ofFactor only) x
  | mul {left : Derivation .term} {right : Derivation .factor} {x y : Binary64}
    {h : BinaryOp.mul.rule = .term} (hx : HasValue left x) (hy : HasValue right y) :
    HasValue (.product left .mul h right) (x * y)
  | div {left : Derivation .term} {right : Derivation .factor} {x y : Binary64}
    {h : BinaryOp.div.rule = .term} (hx : HasValue left x) (hy : HasValue right y) :
    HasValue (.product left .div h right) (x / y)
  | mod {left : Derivation .term} {right : Derivation .factor} {x y : Binary64}
    {h : BinaryOp.mod.rule = .term} (hx : HasValue left x) (hy : HasValue right y) :
    HasValue (.product left .mod h right) (x % y)
  | plusFactor {argument : Derivation .factor} {x : Binary64} (hx : HasValue argument x) :
    HasValue (.signedFactor .plus argument) x
  | minusFactor {argument : Derivation .factor} {x : Binary64} (hx : HasValue argument x) :
    HasValue (.signedFactor .minus argument) (-x)
  | ofPowers {only : Derivation .powers} {x : Binary64} (hx : HasValue only x) :
    HasValue (.ofPowers only) x
  | ofBase {only : Derivation .primary} {x : Binary64} (hx : HasValue only x) :
    HasValue (.ofBase only) x
  | power {base : Derivation .powers} {exponent : Derivation .operand} {x y : Binary64}
    (hx : HasValue base x) (hy : HasValue exponent y) : HasValue (.power base exponent) (x ^ y)
  | plusOperand {argument : Derivation .operand} {x : Binary64} (hx : HasValue argument x) :
    HasValue (.signedOperand .plus argument) x
  | minusOperand {argument : Derivation .operand} {x : Binary64} (hx : HasValue argument x) :
    HasValue (.signedOperand .minus argument) (-x)
  | ofPrimary {only : Derivation .primary} {x : Binary64} (hx : HasValue only x) :
    HasValue (.ofPrimary only) x
  | ofGroup {only : Derivation .group} {x : Binary64} (hx : HasValue only x) :
    HasValue (.ofGroup only) x
  | number {numeral : Numeral} {h : numeral.IsWellFormed} {x : Binary64}
    (hx : Binary64.Approximates numeral.toRat x) : HasValue (.number numeral h) x
  | keywordGroup {argument : Derivation .group} {x : Binary64} (hx : HasValue argument x) :
    HasValue (.keywordGroup argument) x.sqrt
  | keywordFactor {argument : Derivation .factor} {x : Binary64} (hx : HasValue argument x) :
    HasValue (.keywordFactor argument) x.sqrt
  | radical {argument : Derivation .factor} {x : Binary64} (hx : HasValue argument x) :
    HasValue (.radical argument) x.sqrt
  | group {body : Derivation .expression} {x : Binary64} (hx : HasValue body x) :
    HasValue (.group body) x

variable {rule : Rule}

theorem HasValue.value_eq {d : Derivation rule} {x : Binary64} (h : d.HasValue x) :
    d.value = x := by
  induction h with
  | ofTerm _ ih | ofFactor _ ih | ofPowers _ ih | ofBase _ ih | ofPrimary _ ih | ofGroup _ ih
  | group _ ih | plusFactor _ ih | plusOperand _ ih => exact ih
  | add _ _ ihx ihy | sub _ _ ihx ihy =>
    rw [value_sum, ihx, ihy]
    rfl
  | mul _ _ ihx ihy | div _ _ ihx ihy | mod _ _ ihx ihy =>
    rw [value_product, ihx, ihy]
    rfl
  | power _ _ ihx ihy =>
    rw [value, tree, Expr.value, value_tree, value_tree, ihx, ihy]
    rfl
  | minusFactor _ ih | minusOperand _ ih =>
    rw [value, tree, Expr.value, value_tree, ih]
    rfl
  | keywordGroup _ ih | keywordFactor _ ih | radical _ ih =>
    rw [value, tree, Expr.value, value_tree, ih]
  | number hx =>
    rw [value, tree, Expr.value]
    exact (Numeral.approximates_toRat_iff _ _).mp hx

theorem hasValue_value (d : Derivation rule) : d.HasValue d.value := by
  induction d with
  | ofTerm _ ih => exact .ofTerm ih
  | sum _ op h _ ihx ihy =>
    cases op with
    | add => exact .add ihx ihy
    | sub => exact .sub ihx ihy
    | mul | div | mod | pow => cases h
  | ofFactor _ ih => exact .ofFactor ih
  | product _ op h _ ihx ihy =>
    cases op with
    | mul => exact .mul ihx ihy
    | div => exact .div ihx ihy
    | mod => exact .mod ihx ihy
    | add | sub | pow => cases h
  | signedFactor sign _ ih =>
    cases sign with
    | plus => exact .plusFactor ih
    | minus => exact .minusFactor ih
  | ofPowers _ ih => exact .ofPowers ih
  | ofBase _ ih => exact .ofBase ih
  | power _ _ ihx ihy => exact .power ihx ihy
  | signedOperand sign _ ih =>
    cases sign with
    | plus => exact .plusOperand ih
    | minus => exact .minusOperand ih
  | ofPrimary _ ih => exact .ofPrimary ih
  | ofGroup _ ih => exact .ofGroup ih
  | number numeral _ => exact .number ((numeral.approximates_toRat_iff _).mpr rfl)
  | keywordGroup _ ih => exact .keywordGroup ih
  | keywordFactor _ ih => exact .keywordFactor ih
  | radical _ ih => exact .radical ih
  | group _ ih => exact .group ih

theorem hasValue_iff {d : Derivation rule} {x : Binary64} : d.HasValue x ↔ d.value = x := by
  constructor
  · exact HasValue.value_eq
  · rintro rfl
    exact d.hasValue_value

end Derivation

theorem evaluate_eq_ok_iff_derives (text : String) (v : Binary64) :
    (Expr.evaluate text = .ok v
        ↔ ∃ (missing : Nat) (d : Derivation .expression),
            d.Completes (Expr.normalize text).toList missing ∧ d.depth ≤ Expr.maxDepth
              ∧ d.HasValue v)
      ∧ ∀ {missing₁ missing₂ : Nat} {d₁ d₂ : Derivation .expression},
          d₁.Completes (Expr.normalize text).toList missing₁ →
          d₂.Completes (Expr.normalize text).toList missing₂ → missing₁ = missing₂ ∧ d₁ = d₂ := by
  refine ⟨?_, Derivation.Completes.unique⟩
  rw [Expr.evaluate_eq_ok_iff]
  constructor
  · rintro ⟨e, hparse, rfl⟩
    obtain ⟨missing, d, hcompletes, hdepth, rfl⟩ := Expr.parseWithin_eq_ok_iff.mp hparse
    exact ⟨missing, d, hcompletes, hdepth, d.hasValue_value⟩
  · rintro ⟨missing, d, hcompletes, hdepth, hvalue⟩
    exact ⟨d.tree, Expr.parseWithin_of_completes hcompletes hdepth, hvalue.value_eq⟩

namespace Derivation

/--
The derivation of `-2^2`, in which the sign stands before the power.
-/
def negatedSquare : Derivation .expression :=
  let two : Derivation .primary := .number ⟨['2'], none⟩ (by decide)
  .ofTerm (.ofFactor (.signedFactor .minus (.ofPowers (.power (.ofBase two) (.ofPrimary two)))))

theorem hasValue_negatedSquare :
    ∃ h, negatedSquare.HasValue (.finite true (4 * Binary64.one) h) :=
  ⟨⟨by decide +kernel, by decide +kernel⟩, hasValue_iff.mpr (by decide +kernel)⟩

/--
The derivation of `2^3^2`, in which one power is the base of the other.
-/
def powerOfPower : Derivation .expression :=
  let two : Derivation .primary := .number ⟨['2'], none⟩ (by decide)
  let three : Derivation .primary := .number ⟨['3'], none⟩ (by decide)
  .ofTerm (.ofFactor (.ofPowers
    (.power (.power (.ofBase two) (.ofPrimary three)) (.ofPrimary two))))

theorem hasValue_powerOfPower :
    ∃ h, powerOfPower.HasValue (.finite false (64 * Binary64.one) h) :=
  ⟨⟨by decide +kernel, by decide +kernel⟩, hasValue_iff.mpr (by decide +kernel)⟩

/--
The derivation of `√9+10%4*.5-1/2`.
-/
def mixedOperators : Derivation .expression :=
  let root : Derivation .factor :=
    .ofPowers (.ofBase (.radical (.ofNumeral ⟨['9'], none⟩ (by decide))))
  let half : Derivation .factor := .ofNumeral ⟨[], some ['5']⟩ (by decide)
  let rest : Derivation .term := .product (.ofFactor (.ofNumeral ⟨['1', '0'], none⟩ (by decide)))
    .mod rfl (.ofNumeral ⟨['4'], none⟩ (by decide))
  let quotient : Derivation .term := .product (.ofFactor (.ofNumeral ⟨['1'], none⟩ (by decide)))
    .div rfl (.ofNumeral ⟨['2'], none⟩ (by decide))
  .sum (.sum (.ofTerm (.ofFactor root)) .add rfl (.product rest .mul rfl half)) .sub rfl quotient

theorem hasValue_mixedOperators :
    ∃ h, mixedOperators.HasValue (.finite false (7 * Nat.pow 2 1073) h) :=
  ⟨⟨by decide +kernel, by decide +kernel⟩, hasValue_iff.mpr (by decide +kernel)⟩

end Derivation

theorem evaluate_eq_ok_iff_derives_powers :
    (∃ h, Expr.evaluate "-2^2" = .ok (.finite true (4 * Binary64.one) h))
      ∧ (∀ {missing : Nat} {d : Derivation .expression},
          d.Completes (Expr.normalize "-2^2").toList missing →
            missing = 0 ∧ d = Derivation.negatedSquare)
      ∧ (∃ h, Expr.evaluate "2^3^2" = .ok (.finite false (64 * Binary64.one) h))
      ∧ ∃ h, Expr.evaluate "√9+10%4*.5-1/2" = .ok (.finite false (7 * Nat.pow 2 1073) h) := by
  obtain ⟨h₄, hsquare⟩ := Derivation.hasValue_negatedSquare
  obtain ⟨h₆₄, hpower⟩ := Derivation.hasValue_powerOfPower
  obtain ⟨h, hmixed⟩ := Derivation.hasValue_mixedOperators
  have hcompletes : Derivation.negatedSquare.Completes (Expr.normalize "-2^2").toList 0 :=
    ⟨rfl, ⟨trivial, trivial, rfl⟩, Derivation.map_chars_numerals _⟩
  have hcompletes₂ : Derivation.powerOfPower.Completes (Expr.normalize "2^3^2").toList 0 :=
    ⟨rfl, ⟨⟨trivial, trivial, rfl⟩, trivial, rfl⟩, Derivation.map_chars_numerals _⟩
  have hcompletes₃ :
      Derivation.mixedOperators.Completes (Expr.normalize "√9+10%4*.5-1/2").toList 0 :=
    ⟨rfl, ⟨⟨trivial, ⟨trivial, trivial⟩, trivial⟩, trivial, trivial⟩,
      Derivation.map_chars_numerals _⟩
  refine ⟨⟨h₄, ?_⟩, ?_, ⟨h₆₄, ?_⟩, h, ?_⟩
  · exact (evaluate_eq_ok_iff_derives _ _).1.mpr ⟨0, _, hcompletes, by decide, hsquare⟩
  · intro missing d hother
    exact (evaluate_eq_ok_iff_derives "-2^2" (.finite true _ h₄)).2 hother hcompletes
  · exact (evaluate_eq_ok_iff_derives _ _).1.mpr ⟨0, _, hcompletes₂, by decide, hpower⟩
  · exact (evaluate_eq_ok_iff_derives _ _).1.mpr ⟨0, _, hcompletes₃, by decide, hmixed⟩

end Calculator
