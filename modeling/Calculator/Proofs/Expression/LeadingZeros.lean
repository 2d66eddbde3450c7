import Calculator.Proofs.Expression.Continuation
import Calculator.Proofs.Expression.FirstError
import Calculator.Proofs.Expression.Nesting

/-!
This module contains what becomes of an expression when the zeros that it starts with are dropped.
-/

namespace Calculator

namespace Numeral

theorem split_zeros_append (zeros : Nat) (text : List Char) :
    split (List.replicate zeros '0' ++ text)
      = ⟨List.replicate zeros '0' ++ (split text).whole, (split text).fraction?⟩ := by
  induction zeros with
  | zero => rfl
  | succ zeros ih => simp [List.replicate_succ, split, ih]

theorem split_chars {n : Numeral} (h : n.IsWellFormed) : split n.chars = n := by
  have hsome := ofChars?_chars h
  unfold ofChars? at hsome
  split at hsome
  · exact Option.some.inj hsome
  · cases hsome

/--
Zeros in front of a number do not count.
-/
theorem toDecimal_split_zeros_append (zeros : Nat) (text : List Char) :
    (split (List.replicate zeros '0' ++ text)).toDecimal = (split text).toDecimal := by
  rw [split_zeros_append]
  simp only [toDecimal, fraction, List.append_assoc, Nat.ofDigitChars_append,
    Nat.ofDigitChars_replicate_zero, Nat.mul_zero]

end Numeral

theorem Rule.notNumeric_of_mem_operators {rule : Rule} {x : Char} (h : x ∈ rule.operators) :
    Cursor.isNumeric x = false := by
  have hall : Rule.expression.operators.all (!Cursor.isNumeric ·) = true := by decide
  have hexpression : x ∈ Rule.expression.operators := by
    cases rule <;> simp only [operators, List.mem_cons, List.not_mem_nil, or_false] at h ⊢
    all_goals simp only [h, or_true]
  simpa using List.all_eq_true.mp hall x hexpression

theorem notNumeric_head?_dropWhile_append (body : List Char) (missing : Nat) :
    ∀ x ∈ (body.dropWhile Cursor.isNumeric ++ List.replicate missing ')').head?,
      Cursor.isNumeric x = false := by
  intro x hx
  have hstop := List.head?_dropWhile_not Cursor.isNumeric body
  cases hrest : body.dropWhile Cursor.isNumeric with
  | nil =>
    rw [hrest, List.nil_append] at hx
    rw [List.eq_of_mem_replicate (List.mem_of_mem_head? hx)]
    rfl
  | cons first rest =>
    rw [hrest] at hx hstop
    cases hx
    simpa using hstop

/--
The first number of an expression goes on behind its zeros as far as there are digits and a point.
-/
theorem Derivation.Completes.exists_continuation {d : Derivation .expression} {zeros : Nat}
    {body : List Char} {missing : Nat}
    (h : d.Completes (List.replicate (zeros + 1) '0' ++ body) missing) :
    ∃ (c : Continuation .expression) (n : Numeral) (hn : n.IsWellFormed), d = c.behind n hn
      ∧ n.chars = List.replicate (zeros + 1) '0' ++ body.takeWhile Cursor.isNumeric
      ∧ c.chars = body.dropWhile Cursor.isNumeric ++ List.replicate missing ')' := by
  have hchars := h.chars
  obtain ⟨c, n, hn, rfl⟩ := Continuation.exists_eq_behind d ⟨'0', by rw [hchars]; rfl, rfl⟩
  rw [c.chars_behind, List.append_assoc] at hchars
  have hnumber := @Cursor.number_of_rest_eq_append ⟨0, n.chars ++ c.chars⟩ n.chars c.chars rfl
    (fun x hx => Numeral.isNumeric_of_mem_chars hn hx)
    (fun x hx => Rule.notNumeric_of_mem_operators (c.head?_mem_operators x hx))
  have hsplit : n.chars ++ c.chars
      = (List.replicate (zeros + 1) '0' ++ body.takeWhile Cursor.isNumeric)
        ++ (body.dropWhile Cursor.isNumeric ++ List.replicate missing ')') := by
    rw [hchars, List.append_assoc, ← List.append_assoc (body.takeWhile _),
      List.takeWhile_append_dropWhile]
  have hdigits : ∀ x ∈ List.replicate (zeros + 1) '0' ++ body.takeWhile Cursor.isNumeric,
      Cursor.isNumeric x = true := by
    intro x hx
    rcases List.mem_append.mp hx with hzero | hx
    · rw [List.eq_of_mem_replicate hzero]
      rfl
    · exact List.mem_takeWhile_imp hx
  have hnumber' := @Cursor.number_of_rest_eq_append ⟨0, n.chars ++ c.chars⟩ _ _ hsplit hdigits
    (notNumeric_head?_dropWhile_append body missing)
  have hn' : n.chars = _ := hnumber.symm.trans hnumber'
  refine ⟨c, n, hn, rfl, hn', ?_⟩
  rw [hn'] at hsplit
  exact List.append_cancel_left hsplit

namespace Expr

/--
The text starts with digits and a point that are a number.
-/
def StartsNumber (text : List Char) : Prop :=
  (Numeral.ofChars? (text.takeWhile Cursor.isNumeric)).isSome = true

def StartsSign (text : List Char) : Prop := ∃ sign : Sign, text.head? = some sign.symbol

instance (text : List Char) : Decidable (StartsNumber text) :=
  inferInstanceAs (Decidable (_ = true))

/--
Where no operand starts, there is nothing to evaluate.
-/
theorem evaluate_of_refuses {text : String} {body : List Char} {cause : SyntaxError}
    (htext : (normalize text).toList = body) (h : Cursor.Refuses ⟨0, body⟩ cause) :
    evaluate text = .error cause := by
  let o : Opening .expression := .ofTerm (.ofFactor (.ofPowers (.ofBase .gap)))
  rw [evaluate_eq_error_iff, parse, parseWithin_eq_error_iff h.lacksOperand]
  refine ⟨o, ⟨0, body⟩, ⟨by decide, trivial, ?_⟩, h⟩
  rw [Cursor.ofString, htext]
  exact Cursor.passes_nil _

/--
Another number of the same value in front of an expression does not change it.
-/
theorem evaluate_behind {c : Continuation .expression} {n m : Numeral} {hn : n.IsWellFormed}
    (hm : m.IsWellFormed) {text : String} {missing : Nat} (h : (c.behind n hn).IsCanonical)
    (hdepth : (c.behind n hn).depth ≤ maxDepth)
    (hvalue : m.toDecimal.toBinary64 = n.toDecimal.toBinary64)
    (hchars : m.chars ++ c.chars = (normalize text).toList ++ List.replicate missing ')') :
    evaluate text = .ok (c.behind n hn).value := by
  have hcompletes : (c.behind m hm).Completes (normalize text).toList missing := by
    refine ⟨?_, c.isCanonical_behind h, Derivation.map_chars_numerals _⟩
    rw [c.chars_behind]
    exact hchars
  have hsame : (c.behind m hm).value = (c.behind n hn).value := c.value_behind hvalue
  rw [← hsame]
  exact evaluate_of_completes hcompletes (c.depth_behind.trans_le hdepth)

variable {text left : String} {v : Binary64} {zeros : Nat} {body : List Char}

/--
An expression that starts with zeros is a continuation behind a number that starts with them.
-/
theorem exists_behind_of_evaluate (h : evaluate text = .ok v)
    (htext : (normalize text).toList = List.replicate (zeros + 1) '0' ++ body) :
    ∃ (c : Continuation .expression) (n : Numeral) (hn : n.IsWellFormed) (missing : Nat),
      n.chars = List.replicate (zeros + 1) '0' ++ body.takeWhile Cursor.isNumeric
        ∧ c.chars = body.dropWhile Cursor.isNumeric ++ List.replicate missing ')'
        ∧ (c.behind n hn).IsCanonical ∧ (c.behind n hn).depth ≤ maxDepth
        ∧ (c.behind n hn).value = v := by
  obtain ⟨e, hparse, rfl⟩ := evaluate_eq_ok_iff.mp h
  obtain ⟨missing, d, hcompletes, hdepth, rfl⟩ := parseWithin_eq_ok_iff.mp hparse
  have hcanonical := hcompletes.canonical
  rw [htext] at hcompletes
  obtain ⟨c, n, hn, rfl, hnumber, hrest⟩ := hcompletes.exists_continuation
  exact ⟨c, n, hn, missing, hnumber, hrest, hcanonical, hdepth, (Derivation.value_tree _).symm⟩

/--
Zeros in front of a number can be dropped.
-/
theorem evaluate_of_startsNumber (h : evaluate text = .ok v)
    (htext : (normalize text).toList = List.replicate (zeros + 1) '0' ++ body)
    (hleft : (normalize left).toList = body) (hnumber : StartsNumber body) :
    evaluate left = .ok v := by
  obtain ⟨m, hm⟩ := Option.isSome_iff_exists.mp hnumber
  obtain ⟨c, n, hn, missing, hnumber, hrest, hcanonical, hdepth, rfl⟩ :=
    exists_behind_of_evaluate h htext
  have hchars := Numeral.chars_of_ofChars? hm
  have hwellFormed := Numeral.isWellFormed_of_ofChars? hm
  apply evaluate_behind hwellFormed hcanonical hdepth
  · rw [← Numeral.split_chars hn, hnumber, Numeral.toDecimal_split_zeros_append, ← hchars,
      Numeral.split_chars hwellFormed]
  · rw [hchars, hrest, hleft, ← List.append_assoc, List.takeWhile_append_dropWhile]

/--
Zeros that are the whole text are worth a single one.
-/
theorem evaluate_of_zeros (h : evaluate text = .ok v)
    (htext : (normalize text).toList = List.replicate (zeros + 1) '0') :
    evaluate "0" = .ok v := by
  rw [← List.append_nil (List.replicate _ _)] at htext
  obtain ⟨c, n, hn, missing, hnumber, hrest, hcanonical, hdepth, rfl⟩ :=
    exists_behind_of_evaluate h htext
  let zero : Numeral := ⟨['0'], none⟩
  apply evaluate_behind (m := zero) (by decide) hcanonical hdepth
  · rw [← Numeral.split_chars hn, hnumber, Numeral.toDecimal_split_zeros_append]
    rfl
  · rw [hrest]
    rfl

/--
Zero and a sign behind it can be read as the sign of what follows. That needs one more level.
-/
theorem evaluate_of_sign (h : evaluate text = .ok v)
    (htext : (normalize text).toList = List.replicate (zeros + 1) '0' ++ body)
    (hleft : (normalize left).toList = body) (hsign : StartsSign body) :
    ∃ v', Binary64.EqOrNegZero v v'
      ∧ (parseWithin (maxDepth + 1) (normalize left)).map value = .ok v'
      ∧ (evaluate left = .ok v' ∨ evaluate left = .error (.tooDeeplyNested maxDepth)) := by
  obtain ⟨sign, hfirst⟩ := hsign
  obtain ⟨tail, hsign⟩ := List.head?_eq_some_iff.mp hfirst
  obtain ⟨c, n, hn, missing, hnumber, hrest, hcanonical, hdepth, rfl⟩ :=
    exists_behind_of_evaluate h htext
  have hsymbol : Cursor.isNumeric sign.symbol = false := by cases sign <;> rfl
  rw [hsign, List.takeWhile_cons_of_neg (by simp [hsymbol])] at hnumber
  rw [hsign, List.dropWhile_cons_of_neg (by simp [hsymbol]), List.cons_append] at hrest
  have hzero : n.toDecimal.toBinary64 = .zero false := by
    have hnothing : (Numeral.split []).toDecimal = ⟨0, 0⟩ := rfl
    rw [← Numeral.split_chars hn, hnumber, Numeral.toDecimal_split_zeros_append, hnothing,
      Decimal.toBinary64]
    dsimp only
    rw [Nat.zero_mul]
    exact Binary64.ofUnits_eq_finite false _
  obtain ⟨d, hchars, hd, hlevels, hvalue⟩ := c.exists_signed_of_zero hzero hrest hcanonical
  have hcompletes : d.Completes (normalize left).toList missing := by
    refine ⟨?_, hd, d.map_chars_numerals⟩
    rw [hchars, hrest, hleft, hsign, List.cons_append]
  refine ⟨d.value, hvalue, ?_, ?_⟩
  · rw [parseWithin_of_completes hcompletes (by omega), Except.map, d.value_tree]
  · rw [evaluate_eq_ite hcompletes]
    split
    · exact .inl rfl
    · exact .inr rfl

theorem not_startsOperand {x : Char} {tail : List Char} (hop : x ∈ Rule.expression.operators)
    (hsign : ¬StartsSign (x :: tail)) : ¬Cursor.StartsOperand (x :: tail) := by
  have hplus : x ≠ '+' := fun h => hsign ⟨.plus, congrArg some h⟩
  have hminus : x ≠ '-' := fun h => hsign ⟨.minus, congrArg some h⟩
  simp only [Rule.operators, List.mem_cons, List.not_mem_nil, or_false, hplus, hminus,
    false_or] at hop
  rcases hop with rfl | rfl | rfl | rfl <;> simp [Cursor.StartsOperand, Cursor.isNumeric]

/--
What else can stand behind the zeros is no start of an expression.
-/
theorem exists_evaluate_eq_error (h : evaluate text = .ok v)
    (htext : (normalize text).toList = List.replicate (zeros + 1) '0' ++ body)
    (hleft : (normalize left).toList = body) (hnumber : ¬StartsNumber body)
    (hsign : ¬StartsSign body) : ∃ cause, evaluate left = .error cause := by
  by_cases hnonempty : body.takeWhile Cursor.isNumeric = []
  · cases body with
    | nil => exact ⟨.unexpectedEnd, evaluate_of_refuses hleft (.atEnd 0)⟩
    | cons x tail =>
      obtain ⟨c, n, hn, missing, -, hrest, -⟩ := exists_behind_of_evaluate h htext
      have hsplit := List.takeWhile_append_dropWhile (p := Cursor.isNumeric) (l := x :: tail)
      rw [hnonempty, List.nil_append] at hsplit
      rw [hsplit, List.cons_append] at hrest
      have hop := c.head?_mem_operators x (by rw [hrest]; rfl)
      exact ⟨_, evaluate_of_refuses hleft (.atChar (not_startsOperand hop hsign))⟩
  · have hnone := Option.not_isSome_iff_eq_none.mp hnumber
    exact ⟨_, evaluate_of_refuses hleft (.atNumber hnonempty hnone)⟩

end Expr

end Calculator
