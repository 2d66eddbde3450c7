import Calculator.Proofs.Expression.FirstError

/-!
This module contains the theorem about texts that are too deeply nested: they are those that start
with an opening whose constructs take up more levels than there are.
-/

namespace Calculator

namespace Expr

theorem parseWithin_eq_tooDeeplyNested_iff {limit l : Nat} {text : String} :
    parseWithin limit text = .error (.tooDeeplyNested l)
      ↔ l = limit ∧ ∃ o : Opening .expression, o.LiesIn text.toList ∧ limit < o.level := by
  rw [parseWithin_eq_error_iff_breaksOff (by rintro found position ⟨⟩)]
  constructor
  · rintro ⟨o, stop, hcanonical, ⟨hrest, -⟩, ⟨-, hrefuses⟩ | ⟨hlevel, hcause⟩⟩
    · cases hrefuses
    · cases hcause
      exact ⟨rfl, o, ⟨hcanonical, stop.rest, hrest.symm⟩, hlevel⟩
  · rintro ⟨rfl, o, ⟨hcanonical, back, hback⟩, hlevel⟩
    refine ⟨o, (Cursor.ofString text).skip o.chars.length, hcanonical, ⟨?_, rfl⟩,
      .inr ⟨hlevel, rfl⟩⟩
    rw [Cursor.rest_skip_of_eq_append hback.symm]
    exact hback.symm

theorem evaluate_eq_tooDeeplyNested_iff_level {limit : Nat} {text : String} :
    evaluate text = .error (.tooDeeplyNested limit)
      ↔ limit = maxDepth ∧ ∃ o : Opening .expression,
        o.LiesIn (normalize text).toList ∧ maxDepth < o.level := by
  rw [evaluate_eq_error_iff, parse, parseWithin_eq_tooDeeplyNested_iff]

end Expr

/--
Nesting is capped by levels and not by constructs: a group takes two of them, a group behind `√`
three, and one is left for the operand inside.
-/
theorem evaluate_eq_tooDeeplyNested_iff (text : String) :
    (∀ limit, Expr.evaluate text = .error (.tooDeeplyNested limit)
        ↔ limit = Expr.maxDepth ∧ ∃ o : Opening .expression, o.LiesIn (Expr.normalize text).toList
          ∧ Expr.maxDepth < 1 + Construct.totalLevels o.constructs)
      ∧ ((∀ o : Opening .expression, o.LiesIn (Expr.normalize text).toList →
          3 * o.constructs.length < Expr.maxDepth) →
        ∀ limit, Expr.evaluate text ≠ .error (.tooDeeplyNested limit))
      ∧ ∀ o : Opening .expression, o.LiesIn (Expr.normalize text).toList →
          Expr.maxDepth ≤ o.constructs.length →
          Expr.evaluate text = .error (.tooDeeplyNested Expr.maxDepth) := by
  refine ⟨?_, ?_, ?_⟩
  · intro limit
    rw [Expr.evaluate_eq_tooDeeplyNested_iff_level]
    simp only [Opening.level_eq, Rule.ownLevels]
  · intro hshallow limit herror
    obtain ⟨-, o, ho, hlevel⟩ := Expr.evaluate_eq_tooDeeplyNested_iff_level.mp herror
    have hconstructs := hshallow o ho
    have hle := Construct.totalLevels_le o.constructs
    rw [Opening.level_eq, Rule.ownLevels] at hlevel
    omega
  · intro o ho hdeep
    have hle := Construct.length_le_totalLevels o.constructs
    refine Expr.evaluate_eq_tooDeeplyNested_iff_level.mpr ⟨rfl, o, ho, ?_⟩
    rw [Opening.level_eq, Rule.ownLevels]
    omega

theorem evaluate_eq_tooDeeplyNested_iff_roots :
    (∀ o : Opening .expression, o.LiesIn (Expr.normalize "-√(2^-sqrt(3))").toList →
        3 * o.constructs.length < Expr.maxDepth)
      ∧ ∀ limit, Expr.evaluate "-√(2^-sqrt(3))" ≠ .error (.tooDeeplyNested limit) := by
  have hshallow : ∀ o : Opening .expression,
      o.LiesIn (Expr.normalize "-√(2^-sqrt(3))").toList →
      3 * o.constructs.length < Expr.maxDepth := by
    intro o ho
    have hplain : (Expr.normalize "-√(2^-sqrt(3))").toList = "-√(2^-sqrt(3))".toList := by
      rw [Expr.normalize, String.toList_ofList]
      decide
    rw [hplain] at ho
    have hcount := ho.starts.sublist.countP_le (p := (· ≠ ')'))
    have hle := o.length_constructs_le.trans hcount
    exact Nat.lt_of_le_of_lt (Nat.mul_le_mul_left 3 hle) (by decide)
  exact ⟨hshallow, (evaluate_eq_tooDeeplyNested_iff _).2.1 hshallow⟩

namespace Opening

/--
The operand behind `n` opening parentheses is missing.
-/
def groups : Nat → Opening .expression
  | 0 => .ofTerm (.ofFactor (.ofPowers (.ofBase .gap)))
  | n + 1 => .ofTerm (.ofFactor (.ofPowers (.ofBase (.ofGroup (.group (groups n))))))

theorem chars_groups (n : Nat) : (groups n).chars = List.replicate n '(' := by
  induction n with
  | zero => rfl
  | succ n ih => exact congrArg (List.cons '(') ih

theorem isCanonical_groups (n : Nat) : (groups n).IsCanonical := by
  induction n with
  | zero => trivial
  | succ n ih => exact ih

theorem level_groups (n : Nat) : (groups n).level = 2 * n + 1 := by
  induction n with
  | zero => rfl
  | succ n ih =>
    simp only [groups, level, ih]
    omega

end Opening

/--
A number in `n` pairs of parentheses.
-/
def parenthesized (n : Nat) : List Char :=
  List.replicate n '(' ++ '1' :: List.replicate n ')'

theorem normalize_parenthesized (n : Nat) :
    Expr.normalize (String.ofList (parenthesized n)) = String.ofList (parenthesized n) := by
  apply Expr.normalize_ofList
  intro c hc
  simp only [parenthesized, List.mem_append, List.mem_cons, List.mem_replicate] at hc
  rcases hc with ⟨-, rfl⟩ | rfl | ⟨-, rfl⟩ <;> decide

theorem countP_parenthesized (n : Nat) : (parenthesized n).countP (· ≠ ')') = n + 1 := by
  simp [parenthesized, List.countP_replicate]

theorem Opening.liesIn_groups (n : Nat) : (groups n).LiesIn (parenthesized n) := by
  refine ⟨isCanonical_groups n, ?_⟩
  rw [chars_groups]
  exact List.prefix_append _ _

theorem not_forall_evaluate_ne_tooDeeplyNested :
    ¬∀ text : String,
      (∀ o : Opening .expression, o.LiesIn (Expr.normalize text).toList →
        o.constructs.length ≤ Expr.maxDepth) →
      ∀ limit, Expr.evaluate text ≠ .error (.tooDeeplyNested limit) := by
  intro h
  apply h (String.ofList (parenthesized 128)) _ Expr.maxDepth
  · rw [Expr.evaluate_eq_tooDeeplyNested_iff_level, normalize_parenthesized, String.toList_ofList]
    refine ⟨rfl, .groups 128, Opening.liesIn_groups 128, ?_⟩
    rw [Opening.level_groups]
    decide
  · intro o ho
    rw [normalize_parenthesized, String.toList_ofList] at ho
    have hcount := ho.starts.sublist.countP_le (p := (· ≠ ')'))
    rw [countP_parenthesized] at hcount
    exact (o.length_constructs_le.trans hcount).trans (by decide)

end Calculator
