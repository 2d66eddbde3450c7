import Calculator.Proofs.Expression.NormalForm
import Calculator.Proofs.Expression.Refusal
import Mathlib.Data.List.Forall2

/-!
This module contains the theorem about the shape of a text, which is the text without regard to
which digits stand in it: it alone decides whether the text is an expression and where it is
refused. The readers do the same to a text and to the text with a zero for every digit.
-/

namespace Calculator

/--
Two characters that are equal or both digits.
-/
def SameShape (c c' : Char) : Prop := c = c' ∨ c.isDigit = true ∧ c'.isDigit = true

instance (c c' : Char) : Decidable (SameShape c c') :=
  inferInstanceAs (Decidable (_ ∨ _))

/--
Refusals for the same cause at the same place.
-/
inductive SyntaxError.SameShape : SyntaxError → SyntaxError → Prop
  | unexpectedChar {found found' : Char} (position : Nat) (h : Calculator.SameShape found found') :
    SameShape (.unexpectedChar found position) (.unexpectedChar found' position)
  | unexpectedEnd : SameShape .unexpectedEnd .unexpectedEnd
  | trailingInput {found found' : Char} (position : Nat) (h : Calculator.SameShape found found') :
    SameShape (.trailingInput found position) (.trailingInput found' position)
  | invalidNumber {literal literal' : String}
    (h : List.Forall₂ Calculator.SameShape literal.toList literal'.toList) :
    SameShape (.invalidNumber literal) (.invalidNumber literal')
  | tooDeeplyNested (limit : Nat) : SameShape (.tooDeeplyNested limit) (.tooDeeplyNested limit)

def masked (c : Char) : Char := if c.isDigit then '0' else c

section Characters

variable {c c' : Char}

theorem masked_of_isDigit (h : c.isDigit = true) : masked c = '0' :=
  if_pos h

theorem masked_of_notDigit (h : c.isDigit = false) : masked c = c := by
  unfold masked
  rw [h]
  rfl

theorem isDigit_masked (c : Char) : (masked c).isDigit = c.isDigit := by
  cases h : c.isDigit with
  | true =>
    rw [masked_of_isDigit h]
    rfl
  | false => rw [masked_of_notDigit h, h]

theorem masked_eq_iff (h : c'.isDigit = false) : masked c = c' ↔ c = c' := by
  constructor
  · rintro rfl
    rw [isDigit_masked] at h
    exact (masked_of_notDigit h).symm
  · rintro rfl
    exact masked_of_notDigit h

theorem sameShape_iff : SameShape c c' ↔ masked c = masked c' := by
  unfold SameShape
  constructor
  · rintro (rfl | ⟨h, h'⟩)
    · rfl
    · rw [masked_of_isDigit h, masked_of_isDigit h']
  · intro h
    cases hdigit : c'.isDigit with
    | true =>
      rw [← isDigit_masked, ← h, isDigit_masked] at hdigit
      exact .inr ⟨hdigit, rfl⟩
    | false =>
      rw [masked_of_notDigit hdigit, masked_eq_iff hdigit] at h
      exact .inl h

theorem isNumeric_masked (c : Char) : Cursor.isNumeric (masked c) = Cursor.isNumeric c := by
  have hpoint : (masked c = '.') = (c = '.') := propext (masked_eq_iff rfl)
  simp only [Cursor.isNumeric, isDigit_masked, hpoint]

theorem canonical_masked (c : Char) : Expr.canonical (masked c) = masked (Expr.canonical c) := by
  cases h : c.isDigit with
  | true =>
    have hmul : c ≠ '×' := by rintro rfl; cases h
    have hdiv : c ≠ '÷' := by rintro rfl; cases h
    rw [Expr.canonical_of_ne hmul hdiv, masked_of_isDigit h]
    rfl
  | false =>
    rw [masked_of_notDigit h, masked_of_notDigit]
    unfold Expr.canonical
    split
    · rfl
    · rfl
    · exact h

theorem Rule.operator?_masked (rule : Rule) (c : Char) :
    rule.operator? (masked c) = rule.operator? c := by
  apply Option.ext
  intro op
  have hsymbol : op.symbol.isDigit = false := by cases op <;> rfl
  rw [Rule.operator?_eq_some_iff, Rule.operator?_eq_some_iff, masked_eq_iff hsymbol]

end Characters

theorem forall₂_sameShape_iff {text text' : List Char} :
    List.Forall₂ SameShape text text' ↔ text.map masked = text'.map masked := by
  have hshape : SameShape = fun c c' => masked c = masked c' := by
    funext c c'
    exact propext sameShape_iff
  rw [← List.forall₂_eq_eq_eq, List.forall₂_map_left_iff, List.forall₂_map_right_iff, hshape]

theorem Expr.normalizeChars_map_masked (text : List Char) :
    normalizeChars (text.map masked) = (normalizeChars text).map masked := by
  unfold normalizeChars
  have hspace : (fun c => decide (c ≠ ' ')) ∘ masked = fun c => decide (c ≠ ' ') := by
    funext c
    have hmasked : masked c = ' ' ↔ c = ' ' := masked_eq_iff rfl
    simp only [Function.comp_apply, ne_eq, hmasked]
  rw [List.filter_map, hspace, List.map_map, List.map_map]
  apply List.map_congr_left
  intro c _
  exact canonical_masked c

namespace Numeral

def masked (n : Numeral) : Numeral :=
  ⟨n.whole.map Calculator.masked, n.fraction?.map (List.map Calculator.masked)⟩

theorem isWellFormed_masked (n : Numeral) : n.masked.IsWellFormed ↔ n.IsWellFormed := by
  have hdigits : n.masked.whole ++ n.masked.fraction
      = (n.whole ++ n.fraction).map Calculator.masked := by
    rw [List.map_append]
    cases hfraction : n.fraction? <;> simp [masked, fraction, hfraction]
  unfold IsWellFormed
  rw [hdigits, List.all_map]
  simp only [Function.comp_def, isDigit_masked, ne_eq, List.map_eq_nil_iff]

theorem split_map_masked (text : List Char) :
    split (text.map Calculator.masked) = (split text).masked := by
  induction text with
  | nil => rfl
  | cons c text ih =>
    have hpoint : Calculator.masked c = '.' ↔ c = '.' := masked_eq_iff rfl
    simp only [List.map_cons, split, hpoint, ih]
    split <;> rfl

theorem ofChars?_map_masked (text : List Char) :
    ofChars? (text.map Calculator.masked) = (ofChars? text).map masked := by
  unfold ofChars?
  rw [split_map_masked]
  simp only [isWellFormed_masked]
  split <;> rfl

end Numeral

namespace Expr

def masked : Expr → Expr
  | .number numeral => .number numeral.masked
  | .group body => .group body.masked
  | .root symbol argument => .root symbol argument.masked
  | .signed sign operand => .signed sign operand.masked
  | .binary op left right => .binary op left.masked right.masked

end Expr

namespace SyntaxError

def masked : SyntaxError → SyntaxError
  | .unexpectedChar found position => .unexpectedChar (Calculator.masked found) position
  | .unexpectedEnd => .unexpectedEnd
  | .trailingInput found position => .trailingInput (Calculator.masked found) position
  | .invalidNumber literal =>
    .invalidNumber (String.ofList (literal.toList.map Calculator.masked))
  | .tooDeeplyNested limit => .tooDeeplyNested limit

theorem sameShape_of_masked_eq {cause cause' : SyntaxError} (h : cause.masked = cause'.masked) :
    cause.SameShape cause' := by
  cases cause <;> cases cause' <;> simp only [masked, reduceCtorEq] at h
  case unexpectedChar.unexpectedChar =>
    injection h with hfound hposition
    subst hposition
    exact .unexpectedChar _ (sameShape_iff.mpr hfound)
  case unexpectedEnd.unexpectedEnd => exact .unexpectedEnd
  case trailingInput.trailingInput =>
    injection h with hfound hposition
    subst hposition
    exact .trailingInput _ (sameShape_iff.mpr hfound)
  case invalidNumber.invalidNumber =>
    injection h with hliteral
    exact .invalidNumber (forall₂_sameShape_iff.mpr (String.ofList_injective hliteral))
  case tooDeeplyNested.tooDeeplyNested =>
    cases h
    exact .tooDeeplyNested _

end SyntaxError

/--
What becomes of an outcome if the text is masked.
-/
def maskedOutcome {α : Type} (f : α → α) : Except SyntaxError α → Except SyntaxError α
  | .error cause => .error cause.masked
  | .ok a => .ok (f a)

namespace Cursor

def masked (c : Cursor) : Cursor := ⟨c.position, c.rest.map Calculator.masked⟩

variable (c : Cursor)

theorem skip_masked (n : Nat) : c.masked.skip n = (c.skip n).masked := by
  simp [skip, masked]

theorem current?_masked : c.masked.current? = c.current?.map Calculator.masked := by
  simp [current?, masked]

theorem number_masked : c.masked.number = c.number.map Calculator.masked := by
  have hnumeric : isNumeric ∘ Calculator.masked = isNumeric := funext isNumeric_masked
  rw [number, masked, List.takeWhile_map, hnumeric, number]

theorem skipNumber_masked : c.masked.skipNumber = c.skipNumber.masked := by
  rw [skipNumber, number_masked, List.length_map, skip_masked, skipNumber]

theorem isPrefixOf_map_masked {keyword : List Char} (h : keyword.any Char.isDigit = false)
    (text : List Char) :
    keyword.isPrefixOf (text.map Calculator.masked) = keyword.isPrefixOf text := by
  induction keyword generalizing text with
  | nil => simp
  | cons first keyword ih =>
    rw [List.any_cons, Bool.or_eq_false_iff] at h
    cases text with
    | nil => rfl
    | cons ch text =>
      have hfirst : (first == Calculator.masked ch) = (first == ch) := by
        rw [Bool.eq_iff_iff, beq_iff_eq, beq_iff_eq, eq_comm, masked_eq_iff h.1, eq_comm]
      rw [List.map_cons, List.isPrefixOf_cons_cons, List.isPrefixOf_cons_cons, hfirst, ih h.2]

theorem eatKeyword?_masked {keyword : String} (h : keyword.toList.any Char.isDigit = false) :
    c.masked.eatKeyword? keyword = (c.eatKeyword? keyword).map masked := by
  unfold eatKeyword?
  rw [skip_masked, masked, isPrefixOf_map_masked h]
  split <;> rfl

theorem eatMap?_masked {α : Type} {meaning? : Char → Option α}
    (h : ∀ ch, meaning? (Calculator.masked ch) = meaning? ch) :
    c.masked.eatMap? meaning? = (c.eatMap? meaning?).map fun (a, next) => (a, next.masked) := by
  have hmeaning : c.masked.current?.bind meaning? = c.current?.bind meaning? := by
    rw [current?_masked]
    cases c.current? with
    | none => rfl
    | some ch => exact h ch
  rw [eatMap?, eatMap?, hmeaning, skip_masked, Option.map_map]
  rfl

end Cursor

def Reading.masked (result : Reading) : Reading := ⟨result.expr.masked, result.next.masked⟩

/--
The reader takes a digit for any other.
-/
def Reader.IgnoresDigits (reader : Reader) : Prop :=
  ∀ start, reader.read start.masked = maskedOutcome Reading.masked (reader.read start)

structure Nested.IgnoresDigits (inner : Nested) : Prop where
  factor : inner.factor.IgnoresDigits
  operand : inner.operand.IgnoresDigits
  group : inner.group.IgnoresDigits

namespace Reader

variable {reader first operand inside otherwise : Reader}

theorem ignoresDigits_noOperand : noOperand.IgnoresDigits := by
  intro start
  simp only [noOperand, fail, Cursor.current?_masked]
  cases start.current? <;> rfl

theorem IgnoresDigits.map {f : Expr → Expr} (h : reader.IgnoresDigits)
    (hf : ∀ e, f e.masked = (f e).masked) : (reader.map f).IgnoresDigits := by
  intro start
  simp only [Reader.map, h start]
  cases reader.read start with
  | error => rfl
  | ok result => simp [Except.map, maskedOutcome, Reading.masked, hf]

theorem IgnoresDigits.afterKeyword {keyword : String} (hinside : inside.IgnoresDigits)
    (hotherwise : otherwise.IgnoresDigits)
    (hkeyword : keyword.toList.any Char.isDigit = false) :
    (Reader.afterKeyword keyword inside otherwise).IgnoresDigits := by
  intro start
  simp only [Reader.afterKeyword, start.eatKeyword?_masked hkeyword]
  cases start.eatKeyword? keyword with
  | none => exact hotherwise start
  | some next => exact hinside next

theorem IgnoresDigits.numberOr (h : otherwise.IgnoresDigits) :
    (Reader.numberOr otherwise).IgnoresDigits := by
  intro start
  simp only [Reader.numberOr, start.number_masked, List.map_eq_nil_iff]
  split
  · exact h start
  · rw [Numeral.ofChars?_map_masked, start.skipNumber_masked]
    cases Numeral.ofChars? start.number with
    | none => simp [maskedOutcome, SyntaxError.masked]
    | some numeral => rfl

theorem IgnoresDigits.closing (h : reader.IgnoresDigits) : reader.closing.IgnoresDigits := by
  intro start
  simp only [Reader.closing, h start]
  cases reader.read start with
  | error => rfl
  | ok result =>
    have hclosing := @Cursor.eatKeyword?_masked result.next ")" (by decide)
    simp only [maskedOutcome, Except.map, Reading.masked, hclosing]
    cases result.next.eatKeyword? ")" <;> rfl

theorem extend_masked (rule : Rule) (h : operand.IgnoresDigits) (left : Reading) :
    extend rule.operator? operand left.masked
      = maskedOutcome Reading.masked (extend rule.operator? operand left) := by
  have hop (left : Reading) := left.next.eatMap?_masked rule.operator?_masked
  fun_induction extend rule.operator? operand left with
  | case1 left hnone =>
    have hleft := hop left
    rw [hnone] at hleft
    exact extend_of_eatMap?_eq_none hleft
  | case2 left op mid hmid cause hright =>
    have hleft := hop left
    rw [hmid] at hleft
    apply extend_of_read_eq_error hleft
    rw [h mid, hright]
    rfl
  | case3 left op mid hmid right hright _ _ ih =>
    have hleft := hop left
    rw [hmid] at hleft
    have hread : operand.read mid.masked = .ok right.masked := by
      rw [h mid, hright]
      rfl
    rw [← ih]
    exact extend_of_eatMap?_eq_some hleft hread

theorem IgnoresDigits.chain (rule : Rule) (hfirst : first.IgnoresDigits)
    (h : operand.IgnoresDigits) : (Reader.chain rule.operator? first operand).IgnoresDigits := by
  intro start
  simp only [Reader.chain, hfirst start]
  cases first.read start with
  | error => rfl
  | ok left => exact extend_masked rule h left

end Reader

namespace Grammar

variable {inner : Nested}

theorem ignoresDigits_term (h : inner.IgnoresDigits) : (term inner).IgnoresDigits :=
  .chain .term h.factor h.factor

theorem ignoresDigits_expression (h : inner.IgnoresDigits) : (expression inner).IgnoresDigits :=
  .chain .expression (ignoresDigits_term h) (ignoresDigits_term h)

theorem ignoresDigits_keywordRoot (h : inner.IgnoresDigits) :
    (keywordRoot inner).IgnoresDigits := by
  apply Reader.IgnoresDigits.afterKeyword
  · exact h.group.map fun _ => rfl
  · exact h.factor.map fun _ => rfl
  · decide

theorem ignoresDigits_primary (h : inner.IgnoresDigits) : (primary inner).IgnoresDigits := by
  apply h.group.afterKeyword _ (by decide)
  apply Reader.IgnoresDigits.numberOr
  apply (ignoresDigits_keywordRoot h).afterKeyword _ (by decide)
  apply Reader.IgnoresDigits.afterKeyword
  · exact h.factor.map fun _ => rfl
  · exact Reader.ignoresDigits_noOperand
  · decide

theorem ignoresDigits_powers (h : inner.IgnoresDigits) : (powers inner).IgnoresDigits :=
  .chain .powers (ignoresDigits_primary h) h.operand

theorem ignoresDigits_signs {argument otherwise : Reader} (h : argument.IgnoresDigits)
    (hotherwise : otherwise.IgnoresDigits) :
    (Reader.afterKeyword "+" (argument.map (.signed .plus))
      (.afterKeyword "-" (argument.map (.signed .minus)) otherwise)).IgnoresDigits := by
  have hsigned (sign : Sign) : (argument.map (.signed sign)).IgnoresDigits := h.map fun _ => rfl
  apply (hsigned .plus).afterKeyword _ (by decide)
  exact (hsigned .minus).afterKeyword hotherwise (by decide)

end Grammar

theorem Nested.ignoresDigits_ofLevels (limit levels : Nat) :
    (ofLevels limit levels).IgnoresDigits := by
  induction levels with
  | zero => exact ⟨fun _ => rfl, fun _ => rfl, fun _ => rfl⟩
  | succ levels ih =>
    constructor
    · exact Grammar.ignoresDigits_signs ih.factor (Grammar.ignoresDigits_powers ih)
    · exact Grammar.ignoresDigits_signs ih.operand (Grammar.ignoresDigits_primary ih)
    · exact (Grammar.ignoresDigits_expression ih).closing.map fun _ => rfl

namespace Expr

theorem parseWithin_masked (limit : Nat) (text : List Char) :
    parseWithin limit (String.ofList (text.map Calculator.masked))
      = maskedOutcome masked (parseWithin limit (String.ofList text)) := by
  have hstart : Cursor.ofString (String.ofList (text.map Calculator.masked))
      = (Cursor.ofString (String.ofList text)).masked := by
    simp [Cursor.ofString, Cursor.masked]
  have hread := Grammar.ignoresDigits_expression (Nested.ignoresDigits_ofLevels limit limit)
    (.ofString (String.ofList text))
  unfold parseWithin
  rw [hstart, hread]
  cases (Grammar.expression (.ofLevels limit limit)).read (.ofString (String.ofList text)) with
  | error cause => rfl
  | ok result =>
    simp only [maskedOutcome, Reading.masked, result.next.current?_masked]
    cases result.next.current? <;> rfl

theorem parse_masked (text : String) :
    parse (String.ofList (text.toList.map Calculator.masked))
      = maskedOutcome masked (parse text) := by
  unfold parse normalize
  rw [String.toList_ofList, normalizeChars_map_masked]
  exact parseWithin_masked maxDepth _

end Expr

theorem evaluate_sameShape {text text' : String}
    (h : List.Forall₂ SameShape text.toList text'.toList) :
    (∃ v v', Expr.evaluate text = .ok v ∧ Expr.evaluate text' = .ok v')
      ∨ ∃ cause cause', Expr.evaluate text = .error cause ∧ Expr.evaluate text' = .error cause'
        ∧ cause.SameShape cause' := by
  have hmasked : maskedOutcome Expr.masked (Expr.parse text)
      = maskedOutcome Expr.masked (Expr.parse text') := by
    rw [← Expr.parse_masked, ← Expr.parse_masked, forall₂_sameShape_iff.mp h]
  unfold Expr.evaluate
  cases hparse : Expr.parse text with
  | ok e =>
    cases hparse' : Expr.parse text' with
    | ok e' => exact .inl ⟨e.value, e'.value, rfl, rfl⟩
    | error cause' =>
      rw [hparse, hparse'] at hmasked
      cases hmasked
  | error cause =>
    cases hparse' : Expr.parse text' with
    | ok e' =>
      rw [hparse, hparse'] at hmasked
      cases hmasked
    | error cause' =>
      rw [hparse, hparse'] at hmasked
      injection hmasked with hcause
      exact .inr ⟨cause, cause', rfl, rfl, SyntaxError.sameShape_of_masked_eq hcause⟩

theorem evaluate_sameShape_quotient :
    List.Forall₂ SameShape "√(0÷0)7".toList "√(9÷2)1".toList
      ∧ ((∃ v v', Expr.evaluate "√(0÷0)7" = .ok v ∧ Expr.evaluate "√(9÷2)1" = .ok v')
        ∨ ∃ cause cause', Expr.evaluate "√(0÷0)7" = .error cause
          ∧ Expr.evaluate "√(9÷2)1" = .error cause' ∧ cause.SameShape cause') := by
  have h : List.Forall₂ SameShape "√(0÷0)7".toList "√(9÷2)1".toList := by decide
  exact ⟨h, evaluate_sameShape h⟩

end Calculator
