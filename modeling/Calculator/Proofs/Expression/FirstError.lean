import Calculator.Proofs.Expression.Acceptance
import Calculator.Proofs.Expression.Gap
import Calculator.Proofs.Expression.NormalForm
import Mathlib.Data.List.TakeWhile

/-!
This module contains the theorem about the places that syntax errors point at: each is the first one
where the text cannot go on, so what stands before it is either complete or lacks one operand.
-/

namespace Calculator

/--
The errors that say that an operand should have started.
-/
def SyntaxError.lacksOperand : SyntaxError → Bool
  | .unexpectedChar .. => true
  | .unexpectedEnd => true
  | .trailingInput .. => false
  | .invalidNumber _ => true
  | .tooDeeplyNested _ => false

theorem Cursor.Refuses.lacksOperand {place : Cursor} {cause : SyntaxError}
    (h : place.Refuses cause) : cause.lacksOperand = true := by
  cases h <;> rfl

theorem Cursor.rest_skipNumber (c : Cursor) : c.skipNumber.rest = c.rest.dropWhile isNumeric := by
  have h : c.number ++ c.skipNumber.rest = c.number ++ c.rest.dropWhile isNumeric := by
    rw [number_append_skipNumber, number, List.takeWhile_append_dropWhile]
  exact List.append_cancel_left h

namespace Numeral

theorem isDigit_of_isNumeric {c : Char} (h : Cursor.isNumeric c = true) (hpoint : c ≠ '.') :
    c.isDigit = true := by
  simpa [Cursor.isNumeric, hpoint] using h

theorem eq_nil_of_not_isWellFormed {n : Numeral} (h : ∀ c ∈ n.whole ++ n.fraction, c.isDigit = true)
    (hn : ¬n.IsWellFormed) : n.whole ++ n.fraction = [] := by
  apply Decidable.byContradiction
  intro hne
  exact hn ⟨List.all_eq_true.mpr h, hne⟩

/--
A run of digits and points that is no number has no digit or too many points.
-/
theorem digits_or_points_of_ofChars? {text : List Char}
    (h : ∀ c ∈ text, Cursor.isNumeric c = true) (hnone : ofChars? text = none) :
    (∀ c ∈ text, c.isDigit = false) ∨ 2 ≤ text.count '.' := by
  have hsplit : ¬(split text).IsWellFormed := by
    intro hn
    simp [ofChars?, hn] at hnone
  by_cases hpoint : '.' ∈ text
  · obtain ⟨whole, fraction, rfl, hwhole⟩ := List.eq_append_cons_of_mem hpoint
    rw [split_append_cons hwhole] at hsplit
    by_cases hfraction : '.' ∈ fraction
    · right
      rw [List.count_append, List.count_cons_self]
      have := List.count_pos_iff.mpr hfraction
      omega
    · left
      have hnil : whole ++ fraction = [] := by
        apply eq_nil_of_not_isWellFormed _ hsplit
        intro c hc
        have hne : c ≠ '.' := by
          rintro rfl
          exact (List.mem_append.mp hc).elim hwhole hfraction
        apply isDigit_of_isNumeric (h c _) hne
        rcases List.mem_append.mp hc with hc | hc
        · exact List.mem_append_left _ hc
        · exact List.mem_append_right _ (List.mem_cons_of_mem _ hc)
      obtain ⟨rfl, rfl⟩ := List.append_eq_nil_iff.mp hnil
      intro c hc
      rw [List.mem_singleton.mp hc]
      rfl
  · left
    rw [split_eq_of_notMem hpoint] at hsplit
    have hnil : text ++ [] = [] := by
      apply eq_nil_of_not_isWellFormed _ hsplit
      intro c hc
      rw [fraction, Option.getD_none, List.append_nil] at hc
      exact isDigit_of_isNumeric (h c hc) (ne_of_mem_of_not_mem hc hpoint)
    rw [List.append_nil] at hnil
    rw [hnil]
    exact List.forall_mem_nil _

end Numeral

namespace Expr

theorem evaluate_eq_error_iff {text : String} {cause : SyntaxError} :
    evaluate text = .error cause ↔ parse text = .error cause := by
  unfold evaluate
  cases parse text <;> simp [Except.map]

/--
A refused text breaks off behind an opening, unless it goes on behind a whole expression.
-/
theorem parseWithin_eq_error_iff_breaksOff {limit : Nat} {text : String} {cause : SyntaxError}
    (hcause : ∀ found position, cause ≠ .trailingInput found position) :
    parseWithin limit text = .error cause
      ↔ ∃ (o : Opening .expression) (stop : Cursor),
        o.BreaksOff limit limit (.ofString text) stop cause := by
  unfold parseWithin
  constructor
  · intro h
    split at h
    · next hread =>
      cases h
      exact Grammar.breaksOff_expression (Nested.sound_ofLevels limit limit)
        (Nested.breaksOff_ofLevels limit limit) hread
    · split at h
      · cases h
        exact absurd rfl (hcause _ _)
      · cases h
  · rintro ⟨o, stop, ho⟩
    have hread := o.isFatal limit ho
    rw [Rule.reader] at hread
    rw [hread]

/--
An operand is missing exactly if the text starts with an opening and does not go on with an operand.
-/
theorem parseWithin_eq_error_iff {limit : Nat} {text : String} {cause : SyntaxError}
    (hcause : cause.lacksOperand = true) :
    parseWithin limit text = .error cause
      ↔ ∃ o : Opening .expression, o.Refused limit (.ofString text) cause := by
  rw [parseWithin_eq_error_iff_breaksOff (by rintro found position rfl; cases hcause)]
  constructor
  · rintro ⟨o, stop, ho⟩
    exact ⟨o, ho.refused (by rintro l rfl; cases hcause)⟩
  · rintro ⟨o, stop, ho, hrefuses⟩
    exact ⟨o, stop, ho.canonical, ho.passes, .inl ⟨ho.depth_le, hrefuses⟩⟩

theorem exists_completes_of_trailingInput {limit position : Nat} {text : String} {found : Char}
    (h : parseWithin limit text = .error (.trailingInput found position)) :
    ∃ (front back : List Char) (missing : Nat) (d : Derivation .expression),
      text.toList = front ++ found :: back ∧ position = front.length
        ∧ found ∉ Rule.expression.operators ∧ d.Completes front missing ∧ d.depth ≤ limit := by
  unfold parseWithin at h
  split at h
  · next cause hread =>
    cases h
    -- The readers only refuse a text where an operand should start.
    obtain ⟨o, stop, ho⟩ := Grammar.breaksOff_expression (Nested.sound_ofLevels limit limit)
      (Nested.breaksOff_ofLevels limit limit) hread
    obtain ⟨stop, -, hrefuses⟩ := ho.refused (by rintro l ⟨⟩)
    cases hrefuses.lacksOperand
  · next result hread =>
    split at h
    · next found' hfound =>
      cases h
      obtain ⟨d, hreads, hstops⟩ :=
        Grammar.sound_expression (Nested.sound_ofLevels limit limit) hread
      obtain ⟨front, missing, hchars, htext, hposition, -⟩ := hreads.spans
      obtain ⟨back, hrest⟩ := List.head?_eq_some_iff.mp hfound
      refine ⟨front, back, missing, d, by rw [← hrest]; exact htext, ?_, (hstops found hfound).1,
        ⟨hchars, hreads.canonical, d.map_chars_numerals⟩, hreads.depth_le⟩
      rw [hposition]
      exact Nat.zero_add _
    · cases h

end Expr

namespace Opening

variable {limit : Nat} {text : String} {o : Opening .expression} {stop : Cursor}

theorem Reaches.eq_stop (h : o.Reaches limit (.ofString text) stop) :
    text.toList = o.chars ++ stop.rest ∧ stop.position = o.chars.length := by
  obtain ⟨hrest, hstop⟩ := h.passes
  refine ⟨hrest, ?_⟩
  rw [hstop]
  exact Nat.zero_add _

theorem Reaches.parseWithin_front (h : o.Reaches limit (.ofString text) stop) :
    Expr.parseWithin limit (String.ofList o.chars) = .error .unexpectedEnd := by
  rw [Expr.parseWithin_eq_error_iff rfl]
  refine ⟨o, ⟨o.chars.length, []⟩, ⟨h.depth_le, h.canonical, ?_, ?_⟩, .atEnd _⟩
  · rw [Cursor.ofString, String.toList_ofList, List.append_nil]
  · simp [Cursor.ofString, Cursor.skip]

/--
A number fills any gap.
-/
theorem completes_fill_number (h : o.IsCanonical) {n : Numeral} (hn : n.IsWellFormed) :
    (o.fill (.number n hn)).Completes (o.chars ++ n.chars) o.unclosed := by
  refine ⟨o.chars_fill, ?_, Derivation.map_chars_numerals _⟩
  apply isCanonical_fill _ _ h
  · trivial
  · intro hopen
    have hnumeric := Numeral.isNumeric_of_mem_chars hn (List.mem_of_mem_head? hopen)
    cases hnumeric

end Opening

namespace Expr

variable {text : String} {cause : SyntaxError}

/--
A text that lacks an operand, cut off where the operand should have started.
-/
theorem exists_reaches_of_evaluate (h : evaluate text = .error cause)
    (hcause : cause.lacksOperand = true) :
    ∃ (o : Opening .expression) (stop : Cursor),
      o.Reaches maxDepth (.ofString (normalize text)) stop ∧ stop.Refuses cause
        ∧ evaluate (String.ofList o.chars) = .error .unexpectedEnd := by
  rw [evaluate_eq_error_iff, parse, parseWithin_eq_error_iff hcause] at h
  obtain ⟨o, stop, ho, hrefuses⟩ := h
  refine ⟨o, stop, ho, hrefuses, ?_⟩
  rw [evaluate_eq_error_iff, parse, normalize_front ho.eq_stop.1]
  exact ho.parseWithin_front

theorem exists_evaluate_append_one (h : evaluate text = .error .unexpectedEnd) :
    ∃ v, evaluate (normalize text ++ "1") = .ok v := by
  obtain ⟨o, stop, ho, hrefuses, -⟩ := exists_reaches_of_evaluate h rfl
  cases hrefuses
  have hchars := ho.eq_stop.1
  rw [List.append_nil] at hchars
  let one : Numeral := ⟨['1'], none⟩
  have hone : one.IsWellFormed := by decide
  have hplain : normalize (normalize text ++ "1") = normalize text ++ "1" := by
    rw [← String.ofList_toList (s := normalize text ++ "1")]
    apply normalize_ofList
    intro c hc
    rw [String.toList_append, List.mem_append] at hc
    rcases hc with hc | hc
    · exact plain_of_mem_normalize hc
    · rw [List.mem_singleton.mp hc]
      exact ⟨by decide, rfl⟩
  have hcompletes : (o.fill (.number one hone)).Completes (normalize (normalize text ++ "1")).toList
      o.unclosed := by
    rw [hplain, String.toList_append, hchars]
    exact Opening.completes_fill_number ho.canonical hone
  refine ⟨_, evaluate_of_completes hcompletes ?_⟩
  rw [Opening.depth_fill rfl]
  exact ho.depth_le

theorem evaluate_take_of_unexpectedChar {found : Char} {position : Nat}
    (h : evaluate text = .error (.unexpectedChar found position)) :
    (normalize text).toList[position]? = some found
      ∧ evaluate (String.ofList ((normalize text).toList.take position))
        = .error .unexpectedEnd := by
  obtain ⟨o, stop, ho, hrefuses, hfront⟩ := exists_reaches_of_evaluate h rfl
  obtain ⟨htext, hposition⟩ := ho.eq_stop
  cases hrefuses
  subst hposition
  rw [htext]
  exact ⟨by simp, by simpa using hfront⟩

theorem evaluate_take_of_trailingInput {found : Char} {position : Nat}
    (h : evaluate text = .error (.trailingInput found position)) :
    (normalize text).toList[position]? = some found ∧ found ∉ ['+', '-', '*', '/', '%', '^']
      ∧ ∃ v, evaluate (String.ofList ((normalize text).toList.take position)) = .ok v := by
  rw [evaluate_eq_error_iff, parse] at h
  obtain ⟨front, back, missing, d, htext, rfl, hfound, hcompletes, hdepth⟩ :=
    exists_completes_of_trailingInput h
  have hfront := normalize_front htext
  have hplain : d.Completes (normalize (String.ofList front)).toList missing := by
    rwa [hfront, String.toList_ofList]
  rw [htext, List.take_left]
  exact ⟨by simp, hfound, d.value, evaluate_of_completes hplain hdepth⟩

theorem evaluate_front_of_invalidNumber {literal : String}
    (h : evaluate text = .error (.invalidNumber literal)) :
    ∃ front back : List Char, (normalize text).toList = front ++ literal.toList ++ back
      ∧ literal ≠ "" ∧ (∀ c ∈ literal.toList, Cursor.isNumeric c = true)
      ∧ (∀ c ∈ front.getLast?, Cursor.isNumeric c = false)
      ∧ (∀ c ∈ back.head?, Cursor.isNumeric c = false)
      ∧ ((∀ c ∈ literal.toList, c.isDigit = false) ∨ 2 ≤ literal.toList.count '.')
      ∧ evaluate (String.ofList front) = .error .unexpectedEnd := by
  obtain ⟨o, stop, ho, hrefuses, hfront⟩ := exists_reaches_of_evaluate h rfl
  obtain ⟨htext, hposition⟩ := ho.eq_stop
  cases hrefuses with
  | atNumber hnonempty hliteral =>
    have hnumeric : ∀ c ∈ stop.number, Cursor.isNumeric c = true := fun c => List.mem_takeWhile_imp
    rw [String.toList_ofList]
    refine ⟨o.chars, stop.skipNumber.rest, ?_, ?_, hnumeric, o.notNumeric_getLast?_chars, ?_, ?_,
      hfront⟩
    · rw [htext, List.append_assoc, stop.number_append_skipNumber]
    · rwa [Ne, String.ofList_eq_empty_iff]
    · rw [stop.rest_skipNumber]
      intro c hc
      have hback := List.head?_dropWhile_not Cursor.isNumeric stop.rest
      rw [Option.mem_def.mp hc] at hback
      simpa using hback
    · exact Numeral.digits_or_points_of_ofChars? hnumeric hliteral

end Expr

theorem evaluate_eq_error_points (text : String) :
    (Expr.evaluate text = .error .unexpectedEnd →
        ∃ v, Expr.evaluate (Expr.normalize text ++ "1") = .ok v)
      ∧ (∀ found position, Expr.evaluate text = .error (.unexpectedChar found position) →
        (Expr.normalize text).toList[position]? = some found
          ∧ Expr.evaluate (String.ofList ((Expr.normalize text).toList.take position))
            = .error .unexpectedEnd)
      ∧ (∀ found position, Expr.evaluate text = .error (.trailingInput found position) →
        (Expr.normalize text).toList[position]? = some found
          ∧ found ∉ ['+', '-', '*', '/', '%', '^']
          ∧ ∃ v, Expr.evaluate (String.ofList ((Expr.normalize text).toList.take position)) = .ok v)
      ∧ (∀ literal, Expr.evaluate text = .error (.invalidNumber literal) →
        ∃ front back : List Char, (Expr.normalize text).toList = front ++ literal.toList ++ back
          ∧ literal ≠ "" ∧ (∀ c ∈ literal.toList, Cursor.isNumeric c = true)
          ∧ (∀ c ∈ front.getLast?, Cursor.isNumeric c = false)
          ∧ (∀ c ∈ back.head?, Cursor.isNumeric c = false)
          ∧ ((∀ c ∈ literal.toList, c.isDigit = false) ∨ 2 ≤ literal.toList.count '.')
          ∧ Expr.evaluate (String.ofList front) = .error .unexpectedEnd) := by
  refine ⟨?_, ?_, ?_, ?_⟩
  · exact Expr.exists_evaluate_append_one
  · intro found position
    exact Expr.evaluate_take_of_unexpectedChar
  · intro found position
    exact Expr.evaluate_take_of_trailingInput
  · intro literal
    exact Expr.evaluate_front_of_invalidNumber

end Calculator
