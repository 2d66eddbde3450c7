import Calculator.Proofs.Expression.Acceptance

/-!
This module contains the theorem about the closing parentheses that a text lacks: as many of them as
there are open groups may be added at its end without any effect, and the next one is refused.
-/

namespace Calculator

namespace Derivation

theorem count_parenthesis_symbol (op : BinaryOp) :
    [op.symbol].count '(' = 0 ∧ [op.symbol].count ')' = 0 := by
  cases op <;> decide

theorem count_parenthesis_sign (sign : Sign) :
    [sign.symbol].count '(' = 0 ∧ [sign.symbol].count ')' = 0 := by
  cases sign <;> decide

theorem count_numeral {n : Numeral} (h : n.IsWellFormed) {c : Char}
    (hc : Cursor.isNumeric c = false) : n.chars.count c = 0 := by
  rw [List.count_eq_zero]
  intro hmem
  rw [Numeral.isNumeric_of_mem_chars h hmem] at hc
  cases hc

/--
Only groups have parentheses, and every group is closed.
-/
theorem count_chars {rule : Rule} (d : Derivation rule) : d.chars.count '(' = d.chars.count ')' := by
  induction d with
  | ofTerm _ ih | ofFactor _ ih | ofPowers _ ih | ofBase _ ih | ofPrimary _ ih | ofGroup _ ih =>
    exact ih
  | sum _ op _ _ ihLeft ihRight | product _ op _ _ ihLeft ihRight =>
    obtain ⟨hopen, hclose⟩ := count_parenthesis_symbol op
    rw [chars, List.append_cons, List.count_append, List.count_append, List.count_append,
      List.count_append, hopen, hclose, ihLeft, ihRight]
  | power _ _ ihBase ihExponent => simp [chars, ihBase, ihExponent]
  | signedFactor sign _ ih | signedOperand sign _ ih =>
    obtain ⟨hopen, hclose⟩ := count_parenthesis_sign sign
    rw [chars, ← List.singleton_append, List.count_append, List.count_append, hopen, hclose, ih]
  | number numeral h => rw [chars, count_numeral h rfl, count_numeral h rfl]
  | keywordGroup _ ih | keywordFactor _ ih => simp [chars, ih]
  | radical _ ih => simp [chars, ih]
  | group _ ih => simp [chars, ih]

theorem Completes.count_eq {d : Derivation .expression} {text : List Char} {missing : Nat}
    (h : d.Completes text missing) : text.count '(' = text.count ')' + missing := by
  have hbalanced := d.count_chars
  have hopen : (List.replicate missing ')').count '(' = 0 := by simp [List.count_replicate]
  rw [h.chars, List.count_append, List.count_append, hopen, List.count_replicate_self] at hbalanced
  exact hbalanced

theorem Completes.append_closing {d : Derivation .expression} {text : List Char} {missing : Nat}
    (h : d.Completes text missing) {closed : Nat} (hclosed : closed ≤ missing) :
    d.Completes (text ++ List.replicate closed ')') (missing - closed) := by
  refine ⟨?_, h.canonical, h.numbers⟩
  rw [h.chars, List.append_assoc, List.replicate_append_replicate, Nat.add_sub_cancel' hclosed]

end Derivation

namespace Expr

/--
A parenthesis behind a text in which every group is closed is left over.
-/
theorem parseWithin_closing_behind {limit : Nat} {text : String} {front back : List Char}
    {d : Derivation .expression} (h : d.Completes front 0) (hdepth : d.depth ≤ limit)
    (htext : text.toList = front ++ ')' :: back) :
    parseWithin limit text = .error (.trailingInput ')' front.length) := by
  let stop : Cursor := ⟨front.length, ')' :: back⟩
  have hspans : Cursor.Spans d.chars (.ofString text) stop :=
    ⟨front, 0, h.chars, htext, (Nat.zero_add _).symm, .inl rfl⟩
  have hreads : d.Reads limit (.ofString text) ⟨d.tree, stop⟩ :=
    ⟨rfl, hdepth, h.canonical, hspans⟩
  have hnumber : ∀ c ∈ stop.rest.head?, Cursor.isNumeric c = false := by
    rintro c ⟨⟩
    rfl
  have hread := Derivation.IsRead.read_eq_ok (d.isRead limit) hreads
    (Derivation.stopsAt_closing rfl) hnumber
  rw [Rule.reader] at hread
  unfold parseWithin
  rw [hread]
  rfl

theorem parseWithin_append_closing {limit : Nat} {text : String} {missing : Nat}
    {d : Derivation .expression} (h : d.Completes text.toList missing) (hdepth : d.depth ≤ limit)
    (closed : Nat) :
    parseWithin limit (text ++ String.ofList (List.replicate closed ')'))
      = if closed ≤ missing then .ok d.tree
        else .error (.trailingInput ')' (text.toList.length + missing)) := by
  have htext : (text ++ String.ofList (List.replicate closed ')')).toList
      = text.toList ++ List.replicate closed ')' := by simp
  split
  · next hle =>
    have hclosed := h.append_closing hle
    rw [← htext] at hclosed
    exact parseWithin_of_completes hclosed hdepth
  · next hgt =>
    have hclosed := h.append_closing (Nat.le_refl missing)
    rw [Nat.sub_self] at hclosed
    have hsplit : (text ++ String.ofList (List.replicate closed ')')).toList
        = (text.toList ++ List.replicate missing ')')
          ++ ')' :: List.replicate (closed - missing - 1) ')' := by
      rw [htext, List.append_assoc, ← List.replicate_succ, List.replicate_append_replicate]
      congr 2
      omega
    rw [parseWithin_closing_behind hclosed hdepth hsplit]
    simp

-- The characters that a text and its normal form need not have in common.
def changing : List Char := [' ', '×', '÷', '*', '/']

theorem canonical_eq_iff {c : Char} (h : c ∉ changing) (x : Char) : canonical x = c ↔ x = c := by
  simp only [changing, List.mem_cons, not_or] at h
  unfold canonical
  split
  · exact iff_of_false (Ne.symm h.2.2.2.1) (Ne.symm h.2.1)
  · exact iff_of_false (Ne.symm h.2.2.2.2.1) (Ne.symm h.2.2.1)
  · rfl

theorem count_normalizeChars {c : Char} (h : c ∉ changing) (text : List Char) :
    (normalizeChars text).count c = text.count c := by
  have hspace : c ≠ ' ' := ne_of_mem_of_not_mem (by decide) h |>.symm
  unfold normalizeChars
  rw [List.count_eq_countP, List.countP_map, List.countP_filter, List.count_eq_countP]
  apply List.countP_congr
  intro x _
  simp only [Function.comp_apply, beq_iff_eq, Bool.and_eq_true, decide_eq_true_eq, canonical_eq_iff h]
  constructor
  · exact And.left
  · rintro rfl
    exact ⟨rfl, hspace⟩

theorem count_normalize {c : Char} (h : c ∉ changing) (text : String) :
    (normalize text).toList.count c = text.toList.count c := by
  rw [normalize, String.toList_ofList, count_normalizeChars h]

theorem normalize_append_closing (text : String) (closed : Nat) :
    normalize (text ++ String.ofList (List.replicate closed ')'))
      = normalize text ++ String.ofList (List.replicate closed ')') := by
  have hclosing : normalizeChars (List.replicate closed ')') = List.replicate closed ')' := by
    simp [normalizeChars, canonical]
  unfold normalize
  rw [← String.ofList_append]
  congr 1
  rw [String.toList_append, String.toList_ofList, ← hclosing]
  simp [normalizeChars, canonical]

end Expr

theorem evaluate_append_closing {text : String} {v : Binary64} (h : Expr.evaluate text = .ok v) :
    text.toList.count ')' ≤ text.toList.count '('
      ∧ ∀ closed, Expr.evaluate (text ++ String.ofList (List.replicate closed ')'))
        = if closed ≤ text.toList.count '(' - text.toList.count ')' then .ok v
          else .error (.trailingInput ')' ((Expr.normalize text).toList.length
            + (text.toList.count '(' - text.toList.count ')'))) := by
  obtain ⟨e, hparse, rfl⟩ := Expr.evaluate_eq_ok_iff.mp h
  obtain ⟨missing, d, hcompletes, hdepth, rfl⟩ := Expr.parseWithin_eq_ok_iff.mp hparse
  have hcount := hcompletes.count_eq
  rw [Expr.count_normalize (by decide), Expr.count_normalize (by decide)] at hcount
  have hmissing : text.toList.count '(' - text.toList.count ')' = missing := by omega
  refine ⟨by omega, ?_⟩
  intro closed
  rw [hmissing, Expr.evaluate, Expr.parse, Expr.normalize_append_closing,
    Expr.parseWithin_append_closing hcompletes hdepth]
  split <;> rfl

theorem evaluate_append_closing_radical :
    ∃ v, Expr.evaluate "√( 16" = .ok v
      ∧ Expr.evaluate "√( 16)" = .ok v
      ∧ Expr.evaluate "√( 16))" = .error (.trailingInput ')' 5) := by
  let radicand : Derivation .expression :=
    .ofTerm (.ofFactor (.ofPowers (.ofBase (.number ⟨['1', '6'], none⟩ (by decide)))))
  let d : Derivation .expression :=
    .ofTerm (.ofFactor (.ofPowers (.ofBase
      (.radical (.ofPowers (.ofBase (.ofGroup (.group radicand))))))))
  have hcompletes : d.Completes (Expr.normalize "√( 16").toList 1 :=
    ⟨rfl, trivial, d.map_chars_numerals⟩
  have hopen : Expr.evaluate "√( 16" = .ok d.value :=
    Expr.evaluate_of_completes hcompletes (by decide)
  have hclosed := (evaluate_append_closing hopen).2
  exact ⟨d.value, hopen, hclosed 1, hclosed 2⟩

end Calculator
