import Calculator.Proofs.Expression.Literal
import Calculator.Proofs.State.Typing
import Mathlib.Data.List.Chain

/-!
This module contains the theorem that says when two operators come to stand side by side in a
buffer. A binary operator replaces the operator in front of it, but if there is a point between the
two, it replaces the point, and the operator in front of the point stays.
-/

namespace Calculator

namespace Key

/--
The symbols that open or close a group.
-/
def groupSymbols : List String := ["(", ")", "√("]

/--
The keys of a keypad.
-/
def isOnKeypad : Key → Bool
  | .digit symbol => symbol.isDigit || symbol = '.'
  | .operator symbol => isBinaryOperator symbol || groupSymbols.contains symbol
  | .clear => true
  | .delete => true
  | .calculate => true
  | .clearHistory => true

def operatorChars : List Char := ['+', '-', '×', '÷', '^', '%']

theorem isBinaryOperator_iff {symbol : String} :
    isBinaryOperator symbol = true ↔ ∃ c ∈ operatorChars, String.singleton c = symbol := by
  have hoperators : binaryOperators = operatorChars.map String.singleton := rfl
  rw [isBinaryOperator, hoperators, List.contains_eq_mem, decide_eq_true_eq, List.mem_map]

theorem isOperatorChar_iff {c : Char} : isOperatorChar c = true ↔ c ∈ operatorChars := by
  rw [isOperatorChar, isBinaryOperator_iff]
  constructor
  · rintro ⟨c', hmem, hc⟩
    rwa [← String.singleton_inj.mp hc]
  · intro hmem
    exact ⟨c, hmem, rfl⟩

theorem mem_replaceableTail_iff {c : Char} :
    c ∈ replaceableTail ↔ isOperatorChar c = true ∨ c = '.' := by
  have htail : replaceableTail = operatorChars ++ ['.'] := rfl
  rw [htail, List.mem_append, List.mem_singleton, isOperatorChar_iff]

end Key

open Key (isOperatorChar)

/--
No two adjacent characters of the text are both binary operators.
-/
def OperatorsApart (text : List Char) : Prop :=
  text.IsChain fun first second => ¬(isOperatorChar first = true ∧ isOperatorChar second = true)

instance (text : List Char) : Decidable (OperatorsApart text) :=
  inferInstanceAs (Decidable (text.IsChain _))

def EndsInPointBehindOperator (text : List Char) : Prop :=
  ∃ front symbol, text = front ++ [symbol, '.'] ∧ isOperatorChar symbol = true

section Text

variable {front text : List Char} {last c : Char}

theorem operatorsApart_concat_iff :
    OperatorsApart (front ++ [c]) ↔ OperatorsApart front
      ∧ ∀ last ∈ front.getLast?, ¬(isOperatorChar last = true ∧ isOperatorChar c = true) := by
  unfold OperatorsApart
  rw [List.isChain_append]
  simp

theorem operatorsApart_concat_of_ne (hc : isOperatorChar c = false) :
    OperatorsApart (front ++ [c]) ↔ OperatorsApart front := by
  rw [operatorsApart_concat_iff]
  simp [hc]

theorem operatorsApart_append_of_any (h : text.any isOperatorChar = false) :
    OperatorsApart (front ++ text) ↔ OperatorsApart front := by
  induction text using List.reverseRecOn with
  | nil => rw [List.append_nil]
  | append_singleton text c ih =>
    rw [List.any_append, Bool.or_eq_false_iff] at h
    have hc : isOperatorChar c = false := by simpa using h.2
    rw [← List.append_assoc, operatorsApart_concat_of_ne hc, ih h.1]

theorem endsInPointBehindOperator_concat_iff :
    EndsInPointBehindOperator (front ++ [last])
      ↔ last = '.' ∧ ∃ symbol ∈ front.getLast?, isOperatorChar symbol = true := by
  unfold EndsInPointBehindOperator
  constructor
  · rintro ⟨front', symbol, htext, hsymbol⟩
    have hsplit : front ++ [last] = (front' ++ [symbol]) ++ ['.'] := by
      rw [htext, List.append_assoc]
      rfl
    obtain ⟨rfl, hlast⟩ := List.append_inj' hsplit rfl
    exact ⟨List.singleton_inj.mp hlast, symbol, List.getLast?_concat, hsymbol⟩
  · rintro ⟨rfl, symbol, hmem, hsymbol⟩
    obtain ⟨front', rfl⟩ := List.getLast?_eq_some_iff.mp hmem
    exact ⟨front', symbol, List.append_assoc _ _ _, hsymbol⟩

end Text

namespace State

theorem operatorsApart_extendBuffer_of_any {buffer symbol : String}
    (hsymbol : symbol.toList.any isOperatorChar = false)
    (hbinary : Key.isBinaryOperator symbol = false) (h : OperatorsApart buffer.toList) :
    OperatorsApart (extendBuffer buffer symbol).toList := by
  have hreplaces : replacesTail buffer symbol = false := by
    rw [replacesTail, hbinary, Bool.false_and]
  rw [extendBuffer, hreplaces, String.toList_append, operatorsApart_append_of_any hsymbol]
  exact h

theorem operatorsApart_extendBuffer_iff {buffer : String} {c : Char} (hc : isOperatorChar c = true)
    (h : OperatorsApart buffer.toList) :
    OperatorsApart (extendBuffer buffer (String.singleton c)).toList
      ↔ ¬EndsInPointBehindOperator buffer.toList := by
  have hbinary : Key.isBinaryOperator (String.singleton c) = true := hc
  unfold extendBuffer replacesTail
  rw [hbinary, Bool.true_and]
  rcases List.eq_nil_or_concat' buffer.toList with hnil | ⟨front, last, hbuffer⟩
  · simp [hnil, EndsInPointBehindOperator, OperatorsApart]
  rw [hbuffer, List.getLast?_concat, Option.any_some, List.contains_eq_mem,
    endsInPointBehindOperator_concat_iff]
  by_cases htail : last ∈ Key.replaceableTail
  · -- What stands in front of the replaced character meets the new operator.
    rw [hbuffer, operatorsApart_concat_iff] at h
    rw [decide_eq_true htail, if_pos rfl, dropLast, hbuffer, List.dropLast_concat,
      String.toList_append, String.toList_ofList, String.toList_singleton,
      operatorsApart_concat_iff]
    rcases Key.mem_replaceableTail_iff.mp htail with hlast | rfl
    · have hpoint : last ≠ '.' := by
        rintro rfl
        cases hlast
      rw [hlast] at h
      rw [hc]
      exact iff_of_true h fun hends => hpoint hends.1
    · simp [h.1, hc]
  · rw [Key.mem_replaceableTail_iff, not_or] at htail
    rw [hbuffer] at h
    have hoperator : isOperatorChar last = false := by simpa using htail.1
    rw [decide_eq_false (by simpa [Key.mem_replaceableTail_iff] using htail), if_neg (by decide),
      String.toList_append, hbuffer, String.toList_singleton, operatorsApart_concat_iff]
    simp [h, htail.2, hoperator]

theorem operatorsApart_of_any_tail {text : List Char} (h : text.tail.any isOperatorChar = false) :
    OperatorsApart text := by
  cases text with
  | nil => exact .nil
  | cons first rest =>
    rw [List.tail_cons] at h
    rw [← List.singleton_append, operatorsApart_append_of_any h]
    exact .singleton first

theorem isOperatorChar_of_isNumeric {c : Char} (h : Cursor.isNumeric c = true) :
    isOperatorChar c = false := by
  have hnone : Key.operatorChars.any Cursor.isNumeric = false := by decide
  rw [List.any_eq_false] at hnone
  rw [Bool.eq_false_iff, ne_eq, Key.isOperatorChar_iff]
  intro hmem
  exact hnone c hmem h

theorem operatorsApart_display (x : Binary64) (places : Nat) :
    OperatorsApart (x.display places).toList := by
  apply operatorsApart_of_any_tail
  rw [Binary64.display, String.toList_ofList]
  cases x with
  | nan => rfl
  | infinity negative => cases negative <;> rfl
  | finite negative units h =>
    rw [List.any_eq_false]
    intro c hmem
    rw [Bool.not_eq_true]
    have htext : c ∈ (Binary64.roundUnits units (min places Binary64.exactPlaces)).text := by
      cases negative with
      | false => exact List.mem_of_mem_tail hmem
      | true => exact hmem
    exact isOperatorChar_of_isNumeric (Decimal.isNumeric_of_mem_text htext)

end State

namespace Keystroke

/--
A binary operator is pressed on a buffer that ends in a point behind another operator.
-/
def ReplacesPointBehindOperator (stroke : Keystroke) : Prop :=
  ∃ symbol, stroke.key = .operator symbol ∧ Key.isBinaryOperator symbol = true
    ∧ EndsInPointBehindOperator stroke.before.editable.toList

theorem not_replaces_of_ne {stroke : Keystroke} (h : ∀ symbol, stroke.key ≠ .operator symbol) :
    ¬stroke.ReplacesPointBehindOperator := by
  rintro ⟨symbol, hkey, _⟩
  exact h symbol hkey

theorem replacesPointBehindOperator_iff {before after : State} {symbol : String} :
    ReplacesPointBehindOperator ⟨before, .operator symbol, after⟩
      ↔ Key.isBinaryOperator symbol = true ∧ EndsInPointBehindOperator before.editable.toList := by
  constructor
  · rintro ⟨_, ⟨⟩, hends⟩
    exact hends
  · intro hends
    exact ⟨symbol, rfl, hends⟩

end Keystroke

namespace State

variable {config : Config} {state next : State} {key : Key}

theorem operatorsApart_placeholder : OperatorsApart emptyDisplay.toList := by
  decide

theorem operatorsApart_pending (h : OperatorsApart state.displayText.toList) :
    OperatorsApart state.pending.toList := by
  unfold pending
  split
  · exact operatorsApart_placeholder
  · exact h

theorem operatorsApart_editable (h : OperatorsApart state.displayText.toList) :
    OperatorsApart state.editable.toList := by
  unfold editable
  split
  · decide
  · exact h

theorem operatorsApart_append_digit {symbol : Char} (hkey : (Key.digit symbol).isOnKeypad = true)
    (h : OperatorsApart state.displayText.toList) :
    OperatorsApart (state.append (String.singleton symbol)).displayText.toList := by
  have hsymbol : isOperatorChar symbol = false := isOperatorChar_of_isNumeric hkey
  apply operatorsApart_extendBuffer_of_any
  · simpa using hsymbol
  · exact hsymbol
  · exact operatorsApart_editable h

theorem operatorsApart_append_group {symbol : String} (hsymbol : symbol ∈ Key.groupSymbols)
    (h : OperatorsApart state.displayText.toList) :
    OperatorsApart (state.append symbol).displayText.toList := by
  have hgroup : ∀ symbol ∈ Key.groupSymbols,
      symbol.toList.any isOperatorChar = false ∧ Key.isBinaryOperator symbol = false := by decide
  apply operatorsApart_extendBuffer_of_any
  · exact (hgroup symbol hsymbol).1
  · exact (hgroup symbol hsymbol).2
  · exact operatorsApart_editable h

theorem operatorsApart_delete (h : OperatorsApart state.displayText.toList) :
    OperatorsApart state.delete.displayText.toList := by
  rw [delete_eq_typing, typing, Key.shortened]
  dsimp only
  split
  · exact operatorsApart_placeholder
  · rw [dropLast, String.toList_ofList]
    exact List.IsChain.prefix (operatorsApart_pending h) (List.dropLast_prefix _)

theorem operatorsApart_calculate (h : OperatorsApart state.displayText.toList) :
    OperatorsApart (state.press config .calculate).displayText.toList := by
  have heffect := effect_press config state .calculate
  generalize state.press config .calculate = next at heffect ⊢
  cases heffect with
  | edit hedit => cases hedit
  | nothing => exact h
  | success => apply operatorsApart_display
  | failure => exact h

theorem operatorsApart_press_iff (config : Config) (hkey : key.isOnKeypad = true)
    (h : OperatorsApart state.displayText.toList) :
    OperatorsApart (state.press config key).displayText.toList
      ↔ ¬Keystroke.ReplacesPointBehindOperator ⟨state, key, state.press config key⟩ := by
  cases key with
  | operator symbol =>
    rw [Keystroke.replacesPointBehindOperator_iff]
    by_cases hbinary : Key.isBinaryOperator symbol = true
    · obtain ⟨c, hc, rfl⟩ := Key.isBinaryOperator_iff.mp hbinary
      rw [and_iff_right hbinary]
      exact operatorsApart_extendBuffer_iff hbinary (operatorsApart_editable h)
    · refine iff_of_true (operatorsApart_append_group ?_ h) fun hreplaces => hbinary hreplaces.1
      simpa [Key.isOnKeypad, hbinary] using hkey
  | digit symbol =>
    exact iff_of_true (operatorsApart_append_digit hkey h) (Keystroke.not_replaces_of_ne nofun)
  | clear => exact iff_of_true operatorsApart_placeholder (Keystroke.not_replaces_of_ne nofun)
  | delete => exact iff_of_true (operatorsApart_delete h) (Keystroke.not_replaces_of_ne nofun)
  | calculate => exact iff_of_true (operatorsApart_calculate h) (Keystroke.not_replaces_of_ne nofun)
  | clearHistory => exact iff_of_true h (Keystroke.not_replaces_of_ne nofun)

theorem operatorsApart_run_of_keystrokes {keys : List Key}
    (h : ∀ stroke ∈ keystrokes config {} keys, OperatorsApart stroke.after.displayText.toList) :
    OperatorsApart (run config {} keys).displayText.toList := by
  rcases List.eq_nil_or_concat' keys with rfl | ⟨keys, key, rfl⟩
  · exact operatorsApart_placeholder
  · rw [keystrokes_concat] at h
    rw [run_concat]
    exact h _ List.mem_concat_self

theorem operatorsApart_keystrokes_iff (config : Config) {keys : List Key}
    (hkeys : ∀ key ∈ keys, key.isOnKeypad = true) :
    (∀ stroke ∈ keystrokes config {} keys, OperatorsApart stroke.after.displayText.toList)
      ↔ ∀ stroke ∈ keystrokes config {} keys, ¬stroke.ReplacesPointBehindOperator := by
  induction keys using List.reverseRecOn with
  | nil => simp [keystrokes]
  | append_singleton keys key ih =>
    rw [keystrokes_concat, List.forall_mem_append, List.forall_mem_append,
      List.forall_mem_singleton, List.forall_mem_singleton, ← ih]
    · apply and_congr_right
      intro hapart
      exact operatorsApart_press_iff config (hkeys key (by simp))
        (operatorsApart_run_of_keystrokes hapart)
    · intro key hmem
      exact hkeys key (List.mem_append_left _ hmem)

theorem operatorsApart_keystrokes_point :
    (∀ key ∈ [Key.digit '5', .operator "+", .digit '.', .operator "×"], key.isOnKeypad = true)
      ∧ (run {} {} [.digit '5', .operator "+", .digit '.', .operator "×"]).displayText = "5+×"
      ∧ ∃ stroke ∈ keystrokes {} {} [.digit '5', .operator "+", .digit '.', .operator "×"],
          stroke.ReplacesPointBehindOperator := by
  have hkeys : ∀ key ∈ [Key.digit '5', .operator "+", .digit '.', .operator "×"],
      key.isOnKeypad = true := by decide
  have hiff := operatorsApart_keystrokes_iff {} hkeys
  refine ⟨hkeys, by decide, ?_⟩
  by_contra hnone
  have hapart := hiff.mpr fun stroke hmem hreplaces => hnone ⟨stroke, hmem, hreplaces⟩
  exact absurd (operatorsApart_run_of_keystrokes hapart) (by decide)

theorem not_forall_operatorsApart :
    ¬ ∀ (config : Config) (keys : List Key), (∀ key ∈ keys, key.isOnKeypad = true) →
      OperatorsApart (run config {} keys).displayText.toList := by
  intro h
  have hapart := h {} [.digit '5', .operator "+", .digit '.', .operator "+"] (by decide)
  exact absurd hapart (by decide)

end State

end Calculator
