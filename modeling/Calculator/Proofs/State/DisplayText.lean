import Calculator.Proofs.State.Effect

/-!
This module contains the theorem that says when a calculator has nothing to show: only an operator
without any character, pressed on an empty buffer, leaves the buffer without a text.
-/

namespace Calculator

namespace Key

/--
The keys that leave a buffer without a text as it is.
-/
def keepsEmpty : Key → Bool
  | .digit _ => false
  | .operator symbol => symbol = ""
  | .clear => false
  | .delete => false
  | .calculate => true
  | .clearHistory => true

theorem shortened_ne_empty (text : String) : shortened text ≠ "" := by
  unfold shortened
  split
  · decide
  · next hlength =>
    unfold State.dropLast
    rw [Ne, String.ofList_eq_empty_iff, ← List.length_eq_zero_iff, List.length_dropLast]
    omega

end Key

namespace State

theorem extendBuffer_eq_empty_iff (buffer symbol : String) :
    extendBuffer buffer symbol = "" ↔ symbol = "" ∧ buffer = "" := by
  unfold extendBuffer
  rw [String.append_eq_empty_iff, and_comm]
  apply and_congr_right
  intro hsymbol
  -- The empty symbol is no binary operator, so the buffer keeps its last character.
  have hreplaces : replacesTail buffer symbol = false := by
    rw [hsymbol]
    rfl
  rw [hreplaces]
  rfl

/--
An empty operator meets an empty buffer, and no key behind it brings a text back.
-/
def Empties (config : Config) (keys : List Key) : Prop :=
  ∃ front back, keys = front ++ .operator "" :: back
    ∧ (run config {} front).editable = "" ∧ ∀ key ∈ back, key.keepsEmpty = true

theorem empties_concat_iff {config : Config} {keys : List Key} {key : Key} :
    Empties config (keys ++ [key])
      ↔ (key = .operator "" ∧ (run config {} keys).editable = "")
        ∨ (key.keepsEmpty = true ∧ Empties config keys) := by
  constructor
  · rintro ⟨front, back, hkeys, heditable, hback⟩
    rcases List.eq_nil_or_concat back with rfl | ⟨back, last, rfl⟩
    · obtain ⟨rfl, hkey⟩ := List.append_inj' hkeys rfl
      cases hkey
      exact .inl ⟨rfl, heditable⟩
    · rw [List.concat_eq_append, ← List.cons_append, ← List.append_assoc] at hkeys
      obtain ⟨rfl, hkey⟩ := List.append_inj' hkeys rfl
      cases hkey
      refine .inr ⟨hback _ (by simp), front, back, rfl, heditable, ?_⟩
      intro key hmem
      apply hback
      simp [hmem]
  · rintro (⟨rfl, heditable⟩ | ⟨hkeeps, front, back, rfl, heditable, hback⟩)
    · exact ⟨keys, [], rfl, heditable, by simp⟩
    · refine ⟨front, back ++ [key], by simp, heditable, ?_⟩
      intro key' hmem
      rw [List.mem_append, List.mem_singleton] at hmem
      rcases hmem with hmem | rfl
      · exact hback _ hmem
      · exact hkeeps

variable {config : Config} {state next : State} {key : Key}

theorem editable_of_displayText (h : state.displayText = "") : state.editable = "" := by
  unfold editable
  split
  · rfl
  · exact h

theorem edit_pending_eq_empty_iff (hedit : key.isEdit = true) :
    key.edit state.pending = "" ↔ key = .operator "" ∧ state.editable = "" := by
  rw [editable_eq_withoutPlaceholder]
  cases key with
  | digit symbol =>
    simp only [Key.edit, reduceCtorEq, false_and, iff_false]
    rw [extendBuffer_eq_empty_iff]
    intro hempty
    exact String.singleton_ne_empty hempty.1
  | operator symbol =>
    simp only [Key.edit, Key.operator.injEq]
    apply extendBuffer_eq_empty_iff
  | delete =>
    simp only [Key.edit, reduceCtorEq, false_and, iff_false]
    apply Key.shortened_ne_empty
  | _ => cases hedit

theorem editable_of_keepsEmpty (hkeeps : key.keepsEmpty = true) (hedit : key.isEdit = true)
    (h : state.displayText = "") : key = .operator "" ∧ state.editable = "" := by
  cases key with
  | operator symbol =>
    rw [Key.keepsEmpty, decide_eq_true_eq] at hkeeps
    exact ⟨congrArg _ hkeeps, editable_of_displayText h⟩
  | digit | delete => cases hkeeps
  | _ => cases hedit

theorem Effect.displayText_eq_empty_iff (h : Effect config state key next) :
    next.displayText = "" ↔ (key = .operator "" ∧ state.editable = "")
      ∨ (key.keepsEmpty = true ∧ state.displayText = "") := by
  cases h with
  | edit hedit =>
    rw [typing, edit_pending_eq_empty_iff hedit, or_iff_left_of_imp]
    intro hkeeps
    exact editable_of_keepsEmpty hkeeps.1 hedit hkeeps.2
  | clear => simp [typing, emptyDisplay, Key.keepsEmpty]
  | nothing hempty => simp [hempty, Key.keepsEmpty]
  -- A calculation takes place only on a buffer with a text, and leaves one.
  | success hnonempty => simp [hnonempty, Binary64.display_ne_empty]
  | failure hnonempty => simp [hnonempty]
  | clearHistory => simp [Key.keepsEmpty]

theorem displayText_run_eq_empty_iff (config : Config) (keys : List Key) :
    (run config {} keys).displayText = "" ↔ Empties config keys := by
  induction keys using List.reverseRecOn with
  | nil =>
    constructor
    · intro hempty
      have hplaceholder : emptyDisplay ≠ "" := by decide
      exact absurd hempty hplaceholder
    · rintro ⟨front, back, hkeys, -⟩
      simp at hkeys
  | append_singleton keys key ih =>
    rw [run_concat, (effect_press config (run config {} keys) key).displayText_eq_empty_iff]
    rw [empties_concat_iff, ih]

theorem displayText_run_ne_empty (config : Config) {keys : List Key} (h : .operator "" ∉ keys) :
    (run config {} keys).displayText ≠ "" := by
  rw [Ne, displayText_run_eq_empty_iff]
  rintro ⟨front, back, rfl, -, -⟩
  apply h
  simp

theorem display_run_eq_empty_iff {config : Config} (hlabel : config.errorLabel ≠ "")
    (keys : List Key) :
    (run config {} keys).display = "" ↔ (run config {} keys).displayText = "" := by
  unfold display
  cases herror : (run config {} keys).error? with
  | none => rfl
  | some label =>
    have hcovers := covers_run config keys label herror
    rw [Option.getD_some, hcovers.label_eq]
    exact iff_of_false hlabel hcovers.nonempty

theorem text_run_eq_empty_iff {config : Config} (hvalid : config.validate = .ok config)
    (keys : List Key) :
    ((run config {} keys).displayText = "" ↔ Empties config keys)
      ∧ ((run config {} keys).display = "" ↔ Empties config keys) := by
  have hlabel := Config.errorLabel_ne_empty hvalid
  constructor
  · apply displayText_run_eq_empty_iff
  · rw [display_run_eq_empty_iff hlabel]
    apply displayText_run_eq_empty_iff

theorem text_run_operator_empty :
    Config.validate {} = .ok {}
      ∧ (run {} {} [.digit '7', .clear, .operator "", .calculate]).displayText = ""
      ∧ (run {} {} [.digit '7', .clear, .operator "", .calculate]).display = "" := by
  have hvalid : Config.validate {} = .ok {} := rfl
  have hempties : Empties {} [.digit '7', .clear, .operator "", .calculate] :=
    ⟨[.digit '7', .clear], [.calculate], rfl, by decide, by decide⟩
  have htext := text_run_eq_empty_iff hvalid [.digit '7', .clear, .operator "", .calculate]
  exact ⟨hvalid, htext.1.mpr hempties, htext.2.mpr hempties⟩

theorem not_forall_text_run_ne_empty :
    ¬ ∀ (config : Config) (keys : List Key), config.validate = .ok config →
      (run config {} keys).displayText ≠ "" ∧ (run config {} keys).display ≠ "" := by
  intro h
  have hnonempty := h {} [.operator ""] rfl
  exact hnonempty.1 (by decide)

end State

end Calculator
