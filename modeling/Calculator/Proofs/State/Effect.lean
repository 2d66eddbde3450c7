import Calculator.Proofs.State.Run

/-!
This module contains what a single key does to a state. An edit depends on nothing but the pending
text of the state, and only a calculation sets the flags.
-/

namespace Calculator

namespace Key

/--
The keys that change the buffer and are no fresh start.
-/
def isEdit : Key → Bool
  | .digit _ => true
  | .operator _ => true
  | .clear => false
  | .delete => true
  | .calculate => false
  | .clearHistory => false

/--
The text that a new symbol is put behind, once the placeholder is left out.
-/
def withoutPlaceholder (text : String) : String := if text = emptyDisplay then "" else text

def shortened (text : String) : String :=
  if text.toList.length ≤ 1 then emptyDisplay else State.dropLast text

def edit (text : String) : Key → String
  | .digit symbol => State.extendBuffer (withoutPlaceholder text) (String.singleton symbol)
  | .operator symbol => State.extendBuffer (withoutPlaceholder text) symbol
  | .delete => shortened text
  | .clear => text
  | .calculate => text
  | .clearHistory => text

end Key

namespace State

/--
The text that the next edit works on. After a calculation it is the placeholder.
-/
def pending (state : State) : String :=
  if state.isResult || state.error?.isSome then emptyDisplay else state.displayText

theorem pending_eq_displayText {state : State} (hresult : state.isResult = false)
    (herror : state.error? = none) : state.pending = state.displayText := by
  unfold pending
  rw [hresult, herror]
  rfl

theorem pending_of_isResult {state : State} (h : state.isResult = true) :
    state.pending = emptyDisplay := by
  unfold pending
  rw [h]
  rfl

@[simp]
theorem pending_typing (state : State) (buffer : String) :
    (state.typing buffer).pending = buffer := by
  apply pending_eq_displayText <;> rfl

theorem editable_eq_withoutPlaceholder (state : State) :
    state.editable = Key.withoutPlaceholder state.pending := by
  unfold editable pending Key.withoutPlaceholder
  cases hcalculated : state.isResult || state.error?.isSome with
  | true => simp [hcalculated, Bool.or_assoc]
  | false => simp [hcalculated, Bool.or_assoc]

theorem delete_eq_typing (state : State) :
    state.delete = state.typing (Key.shortened state.pending) := by
  unfold delete pending Key.shortened
  cases hcalculated : state.isResult || state.error?.isSome with
  | true =>
    have hshort : emptyDisplay.toList.length ≤ 1 := by decide
    -- Nothing of a result is left, and the placeholder is too short to lose its only character.
    rw [Bool.or_assoc, hcalculated, Bool.or_true]
    simp only [if_true, hshort]
    rfl
  | false =>
    rw [Bool.or_assoc, hcalculated, Bool.or_false]
    simp only [decide_eq_true_eq, Bool.false_eq_true, if_false]
    split
    · rfl
    · obtain ⟨hresult, herror⟩ := Bool.or_eq_false_iff.mp hcalculated
      rw [Option.isSome_eq_false_iff, Option.isNone_iff_eq_none] at herror
      unfold typing
      rw [hresult, herror]

inductive Effect (config : Config) (state : State) : Key → State → Prop
  | edit {key : Key} (hedit : key.isEdit = true) :
    Effect config state key (state.typing (key.edit state.pending))
  | clear : Effect config state .clear (state.typing emptyDisplay)
  | nothing (hempty : state.displayText = "") : Effect config state .calculate state
  | success {value : Binary64} (hnonempty : state.displayText ≠ "")
    (hvalue : Expr.evaluate state.displayText = .ok value) :
    Effect config state .calculate
      { displayText := value.display config.maxFractionDigits
        history := recorded config state.history state.displayText
          (value.display config.maxFractionDigits)
        isResult := true
        error? := none }
  | failure {cause : SyntaxError} (hnonempty : state.displayText ≠ "")
    (hcause : Expr.evaluate state.displayText = .error cause) :
    Effect config state .calculate
      { state with isResult := true, error? := some config.errorLabel }
  | clearHistory : Effect config state .clearHistory { state with history := {} }

theorem effect_press (config : Config) (state : State) (key : Key) :
    Effect config state key (state.press config key) := by
  cases key with
  | digit symbol =>
    simp only [press, append]
    rw [editable_eq_withoutPlaceholder]
    exact .edit rfl
  | operator symbol =>
    simp only [press, append]
    rw [editable_eq_withoutPlaceholder]
    exact .edit rfl
  | clear => exact .clear
  | delete =>
    simp only [press]
    rw [delete_eq_typing]
    exact .edit rfl
  | calculate =>
    simp only [press, Calculation.of]
    split
    · next hempty => exact .nothing hempty
    · next hnonempty =>
      split
      · next hvalue => exact .success hnonempty hvalue
      · next hcause => exact .failure hnonempty hcause
  | clearHistory => exact .clearHistory

variable {config : Config} {state next : State} {key : Key}

theorem Effect.eq_typing_of_isEdit (h : Effect config state key next) (hedit : key.isEdit = true) :
    next = state.typing (key.edit state.pending) := by
  cases h with
  | edit => rfl
  | _ => cases hedit

/--
What an error says: the text beneath it has no value.
-/
structure Covers (config : Config) (state : State) (label : String) : Prop where
  label_eq : label = config.errorLabel
  isResult : state.isResult = true
  nonempty : state.displayText ≠ ""
  invalid : ∃ cause, Expr.evaluate state.displayText = .error cause

theorem Effect.covers (h : Effect config state key next)
    (hstate : ∀ label, state.error? = some label → Covers config state label) (label : String)
    (hlabel : next.error? = some label) : Covers config next label := by
  cases h with
  | edit => cases hlabel
  | clear => cases hlabel
  | nothing => exact hstate label hlabel
  | success => cases hlabel
  | failure hnonempty hcause =>
    cases hlabel
    exact ⟨rfl, rfl, hnonempty, _, hcause⟩
  | clearHistory =>
    have hcovers := hstate label hlabel
    exact ⟨hcovers.label_eq, hcovers.isResult, hcovers.nonempty, hcovers.invalid⟩

theorem covers_run (config : Config) (keys : List Key) :
    ∀ label, (run config {} keys).error? = some label → Covers config (run config {} keys) label := by
  apply run_induction config
    (P := fun state => ∀ label, state.error? = some label → Covers config state label)
  · intro label hlabel
    cases hlabel
  · intro state key hstate
    apply (effect_press config state key).covers
    exact hstate

end State

end Calculator
