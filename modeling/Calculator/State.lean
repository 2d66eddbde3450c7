import Calculator.History

/-!
This module contains the state of a calculator as it can be seen from outside.
-/

namespace Calculator

/--
The text that stands for an empty buffer.
-/
def emptyDisplay : String := "0"

structure State where
  /--
  The expression that is being typed, or the result of the last calculation.
  -/
  displayText : String := emptyDisplay
  history : History := {}
  /--
  Set by a calculation, whether it succeeds or fails.
  -/
  isResult : Bool := false
  /--
  The text that covers the display after a failed calculation.
  -/
  error? : Option String := none
deriving DecidableEq

namespace State

def display (state : State) : String := state.error?.getD state.displayText

/--
The text that the next key extends. A new expression starts after a calculation.
-/
def editable (state : State) : String :=
  if state.displayText = emptyDisplay || state.isResult || state.error?.isSome then
    ""
  else
    state.displayText

def lastExpression? (state : State) : Option String :=
  (state.history.latest?.bind History.splitEntry?).map (·.1)

end State

end Calculator
