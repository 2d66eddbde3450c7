import Calculator.Config
import Calculator.Expression.Grammar
import Calculator.Key
import Calculator.State

/-!
This module contains the effect of each key on the state of a calculator.
-/

namespace Calculator

/--
What the key for a calculation makes of the buffer.
-/
inductive Calculation where
  | nothing
  | success (expression result : String)
  | failure (expression : String) (cause : SyntaxError)

def Calculation.of (config : Config) (buffer : String) : Calculation :=
  if buffer = "" then
    .nothing
  else
    match Expr.evaluate buffer with
    | .ok value => .success buffer (value.display config.maxFractionDigits)
    | .error cause => .failure buffer cause

namespace State

def dropLast (text : String) : String := String.ofList text.toList.dropLast

/--
Whether an operator takes the place of the last character of the buffer.
-/
def replacesTail (buffer symbol : String) : Bool :=
  Key.isBinaryOperator symbol && buffer.toList.getLast?.any Key.replaceableTail.contains

def extendBuffer (buffer symbol : String) : String :=
  (if replacesTail buffer symbol then dropLast buffer else buffer) ++ symbol

/--
The state with another buffer, which is no result.
-/
def typing (state : State) (buffer : String) : State :=
  { displayText := buffer, history := state.history }

def append (state : State) (symbol : String) : State :=
  state.typing (extendBuffer state.editable symbol)

def clear (state : State) : State := state.typing emptyDisplay

/--
Delete the last character of the buffer. A result is cleared as a whole.
-/
def delete (state : State) : State :=
  if state.displayText.toList.length ≤ 1 || state.isResult || state.error?.isSome then
    state.clear
  else
    { state with displayText := dropLast state.displayText }

def recorded (config : Config) (history : History) (expression result : String) : History :=
  let history := history.record expression result
  match config.historyLimit? with
  | some limit => history.truncate limit
  | none => history

/--
The state after a calculation. A failure covers the buffer but leaves it as it is.
-/
def settle (config : Config) (state : State) : Calculation → State
  | .nothing => state
  | .success expression result =>
    { displayText := result
      history := recorded config state.history expression result
      isResult := true
      error? := none }
  | .failure .. => { state with isResult := true, error? := some config.errorLabel }

def clearHistory (state : State) : State := { state with history := {} }

def press (config : Config) (state : State) : Key → State
  | .digit symbol => state.append (String.singleton symbol)
  | .operator symbol => state.append symbol
  | .clear => state.clear
  | .delete => state.delete
  | .calculate => state.settle config (.of config state.displayText)
  | .clearHistory => state.clearHistory

end State

end Calculator
