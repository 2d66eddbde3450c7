import Calculator.Log.Quoted
import Calculator.State.Press

/-!
This module contains the events that a calculator reports to a log, and the records that they are
written as.
-/

namespace Calculator

namespace Log

inductive Level where
  | trace
  | debug
  | info
  | warn
deriving DecidableEq

inductive Target where
  | calc
  | session
deriving DecidableEq

structure Record where
  level : Level
  target : Target
  message : String
deriving DecidableEq

inductive Event where
  | opened (config : Config)
  | entered (key : Key)
  | calculated (expression result : String)
  | refused (expression : String) (cause : SyntaxError)
  | unchanged (revision : Nat)
  | changed (revision : Nat) (display : String)

def Level.name : Level → String
  | .trace => "TRACE"
  | .debug => "DEBUG"
  | .info => "INFO"
  | .warn => "WARN"

def Target.name : Target → String
  | .calc => "CALC"
  | .session => "SESSION"

def keyText : Key → String
  | .digit symbol => "Digit(" ++ quote '\'' [symbol] ++ ")"
  | .operator symbol => "Operator(" ++ quote '"' symbol.toList ++ ")"
  | .clear => "Clear"
  | .delete => "Delete"
  | .calculate => "Calculate"
  | .clearHistory => "ClearHistory"

def limitText : Option Nat → String
  | none => "None"
  | some limit => "Some(" ++ toString limit ++ ")"

namespace Event

def level : Event → Level
  | .opened _ => .info
  | .entered _ | .unchanged _ | .changed .. => .trace
  | .calculated .. => .debug
  | .refused .. => .warn

def target : Event → Target
  | .calculated .. | .refused .. => .calc
  | _ => .session

def message : Event → String
  | .opened config =>
    "new session fraction_digits=" ++ toString config.maxFractionDigits
      ++ " history_limit=" ++ limitText config.historyLimit?
  | .entered key => "[ENTER] dispatch " ++ keyText key
  | .calculated expression result => expression ++ " = " ++ result
  | .refused expression cause => "could not evaluate '" ++ expression ++ "': " ++ cause.message
  | .unchanged revision => "[EXIT] dispatch unchanged rev=" ++ toString revision
  | .changed revision display =>
    "[EXIT] dispatch rev=" ++ toString revision ++ " display=" ++ quote '"' display.toList

def record (event : Event) : Record := ⟨event.level, event.target, event.message⟩

def ofCalculation? : Calculation → Option Event
  | .nothing => none
  | .success expression result => some (.calculated expression result)
  | .failure expression cause => some (.refused expression cause)

/--
The event of a key that is pressed, apart from those of the session.
-/
def ofKey? (config : Config) (state : State) : Key → Option Event
  | .calculate => ofCalculation? (.of config state.displayText)
  | _ => none

end Event

end Log

end Calculator
