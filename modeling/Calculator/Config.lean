/-!
This module contains the settings of a calculator and the rules that they have to keep.
-/

namespace Calculator

structure Config where
  /--
  Digits behind the decimal point of a result.
  -/
  maxFractionDigits : Nat := 10
  /--
  The text that is shown in place of the display after a failed calculation.
  -/
  errorLabel : String := "Error"
  /--
  The number of history entries that are kept. Without a limit all of them are.
  -/
  historyLimit? : Option Nat := none
deriving DecidableEq

namespace Config

/--
A result has at most 17 significant digits, so no setting needs more.
-/
def mostFractionDigits : Nat := 17

inductive Fault where
  | tooManyFractionDigits (got : Nat)
  | emptyErrorLabel
  | zeroHistoryLimit
deriving DecidableEq

def Fault.reason : Fault → String
  | .tooManyFractionDigits got =>
    "maxFractionDigits must be at most " ++ toString mostFractionDigits ++ ", got " ++ toString got
  | .emptyErrorLabel => "errorLabel must not be empty"
  | .zeroHistoryLimit => "historyLimit must be positive"

def Fault.message (fault : Fault) : String := "Invalid configuration: " ++ fault.reason

/--
The first rule that the settings break.
-/
def fault? (config : Config) : Option Fault :=
  if config.maxFractionDigits > mostFractionDigits then
    some (.tooManyFractionDigits config.maxFractionDigits)
  else if config.errorLabel = "" then
    some .emptyErrorLabel
  else if config.historyLimit? = some 0 then
    some .zeroHistoryLimit
  else
    none

def validate (config : Config) : Except Fault Config :=
  match config.fault? with
  | some fault => .error fault
  | none => .ok config

theorem fault?_of_validate {config : Config} (h : config.validate = .ok config) :
    config.fault? = none := by
  unfold validate at h
  split at h
  · cases h
  · assumption

theorem errorLabel_ne_empty {config : Config} (h : config.validate = .ok config) :
    config.errorLabel ≠ "" := by
  intro hempty
  have hfault := fault?_of_validate h
  unfold fault? at hfault
  simp only [hempty, if_true] at hfault
  split at hfault <;> cases hfault

end Config

end Calculator
