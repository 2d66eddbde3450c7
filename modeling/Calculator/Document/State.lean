import Calculator.Json.Printer
import Calculator.Json.Reader
import Calculator.State

/-!
This module contains the document form of states: an object of named fields, or an array of all
fields in order. Only an object may leave out a field, the error.
-/

namespace Calculator

namespace State

def toJson (state : State) : Json :=
  .ofMembers [
    ("displayText", .ofString state.displayText),
    ("history", .ofStrings state.history.entries),
    ("isResult", .bool state.isResult),
    ("error", .ofOption (state.error?.map .ofString))]

def ofFields? (displayText history isResult error : Json) : Option State := do
  let displayText ← displayText.string?
  let entries ← history.strings?
  let isResult ← isResult.bool?
  let error? ← Json.nullable Json.string? error
  return { displayText, history := ⟨entries⟩, isResult, error? }

def ofJson? : Json → Option State
  | .array [displayText, history, isResult, error] => ofFields? displayText history isResult error
  | json => do
    let members ← json.members?
    let displayText ← Json.require? members "displayText"
    let history ← Json.require? members "history"
    let isResult ← Json.require? members "isResult"
    let error? ← Json.member? members "error"
    ofFields? displayText history isResult (.ofOption error?)

def ofText? (document : String) : Option State := (Json.ofText? document).bind ofJson?

end State

end Calculator
