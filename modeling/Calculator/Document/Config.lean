import Calculator.Config
import Calculator.Json.Printer
import Calculator.Json.Reader

/-!
This module contains the document form of settings. A document is an object of named fields or an
array of the same fields in order, and a field that is left out has its default value.
-/

namespace Calculator

namespace Config

def toJson (config : Config) : Json :=
  .ofMembers [
    ("maxFractionDigits", .ofNat config.maxFractionDigits),
    ("errorLabel", .ofString config.errorLabel),
    ("historyLimit", .ofOption (config.historyLimit?.map .ofNat))]

/--
The value of a field, or its default if the field is absent.
-/
def fieldOr {α : Type} (default : α) (read? : Json → Option α) : Option Json → Option α
  | none => some default
  | some json => read? json

def ofFields? (digits? label? limit? : Option Json) : Option Config := do
  let defaults : Config := {}
  let maxFractionDigits ← fieldOr defaults.maxFractionDigits Json.natural? digits?
  let errorLabel ← fieldOr defaults.errorLabel Json.string? label?
  let historyLimit? ← fieldOr defaults.historyLimit? (Json.nullable Json.natural?) limit?
  return { maxFractionDigits, errorLabel, historyLimit? }

def ofJson? : Json → Option Config
  | .array elements => do
    guard (elements.length ≤ 3)
    ofFields? elements[0]? elements[1]? elements[2]?
  | json => do
    let members ← json.members?
    let digits? ← Json.member? members "maxFractionDigits"
    let label? ← Json.member? members "errorLabel"
    let limit? ← Json.member? members "historyLimit"
    ofFields? digits? label? limit?

/--
Why a document cannot be used.
-/
inductive DocumentError where
  | malformed
  | invalid (fault : Fault)
deriving DecidableEq

/--
Read a document. Whether it is well formed is decided before any of the rules for settings.
-/
def ofText (document : String) : Except DocumentError Config :=
  match (Json.ofText? document).bind ofJson? with
  | none => .error .malformed
  | some config => config.validate.mapError .invalid

end Config

end Calculator
