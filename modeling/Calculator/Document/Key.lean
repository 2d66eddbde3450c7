import Calculator.Json.Printer
import Calculator.Json.Reader
import Calculator.Key

/-!
This module contains the document form of keys: an object with the type of the key and, for a digit
or an operator, its symbol as the value, or an array of the type and the value.
-/

namespace Calculator

namespace Key

def typeName : Key → String
  | .digit _ => "Digit"
  | .operator _ => "Operator"
  | .clear => "Clear"
  | .delete => "Delete"
  | .calculate => "Calculate"
  | .clearHistory => "ClearHistory"

def toJson (key : Key) : Json :=
  .ofMembers (("type", .ofString key.typeName) ::
    key.symbol?.toList.map fun symbol => ("value", .ofString symbol))

def plainKeys : List Key := [.clear, .delete, .calculate, .clearHistory]

/--
The key of a type with a value. A value of `null` is the same as none.
-/
def ofFields? (type : String) (value : Json) : Option Key :=
  match type, value with
  | "Digit", .string (some symbol) =>
    match symbol.toList with
    | [c] => some (.digit c)
    | _ => none
  | "Operator", .string (some symbol) => some (.operator symbol)
  | type, .null => plainKeys.find? (·.typeName = type)
  | _, _ => none

/--
The type of a key that is written as an object: a string, or in turn an object whose only member has
the type as its name and `null` as its value.
-/
def memberType? : Json → Option String
  | .object [(name?, .null)] => name?
  | json => json.string?

def ofJson? : Json → Option Key
  | .array [type, value] => do ofFields? (← type.string?) value
  | json => do
    let members ← json.members?
    let type ← memberType? (← Json.require? members "type")
    let value? ← Json.member? members "value"
    ofFields? type (.ofOption value?)

def ofText? (document : String) : Option Key := (Json.ofText? document).bind ofJson?

end Key

end Calculator
