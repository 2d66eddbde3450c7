/-!
This module contains JSON values and the access to their parts.
-/

namespace Calculator

/--
A JSON value. A number is kept as it is written, and an object keeps all its members in order, also
those with a name that occurs again. The text of a string or of a name is absent if it has a
surrogate without its partner.
-/
inductive Json where
  | null
  | bool (value : Bool)
  | number (literal : String)
  | string (text? : Option String)
  | array (elements : List Json)
  | object (members : List (Option String × Json))

namespace Json

def ofNat (n : Nat) : Json := .number (String.ofList (Nat.toDigits 10 n))

def ofString (text : String) : Json := .string (some text)

def ofStrings (texts : List String) : Json := .array (texts.map ofString)

def ofMembers (members : List (String × Json)) : Json :=
  .object (members.map fun (name, json) => (some name, json))

def ofOption : Option Json → Json := (·.getD .null)

def bool? : Json → Option Bool
  | .bool value => some value
  | _ => none

def string? : Json → Option String
  | .string text? => text?
  | _ => none

def array? : Json → Option (List Json)
  | .array elements => some elements
  | _ => none

/--
The members of an object whose names are all texts.
-/
def members? : Json → Option (List (String × Json))
  | .object members => members.mapM fun (name?, json) => name?.map (·, json)
  | _ => none

def strings? (json : Json) : Option (List String) := json.array?.bind (·.mapM string?)

/--
A number that is written with digits only, and that is below `2 ^ 64`.
-/
def natural? : Json → Option Nat
  | .number literal =>
    let n := Nat.ofDigitChars 10 literal.toList 0
    if literal.toList.all Char.isDigit && n < Nat.pow 2 64 then some n else none
  | _ => none

/--
What `read?` makes of a value other than `null`, which stands for nothing.
-/
def nullable {α : Type} (read? : Json → Option α) : Json → Option (Option α)
  | .null => some none
  | json => (read? json).map some

/--
The member with a given name, if there is one. A name that occurs twice is refused.
-/
def member? (members : List (String × Json)) (name : String) : Option (Option Json) :=
  match members.filter (·.1 = name) with
  | [] => some none
  | [(_, json)] => some (some json)
  | _ => none

/--
The member with a given name, which occurs exactly once.
-/
def require? (members : List (String × Json)) (name : String) : Option Json :=
  (member? members name).join

end Json

end Calculator
