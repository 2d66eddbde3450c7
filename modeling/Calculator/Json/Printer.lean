import Calculator.Json.Token
import Calculator.Json.Value

/-!
This module contains the shortest text of JSON values.
-/

namespace Calculator

namespace Json

mutual

def tokens : Json → List Token
  | .null => [.null]
  | .bool value => [.bool value]
  | .number literal => [.number literal]
  | .string value => [.string value]
  | .array [] => [.beginArray, .endArray]
  | .array (json :: elements) =>
    .beginArray :: (tokens json ++ elementTokens elements)
  | .object [] => [.beginObject, .endObject]
  | .object ((name, json) :: members) =>
    .beginObject :: .string name :: .colon :: (tokens json ++ memberTokens members)

/--
The tokens behind an element: further elements and the end of the array.
-/
def elementTokens : List Json → List Token
  | [] => [.endArray]
  | json :: elements => .comma :: (tokens json ++ elementTokens elements)

/--
The tokens behind a member: further members and the end of the object.
-/
def memberTokens : List (Option String × Json) → List Token
  | [] => [.endObject]
  | (name, json) :: members =>
    .comma :: .string name :: .colon :: (tokens json ++ memberTokens members)

end

def text (json : Json) : String := String.ofList (json.tokens.flatMap Token.chars)

end Json

end Calculator
