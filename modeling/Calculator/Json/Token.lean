import Calculator.Json.Number
import Calculator.Json.Quoted

/-!
This module contains the tokens of JSON texts.
-/

namespace Calculator

namespace Json

inductive Token where
  | beginArray
  | endArray
  | beginObject
  | endObject
  | colon
  | comma
  | null
  | bool (value : Bool)
  | number (literal : String)
  | string (text? : Option String)
deriving DecidableEq

namespace Token

/--
A string that is no text is written as a lone surrogate.
-/
def chars : Token → List Char
  | .beginArray => ['[']
  | .endArray => [']']
  | .beginObject => ['{']
  | .endObject => ['}']
  | .colon => [':']
  | .comma => [',']
  | .null => ['n', 'u', 'l', 'l']
  | .bool true => ['t', 'r', 'u', 'e']
  | .bool false => ['f', 'a', 'l', 's', 'e']
  | .number literal => literal.toList
  | .string (some text) => quoted text.toList
  | .string none => ['"', '\\', 'u', 'd', '8', '0', '0', '"']

def ofMark? : Char → Option Token
  | '[' => some .beginArray
  | ']' => some .endArray
  | '{' => some .beginObject
  | '}' => some .endObject
  | ':' => some .colon
  | ',' => some .comma
  | _ => none

def isBlank (c : Char) : Bool := c = ' ' || c = '\t' || c = '\n' || c = '\r'

def isWordChar (c : Char) : Bool := c.isAlphanum || c = '+' || c = '-' || c = '.'

def ofWord? (word : List Char) : Option Token :=
  if word = ['n', 'u', 'l', 'l'] then some .null
  else if word = ['t', 'r', 'u', 'e'] then some (.bool true)
  else if word = ['f', 'a', 'l', 's', 'e'] then some (.bool false)
  else if isNumber word then some (.number (String.ofList word))
  else none

theorem length_dropWhile_le (p : Char → Bool) (text : List Char) :
    (text.dropWhile p).length ≤ text.length :=
  (List.dropWhile_sublist p).length_le

/--
Split a text into tokens. A word ends where a character follows that cannot be a part of one, so two
words without anything between them are read as one, which is no token.
-/
def scan? : List Char → Option (List Token)
  | [] => some []
  | c :: rest =>
    if isBlank c then
      scan? rest
    else if c = '"' then
      match h : readQuoted? rest with
      | none => none
      | some (chars?, behind) =>
        have := length_of_readQuoted? h
        (scan? behind).map (.string (chars?.map String.ofList) :: ·)
    else
      match ofMark? c with
      | some mark => (scan? rest).map (mark :: ·)
      | none => do
        have := length_dropWhile_le isWordChar rest
        let token ← ofWord? (c :: rest.takeWhile isWordChar)
        let tokens ← scan? (rest.dropWhile isWordChar)
        return token :: tokens
termination_by text => text.length

end Token

end Json

end Calculator
