import Calculator.Json.Token
import Calculator.Json.Value

/-!
This module contains the reader of JSON texts: a machine that takes one token after the other and
keeps the values it is in the middle of on a stack, so values may be nested to any depth.
-/

namespace Calculator

namespace Json

/--
What is read of a value that waits for one of its parts. The newest part comes first.
-/
inductive Frame where
  | element (done : List Json)
  | member (done : List (Option String × Json)) (name? : Option String)

/--
What the next token has to be a part of.
-/
inductive Goal where
  | value
  /--
  An element or the end of an array that has just begun.
  -/
  | elementOrEnd
  /--
  The name of a member, or the end of an object if the object has just begun.
  -/
  | name (done : List (Option String × Json)) (first : Bool)
  | colon (done : List (Option String × Json)) (name? : Option String)
  | elementEnd (done : List Json)
  | memberEnd (done : List (Option String × Json))
  | nothing (result : Json)

structure Machine where
  goal : Goal
  stack : List Frame

namespace Machine

def deliver (json : Json) : List Frame → Machine
  | [] => ⟨.nothing json, []⟩
  | .element done :: stack => ⟨.elementEnd (json :: done), stack⟩
  | .member done name? :: stack => ⟨.memberEnd ((name?, json) :: done), stack⟩

def begin? (stack : List Frame) : Token → Option Machine
  | .null => some (deliver .null stack)
  | .bool value => some (deliver (.bool value) stack)
  | .number literal => some (deliver (.number literal) stack)
  | .string text? => some (deliver (.string text?) stack)
  | .beginArray => some ⟨.elementOrEnd, stack⟩
  | .beginObject => some ⟨.name [] true, stack⟩
  | _ => none

def step? (machine : Machine) (token : Token) : Option Machine :=
  match machine.goal, token with
  | .value, token => begin? machine.stack token
  | .elementOrEnd, .endArray => some (deliver (.array []) machine.stack)
  | .elementOrEnd, token => begin? (.element [] :: machine.stack) token
  | .name done _, .string name? => some ⟨.colon done name?, machine.stack⟩
  | .name _ true, .endObject => some (deliver (.object []) machine.stack)
  | .colon done name?, .colon => some ⟨.value, .member done name? :: machine.stack⟩
  | .elementEnd done, .comma => some ⟨.value, .element done :: machine.stack⟩
  | .elementEnd done, .endArray => some (deliver (.array done.reverse) machine.stack)
  | .memberEnd done, .comma => some ⟨.name done false, machine.stack⟩
  | .memberEnd done, .endObject => some (deliver (.object done.reverse) machine.stack)
  | _, _ => none

def result? (machine : Machine) : Option Json :=
  match machine.goal with
  | .nothing result => some result
  | _ => none

end Machine

def ofTokens? (tokens : List Token) : Option Json :=
  (tokens.foldlM Machine.step? ⟨.value, []⟩).bind Machine.result?

/--
Read a text that consists of one value.
-/
def ofText? (text : String) : Option Json :=
  (Token.scan? text.toList).bind ofTokens?

end Json

end Calculator
