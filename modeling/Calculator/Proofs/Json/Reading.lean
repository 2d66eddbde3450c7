import Calculator.Json.Reader
import Calculator.Proofs.Json.Scanning

/-!
This module contains the theorem that the text of a JSON value is read as that value.
-/

namespace Calculator

namespace Json

namespace Machine

/--
Whether the tokens of a value are read as the value, whatever waits for it.
-/
def Reads (json : Json) : Prop :=
  ∀ stack, json.tokens.foldlM step? ⟨.value, stack⟩ = some (deliver json stack)

theorem foldlM_cons {machine next : Machine} {token : Token} (h : step? machine token = some next)
    (tokens : List Token) : (token :: tokens).foldlM step? machine = tokens.foldlM step? next := by
  rw [List.foldlM_cons, h]
  rfl

theorem Reads.foldlM_append {json : Json} (h : Reads json) (stack : List Frame)
    (tail : List Token) :
    (json.tokens ++ tail).foldlM step? ⟨.value, stack⟩
      = tail.foldlM step? (deliver json stack) := by
  rw [List.foldlM_append, h]
  rfl

theorem foldlM_elementTokens {elements : List Json} (h : ∀ json ∈ elements, Reads json)
    (done : List Json) (stack : List Frame) :
    (elementTokens elements).foldlM step? ⟨.elementEnd done, stack⟩
      = some (deliver (.array (done.reverse ++ elements)) stack) := by
  induction elements generalizing done with
  | nil =>
    rw [List.append_nil]
    rfl
  | cons json elements ih =>
    have hcomma : step? ⟨.elementEnd done, stack⟩ .comma = some ⟨.value, .element done :: stack⟩ :=
      rfl
    rw [List.forall_mem_cons] at h
    rw [elementTokens, foldlM_cons hcomma, h.1.foldlM_append, deliver, ih h.2, List.reverse_cons,
      List.append_assoc, List.singleton_append]

/--
The rest of an object behind the comma or the bracket in front of a member.
-/
theorem Reads.foldlM_member {json : Json} (h : Reads json) (name? : Option String) (first : Bool)
    (done : List (Option String × Json)) (stack : List Frame) (tail : List Token) :
    (.string name? :: .colon :: (json.tokens ++ tail)).foldlM step? ⟨.name done first, stack⟩
      = tail.foldlM step? ⟨.memberEnd ((name?, json) :: done), stack⟩ := by
  have hname : step? ⟨.name done first, stack⟩ (.string name?) = some ⟨.colon done name?, stack⟩ :=
    rfl
  have hcolon : step? ⟨.colon done name?, stack⟩ .colon
      = some ⟨.value, .member done name? :: stack⟩ := rfl
  rw [foldlM_cons hname, foldlM_cons hcolon, h.foldlM_append, deliver]

theorem foldlM_memberTokens {members : List (Option String × Json)}
    (h : ∀ member ∈ members, Reads member.2) (done : List (Option String × Json))
    (stack : List Frame) :
    (memberTokens members).foldlM step? ⟨.memberEnd done, stack⟩
      = some (deliver (.object (done.reverse ++ members)) stack) := by
  induction members generalizing done with
  | nil =>
    rw [List.append_nil]
    rfl
  | cons member members ih =>
    obtain ⟨name?, json⟩ := member
    have hcomma : step? ⟨.memberEnd done, stack⟩ .comma = some ⟨.name done false, stack⟩ := rfl
    rw [List.forall_mem_cons] at h
    rw [memberTokens, foldlM_cons hcomma, h.1.foldlM_member, ih h.2, List.reverse_cons,
      List.append_assoc, List.singleton_append]

/--
No value begins with the end of an array.
-/
theorem exists_tokens_eq_cons (json : Json) :
    ∃ token tail, json.tokens = token :: tail ∧ token ≠ .endArray := by
  cases json with
  | null | bool _ | number _ | string _ => exact ⟨_, _, rfl, nofun⟩
  | array elements => cases elements <;> exact ⟨_, _, rfl, nofun⟩
  | object members => cases members <;> exact ⟨_, _, rfl, nofun⟩

theorem step?_elementOrEnd {token : Token} (h : token ≠ .endArray) (stack : List Frame) :
    step? ⟨.elementOrEnd, stack⟩ token = step? ⟨.value, .element [] :: stack⟩ token := by
  cases token
  case endArray => exact absurd rfl h
  all_goals rfl

theorem Reads.foldlM_elementOrEnd {json : Json} (h : Reads json) (stack : List Frame)
    (tail : List Token) :
    (json.tokens ++ tail).foldlM step? ⟨.elementOrEnd, stack⟩
      = tail.foldlM step? ⟨.elementEnd [json], stack⟩ := by
  have hvalue := h.foldlM_append (.element [] :: stack) tail
  obtain ⟨token, rest, htokens, hne⟩ := exists_tokens_eq_cons json
  rw [htokens, List.cons_append, List.foldlM_cons] at hvalue ⊢
  rw [step?_elementOrEnd hne, hvalue, deliver]

end Machine

open Machine

theorem IsWellFormed.reads {json : Json} (h : json.IsWellFormed) : Reads json := by
  induction h with
  | null | bool _ | number _ | string _ => exact fun _ => rfl
  | @array elements _ ih =>
    intro stack
    cases elements with
    | nil => rfl
    | cons json elements =>
      rw [List.forall_mem_cons] at ih
      have hbegin : step? ⟨.value, stack⟩ .beginArray = some ⟨.elementOrEnd, stack⟩ := rfl
      rw [tokens, foldlM_cons hbegin, ih.1.foldlM_elementOrEnd, foldlM_elementTokens ih.2]
      rfl
  | @object members _ ih =>
    intro stack
    cases members with
    | nil => rfl
    | cons member members =>
      obtain ⟨name?, json⟩ := member
      rw [List.forall_mem_cons] at ih
      have hbegin : step? ⟨.value, stack⟩ .beginObject = some ⟨.name [] true, stack⟩ := rfl
      rw [tokens, foldlM_cons hbegin, ih.1.foldlM_member, foldlM_memberTokens ih.2]
      rfl

/--
The text of a value is read as the value.
-/
theorem IsWellFormed.ofText?_text {json : Json} (h : json.IsWellFormed) :
    ofText? json.text = some json := by
  rw [ofText?, h.scan?_text, Option.bind_some, ofTokens?, h.reads]
  rfl

end Json

end Calculator
