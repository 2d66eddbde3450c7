import Calculator.Json.Printer
import Calculator.Proofs.Json.Quoted

/-!
This module contains the theorem that the text of a JSON value splits into the tokens it was printed
from: no token runs into the next one.
-/

namespace Calculator

namespace Json

/--
Whether all numbers in a value are written as JSON wants them.
-/
inductive IsWellFormed : Json → Prop
  | null : IsWellFormed .null
  | bool (value : Bool) : IsWellFormed (.bool value)
  | number {literal : String} (h : isNumber literal.toList = true) : IsWellFormed (.number literal)
  | string (text? : Option String) : IsWellFormed (.string text?)
  | array {elements : List Json} (h : ∀ json ∈ elements, IsWellFormed json) :
    IsWellFormed (.array elements)
  | object {members : List (Option String × Json)} (h : ∀ member ∈ members, IsWellFormed member.2) :
    IsWellFormed (.object members)

namespace Token

theorem isWordChar_of_isDigit {c : Char} (h : c.isDigit = true) : isWordChar c = true := by
  rw [isWordChar, Char.isAlphanum, h, Bool.or_true]
  rfl

theorem all_isWordChar_of_isDigits {text : List Char} (h : isDigits text = true) :
    text.all isWordChar = true := by
  rw [isDigits, Bool.and_eq_true, List.all_eq_true] at h
  rw [List.all_eq_true]
  exact fun c hmem => isWordChar_of_isDigit (h.2 c hmem)

theorem all_isWordChar_of_isExponent {text : List Char} (h : isExponent text = true) :
    text.all isWordChar = true := by
  cases text with
  | nil => rfl
  | cons mark rest =>
    rw [isExponent.eq_def] at h
    dsimp only at h
    rw [Bool.and_eq_true, Bool.or_eq_true, decide_eq_true_iff, decide_eq_true_iff] at h
    obtain ⟨hmark, hrest⟩ := h
    have hmark : isWordChar mark = true := by
      rcases hmark with rfl | rfl <;> decide
    rw [List.all_cons, hmark, Bool.true_and]
    cases rest with
    | nil => rfl
    | cons sign digits =>
      dsimp only at hrest
      split at hrest
      · next hsign =>
        have hsign : isWordChar sign = true := by
          rw [Bool.or_eq_true, decide_eq_true_iff, decide_eq_true_iff] at hsign
          rcases hsign with rfl | rfl <;> decide
        rw [List.all_cons, hsign, all_isWordChar_of_isDigits hrest]
        rfl
      · exact all_isWordChar_of_isDigits hrest

/--
Digits in front of a word belong to it.
-/
theorem all_isWordChar_of_dropWhile {text : List Char}
    (h : (text.dropWhile Char.isDigit).all isWordChar = true) : text.all isWordChar = true := by
  rw [← List.takeWhile_append_dropWhile (p := Char.isDigit) (l := text), List.all_append, h,
    Bool.and_true, List.all_eq_true]
  intro c hmem
  exact isWordChar_of_isDigit (List.all_eq_true.mp List.all_takeWhile c hmem)

theorem all_isWordChar_of_isFraction {text : List Char} (h : isFraction text = true) :
    text.all isWordChar = true := by
  unfold isFraction at h
  split at h
  · next rest =>
    rw [Bool.and_eq_true] at h
    have hrest := all_isWordChar_of_dropWhile (all_isWordChar_of_isExponent h.2)
    rw [List.all_cons, hrest]
    rfl
  · exact all_isWordChar_of_isExponent h

theorem all_isWordChar_of_isNumber {text : List Char} (h : isNumber text = true) :
    text.all isWordChar = true := by
  have hunsigned : ∀ {literal}, isUnsigned literal = true → literal.all isWordChar = true := by
    intro literal h
    rw [isUnsigned, Bool.and_eq_true] at h
    exact all_isWordChar_of_dropWhile (all_isWordChar_of_isFraction h.2)
  unfold isNumber at h
  split at h
  · rw [List.all_cons, hunsigned h]
    rfl
  · exact hunsigned h

theorem ofWord?_of_isNumber {text : List Char} (h : isNumber text = true) :
    ofWord? text = some (.number (String.ofList text)) := by
  unfold ofWord?
  split
  · next heq => exact absurd h (by rw [heq]; decide)
  · split
    · next heq => exact absurd h (by rw [heq]; decide)
    · split
      · next heq => exact absurd h (by rw [heq]; decide)
      · rfl

/--
Whether a word ends in front of a text.
-/
def EndsWord (text : List Char) : Prop := ∀ c ∈ text.head?, isWordChar c = false

theorem apart_of_ofMark? {c : Char} {mark : Token} (h : ofMark? c = some mark) :
    isBlank c = false ∧ c ≠ '"' ∧ isWordChar c = false := by
  unfold ofMark? at h
  split at h
  case h_7 => cases h
  all_goals decide

theorem apart_of_isWordChar {c : Char} (h : isWordChar c = true) :
    isBlank c = false ∧ c ≠ '"' ∧ ofMark? c = none := by
  refine ⟨?_, ?_, ?_⟩
  · rw [Bool.eq_false_iff]
    intro hblank
    simp only [isBlank, Bool.or_eq_true, decide_eq_true_iff] at hblank
    rcases hblank with ((rfl | rfl) | rfl) | rfl <;> exact absurd h (by decide)
  · rintro rfl
    exact absurd h (by decide)
  · cases hmark : ofMark? c with
    | none => rfl
    | some mark => cases (apart_of_ofMark? hmark).2.2.symm.trans h

/--
Whether the text of some tokens splits into them again in front of another text.
-/
def Scans (tokens : List Token) (rest : List Char) : Prop :=
  scan? (tokens.flatMap chars ++ rest) = (scan? rest).map (tokens ++ ·)

theorem Scans.append {front back : List Token} {rest : List Char}
    (hfront : Scans front (back.flatMap chars ++ rest)) (hback : Scans back rest) :
    Scans (front ++ back) rest := by
  rw [Scans, List.flatMap_append, List.append_assoc, hfront, hback, Option.map_map]
  congr 1
  funext tokens
  exact (List.append_assoc front back tokens).symm

theorem scans_word {token : Token} (hword : ofWord? token.chars = some token)
    (hall : token.chars.all isWordChar = true) {rest : List Char} (hrest : EndsWord rest) :
    Scans [token] rest := by
  rw [Scans, List.flatMap_singleton]
  generalize token.chars = word at hword hall ⊢
  cases word with
  | nil => cases hword
  | cons c word =>
    rw [List.all_cons, Bool.and_eq_true] at hall
    obtain ⟨hblank, hquote, hmark⟩ := apart_of_isWordChar hall.1
    have hall : ∀ d ∈ word, isWordChar d = true := List.all_eq_true.mp hall.2
    have htake : rest.takeWhile isWordChar = [] := by
      cases rest with
      | nil => rfl
      | cons d rest => simp [hrest d rfl]
    have hdrop : rest.dropWhile isWordChar = rest := by
      cases rest with
      | nil => rfl
      | cons d rest => simp [hrest d rfl]
    rw [List.cons_append, scan?, hblank, if_neg Bool.false_ne_true, if_neg hquote, hmark]
    dsimp only
    rw [List.takeWhile_append_of_pos hall, List.dropWhile_append_of_pos hall, htake, hdrop,
      List.append_nil, hword]
    cases scan? rest <;> rfl

theorem scans_mark {c : Char} {mark : Token} (hmark : ofMark? c = some mark)
    (hchars : mark.chars = [c]) (rest : List Char) : Scans [mark] rest := by
  obtain ⟨hblank, hquote, -⟩ := apart_of_ofMark? hmark
  rw [Scans, List.flatMap_singleton, hchars, List.singleton_append, scan?, hblank,
    if_neg Bool.false_ne_true, if_neg hquote, hmark]
  rfl

theorem scan?_quote {text behind : List Char} {chars? : Option (List Char)}
    (h : readQuoted? text = some (chars?, behind)) :
    scan? ('"' :: text) = (scan? behind).map (.string (chars?.map String.ofList) :: ·) := by
  rw [scan?, if_neg (by decide), if_pos rfl]
  split
  · next heq => rw [heq] at h; cases h
  · next heq => rw [heq] at h; cases h; rfl

theorem scans_string (text? : Option String) (rest : List Char) :
    Scans [.string text?] rest := by
  rw [Scans, List.flatMap_singleton]
  cases text? with
  | none =>
    have hlone : readQuoted? ('\\' :: 'u' :: 'd' :: '8' :: '0' :: '0' :: '"' :: rest)
        = some (none, rest) := rfl
    exact scan?_quote hlone
  | some text =>
    rw [chars, quoted, List.append_assoc, List.cons_append, List.singleton_append,
      scan?_quote (readQuoted?_flatMap_escape _ _), Option.map_some, String.ofList_toList]
    rfl

/--
Whether a token may stand beside any other one with nothing between them.
-/
def isDelimited : Token → Bool
  | .null | .bool _ | .number _ => false
  | _ => true

theorem endsWord_chars_append {token : Token} (h : token.isDelimited = true) (rest : List Char) :
    EndsWord (token.chars ++ rest) := by
  intro c hc
  cases token with
  | null | bool _ | number _ => cases h
  | string text? => cases text? <;> cases hc <;> rfl
  | _ => cases hc; rfl

theorem scans_delimited {token : Token} (h : token.isDelimited = true) (rest : List Char) :
    Scans [token] rest := by
  cases token with
  | null | bool _ | number _ => cases h
  | string text? => exact scans_string text? rest
  | _ => exact scans_mark rfl rfl rest

/--
Whether no two words stand side by side among some tokens.
-/
inductive Separate : List Token → Prop
  | nil : Separate []
  | delimited {token : Token} {tokens : List Token} (htoken : token.isDelimited = true)
    (htokens : Separate tokens) : Separate (token :: tokens)
  | word {token : Token} {tokens : List Token} (hword : ofWord? token.chars = some token)
    (hall : token.chars.all isWordChar = true)
    (hnext : ∀ next ∈ tokens.head?, next.isDelimited = true) (htokens : Separate tokens) :
    Separate (token :: tokens)

theorem Separate.append {front back : List Token} (hfront : Separate front)
    (hback : Separate back) (hnext : ∀ next ∈ back.head?, next.isDelimited = true) :
    Separate (front ++ back) := by
  induction hfront with
  | nil => exact hback
  | delimited htoken _ ih => exact .delimited htoken ih
  | @word token tokens hword hall hnext' _ ih =>
    refine .word hword hall ?_ ih
    cases tokens with
    | nil => exact hnext
    | cons next tokens => exact hnext'

theorem Separate.scans {tokens : List Token} (h : Separate tokens) {rest : List Char}
    (hrest : EndsWord rest) : Scans tokens rest := by
  induction h with
  | nil =>
    rw [Scans, List.flatMap_nil, List.nil_append]
    cases scan? rest <;> rfl
  | delimited htoken _ ih => exact (scans_delimited htoken _).append ih
  | @word token tokens hword hall hnext _ ih =>
    refine .append (scans_word hword hall ?_) ih
    cases tokens with
    | nil => exact hrest
    | cons next tokens =>
      rw [List.flatMap_cons, List.append_assoc]
      exact endsWord_chars_append (hnext _ rfl) _

end Token

open Token

theorem isDelimited_elementTokens (elements : List Json) :
    ∀ next ∈ (elementTokens elements).head?, next.isDelimited = true := by
  cases elements <;> rintro _ ⟨⟩ <;> rfl

theorem isDelimited_memberTokens (members : List (Option String × Json)) :
    ∀ next ∈ (memberTokens members).head?, next.isDelimited = true := by
  cases members <;> rintro _ ⟨⟩ <;> rfl

theorem separate_elementTokens {elements : List Json}
    (h : ∀ json ∈ elements, Separate json.tokens) : Separate (elementTokens elements) := by
  induction elements with
  | nil => exact .delimited rfl .nil
  | cons json elements ih =>
    rw [List.forall_mem_cons] at h
    exact .delimited rfl (h.1.append (ih h.2) (isDelimited_elementTokens _))

theorem separate_memberTokens {members : List (Option String × Json)}
    (h : ∀ member ∈ members, Separate member.2.tokens) : Separate (memberTokens members) := by
  induction members with
  | nil => exact .delimited rfl .nil
  | cons member members ih =>
    rw [List.forall_mem_cons] at h
    have hjson := h.1.append (ih h.2) (isDelimited_memberTokens _)
    exact .delimited rfl (.delimited rfl (.delimited rfl hjson))

theorem IsWellFormed.separate {json : Json} (h : json.IsWellFormed) : Separate json.tokens := by
  induction h with
  | null => exact .word rfl rfl nofun .nil
  | bool value => cases value <;> exact .word rfl rfl nofun .nil
  | number h =>
    refine .word ?_ (all_isWordChar_of_isNumber h) nofun .nil
    rw [chars, ofWord?_of_isNumber h, String.ofList_toList]
  | string text? => exact .delimited rfl .nil
  | @array elements _ ih =>
    cases elements with
    | nil => exact .delimited rfl (.delimited rfl .nil)
    | cons json elements =>
      rw [List.forall_mem_cons] at ih
      have hjson := ih.1.append (separate_elementTokens ih.2) (isDelimited_elementTokens _)
      exact .delimited rfl hjson
  | @object members _ ih =>
    cases members with
    | nil => exact .delimited rfl (.delimited rfl .nil)
    | cons member members =>
      rw [List.forall_mem_cons] at ih
      have hjson := ih.1.append (separate_memberTokens ih.2) (isDelimited_memberTokens _)
      exact .delimited rfl (.delimited rfl (.delimited rfl hjson))

/--
Whether the text of a value splits into the tokens of the value, wherever it stands.
-/
def IsScanned (json : Json) : Prop := ∀ rest, EndsWord rest → Scans json.tokens rest

theorem IsWellFormed.isScanned {json : Json} (h : json.IsWellFormed) : json.IsScanned :=
  fun _ => h.separate.scans

/--
The text of a value splits into the tokens of the value.
-/
theorem IsWellFormed.scan?_text {json : Json} (h : json.IsWellFormed) :
    scan? json.text.toList = some json.tokens := by
  have hscan : Scans json.tokens [] := h.isScanned [] nofun
  rw [Scans, List.append_nil, scan?, Option.map_some, List.append_nil] at hscan
  rw [text, String.toList_ofList, hscan]

end Json

end Calculator
