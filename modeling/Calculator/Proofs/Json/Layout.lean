import Calculator.Proofs.Json.Reading

/-!
This module contains the ways to write a JSON value, and the theorem that each of them is read as the
value: blanks may stand around any token, and a character of a string may be escaped.
-/

namespace Calculator

namespace Json

/--
The letters behind a backslash with the characters they stand for.
-/
def letters : List (Char × Char) :=
  [('"', '"'), ('\\', '\\'), ('/', '/'), ('b', '\x08'), ('f', '\x0c'), ('n', '\n'), ('r', '\r'),
    ('t', '\t')]

theorem unescape?_eq_some_iff {letter c : Char} :
    unescape? letter = some c ↔ (letter, c) ∈ letters := by
  constructor
  · intro h
    unfold unescape? at h
    split at h
    case h_9 => cases h
    all_goals
      cases h
      decide
  · intro h
    simp only [letters, List.mem_cons, Prod.mk.injEq, List.not_mem_nil, or_false] at h
    rcases h with ⟨rfl, rfl⟩ | ⟨rfl, rfl⟩ | ⟨rfl, rfl⟩ | ⟨rfl, rfl⟩ | ⟨rfl, rfl⟩ | ⟨rfl, rfl⟩
      | ⟨rfl, rfl⟩ | ⟨rfl, rfl⟩ <;> rfl

/--
How a part of a string may be written.
-/
inductive Piece.Written : Piece → List Char → Prop
  | plain {c : Char} (hplain : ' ' ≤ c) (hquote : c ≠ '"') (hescape : c ≠ '\\') :
    Written (.char c) [c]
  | letter {letter c : Char} (hletter : (letter, c) ∈ letters) : Written (.char c) ['\\', letter]
  | unit {a b c d : Char} {code : Nat} (hcode : ofHexDigits? [a, b, c, d] = some code) :
    Written (.unit code) ['\\', 'u', a, b, c, d]

theorem Piece.Written.pieces?_append {piece : Piece} {chars : List Char} (h : piece.Written chars)
    (rest : List Char) :
    pieces? (chars ++ rest) = (pieces? rest).map (Prod.map (piece :: ·) id) := by
  cases h with
  | plain hplain hquote hescape =>
    rw [List.singleton_append, pieces?]
    · rw [if_pos hplain]
      cases pieces? rest <;> rfl
    · exact hquote
    · intro _ _ _ _ _ heq
      exact absurd heq hescape
    · intro _ _ heq
      exact absurd heq hescape
  | letter hletter =>
    refine pieces?_letter ?_ (unescape?_eq_some_iff.mpr hletter) rest
    rintro rfl
    cases unescape?_eq_some_iff.mpr hletter
  | unit hcode =>
    simp only [List.cons_append, List.nil_append]
    rw [pieces?, hcode]
    cases pieces? rest <;> rfl

theorem pieces?_flatMap {parts : List (Piece × List Char)} (h : ∀ part ∈ parts, part.1.Written part.2)
    (rest : List Char) :
    pieces? (parts.flatMap Prod.snd ++ '"' :: rest) = some (parts.map Prod.fst, rest) := by
  induction parts with
  | nil => rw [List.flatMap_nil, List.nil_append, pieces?]; rfl
  | cons part parts ih =>
    rw [List.forall_mem_cons] at h
    rw [List.flatMap_cons, List.append_assoc, h.1.pieces?_append, ih h.2]
    rfl

namespace Token

/--
How a token may be written: the way it is printed, or as a string of parts that are written.
-/
inductive Written : Token → List Char → Prop
  | printed (token : Token) : Written token token.chars
  | string (parts : List (Piece × List Char)) (hparts : ∀ part ∈ parts, part.1.Written part.2) :
    Written (.string ((join? (parts.map Prod.fst)).map String.ofList))
      ('"' :: parts.flatMap Prod.snd ++ ['"'])

/--
How some tokens may be written one after the other, with blanks in front of each and at the end.
-/
inductive Layout : List Token → List Char → Prop
  | nil {blanks : List Char} (hblanks : blanks.all isBlank = true) : Layout [] blanks
  | cons {token : Token} {tokens : List Token} {blanks chars rest : List Char}
    (hblanks : blanks.all isBlank = true) (hchars : token.Written chars)
    (hrest : Layout tokens rest) : Layout (token :: tokens) (blanks ++ (chars ++ rest))

/--
Tokens in front of others may be printed.
-/
theorem Layout.printed (front : List Token) {tokens : List Token} {rest : List Char}
    (hrest : Layout tokens rest) : Layout (front ++ tokens) (front.flatMap chars ++ rest) := by
  induction front with
  | nil => exact hrest
  | cons token front ih =>
    rw [List.flatMap_cons, List.append_assoc]
    exact @Layout.cons _ _ [] _ _ rfl (.printed token) ih

theorem Layout.string {tokens : List Token} {rest : List Char} (parts : List (Piece × List Char))
    (hparts : ∀ part ∈ parts, part.1.Written part.2) (hrest : Layout tokens rest) :
    Layout (.string ((join? (parts.map Prod.fst)).map String.ofList) :: tokens)
      ('"' :: parts.flatMap Prod.snd ++ '"' :: rest) := by
  have hlayout := Layout.cons List.all_nil (.string parts hparts) hrest
  rw [List.append_assoc] at hlayout
  exact hlayout

theorem Layout.blank (blank : Char) (hblank : isBlank blank = true) {tokens : List Token}
    {text : List Char} (h : Layout tokens text) : Layout tokens (blank :: text) := by
  have hall {blanks : List Char} (hblanks : blanks.all isBlank = true) :
      (blank :: blanks).all isBlank = true := by
    rw [List.all_cons, hblank, hblanks]
    rfl
  cases h with
  | nil hblanks => exact .nil (hall hblanks)
  | cons hblanks hchars hrest => exact .cons (hall hblanks) hchars hrest

theorem scan?_blanks_append {blanks : List Char} (h : blanks.all isBlank = true)
    (text : List Char) : scan? (blanks ++ text) = scan? text := by
  induction blanks with
  | nil => rfl
  | cons c blanks ih =>
    rw [List.all_cons, Bool.and_eq_true] at h
    rw [List.cons_append, scan?, if_pos h.1, ih h.2]

theorem isWordChar_eq_false_of_isBlank {c : Char} (h : isBlank c = true) :
    isWordChar c = false := by
  rw [Bool.eq_false_iff]
  intro hword
  cases (apart_of_isWordChar hword).1.symm.trans h

theorem Written.endsWord_append {token : Token} {chars : List Char} (h : token.Written chars)
    (htoken : token.isDelimited = true) (rest : List Char) : EndsWord (chars ++ rest) := by
  cases h with
  | printed => exact endsWord_chars_append htoken rest
  | string parts =>
    rintro _ ⟨⟩
    rfl

theorem Layout.endsWord {tokens : List Token} {text : List Char} (h : Layout tokens text)
    (hnext : ∀ next ∈ tokens.head?, next.isDelimited = true) : EndsWord text := by
  have hblanks {blanks rest : List Char} (hblanks : blanks.all isBlank = true)
      (hrest : EndsWord rest) : EndsWord (blanks ++ rest) := by
    cases blanks with
    | nil => exact hrest
    | cons blank blanks =>
      rw [List.all_cons, Bool.and_eq_true] at hblanks
      rintro _ ⟨⟩
      exact isWordChar_eq_false_of_isBlank hblanks.1
  cases h with
  | nil h =>
    rw [← List.append_nil text]
    exact hblanks h nofun
  | cons h hchars _ => exact hblanks h (hchars.endsWord_append (hnext _ rfl) _)

theorem scans_singleton {token : Token} {rest : List Char} :
    Scans [token] rest ↔ scan? (token.chars ++ rest) = (scan? rest).map (token :: ·) := by
  rw [Scans, List.flatMap_singleton]
  rfl

theorem Written.scan?_append {token : Token} {chars : List Char} (h : token.Written chars)
    (htoken : token.isDelimited = true) (rest : List Char) :
    scan? (chars ++ rest) = (scan? rest).map (token :: ·) := by
  cases h with
  | printed => exact scans_singleton.mp (scans_delimited htoken rest)
  | string parts hparts =>
    have hread : readQuoted? (parts.flatMap Prod.snd ++ '"' :: rest)
        = some (join? (parts.map Prod.fst), rest) := by
      rw [readQuoted?, pieces?_flatMap hparts]
      rfl
    rw [List.append_assoc, List.cons_append, List.singleton_append, scan?_quote hread]

/--
Tokens are read whatever way they are written, as long as no two words run into each other.
-/
theorem Layout.scan?_eq {tokens : List Token} {text : List Char} (h : Layout tokens text)
    (htokens : Separate tokens) : scan? text = some tokens := by
  induction htokens generalizing text with
  | nil =>
    cases h with
    | nil hblanks => rw [← List.append_nil text, scan?_blanks_append hblanks, scan?]
  | delimited htoken _ ih =>
    cases h with
    | cons hblanks hchars hrest =>
      rw [scan?_blanks_append hblanks, hchars.scan?_append htoken, ih hrest]
      rfl
  | word hword hall hnext _ ih =>
    cases h with
    | cons hblanks hchars hrest =>
      rw [scan?_blanks_append hblanks]
      cases hchars with
      | printed =>
        rw [scans_singleton.mp (scans_word hword hall (hrest.endsWord hnext)), ih hrest]
        rfl
      | string parts =>
        -- A string does not start like a word.
        cases hjoin : join? (parts.map Prod.fst) <;> rw [hjoin] at hall <;> cases hall

end Token

open Token

/--
How a value may be written as a text.
-/
structure WrittenAs (json : Json) (text : String) : Prop where
  isWellFormed : json.IsWellFormed
  layout : Layout json.tokens text.toList

theorem IsWellFormed.writtenAs_text {json : Json} (h : json.IsWellFormed) :
    json.WrittenAs json.text := by
  have hlayout := Layout.printed json.tokens (.nil List.all_nil)
  rw [List.append_nil, List.append_nil] at hlayout
  refine ⟨h, ?_⟩
  rw [text, String.toList_ofList]
  exact hlayout

theorem WrittenAs.ofText?_eq {json : Json} {text : String} (h : json.WrittenAs text) :
    ofText? text = some json := by
  rw [ofText?, h.layout.scan?_eq h.isWellFormed.separate, Option.bind_some, ofTokens?,
    h.isWellFormed.reads]
  rfl

end Json

end Calculator
