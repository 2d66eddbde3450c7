import Calculator.Number.Hexadecimal

/-!
This module contains the text of JSON strings. A character may be written as the hexadecimal digits
of its 16-bit units, of which the characters from U+10000 on have two: a high surrogate and a low
one. A string with surrogates that do not form such a pair is a string all the same, but no text.
-/

namespace Calculator

namespace Json

/--
A part of a string as it is written: a character, or a 16-bit unit.
-/
inductive Piece where
  | char (c : Char)
  | unit (code : Nat)
deriving DecidableEq

def unescape? : Char → Option Char
  | '"' => some '"'
  | '\\' => some '\\'
  | '/' => some '/'
  | 'b' => some '\x08'
  | 'f' => some '\x0c'
  | 'n' => some '\n'
  | 'r' => some '\r'
  | 't' => some '\t'
  | _ => none

/--
Read up to the closing quote. Returns the parts of the string and the text behind it.
-/
def pieces? : List Char → Option (List Piece × List Char)
  | '"' :: rest => some ([], rest)
  | '\\' :: 'u' :: a :: b :: c :: d :: rest => do
    let code ← ofHexDigits? [a, b, c, d]
    let (pieces, rest) ← pieces? rest
    return (.unit code :: pieces, rest)
  | '\\' :: letter :: rest => do
    let c ← unescape? letter
    let (pieces, rest) ← pieces? rest
    return (.char c :: pieces, rest)
  | c :: rest =>
    if ' ' ≤ c then do
      let (pieces, rest) ← pieces? rest
      return (.char c :: pieces, rest)
    else
      none
  | [] => none

def isHighSurrogate (code : Nat) : Bool := 0xD800 ≤ code && code < 0xDC00

def isLowSurrogate (code : Nat) : Bool := 0xDC00 ≤ code && code < 0xE000

/--
The text that consists of the given parts.
-/
def join? : List Piece → Option (List Char)
  | [] => some []
  | .char c :: pieces => (join? pieces).map (c :: ·)
  | .unit high :: .unit low :: pieces =>
    if isHighSurrogate high then do
      guard (isLowSurrogate low)
      let chars ← join? pieces
      return Char.ofNat (0x10000 + (high - 0xD800) * 0x400 + (low - 0xDC00)) :: chars
    else do
      guard !(isLowSurrogate high)
      let chars ← join? (.unit low :: pieces)
      return Char.ofNat high :: chars
  | .unit code :: pieces => do
    guard !(isHighSurrogate code || isLowSurrogate code)
    let chars ← join? pieces
    return Char.ofNat code :: chars

/--
Read up to the closing quote. Returns the text that the string stands for, if it does, and the text
behind it.
-/
def readQuoted? (text : List Char) : Option (Option (List Char) × List Char) :=
  (pieces? text).map fun (pieces, rest) => (join? pieces, rest)

/--
A character between quotes. Control characters without a letter are written as their unit.
-/
def escape (c : Char) : List Char :=
  match c with
  | '"' => ['\\', '"']
  | '\\' => ['\\', '\\']
  | '\x08' => ['\\', 'b']
  | '\x0c' => ['\\', 'f']
  | '\n' => ['\\', 'n']
  | '\r' => ['\\', 'r']
  | '\t' => ['\\', 't']
  | c =>
    if ' ' ≤ c then [c]
    else ['\\', 'u', '0', '0', Nat.digitChar (c.toNat / 16), Nat.digitChar (c.toNat % 16)]

def quoted (text : List Char) : List Char := '"' :: text.flatMap escape ++ ['"']

theorem length_of_pieces? {text rest : List Char} {pieces : List Piece}
    (h : pieces? text = some (pieces, rest)) : rest.length < text.length := by
  fun_induction pieces? text generalizing pieces rest with
  | case1 text => cases h; simp
  | case2 a b c d text ih =>
    simp only [Option.bind_eq_bind, Option.bind_eq_some_iff, Option.pure_def, Option.some.injEq,
      Prod.mk.injEq] at h
    obtain ⟨_, _, ⟨_, _⟩, hrest, _, rfl⟩ := h
    have := ih hrest
    simp only [List.length_cons]
    omega
  | case3 letter text _ ih =>
    simp only [Option.bind_eq_bind, Option.bind_eq_some_iff, Option.pure_def, Option.some.injEq,
      Prod.mk.injEq] at h
    obtain ⟨_, _, ⟨_, _⟩, hrest, _, rfl⟩ := h
    have := ih hrest
    simp only [List.length_cons]
    omega
  | case4 c text _ _ _ _ ih =>
    simp only [Option.bind_eq_bind, Option.bind_eq_some_iff, Option.pure_def, Option.some.injEq,
      Prod.mk.injEq] at h
    obtain ⟨⟨_, _⟩, hrest, _, rfl⟩ := h
    have := ih hrest
    simp only [List.length_cons]
    omega
  | case5 => cases h
  | case6 => cases h

theorem length_of_readQuoted? {text rest : List Char} {chars? : Option (List Char)}
    (h : readQuoted? text = some (chars?, rest)) : rest.length < text.length := by
  simp only [readQuoted?, Option.map_eq_some_iff, Prod.mk.injEq] at h
  obtain ⟨⟨_, _⟩, hpieces, _, rfl⟩ := h
  exact length_of_pieces? hpieces

end Json

end Calculator
