/-!
This module contains the cursor that walks over the characters of an expression, with one character
of lookahead. An operation that consumes a fixed text returns no cursor if the text is not there.
-/

namespace Calculator

/--
A place in a text: how many characters lie before it, and those that are left.
-/
structure Cursor where
  position : Nat
  rest : List Char
deriving DecidableEq

namespace Cursor

def ofString (text : String) : Cursor := ⟨0, text.toList⟩

def remaining (c : Cursor) : Nat := c.rest.length

/--
The next character, which is absent exactly at the end of the text.
-/
def current? (c : Cursor) : Option Char := c.rest.head?

def atEnd (c : Cursor) : Bool := c.rest.isEmpty

def skip (c : Cursor) (n : Nat) : Cursor := ⟨c.position + n, c.rest.drop n⟩

/--
Step over one character. The end of the text is not left.
-/
def advance (c : Cursor) : Cursor := if c.atEnd then c else c.skip 1

/--
Consume all of `keyword`, or nothing.
-/
def eatKeyword? (c : Cursor) (keyword : String) : Option Cursor :=
  if keyword.toList.isPrefixOf c.rest then some (c.skip keyword.toList.length) else none

def eat? (c : Cursor) (expected : Char) : Option Cursor :=
  if c.current? = some expected then some (c.skip 1) else none

/--
Consume one character that stands for an `α`.
-/
def eatMap? {α : Type} (c : Cursor) (meaning? : Char → Option α) : Option (α × Cursor) :=
  (c.current?.bind meaning?).map (·, c.skip 1)

/--
Whether a character may occur in a number. The digits are those of ASCII.
-/
def isNumeric (ch : Char) : Bool := ch.isDigit || ch = '.'

/--
The longest run of characters of a number from here on.
-/
def number (c : Cursor) : List Char := c.rest.takeWhile isNumeric

def skipNumber (c : Cursor) : Cursor := c.skip c.number.length

theorem remaining_skip (c : Cursor) (n : Nat) : (c.skip n).remaining = c.remaining - n := by
  simp [skip, remaining]

theorem remaining_skip_le (c : Cursor) (n : Nat) : (c.skip n).remaining ≤ c.remaining := by
  rw [remaining_skip]; omega

theorem remaining_eatKeyword?_le {c next : Cursor} {keyword : String}
    (h : c.eatKeyword? keyword = some next) : next.remaining ≤ c.remaining := by
  unfold eatKeyword? at h
  split at h
  · cases h; exact remaining_skip_le ..
  · cases h

theorem remaining_eatMap?_lt {α : Type} {c next : Cursor} {meaning? : Char → Option α} {a : α}
    (h : c.eatMap? meaning? = some (a, next)) : next.remaining < c.remaining := by
  simp only [eatMap?, Option.map_eq_some_iff, Option.bind_eq_some_iff, Prod.mk.injEq] at h
  obtain ⟨_, ⟨ch, hcurrent, _⟩, _, rfl⟩ := h
  rw [remaining_skip]
  cases hrest : c.rest with
  | nil => simp [current?, hrest] at hcurrent
  | cons => simp [remaining, hrest]

theorem number_length_le (c : Cursor) : c.number.length ≤ c.remaining := by
  simpa [number, remaining] using (List.takeWhile_sublist _).length_le

theorem number_append_skipNumber (c : Cursor) : c.number ++ c.skipNumber.rest = c.rest := by
  obtain ⟨position, rest⟩ := c
  simp only [skipNumber, skip, number]
  induction rest with
  | nil => rfl
  | cons ch rest ih =>
    by_cases hch : isNumeric ch <;> simp [hch, ih]

end Cursor

end Calculator
