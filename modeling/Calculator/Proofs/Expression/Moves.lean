import Calculator.Proofs.Expression.Gap
import Calculator.Proofs.Expression.Progress

/-!
This module contains the moves of a cursor, one after another. The characters that they consume, as
far as their arguments and answers tell, are those between the first place and the last one.
-/

namespace Calculator

/--
The longest beginning of a text in which all characters are of one kind.
-/
structure IsLongest (kind : Char → Bool) (front text : List Char) : Prop where
  begins : front <+: text
  all_kind : ∀ c ∈ front, kind c = true
  longest : ∀ other, other <+: text → (∀ c ∈ other, kind c = true) → other <+: front

theorem isLongest_takeWhile (kind : Char → Bool) (text : List Char) :
    IsLongest kind (text.takeWhile kind) text where
  begins := List.takeWhile_prefix kind
  all_kind := List.all_eq_true.mp List.all_takeWhile
  longest := by
    rintro other ⟨behind, rfl⟩ hother
    rw [List.takeWhile_append_of_pos hother]
    exact List.prefix_append other _

namespace Cursor

inductive Move where
  | advance
  | eat (expected : Char)
  | eatKeyword (keyword : String)
  | takeNumber
deriving DecidableEq

inductive Answer where
  | nothing
  | matched (found : Bool)
  | literal (text : String)
deriving DecidableEq

/--
The characters that have been consumed, by the answer to a move that looks for `argument`.
-/
def Answer.taken (argument : List Char) : Answer → List Char
  | .nothing => []
  | .matched found => if found then argument else []
  | .literal text => text.toList

def answer (place : Cursor) : Move → Answer
  | .advance => .nothing
  | .eat expected => .matched (place.eat? expected).isSome
  | .eatKeyword keyword => .matched (place.eatKeyword? keyword).isSome
  | .takeNumber => .literal (String.ofList place.number)

def move (place : Cursor) : Move → Cursor
  | .advance => place.advance
  | .eat expected => (place.eat? expected).getD place
  | .eatKeyword keyword => (place.eatKeyword? keyword).getD place
  | .takeNumber => place.skipNumber

/--
The characters that a move consumes. A step over one character consumes the one that has been seen.
-/
def consumes (place : Cursor) : Move → List Char
  | .advance => place.current?.toList
  | .eat expected => (place.answer (.eat expected)).taken [expected]
  | .eatKeyword keyword => (place.answer (.eatKeyword keyword)).taken keyword.toList
  | .takeNumber => (place.answer .takeNumber).taken []

def run (place : Cursor) (moves : List Move) : Cursor := moves.foldl move place

def consumed : Cursor → List Move → List Char
  | _, [] => []
  | place, move :: moves => place.consumes move ++ (place.move move).consumed moves

/--
What it means to eat an argument: it is consumed if all of it comes next, and nothing is otherwise.
-/
inductive Eats (argument : List Char) (place : Cursor) : Answer → Cursor → Prop
  | found {next : Cursor} (hbegins : argument <+: place.rest)
    (hpasses : Passes argument place next) : Eats argument place (.matched true) next
  | missing (habsent : ¬argument <+: place.rest) : Eats argument place (.matched false) place

variable {place next : Cursor} {text argument : List Char} {answer : Answer}

theorem Eats.passes (h : Eats argument place answer next) :
    Passes (answer.taken argument) place next := by
  cases h with
  | found _ hpasses => exact hpasses
  | missing => exact passes_nil place

theorem eats_eatKeyword? (place : Cursor) (keyword : String) :
    Eats keyword.toList place (.matched (place.eatKeyword? keyword).isSome)
      ((place.eatKeyword? keyword).getD place) := by
  by_cases hbegins : keyword.toList <+: place.rest
  · obtain ⟨rest, hrest⟩ := hbegins
    have hnext := eatKeyword?_of_append hrest.symm
    rw [hnext]
    exact .found ⟨rest, hrest⟩ (eatKeyword?_eq_some_iff.mp hnext)
  · rw [eatKeyword?_eq_none_of_absent hbegins]
    exact .missing hbegins

theorem eat?_eq_eatKeyword? (place : Cursor) (expected : Char) :
    place.eat? expected = place.eatKeyword? (String.singleton expected) := by
  obtain ⟨position, rest⟩ := place
  unfold eat? eatKeyword? current?
  rw [String.toList_singleton]
  cases rest with
  | nil => rfl
  | cons c rest =>
    simp only [List.head?_cons, Option.some.injEq, List.isPrefixOf_cons_cons,
      List.isPrefixOf_nil_left, Bool.and_true, beq_iff_eq, List.length_singleton, eq_comm (a := c)]

theorem eats_eat (place : Cursor) (expected : Char) :
    Eats [expected] place (place.answer (.eat expected)) (place.move (.eat expected)) := by
  have heats := eats_eatKeyword? place (String.singleton expected)
  rw [← eat?_eq_eatKeyword?, String.toList_singleton] at heats
  exact heats

theorem eats_eatKeyword (place : Cursor) (keyword : String) :
    Eats keyword.toList place (place.answer (.eatKeyword keyword))
      (place.move (.eatKeyword keyword)) :=
  eats_eatKeyword? place keyword

theorem advance_of_rest_eq_nil (h : place.rest = []) : place.advance = place := by
  rw [advance, atEnd, h]
  rfl

theorem advance_of_rest_eq_cons {c : Char} {rest : List Char} (h : place.rest = c :: rest) :
    place.advance = place.skip 1 := by
  rw [advance, atEnd, h]
  rfl

theorem passes_singleton {c : Char} {rest : List Char} (h : place.rest = c :: rest) :
    Passes [c] place (place.skip 1) := by
  have hrest : (place.skip 1).rest = rest := by simp [skip, h]
  rw [← hrest] at h
  exact ⟨h, rfl⟩

theorem passes_advance (place : Cursor) : Passes place.current?.toList place place.advance := by
  cases hrest : place.rest with
  | nil =>
    rw [advance_of_rest_eq_nil hrest, current?, hrest]
    exact passes_nil place
  | cons c rest =>
    rw [advance_of_rest_eq_cons hrest, current?, hrest]
    exact passes_singleton hrest

theorem passes_skipNumber (place : Cursor) : Passes place.number place place.skipNumber :=
  ⟨place.number_append_skipNumber.symm, rfl⟩

theorem number_of_isNumeric {c : Char} {rest : List Char} (hrest : place.rest = c :: rest)
    (hc : isNumeric c = true) : place.number = c :: (place.skip 1).number := by
  simp [number, skip, hrest, hc]

theorem skipNumber_of_isNumeric {c : Char} {rest : List Char} (hrest : place.rest = c :: rest)
    (hc : isNumeric c = true) : place.skipNumber = (place.skip 1).skipNumber := by
  rw [skipNumber, skipNumber, number_of_isNumeric hrest hc, skip_skip, List.length_cons,
    Nat.add_comm]

theorem passes_move (place : Cursor) (move : Move) :
    Passes (place.consumes move) place (place.move move) := by
  cases move with
  | advance => exact passes_advance place
  | eat expected => exact (eats_eat place expected).passes
  | eatKeyword keyword => exact (eats_eatKeyword place keyword).passes
  | takeNumber =>
    simp only [consumes, Cursor.answer, Answer.taken, String.toList_ofList]
    exact passes_skipNumber place

theorem passes_run (place : Cursor) (moves : List Move) :
    Passes (place.consumed moves) place (place.run moves) := by
  induction moves generalizing place with
  | nil => exact passes_nil place
  | cons move moves ih => exact (passes_move place move).append (ih (place.move move))

theorem Passes.eq_take {text : String} {chars : List Char}
    (h : Passes chars (ofString text) place) : chars = text.toList.take place.position := by
  obtain ⟨hrest, rfl⟩ := h
  have htext : text.toList = chars ++ ((ofString text).skip chars.length).rest := hrest
  have hposition : ((ofString text).skip chars.length).position = chars.length := Nat.zero_add _
  rw [hposition, htext, List.take_left]

theorem isIn_run (text : String) (moves : List Move) :
    ((ofString text).run moves).IsIn text.toList :=
  (isIn_ofString text).passes (passes_run (ofString text) moves)

theorem IsIn.current?_eq (h : place.IsIn text) : place.current? = text[place.position]? := by
  rw [current?, h.rest_eq, List.head?_drop]

theorem IsIn.rest_eq_nil_iff (h : place.IsIn text) :
    place.rest = [] ↔ place.position = text.length := by
  rw [h.rest_eq, List.drop_eq_nil_iff]
  exact ⟨Nat.le_antisymm h.position_le, fun heq => Nat.le_of_eq heq.symm⟩

theorem IsIn.position_advance (h : place.IsIn text) :
    place.advance.position
      = if place.position < text.length then place.position + 1 else place.position := by
  cases hrest : place.rest with
  | nil =>
    have hposition := h.rest_eq_nil_iff.mp hrest
    rw [advance_of_rest_eq_nil hrest, if_neg (by omega)]
  | cons c rest =>
    have hposition : place.position ≠ text.length := by
      intro heq
      cases hrest.symm.trans (h.rest_eq_nil_iff.mpr heq)
    have hlt := Nat.lt_of_le_of_ne h.position_le hposition
    rw [advance_of_rest_eq_cons hrest, if_pos hlt]
    rfl

end Cursor

end Calculator
