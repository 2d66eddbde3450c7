import Calculator.Proofs.Expression.Moves

/-!
This module contains a cursor that keeps the whole text, and the next character beside the position.
The two are not bound to agree, but no sequence of moves from the start of a text parts them.
-/

namespace Calculator

structure Scanner where
  chars : List Char
  position : Nat
  next? : Option Char
deriving DecidableEq

namespace Scanner

open Cursor (Move Answer)

def ofString (text : String) : Scanner := ⟨text.toList, 0, text.toList.head?⟩

/--
The position does not leave the text, but the next character is looked up again in any case.
-/
def advance (scanner : Scanner) : Scanner :=
  let position :=
    if scanner.position < scanner.chars.length then scanner.position + 1 else scanner.position
  { scanner with position, next? := scanner.chars[position]? }

def eat (scanner : Scanner) (expected : Char) : Bool × Scanner :=
  if scanner.next? = some expected then (true, scanner.advance) else (false, scanner)

/--
Look up each character at its distance from the position. Nothing is found beyond the end.
-/
def startsWith (scanner : Scanner) (keyword : List Char) : Bool :=
  keyword.zipIdx.all fun (c, offset) => scanner.chars[scanner.position + offset]? = some c

def eatKeyword (scanner : Scanner) (keyword : String) : Bool × Scanner :=
  if scanner.startsWith keyword.toList then
    (true, keyword.toList.foldl (fun scanner _ => scanner.advance) scanner)
  else
    (false, scanner)

/--
How many more steps can find a next character, even if it is not the one at the position.
-/
def ahead (scanner : Scanner) : Nat :=
  scanner.chars.length - scanner.position + if scanner.next?.isSome then 1 else 0

theorem ahead_advance_lt {scanner : Scanner} {c : Char} (h : scanner.next? = some c) :
    scanner.advance.ahead < scanner.ahead := by
  have hsome : scanner.next?.isSome = true := by rw [h]; rfl
  unfold advance ahead
  rw [hsome]
  by_cases hlt : scanner.position < scanner.chars.length
  · simp only [hlt, if_true]
    split <;> omega
  · -- The next character was none of the text, so this step finds that the text is at its end.
    simp [hlt]

def takeNumber (scanner : Scanner) : List Char × Scanner :=
  match h : scanner.next? with
  | some c =>
    if Cursor.isNumeric c then
      have := ahead_advance_lt h
      let (literal, after) := scanner.advance.takeNumber
      (c :: literal, after)
    else
      ([], scanner)
  | none => ([], scanner)
termination_by scanner.ahead

theorem takeNumber_of_isNumeric {scanner : Scanner} {c : Char} (h : scanner.next? = some c)
    (hc : Cursor.isNumeric c = true) :
    scanner.takeNumber = (c :: scanner.advance.takeNumber.1, scanner.advance.takeNumber.2) := by
  rw [takeNumber]
  split
  · next found hfound =>
    cases h.symm.trans hfound
    rw [if_pos hc]
  · next hnone => cases h.symm.trans hnone

theorem takeNumber_of_notNumeric {scanner : Scanner}
    (h : ∀ c ∈ scanner.next?, Cursor.isNumeric c = false) : scanner.takeNumber = ([], scanner) := by
  rw [takeNumber]
  split
  · next c hc => rw [h c hc, if_neg Bool.false_ne_true]
  · rfl

def perform (scanner : Scanner) : Move → Answer × Scanner
  | .advance => (.nothing, scanner.advance)
  | .eat expected =>
    let (found, after) := scanner.eat expected
    (.matched found, after)
  | .eatKeyword keyword =>
    let (found, after) := scanner.eatKeyword keyword
    (.matched found, after)
  | .takeNumber =>
    let (literal, after) := scanner.takeNumber
    (.literal (String.ofList literal), after)

def run (scanner : Scanner) (moves : List Move) : Scanner :=
  moves.foldl (fun scanner move => (scanner.perform move).2) scanner

def ofPlace (text : List Char) (place : Cursor) : Scanner := ⟨text, place.position, place.current?⟩

variable {text chars : List Char} {place next : Cursor}

theorem advance_ofPlace (h : place.IsIn text) :
    (ofPlace text place).advance = ofPlace text place.advance := by
  have hadvance := h.passes (Cursor.passes_advance place)
  unfold ofPlace advance
  rw [hadvance.current?_eq, h.position_advance]

theorem foldl_advance_ofPlace (h : place.IsIn text) (hpasses : Cursor.Passes chars place next) :
    chars.foldl (fun scanner _ => scanner.advance) (ofPlace text place) = ofPlace text next := by
  induction chars generalizing place with
  | nil =>
    obtain ⟨-, rfl⟩ := hpasses
    rfl
  | cons c chars ih =>
    obtain ⟨hrest, hbehind⟩ := Cursor.passes_cons.mp hpasses
    have hskip := h.passes (Cursor.passes_singleton hrest)
    rw [List.foldl_cons, advance_ofPlace h, Cursor.advance_of_rest_eq_cons hrest]
    exact ih hskip hbehind

theorem startsWith_ofPlace (h : place.IsIn text) (keyword : List Char) :
    (ofPlace text place).startsWith keyword = true ↔ keyword <+: place.rest := by
  rw [h.rest_eq, List.prefix_iff_getElem?, startsWith, List.all_eq_true]
  simp only [List.getElem?_drop]
  constructor
  · intro hall offset hoffset
    have hmem : (keyword[offset], offset) ∈ keyword.zipIdx :=
      List.mem_zipIdx_iff_getElem?.mpr (List.getElem?_eq_getElem hoffset)
    exact of_decide_eq_true (hall _ hmem)
  · rintro hall ⟨c, offset⟩ hmem
    obtain ⟨hoffset, hc⟩ := List.getElem?_eq_some_iff.mp (List.mem_zipIdx_iff_getElem?.mp hmem)
    have hchar := hall offset hoffset
    rw [hc] at hchar
    exact decide_eq_true hchar

theorem eat_ofPlace (h : place.IsIn text) (expected : Char) :
    (ofPlace text place).eat expected
      = ((place.eat? expected).isSome, ofPlace text ((place.eat? expected).getD place)) := by
  by_cases hexpected : place.current? = some expected
  · obtain ⟨rest, hrest⟩ := List.head?_eq_some_iff.mp hexpected
    have hnext : (ofPlace text place).next? = some expected := hexpected
    rw [eat, if_pos hnext, Cursor.eat?, if_pos hexpected, advance_ofPlace h,
      Cursor.advance_of_rest_eq_cons hrest]
    rfl
  · have hnext : (ofPlace text place).next? ≠ some expected := hexpected
    rw [eat, if_neg hnext, Cursor.eat?, if_neg hexpected]
    rfl

theorem eatKeyword_ofPlace (h : place.IsIn text) (keyword : String) :
    (ofPlace text place).eatKeyword keyword
      = ((place.eatKeyword? keyword).isSome,
        ofPlace text ((place.eatKeyword? keyword).getD place)) := by
  have hstarts := startsWith_ofPlace h keyword.toList
  by_cases hbegins : keyword.toList <+: place.rest
  · obtain ⟨rest, hrest⟩ := hbegins
    have hnext := Cursor.eatKeyword?_of_append hrest.symm
    rw [eatKeyword, if_pos (hstarts.mpr ⟨rest, hrest⟩), hnext,
      foldl_advance_ofPlace h (Cursor.eatKeyword?_eq_some_iff.mp hnext)]
    rfl
  · rw [eatKeyword, if_neg (mt hstarts.mp hbegins), Cursor.eatKeyword?_eq_none_of_absent hbegins]
    rfl

theorem takeNumber_ofPlace_of_notNumeric (h : ∀ c ∈ place.current?, Cursor.isNumeric c = false) :
    (ofPlace text place).takeNumber = (place.number, ofPlace text place.skipNumber) := by
  have hnumber : place.number = [] := Cursor.number_of_rest_eq_append rfl nofun h
  rw [takeNumber_of_notNumeric h, Cursor.skipNumber, hnumber]
  rfl

theorem takeNumber_ofPlace (h : place.IsIn text) :
    (ofPlace text place).takeNumber = (place.number, ofPlace text place.skipNumber) := by
  -- On what is left of the text, of which every digit or point is one round of the loop.
  induction hrest : place.rest generalizing place with
  | nil =>
    have hcurrent : place.current? = none := List.head?_eq_none_iff.mpr hrest
    apply takeNumber_ofPlace_of_notNumeric
    rw [hcurrent]
    exact nofun
  | cons c rest ih =>
    have hcurrent : place.current? = some c := List.head?_eq_some_iff.mpr ⟨rest, hrest⟩
    cases hc : Cursor.isNumeric c with
    | true =>
      have hskip := h.passes (Cursor.passes_singleton hrest)
      have hliteral := ih hskip (by simp [Cursor.skip, hrest])
      rw [takeNumber_of_isNumeric hcurrent hc, advance_ofPlace h,
        Cursor.advance_of_rest_eq_cons hrest, hliteral, Cursor.number_of_isNumeric hrest hc,
        Cursor.skipNumber_of_isNumeric hrest hc]
    | false =>
      apply takeNumber_ofPlace_of_notNumeric
      rw [hcurrent]
      rintro _ ⟨⟩
      exact hc

theorem perform_ofPlace (h : place.IsIn text) (move : Move) :
    (ofPlace text place).perform move = (place.answer move, ofPlace text (place.move move)) := by
  cases move with
  | advance => rw [perform, advance_ofPlace h]; rfl
  | eat expected => rw [perform, eat_ofPlace h]; rfl
  | eatKeyword keyword => rw [perform, eatKeyword_ofPlace h]; rfl
  | takeNumber => rw [perform, takeNumber_ofPlace h]; rfl

theorem run_ofPlace (h : place.IsIn text) (moves : List Move) :
    (ofPlace text place).run moves = ofPlace text (place.run moves) := by
  induction moves generalizing place with
  | nil => rfl
  | cons move moves ih =>
    have hrun : (ofPlace text place).run (move :: moves)
        = ((ofPlace text place).perform move).2.run moves := rfl
    rw [hrun, perform_ofPlace h]
    exact ih (h.passes (Cursor.passes_move place move))

/--
Whatever it is asked for, a cursor is at a place of its text and has consumed just what lies before
it. The text behind tells what it does next, and a scanner that was asked for the same does that.
-/
theorem run_consumes (text : String) (moves : List Move) :
    let place := (Cursor.ofString text).run moves
    let scanner := (ofString text).run moves
    (place.position ≤ text.length
        ∧ place.rest = text.toList.drop place.position
        ∧ place.current? = text.toList[place.position]?
        ∧ (place.current? = none ↔ place.position = text.length)
        ∧ (place.atEnd = true ↔ place.position = text.length))
      ∧ (Cursor.ofString text).consumed moves = text.toList.take place.position
      ∧ (∀ expected, Cursor.Eats [expected] place (place.answer (.eat expected))
          (place.move (.eat expected)))
      ∧ (∀ keyword, Cursor.Eats keyword.toList place (place.answer (.eatKeyword keyword))
          (place.move (.eatKeyword keyword)))
      ∧ (∃ literal, place.answer .takeNumber = .literal literal
          ∧ IsLongest Cursor.isNumeric literal.toList place.rest
          ∧ Cursor.Passes literal.toList place (place.move .takeNumber))
      ∧ scanner = ⟨text.toList, place.position, place.current?⟩
      ∧ ∀ move, scanner.perform move
          = (place.answer move,
            ⟨text.toList, (place.move move).position, (place.move move).current?⟩) := by
  intro place scanner
  have hplace : place.IsIn text.toList := Cursor.isIn_run text moves
  have hscanner : scanner = ofPlace text.toList place :=
    run_ofPlace (Cursor.isIn_ofString text) moves
  have hlength : text.toList.length = text.length := String.length_toList
  have hend := hplace.rest_eq_nil_iff
  rw [hlength] at hend
  refine ⟨⟨?_, hplace.rest_eq, hplace.current?_eq, ?_, ?_⟩, ?_, ?_, ?_, ?_, hscanner, ?_⟩
  · rw [← hlength]
    exact hplace.position_le
  · rw [← hend]
    exact List.head?_eq_none_iff
  · rw [← hend]
    exact List.isEmpty_iff
  · exact (Cursor.passes_run (Cursor.ofString text) moves).eq_take
  · exact Cursor.eats_eat place
  · exact Cursor.eats_eatKeyword place
  · have hnumber : (String.ofList place.number).toList = place.number := String.toList_ofList
    refine ⟨String.ofList place.number, rfl, ?_, ?_⟩
    · rw [hnumber]
      exact isLongest_takeWhile Cursor.isNumeric place.rest
    · rw [hnumber]
      exact Cursor.passes_skipNumber place
  · rw [hscanner]
    exact perform_ofPlace hplace

end Scanner

end Calculator
