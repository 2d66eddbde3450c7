import Calculator.Proofs.Expression.Nesting

/-!
This module contains the theorem that every rule of the grammar gets on in the text: a rule that
succeeds has moved on without leaving the text, is back at the nesting level that it started from,
and stops in front of nothing that it could have gone on with. That is why computations end.
-/

namespace Calculator

/--
The rules as they are called by one another. A number has a rule of its own.
-/
inductive Call where
  | ofRule (rule : Rule)
  | number
deriving DecidableEq

namespace Call

/--
The operators that a call never stops at.
-/
def operators : Call → List Char
  | .ofRule rule => rule.operators
  | .number => []

/--
The reader that a call stands for. That of a group starts behind its parenthesis.
-/
def reader (inner : Nested) : Call → Reader
  | .ofRule .group => inner.group
  | .ofRule rule => rule.reader inner
  | .number => .numberOr (.fail fun _ => .invalidNumber "")

end Call

namespace Cursor

/--
A place of a text, which may be its end, with what is left of the text behind it.
-/
structure IsIn (text : List Char) (place : Cursor) : Prop where
  position_le : place.position ≤ text.length
  rest_eq : place.rest = text.drop place.position

variable {text chars : List Char} {place next : Cursor}

theorem isIn_ofString (text : String) : (ofString text).IsIn text.toList :=
  ⟨Nat.zero_le _, rfl⟩

theorem IsIn.position_add_remaining (h : place.IsIn text) :
    place.position + place.remaining = text.length := by
  rw [remaining, h.rest_eq, List.length_drop]
  exact Nat.add_sub_of_le h.position_le

theorem IsIn.passes (h : place.IsIn text) (hpasses : Passes chars place next) :
    next.IsIn text := by
  obtain ⟨hrest, rfl⟩ := hpasses
  have htext := h.position_add_remaining
  have hlength : place.remaining = chars.length + (place.skip chars.length).remaining := by
    rw [remaining, hrest, List.length_append]
    rfl
  constructor
  · simp only [skip] at hlength ⊢
    omega
  · rw [skip, h.rest_eq, List.drop_drop]

theorem Spans.exists_passes (h : Spans chars place next) : ∃ front, Passes front place next := by
  obtain ⟨front, _, _, hrest, hposition, _⟩ := h
  refine ⟨front, hrest, ?_⟩
  rw [rest_skip_of_eq_append hrest, ← hposition]

theorem exists_passes_closed (place : Cursor) :
    ∃ front, Passes front place ((place.eatKeyword? ")").getD place) := by
  cases hclosing : place.eatKeyword? ")" with
  | none => exact ⟨[], passes_nil place⟩
  | some next => exact ⟨[')'], eatKeyword?_eq_some_iff.mp hclosing⟩

end Cursor

namespace Call

variable {start : Cursor} {result : Reading}

/--
Where a reader stops: at a place of the same text, and at none of the given operators.
-/
def Stops (start next : Cursor) (operators : List Char) : Prop :=
  (∃ chars, Cursor.Passes chars start next) ∧ ∀ c ∈ next.current?, c ∉ operators

theorem stops_of_sound {reader : Reader} {rule : Rule} {levels : Nat}
    (h : reader.Sound rule levels) (hread : reader.read start = .ok result) :
    Stops start result.next rule.operators := by
  obtain ⟨d, hreads, hstops⟩ := h hread
  exact ⟨hreads.spans.exists_passes, fun c hc => (hstops c hc).1⟩

theorem stops_group {inner : Nested} {levels : Nat} (h : inner.Sound levels)
    (hread : (Grammar.group inner).read start = .ok result) :
    Stops start result.next [] := by
  obtain ⟨closed, hclosed, rfl⟩ := Reader.read_map_eq_ok hread
  obtain ⟨body, hbody, rfl⟩ := Reader.read_closing_eq_ok hclosed
  obtain ⟨⟨chars, hpasses⟩, -⟩ := stops_of_sound (Grammar.sound_expression h) hbody
  obtain ⟨closing, hclosing⟩ := body.next.exists_passes_closed
  exact ⟨⟨chars ++ closing, hpasses.append hclosing⟩, fun _ _ => List.not_mem_nil⟩

theorem stops_number {otherwise : Cursor → SyntaxError}
    (hread : (Reader.numberOr (.fail otherwise)).read start = .ok result) :
    Stops start result.next [] := by
  simp only [Reader.numberOr] at hread
  split at hread
  · cases hread
  · split at hread
    · cases hread
      exact ⟨⟨start.number, start.number_append_skipNumber.symm, rfl⟩, fun _ _ => List.not_mem_nil⟩
    · cases hread

theorem stops_of_read {limit levels : Nat} {call : Call}
    (hread : (call.reader (.ofLevels limit levels)).read start = .ok result) :
    Stops start result.next call.operators := by
  have hsound := Nested.sound_ofLevels limit levels
  cases call with
  | number => exact stops_number hread
  | ofRule rule =>
    cases rule with
    | expression => exact stops_of_sound (Grammar.sound_expression hsound) hread
    | term => exact stops_of_sound (Grammar.sound_term hsound) hread
    | factor => exact stops_of_sound hsound.factor hread
    | powers => exact stops_of_sound (Grammar.sound_powers hsound) hread
    | operand => exact stops_of_sound hsound.operand hread
    | primary => exact stops_of_sound (Grammar.sound_primary hsound) hread
    | group =>
      cases levels with
      | zero => cases hread
      | succ levels => exact stops_group (Nested.sound_ofLevels limit levels) hread

end Call

namespace Counted

variable {limit? : Option Nat} {text : List Char} {place : Cursor} {counter : Counter}

/--
The rule of a number, which a primary turns to in front of a digit or a point.
-/
def number (start : Cursor) : Counted (Except SyntaxError Reading) :=
  match Numeral.ofChars? start.number with
  | some numeral => return .ok ⟨.number numeral, start.skipNumber⟩
  | none => return .error (.invalidNumber (String.ofList start.number))

def perform (limit? : Option Nat) : Call → Cursor → Counted (Except SyntaxError Reading)
  | .ofRule rule => Counted.rule limit? rule
  | .number => number

theorem primary_eq_number {start : Cursor} (h : start.number ≠ []) :
    primary limit? start = number start := by
  obtain ⟨c, hc, hnumeric⟩ := Cursor.isNumeric_of_number_ne_nil h
  have hopen : start.eatKeyword? "(" = none := by
    apply Cursor.eatKeyword?_of_head_ne rfl
    rintro hhead
    cases Option.mem_unique hc hhead
    exact absurd hnumeric (by decide)
  rw [primary, hopen, if_neg h]
  rfl

theorem number_eq_pure (start : Cursor) :
    number start = pure ((Reader.numberOr (.fail fun _ => .invalidNumber "")).read start) := by
  by_cases hempty : start.number = []
  · simp only [number, Reader.numberOr, hempty, if_true]
    rfl
  · simp only [number, Reader.numberOr, if_neg hempty]
    cases Numeral.ofChars? start.number <;> rfl

theorem tracks_number (start : Cursor) :
    Tracks limit? start.remaining (number start)
      fun _ _ => (Reader.numberOr (.fail fun _ => .invalidNumber "")).read start := by
  rw [number_eq_pure]
  exact tracks_pure (Reader.remaining_lt _)

theorem tracks_perform (limit? : Option Nat) (call : Call) (start : Cursor) :
    Tracks limit? start.remaining (perform limit? call start)
      fun limit levels => (call.reader (.ofLevels limit levels)).read start := by
  have h : ∀ next : Cursor, next.remaining < start.remaining → Follows limit? next :=
    fun next _ => follows limit? next
  cases call with
  | number => exact tracks_number start
  | ofRule rule =>
    cases rule with
    | expression => exact tracks_expression h
    | term => exact tracks_term h
    | factor => exact tracks_factor h
    | powers => exact tracks_powers h
    | operand => exact tracks_operand h
    | primary => exact tracks_primary h
    | group => exact tracks_group h

/--
What holds of every state in which a rule is called: the place is one of the text, and neither the
level nor the largest level so far exceeds a limit.
-/
structure IsState (limit? : Option Nat) (text : List Char) (place : Cursor) (counter : Counter) :
    Prop where
  place : place.IsIn text
  depth_le : counter.depth ≤ counter.peak
  peak_le : ∀ limit ∈ limit?, counter.peak ≤ limit

theorem isState_start (limit? : Option Nat) (text : String) :
    IsState limit? text.toList (.ofString text) .zero :=
  ⟨Cursor.isIn_ofString text, Nat.le_refl 0, fun limit _ => Nat.zero_le limit⟩

/--
With a limit, what has been read is what the readers have read that have the levels left.
-/
theorem Tracked.outcome_eq {bound limit : Nat} {read : Nat → Nat → Except SyntaxError Reading}
    {outcome : Except SyntaxError Reading} {after : Counter}
    (h : Tracked (some limit) bound read counter outcome after)
    (hstate : IsState (some limit) text place counter) :
    outcome = read limit (limit - counter.depth) := by
  have hpeak := hstate.peak_le limit rfl
  have hlevels : counter.depth + (limit - counter.depth) = limit :=
    Nat.add_sub_of_le (Nat.le_trans hstate.depth_le hpeak)
  rw [h.read_eq (by rintro _ ⟨⟩; rfl) hlevels hpeak]
  split
  · rfl
  · next hafter => exact h.refused rfl hpeak (Nat.lt_of_not_le hafter)

/--
Whatever limit there is, some limit and levels let the readers read the same.
-/
theorem Tracked.exists_read_eq_ok {bound : Nat} {read : Nat → Nat → Except SyntaxError Reading}
    {result : Reading} {after : Counter} (h : Tracked limit? bound read counter (.ok result) after)
    (hstate : IsState limit? text place counter) : ∃ limit levels, read limit levels = .ok result := by
  cases limit? with
  | some limit => exact ⟨limit, limit - counter.depth, (h.outcome_eq hstate).symm⟩
  | none =>
    have hdepth : counter.depth ≤ after.peak := Nat.le_trans hstate.depth_le h.peak_le
    refine ⟨after.peak, after.peak - counter.depth, ?_⟩
    rw [h.read_eq nofun (Nat.add_sub_of_le hdepth) h.peak_le, if_pos (Nat.le_refl _)]

theorem Tracked.isState {bound : Nat} {read : Nat → Nat → Except SyntaxError Reading}
    {result : Reading} {after : Counter} {chars : List Char}
    (h : Tracked limit? bound read counter (.ok result) after)
    (hpasses : Cursor.Passes chars place result.next)
    (hstate : IsState limit? text place counter) : IsState limit? text result.next after := by
  refine ⟨hstate.place.passes hpasses, ?_, ?_⟩
  · rw [h.restored rfl]
    exact Nat.le_trans hstate.depth_le h.peak_le
  · intro limit hlimit
    apply Nat.le_of_not_lt
    intro hlt
    cases h.refused hlimit (hstate.peak_le limit hlimit) hlt

theorem Tracked.stops {bound : Nat} {call : Call} {result : Reading} {after : Counter}
    (h : Tracked limit? bound (fun limit levels => (call.reader (.ofLevels limit levels)).read place)
      counter (.ok result) after)
    (hstate : IsState limit? text place counter) :
    Call.Stops place result.next call.operators := by
  obtain ⟨limit, levels, hread⟩ := h.exists_read_eq_ok hstate
  exact Call.stops_of_read hread

theorem IsState.advance {chars : List Char} {next : Cursor}
    (h : IsState limit? text place counter) (hpasses : Cursor.Passes chars place next) :
    IsState limit? text next counter :=
  ⟨h.place.passes hpasses, h.depth_le, h.peak_le⟩

theorem IsState.descend (h : IsState limit? text place counter)
    (hlevel : ∀ limit ∈ limit?, counter.depth < limit) :
    IsState limit? text place counter.down :=
  ⟨h.place, Nat.le_max_right _ _,
    fun limit hlimit => Nat.max_le.mpr ⟨h.peak_le limit hlimit, hlevel limit hlimit⟩⟩

theorem IsState.finish {call : Call} {result : Reading} {after : Counter}
    (h : IsState limit? text place counter)
    (hrun : (perform limit? call place).run counter = some (.ok result, after)) :
    IsState limit? text result.next after := by
  obtain ⟨outcome, final, hrun', htracked⟩ := tracks_perform limit? call place counter
  cases hrun.symm.trans hrun'
  obtain ⟨⟨chars, hpasses⟩, -⟩ := htracked.stops h
  exact htracked.isState hpasses h

/--
The states in which rules are called while a text is parsed. Between two calls, a rule passes
characters or goes a level down.
-/
inductive Reached (limit? : Option Nat) (text : String) : Cursor → Counter → Prop
  | start : Reached limit? text (.ofString text) .zero
  | advance {chars : List Char} {place next : Cursor} {counter : Counter}
    (h : Reached limit? text place counter) (hpasses : Cursor.Passes chars place next) :
    Reached limit? text next counter
  | descend {place : Cursor} {counter : Counter} (h : Reached limit? text place counter)
    (hlevel : ∀ limit ∈ limit?, counter.depth < limit) : Reached limit? text place counter.down
  | finish {call : Call} {place : Cursor} {counter after : Counter} {result : Reading}
    (h : Reached limit? text place counter)
    (hrun : (perform limit? call place).run counter = some (.ok result, after)) :
    Reached limit? text result.next after

theorem Reached.isState {text : String} (h : Reached limit? text place counter) :
    IsState limit? text.toList place counter := by
  induction h with
  | start => exact isState_start limit? text
  | advance _ hpasses ih => exact ih.advance hpasses
  | descend _ hlevel ih => exact ih.descend hlevel
  | finish _ hrun ih => exact ih.finish hrun

/--
Every call comes to an end in every state, and a call that succeeds has got on.
-/
theorem perform_progress (limit? : Option Nat) (text : String) :
    (∀ place counter, Reached limit? text place counter →
        IsState limit? text.toList place counter)
      ∧ (∀ start : Cursor, start.number ≠ [] →
        perform limit? (.ofRule .primary) start = perform limit? .number start)
      ∧ ∀ (call : Call) (place : Cursor) (counter : Counter),
        IsState limit? text.toList place counter →
        ∃ outcome after, (perform limit? call place).run counter = some (outcome, after)
          ∧ (∀ limit ∈ limit?,
            outcome = (call.reader (.ofLevels limit (limit - counter.depth))).read place)
          ∧ ∀ result, outcome = .ok result →
            place.position < result.next.position
              ∧ result.next.position ≤ text.length
              ∧ after.depth = counter.depth
              ∧ ∀ c ∈ result.next.current?, c ∉ call.operators := by
  refine ⟨fun _ _ => Reached.isState, fun _ => primary_eq_number, ?_⟩
  intro call place counter hstate
  obtain ⟨outcome, after, hrun, htracked⟩ := tracks_perform limit? call place counter
  refine ⟨outcome, after, hrun, ?_, ?_⟩
  · rintro limit ⟨⟩
    exact htracked.outcome_eq hstate
  · rintro result rfl
    have hnext := hstate.finish hrun
    have hbefore := hstate.place.position_add_remaining
    have hafter := hnext.place.position_add_remaining
    have hprogress := htracked.progress rfl
    refine ⟨?_, hnext.place.position_le, htracked.restored rfl, (htracked.stops hstate).2⟩
    omega

/--
The term `2^3*√4` behind a parenthesis that is still open.
-/
theorem perform_progress_term :
    IsState (some Expr.maxDepth) "(2^3*√4+1".toList ⟨1, "2^3*√4+1".toList⟩ ⟨2, 2⟩
      ∧ ∃ result after,
        (perform (some Expr.maxDepth) (.ofRule .term) ⟨1, "2^3*√4+1".toList⟩).run ⟨2, 2⟩
            = some (.ok result, after)
          ∧ result.next = ⟨7, ['+', '1']⟩
          ∧ 1 < result.next.position ∧ result.next.position ≤ 9 ∧ after.depth = 2
          ∧ ∀ c ∈ result.next.current?, c ∉ ['*', '/', '%', '^'] := by
  have hstate : IsState (some Expr.maxDepth) "(2^3*√4+1".toList ⟨1, "2^3*√4+1".toList⟩ ⟨2, 2⟩ :=
    ⟨⟨by decide, by decide⟩, by decide, by decide⟩
  let power : Derivation .powers := .power (.ofBase (.number ⟨['2'], none⟩ (by decide)))
    (.ofPrimary (.number ⟨['3'], none⟩ (by decide)))
  let root : Derivation .primary :=
    .radical (.ofPowers (.ofBase (.number ⟨['4'], none⟩ (by decide))))
  let d : Derivation .term :=
    .product (.ofFactor (.ofPowers power)) .mul rfl (.ofPowers (.ofBase root))
  have hreads : d.Reads (Expr.maxDepth - 2) ⟨1, "2^3*√4+1".toList⟩ ⟨d.tree, ⟨7, ['+', '1']⟩⟩ :=
    ⟨rfl, by decide, ⟨⟨trivial, trivial, rfl⟩, trivial⟩,
      (Cursor.spans_of_notMem (by decide)).mpr ⟨rfl, rfl⟩⟩
  have hstops : d.StopsAt .term ['+', '1'] := by
    rintro _ ⟨⟩
    exact ⟨by decide, fun _ => by decide⟩
  have hnumber : ∀ c ∈ ['+', '1'].head?, Cursor.isNumeric c = false := by
    rintro _ ⟨⟩
    rfl
  have hread := Derivation.IsRead.read_eq_ok (d.isRead Expr.maxDepth) hreads hstops hnumber
  obtain ⟨-, -, hperform⟩ := perform_progress (some Expr.maxDepth) "(2^3*√4+1"
  obtain ⟨outcome, after, hrun, houtcome, hresult⟩ := hperform (.ofRule .term) _ _ hstate
  obtain rfl := (houtcome _ rfl).trans hread
  exact ⟨hstate, _, after, hrun, rfl, hresult _ rfl⟩

end Counted

end Calculator
