import Calculator.Proofs.Expression.Acceptance
import Calculator.Proofs.Expression.Tracking

/-!
This module contains the theorem about the nesting limit: it only cuts off. A text whose levels stay
within it has the outcome that it has without a limit, and any other text is too deeply nested.
-/

namespace Calculator

namespace Counted

variable {limit? : Option Nat} {start : Cursor} {m : Counted (Except SyntaxError Reading)}

/--
The rules in which nesting is counted, from one place on.
-/
structure Follows (limit? : Option Nat) (start : Cursor) : Prop where
  factor : Tracks limit? start.remaining (factor limit? start)
    fun limit levels => (Nested.ofLevels limit levels).factor.read start
  operand : Tracks limit? start.remaining (operand limit? start)
    fun limit levels => (Nested.ofLevels limit levels).operand.read start
  group : Tracks limit? start.remaining (group limit? start)
    fun limit levels => (Nested.ofLevels limit levels).group.read start

theorem tracks_afterKeyword {keyword : String} {inside otherwise : Nat → Nat → Reader}
    {f : Cursor → Counted (Except SyntaxError Reading)}
    (hinside : ∀ next, start.eatKeyword? keyword = some next →
      Tracks limit? bound (f next) (fun limit levels => (inside limit levels).read next))
    (hotherwise : Tracks limit? bound m (fun limit levels => (otherwise limit levels).read start)) :
    Tracks limit? bound
      (match start.eatKeyword? keyword with
        | some next => f next
        | none => m)
      (fun limit levels =>
        (Reader.afterKeyword keyword (inside limit levels) (otherwise limit levels)).read start) := by
  simp only [Reader.afterKeyword]
  cases heat : start.eatKeyword? keyword with
  | some next => exact hinside next heat
  | none => exact hotherwise

theorem tracks_keywordRoot (h : ∀ next, next.remaining ≤ start.remaining → Follows limit? next) :
    Tracks limit? start.remaining (keywordRoot limit? start)
      fun limit levels => (Grammar.keywordRoot (.ofLevels limit levels)).read start := by
  rw [keywordRoot]
  apply tracks_afterKeyword
  · intro next hopen
    have hlt := Cursor.remaining_eatKeyword?_lt (by decide) hopen
    have hle := Nat.le_of_lt hlt
    rw [onward_of_lt hlt]
    exact ((h next hle).group.mono hle).wrap
  · exact (h start (Nat.le_refl _)).factor.wrap

theorem tracks_numberOr {otherwise : Nat → Nat → Reader}
    (hotherwise : Tracks limit? start.remaining m
      (fun limit levels => (otherwise limit levels).read start)) :
    Tracks limit? start.remaining
      (if start.number = [] then m
        else match Numeral.ofChars? start.number with
        | some numeral => return .ok ⟨.number numeral, start.skipNumber⟩
        | none => return .error (.invalidNumber (String.ofList start.number)))
      (fun limit levels => (Reader.numberOr (otherwise limit levels)).read start) := by
  simp only [Reader.numberOr]
  split
  · exact hotherwise
  · next hnonempty =>
    cases hnumeral : Numeral.ofChars? start.number with
    | some numeral =>
      apply tracks_pure
      rintro result ⟨⟩
      have hread : (Reader.numberOr .noOperand).read start
          = .ok ⟨.number numeral, start.skipNumber⟩ := by
        simp only [Reader.numberOr, if_neg hnonempty, hnumeral]
      exact (Reader.numberOr .noOperand).remaining_lt hread
    | none => exact tracks_error _

theorem tracks_primary (h : ∀ next, next.remaining < start.remaining → Follows limit? next) :
    Tracks limit? start.remaining (primary limit? start)
      fun limit levels => (Grammar.primary (.ofLevels limit levels)).read start := by
  rw [primary]
  apply tracks_afterKeyword
  · intro next hopen
    have hlt := Cursor.remaining_eatKeyword?_lt (by decide) hopen
    rw [onward_of_lt hlt]
    exact (h next hlt).group.mono (Nat.le_of_lt hlt)
  apply tracks_numberOr
  apply tracks_afterKeyword
  · intro next hkeyword
    have hlt := Cursor.remaining_eatKeyword?_lt (by decide) hkeyword
    rw [onward_of_lt hlt]
    apply (tracks_keywordRoot _).mono (Nat.le_of_lt hlt)
    intro after hafter
    exact h after (Nat.lt_of_le_of_lt hafter hlt)
  apply tracks_afterKeyword
  · intro next hradical
    have hlt := Cursor.remaining_eatKeyword?_lt (by decide) hradical
    rw [onward_of_lt hlt]
    exact ((h next hlt).factor.mono (Nat.le_of_lt hlt)).wrap
  simp only [Reader.noOperand, Reader.fail]
  cases start.current? with
  | some found => exact tracks_error _
  | none => exact tracks_error _

theorem tracks_powers (h : ∀ next, next.remaining < start.remaining → Follows limit? next) :
    Tracks limit? start.remaining (powers limit? start)
      fun limit levels => (Grammar.powers (.ofLevels limit levels)).read start := by
  rw [powers]
  apply (tracks_primary h).andThen
  intro base hbase
  rw [onward_of_lt hbase]
  apply (Tracks.chain (exponents.eq_1 limit?) base _).mono hbase
  intro next hnext
  exact (h next (Nat.lt_trans hnext hbase)).operand

theorem tracks_signs {argument : Cursor → Counted (Except SyntaxError Reading)}
    {reader otherwise : Nat → Nat → Reader}
    (hargument : ∀ next, next.remaining < start.remaining →
      Tracks limit? next.remaining (argument next)
        (fun limit levels => (reader limit levels).read next))
    (hotherwise : Tracks limit? start.remaining m
      (fun limit levels => (otherwise limit levels).read start)) :
    Tracks limit? start.remaining
      (match start.eatKeyword? "+" with
        | some next => Counted.wrap (.signed .plus) <$> onward start next fun _ => argument next
        | none =>
          match start.eatKeyword? "-" with
          | some next => Counted.wrap (.signed .minus) <$> onward start next fun _ => argument next
          | none => m)
      (fun limit levels =>
        (Reader.afterKeyword "+" ((reader limit levels).map (.signed .plus))
          (Reader.afterKeyword "-" ((reader limit levels).map (.signed .minus))
            (otherwise limit levels))).read start) := by
  have hsign : ∀ (sign : Sign) (keyword : String) (next : Cursor), keyword.toList ≠ [] →
      start.eatKeyword? keyword = some next →
      Tracks limit? start.remaining
        (Counted.wrap (.signed sign) <$> onward start next fun _ => argument next)
        (fun limit levels => ((reader limit levels).map (.signed sign)).read next) := by
    intro sign keyword next hkeyword heat
    have hlt := Cursor.remaining_eatKeyword?_lt hkeyword heat
    rw [onward_of_lt hlt]
    exact ((hargument next hlt).mono (Nat.le_of_lt hlt)).wrap
  apply tracks_afterKeyword
  · exact fun next => hsign .plus "+" next (by decide)
  apply tracks_afterKeyword
  · exact fun next => hsign .minus "-" next (by decide)
  exact hotherwise

theorem tracks_operand (h : ∀ next, next.remaining < start.remaining → Follows limit? next) :
    Tracks limit? start.remaining (operand limit? start)
      fun limit levels => (Nested.ofLevels limit levels).operand.read start := by
  rw [operand]
  have hsigned : Tracks limit? start.remaining (signedOperand limit? start)
      fun limit levels => (Grammar.operand (.ofLevels limit levels)).read start := by
    rw [signedOperand]
    exact tracks_signs (fun next hnext => (h next hnext).operand) (tracks_primary h)
  apply (hsigned.level (fun _ => modify Counter.up) _).congr
  · intro limit levels
    cases levels <;> rfl
  · exact fun _ counter => ⟨counter.up, rfl, rfl, fun _ => rfl⟩

theorem tracks_factor (h : ∀ next, next.remaining < start.remaining → Follows limit? next) :
    Tracks limit? start.remaining (factor limit? start)
      fun limit levels => (Nested.ofLevels limit levels).factor.read start := by
  rw [factor]
  have hsigned : Tracks limit? start.remaining (signedFactor limit? start)
      fun limit levels => (Grammar.factor (.ofLevels limit levels)).read start := by
    rw [signedFactor]
    exact tracks_signs (fun next hnext => (h next hnext).factor) (tracks_powers h)
  apply (hsigned.level (fun _ => modify Counter.up) _).congr
  · intro limit levels
    cases levels <;> rfl
  · exact fun _ counter => ⟨counter.up, rfl, rfl, fun _ => rfl⟩

theorem tracks_term (h : ∀ next, next.remaining < start.remaining → Follows limit? next) :
    Tracks limit? start.remaining (term limit? start)
      fun limit levels => (Grammar.term (.ofLevels limit levels)).read start := by
  rw [term]
  apply (tracks_factor h).andThen
  intro left hleft
  rw [onward_of_lt hleft]
  apply (Tracks.chain (products.eq_1 limit?) left _).mono hleft
  intro next hnext
  exact (h next (Nat.lt_trans hnext hleft)).factor

theorem tracks_expression (h : ∀ next, next.remaining < start.remaining → Follows limit? next) :
    Tracks limit? start.remaining (expression limit? start)
      fun limit levels => (Grammar.expression (.ofLevels limit levels)).read start := by
  rw [expression]
  apply (tracks_term h).andThen
  intro left hleft
  rw [onward_of_lt hleft]
  apply (Tracks.chain (sums.eq_1 limit?) left _).mono hleft
  intro next hnext
  apply tracks_term
  intro after hafter
  exact h after (Nat.lt_trans hafter (Nat.lt_trans hnext hleft))

/--
The way out of a group, which does not leave its level if there was an error.
-/
def leaveGroup : Except SyntaxError Reading → Counted Unit
  | .error _ => pure ()
  | .ok _ => modify Counter.up

theorem group_eq (limit? : Option Nat) (start : Cursor) :
    group limit? start = do
      match ← descend limit? with
      | .error cause => return .error cause
      | .ok () =>
        let outcome ← Except.map close <$> expression limit? start
        leaveGroup outcome
        return outcome := by
  rw [group]
  congr 1
  funext entered
  cases entered with
  | error cause => rfl
  | ok entered =>
    simp only [bind_map_left]
    congr 1
    funext outcome
    cases outcome <;> rfl

theorem tracks_group (h : ∀ next, next.remaining < start.remaining → Follows limit? next) :
    Tracks limit? start.remaining (group limit? start)
      fun limit levels => (Nested.ofLevels limit levels).group.read start := by
  rw [group_eq]
  apply (((tracks_expression h).mapReading remaining_close_le).level leaveGroup _).congr
  · intro limit levels
    cases levels with
    | zero => rfl
    | succ levels => exact (Reader.read_closing_map_group _ _).symm
  · intro outcome counter
    cases outcome with
    | error cause =>
      refine ⟨counter, rfl, rfl, ?_⟩
      intro result hresult
      cases hresult
    | ok result => exact ⟨counter.up, rfl, rfl, fun _ => rfl⟩

theorem follows (limit? : Option Nat) (start : Cursor) : Follows limit? start := by
  induction hn : start.remaining using Nat.strongRecOn generalizing start with
  | ind n ih =>
    have h : ∀ next : Cursor, next.remaining < start.remaining → Follows limit? next :=
      fun next hnext => ih next.remaining (hn ▸ hnext) next rfl
    exact ⟨tracks_factor h, tracks_operand h, tracks_group h⟩

theorem exists_tracks (limit? : Option Nat) (rule : Rule) (start : Cursor) :
    ∃ read, Tracks limit? start.remaining (Counted.rule limit? rule start) read := by
  have h : ∀ next : Cursor, next.remaining < start.remaining → Follows limit? next :=
    fun next _ => follows limit? next
  cases rule with
  | expression => exact ⟨_, tracks_expression h⟩
  | term => exact ⟨_, tracks_term h⟩
  | factor => exact ⟨_, tracks_factor h⟩
  | powers => exact ⟨_, tracks_powers h⟩
  | operand => exact ⟨_, tracks_operand h⟩
  | primary => exact ⟨_, tracks_primary h⟩
  | group => exact ⟨_, tracks_group h⟩

theorem parseWithin_eq_complete (limit : Nat) (text : String) :
    Expr.parseWithin limit text
      = complete ((Grammar.expression (.ofLevels limit limit)).read (.ofString text)) := rfl

/--
A whole text, read with and without a limit.
-/
theorem exists_evaluate (limit? : Option Nat) (text : String) :
    ∃ (outcome : Except SyntaxError Expr) (after : Counter),
      evaluate limit? text = some (outcome.map Expr.value, after)
        ∧ (∀ {limit}, (∀ l ∈ limit?, l = limit) → Expr.parseWithin limit (Expr.normalize text)
          = if after.peak ≤ limit then outcome else .error (.tooDeeplyNested limit))
        ∧ ∀ {limit}, limit ∈ limit? → limit < after.peak →
          outcome = .error (.tooDeeplyNested limit) := by
  obtain ⟨outcome, after, hrun, htracked⟩ :=
    @tracks_expression limit? (.ofString (Expr.normalize text)) (fun next _ => follows limit? next)
      .zero
  refine ⟨complete outcome, after, by simp [evaluate, hrun], ?_, ?_⟩
  · intro limit hlimit
    have hread := htracked.read_eq hlimit (Nat.zero_add limit) (Nat.zero_le limit)
    rw [parseWithin_eq_complete, hread]
    split <;> rfl
  · intro limit hlimit hlt
    rw [htracked.refused hlimit (Nat.zero_le limit) hlt]
    rfl

theorem evaluate_some (limit : Nat) (text : String) :
    ∃ after, evaluate (some limit) text
      = some ((Expr.parseWithin limit (Expr.normalize text)).map Expr.value, after) := by
  obtain ⟨outcome, after, hrun, hparse, hrefused⟩ := exists_evaluate (some limit) text
  refine ⟨after, ?_⟩
  rw [hrun, hparse (by rintro _ ⟨⟩; rfl)]
  split
  · rfl
  · next hpeak => rw [hrefused rfl (Nat.lt_of_not_le hpeak)]

/--
Without a limit the counter reaches the depth of the derivation, however long its chains are.
-/
theorem peak_eq_depth {text : String} {outcome : Except SyntaxError Expr} {peak missing : Nat}
    {d : Derivation .expression}
    (h : ∀ limit, Expr.parseWithin limit text
      = if peak ≤ limit then outcome else .error (.tooDeeplyNested limit))
    (hcompletes : d.Completes text.toList missing) : outcome = .ok d.tree ∧ peak = d.depth := by
  have houtcome : outcome = .ok d.tree := by
    have hread := h (max peak d.depth)
    rw [if_pos (Nat.le_max_left ..),
      Expr.parseWithin_of_completes hcompletes (Nat.le_max_right ..)] at hread
    exact hread.symm
  refine ⟨houtcome, Nat.le_antisymm ?_ ?_⟩
  · apply Nat.le_of_not_lt
    intro hlt
    have hread := h d.depth
    rw [Expr.parseWithin_of_completes hcompletes (Nat.le_refl _),
      if_neg (Nat.not_le.mpr hlt)] at hread
    cases hread
  · have hread := h peak
    rw [if_pos (Nat.le_refl _), houtcome, Expr.parseWithin_eq_ok_iff] at hread
    obtain ⟨missing', d', hcompletes', hdepth, -⟩ := hread
    rwa [(hcompletes.unique hcompletes').2]

end Counted

/--
The depth of the derivation decides whether a text has its value.
-/
theorem Expr.evaluate_eq_ite {text : String} {missing : Nat} {d : Derivation .expression}
    (h : d.Completes (normalize text).toList missing) :
    evaluate text
      = if d.depth ≤ maxDepth then .ok d.value else .error (.tooDeeplyNested maxDepth) := by
  obtain ⟨outcome, counter, -, hparse, -⟩ := Counted.exists_evaluate none text
  obtain ⟨rfl, hpeak⟩ := Counted.peak_eq_depth (fun limit => hparse nofun) h
  rw [evaluate, parse, hparse nofun, hpeak]
  split
  · rw [Except.map, d.value_tree]
  · rfl

theorem evaluate_eq_uncapped (text : String) :
    (∃ (outcome : Except SyntaxError Binary64) (counter : Counter),
        Counted.evaluate none text = some (outcome, counter)
          ∧ Expr.evaluate text = (if counter.peak ≤ Expr.maxDepth then outcome
            else .error (.tooDeeplyNested Expr.maxDepth))
          ∧ ∀ {missing : Nat} {d : Derivation .expression},
            d.Completes (Expr.normalize text).toList missing →
            outcome = .ok d.value ∧ counter.peak = d.depth)
      ∧ (∃ counter, Counted.evaluate (some Expr.maxDepth) text = some (Expr.evaluate text, counter))
      ∧ ∀ (limit? : Option Nat) (rule : Rule) (start : Cursor) (before : Counter),
        ∃ outcome after, (Counted.rule limit? rule start).run before = some (outcome, after)
          ∧ ∀ result, outcome = .ok result → after.depth = before.depth := by
  refine ⟨?_, Counted.evaluate_some Expr.maxDepth text, ?_⟩
  · obtain ⟨outcome, counter, hrun, hparse, -⟩ := Counted.exists_evaluate none text
    refine ⟨outcome.map Expr.value, counter, hrun, ?_, ?_⟩
    · rw [Expr.evaluate, Expr.parse, hparse nofun]
      split <;> rfl
    · intro missing d hcompletes
      obtain ⟨rfl, hpeak⟩ := Counted.peak_eq_depth (fun limit => hparse nofun) hcompletes
      exact ⟨congrArg Except.ok d.value_tree, hpeak⟩
  · intro limit? rule start before
    obtain ⟨read, htracks⟩ := Counted.exists_tracks limit? rule start
    obtain ⟨outcome, after, hrun, htracked⟩ := htracks before
    exact ⟨outcome, after, hrun, fun _ => htracked.restored⟩

end Calculator
