import Calculator.Expression.Grammar
import Calculator.Proofs.Expression.Derivation
import Calculator.Proofs.Expression.Span

/-!
This module contains what single readers do, and what it means that a reader has read a derivation.
-/

namespace Calculator

theorem BinaryOp.symbol_mem_continuations (op : BinaryOp) : op.symbol ∈ Cursor.continuations := by
  cases op <;> decide

theorem BinaryOp.symbol_ne_closing (op : BinaryOp) : op.symbol ≠ ')' := by
  cases op <;> decide

theorem Sign.symbol_ne_closing (sign : Sign) : sign.symbol ≠ ')' := by
  cases sign <;> decide

namespace Cursor

theorem eatKeyword?_eq_some_iff {c next : Cursor} {keyword : String} :
    c.eatKeyword? keyword = some next
      ↔ c.rest = keyword.toList ++ next.rest ∧ next = c.skip keyword.toList.length := by
  unfold eatKeyword?
  split
  · next h =>
    obtain ⟨tail, htail⟩ := List.isPrefixOf_iff_prefix.mp h
    rw [Option.some.injEq, eq_comm]
    constructor
    · rintro rfl
      exact ⟨by simp [skip, ← htail], rfl⟩
    · exact And.right
  · next h =>
    rw [List.isPrefixOf_iff_prefix] at h
    constructor
    · intro hsome
      cases hsome
    · rintro ⟨hrest, -⟩
      exact absurd ⟨next.rest, hrest.symm⟩ h

theorem eatKeyword?_of_append {c : Cursor} {keyword : String} {rest : List Char}
    (h : c.rest = keyword.toList ++ rest) :
    c.eatKeyword? keyword = some (c.skip keyword.toList.length) := by
  rw [eatKeyword?_eq_some_iff, rest_skip_of_eq_append h]
  exact ⟨h, rfl⟩

theorem eatKeyword?_of_head_ne {c : Cursor} {keyword : String} {ch : Char} {tail : List Char}
    (hkeyword : keyword.toList = ch :: tail) (h : c.rest.head? ≠ some ch) :
    c.eatKeyword? keyword = none := by
  rw [Option.eq_none_iff_forall_ne_some]
  intro next hnext
  rw [eatKeyword?_eq_some_iff, hkeyword] at hnext
  rw [hnext.1] at h
  exact h rfl

theorem eatMap?_eq_some_iff {α : Type} {c next : Cursor} {meaning? : Char → Option α} {a : α} :
    c.eatMap? meaning? = some (a, next)
      ↔ ∃ ch, c.rest = ch :: next.rest ∧ meaning? ch = some a ∧ next = c.skip 1 := by
  obtain ⟨position, rest⟩ := c
  cases rest with
  | nil => simp [eatMap?, current?]
  | cons ch rest =>
    simp only [eatMap?, current?, List.head?_cons, Option.bind_some, Option.map_eq_some_iff,
      Prod.mk.injEq]
    constructor
    · rintro ⟨_, hmeaning, rfl, rfl⟩
      exact ⟨ch, rfl, hmeaning, rfl⟩
    · rintro ⟨_, hrest, hmeaning, rfl⟩
      cases hrest
      exact ⟨a, hmeaning, rfl, rfl⟩

theorem eatMap?_eq_none_iff {α : Type} {c : Cursor} {meaning? : Char → Option α} :
    c.eatMap? meaning? = none ↔ ∀ ch ∈ c.rest.head?, meaning? ch = none := by
  obtain ⟨position, rest⟩ := c
  cases rest <;> simp [eatMap?, current?]

end Cursor

namespace Reader

variable {start : Cursor} {result : Reading}

theorem read_map_eq_ok {f : Expr → Expr} {reader : Reader}
    (h : (reader.map f).read start = .ok result) :
    ∃ inner, reader.read start = .ok inner ∧ result = ⟨f inner.expr, inner.next⟩ := by
  cases hread : reader.read start with
  | error => simp [map, hread, Except.map] at h
  | ok inner =>
    simp only [map, hread, Except.map, Except.ok.injEq] at h
    exact ⟨inner, rfl, h.symm⟩

theorem read_afterKeyword_eq_ok {keyword : String} {inside otherwise : Reader}
    (h : (afterKeyword keyword inside otherwise).read start = .ok result) :
    (start.rest = keyword.toList ++ (start.skip keyword.toList.length).rest
        ∧ inside.read (start.skip keyword.toList.length) = .ok result)
      ∨ (start.eatKeyword? keyword = none ∧ otherwise.read start = .ok result) := by
  simp only [afterKeyword] at h
  split at h
  · next next hnext =>
    obtain ⟨hrest, rfl⟩ := Cursor.eatKeyword?_eq_some_iff.mp hnext
    exact .inl ⟨hrest, h⟩
  · next hnone => exact .inr ⟨hnone, h⟩

theorem read_afterKeyword_of_append {keyword : String} {rest : List Char} (inside otherwise : Reader)
    (h : start.rest = keyword.toList ++ rest) :
    (afterKeyword keyword inside otherwise).read start
      = inside.read (start.skip keyword.toList.length) := by
  simp only [afterKeyword, Cursor.eatKeyword?_of_append h]

theorem read_afterKeyword_of_head_ne {keyword : String} (ch : Char) {tail : List Char}
    {inside otherwise : Reader} (hkeyword : keyword.toList = ch :: tail) (h : start.rest.head? ≠ some ch) :
    (afterKeyword keyword inside otherwise).read start = otherwise.read start := by
  simp only [afterKeyword, Cursor.eatKeyword?_of_head_ne hkeyword h]

theorem read_closing_eq_ok {reader : Reader} (h : reader.closing.read start = .ok result) :
    ∃ inner, reader.read start = .ok inner
      ∧ result = { inner with next := (inner.next.eatKeyword? ")").getD inner.next } := by
  cases hread : reader.read start with
  | error => simp [closing, hread, Except.map] at h
  | ok inner =>
    simp only [closing, hread, Except.map, Except.ok.injEq] at h
    exact ⟨inner, rfl, h.symm⟩

theorem read_signs_eq_ok {argument otherwise : Reader}
    (h : (afterKeyword "+" (argument.map (.signed .plus))
      (afterKeyword "-" (argument.map (.signed .minus)) otherwise)).read start = .ok result) :
    (∃ (sign : Sign) (inner : Reading), start.rest = sign.symbol :: (start.skip 1).rest
        ∧ argument.read (start.skip 1) = .ok inner ∧ result = ⟨.signed sign inner.expr, inner.next⟩)
      ∨ otherwise.read start = .ok result := by
  rcases read_afterKeyword_eq_ok h with ⟨hrest, hread⟩ | ⟨-, h⟩
  · obtain ⟨inner, hinner, hresult⟩ := read_map_eq_ok hread
    exact .inl ⟨.plus, inner, hrest, hinner, hresult⟩
  rcases read_afterKeyword_eq_ok h with ⟨hrest, hread⟩ | ⟨-, hread⟩
  · obtain ⟨inner, hinner, hresult⟩ := read_map_eq_ok hread
    exact .inl ⟨.minus, inner, hrest, hinner, hresult⟩
  · exact .inr hread

variable {op? : Char → Option BinaryOp} {operand : Reader} {left right : Reading}

theorem extend_induction {P : Reading → Prop}
    (hstep : ∀ {left right : Reading} {op : BinaryOp} {mid : Cursor}, P left →
      left.next.eatMap? op? = some (op, mid) → operand.read mid = .ok right →
      P ⟨.binary op left.expr right.expr, right.next⟩)
    (h : extend op? operand left = .ok result) (hleft : P left) :
    P result ∧ result.next.eatMap? op? = none := by
  fun_induction extend op? operand left with
  | case1 left hop => cases h; exact ⟨hleft, hop⟩
  | case2 => cases h
  | case3 left op mid hop right hright _ _ ih => exact ih h (hstep hleft hop hright)

theorem extend_of_eatMap?_eq_none (h : left.next.eatMap? op? = none) :
    extend op? operand left = .ok left := by
  rw [extend]
  split <;> simp_all

theorem extend_of_eatMap?_eq_some {op : BinaryOp} {mid : Cursor}
    (hop : left.next.eatMap? op? = some (op, mid)) (hright : operand.read mid = .ok right) :
    extend op? operand left = extend op? operand ⟨.binary op left.expr right.expr, right.next⟩ := by
  rw [extend]
  split
  · simp_all
  · next op' mid' hop' =>
    obtain ⟨rfl, rfl⟩ : op' = op ∧ mid' = mid := by simpa [hop] using hop'.symm
    split <;> simp_all

theorem read_chain_eq_ok {first : Reader} (h : (chain op? first operand).read start = .ok result) :
    ∃ left, first.read start = .ok left ∧ extend op? operand left = .ok result := by
  simp only [chain] at h
  split at h
  · cases h
  · next left hleft => exact ⟨left, hleft, h⟩

theorem read_chain_of_read {first : Reader} (h : first.read start = .ok left) :
    (chain op? first operand).read start = extend op? operand left := by
  simp only [chain, h]

end Reader

namespace Rule

/--
The reader of a rule. That of a group starts with its opening parenthesis.
-/
def reader (inner : Nested) : Rule → Reader
  | .expression => Grammar.expression inner
  | .term => Grammar.term inner
  | .factor => inner.factor
  | .powers => Grammar.powers inner
  | .operand => inner.operand
  | .primary => Grammar.primary inner
  | .group => .afterKeyword "(" inner.group .noOperand

/--
The rule of the first link of a chain. A rule without chains is its own link.
-/
def link : Rule → Rule
  | .expression => .term
  | .term => .factor
  | .powers => .primary
  | rule => rule

/--
The operators that a reader of the rule never stops at.
-/
def operators : Rule → List Char
  | .expression => ['+', '-', '*', '/', '%', '^']
  | .term => ['*', '/', '%', '^']
  | .factor | .powers => ['^']
  | .operand | .primary | .group => []

theorem notMem_operators {rule : Rule} {c : Char} (hlink : c ∉ rule.link.operators)
    (hop : rule.operator? c = none) : c ∉ rule.operators := by
  intro h
  cases rule with
  | factor | operand | primary | group => exact hlink h
  | expression | term | powers =>
    simp only [operators, List.mem_cons, List.not_mem_nil, or_false] at h
    rcases h with rfl | rfl | rfl | rfl | rfl | rfl <;> revert hlink hop <;> decide

end Rule

namespace Derivation

variable {rule : Rule}

/--
A reader that is done with `d` can stop before `rest`, where links of a chain stop as `level` says.
-/
def StopsAt (d : Derivation rule) (level : Rule) (rest : List Char) : Prop :=
  ∀ c ∈ rest.head?, c ∉ level.operators ∧ (d.endsInRoot = true → c ≠ '^')

structure Reads (d : Derivation rule) (levels : Nat) (start : Cursor) (result : Reading) : Prop where
  tree : d.tree = result.expr
  depth_le : d.depth ≤ levels
  canonical : d.IsCanonical
  spans : Cursor.Spans d.chars start result.next

end Derivation

end Calculator
