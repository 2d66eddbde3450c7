import Calculator.Proofs.Expression.Construct
import Calculator.Proofs.Expression.Soundness

/-!
This module contains the theorem about texts that are refused while they are read: they start with a
canonical opening, and the operand behind it is missing or lies deeper than there are levels.
-/

namespace Calculator

namespace Cursor

/--
The text between two places is `chars`.
-/
def Passes (chars : List Char) (start stop : Cursor) : Prop :=
  start.rest = chars ++ stop.rest ∧ stop = start.skip chars.length

/--
What an operand, with or without signs, can start with.
-/
def StartsOperand (text : List Char) : Prop :=
  (∃ c ∈ text.head?, c ∈ ['+', '-', '(', '√'] ∨ isNumeric c = true) ∨ "sqrt".toList <+: text

/--
Why no operand starts at a place.
-/
inductive Refuses : Cursor → SyntaxError → Prop
  | atEnd (position : Nat) : Refuses ⟨position, []⟩ .unexpectedEnd
  | atChar {position : Nat} {c : Char} {rest : List Char} (h : ¬StartsOperand (c :: rest)) :
    Refuses ⟨position, c :: rest⟩ (.unexpectedChar c position)
  | atNumber {place : Cursor} (hnonempty : place.number ≠ [])
    (h : Numeral.ofChars? place.number = none) :
    Refuses place (.invalidNumber (String.ofList place.number))

variable {start mid stop : Cursor} {chars chars₁ chars₂ : List Char} {cause : SyntaxError}

theorem passes_nil (place : Cursor) : Passes [] place place := ⟨rfl, rfl⟩

theorem skip_skip (place : Cursor) (m n : Nat) : (place.skip m).skip n = place.skip (m + n) := by
  simp [skip, Nat.add_assoc]

theorem Passes.append (h₁ : Passes chars₁ start mid) (h₂ : Passes chars₂ mid stop) :
    Passes (chars₁ ++ chars₂) start stop := by
  obtain ⟨hrest₁, rfl⟩ := h₁
  obtain ⟨hrest₂, rfl⟩ := h₂
  refine ⟨by rw [hrest₁, hrest₂, List.append_assoc], ?_⟩
  rw [skip_skip, List.length_append]

theorem passes_append : Passes (chars₁ ++ chars₂) start stop
    ↔ Passes chars₁ start (start.skip chars₁.length)
      ∧ Passes chars₂ (start.skip chars₁.length) stop := by
  constructor
  · rintro ⟨hrest, rfl⟩
    rw [List.append_assoc] at hrest
    have hmid : (start.skip chars₁.length).rest
        = chars₂ ++ (start.skip (chars₁ ++ chars₂).length).rest := by
      rw [rest_skip_of_eq_append hrest]
    refine ⟨⟨by rw [hmid]; exact hrest, rfl⟩, hmid, ?_⟩
    rw [skip_skip, List.length_append]
  · rintro ⟨h₁, h₂⟩
    exact h₁.append h₂

theorem passes_cons {c : Char} : Passes (c :: chars) start stop
    ↔ start.rest = c :: (start.skip 1).rest ∧ Passes chars (start.skip 1) stop := by
  rw [← List.singleton_append, passes_append]
  apply and_congr_left
  intro
  exact and_iff_left rfl

theorem Passes.spans (h : Passes chars start stop) : Spans chars start stop := by
  obtain ⟨hrest, rfl⟩ := h
  exact ⟨chars, 0, by simp, hrest, rfl, .inl rfl⟩

/--
Only where something could follow an operand can closing parentheses be missing.
-/
theorem Spans.passes (h : Spans chars start stop) (hstop : ¬stop.Blocked) :
    Passes chars start stop := by
  obtain ⟨text, missing, rfl, hrest, hposition, hblocked⟩ := h
  obtain rfl := hblocked.resolve_right hstop
  rw [List.replicate_zero, List.append_nil]
  refine ⟨hrest, ?_⟩
  rw [rest_skip_of_eq_append hrest, ← hposition]

theorem not_blocked_of_eatMap? {rule : Rule} {op : BinaryOp}
    (hop : start.eatMap? rule.operator? = some (op, mid)) : ¬start.Blocked := by
  obtain ⟨c, hrest, hc, -⟩ := eatMap?_eq_some_iff.mp hop
  obtain ⟨rfl, -⟩ := Rule.operator?_eq_some_iff.mp hc
  intro hblocked
  exact hblocked op.symbol (by simp [hrest]) op.symbol_mem_continuations

theorem Passes.binary {rule : Rule} {op : BinaryOp} (h₁ : Spans chars₁ start mid) {next : Cursor}
    (hop : mid.eatMap? rule.operator? = some (op, next)) (h₂ : Passes chars₂ next stop) :
    Passes (chars₁ ++ op.symbol :: chars₂) start stop := by
  apply (h₁.passes (not_blocked_of_eatMap? hop)).append
  obtain ⟨c, hrest, hc, rfl⟩ := eatMap?_eq_some_iff.mp hop
  obtain ⟨rfl, -⟩ := Rule.operator?_eq_some_iff.mp hc
  exact passes_cons.mpr ⟨hrest, h₂⟩

theorem isNumeric_of_number_ne_nil (h : start.number ≠ []) :
    ∃ c ∈ start.rest.head?, isNumeric c = true := by
  obtain ⟨position, rest⟩ := start
  cases rest with
  | nil => exact absurd rfl h
  | cons c rest =>
    cases hc : isNumeric c with
    | true => exact ⟨c, rfl, hc⟩
    | false => simp [number, hc] at h

theorem Refuses.head_notMem (h : start.Refuses cause) {c : Char} (hc : c ∈ start.rest.head?) :
    c ∉ ['+', '-', '(', '√'] := by
  intro hmem
  cases h with
  | atEnd => cases hc
  | atChar hstarts => exact hstarts (.inl ⟨c, hc, .inl hmem⟩)
  | atNumber hnonempty =>
    obtain ⟨c', hc', hnumeric⟩ := isNumeric_of_number_ne_nil hnonempty
    cases Option.mem_unique hc hc'
    simp only [List.mem_cons, List.not_mem_nil, or_false] at hmem
    rcases hmem with rfl | rfl | rfl | rfl <;> revert hnumeric <;> decide

end Cursor

namespace Reader

variable {start : Cursor} {cause : SyntaxError}

theorem read_map_eq_error_iff {f : Expr → Expr} {reader : Reader} :
    (reader.map f).read start = .error cause ↔ reader.read start = .error cause := by
  simp only [map]
  cases reader.read start <;> simp [Except.map]

theorem read_closing_eq_error_iff {reader : Reader} :
    reader.closing.read start = .error cause ↔ reader.read start = .error cause := by
  simp only [closing]
  cases reader.read start <;> simp [Except.map]

theorem read_afterKeyword_eq_error {keyword : String} {inside otherwise : Reader}
    (h : (afterKeyword keyword inside otherwise).read start = .error cause) :
    (start.rest = keyword.toList ++ (start.skip keyword.toList.length).rest
        ∧ inside.read (start.skip keyword.toList.length) = .error cause)
      ∨ (start.eatKeyword? keyword = none ∧ otherwise.read start = .error cause) := by
  simp only [afterKeyword] at h
  split at h
  · next next hnext =>
    obtain ⟨hrest, rfl⟩ := Cursor.eatKeyword?_eq_some_iff.mp hnext
    exact .inl ⟨hrest, h⟩
  · next hnone => exact .inr ⟨hnone, h⟩

theorem head_ne_of_eatKeyword?_eq_none {keyword : String} {c : Char}
    (hkeyword : keyword.toList = [c]) (h : start.eatKeyword? keyword = none) :
    ∀ x ∈ start.rest.head?, x ≠ c := by
  rintro x hx rfl
  obtain ⟨tail, hrest⟩ := List.head?_eq_some_iff.mp hx
  have hstart : start.rest = keyword.toList ++ tail := by rw [hkeyword, hrest]; rfl
  cases h.symm.trans (Cursor.eatKeyword?_of_append hstart)

theorem read_signs_eq_error {argument otherwise : Reader}
    (h : (afterKeyword "+" (argument.map (.signed .plus))
      (afterKeyword "-" (argument.map (.signed .minus)) otherwise)).read start = .error cause) :
    (∃ sign : Sign, start.rest = sign.symbol :: (start.skip 1).rest
        ∧ argument.read (start.skip 1) = .error cause)
      ∨ ((∀ c ∈ start.rest.head?, c ≠ '+' ∧ c ≠ '-') ∧ otherwise.read start = .error cause) := by
  rcases read_afterKeyword_eq_error h with ⟨hrest, hread⟩ | ⟨hplus, h⟩
  · exact .inl ⟨.plus, hrest, read_map_eq_error_iff.mp hread⟩
  rcases read_afterKeyword_eq_error h with ⟨hrest, hread⟩ | ⟨hminus, hread⟩
  · exact .inl ⟨.minus, hrest, read_map_eq_error_iff.mp hread⟩
  refine .inr ⟨?_, hread⟩
  intro c hc
  exact ⟨head_ne_of_eatKeyword?_eq_none rfl hplus c hc,
    head_ne_of_eatKeyword?_eq_none rfl hminus c hc⟩

variable {op? : Char → Option BinaryOp} {operand : Reader} {left : Reading}

theorem extend_eq_error {P : Reading → Prop}
    (hstep : ∀ {left right : Reading} {op : BinaryOp} {mid : Cursor}, P left →
      left.next.eatMap? op? = some (op, mid) → operand.read mid = .ok right →
      P ⟨.binary op left.expr right.expr, right.next⟩)
    (h : extend op? operand left = .error cause) (hleft : P left) :
    ∃ (last : Reading) (op : BinaryOp) (mid : Cursor), P last
      ∧ last.next.eatMap? op? = some (op, mid) ∧ operand.read mid = .error cause := by
  fun_induction extend op? operand left with
  | case1 => cases h
  | case2 left op mid hop cause' hright =>
    cases h
    exact ⟨left, op, mid, hleft, hop, hright⟩
  | case3 left op mid hop right hright _ _ ih => exact ih h (hstep hleft hop hright)

theorem extend_of_read_eq_error {op : BinaryOp} {mid : Cursor}
    (hop : left.next.eatMap? op? = some (op, mid)) (hright : operand.read mid = .error cause) :
    extend op? operand left = .error cause := by
  rw [extend]
  split
  · simp_all
  · next op' mid' hop' =>
    obtain ⟨rfl, rfl⟩ : op' = op ∧ mid' = mid := by simpa [hop] using hop'.symm
    split <;> simp_all

theorem read_chain_eq_error {first : Reader}
    (h : (chain op? first operand).read start = .error cause) :
    first.read start = .error cause
      ∨ ∃ left, first.read start = .ok left ∧ extend op? operand left = .error cause := by
  simp only [chain] at h
  split at h
  · next hfirst =>
    cases h
    exact .inl hfirst
  · next left hleft => exact .inr ⟨left, hleft, h⟩

theorem read_chain_of_read_eq_error {first : Reader} (h : first.read start = .error cause) :
    (chain op? first operand).read start = .error cause := by
  simp only [chain, h]

theorem refuses_of_read_noOperand (h : noOperand.read start = .error cause)
    (hstarts : ¬Cursor.StartsOperand start.rest) : start.Refuses cause := by
  obtain ⟨position, rest⟩ := start
  cases rest with
  | nil => cases h; exact .atEnd position
  | cons c rest => cases h; exact .atChar hstarts

end Reader

namespace Opening

variable {rule : Rule} {o : Opening rule} {limit levels : Nat} {start mid stop : Cursor}
  {cause : SyntaxError}

/--
The gap of an opening that may be read from `start` lies at `stop`.
-/
structure Reaches (o : Opening rule) (levels : Nat) (start stop : Cursor) : Prop where
  depth_le : o.depth ≤ levels
  canonical : o.IsCanonical
  passes : Cursor.Passes o.chars start stop

/--
An operand is missing behind the opening.
-/
def Refused (o : Opening rule) (levels : Nat) (start : Cursor) (cause : SyntaxError) : Prop :=
  ∃ stop, o.Reaches levels start stop ∧ stop.Refuses cause

/--
The gap at `stop` is as far as a text can be read from `start`: no operand starts there, or one
would be too deeply nested.
-/
structure BreaksOff (o : Opening rule) (limit levels : Nat) (start stop : Cursor)
    (cause : SyntaxError) : Prop where
  canonical : o.IsCanonical
  passes : Cursor.Passes o.chars start stop
  reason : o.depth ≤ levels ∧ stop.Refuses cause
    ∨ levels < o.level ∧ cause = .tooDeeplyNested limit

theorem BreaksOff.refused (h : o.BreaksOff limit levels start stop cause)
    (hcause : ∀ l, cause ≠ .tooDeeplyNested l) : o.Refused levels start cause := by
  obtain ⟨hdepth, hrefuses⟩ | ⟨-, rfl⟩ := h.reason
  · exact ⟨stop, ⟨hdepth, h.canonical, h.passes⟩, hrefuses⟩
  · exact absurd rfl (hcause limit)

theorem BreaksOff.binary {link : Rule} {left : Derivation rule}
    {right : Opening link} {op : BinaryOp} {last : Reading} (h₁ : left.Reads levels start last)
    (hop : last.next.eatMap? rule.operator? = some (op, mid))
    (h₂ : right.BreaksOff limit levels mid stop cause)
    (hdepth : o.depth = max left.depth right.depth) (hlevel : o.level = right.level)
    (hcanonical : o.IsCanonical) (hchars : o.chars = left.chars ++ op.symbol :: right.chars) :
    o.BreaksOff limit levels start stop cause := by
  constructor
  · exact hcanonical
  · rw [hchars]
    exact .binary h₁.spans hop h₂.passes
  · rw [hdepth, hlevel]
    exact h₂.reason.imp_left (And.imp_left fun hle => Nat.max_le.mpr ⟨h₁.depth_le, hle⟩)

theorem BreaksOff.deeper (h : o.BreaksOff limit levels start stop cause) :
    o.depth + 1 ≤ levels + 1 ∧ stop.Refuses cause
      ∨ levels + 1 < o.level + 1 ∧ cause = .tooDeeplyNested limit :=
  h.reason.imp (And.imp_left Nat.succ_le_succ) (And.imp_left Nat.succ_lt_succ)

theorem BreaksOff.inside {outer : Rule} {inner : Opening rule} {o : Opening outer} {c : Char}
    (h : inner.BreaksOff limit levels (start.skip 1) stop cause)
    (hrest : start.rest = c :: (start.skip 1).rest) (hdepth : o.depth = inner.depth + 1)
    (hlevel : o.level = inner.level + 1) (hcanonical : o.IsCanonical)
    (hchars : o.chars = c :: inner.chars) : o.BreaksOff limit (levels + 1) start stop cause := by
  constructor
  · exact hcanonical
  · rw [hchars, Cursor.passes_cons]
    exact ⟨hrest, h.passes⟩
  · rw [hdepth, hlevel]
    exact h.deeper

end Opening

/--
The reader fails only behind an opening.
-/
def Reader.BreaksOff (reader : Reader) (rule : Rule) (limit levels : Nat) : Prop :=
  ∀ {start : Cursor} {cause : SyntaxError}, reader.read start = .error cause →
    ∃ (o : Opening rule) (stop : Cursor), o.BreaksOff limit levels start stop cause

structure Nested.BreaksOff (inner : Nested) (limit levels : Nat) : Prop where
  factor : inner.factor.BreaksOff .factor limit levels
  operand : inner.operand.BreaksOff .operand limit levels
  group : ∀ {start : Cursor} {cause : SyntaxError}, start.rest = '(' :: (start.skip 1).rest →
    inner.group.read (start.skip 1) = .error cause →
    ∃ (o : Opening .group) (stop : Cursor), o.BreaksOff limit levels start stop cause

theorem Reader.exists_of_read_chain_eq_error (rule : Rule) {first operand : Reader} {levels : Nat}
    {start : Cursor} {cause : SyntaxError}
    (hfirst : ∀ {result : Reading}, first.read start = .ok result →
      ∃ d : Derivation rule, d.Reads levels start result ∧ d.StopsAt rule.link result.next.rest)
    (hlinks : operand.Links rule levels)
    (h : (Reader.chain rule.operator? first operand).read start = .error cause) :
    first.read start = .error cause
      ∨ ∃ (d : Derivation rule) (last : Reading) (op : BinaryOp) (mid : Cursor),
        d.Reads levels start last ∧ d.StopsAt rule.link last.next.rest
          ∧ last.next.eatMap? rule.operator? = some (op, mid) ∧ operand.read mid = .error cause := by
  rcases read_chain_eq_error h with hread | ⟨left, hleft, hextend⟩
  · exact .inl hread
  -- The loop keeps a derivation of what it has read until an operand is missing.
  obtain ⟨last, op, mid, ⟨d, hreads, hstops⟩, hop, hright⟩ := extend_eq_error
    (P := fun reading => ∃ d : Derivation rule, d.Reads levels start reading
      ∧ d.StopsAt rule.link reading.next.rest)
    (fun ⟨d, hreads, hstops⟩ hop hright => hlinks d hreads hstops hop hright) hextend
    (hfirst hleft)
  exact .inr ⟨d, last, op, mid, hreads, hstops, hop, hright⟩

namespace Grammar

variable {inner : Nested} {limit levels : Nat} {start : Cursor} {cause : SyntaxError}

theorem breaksOff_term (hsound : inner.Sound levels) (h : inner.BreaksOff limit levels) :
    (term inner).BreaksOff .term limit levels := by
  intro start cause hread
  rcases Reader.exists_of_read_chain_eq_error .term (sound_firstFactor hsound) (links_term hsound)
    hread with hfirst | ⟨d, last, op, mid, hreads, -, hop, hright⟩
  · obtain ⟨o, stop, ho⟩ := h.factor hfirst
    exact ⟨.ofFactor o, stop, ho.canonical, ho.passes, ho.reason⟩
  · obtain ⟨o, stop, ho⟩ := h.factor hright
    refine ⟨.product d op (Cursor.rule_of_eatMap?_operator? hop) o, stop, ?_⟩
    exact .binary hreads hop ho rfl rfl ⟨hreads.canonical, ho.canonical⟩ rfl

theorem breaksOff_expression (hsound : inner.Sound levels) (h : inner.BreaksOff limit levels) :
    (expression inner).BreaksOff .expression limit levels := by
  intro start cause hread
  rcases Reader.exists_of_read_chain_eq_error .expression (sound_firstTerm hsound)
    (links_expression hsound) hread with hfirst | ⟨d, last, op, mid, hreads, -, hop, hright⟩
  · obtain ⟨o, stop, ho⟩ := breaksOff_term hsound h hfirst
    exact ⟨.ofTerm o, stop, ho.canonical, ho.passes, ho.reason⟩
  · obtain ⟨o, stop, ho⟩ := breaksOff_term hsound h hright
    refine ⟨.sum d op (Cursor.rule_of_eatMap?_operator? hop) o, stop, ?_⟩
    exact .binary hreads hop ho rfl rfl ⟨hreads.canonical, ho.canonical⟩ rfl

theorem breaksOff_keywordRoot (h : inner.BreaksOff limit levels)
    (hkeyword : start.rest = "sqrt".toList ++ (start.skip "sqrt".toList.length).rest)
    (hread : (keywordRoot inner).read (start.skip "sqrt".toList.length) = .error cause) :
    ∃ (o : Opening .primary) (stop : Cursor), o.BreaksOff limit levels start stop cause := by
  have hpasses : Cursor.Passes "sqrt".toList start (start.skip "sqrt".toList.length) :=
    ⟨hkeyword, rfl⟩
  rcases Reader.read_afterKeyword_eq_error hread with ⟨hopen, hgroup⟩ | ⟨hopen, hfactor⟩
  · obtain ⟨o, stop, ho⟩ := h.group hopen (Reader.read_map_eq_error_iff.mp hgroup)
    exact ⟨.keywordGroup o, stop, ho.canonical, hpasses.append ho.passes, ho.reason⟩
  · obtain ⟨o, stop, ho⟩ := h.factor (Reader.read_map_eq_error_iff.mp hfactor)
    refine ⟨.keywordFactor o, stop, ⟨ho.canonical, ?_⟩, hpasses.append ho.passes, ho.reason⟩
    -- The argument would have been read as a group.
    intro hhead
    obtain ⟨tail, hchars⟩ := List.head?_eq_some_iff.mp hhead
    have hrest := ho.passes.1
    rw [hchars] at hrest
    exact Reader.head_ne_of_eatKeyword?_eq_none rfl hopen '(' (by rw [hrest]; rfl) rfl

theorem breaksOff_gap (h : start.Refuses cause) :
    ∃ (o : Opening .primary) (stop : Cursor), o.BreaksOff limit levels start stop cause :=
  ⟨.gap, start, trivial, Cursor.passes_nil start, .inl ⟨Nat.zero_le _, h⟩⟩

theorem breaksOff_primary (h : inner.BreaksOff limit levels)
    (hsigns : ∀ c ∈ start.rest.head?, c ≠ '+' ∧ c ≠ '-')
    (hread : (primary inner).read start = .error cause) :
    ∃ (o : Opening .primary) (stop : Cursor), o.BreaksOff limit levels start stop cause := by
  rcases Reader.read_afterKeyword_eq_error hread with ⟨hopen, hgroup⟩ | ⟨hopen, hread⟩
  · obtain ⟨o, stop, ho⟩ := h.group hopen hgroup
    exact ⟨.ofGroup o, stop, ho.canonical, ho.passes, ho.reason⟩
  simp only [Reader.numberOr] at hread
  split at hread
  · next hnumber =>
    rcases Reader.read_afterKeyword_eq_error hread with ⟨hkeyword, hroot⟩ | ⟨hkeyword, hread⟩
    · exact breaksOff_keywordRoot h hkeyword hroot
    rcases Reader.read_afterKeyword_eq_error hread with ⟨hrest, hroot⟩ | ⟨hradical, hread⟩
    · obtain ⟨o, stop, ho⟩ := h.factor (Reader.read_map_eq_error_iff.mp hroot)
      refine ⟨.radical o, stop, ho.canonical, ?_, ho.reason⟩
      exact Cursor.passes_cons.mpr ⟨hrest, ho.passes⟩
    · apply breaksOff_gap
      apply Reader.refuses_of_read_noOperand hread
      rintro (⟨c, hc, hmem | hnumeric⟩ | ⟨tail, hprefix⟩)
      · simp only [List.mem_cons, List.not_mem_nil, or_false] at hmem
        rcases hmem with rfl | rfl | rfl | rfl
        · exact (hsigns _ hc).1 rfl
        · exact (hsigns _ hc).2 rfl
        · exact Reader.head_ne_of_eatKeyword?_eq_none rfl hopen _ hc rfl
        · exact Reader.head_ne_of_eatKeyword?_eq_none rfl hradical _ hc rfl
      · obtain ⟨tail, hrest⟩ := List.head?_eq_some_iff.mp hc
        simp [Cursor.number, hrest, hnumeric] at hnumber
      · cases hkeyword.symm.trans (Cursor.eatKeyword?_of_append hprefix.symm)
  · next hnumber =>
    split at hread
    · cases hread
    · next hliteral =>
      cases hread
      exact breaksOff_gap (.atNumber hnumber hliteral)

theorem breaksOff_powers (hsound : inner.Sound levels) (h : inner.BreaksOff limit levels)
    (hsigns : ∀ c ∈ start.rest.head?, c ≠ '+' ∧ c ≠ '-')
    (hread : (powers inner).read start = .error cause) :
    ∃ (o : Opening .powers) (stop : Cursor), o.BreaksOff limit levels start stop cause := by
  rcases Reader.exists_of_read_chain_eq_error .powers (sound_firstPrimary hsound)
    (links_powers hsound) hread with hfirst | ⟨d, last, op, mid, hreads, hstops, hop, hright⟩
  · obtain ⟨o, stop, ho⟩ := breaksOff_primary h hsigns hfirst
    exact ⟨.ofBase o, stop, ho.canonical, ho.passes, ho.reason⟩
  · obtain ⟨o, stop, ho⟩ := h.operand hright
    have hroot := endsInRoot_of_power hstops hop
    obtain rfl := BinaryOp.eq_pow_of_rule (Cursor.rule_of_eatMap?_operator? hop)
    refine ⟨.power d o, stop, ?_⟩
    exact .binary hreads hop ho rfl rfl ⟨hreads.canonical, ho.canonical, hroot⟩ rfl

theorem breaksOff_factor (hsound : inner.Sound levels) (h : inner.BreaksOff limit levels) :
    (factor inner).BreaksOff .factor limit (levels + 1) := by
  intro start cause hread
  rcases Reader.read_signs_eq_error hread with ⟨sign, hrest, hargument⟩ | ⟨hsigns, hpowers⟩
  · obtain ⟨o, stop, ho⟩ := h.factor hargument
    exact ⟨.signedFactor sign o, stop, ho.inside hrest rfl rfl ho.canonical rfl⟩
  · obtain ⟨o, stop, ho⟩ := breaksOff_powers hsound h hsigns hpowers
    exact ⟨.ofPowers o, stop, ho.canonical, ho.passes, ho.deeper⟩

theorem breaksOff_operand (h : inner.BreaksOff limit levels) :
    (operand inner).BreaksOff .operand limit (levels + 1) := by
  intro start cause hread
  rcases Reader.read_signs_eq_error hread with ⟨sign, hrest, hargument⟩ | ⟨hsigns, hprimary⟩
  · obtain ⟨o, stop, ho⟩ := h.operand hargument
    exact ⟨.signedOperand sign o, stop, ho.inside hrest rfl rfl ho.canonical rfl⟩
  · obtain ⟨o, stop, ho⟩ := breaksOff_primary h hsigns hprimary
    exact ⟨.ofPrimary o, stop, ho.canonical, ho.passes, ho.deeper⟩

theorem breaksOff_group (hsound : inner.Sound levels) (h : inner.BreaksOff limit levels)
    (hopen : start.rest = '(' :: (start.skip 1).rest)
    (hread : (group inner).read (start.skip 1) = .error cause) :
    ∃ (o : Opening .group) (stop : Cursor), o.BreaksOff limit (levels + 1) start stop cause := by
  have hbody := Reader.read_closing_eq_error_iff.mp (Reader.read_map_eq_error_iff.mp hread)
  obtain ⟨o, stop, ho⟩ := breaksOff_expression hsound h hbody
  exact ⟨.group o, stop, ho.inside hopen rfl rfl ho.canonical rfl⟩

end Grammar

theorem Nested.breaksOff_ofLevels (limit levels : Nat) :
    (ofLevels limit levels).BreaksOff limit levels := by
  induction levels with
  | zero =>
    -- No level is left, and an operand takes at least one.
    constructor
    · rintro start cause ⟨⟩
      exact ⟨.ofPowers (.ofBase .gap), start, trivial, Cursor.passes_nil start,
        .inr ⟨Nat.zero_lt_one, rfl⟩⟩
    · rintro start cause ⟨⟩
      exact ⟨.ofPrimary .gap, start, trivial, Cursor.passes_nil start, .inr ⟨Nat.zero_lt_one, rfl⟩⟩
    · rintro start cause hopen ⟨⟩
      exact ⟨.group (.ofTerm (.ofFactor (.ofPowers (.ofBase .gap)))), start.skip 1, trivial,
        Cursor.passes_cons.mpr ⟨hopen, Cursor.passes_nil _⟩, .inr ⟨Nat.zero_lt_two, rfl⟩⟩
  | succ levels ih =>
    have hsound := sound_ofLevels limit levels
    exact ⟨Grammar.breaksOff_factor hsound ih, Grammar.breaksOff_operand ih,
      Grammar.breaksOff_group hsound ih⟩

end Calculator
