import Calculator.Proofs.Expression.Reading

/-!
This module contains the soundness of the grammar's readers: whatever one of them reads is the text
of a canonical derivation, closing parentheses apart that are missing.
-/

namespace Calculator

theorem Cursor.Spans.binary {rule : Rule} {op : BinaryOp} {chars₁ chars₂ : List Char}
    {start left mid right : Cursor} (h₁ : Spans chars₁ start left)
    (hop : left.eatMap? rule.operator? = some (op, mid)) (h₂ : Spans chars₂ mid right) :
    Spans (chars₁ ++ op.symbol :: chars₂) start right := by
  obtain ⟨c, hrest, hc, rfl⟩ := eatMap?_eq_some_iff.mp hop
  obtain ⟨rfl, -⟩ := Rule.operator?_eq_some_iff.mp hc
  apply h₁.append
  · intro hblocked
    exact hblocked op.symbol (by simp [hrest]) op.symbol_mem_continuations
  · rw [spans_cons op.symbol_ne_closing]
    exact ⟨hrest, h₂⟩

theorem Cursor.rule_of_eatMap?_operator? {rule : Rule} {op : BinaryOp} {left mid : Cursor}
    (hop : left.eatMap? rule.operator? = some (op, mid)) : op.rule = rule := by
  obtain ⟨c, -, hc, -⟩ := eatMap?_eq_some_iff.mp hop
  exact (Rule.operator?_eq_some_iff.mp hc).2

theorem BinaryOp.eq_pow_of_rule {op : BinaryOp} (h : op.rule = .powers) : op = .pow := by
  cases op <;> first | rfl | cases h

namespace Derivation

variable {rule : Rule} {start : Cursor} {result : Reading}

theorem StopsAt.of_link {d : Derivation rule} {next : Cursor} (h : d.StopsAt rule.link next.rest)
    (hop : next.eatMap? rule.operator? = none) : d.StopsAt rule next.rest := by
  intro c hc
  obtain ⟨hlink, hroot⟩ := h c hc
  exact ⟨Rule.notMem_operators hlink (Cursor.eatMap?_eq_none_iff.mp hop c hc), hroot⟩

/--
What ends in a closing parenthesis or a digit can stop anywhere.
-/
theorem stopsAt_of_closed {d : Derivation rule} {rest : List Char} (hop : rule.operators = [])
    (hroot : d.endsInRoot = false) : d.StopsAt rule rest := by
  intro c _
  rw [hop, hroot]
  exact ⟨List.not_mem_nil, nofun⟩

theorem StopsAt.root {argument : Derivation .factor} {rest : List Char}
    (h : argument.StopsAt .factor rest) (d : Derivation .primary) : d.StopsAt .primary rest := by
  intro c hc
  refine ⟨List.not_mem_nil, ?_⟩
  rintro - rfl
  exact (h '^' hc).1 (by decide)

/--
An expression ends before a closing parenthesis or where nothing goes on.
-/
theorem StopsAt.blocked {d : Derivation .expression} {next : Cursor}
    (h : d.StopsAt .expression next.rest) (hclosing : next.eatKeyword? ")" = none) :
    next.Blocked := by
  intro c hc hmem
  have hcases : c ∈ Rule.expression.operators ∨ c = ')' := by
    simpa [Cursor.continuations, Rule.operators, or_assoc] using hmem
  rcases hcases with hop | rfl
  · exact (h c hc).1 hop
  · obtain ⟨tail, hrest⟩ := List.head?_eq_some_iff.mp hc
    cases hclosing.symm.trans (Cursor.eatKeyword?_of_append hrest)

variable {levels : Nat}

theorem Reads.binary {link : Rule} {left d : Derivation rule} {right : Derivation link}
    {op : BinaryOp} {result₁ result₂ : Reading} {mid : Cursor}
    (h₁ : left.Reads levels start result₁)
    (hop : result₁.next.eatMap? rule.operator? = some (op, mid))
    (h₂ : right.Reads levels mid result₂) (htree : d.tree = .binary op left.tree right.tree)
    (hdepth : d.depth = max left.depth right.depth) (hcanonical : d.IsCanonical)
    (hchars : d.chars = left.chars ++ op.symbol :: right.chars) :
    d.Reads levels start ⟨.binary op result₁.expr result₂.expr, result₂.next⟩ := by
  constructor
  · rw [htree, h₁.tree, h₂.tree]
  · rw [hdepth]
    exact Nat.max_le.mpr ⟨h₁.depth_le, h₂.depth_le⟩
  · exact hcanonical
  · rw [hchars]
    exact h₁.spans.binary hop h₂.spans

theorem Reads.signed {d argument : Derivation rule} {sign : Sign}
    (h : argument.Reads levels (start.skip 1) result)
    (hrest : start.rest = sign.symbol :: (start.skip 1).rest)
    (htree : d.tree = .signed sign argument.tree) (hdepth : d.depth = argument.depth + 1)
    (hcanonical : d.IsCanonical) (hchars : d.chars = sign.symbol :: argument.chars) :
    d.Reads (levels + 1) start ⟨.signed sign result.expr, result.next⟩ := by
  constructor
  · rw [htree, h.tree]
  · rw [hdepth]
    exact Nat.succ_le_succ h.depth_le
  · exact hcanonical
  · rw [hchars, Cursor.spans_cons sign.symbol_ne_closing]
    exact ⟨hrest, h.spans⟩

end Derivation

def Reader.Sound (reader : Reader) (rule : Rule) (levels : Nat) : Prop :=
  ∀ {start : Cursor} {result : Reading}, reader.read start = .ok result →
    ∃ d : Derivation rule, d.Reads levels start result ∧ d.StopsAt rule result.next.rest

/--
What a chain has read stays the text of a derivation if `operand` reads one more link.
-/
def Reader.Links (operand : Reader) (rule : Rule) (levels : Nat) : Prop :=
  ∀ {start mid : Cursor} {left right : Reading} {op : BinaryOp} (d : Derivation rule),
    d.Reads levels start left → d.StopsAt rule.link left.next.rest →
    left.next.eatMap? rule.operator? = some (op, mid) → operand.read mid = .ok right →
    ∃ d' : Derivation rule, d'.Reads levels start ⟨.binary op left.expr right.expr, right.next⟩
      ∧ d'.StopsAt rule.link right.next.rest

theorem Reader.sound_chain (rule : Rule) {first operand : Reader} {levels : Nat}
    (hfirst : ∀ {start : Cursor} {result : Reading}, first.read start = .ok result →
      ∃ d : Derivation rule, d.Reads levels start result ∧ d.StopsAt rule.link result.next.rest)
    (hlinks : operand.Links rule levels) :
    (Reader.chain rule.operator? first operand).Sound rule levels := by
  intro start result h
  obtain ⟨left, hleft, hextend⟩ := Reader.read_chain_eq_ok h
  -- The loop keeps a derivation of what has been read, which may stop wherever a link may.
  obtain ⟨⟨d, hreads, hstops⟩, hop⟩ := Reader.extend_induction
    (P := fun reading => ∃ d : Derivation rule, d.Reads levels start reading
      ∧ d.StopsAt rule.link reading.next.rest)
    (fun ⟨d, hreads, hstops⟩ hop hright => hlinks d hreads hstops hop hright) hextend
    (hfirst hleft)
  exact ⟨d, hreads, hstops.of_link hop⟩

structure Nested.Sound (inner : Nested) (levels : Nat) : Prop where
  factor : inner.factor.Sound .factor levels
  operand : inner.operand.Sound .operand levels
  group : (Rule.reader inner .group).Sound .group levels

namespace Grammar

variable {inner : Nested} {levels : Nat}

theorem links_term (h : inner.Sound levels) : inner.factor.Links .term levels := by
  intro start mid left right op d hreads hstops hop hread
  obtain ⟨d', hreads', hstops'⟩ := h.factor hread
  refine ⟨.product d op (Cursor.rule_of_eatMap?_operator? hop) d', ?_, hstops'⟩
  exact hreads.binary hop hreads' rfl rfl ⟨hreads.canonical, hreads'.canonical⟩ rfl

theorem sound_firstFactor (h : inner.Sound levels) {start : Cursor} {result : Reading}
    (hread : inner.factor.read start = .ok result) :
    ∃ d : Derivation .term, d.Reads levels start result ∧ d.StopsAt .factor result.next.rest := by
  obtain ⟨d, hreads, hstops⟩ := h.factor hread
  exact ⟨.ofFactor d, ⟨hreads.tree, hreads.depth_le, hreads.canonical, hreads.spans⟩, hstops⟩

theorem sound_term (h : inner.Sound levels) : (term inner).Sound .term levels :=
  Reader.sound_chain .term (sound_firstFactor h) (links_term h)

theorem links_expression (h : inner.Sound levels) : (term inner).Links .expression levels := by
  intro start mid left right op d hreads hstops hop hread
  obtain ⟨d', hreads', hstops'⟩ := sound_term h hread
  refine ⟨.sum d op (Cursor.rule_of_eatMap?_operator? hop) d', ?_, hstops'⟩
  exact hreads.binary hop hreads' rfl rfl ⟨hreads.canonical, hreads'.canonical⟩ rfl

theorem sound_firstTerm (h : inner.Sound levels) {start : Cursor} {result : Reading}
    (hread : (term inner).read start = .ok result) :
    ∃ d : Derivation .expression, d.Reads levels start result
      ∧ d.StopsAt .term result.next.rest := by
  obtain ⟨d, hreads, hstops⟩ := sound_term h hread
  exact ⟨.ofTerm d, ⟨hreads.tree, hreads.depth_le, hreads.canonical, hreads.spans⟩, hstops⟩

theorem sound_expression (h : inner.Sound levels) :
    (expression inner).Sound .expression levels :=
  Reader.sound_chain .expression (sound_firstTerm h) (links_expression h)

theorem sound_keywordRoot (h : inner.Sound levels) {start : Cursor} {result : Reading}
    (hkeyword : start.rest = "sqrt".toList ++ (start.skip "sqrt".toList.length).rest)
    (hread : (keywordRoot inner).read (start.skip "sqrt".toList.length) = .ok result) :
    ∃ d : Derivation .primary, d.Reads levels start result
      ∧ d.StopsAt .primary result.next.rest := by
  rcases Reader.read_afterKeyword_eq_ok hread with ⟨hopen, hgroup⟩ | ⟨hopen, hfactor⟩
  · obtain ⟨argument, hargument, rfl⟩ := Reader.read_map_eq_ok hgroup
    rw [← Reader.read_afterKeyword_of_append inner.group .noOperand hopen] at hargument
    obtain ⟨d, hreads, -⟩ := h.group hargument
    refine ⟨.keywordGroup d, ⟨?_, hreads.depth_le, hreads.canonical, ?_⟩, ?_⟩
    · simp only [Derivation.tree, hreads.tree]
    · exact (Cursor.spans_append_of_notMem (by decide)).mpr ⟨hkeyword, hreads.spans⟩
    · apply Derivation.stopsAt_of_closed <;> rfl
  · obtain ⟨argument, hargument, rfl⟩ := Reader.read_map_eq_ok hfactor
    obtain ⟨d, hreads, hstops⟩ := h.factor hargument
    refine ⟨.keywordFactor d, ⟨?_, hreads.depth_le, ⟨hreads.canonical, ?_⟩, ?_⟩, hstops.root _⟩
    · simp only [Derivation.tree, hreads.tree]
    · -- The argument would have been read as a group.
      intro hhead
      obtain ⟨tail, hchars⟩ := List.head?_eq_some_iff.mp hhead
      have hspans := hreads.spans
      rw [hchars, Cursor.spans_cons (by decide)] at hspans
      cases hopen.symm.trans (Cursor.eatKeyword?_of_append hspans.1)
    · exact (Cursor.spans_append_of_notMem (by decide)).mpr ⟨hkeyword, hreads.spans⟩

theorem sound_radical (h : inner.Sound levels) {start : Cursor} {result : Reading}
    (hradical : start.rest = "√".toList ++ (start.skip "√".toList.length).rest)
    (hread : (inner.factor.map (.root .radical)).read (start.skip "√".toList.length) = .ok result) :
    ∃ d : Derivation .primary, d.Reads levels start result
      ∧ d.StopsAt .primary result.next.rest := by
  obtain ⟨argument, hargument, rfl⟩ := Reader.read_map_eq_ok hread
  obtain ⟨d, hreads, hstops⟩ := h.factor hargument
  refine ⟨.radical d, ⟨?_, hreads.depth_le, hreads.canonical, ?_⟩, hstops.root _⟩
  · simp only [Derivation.tree, hreads.tree]
  · exact (Cursor.spans_cons (by decide)).mpr ⟨hradical, hreads.spans⟩

theorem sound_number {start : Cursor} {numeral : Numeral}
    (h : Numeral.ofChars? start.number = some numeral) :
    ∃ d : Derivation .primary, d.Reads levels start ⟨.number numeral, start.skipNumber⟩
      ∧ d.StopsAt .primary start.skipNumber.rest := by
  refine ⟨.number numeral (Numeral.isWellFormed_of_ofChars? h),
    ⟨rfl, Nat.zero_le _, trivial, ?_⟩, ?_⟩
  · refine ⟨start.number, 0, by simpa [Derivation.chars] using Numeral.chars_of_ofChars? h, ?_, rfl,
      .inl rfl⟩
    exact start.number_append_skipNumber.symm
  · apply Derivation.stopsAt_of_closed <;> rfl

theorem sound_primary (h : inner.Sound levels) : (primary inner).Sound .primary levels := by
  intro start result hread
  rcases Reader.read_afterKeyword_eq_ok hread with ⟨hopen, hgroup⟩ | ⟨-, hread⟩
  · rw [← Reader.read_afterKeyword_of_append inner.group .noOperand hopen] at hgroup
    obtain ⟨d, hreads, hstops⟩ := h.group hgroup
    refine ⟨.ofGroup d, ⟨hreads.tree, hreads.depth_le, hreads.canonical, hreads.spans⟩, ?_⟩
    apply Derivation.stopsAt_of_closed <;> rfl
  simp only [Reader.numberOr] at hread
  split at hread
  · rcases Reader.read_afterKeyword_eq_ok hread with ⟨hkeyword, hroot⟩ | ⟨-, hread⟩
    · exact sound_keywordRoot h hkeyword hroot
    rcases Reader.read_afterKeyword_eq_ok hread with ⟨hradical, hroot⟩ | ⟨-, hread⟩
    · exact sound_radical h hradical hroot
    · simp [Reader.noOperand, Reader.fail] at hread
  · split at hread
    · next numeral hnumeral =>
      cases hread
      exact sound_number hnumeral
    · cases hread

/--
The argument of a root that ends before `^` would have taken the power itself.
-/
theorem endsInRoot_of_power {rule : Rule} {d : Derivation rule} {op : BinaryOp} {left mid : Cursor}
    (hstops : d.StopsAt .primary left.rest)
    (hop : left.eatMap? (Rule.operator? .powers) = some (op, mid)) : d.endsInRoot = false := by
  obtain ⟨c, hrest, hc, -⟩ := Cursor.eatMap?_eq_some_iff.mp hop
  obtain ⟨rfl, hrule⟩ := Rule.operator?_eq_some_iff.mp hc
  obtain rfl := BinaryOp.eq_pow_of_rule hrule
  have hpow := (hstops '^' (by simp [hrest, BinaryOp.symbol])).2
  simpa using hpow

theorem links_powers (h : inner.Sound levels) : inner.operand.Links .powers levels := by
  intro start mid left right op d hreads hstops hop hread
  obtain ⟨d', hreads', hstops'⟩ := h.operand hread
  have hroot := endsInRoot_of_power hstops hop
  obtain rfl := BinaryOp.eq_pow_of_rule (Cursor.rule_of_eatMap?_operator? hop)
  refine ⟨.power d d', ?_, hstops'⟩
  exact hreads.binary hop hreads' rfl rfl ⟨hreads.canonical, hreads'.canonical, hroot⟩ rfl

theorem sound_firstPrimary (h : inner.Sound levels) {start : Cursor} {result : Reading}
    (hread : (primary inner).read start = .ok result) :
    ∃ d : Derivation .powers, d.Reads levels start result
      ∧ d.StopsAt .primary result.next.rest := by
  obtain ⟨d, hreads, hstops⟩ := sound_primary h hread
  exact ⟨.ofBase d, ⟨hreads.tree, hreads.depth_le, hreads.canonical, hreads.spans⟩, hstops⟩

theorem sound_powers (h : inner.Sound levels) : (powers inner).Sound .powers levels :=
  Reader.sound_chain .powers (sound_firstPrimary h) (links_powers h)

theorem sound_factor (h : inner.Sound levels) : (factor inner).Sound .factor (levels + 1) := by
  intro start result hread
  rcases Reader.read_signs_eq_ok hread with ⟨sign, argument, hrest, hargument, rfl⟩ | hpowers
  · obtain ⟨d, hreads, hstops⟩ := h.factor hargument
    exact ⟨.signedFactor sign d, hreads.signed hrest rfl rfl hreads.canonical rfl, hstops⟩
  · obtain ⟨d, hreads, hstops⟩ := sound_powers h hpowers
    refine ⟨.ofPowers d, ⟨hreads.tree, ?_, hreads.canonical, hreads.spans⟩, hstops⟩
    exact Nat.succ_le_succ hreads.depth_le

theorem sound_operand (h : inner.Sound levels) : (operand inner).Sound .operand (levels + 1) := by
  intro start result hread
  rcases Reader.read_signs_eq_ok hread with ⟨sign, argument, hrest, hargument, rfl⟩ | hprimary
  · obtain ⟨d, hreads, hstops⟩ := h.operand hargument
    exact ⟨.signedOperand sign d, hreads.signed hrest rfl rfl hreads.canonical rfl, hstops⟩
  · obtain ⟨d, hreads, hstops⟩ := sound_primary h hprimary
    refine ⟨.ofPrimary d, ⟨hreads.tree, ?_, hreads.canonical, hreads.spans⟩, hstops⟩
    exact Nat.succ_le_succ hreads.depth_le

theorem sound_group (h : inner.Sound levels) :
    (Reader.afterKeyword "(" (group inner) .noOperand).Sound .group (levels + 1) := by
  intro start result hread
  rcases Reader.read_afterKeyword_eq_ok hread with ⟨hopen, hgroup⟩ | ⟨-, hnone⟩
  · obtain ⟨closed, hclosed, rfl⟩ := Reader.read_map_eq_ok hgroup
    obtain ⟨body, hbody, rfl⟩ := Reader.read_closing_eq_ok hclosed
    obtain ⟨d, hreads, hstops⟩ := sound_expression h hbody
    refine ⟨.group d, ⟨?_, ?_, hreads.canonical, ?_⟩, ?_⟩
    · simp only [Derivation.tree, hreads.tree]
    · exact Nat.succ_le_succ hreads.depth_le
    · refine (Cursor.spans_cons (by decide)).mpr ⟨hopen, ?_⟩
      rw [Cursor.spans_append_singleton]
      cases hclosing : body.next.eatKeyword? ")" with
      | some next =>
        obtain ⟨hrest, rfl⟩ := Cursor.eatKeyword?_eq_some_iff.mp hclosing
        exact .inl ⟨body.next, hreads.spans, hrest, rfl⟩
      | none => exact .inr ⟨hreads.spans, hstops.blocked hclosing⟩
    · apply Derivation.stopsAt_of_closed <;> rfl
  · simp [Reader.noOperand, Reader.fail] at hnone

end Grammar

theorem Nested.sound_ofLevels (limit levels : Nat) : (ofLevels limit levels).Sound levels := by
  induction levels with
  | zero =>
    -- No level is left, so every reader refuses.
    constructor
    · intro start result h
      cases h
    · intro start result h
      cases h
    · intro start result h
      rcases Reader.read_afterKeyword_eq_ok h with ⟨-, h⟩ | ⟨-, h⟩ <;> cases h
  | succ levels ih =>
    exact ⟨Grammar.sound_factor ih, Grammar.sound_operand ih, Grammar.sound_group ih⟩

end Calculator
