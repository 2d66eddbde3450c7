import Calculator.Proofs.Expression.Refusal

/-!
This module contains the converse for texts that break off: whatever stands in front of the gap is
read, unless the levels run out before, and then the reader refuses the place behind it.
-/

namespace Calculator

namespace Cursor

variable {place : Cursor} {cause : SyntaxError}

theorem eatKeyword?_eq_none_of_absent {keyword : String} (h : ¬keyword.toList <+: place.rest) :
    place.eatKeyword? keyword = none := by
  unfold eatKeyword?
  rw [if_neg]
  rwa [List.isPrefixOf_iff_prefix]

theorem Refuses.read_primary (h : place.Refuses cause) (inner : Nested) :
    (Grammar.primary inner).read place = .error cause := by
  cases h with
  | atEnd => rfl
  | @atChar position c rest hstarts =>
    have hmem : c ∉ ['+', '-', '(', '√'] := fun hmem => hstarts (.inl ⟨c, rfl, .inl hmem⟩)
    have hnumeric : isNumeric c = false := by
      rw [← Bool.not_eq_true]
      exact fun hnumeric => hstarts (.inl ⟨c, rfl, .inr hnumeric⟩)
    simp only [List.mem_cons, List.not_mem_nil, or_false, not_or] at hmem
    rw [Derivation.read_primary_of_notMem rfl hmem.2.2.1 hnumeric]
    have hkeyword := @eatKeyword?_eq_none_of_absent ⟨position, c :: rest⟩ "sqrt"
      fun hprefix => hstarts (.inr hprefix)
    have hradical := @eatKeyword?_of_head_ne ⟨position, c :: rest⟩ "√" '√' [] rfl
      (by simpa using hmem.2.2.2)
    simp only [Reader.afterKeyword, hkeyword, hradical]
    rfl
  | atNumber hnonempty hliteral =>
    have hopen : place.rest.head? ≠ some '(' := by
      intro hhead
      obtain ⟨c, hc, hnumeric⟩ := isNumeric_of_number_ne_nil hnonempty
      cases hhead.symm.trans hc
      cases hnumeric
    refine (Reader.read_afterKeyword_of_head_ne '(' rfl hopen).trans ?_
    simp only [Reader.numberOr, hnonempty, if_false, hliteral]

end Cursor

namespace Reader

variable {start : Cursor} {cause : SyntaxError} {argument otherwise : Reader}

theorem read_signs_of_read_eq_error {sign : Sign}
    (hrest : start.rest = sign.symbol :: (start.skip 1).rest)
    (h : argument.read (start.skip 1) = .error cause) :
    (afterKeyword "+" (argument.map (.signed .plus))
      (afterKeyword "-" (argument.map (.signed .minus)) otherwise)).read start = .error cause := by
  cases sign with
  | plus =>
    rw [read_afterKeyword_of_append _ _ hrest]
    exact read_map_eq_error_iff.mpr h
  | minus =>
    rw [read_afterKeyword_of_head_ne '+' rfl (by simp [hrest, Sign.symbol]),
      read_afterKeyword_of_append _ _ hrest]
    exact read_map_eq_error_iff.mpr h

theorem read_signs_of_forall (h : ∀ c ∈ start.rest.head?, c ≠ '+' ∧ c ≠ '-') :
    (afterKeyword "+" (argument.map (.signed .plus))
      (afterKeyword "-" (argument.map (.signed .minus)) otherwise)).read start
      = otherwise.read start := by
  rw [read_afterKeyword_of_head_ne '+' rfl fun hhead => (h '+' hhead).1 rfl,
    read_afterKeyword_of_head_ne '-' rfl fun hhead => (h '-' hhead).2 rfl]

end Reader

/--
A chain that is read as far as an operator fails as the link behind it does.
-/
theorem Derivation.Reads.read_eq_error {rule link : Rule} {limit levels : Nat} {start mid : Cursor}
    {cause : SyntaxError} {left : Derivation rule} {op : BinaryOp}
    (h : left.Reads levels start ⟨left.tree, mid⟩)
    (hresume : ∀ reading, rule.resume (.ofLevels limit levels) reading
      = Reader.extend rule.operator? (link.reader (.ofLevels limit levels)) reading)
    (hrule : op.rule = rule) (hrest : mid.rest = op.symbol :: (mid.skip 1).rest)
    (hroot : left.endsInRoot = true → op.symbol ≠ '^')
    (hlink : (link.reader (.ofLevels limit levels)).read (mid.skip 1) = .error cause) :
    (rule.reader (.ofLevels limit levels)).read start = .error cause := by
  have hop : mid.eatMap? rule.operator? = some (op, mid.skip 1) :=
    Cursor.eatMap?_eq_some_iff.mpr
      ⟨op.symbol, hrest, Rule.operator?_eq_some_iff.mpr ⟨rfl, hrule⟩, rfl⟩
  rw [IsRead.read_eq_extend (left.isRead limit) h hrule hrest hroot, hresume]
  exact Reader.extend_of_read_eq_error hop hlink

namespace Opening

variable {rule : Rule} {limit levels : Nat} {start stop : Cursor} {cause : SyntaxError}

theorem notMem_nonStarters_head?_append {front : List Char} (back : List Char)
    (h : ∃ c ∈ front.head?, c ∉ rule.nonStarters) :
    ∀ c ∈ (front ++ back).head?, c ∉ rule.nonStarters := by
  obtain ⟨c, hc, hstart⟩ := exists_mem_head?_append back h
  intro c' hc'
  cases Option.mem_unique hc hc'
  exact hstart

theorem notMem_nonStarters_head?_chars (o : Opening rule) :
    ∀ c ∈ o.chars.head?, c ∉ rule.nonStarters := by
  induction o with
  | ofTerm _ ih | ofFactor _ ih | ofBase _ ih => exact ih
  | ofPowers _ ih | ofPrimary _ ih =>
    intro c hc
    have hstart := ih c hc
    simp only [Rule.nonStarters, List.mem_cons, not_or] at hstart ⊢
    exact hstart.2.2
  | gap =>
    intro c hc
    cases hc
  | ofGroup only =>
    cases only
    rintro c ⟨⟩
    decide
  | sum left | product left =>
    exact notMem_nonStarters_head?_append _ left.exists_head?_chars
  | power base => exact notMem_nonStarters_head?_append _ base.exists_head?_chars
  | signedFactor sign | signedOperand sign =>
    rintro c ⟨⟩
    cases sign <;> decide
  | keywordGroup | keywordFactor =>
    rintro c ⟨⟩
    decide
  | radical =>
    rintro c ⟨⟩
    decide
  | group =>
    rintro c ⟨⟩
    decide

/--
A text that breaks off starts like the opening, whose gap is at the start of it only if an operand
is missing there or the rule has no level left for one.
-/
theorem BreaksOff.head?_rest {o : Opening rule} (h : o.BreaksOff limit levels start stop cause) :
    (∀ c ∈ start.rest.head?, c ∈ o.chars.head?)
      ∨ o.chars = [] ∧ (start.Refuses cause
        ∨ levels < rule.ownLevels ∧ cause = .tooDeeplyNested limit) := by
  obtain ⟨hrest, hstop⟩ := h.passes
  cases hchars : o.chars with
  | nil =>
    right
    rw [hchars] at hstop
    obtain rfl : stop = start := hstop
    have hreason := h.reason
    rw [level_of_chars_eq_nil hchars] at hreason
    exact ⟨rfl, hreason.imp_left And.right⟩
  | cons c tail =>
    left
    rw [hrest, hchars]
    exact fun _ hc => hc

theorem BreaksOff.head_ne_sign {o : Opening rule} (h : o.BreaksOff limit levels start stop cause)
    (hlevels : rule.ownLevels = 0) (hplus : '+' ∈ rule.nonStarters)
    (hminus : '-' ∈ rule.nonStarters) : ∀ c ∈ start.rest.head?, c ≠ '+' ∧ c ≠ '-' := by
  intro c hc
  rcases h.head?_rest with hhead | ⟨-, hrefuses | ⟨hlt, -⟩⟩
  · have hstart := o.notMem_nonStarters_head?_chars c (hhead c hc)
    exact ⟨(ne_of_mem_of_not_mem hplus hstart).symm, (ne_of_mem_of_not_mem hminus hstart).symm⟩
  · have hmem := hrefuses.head_notMem hc
    simp only [List.mem_cons, not_or] at hmem
    exact ⟨hmem.1, hmem.2.1⟩
  · rw [hlevels] at hlt
    cases hlt

/--
The reader of the rule fails on every text that breaks off behind the opening.
-/
def IsFatal (limit : Nat) (o : Opening rule) : Prop :=
  ∀ {levels : Nat} {start stop : Cursor} {cause : SyntaxError},
    o.BreaksOff limit levels start stop cause →
    (rule.reader (.ofLevels limit levels)).read start = .error cause

theorem isFatal_ofTerm {only : Opening .term} (h : only.IsFatal limit) :
    (ofTerm only).IsFatal limit := by
  intro levels start stop cause ho
  exact Reader.read_chain_of_read_eq_error (h ⟨ho.canonical, ho.passes, ho.reason⟩)

theorem isFatal_ofFactor {only : Opening .factor} (h : only.IsFatal limit) :
    (ofFactor only).IsFatal limit := by
  intro levels start stop cause ho
  exact Reader.read_chain_of_read_eq_error (h ⟨ho.canonical, ho.passes, ho.reason⟩)

theorem isFatal_ofBase {only : Opening .primary} (h : only.IsFatal limit) :
    (ofBase only).IsFatal limit := by
  intro levels start stop cause ho
  exact Reader.read_chain_of_read_eq_error (h ⟨ho.canonical, ho.passes, ho.reason⟩)

/--
Every shorter opening of the rule is fatal.
-/
def IsFatalBelow (limit : Nat) (o : Opening rule) : Prop :=
  ∀ o' : Opening rule, o'.chars.length < o.chars.length → o'.IsFatal limit

theorem IsFatal.read_binary {link : Rule} {left : Derivation rule} {o : Opening rule}
    {right : Opening link} {op : BinaryOp} (h : right.IsFatal limit) (hbelow : o.IsFatalBelow limit)
    (ho : o.BreaksOff limit levels start stop cause)
    (hchars : o.chars = left.chars ++ op.symbol :: right.chars)
    (hdepth : o.depth = max left.depth right.depth) (hlevel : o.level = right.level)
    (hresume : ∀ reading, rule.resume (.ofLevels limit levels) reading
      = Reader.extend rule.operator? (link.reader (.ofLevels limit levels)) reading)
    (hrule : op.rule = rule) (hroot : left.endsInRoot = true → op.symbol ≠ '^')
    (hcanonical₁ : left.IsCanonical) (hcanonical₂ : right.IsCanonical) :
    (rule.reader (.ofLevels limit levels)).read start = .error cause := by
  obtain ⟨-, hpasses, hreason⟩ := ho
  rw [hdepth, hlevel] at hreason
  rw [hchars] at hpasses
  obtain ⟨hpasses₁, hpasses⟩ := Cursor.passes_append.mp hpasses
  obtain ⟨hrest, hpasses₂⟩ := Cursor.passes_cons.mp hpasses
  rcases Nat.lt_or_ge levels left.depth with hlt | hdepth₁
  · -- The levels run out on the left side, before the operator is reached.
    obtain ⟨hle, -⟩ | ⟨-, rfl⟩ := hreason
    · exact absurd (Nat.le_trans (Nat.le_max_left ..) hle) (Nat.not_le.mpr hlt)
    obtain ⟨o', ho', hlevel'⟩ := Derivation.exists_opening hcanonical₁
    obtain ⟨back, hback⟩ := ho'.starts
    rw [← hback] at hpasses₁
    refine hbelow o' ?_ ⟨ho'.canonical, (Cursor.passes_append.mp hpasses₁).1, .inr ⟨?_, rfl⟩⟩
    · have hle := ho'.starts.length_le
      rw [hchars, List.length_append, List.length_cons]
      omega
    · rwa [hlevel']
  · generalize start.skip left.chars.length = mid at hpasses₁ hrest hpasses₂
    have hreads : left.Reads levels start ⟨left.tree, mid⟩ :=
      ⟨rfl, hdepth₁, hcanonical₁, hpasses₁.spans⟩
    have hreason₂ := hreason.imp_left (And.imp_left (Nat.le_trans (Nat.le_max_right ..)))
    exact hreads.read_eq_error hresume hrule hrest hroot (h ⟨hcanonical₂, hpasses₂, hreason₂⟩)

theorem isFatal_sum {left : Derivation .expression} {op : BinaryOp} {h : op.rule = .expression}
    {right : Opening .term} (hright : right.IsFatal limit)
    (hbelow : (sum left op h right).IsFatalBelow limit) : (sum left op h right).IsFatal limit := by
  intro levels start stop cause ho
  have hroot := Derivation.symbol_ne_pow h (by decide)
  exact hright.read_binary hbelow ho rfl rfl rfl (fun _ => rfl) h (fun _ => hroot) ho.canonical.1
    ho.canonical.2

theorem isFatal_product {left : Derivation .term} {op : BinaryOp} {h : op.rule = .term}
    {right : Opening .factor} (hright : right.IsFatal limit)
    (hbelow : (product left op h right).IsFatalBelow limit) :
    (product left op h right).IsFatal limit := by
  intro levels start stop cause ho
  have hroot := Derivation.symbol_ne_pow h (by decide)
  exact hright.read_binary hbelow ho rfl rfl rfl (fun _ => rfl) h (fun _ => hroot) ho.canonical.1
    ho.canonical.2

theorem isFatal_power {base : Derivation .powers} {exponent : Opening .operand}
    (hexponent : exponent.IsFatal limit) (hbelow : (power base exponent).IsFatalBelow limit) :
    (power base exponent).IsFatal limit := by
  intro levels start stop cause ho
  obtain ⟨hcanonical₁, hcanonical₂, hroot⟩ := ho.canonical
  have hpow : BinaryOp.pow.rule = .powers := rfl
  exact hexponent.read_binary hbelow ho rfl rfl rfl (fun _ => rfl) hpow (by simp [hroot])
    hcanonical₁ hcanonical₂

/--
Without a level left there is only one reason to break off inside a construct.
-/
theorem BreaksOff.eq_tooDeeplyNested {o : Opening rule}
    (h : o.BreaksOff limit 0 start stop cause) (hdepth : o.depth ≠ 0) :
    cause = .tooDeeplyNested limit := by
  obtain ⟨hle, -⟩ | ⟨-, hcause⟩ := h.reason
  · exact absurd (Nat.le_zero.mp hle) hdepth
  · exact hcause

/--
A text that breaks off behind a construct breaks off inside it with one level less.
-/
theorem BreaksOff.outside {link : Rule} {o : Opening rule}
    (h : o.BreaksOff limit (levels + 1) start stop cause) (front : List Char) (inner : Opening link)
    (hchars : o.chars = front ++ inner.chars) (hdepth : o.depth = inner.depth + 1)
    (hlevel : o.level = inner.level + 1) (hcanonical : inner.IsCanonical) :
    inner.BreaksOff limit levels (start.skip front.length) stop cause := by
  obtain ⟨-, hpasses, hreason⟩ := h
  rw [hdepth, hlevel] at hreason
  rw [hchars] at hpasses
  refine ⟨hcanonical, (Cursor.passes_append.mp hpasses).2, ?_⟩
  exact hreason.imp (And.imp_left Nat.le_of_succ_le_succ) (And.imp_left Nat.lt_of_succ_lt_succ)

theorem isFatal_signedFactor {sign : Sign} {argument : Opening .factor}
    (h : argument.IsFatal limit) : (signedFactor sign argument).IsFatal limit := by
  intro levels start stop cause ho
  cases levels with
  | zero =>
    rw [ho.eq_tooDeeplyNested (Nat.succ_ne_zero _)]
    rfl
  | succ levels =>
    have hrest := (Cursor.passes_cons.mp ho.passes).1
    have hargument := h (ho.outside [sign.symbol] argument rfl rfl rfl ho.canonical)
    exact Reader.read_signs_of_read_eq_error hrest hargument

theorem isFatal_signedOperand {sign : Sign} {argument : Opening .operand}
    (h : argument.IsFatal limit) : (signedOperand sign argument).IsFatal limit := by
  intro levels start stop cause ho
  cases levels with
  | zero =>
    rw [ho.eq_tooDeeplyNested (Nat.succ_ne_zero _)]
    rfl
  | succ levels =>
    have hrest := (Cursor.passes_cons.mp ho.passes).1
    have hargument := h (ho.outside [sign.symbol] argument rfl rfl rfl ho.canonical)
    exact Reader.read_signs_of_read_eq_error hrest hargument

theorem isFatal_ofPowers {only : Opening .powers} (h : only.IsFatal limit) :
    (ofPowers only).IsFatal limit := by
  intro levels start stop cause ho
  cases levels with
  | zero =>
    rw [ho.eq_tooDeeplyNested (Nat.succ_ne_zero _)]
    rfl
  | succ levels =>
    have honly := ho.outside [] only rfl rfl rfl ho.canonical
    have hsigns := honly.head_ne_sign rfl (by decide) (by decide)
    exact (Reader.read_signs_of_forall hsigns).trans (h honly)

theorem isFatal_ofPrimary {only : Opening .primary} (h : only.IsFatal limit) :
    (ofPrimary only).IsFatal limit := by
  intro levels start stop cause ho
  cases levels with
  | zero =>
    rw [ho.eq_tooDeeplyNested (Nat.succ_ne_zero _)]
    rfl
  | succ levels =>
    have honly := ho.outside [] only rfl rfl rfl ho.canonical
    have hsigns := honly.head_ne_sign rfl (by decide) (by decide)
    exact (Reader.read_signs_of_forall hsigns).trans (h honly)

theorem isFatal_gap : gap.IsFatal limit := by
  intro levels start stop cause ho
  obtain ⟨-, ⟨-, rfl⟩, ⟨-, hrefuses⟩ | ⟨hlt, -⟩⟩ := ho
  · exact hrefuses.read_primary _
  · cases hlt

theorem IsFatal.read_group {o : Opening .group} (h : o.IsFatal limit)
    (ho : o.BreaksOff limit levels start stop cause) :
    start.rest = "(".toList ++ (start.skip 1).rest
      ∧ (Nested.ofLevels limit levels).group.read (start.skip 1) = .error cause := by
  have hopen : start.rest = "(".toList ++ (start.skip 1).rest := by
    cases o
    exact (Cursor.passes_cons.mp ho.passes).1
  refine ⟨hopen, ?_⟩
  rw [← h ho]
  exact (Reader.read_afterKeyword_of_append _ _ hopen).symm

theorem isFatal_ofGroup {only : Opening .group} (h : only.IsFatal limit) :
    (ofGroup only).IsFatal limit := by
  intro levels start stop cause ho
  obtain ⟨hopen, hread⟩ := h.read_group ⟨ho.canonical, ho.passes, ho.reason⟩
  exact (Reader.read_afterKeyword_of_append _ _ hopen).trans hread

theorem isFatal_keywordGroup {argument : Opening .group} (h : argument.IsFatal limit) :
    (keywordGroup argument).IsFatal limit := by
  intro levels start stop cause ho
  obtain ⟨⟨hkeyword, -⟩, hpasses⟩ := Cursor.passes_append.mp ho.passes
  obtain ⟨hopen, hread⟩ := h.read_group ⟨ho.canonical, hpasses, ho.reason⟩
  refine (Derivation.read_primary_of_notMem (by rw [hkeyword]; rfl) (by decide)
    (by decide)).trans ?_
  rw [Reader.read_afterKeyword_of_append _ _ hkeyword, Grammar.keywordRoot,
    Reader.read_afterKeyword_of_append _ _ hopen]
  exact Reader.read_map_eq_error_iff.mpr hread

theorem read_keywordRoot_zero (limit : Nat) (start : Cursor) :
    (Grammar.keywordRoot (.ofLevels limit 0)).read start = .error (.tooDeeplyNested limit) := by
  simp only [Grammar.keywordRoot, Reader.afterKeyword]
  split <;> rfl

theorem isFatal_keywordFactor {argument : Opening .factor} (h : argument.IsFatal limit) :
    (keywordFactor argument).IsFatal limit := by
  intro levels start stop cause ho
  obtain ⟨⟨hkeyword, -⟩, hpasses⟩ := Cursor.passes_append.mp ho.passes
  have hargument : argument.BreaksOff limit levels (start.skip "sqrt".toList.length) stop cause :=
    ⟨ho.canonical.1, hpasses, ho.reason⟩
  refine (Derivation.read_primary_of_notMem (by rw [hkeyword]; rfl) (by decide)
    (by decide)).trans ?_
  rw [Reader.read_afterKeyword_of_append _ _ hkeyword]
  by_cases hopen : (start.skip "sqrt".toList.length).rest.head? = some '('
  · -- No argument that is read as a factor starts there, so the levels have run out for any.
    rcases hargument.head?_rest with hchars | ⟨-, hrefuses | ⟨hlt, rfl⟩⟩
    · exact absurd (hchars '(' hopen) ho.canonical.2
    · exact absurd (hrefuses.head_notMem hopen) (by decide)
    · obtain rfl : levels = 0 := Nat.lt_one_iff.mp hlt
      exact read_keywordRoot_zero limit _
  · rw [Grammar.keywordRoot, Reader.read_afterKeyword_of_head_ne '(' rfl hopen]
    exact Reader.read_map_eq_error_iff.mpr (h hargument)

theorem isFatal_radical {argument : Opening .factor} (h : argument.IsFatal limit) :
    (radical argument).IsFatal limit := by
  intro levels start stop cause ho
  obtain ⟨hrest, hpasses⟩ := Cursor.passes_cons.mp ho.passes
  refine (Derivation.read_primary_of_notMem (by rw [hrest]; rfl) (by decide) (by decide)).trans ?_
  rw [Reader.read_afterKeyword_of_head_ne 's' rfl (by simp [hrest]),
    Reader.read_afterKeyword_of_append _ _ hrest]
  exact Reader.read_map_eq_error_iff.mpr (h ⟨ho.canonical, hpasses, ho.reason⟩)

theorem isFatal_group {body : Opening .expression} (h : body.IsFatal limit) :
    (group body).IsFatal limit := by
  intro levels start stop cause ho
  have hopen := (Cursor.passes_cons.mp ho.passes).1
  refine (Reader.read_afterKeyword_of_append _ _ hopen).trans ?_
  cases levels with
  | zero =>
    rw [ho.eq_tooDeeplyNested (Nat.succ_ne_zero _)]
    rfl
  | succ levels =>
    have hbody := h (ho.outside ['('] body rfl rfl rfl ho.canonical)
    exact Reader.read_map_eq_error_iff.mpr (Reader.read_closing_eq_error_iff.mpr hbody)

theorem isFatal_of_shorter {o : Opening rule}
    (shorter : ∀ {rule : Rule} (o' : Opening rule), o'.chars.length < o.chars.length →
      o'.IsFatal limit) : o.IsFatal limit := by
  induction o with
  | ofTerm _ ih => exact isFatal_ofTerm (ih shorter)
  | sum _ _ _ right => exact isFatal_sum (shorter right (by simp [chars]; omega)) shorter
  | ofFactor _ ih => exact isFatal_ofFactor (ih shorter)
  | product _ _ _ right => exact isFatal_product (shorter right (by simp [chars]; omega)) shorter
  | signedFactor _ argument => exact isFatal_signedFactor (shorter argument (by simp [chars]))
  | ofPowers _ ih => exact isFatal_ofPowers (ih shorter)
  | ofBase _ ih => exact isFatal_ofBase (ih shorter)
  | power _ exponent => exact isFatal_power (shorter exponent (by simp [chars]; omega)) shorter
  | signedOperand _ argument => exact isFatal_signedOperand (shorter argument (by simp [chars]))
  | ofPrimary _ ih => exact isFatal_ofPrimary (ih shorter)
  | gap => exact isFatal_gap
  | ofGroup _ ih => exact isFatal_ofGroup (ih shorter)
  | keywordGroup argument => exact isFatal_keywordGroup (shorter argument (by simp [chars]; omega))
  | keywordFactor argument =>
    exact isFatal_keywordFactor (shorter argument (by simp [chars]; omega))
  | radical argument => exact isFatal_radical (shorter argument (by simp [chars]))
  | group body => exact isFatal_group (shorter body (by simp [chars]))

theorem isFatal (limit : Nat) {rule : Rule} (o : Opening rule) : o.IsFatal limit := by
  -- The opening inside the left side of an operator is no part of `o`, but it is shorter.
  induction hn : o.chars.length using Nat.strongRecOn generalizing rule o with
  | ind n ih =>
    subst hn
    exact isFatal_of_shorter fun o' hlt => ih _ hlt o' rfl

end Opening

end Calculator
