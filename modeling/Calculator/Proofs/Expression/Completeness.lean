import Calculator.Proofs.Expression.Reading

/-!
This module contains the completeness of the grammar's readers: the text of a canonical derivation
is read as its tree, whatever follows that cannot be part of it.
-/

namespace Calculator

namespace Numeral

variable {n : Numeral}

theorem isNumeric_of_mem_chars (h : n.IsWellFormed) {c : Char} (hc : c ∈ n.chars) :
    Cursor.isNumeric c = true := by
  have hdigit : ∀ c ∈ n.whole ++ n.fraction, c.isDigit = true := List.all_eq_true.mp h.1
  obtain ⟨whole, fraction?⟩ := n
  cases fraction? with
  | none => simp [Cursor.isNumeric, hdigit c (List.mem_append_left _ hc)]
  | some fraction =>
    rcases List.mem_append.mp hc with hc | hc
    · simp [Cursor.isNumeric, hdigit c (List.mem_append_left _ hc)]
    rcases List.mem_cons.mp hc with rfl | hc
    · rfl
    · simp [Cursor.isNumeric, hdigit c (List.mem_append_right _ hc)]

theorem chars_ne_nil (h : n.IsWellFormed) : n.chars ≠ [] := by
  obtain ⟨whole, fraction?⟩ := n
  cases fraction? with
  | none => simpa [IsWellFormed, fraction, chars] using h.2
  | some fraction => simp [chars]

end Numeral

namespace Cursor

variable {start next : Cursor} {chars : List Char}

theorem Spans.head?_rest (h : Spans chars start next) {c : Char} (hc : c ∈ chars.head?)
    (hne : c ≠ ')') : start.rest.head? = some c := by
  obtain ⟨tail, rfl⟩ := List.head?_eq_some_iff.mp hc
  rw [spans_cons hne] at h
  rw [h.1, List.head?_cons]

theorem number_of_rest_eq_append {rest : List Char} (h : start.rest = chars ++ rest)
    (hchars : ∀ c ∈ chars, isNumeric c = true) (hrest : ∀ c ∈ rest.head?, isNumeric c = false) :
    start.number = chars := by
  rw [number, h, List.takeWhile_append_of_pos hchars]
  cases rest with
  | nil => simp
  | cons c rest => simp [hrest c rfl]

end Cursor

def Rule.nonStarters : Rule → List Char
  | .powers | .primary => ['+', '-', ')']
  | _ => [')']

theorem Rule.closing_mem_nonStarters (rule : Rule) : ')' ∈ rule.nonStarters := by
  cases rule <;> decide

theorem exists_mem_head?_append {α : Type} {p : α → Prop} {front : List α} (back : List α)
    (h : ∃ a ∈ front.head?, p a) : ∃ a ∈ (front ++ back).head?, p a := by
  obtain ⟨a, ha, hp⟩ := h
  obtain ⟨tail, rfl⟩ := List.head?_eq_some_iff.mp ha
  exact ⟨a, rfl, hp⟩

theorem Derivation.exists_head?_chars {rule : Rule} (d : Derivation rule) :
    ∃ c ∈ d.chars.head?, c ∉ rule.nonStarters := by
  induction d with
  | ofTerm _ ih | ofFactor _ ih | ofBase _ ih => exact ih
  | ofPowers _ ih | ofPrimary _ ih =>
    obtain ⟨c, hc, hstart⟩ := ih
    refine ⟨c, hc, ?_⟩
    simp only [Rule.nonStarters, List.mem_cons, not_or] at hstart ⊢
    exact hstart.2.2
  | ofGroup only =>
    cases only
    exact ⟨'(', rfl, by decide⟩
  | sum left op _ _ ih | product left op _ _ ih => exact exists_mem_head?_append _ ih
  | power base _ ih => exact exists_mem_head?_append _ ih
  | signedFactor sign | signedOperand sign =>
    refine ⟨sign.symbol, rfl, ?_⟩
    cases sign <;> decide
  | number numeral h =>
    obtain ⟨c, tail, hchars⟩ := List.exists_cons_of_ne_nil (Numeral.chars_ne_nil h)
    have hnumeric := Numeral.isNumeric_of_mem_chars h (hchars ▸ List.mem_cons_self : c ∈ _)
    refine ⟨c, by simp [chars, hchars], ?_⟩
    intro hmem
    simp only [Rule.nonStarters, List.mem_cons, List.not_mem_nil, or_false] at hmem
    rcases hmem with rfl | rfl | rfl <;> revert hnumeric <;> decide
  | keywordGroup | keywordFactor => exact ⟨'s', rfl, by decide⟩
  | radical => exact ⟨'√', rfl, by decide⟩
  | group => exact ⟨'(', rfl, by decide⟩

namespace Reader

variable {start : Cursor} {inner right : Reading} {reader argument otherwise : Reader}

theorem read_map_of_read (f : Expr → Expr) (h : reader.read start = .ok inner) :
    (reader.map f).read start = .ok ⟨f inner.expr, inner.next⟩ := by
  simp only [map, h, Except.map]

theorem read_closing_of_read (h : reader.read start = .ok inner) :
    reader.closing.read start
      = .ok { inner with next := (inner.next.eatKeyword? ")").getD inner.next } := by
  simp only [closing, h, Except.map]

theorem read_signs_of_read {sign : Sign} (hrest : start.rest = sign.symbol :: (start.skip 1).rest)
    (h : argument.read (start.skip 1) = .ok inner) :
    (afterKeyword "+" (argument.map (.signed .plus))
      (afterKeyword "-" (argument.map (.signed .minus)) otherwise)).read start
      = .ok ⟨.signed sign inner.expr, inner.next⟩ := by
  cases sign with
  | plus =>
    rw [read_afterKeyword_of_append _ _ hrest]
    exact read_map_of_read _ h
  | minus =>
    rw [read_afterKeyword_of_head_ne '+' rfl (by simp [hrest, Sign.symbol]),
      read_afterKeyword_of_append _ _ hrest]
    exact read_map_of_read _ h

theorem read_signs_of_head {c : Char} (hc : c ∈ start.rest.head?) (hplus : c ≠ '+')
    (hminus : c ≠ '-') :
    (afterKeyword "+" (argument.map (.signed .plus))
      (afterKeyword "-" (argument.map (.signed .minus)) otherwise)).read start
      = otherwise.read start := by
  rw [Option.mem_def] at hc
  rw [read_afterKeyword_of_head_ne '+' rfl (by simpa [hc] using hplus),
    read_afterKeyword_of_head_ne '-' rfl (by simpa [hc] using hminus)]

theorem extend_of_read {rule : Rule} {operand : Reader} {op : BinaryOp} (left : Reading)
    (hrule : op.rule = rule)
    (hrest : left.next.rest = op.symbol :: (left.next.skip 1).rest)
    (h : operand.read (left.next.skip 1) = .ok right) :
    extend rule.operator? operand left
      = extend rule.operator? operand ⟨.binary op left.expr right.expr, right.next⟩ := by
  refine extend_of_eatMap?_eq_some ?_ h
  exact Cursor.eatMap?_eq_some_iff.mpr
    ⟨op.symbol, hrest, Rule.operator?_eq_some_iff.mpr ⟨rfl, hrule⟩, rfl⟩

end Reader

/--
What is left to do for a rule whose reader has come as far as `reading`: only chains go on.
-/
def Rule.resume (inner : Nested) (reading : Reading) : Rule → Except SyntaxError Reading
  | .expression => Reader.extend BinaryOp.additive? (Grammar.term inner) reading
  | .term => Reader.extend BinaryOp.multiplicative? inner.factor reading
  | .powers => Reader.extend BinaryOp.power? inner.operand reading
  | _ => .ok reading

theorem Rule.resume_eq_ok {rule : Rule} {inner : Nested} {reading : Reading}
    (h : ∀ c ∈ reading.next.rest.head?, c ∉ rule.operators) :
    rule.resume inner reading = .ok reading := by
  have hop : reading.next.eatMap? rule.operator? = none := by
    rw [Cursor.eatMap?_eq_none_iff]
    intro c hc
    rw [Option.eq_none_iff_forall_ne_some]
    intro op hop
    obtain ⟨rfl, rfl⟩ := Rule.operator?_eq_some_iff.mp hop
    have := h _ hc
    revert this
    cases op <;> decide
  cases rule with
  | expression | term | powers => exact Reader.extend_of_eatMap?_eq_none hop
  | factor | operand | primary | group => rfl

namespace Derivation

variable {rule : Rule} {limit levels : Nat} {start : Cursor} {result : Reading}

theorem StopsAt.link {d : Derivation rule} {rest : List Char} (h : d.StopsAt rule rest) :
    d.StopsAt rule.link rest := by
  intro c hc
  obtain ⟨hop, hroot⟩ := h c hc
  refine ⟨?_, hroot⟩
  intro hlink
  apply hop
  cases rule with
  | expression | term =>
    simp only [Rule.link, Rule.operators, List.mem_cons, List.not_mem_nil, or_false] at hlink ⊢
    simp [hlink]
  | powers => cases hlink
  | factor | operand | primary | group => exact hlink

/--
The reader of the rule comes as far as the end of `d`, at which none of its links goes on.
-/
def IsRead (limit : Nat) (d : Derivation rule) : Prop :=
  ∀ {levels : Nat} {start : Cursor} {result : Reading}, d.Reads levels start result →
    d.StopsAt rule.link result.next.rest →
    (∀ c ∈ result.next.rest.head?, Cursor.isNumeric c = false) →
    (rule.reader (.ofLevels limit levels)).read start
      = rule.resume (.ofLevels limit levels) result

theorem IsRead.read_eq_ok {d : Derivation rule} (h : d.IsRead limit)
    (hreads : d.Reads levels start result) (hstops : d.StopsAt rule result.next.rest)
    (hnumber : ∀ c ∈ result.next.rest.head?, Cursor.isNumeric c = false) :
    (rule.reader (.ofLevels limit levels)).read start = .ok result := by
  rw [h hreads hstops.link hnumber]
  exact Rule.resume_eq_ok (fun c hc => (hstops c hc).1)

theorem isRead_ofTerm {only : Derivation .term} (h : only.IsRead limit) :
    (ofTerm only).IsRead limit := by
  intro levels start result hreads hstops hnumber
  have honly : only.Reads levels start result :=
    ⟨hreads.tree, hreads.depth_le, hreads.canonical, hreads.spans⟩
  exact Reader.read_chain_of_read (h.read_eq_ok honly hstops hnumber)

theorem isRead_ofFactor {only : Derivation .factor} (h : only.IsRead limit) :
    (ofFactor only).IsRead limit := by
  intro levels start result hreads hstops hnumber
  have honly : only.Reads levels start result :=
    ⟨hreads.tree, hreads.depth_le, hreads.canonical, hreads.spans⟩
  exact Reader.read_chain_of_read (h.read_eq_ok honly hstops hnumber)

theorem isRead_ofBase {only : Derivation .primary} (h : only.IsRead limit) :
    (ofBase only).IsRead limit := by
  intro levels start result hreads hstops hnumber
  have honly : only.Reads levels start result :=
    ⟨hreads.tree, hreads.depth_le, hreads.canonical, hreads.spans⟩
  exact Reader.read_chain_of_read (h.read_eq_ok honly hstops hnumber)

theorem isNumeric_symbol (op : BinaryOp) : Cursor.isNumeric op.symbol = false := by
  cases op <;> rfl

theorem symbol_notMem_operators (op : BinaryOp) : op.symbol ∉ op.rule.link.operators := by
  cases op <;> decide

theorem IsRead.read_eq_extend {left : Derivation rule} (h : left.IsRead limit) {mid : Cursor}
    {op : BinaryOp} (hreads : left.Reads levels start ⟨left.tree, mid⟩) (hrule : op.rule = rule)
    (hrest : mid.rest = op.symbol :: (mid.skip 1).rest)
    (hroot : left.endsInRoot = true → op.symbol ≠ '^') :
    (rule.reader (.ofLevels limit levels)).read start
      = rule.resume (.ofLevels limit levels) ⟨left.tree, mid⟩ := by
  apply h hreads
  · intro c hc
    obtain rfl : op.symbol = c := by simpa [hrest] using hc
    exact ⟨hrule ▸ symbol_notMem_operators op, hroot⟩
  · intro c hc
    obtain rfl : op.symbol = c := by simpa [hrest] using hc
    exact isNumeric_symbol op

theorem IsRead.read_binary {link : Rule} {left : Derivation rule} {right : Derivation link}
    {op : BinaryOp} {next : Cursor} (hleft : left.IsRead limit) (hright : right.IsRead limit)
    (hresume : ∀ reading, rule.resume (.ofLevels limit levels) reading
      = Reader.extend rule.operator? (link.reader (.ofLevels limit levels)) reading)
    (hrule : op.rule = rule) (hroot : left.endsInRoot = true → op.symbol ≠ '^')
    (hdepth : max left.depth right.depth ≤ levels) (hcanonical₁ : left.IsCanonical)
    (hcanonical₂ : right.IsCanonical)
    (hspans : Cursor.Spans (left.chars ++ op.symbol :: right.chars) start next)
    (hstops : right.StopsAt link next.rest)
    (hnumber : ∀ c ∈ next.rest.head?, Cursor.isNumeric c = false) :
    (rule.reader (.ofLevels limit levels)).read start
      = rule.resume (.ofLevels limit levels) ⟨.binary op left.tree right.tree, next⟩ := by
  obtain ⟨hdepth₁, hdepth₂⟩ := Nat.max_le.mp hdepth
  obtain ⟨mid, hspans₁, hrest, hspans₂⟩ := Cursor.spans_append_cons op.symbol_ne_closing hspans
  have hreads₁ : left.Reads levels start ⟨left.tree, mid⟩ := ⟨rfl, hdepth₁, hcanonical₁, hspans₁⟩
  have hreads₂ : right.Reads levels (mid.skip 1) ⟨right.tree, next⟩ :=
    ⟨rfl, hdepth₂, hcanonical₂, hspans₂⟩
  -- Up to the operator the chain is read as `left`, and then its repetition takes one link more.
  rw [hleft.read_eq_extend hreads₁ hrule hrest hroot, hresume, hresume]
  exact Reader.extend_of_read ⟨left.tree, mid⟩ hrule hrest
    (hright.read_eq_ok hreads₂ hstops hnumber)

theorem symbol_ne_pow {op : BinaryOp} (h : op.rule = rule) (hrule : rule ≠ .powers) :
    op.symbol ≠ '^' := by
  cases op with
  | pow => exact absurd h.symm hrule
  | add | sub | mul | div | mod => decide

theorem isRead_sum {left : Derivation .expression} {op : BinaryOp} {h : op.rule = .expression}
    {right : Derivation .term} (hleft : left.IsRead limit) (hright : right.IsRead limit) :
    (sum left op h right).IsRead limit := by
  rintro levels start ⟨_, next⟩ ⟨rfl, hdepth, ⟨hcanonical₁, hcanonical₂⟩, hspans⟩ hstops hnumber
  have hroot := symbol_ne_pow h (by decide)
  exact hleft.read_binary hright (fun _ => rfl) h (fun _ => hroot) hdepth hcanonical₁ hcanonical₂
    hspans hstops hnumber

theorem isRead_product {left : Derivation .term} {op : BinaryOp} {h : op.rule = .term}
    {right : Derivation .factor} (hleft : left.IsRead limit) (hright : right.IsRead limit) :
    (product left op h right).IsRead limit := by
  rintro levels start ⟨_, next⟩ ⟨rfl, hdepth, ⟨hcanonical₁, hcanonical₂⟩, hspans⟩ hstops hnumber
  have hroot := symbol_ne_pow h (by decide)
  exact hleft.read_binary hright (fun _ => rfl) h (fun _ => hroot) hdepth hcanonical₁ hcanonical₂
    hspans hstops hnumber

theorem isRead_power {base : Derivation .powers} {exponent : Derivation .operand}
    (hbase : base.IsRead limit) (hexponent : exponent.IsRead limit) :
    (power base exponent).IsRead limit := by
  rintro levels start ⟨_, next⟩ ⟨rfl, hdepth, ⟨hcanonical₁, hcanonical₂, hroot⟩, hspans⟩ hstops
    hnumber
  have hpow : BinaryOp.pow.rule = .powers := rfl
  exact hbase.read_binary hexponent (fun _ => rfl) hpow (by simp [hroot]) hdepth hcanonical₁
    hcanonical₂ hspans hstops hnumber

theorem IsRead.read_signed {argument : Derivation rule} {sign : Sign} {next : Cursor}
    {otherwise : Reader} (h : argument.IsRead limit) (hdepth : argument.depth ≤ levels)
    (hcanonical : argument.IsCanonical)
    (hspans : Cursor.Spans (sign.symbol :: argument.chars) start next)
    (hstops : argument.StopsAt rule next.rest)
    (hnumber : ∀ c ∈ next.rest.head?, Cursor.isNumeric c = false) :
    (Reader.afterKeyword "+" ((rule.reader (.ofLevels limit levels)).map (.signed .plus))
      (.afterKeyword "-" ((rule.reader (.ofLevels limit levels)).map (.signed .minus))
        otherwise)).read start
      = .ok ⟨.signed sign argument.tree, next⟩ := by
  rw [Cursor.spans_cons sign.symbol_ne_closing] at hspans
  have hreads : argument.Reads levels (start.skip 1) ⟨argument.tree, next⟩ :=
    ⟨rfl, hdepth, hcanonical, hspans.2⟩
  exact Reader.read_signs_of_read hspans.1 (h.read_eq_ok hreads hstops hnumber)

theorem isRead_signedFactor {sign : Sign} {argument : Derivation .factor}
    (h : argument.IsRead limit) : (signedFactor sign argument).IsRead limit := by
  rintro levels start ⟨_, next⟩ ⟨rfl, hdepth, hcanonical, hspans⟩ hstops hnumber
  cases levels with
  | zero => cases hdepth
  | succ levels =>
    exact h.read_signed (Nat.le_of_succ_le_succ hdepth) hcanonical hspans hstops hnumber

theorem isRead_signedOperand {sign : Sign} {argument : Derivation .operand}
    (h : argument.IsRead limit) : (signedOperand sign argument).IsRead limit := by
  rintro levels start ⟨_, next⟩ ⟨rfl, hdepth, hcanonical, hspans⟩ hstops hnumber
  cases levels with
  | zero => cases hdepth
  | succ levels =>
    exact h.read_signed (Nat.le_of_succ_le_succ hdepth) hcanonical hspans hstops hnumber

theorem Reads.exists_head?_rest {d : Derivation rule} (h : d.Reads levels start result) :
    ∃ c ∈ start.rest.head?, c ∉ rule.nonStarters := by
  obtain ⟨c, hc, hstart⟩ := d.exists_head?_chars
  refine ⟨c, h.spans.head?_rest hc ?_, hstart⟩
  rintro rfl
  exact hstart (Rule.closing_mem_nonStarters rule)

theorem IsRead.read_unsigned {only : Derivation rule} {argument : Reader} {next : Cursor}
    (h : only.IsRead limit) (hplus : '+' ∈ rule.nonStarters) (hminus : '-' ∈ rule.nonStarters)
    (hdepth : only.depth ≤ levels) (hcanonical : only.IsCanonical)
    (hspans : Cursor.Spans only.chars start next) (hstops : only.StopsAt rule next.rest)
    (hnumber : ∀ c ∈ next.rest.head?, Cursor.isNumeric c = false) :
    (Reader.afterKeyword "+" (argument.map (.signed .plus))
      (.afterKeyword "-" (argument.map (.signed .minus))
        (rule.reader (.ofLevels limit levels)))).read start
      = .ok ⟨only.tree, next⟩ := by
  have hreads : only.Reads levels start ⟨only.tree, next⟩ := ⟨rfl, hdepth, hcanonical, hspans⟩
  obtain ⟨c, hc, hstart⟩ := hreads.exists_head?_rest
  rw [Reader.read_signs_of_head hc]
  · exact h.read_eq_ok hreads hstops hnumber
  · exact (ne_of_mem_of_not_mem hplus hstart).symm
  · exact (ne_of_mem_of_not_mem hminus hstart).symm

theorem isRead_ofPowers {only : Derivation .powers} (h : only.IsRead limit) :
    (ofPowers only).IsRead limit := by
  rintro levels start ⟨_, next⟩ ⟨rfl, hdepth, hcanonical, hspans⟩ hstops hnumber
  cases levels with
  | zero => cases hdepth
  | succ levels =>
    exact h.read_unsigned (by decide) (by decide) (Nat.le_of_succ_le_succ hdepth) hcanonical hspans
      hstops hnumber

theorem isRead_ofPrimary {only : Derivation .primary} (h : only.IsRead limit) :
    (ofPrimary only).IsRead limit := by
  rintro levels start ⟨_, next⟩ ⟨rfl, hdepth, hcanonical, hspans⟩ hstops hnumber
  cases levels with
  | zero => cases hdepth
  | succ levels =>
    exact h.read_unsigned (by decide) (by decide) (Nat.le_of_succ_le_succ hdepth) hcanonical hspans
      hstops hnumber

theorem StopsAt.argument {d : Derivation .primary} {argument : Derivation .factor}
    {rest : List Char} (h : d.StopsAt .primary rest) (hroot : d.endsInRoot = true) :
    argument.StopsAt .factor rest := by
  intro c hc
  have hne := (h c hc).2 hroot
  exact ⟨by simpa [Rule.operators] using hne, fun _ => hne⟩

theorem read_primary_of_notMem {inner : Nested} {c : Char} (hc : c ∈ start.rest.head?)
    (hopen : c ≠ '(') (hnumber : Cursor.isNumeric c = false) :
    (Grammar.primary inner).read start
      = (Reader.afterKeyword "sqrt" (Grammar.keywordRoot inner) <|
          .afterKeyword "√" (inner.factor.map (.root .radical)) <| .noOperand).read start := by
  rw [Option.mem_def] at hc
  refine (Reader.read_afterKeyword_of_head_ne '(' rfl (by simpa [hc] using hopen)).trans ?_
  obtain ⟨tail, hrest⟩ := List.head?_eq_some_iff.mp hc
  have hnil : start.number = [] := by simp [Cursor.number, hrest, hnumber]
  simp only [Reader.numberOr, hnil, if_true]

theorem IsRead.read_group {d : Derivation .group} (h : d.IsRead limit)
    (hreads : d.Reads levels start result)
    (hnumber : ∀ c ∈ result.next.rest.head?, Cursor.isNumeric c = false) :
    start.rest = "(".toList ++ (start.skip 1).rest
      ∧ (Nested.ofLevels limit levels).group.read (start.skip 1) = .ok result := by
  have hopen : start.rest = "(".toList ++ (start.skip 1).rest := by
    cases d
    exact ((Cursor.spans_cons (by decide)).mp hreads.spans).1
  have hstops : d.StopsAt .group result.next.rest := by
    cases d
    intro c _
    exact ⟨List.not_mem_nil, nofun⟩
  refine ⟨hopen, ?_⟩
  rw [← h.read_eq_ok hreads hstops hnumber]
  exact (Reader.read_afterKeyword_of_append _ _ hopen).symm

theorem isRead_ofGroup {only : Derivation .group} (h : only.IsRead limit) :
    (ofGroup only).IsRead limit := by
  rintro levels start ⟨_, next⟩ ⟨rfl, hdepth, hcanonical, hspans⟩ - hnumber
  have hreads : only.Reads levels start ⟨only.tree, next⟩ := ⟨rfl, hdepth, hcanonical, hspans⟩
  obtain ⟨hopen, hread⟩ := h.read_group hreads hnumber
  exact (Reader.read_afterKeyword_of_append _ _ hopen).trans hread

theorem isRead_number {numeral : Numeral} {h : numeral.IsWellFormed} :
    (number numeral h).IsRead limit := by
  rintro levels start ⟨_, next⟩ ⟨rfl, -, -, hspans⟩ - hnumber
  have hchars : ∀ c ∈ numeral.chars, Cursor.isNumeric c = true :=
    fun c => Numeral.isNumeric_of_mem_chars h
  have hclosing : ')' ∉ numeral.chars := by
    intro hmem
    cases hchars ')' hmem
  obtain ⟨hrest, rfl⟩ := (Cursor.spans_of_notMem hclosing).mp hspans
  have hopen : start.rest.head? ≠ some '(' := by
    obtain ⟨c, tail, hcons⟩ := List.exists_cons_of_ne_nil (Numeral.chars_ne_nil h)
    rw [hrest, hcons]
    rintro ⟨⟩
    cases hchars '(' (hcons ▸ List.mem_cons_self)
  refine (Reader.read_afterKeyword_of_head_ne '(' rfl hopen).trans ?_
  have hliteral := Cursor.number_of_rest_eq_append hrest hchars hnumber
  simp only [Reader.numberOr, Cursor.skipNumber, hliteral, Numeral.chars_ne_nil h, if_false,
    Numeral.ofChars?_chars h]
  rfl

theorem isRead_keywordGroup {argument : Derivation .group} (h : argument.IsRead limit) :
    (keywordGroup argument).IsRead limit := by
  rintro levels start ⟨_, next⟩ ⟨rfl, hdepth, hcanonical, hspans⟩ - hnumber
  obtain ⟨hkeyword, hspans⟩ := (Cursor.spans_append_of_notMem (by decide)).mp hspans
  have hreads : argument.Reads levels (start.skip "sqrt".toList.length) ⟨argument.tree, next⟩ :=
    ⟨rfl, hdepth, hcanonical, hspans⟩
  obtain ⟨hopen, hread⟩ := h.read_group hreads hnumber
  refine (read_primary_of_notMem (by rw [hkeyword]; rfl) (by decide) (by decide)).trans ?_
  rw [Reader.read_afterKeyword_of_append _ _ hkeyword, Grammar.keywordRoot,
    Reader.read_afterKeyword_of_append _ _ hopen]
  exact Reader.read_map_of_read _ hread

theorem isRead_keywordFactor {argument : Derivation .factor} (h : argument.IsRead limit) :
    (keywordFactor argument).IsRead limit := by
  rintro levels start ⟨_, next⟩ ⟨rfl, hdepth, ⟨hcanonical, hgroup⟩, hspans⟩ hstops hnumber
  obtain ⟨hkeyword, hspans⟩ := (Cursor.spans_append_of_notMem (by decide)).mp hspans
  have hreads : argument.Reads levels (start.skip "sqrt".toList.length) ⟨argument.tree, next⟩ :=
    ⟨rfl, hdepth, hcanonical, hspans⟩
  have hopen : (start.skip "sqrt".toList.length).rest.head? ≠ some '(' := by
    obtain ⟨c, hc, hstart⟩ := argument.exists_head?_chars
    have hrest := hspans.head?_rest hc (by simpa [Rule.nonStarters] using hstart)
    rw [hrest, ← Option.mem_def.mp hc]
    exact hgroup
  refine (read_primary_of_notMem (by rw [hkeyword]; rfl) (by decide) (by decide)).trans ?_
  rw [Reader.read_afterKeyword_of_append _ _ hkeyword, Grammar.keywordRoot,
    Reader.read_afterKeyword_of_head_ne '(' rfl hopen]
  exact Reader.read_map_of_read _ (h.read_eq_ok hreads (hstops.argument rfl) hnumber)

theorem isRead_radical {argument : Derivation .factor} (h : argument.IsRead limit) :
    (radical argument).IsRead limit := by
  rintro levels start ⟨_, next⟩ ⟨rfl, hdepth, hcanonical, hspans⟩ hstops hnumber
  obtain ⟨hrest, hspans⟩ := (Cursor.spans_cons (by decide)).mp hspans
  have hreads : argument.Reads levels (start.skip 1) ⟨argument.tree, next⟩ :=
    ⟨rfl, hdepth, hcanonical, hspans⟩
  refine (read_primary_of_notMem (by rw [hrest]; rfl) (by decide) (by decide)).trans ?_
  rw [Reader.read_afterKeyword_of_head_ne 's' rfl (by simp [hrest]),
    Reader.read_afterKeyword_of_append _ _ hrest]
  exact Reader.read_map_of_read _ (h.read_eq_ok hreads (hstops.argument rfl) hnumber)

theorem stopsAt_blocked {d : Derivation .expression} {next : Cursor} (h : next.Blocked) :
    d.StopsAt .expression next.rest := by
  intro c hc
  have hmem := h c hc
  simp only [Cursor.continuations, Rule.operators, List.mem_cons, not_or] at hmem ⊢
  simp [hmem]

theorem stopsAt_closing {d : Derivation .expression} {rest tail : List Char}
    (h : rest = ')' :: tail) : d.StopsAt .expression rest := by
  rintro c hc
  obtain rfl : ')' = c := by simpa [h] using hc
  exact ⟨by decide, fun _ => by decide⟩

theorem isRead_group {body : Derivation .expression} (h : body.IsRead limit) :
    (group body).IsRead limit := by
  rintro levels start ⟨_, next⟩ ⟨rfl, hdepth, hcanonical, hspans⟩ - hnumber
  cases levels with
  | zero => cases hdepth
  | succ levels =>
    obtain ⟨hopen, hspans⟩ := (Cursor.spans_cons (by decide)).mp hspans
    have hdepth := Nat.le_of_succ_le_succ hdepth
    refine (Reader.read_afterKeyword_of_append _ _ hopen).trans ?_
    rcases Cursor.spans_append_singleton.mp hspans with ⟨mid, hbody, hrest, rfl⟩ | ⟨hbody, hblocked⟩
    · have hreads : body.Reads levels (start.skip 1) ⟨body.tree, mid⟩ :=
        ⟨rfl, hdepth, hcanonical, hbody⟩
      have hread := h.read_eq_ok hreads (stopsAt_closing hrest) (by simp [hrest, Cursor.isNumeric])
      refine (Reader.read_map_of_read _ (Reader.read_closing_of_read hread)).trans ?_
      rw [Cursor.eatKeyword?_of_append hrest]
      rfl
    · have hreads : body.Reads levels (start.skip 1) ⟨body.tree, next⟩ :=
        ⟨rfl, hdepth, hcanonical, hbody⟩
      have hread := h.read_eq_ok hreads (stopsAt_blocked hblocked) hnumber
      refine (Reader.read_map_of_read _ (Reader.read_closing_of_read hread)).trans ?_
      have hclosing : next.rest.head? ≠ some ')' := fun hhead => hblocked ')' hhead (by decide)
      rw [Cursor.eatKeyword?_of_head_ne rfl hclosing]
      rfl

theorem isRead (limit : Nat) {rule : Rule} (d : Derivation rule) : d.IsRead limit := by
  induction d with
  | ofTerm _ ih => exact isRead_ofTerm ih
  | sum _ _ _ _ ihLeft ihRight => exact isRead_sum ihLeft ihRight
  | ofFactor _ ih => exact isRead_ofFactor ih
  | product _ _ _ _ ihLeft ihRight => exact isRead_product ihLeft ihRight
  | signedFactor _ _ ih => exact isRead_signedFactor ih
  | ofPowers _ ih => exact isRead_ofPowers ih
  | ofBase _ ih => exact isRead_ofBase ih
  | power _ _ ihBase ihExponent => exact isRead_power ihBase ihExponent
  | signedOperand _ _ ih => exact isRead_signedOperand ih
  | ofPrimary _ ih => exact isRead_ofPrimary ih
  | ofGroup _ ih => exact isRead_ofGroup ih
  | number => exact isRead_number
  | keywordGroup _ ih => exact isRead_keywordGroup ih
  | keywordFactor _ ih => exact isRead_keywordFactor ih
  | radical _ ih => exact isRead_radical ih
  | group _ ih => exact isRead_group ih

end Derivation

end Calculator
