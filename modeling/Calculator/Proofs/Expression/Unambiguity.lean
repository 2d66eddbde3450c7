import Calculator.Proofs.Expression.Completeness

/-!
This module contains what the text of a derivation determines: the parentheses that it lacks, the
numbers in it and, through the tree that is read, the canonical derivation itself.
-/

namespace Calculator

theorem numericRuns_append_cons {c : Char} (h : Cursor.isNumeric c = false)
    (front back : List Char) :
    numericRuns (front ++ c :: back) = numericRuns front ++ numericRuns back := by
  unfold numericRuns
  rw [List.splitOnP_append_cons _ _ (by simp [h]), List.filter_append]

theorem numericRuns_cons {c : Char} (h : Cursor.isNumeric c = false) (back : List Char) :
    numericRuns (c :: back) = numericRuns back :=
  numericRuns_append_cons h [] back

theorem numericRuns_of_forall {text : List Char} (hne : text ≠ [])
    (h : ∀ c ∈ text, Cursor.isNumeric c = true) : numericRuns text = [text] := by
  unfold numericRuns
  rw [List.splitOnP_eq_singleton (by simpa using h)]
  simp [hne]

theorem numericRuns_keyword (back : List Char) :
    numericRuns ("sqrt".toList ++ back) = numericRuns back := by
  have hkeyword : "sqrt".toList ++ back = 's' :: 'q' :: 'r' :: 't' :: back := rfl
  rw [hkeyword, numericRuns_cons rfl, numericRuns_cons rfl, numericRuns_cons rfl,
    numericRuns_cons rfl]

namespace Derivation

variable {rule : Rule}

/--
No rule lets two numbers touch, so each number of a derivation is as long as possible.
-/
theorem map_chars_numerals (d : Derivation rule) :
    d.tree.numerals.map Numeral.chars = numericRuns d.chars := by
  induction d with
  | ofTerm _ ih | ofFactor _ ih | ofPowers _ ih | ofBase _ ih | ofPrimary _ ih | ofGroup _ ih =>
    exact ih
  | sum _ op _ _ ihLeft ihRight | product _ op _ _ ihLeft ihRight =>
    simp only [tree, Expr.numerals, chars, List.map_append, ihLeft, ihRight,
      numericRuns_append_cons (isNumeric_symbol op)]
  | power _ _ ihBase ihExponent =>
    have hpower : Cursor.isNumeric '^' = false := rfl
    simp only [tree, Expr.numerals, chars, List.map_append, ihBase, ihExponent,
      numericRuns_append_cons hpower]
  | signedFactor sign _ ih | signedOperand sign _ ih =>
    have hsign : Cursor.isNumeric sign.symbol = false := by cases sign <;> rfl
    simp only [tree, Expr.numerals, chars, ih, numericRuns_cons hsign]
  | number numeral h =>
    rw [chars, numericRuns_of_forall (Numeral.chars_ne_nil h)
      (fun _ => Numeral.isNumeric_of_mem_chars h)]
    rfl
  | keywordGroup _ ih | keywordFactor _ ih =>
    simp only [tree, Expr.numerals, chars, ih, numericRuns_keyword]
  | radical _ ih =>
    have hradical : Cursor.isNumeric '√' = false := by decide
    simp only [tree, Expr.numerals, chars, ih, numericRuns_cons hradical]
  | group body ih =>
    have hopen : Cursor.isNumeric '(' = false := rfl
    have hclosing : Cursor.isNumeric ')' = false := rfl
    simp only [tree, Expr.numerals, chars, ih, numericRuns_cons hopen,
      numericRuns_append_cons hclosing]
    simp [numericRuns]

theorem operator_of_tree_eq_binary {d : Derivation rule} {op : BinaryOp} {left right : Expr}
    (h : d.tree = .binary op left right) : op.symbol ∈ rule.operators := by
  induction d with
  | ofTerm _ ih | ofFactor _ ih =>
    have hop := ih h
    simp only [Rule.operators, List.mem_cons, List.not_mem_nil, or_false] at hop ⊢
    simp [hop]
  | ofPowers _ ih => exact ih h
  | ofBase _ ih | ofPrimary _ ih => cases ih h
  | sum _ _ hrule | product _ _ hrule =>
    cases h
    revert hrule
    cases op <;> decide
  | power =>
    cases h
    decide
  | ofGroup only =>
    cases only
    cases h
  | signedFactor | signedOperand | number | keywordGroup | keywordFactor | radical | group => cases h

theorem tree_ne_binary (d : Derivation rule) {op : BinaryOp} {left right : Expr}
    (h : op.rule.link = rule) : d.tree ≠ .binary op left right := by
  intro htree
  subst h
  exact symbol_notMem_operators op (operator_of_tree_eq_binary htree)

theorem tree_primary_ne_signed {d : Derivation .primary} {sign : Sign} {e : Expr} :
    d.tree ≠ .signed sign e := by
  cases d with
  | ofGroup only => cases only; nofun
  | number | keywordGroup | keywordFactor | radical => nofun

theorem tree_powers_ne_signed {d : Derivation .powers} {sign : Sign} {e : Expr} :
    d.tree ≠ .signed sign e := by
  cases d with
  | ofBase only => exact tree_primary_ne_signed
  | power => nofun

theorem head?_chars_of_tree_eq_group {d : Derivation .factor} {e : Expr} (h : d.tree = .group e) :
    d.chars.head? = some '(' := by
  cases d with
  | signedFactor => cases h
  | ofPowers powers =>
    cases powers with
    | power => cases h
    | ofBase primary =>
      cases primary with
      | ofGroup only => cases only; rfl
      | number | keywordGroup | keywordFactor | radical => cases h

theorem eq_of_tree_eq {d₁ d₂ : Derivation rule} (h₁ : d₁.IsCanonical) (h₂ : d₂.IsCanonical)
    (h : d₁.tree = d₂.tree) : d₁ = d₂ := by
  induction d₁ with
  | ofTerm only ih =>
    cases d₂ with
    | ofTerm => rw [ih h₁ h₂ h]
    | sum _ _ hrule => exact absurd h (only.tree_ne_binary (congrArg Rule.link hrule))
  | sum _ _ hrule _ ihLeft ihRight =>
    cases d₂ with
    | ofTerm only => exact absurd h.symm (only.tree_ne_binary (congrArg Rule.link hrule))
    | sum =>
      injection h with hop hleft hright
      subst hop
      rw [ihLeft h₁.1 h₂.1 hleft, ihRight h₁.2 h₂.2 hright]
  | ofFactor only ih =>
    cases d₂ with
    | ofFactor => rw [ih h₁ h₂ h]
    | product _ _ hrule => exact absurd h (only.tree_ne_binary (congrArg Rule.link hrule))
  | product _ _ hrule _ ihLeft ihRight =>
    cases d₂ with
    | ofFactor only => exact absurd h.symm (only.tree_ne_binary (congrArg Rule.link hrule))
    | product =>
      injection h with hop hleft hright
      subst hop
      rw [ihLeft h₁.1 h₂.1 hleft, ihRight h₁.2 h₂.2 hright]
  | signedFactor _ _ ih =>
    cases d₂ with
    | signedFactor _ argument₂ =>
      injection h with hsign hargument
      rw [hsign, @ih argument₂ h₁ h₂ hargument]
    | ofPowers => exact absurd h.symm tree_powers_ne_signed
  | ofPowers _ ih =>
    cases d₂ with
    | signedFactor => exact absurd h tree_powers_ne_signed
    | ofPowers => rw [ih h₁ h₂ h]
  | ofBase only ih =>
    cases d₂ with
    | ofBase => rw [ih h₁ h₂ h]
    | power => exact absurd h (only.tree_ne_binary rfl)
  | power _ _ ihBase ihExponent =>
    cases d₂ with
    | ofBase only => exact absurd h.symm (only.tree_ne_binary rfl)
    | power =>
      injection h with _ hbase hexponent
      rw [ihBase h₁.1 h₂.1 hbase, ihExponent h₁.2.1 h₂.2.1 hexponent]
  | signedOperand _ _ ih =>
    cases d₂ with
    | signedOperand _ argument₂ =>
      injection h with hsign hargument
      rw [hsign, @ih argument₂ h₁ h₂ hargument]
    | ofPrimary => exact absurd h.symm tree_primary_ne_signed
  | ofPrimary _ ih =>
    cases d₂ with
    | signedOperand => exact absurd h tree_primary_ne_signed
    | ofPrimary => rw [ih h₁ h₂ h]
  | ofGroup only ih =>
    cases d₂ with
    | ofGroup => rw [ih h₁ h₂ h]
    | number | keywordGroup | keywordFactor | radical => cases only; cases h
  | number =>
    cases d₂ with
    | ofGroup only => cases only; cases h
    | number => cases h; rfl
    | keywordGroup | keywordFactor | radical => cases h
  | keywordGroup argument ih =>
    cases d₂ with
    | ofGroup only => cases only; cases h
    | number | radical => cases h
    | keywordGroup =>
      injection h with _ hargument
      rw [ih h₁ h₂ hargument]
    | keywordFactor =>
      -- A group behind `sqrt` is the whole argument, so no factor starts with it.
      cases argument
      injection h with _ hargument
      exact absurd (head?_chars_of_tree_eq_group hargument.symm) h₂.2
  | keywordFactor _ ih =>
    cases d₂ with
    | ofGroup only => cases only; cases h
    | number | radical => cases h
    | keywordGroup argument =>
      cases argument
      injection h with _ hargument
      exact absurd (head?_chars_of_tree_eq_group hargument) h₁.2
    | keywordFactor =>
      injection h with _ hargument
      rw [ih h₁.1 h₂.1 hargument]
  | radical _ ih =>
    cases d₂ with
    | ofGroup only => cases only; cases h
    | number | keywordGroup | keywordFactor => cases h
    | radical =>
      injection h with _ hargument
      rw [ih h₁ h₂ hargument]
  | group _ ih =>
    cases d₂ with
    | group =>
      injection h with hbody
      rw [ih h₁ h₂ hbody]

end Derivation

end Calculator
