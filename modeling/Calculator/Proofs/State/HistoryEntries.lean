import Calculator.Proofs.Expression.Alphabet
import Calculator.Proofs.State.Recalculation

/-!
This module contains the theorem that a history entry can be taken apart again. An entry is split at
its first separator, and no expression with a value contains one.
-/

namespace Calculator

namespace History

/--
A separator does not occur earlier if it has a character that the text in front of it lacks.
-/
theorem splitFirst_append {separator front : List Char} {mark : Char} (hmark : mark ∈ separator)
    (hfront : mark ∉ front) (back : List Char) :
    splitFirst separator (front ++ (separator ++ back)) = some (front, back) := by
  induction front with
  | nil =>
    obtain ⟨first, rest, rfl⟩ := List.exists_cons_of_ne_nil (List.ne_nil_of_mem hmark)
    simp [splitFirst]
  | cons c front ih =>
    have hlate : separator.isPrefixOf (c :: front ++ (separator ++ back)) = false := by
      rw [Bool.eq_false_iff, ne_eq, List.isPrefixOf_iff_prefix]
      rintro ⟨rest, hrest⟩
      have hindex := congrArg (List.idxOf mark) hrest
      rw [List.idxOf_append_of_mem hmark, List.idxOf_append_of_notMem hfront,
        List.idxOf_append_of_mem hmark, List.length_cons] at hindex
      omega
    rw [List.cons_append] at hlate ⊢
    rw [splitFirst, hlate, ih (List.not_mem_of_not_mem_cons hfront)]
    rfl

theorem splitEntry?_entry {expression : String} (h : '=' ∉ expression.toList) (result : String) :
    splitEntry? (entry expression result) = some (expression, result) := by
  have hmark : '=' ∈ separator.toList := by decide
  rw [entry, splitEntry?, String.toList_append, String.toList_append, List.append_assoc,
    splitFirst_append hmark h, Option.map_some]
  dsimp only
  rw [String.ofList_toList, String.ofList_toList]

end History

theorem Expr.notMem_of_evaluate {text : String} {v : Binary64} (h : evaluate text = .ok v) :
    '=' ∉ text.toList := by
  intro hmem
  rcases isSymbol_of_evaluate h hmem with hspace | hsymbol
  · exact absurd hspace (by decide)
  · exact absurd hsymbol (by decide)

theorem Config.mem_of_mem_kept {config : Config} {entries : List String} {entry : String}
    (h : entry ∈ config.kept entries) : entry ∈ entries := by
  unfold kept at h
  split at h
  · exact List.mem_of_mem_take h
  · exact h

theorem Config.head?_kept_cons {config : Config} (h : config.historyLimit? ≠ some 0)
    (entry : String) (entries : List String) :
    (config.kept (entry :: entries)).head? = some entry := by
  unfold kept
  split
  · next limit hlimit =>
    have hpos : limit ≠ 0 := by
      rintro rfl
      exact h hlimit
    obtain ⟨limit, rfl⟩ := Nat.exists_eq_succ_of_ne_zero hpos
    rfl
  · rfl

namespace State

/--
The entry of a calculation that succeeded.
-/
def IsCalculated (config : Config) (entry : String) : Prop :=
  ∃ expression value, Expr.evaluate expression = .ok value
    ∧ entry = History.entry expression (value.display config.maxFractionDigits)

variable {config : Config} {state next : State} {key : Key}

theorem Effect.isCalculated (h : Effect config state key next)
    (hstate : ∀ entry ∈ state.history.entries, IsCalculated config entry) :
    ∀ entry ∈ next.history.entries, IsCalculated config entry := by
  cases h with
  | edit | clear | nothing | failure => exact hstate
  | success hnonempty hvalue =>
    intro entry hmem
    rw [entries_recorded] at hmem
    rcases List.mem_cons.mp (Config.mem_of_mem_kept hmem) with rfl | hold
    · exact ⟨_, _, hvalue, rfl⟩
    · exact hstate entry hold
  | clearHistory => rintro entry ⟨⟩

theorem isCalculated_run (config : Config) (keys : List Key) :
    ∀ entry ∈ (run config {} keys).history.entries, IsCalculated config entry := by
  apply run_induction config
    (P := fun state => ∀ entry ∈ state.history.entries, IsCalculated config entry)
  · rintro entry ⟨⟩
  · intro state key hstate
    exact (effect_press config state key).isCalculated hstate

theorem latest?_press_calculate (hlimit : config.historyLimit? ≠ some 0) {value : Binary64}
    (hvalue : Expr.evaluate state.displayText = .ok value) :
    (state.press config .calculate).history.latest?
      = some (History.entry state.displayText (value.display config.maxFractionDigits)) := by
  rw [press_calculate_of_success (Calculation.of_eq_success hvalue), History.latest?,
    entries_recorded]
  exact Config.head?_kept_cons hlimit _ _

theorem history_splits (config : Config) :
    (∀ keys, ∀ entry ∈ (run config {} keys).history.entries, ∃ expression value,
        Expr.evaluate expression = .ok value
          ∧ History.splitEntry? entry = some (expression, value.display config.maxFractionDigits))
      ∧ (config.historyLimit? ≠ some 0 → ∀ (state : State) (value : Binary64),
          Expr.evaluate state.displayText = .ok value →
          (state.press config .calculate).lastExpression? = some state.displayText
            ∧ (state.press config .calculate).history.latest?.bind History.splitEntry?
              = some (state.displayText, (state.press config .calculate).displayText)) := by
  constructor
  · intro keys entry hmem
    obtain ⟨expression, value, hvalue, rfl⟩ := isCalculated_run config keys entry hmem
    refine ⟨expression, value, hvalue, ?_⟩
    exact History.splitEntry?_entry (Expr.notMem_of_evaluate hvalue) _
  · intro hlimit state value hvalue
    have hsplit := History.splitEntry?_entry (Expr.notMem_of_evaluate hvalue)
      (value.display config.maxFractionDigits)
    have hresult : (state.press config .calculate).displayText
        = value.display config.maxFractionDigits := by
      rw [press_calculate_of_success (Calculation.of_eq_success hvalue)]
    rw [lastExpression?, latest?_press_calculate hlimit hvalue, Option.bind_some, hsplit, hresult]
    exact ⟨rfl, rfl⟩

theorem history_splits_spaces :
    Expr.evaluate "1 ÷ 0" = .ok (.infinity false)
      ∧ (press { historyLimit? := some 1 } { displayText := "1 ÷ 0", history := ⟨["1+1 = 2"]⟩ }
          .calculate).lastExpression? = some "1 ÷ 0"
      ∧ (press { historyLimit? := some 1 } { displayText := "1 ÷ 0", history := ⟨["1+1 = 2"]⟩ }
          .calculate).history.latest?.bind History.splitEntry? = some ("1 ÷ 0", "Infinity") := by
  have hvalue : Expr.evaluate "1 ÷ 0" = .ok (.infinity false) := by
    have hcompletes : (Derivation.ofTerm (.product
        (.ofFactor (.ofNumeral ⟨['1'], none⟩ (by decide))) .div rfl
        (.ofNumeral ⟨['0'], none⟩ (by decide)))).Completes (Expr.normalize "1 ÷ 0").toList 0 :=
      ⟨rfl, ⟨trivial, trivial⟩, Derivation.map_chars_numerals _⟩
    rw [Expr.evaluate_of_completes hcompletes (by decide), Except.ok.injEq]
    decide +kernel
  have hlimit : ({ historyLimit? := some 1 } : Config).historyLimit? ≠ some 0 := by decide
  obtain ⟨hexpression, hparts⟩ := (history_splits { historyLimit? := some 1 }).2 hlimit
    { displayText := "1 ÷ 0", history := ⟨["1+1 = 2"]⟩ } _ hvalue
  have hsuccess : Calculation.of { historyLimit? := some 1 } "1 ÷ 0"
      = .success "1 ÷ 0" "Infinity" := Calculation.of_eq_success hvalue
  have hpress := @press_calculate_of_success { historyLimit? := some 1 }
    { displayText := "1 ÷ 0", history := ⟨["1+1 = 2"]⟩ } _ _ hsuccess
  rw [congrArg displayText hpress] at hparts
  exact ⟨hvalue, hexpression, hparts⟩

end State

end Calculator
