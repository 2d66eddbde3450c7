import Calculator.Proofs.Expression.Literal
import Calculator.Proofs.State.HistoryLog

/-!
This module contains the theorem about the key for a calculation that is pressed again: a finite
result is its own result from then on, and any other result becomes an error that stays.
-/

namespace Calculator

namespace Calculation

variable {config : Config} {buffer : String}

theorem of_eq_success {value : Binary64} (h : Expr.evaluate buffer = .ok value) :
    Calculation.of config buffer = .success buffer (value.display config.maxFractionDigits) := by
  have hnonempty : buffer ≠ "" := by
    rintro rfl
    cases h
  unfold Calculation.of
  rw [if_neg hnonempty]
  simp only [h]

theorem of_eq_failure {cause : SyntaxError} (hnonempty : buffer ≠ "")
    (h : Expr.evaluate buffer = .error cause) :
    Calculation.of config buffer = .failure buffer cause := by
  unfold Calculation.of
  rw [if_neg hnonempty]
  simp only [h]

theorem of_display_eq_success (config : Config) {value : Binary64}
    (h : value.isFinite = true) :
    Calculation.of config (value.display config.maxFractionDigits)
      = .success (value.display config.maxFractionDigits)
        (value.display config.maxFractionDigits) := by
  obtain ⟨again, -, hagain, hdisplay⟩ := Binary64.exists_evaluate_display h config.maxFractionDigits
  rw [of_eq_success hagain, hdisplay]

theorem exists_of_display_eq_failure (config : Config) {value : Binary64}
    (h : value.isFinite = false) :
    ∃ cause, Calculation.of config (value.display config.maxFractionDigits)
      = .failure (value.display config.maxFractionDigits) cause := by
  obtain ⟨cause, hcause⟩ := Binary64.evaluate_display_of_not_finite h config.maxFractionDigits
  exact ⟨cause, of_eq_failure (Binary64.display_ne_empty _ _) hcause⟩

end Calculation

namespace State

variable {config : Config} {state : State}

theorem press_calculate_of_success {expression result : String}
    (h : Calculation.of config state.displayText = .success expression result) :
    state.press config .calculate
      = { displayText := result
          history := recorded config state.history expression result
          isResult := true
          error? := none } := by
  simp only [press, h, settle]

theorem press_calculate_of_failure {expression : String} {cause : SyntaxError}
    (h : Calculation.of config state.displayText = .failure expression cause) :
    state.press config .calculate
      = { state with isResult := true, error? := some config.errorLabel } := by
  simp only [press, h, settle]

theorem run_replicate_succ (config : Config) (state : State) (n : Nat) (key : Key) :
    run config state (List.replicate (n + 1) key)
      = (run config state (List.replicate n key)).press config key := by
  rw [List.replicate_succ', run_concat]

theorem recorded_eq (config : Config) (history : History) (expression result : String) :
    recorded config history expression result
      = ⟨config.kept (History.entry expression result :: history.entries)⟩ :=
  congrArg History.mk (entries_recorded config history expression result)

/--
A result that is its own result stays, and its entry is recorded each time.
-/
theorem run_calculate_of_success {text : String}
    (h : Calculation.of config text = .success text text) (entries : List String) (n : Nat) :
    run config { displayText := text, history := ⟨config.kept entries⟩, isResult := true }
        (List.replicate n .calculate)
      = { displayText := text
          history := ⟨config.kept (List.replicate n (History.entry text text) ++ entries)⟩
          isResult := true } := by
  induction n with
  | zero => rfl
  | succ n ih =>
    rw [run_replicate_succ, ih, press_calculate_of_success h, recorded_eq, Config.kept_cons_kept]
    rfl

theorem run_calculate_of_failure {text : String} {cause : SyntaxError}
    (h : Calculation.of config state.displayText = .failure text cause) (n : Nat) :
    run config state (List.replicate (n + 1) .calculate)
      = { state with isResult := true, error? := some config.errorLabel } := by
  induction n with
  | zero => exact press_calculate_of_failure h
  | succ n ih =>
    rw [run_replicate_succ, ih]
    exact press_calculate_of_failure h

theorem calculate_again (config : Config) (state : State) {result : State} {value : Binary64}
    {text : String}
    (hvalue : Expr.evaluate state.displayText = .ok value)
    (hresult : state.press config .calculate = result) (htext : result.displayText = text) :
    (value.isFinite = true → ∀ n,
        Calculation.of config (run config result (List.replicate n .calculate)).displayText
            = .success text text
          ∧ run config result (List.replicate n .calculate)
            = { displayText := text
                history :=
                  ⟨config.kept (List.replicate n (text ++ " = " ++ text) ++ result.history.entries)⟩
                isResult := true
                error? := none })
      ∧ (value.isFinite = false →
        (∃ cause, Calculation.of config text = .failure text cause)
          ∧ ∀ n, run config result (List.replicate (n + 1) .calculate)
            = { displayText := text
                history := result.history
                isResult := true
                error? := some config.errorLabel }) := by
  rw [press_calculate_of_success (Calculation.of_eq_success hvalue), recorded_eq] at hresult
  subst hresult
  subst htext
  constructor
  · intro hfinite n
    have hself := Calculation.of_display_eq_success config hfinite
    have hrun := run_calculate_of_success hself
      (config.kept (History.entry state.displayText (value.display config.maxFractionDigits)
        :: state.history.entries)) n
    rw [Config.kept_kept] at hrun
    refine ⟨?_, hrun⟩
    rw [hrun]
    exact hself
  · intro hfinite
    obtain ⟨cause, hcause⟩ := Calculation.exists_of_display_eq_failure config hfinite
    exact ⟨⟨cause, hcause⟩, run_calculate_of_failure hcause⟩

theorem calculate_again_tie :
    Expr.evaluate ".125" = .ok (Decimal.toBinary64 ⟨125, 3⟩)
      ∧ run { maxFractionDigits := 2, historyLimit? := some 2 } { displayText := ".125" }
          [.calculate, .calculate, .calculate]
        = { displayText := "0.12", history := ⟨["0.12 = 0.12", "0.12 = 0.12"]⟩, isResult := true }
      ∧ Expr.evaluate "1÷0" = .ok (.infinity false)
      ∧ run {} { displayText := "1÷0" } [.calculate, .calculate, .calculate]
        = { displayText := "Infinity", history := ⟨["1÷0 = Infinity"]⟩, isResult := true
            error? := some "Error" } := by
  have htie : Expr.evaluate ".125" = .ok (Decimal.toBinary64 ⟨125, 3⟩) := by
    have hcompletes : (Derivation.ofTerm (.ofFactor
        (.ofNumeral ⟨[], some ['1', '2', '5']⟩ (by decide)))).Completes
          (Expr.normalize ".125").toList 0 :=
      ⟨rfl, trivial, Derivation.map_chars_numerals _⟩
    rw [Expr.evaluate_of_completes hcompletes (by decide), Except.ok.injEq]
    decide +kernel
  have hshown : (Decimal.toBinary64 ⟨125, 3⟩).display 2 = "0.12" := by decide +kernel
  have hfinite : (Decimal.toBinary64 ⟨125, 3⟩).isFinite = true := by decide +kernel
  have hsuccess : Calculation.of { maxFractionDigits := 2, historyLimit? := some 2 } ".125"
      = .success ".125" "0.12" :=
    (Calculation.of_eq_success htie).trans (congrArg _ hshown)
  have hfirst := @press_calculate_of_success _ { displayText := ".125" } _ _ hsuccess
  have hquotient : Expr.evaluate "1÷0" = .ok (.infinity false) := by
    have hcompletes : (Derivation.ofTerm (.product
        (.ofFactor (.ofNumeral ⟨['1'], none⟩ (by decide))) .div rfl
        (.ofNumeral ⟨['0'], none⟩ (by decide)))).Completes (Expr.normalize "1÷0").toList 0 :=
      ⟨rfl, ⟨trivial, trivial⟩, Derivation.map_chars_numerals _⟩
    rw [Expr.evaluate_of_completes hcompletes (by decide), Except.ok.injEq]
    decide +kernel
  have hsuccess' : Calculation.of {} "1÷0" = .success "1÷0" "Infinity" :=
    Calculation.of_eq_success hquotient
  have hfirst' := @press_calculate_of_success _ { displayText := "1÷0" } _ _ hsuccess'
  have hagain := ((calculate_again _ { displayText := ".125" } htie hfirst rfl).1 hfinite 2).2
  have hagain' := ((calculate_again _ { displayText := "1÷0" } hquotient hfirst' rfl).2 rfl).2 1
  refine ⟨htie, Eq.trans ?_ hagain, hquotient, Eq.trans ?_ hagain'⟩
  · exact congrArg (run _ · [.calculate, .calculate]) hfirst
  · exact congrArg (run _ · [.calculate, .calculate]) hfirst'

end State

end Calculator
