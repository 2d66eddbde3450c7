import Calculator.Proofs.State.Recalculation

/-!
This module contains the theorem about two calculators with different settings on which the same keys
are pressed: the same calculations succeed on both, and the same text can be edited. What differs is
how results are rounded, what covers a failure and how long the history is.
-/

namespace Calculator

theorem Calculation.of_congr {config₁ config₂ : Config}
    (h : config₁.maxFractionDigits = config₂.maxFractionDigits) (buffer : String) :
    Calculation.of config₁ buffer = Calculation.of config₂ buffer := by
  unfold Calculation.of
  rw [h]

namespace State

/--
What two states have in common if nothing but the settings of their calculators differ.
-/
structure Agrees (state₁ state₂ : State) : Prop where
  isResult : state₁.isResult = state₂.isResult
  error : state₁.error?.isSome = state₂.error?.isSome
  editable : state₁.editable = state₂.editable
  displayText : state₁.isResult = false ∨ state₁.error?.isSome = true →
    state₁.displayText = state₂.displayText

theorem pending_congr {state₁ state₂ : State} (hresult : state₁.isResult = state₂.isResult)
    (herror : state₁.error?.isSome = state₂.error?.isSome)
    (htext : state₁.isResult = false → state₁.displayText = state₂.displayText) :
    state₁.pending = state₂.pending := by
  unfold pending
  rw [← hresult, ← herror]
  cases h : state₁.isResult with
  | true => rfl
  | false => rw [htext h]

variable {config₁ config₂ : Config} {state₁ state₂ : State}

/--
Two texts that are the same, or that show two finite numbers.
-/
inductive Counterparts (config₁ config₂ : Config) : String → String → Prop
  | same (text : String) : Counterparts config₁ config₂ text text
  | numbers {x₁ x₂ : Binary64} (h₁ : x₁.isFinite = true) (h₂ : x₂.isFinite = true) :
    Counterparts config₁ config₂ (x₁.display config₁.maxFractionDigits)
      (x₂.display config₂.maxFractionDigits)

theorem Counterparts.display (x : Binary64) :
    Counterparts config₁ config₂ (x.display config₁.maxFractionDigits)
      (x.display config₂.maxFractionDigits) := by
  cases hfinite : x.isFinite with
  | true => exact .numbers hfinite hfinite
  | false =>
    rw [Binary64.display_of_not_finite hfinite config₁.maxFractionDigits config₂.maxFractionDigits]
    exact .same _

/--
Two calculations that end alike. They can fail only on the same text.
-/
inductive SameOutcome (config₁ config₂ : Config) (text₁ text₂ : String) :
    Calculation → Calculation → Prop
  | nothing : SameOutcome config₁ config₂ text₁ text₂ .nothing .nothing
  | success {result₁ result₂ : String} (h : Counterparts config₁ config₂ result₁ result₂) :
    SameOutcome config₁ config₂ text₁ text₂ (.success text₁ result₁) (.success text₂ result₂)
  | failure {cause : SyntaxError} (h : text₁ = text₂) :
    SameOutcome config₁ config₂ text₁ text₂ (.failure text₁ cause) (.failure text₂ cause)

theorem Counterparts.sameOutcome {text₁ text₂ : String}
    (h : Counterparts config₁ config₂ text₁ text₂) :
    SameOutcome config₁ config₂ text₁ text₂ (.of config₁ text₁) (.of config₂ text₂) := by
  cases h with
  | same text =>
    unfold Calculation.of
    split
    · exact .nothing
    · split
      · exact .success (.display _)
      · exact .failure rfl
  | numbers h₁ h₂ =>
    -- A finite result gives itself, so the texts stay as they are.
    rw [Calculation.of_display_eq_success config₁ h₁, Calculation.of_display_eq_success config₂ h₂]
    exact .success (.numbers h₁ h₂)

/--
The invariant of two runs: only results may differ, and only if they are finite numbers.
-/
structure Alike (config₁ config₂ : Config) (state₁ state₂ : State) : Prop where
  isResult : state₁.isResult = state₂.isResult
  error : state₁.error?.isSome = state₂.error?.isSome
  texts : Counterparts config₁ config₂ state₁.displayText state₂.displayText
  displayText : state₁.isResult = false ∨ state₁.error?.isSome = true →
    state₁.displayText = state₂.displayText

theorem Alike.pending (h : Alike config₁ config₂ state₁ state₂) :
    state₁.pending = state₂.pending :=
  pending_congr h.isResult h.error fun hresult => h.displayText (.inl hresult)

theorem Alike.agrees (h : Alike config₁ config₂ state₁ state₂) : Agrees state₁ state₂ where
  isResult := h.isResult
  error := h.error
  editable := by rw [editable_eq_withoutPlaceholder, editable_eq_withoutPlaceholder, h.pending]
  displayText := h.displayText

theorem alike_typing (text : String) :
    Alike config₁ config₂ (state₁.typing text) (state₂.typing text) where
  isResult := rfl
  error := rfl
  texts := .same text
  displayText _ := rfl

theorem Alike.settle {calculation₁ calculation₂ : Calculation}
    (h : Alike config₁ config₂ state₁ state₂)
    (houtcome : SameOutcome config₁ config₂ state₁.displayText state₂.displayText
      calculation₁ calculation₂) :
    Alike config₁ config₂ (state₁.settle config₁ calculation₁)
      (state₂.settle config₂ calculation₂) := by
  cases houtcome with
  | nothing => exact h
  | success hresults =>
    refine ⟨rfl, rfl, hresults, ?_⟩
    rintro (hresult | herror)
    · cases hresult
    · cases herror
  | failure htext => exact ⟨rfl, rfl, h.texts, fun _ => htext⟩

theorem Alike.press (h : Alike config₁ config₂ state₁ state₂) (key : Key) :
    Alike config₁ config₂ (state₁.press config₁ key) (state₂.press config₂ key) := by
  by_cases hedit : key.isEdit = true
  · rw [(effect_press config₁ state₁ key).eq_typing_of_isEdit hedit,
      (effect_press config₂ state₂ key).eq_typing_of_isEdit hedit, h.pending]
    exact alike_typing _
  · cases key with
    | digit | operator | delete => exact absurd rfl hedit
    | clear => exact alike_typing _
    | calculate => exact h.settle h.texts.sameOutcome
    | clearHistory => exact ⟨h.isResult, h.error, h.texts, h.displayText⟩

theorem alike_run (config₁ config₂ : Config) (keys : List Key) :
    Alike config₁ config₂ (run config₁ {} keys) (run config₂ {} keys) := by
  induction keys using List.reverseRecOn with
  | nil =>
    have hstart : Alike config₁ config₂ {} {} := ⟨rfl, rfl, .same _, fun _ => rfl⟩
    exact hstart
  | append_singleton keys key ih =>
    rw [run_concat, run_concat]
    exact ih.press key

/--
The invariant of two runs with the same rounding: both histories are cut from one log.
-/
structure SharesLog (config₁ config₂ : Config) (state₁ state₂ : State) : Prop where
  isResult : state₁.isResult = state₂.isResult
  error : state₁.error?.isSome = state₂.error?.isSome
  displayText : state₁.displayText = state₂.displayText
  history : ∃ log, state₁.history.entries = config₁.kept log
    ∧ state₂.history.entries = config₂.kept log

theorem SharesLog.pending (h : SharesLog config₁ config₂ state₁ state₂) :
    state₁.pending = state₂.pending :=
  pending_congr h.isResult h.error fun _ => h.displayText

theorem SharesLog.typing (h : SharesLog config₁ config₂ state₁ state₂) (text : String) :
    SharesLog config₁ config₂ (state₁.typing text) (state₂.typing text) :=
  ⟨rfl, rfl, rfl, h.history⟩

theorem SharesLog.settle (h : SharesLog config₁ config₂ state₁ state₂)
    (calculation : Calculation) :
    SharesLog config₁ config₂ (state₁.settle config₁ calculation)
      (state₂.settle config₂ calculation) := by
  obtain ⟨log, hlog₁, hlog₂⟩ := h.history
  cases calculation with
  | nothing => exact h
  | success expression result =>
    refine ⟨rfl, rfl, rfl, History.entry expression result :: log, ?_, ?_⟩
    · rw [State.settle, entries_recorded, hlog₁, Config.kept_cons_kept]
    · rw [State.settle, entries_recorded, hlog₂, Config.kept_cons_kept]
  | failure => exact ⟨rfl, rfl, h.displayText, log, hlog₁, hlog₂⟩

theorem SharesLog.press (h : SharesLog config₁ config₂ state₁ state₂)
    (hdigits : config₁.maxFractionDigits = config₂.maxFractionDigits) (key : Key) :
    SharesLog config₁ config₂ (state₁.press config₁ key) (state₂.press config₂ key) := by
  by_cases hedit : key.isEdit = true
  · rw [(effect_press config₁ state₁ key).eq_typing_of_isEdit hedit,
      (effect_press config₂ state₂ key).eq_typing_of_isEdit hedit, h.pending]
    exact h.typing _
  · cases key with
    | digit | operator | delete => exact absurd rfl hedit
    | clear => exact h.typing _
    | calculate =>
      simp only [State.press]
      rw [h.displayText, Calculation.of_congr hdigits]
      exact h.settle _
    | clearHistory =>
      refine ⟨h.isResult, h.error, h.displayText, [], ?_, ?_⟩
      · exact (Config.kept_nil config₁).symm
      · exact (Config.kept_nil config₂).symm

theorem sharesLog_run (hdigits : config₁.maxFractionDigits = config₂.maxFractionDigits)
    (keys : List Key) : SharesLog config₁ config₂ (run config₁ {} keys) (run config₂ {} keys) := by
  induction keys using List.reverseRecOn with
  | nil =>
    have hstart : SharesLog config₁ config₂ {} {} :=
      ⟨rfl, rfl, rfl, [], (Config.kept_nil config₁).symm, (Config.kept_nil config₂).symm⟩
    exact hstart
  | append_singleton keys key ih =>
    rw [run_concat, run_concat]
    exact ih.press hdigits key

theorem take_kept {config : Config} {n : Nat} (h : ∀ limit ∈ config.historyLimit?, n ≤ limit)
    (log : List String) : (config.kept log).take n = log.take n := by
  unfold Config.kept
  cases hlimit : config.historyLimit? with
  | none => rfl
  | some limit =>
    simp only
    rw [List.take_take, Nat.min_eq_left (h limit hlimit)]

theorem SharesLog.take_entries (h : SharesLog config₁ config₂ state₁ state₂) {n : Nat}
    (hlimit : ∀ limit ∈ Option.merge min config₁.historyLimit? config₂.historyLimit?, n ≤ limit) :
    state₁.history.entries.take n = state₂.history.entries.take n := by
  obtain ⟨log, hlog₁, hlog₂⟩ := h.history
  have hlimits : (∀ limit ∈ config₁.historyLimit?, n ≤ limit)
      ∧ ∀ limit ∈ config₂.historyLimit?, n ≤ limit := by
    generalize config₁.historyLimit? = limit₁? at hlimit ⊢
    generalize config₂.historyLimit? = limit₂? at hlimit ⊢
    cases limit₁? <;> cases limit₂? <;> simp_all [Option.merge]
  rw [hlog₁, hlog₂, take_kept hlimits.1, take_kept hlimits.2]

theorem run_agrees (config₁ config₂ : Config) (keys : List Key) :
    Agrees (run config₁ {} keys) (run config₂ {} keys)
      ∧ (config₁.maxFractionDigits = config₂.maxFractionDigits →
        (run config₁ {} keys).displayText = (run config₂ {} keys).displayText
          ∧ ∀ n, (∀ limit ∈ Option.merge min config₁.historyLimit? config₂.historyLimit?, n ≤ limit) →
            (run config₁ {} keys).history.entries.take n
              = (run config₂ {} keys).history.entries.take n) := by
  refine ⟨(alike_run config₁ config₂ keys).agrees, ?_⟩
  intro hdigits
  have hshares := sharesLog_run hdigits keys
  exact ⟨hshares.displayText, fun _ => hshares.take_entries⟩

end State

end Calculator
