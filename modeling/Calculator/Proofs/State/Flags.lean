import Calculator.Proofs.State.Effect

/-!
This module contains the theorem that ties the flags of a state to its buffer: after any run an error
covers a text that has no value, a result is the text of a value, and every other text comes from
the edits since the last fresh start alone.
-/

namespace Calculator

namespace Keystroke

/--
A cleared buffer and a calculation of a buffer with a text are fresh starts.
-/
def isFreshStart (stroke : Keystroke) : Bool :=
  stroke.key = .clear || (stroke.key = .calculate && stroke.before.displayText ≠ "")

end Keystroke

namespace State

/--
The edits since the last fresh start, in order.
-/
def edits (strokes : List Keystroke) : List Key :=
  ((strokes.rtakeWhile (!·.isFreshStart)).map Keystroke.key).filter Key.isEdit

theorem edits_concat_of_isFreshStart {strokes : List Keystroke} {stroke : Keystroke}
    (h : stroke.isFreshStart = true) : edits (strokes ++ [stroke]) = [] := by
  unfold edits
  rw [List.rtakeWhile_concat_neg _ _ _ (by simp [h])]
  rfl

theorem edits_concat_of_isEdit {strokes : List Keystroke} {stroke : Keystroke}
    (h : stroke.key.isEdit = true) :
    edits (strokes ++ [stroke]) = edits strokes ++ [stroke.key] := by
  have hfresh : stroke.isFreshStart = false := by
    unfold Keystroke.isFreshStart
    cases hkey : stroke.key <;> simp_all [Key.isEdit]
  unfold edits
  rw [List.rtakeWhile_concat_pos _ _ _ (by simp [hfresh])]
  simp [h]

theorem edits_concat_of_idle {strokes : List Keystroke} {stroke : Keystroke}
    (hfresh : stroke.isFreshStart = false) (hedit : stroke.key.isEdit = false) :
    edits (strokes ++ [stroke]) = edits strokes := by
  unfold edits
  rw [List.rtakeWhile_concat_pos _ _ _ (by simp [hfresh])]
  simp [hedit]

theorem isEdit_of_mem_edits {strokes : List Keystroke} {key : Key} (h : key ∈ edits strokes) :
    key.isEdit = true := by
  unfold edits at h
  rw [List.mem_filter] at h
  exact h.2

variable {config : Config} {state next : State} {key : Key}

theorem Effect.pending_of_isFreshStart (h : Effect config state key next)
    (hfresh : Keystroke.isFreshStart ⟨state, key, next⟩ = true) : next.pending = emptyDisplay := by
  cases h with
  | edit hedit => cases key <;> simp_all [Keystroke.isFreshStart, Key.isEdit]
  | clear => apply pending_typing
  | nothing hempty => simp [Keystroke.isFreshStart, hempty] at hfresh
  | success | failure => exact pending_of_isResult rfl
  | clearHistory => simp [Keystroke.isFreshStart] at hfresh

theorem Effect.pending_of_idle (h : Effect config state key next)
    (hfresh : Keystroke.isFreshStart ⟨state, key, next⟩ = false) (hedit : key.isEdit = false) :
    next.pending = state.pending := by
  cases h with
  | edit hisEdit => cases hedit.symm.trans hisEdit
  | clear => simp [Keystroke.isFreshStart] at hfresh
  | nothing => rfl
  | success hnonempty | failure hnonempty => simp [Keystroke.isFreshStart, hnonempty] at hfresh
  | clearHistory => rfl

theorem pending_run_edits (config : Config) (keys : List Key) :
    (run config {} (edits (keystrokes config {} keys))).pending = (run config {} keys).pending := by
  induction keys using List.reverseRecOn with
  | nil => rfl
  | append_singleton keys key ih =>
    -- Both runs have the same pending text before the key, and an edit reads nothing else.
    rw [run_concat, keystrokes_concat]
    have heffect := effect_press config (run config {} keys) key
    generalize (run config {} keys).press config key = next at heffect ⊢
    by_cases hfresh : Keystroke.isFreshStart ⟨run config {} keys, key, next⟩ = true
    · rw [edits_concat_of_isFreshStart hfresh, heffect.pending_of_isFreshStart hfresh]
      rfl
    · rw [Bool.not_eq_true] at hfresh
      by_cases hedit : key.isEdit = true
      · rw [edits_concat_of_isEdit hedit, run_concat]
        rw [(effect_press config _ key).eq_typing_of_isEdit hedit]
        rw [heffect.eq_typing_of_isEdit hedit, pending_typing, pending_typing, ih]
      · rw [Bool.not_eq_true] at hedit
        rw [edits_concat_of_idle hfresh hedit, heffect.pending_of_idle hfresh hedit, ih]

theorem run_of_isEdit (config : Config) (keys : List Key) (h : ∀ key ∈ keys, key.isEdit = true) :
    (run config {} keys).isResult = false ∧ (run config {} keys).error? = none := by
  induction keys using List.reverseRecOn with
  | nil => exact ⟨rfl, rfl⟩
  | append_singleton keys key ih =>
    have hedit := h key (by simp)
    rw [run_concat]
    rw [(effect_press config _ key).eq_typing_of_isEdit hedit]
    exact ⟨rfl, rfl⟩

/--
The buffer shows the value of a calculation.
-/
def ShowsResult (config : Config) (strokes : List Keystroke) (state : State) : Prop :=
  ∃ stroke ∈ strokes, stroke.key = .calculate ∧ ∃ value,
    Expr.evaluate stroke.before.displayText = .ok value
      ∧ state.displayText = value.display config.maxFractionDigits

theorem ShowsResult.of_subset {strokes₁ strokes₂ : List Keystroke} {state₁ state₂ : State}
    (h : ShowsResult config strokes₁ state₁) (hstrokes : strokes₁ ⊆ strokes₂)
    (htext : state₂.displayText = state₁.displayText) : ShowsResult config strokes₂ state₂ := by
  obtain ⟨stroke, hmem, hkey, value, hvalue, hshown⟩ := h
  exact ⟨stroke, hstrokes hmem, hkey, value, hvalue, htext.trans hshown⟩

theorem Effect.showsResult {strokes : List Keystroke} (h : Effect config state key next)
    (hstate : state.isResult = true → state.error? = none → ShowsResult config strokes state)
    (hresult : next.isResult = true) (herror : next.error? = none) :
    ShowsResult config (strokes ++ [⟨state, key, next⟩]) next := by
  have hsubset := List.subset_append_left strokes [⟨state, key, next⟩]
  have hlast : ⟨state, key, next⟩ ∈ strokes ++ [⟨state, key, next⟩] := List.mem_concat_self
  cases h with
  | edit => cases hresult
  | clear => cases hresult
  | nothing => exact (hstate hresult herror).of_subset hsubset rfl
  | success hnonempty hvalue => exact ⟨_, hlast, rfl, _, hvalue, rfl⟩
  | failure => cases herror
  | clearHistory => exact (hstate hresult herror).of_subset hsubset rfl

theorem showsResult_run (config : Config) (keys : List Key)
    (hresult : (run config {} keys).isResult = true) (herror : (run config {} keys).error? = none) :
    ShowsResult config (keystrokes config {} keys) (run config {} keys) := by
  induction keys using List.reverseRecOn with
  | nil => cases hresult
  | append_singleton keys key ih =>
    rw [run_concat] at hresult herror
    rw [run_concat, keystrokes_concat]
    apply (effect_press config (run config {} keys) key).showsResult
    · exact ih
    · exact hresult
    · exact herror

theorem displayText_run_eq_edits (config : Config) (keys : List Key)
    (hresult : (run config {} keys).isResult = false) :
    (run config {} keys).error? = none
      ∧ (run config {} keys).displayText
        = (run config {} (edits (keystrokes config {} keys))).displayText := by
  have herror : (run config {} keys).error? = none := by
    rw [Option.eq_none_iff_forall_ne_some]
    intro label hlabel
    have hcovers := covers_run config keys label hlabel
    cases hresult.symm.trans hcovers.isResult
  have hedits := run_of_isEdit config (edits (keystrokes config {} keys)) fun _ => isEdit_of_mem_edits
  refine ⟨herror, ?_⟩
  rw [← pending_eq_displayText hresult herror, ← pending_eq_displayText hedits.1 hedits.2]
  exact (pending_run_edits config keys).symm

theorem flags_run (config : Config) (keys : List Key) :
    (∀ label, (run config {} keys).error? = some label → Covers config (run config {} keys) label)
      ∧ ((run config {} keys).isResult = true → (run config {} keys).error? = none →
          ShowsResult config (keystrokes config {} keys) (run config {} keys))
      ∧ ((run config {} keys).isResult = false → (run config {} keys).error? = none
          ∧ (run config {} keys).displayText
            = (run config {} (edits (keystrokes config {} keys))).displayText) := by
  refine ⟨?_, ?_, ?_⟩
  · apply covers_run
  · apply showsResult_run
  · apply displayText_run_eq_edits

end State

end Calculator
