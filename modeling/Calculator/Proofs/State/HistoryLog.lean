import Calculator.Proofs.State.Effect

/-!
This module contains the theorem that the history is the log of the successful calculations: after
any run it holds the newest of their entries, as many as the limit allows.
-/

namespace Calculator

def Config.kept (config : Config) (entries : List String) : List String :=
  match config.historyLimit? with
  | some limit => entries.take limit
  | none => entries

theorem Config.kept_nil (config : Config) : config.kept [] = [] := by
  unfold kept
  cases config.historyLimit? with
  | none => rfl
  | some limit => apply List.take_nil

theorem Config.kept_cons_kept (config : Config) (entry : String) (entries : List String) :
    config.kept (entry :: config.kept entries) = config.kept (entry :: entries) := by
  unfold kept
  cases config.historyLimit? with
  | none => rfl
  | some limit =>
    simp only
    cases limit with
    | zero => rw [List.take_zero, List.take_zero]
    | succ limit =>
      -- Whatever the limit has dropped before would be dropped now anyway.
      rw [List.take_succ_cons, List.take_succ_cons, List.take_take, Nat.min_eq_left (by omega)]

theorem Config.kept_kept (config : Config) (entries : List String) :
    config.kept (config.kept entries) = config.kept entries := by
  unfold kept
  cases config.historyLimit? with
  | none => rfl
  | some limit =>
    simp only
    rw [List.take_take, Nat.min_self]

/--
What a keystroke adds to the log: the entry of a calculation that finds a text with a value.
-/
def Keystroke.entry? (stroke : Keystroke) : Option String :=
  if stroke.key = .calculate ∧ stroke.before.displayText ≠ ""
      ∧ (Expr.evaluate stroke.before.displayText).isOk then
    some (stroke.before.displayText ++ " = " ++ stroke.after.displayText)
  else
    none

namespace State

/--
The entries since the history was last cleared, the newest first.
-/
def completed (strokes : List Keystroke) : List String :=
  ((strokes.rtakeWhile (·.key ≠ .clearHistory)).filterMap Keystroke.entry?).reverse

theorem completed_concat_of_clearHistory {strokes : List Keystroke} {stroke : Keystroke}
    (h : stroke.key = .clearHistory) : completed (strokes ++ [stroke]) = [] := by
  unfold completed
  rw [List.rtakeWhile_concat_neg _ _ _ (by simp [h])]
  rfl

theorem completed_concat_of_ne {strokes : List Keystroke} {stroke : Keystroke}
    (h : stroke.key ≠ .clearHistory) :
    completed (strokes ++ [stroke]) = stroke.entry?.toList ++ completed strokes := by
  unfold completed
  rw [List.rtakeWhile_concat_pos _ _ _ (by simp [h])]
  rw [List.filterMap_append, List.reverse_append]
  cases hentry : stroke.entry? <;> simp [hentry]

variable {config : Config} {state next : State} {key : Key}

theorem entries_recorded (config : Config) (history : History) (expression result : String) :
    (recorded config history expression result).entries
      = config.kept (History.entry expression result :: history.entries) := by
  unfold recorded Config.kept
  cases config.historyLimit? <;> rfl

theorem Effect.entries_eq_nil (h : Effect config state key next) (hkey : key = .clearHistory) :
    next.history.entries = [] := by
  subst hkey
  cases h with
  | edit hedit => cases hedit
  | clearHistory => rfl

theorem Effect.entries_of_entry?_eq_some (h : Effect config state key next) {entry : String}
    (hentry : Keystroke.entry? ⟨state, key, next⟩ = some entry) :
    next.history.entries = config.kept (entry :: state.history.entries) := by
  unfold Keystroke.entry? at hentry
  split at hentry
  · next hcalculated =>
    obtain ⟨hkey, hnonempty, hok⟩ := hcalculated
    change key = .calculate at hkey
    subst hkey
    cases hentry
    cases h with
    | edit hedit => cases hedit
    | nothing hempty => exact absurd hempty hnonempty
    | success => apply entries_recorded
    | failure _ hcause =>
      rw [hcause] at hok
      cases hok
  · cases hentry

theorem Effect.entries_of_entry?_eq_none (h : Effect config state key next)
    (hkey : key ≠ .clearHistory) (hentry : Keystroke.entry? ⟨state, key, next⟩ = none) :
    next.history.entries = state.history.entries := by
  cases h with
  | edit => rfl
  | clear => rfl
  | nothing => rfl
  | success hnonempty hvalue =>
    unfold Keystroke.entry? at hentry
    rw [if_pos ⟨rfl, hnonempty, by simp only [hvalue]; rfl⟩] at hentry
    cases hentry
  | failure => rfl
  | clearHistory => cases hkey rfl

theorem entries_run (config : Config) (keys : List Key) :
    (run config {} keys).history.entries
      = config.kept (completed (keystrokes config {} keys)) := by
  induction keys using List.reverseRecOn with
  | nil => exact (Config.kept_nil config).symm
  | append_singleton keys key ih =>
    rw [run_concat, keystrokes_concat]
    have heffect := effect_press config (run config {} keys) key
    generalize (run config {} keys).press config key = next at heffect ⊢
    by_cases hkey : key = .clearHistory
    · rw [heffect.entries_eq_nil hkey, completed_concat_of_clearHistory hkey, Config.kept_nil]
    · rw [completed_concat_of_ne hkey]
      cases hentry : Keystroke.entry? ⟨run config {} keys, key, next⟩ with
      | none =>
        rw [heffect.entries_of_entry?_eq_none hkey hentry, ih]
        rfl
      | some entry =>
        rw [heffect.entries_of_entry?_eq_some hentry, ih, Config.kept_cons_kept]
        rfl

end State

end Calculator
