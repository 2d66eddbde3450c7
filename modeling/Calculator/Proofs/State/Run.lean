import Calculator.State.Press
import Mathlib.Data.List.DropRight

/-!
This module contains runs of a calculator, which press one key after another, and the keystrokes that
a run consists of.
-/

namespace Calculator

structure Keystroke where
  before : State
  key : Key
  after : State

namespace State

variable (config : Config)

def run (state : State) (keys : List Key) : State := keys.foldl (press config) state

def keystrokes : State → List Key → List Keystroke
  | _, [] => []
  | state, key :: keys =>
    ⟨state, key, state.press config key⟩ :: keystrokes (state.press config key) keys

theorem run_append (state : State) (front back : List Key) :
    run config state (front ++ back) = run config (run config state front) back :=
  List.foldl_append

theorem run_concat (state : State) (keys : List Key) (key : Key) :
    run config state (keys ++ [key]) = (run config state keys).press config key :=
  run_append config state keys [key]

theorem keystrokes_append (state : State) (front back : List Key) :
    keystrokes config state (front ++ back)
      = keystrokes config state front ++ keystrokes config (run config state front) back := by
  induction front generalizing state with
  | nil => rfl
  | cons key front ih =>
    simp only [List.cons_append, keystrokes]
    rw [ih]
    rfl

theorem keystrokes_concat (state : State) (keys : List Key) (key : Key) :
    keystrokes config state (keys ++ [key])
      = keystrokes config state keys
        ++ [⟨run config state keys, key, (run config state keys).press config key⟩] :=
  keystrokes_append config state keys [key]

theorem run_induction {P : State → Prop} {state : State} (hstart : P state)
    (hpress : ∀ state key, P state → P (state.press config key)) (keys : List Key) :
    P (run config state keys) := by
  induction keys using List.reverseRecOn with
  | nil => exact hstart
  | append_singleton keys key ih =>
    rw [run_concat]
    apply hpress
    exact ih

end State

end Calculator
