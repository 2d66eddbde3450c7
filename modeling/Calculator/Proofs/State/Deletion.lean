import Calculator.Proofs.State.Effect

/-!
This module contains what pressing the delete key several times does: it takes back what a key has
typed, and in the end it leaves the placeholder.
-/

namespace Calculator

namespace Key

/--
A text without its last `n` characters. The placeholder stands for the empty text.
-/
def shortenedBy (n : Nat) (text : String) : String :=
  if text.toList.length ≤ n then emptyDisplay else String.ofList (text.toList.rdrop n)

theorem shortened_eq_shortenedBy (text : String) : shortened text = shortenedBy 1 text := by
  unfold shortened shortenedBy State.dropLast
  rw [List.dropLast_eq_take]
  rfl

theorem shortened_shortenedBy (n : Nat) (text : String) :
    shortened (shortenedBy n text) = shortenedBy (n + 1) text := by
  unfold shortenedBy
  by_cases hn : text.toList.length ≤ n
  · rw [if_pos hn, if_pos (by omega)]
    rfl
  · rw [if_neg hn, shortened_eq_shortenedBy, shortenedBy, String.toList_ofList]
    simp only [List.rdrop, List.length_take, List.take_take]
    congr 1
    · apply propext
      omega
    · congr 2
      omega

theorem shortenedBy_of_length_le {n : Nat} {text : String} (h : text.toList.length ≤ n) :
    shortenedBy n text = emptyDisplay :=
  if_pos h

/--
A symbol behind a buffer is taken back as a whole. Behind no buffer the placeholder takes its place.
-/
theorem shortenedBy_append (buffer symbol : String) :
    shortenedBy symbol.toList.length (buffer ++ symbol)
      = if buffer = "" then emptyDisplay else buffer := by
  unfold shortenedBy
  rw [String.toList_append, List.length_append]
  by_cases hbuffer : buffer = ""
  · rw [if_pos hbuffer, if_pos]
    simp [hbuffer]
  · have hpos : 0 < buffer.toList.length := by
      apply List.length_pos_of_ne_nil
      rwa [Ne, String.toList_eq_nil_iff]
    rw [if_neg hbuffer, if_neg (by omega)]
    simp [List.rdrop]

end Key

namespace State

variable (config : Config)

theorem press_of_symbol? (state : State) {key : Key} {symbol : String}
    (h : key.symbol? = some symbol) : state.press config key = state.append symbol := by
  cases key <;> cases h <;> rfl

theorem run_replicate_delete (state : State) (n : Nat) :
    run config state (List.replicate (n + 1) .delete)
      = state.typing (Key.shortenedBy (n + 1) state.pending) := by
  induction n with
  | zero =>
    rw [← Key.shortened_eq_shortenedBy, ← delete_eq_typing]
    rfl
  | succ n ih =>
    rw [List.replicate_succ', run_concat, ih, press, delete_eq_typing, pending_typing,
      Key.shortened_shortenedBy]
    rfl

theorem typing_displayText {state : State} (hresult : state.isResult = false)
    (herror : state.error? = none) : state.typing state.displayText = state := by
  cases state
  cases hresult
  cases herror
  rfl

theorem append_eq_typing {state : State} {symbol : String}
    (h : replacesTail state.editable symbol = false) :
    state.append symbol = state.typing (state.editable ++ symbol) := by
  rw [append, extendBuffer, h]
  rfl

/--
Without a tail that is replaced, the buffer can be had back.
-/
theorem run_symbol_deletes {state : State} {key : Key} {symbol : String}
    (hresult : state.isResult = false) (herror : state.error? = none)
    (hnonempty : state.displayText ≠ "") (hkey : key.symbol? = some symbol) (hsymbol : symbol ≠ "")
    (hkept : replacesTail state.editable symbol = false) :
    run config state (key :: List.replicate symbol.toList.length .delete) = state := by
  obtain ⟨n, hn⟩ : ∃ n, symbol.toList.length = n + 1 := by
    apply Nat.exists_eq_succ_of_ne_zero
    rwa [Ne, List.length_eq_zero_iff, String.toList_eq_nil_iff]
  have hrun : run config state (key :: List.replicate symbol.toList.length .delete)
      = run config (state.press config key) (List.replicate (n + 1) .delete) := by
    rw [hn]
    rfl
  rw [hrun, press_of_symbol? config state hkey, append_eq_typing hkept, run_replicate_delete,
    pending_typing, ← hn, Key.shortenedBy_append]
  have hbuffer : (if state.editable = "" then emptyDisplay else state.editable)
      = state.displayText := by
    rw [editable_eq_withoutPlaceholder, pending_eq_displayText hresult herror,
      Key.withoutPlaceholder]
    by_cases hplaceholder : state.displayText = emptyDisplay
    · simp [hplaceholder]
    · simp [hplaceholder, hnonempty]
  rw [hbuffer]
  exact typing_displayText hresult herror

theorem length_pending_le (state : State) :
    state.pending.toList.length ≤ max 1 state.displayText.toList.length := by
  unfold pending
  split
  · apply Nat.le_max_left
  · apply Nat.le_max_right

theorem run_replicate_delete_eq_clear (state : State) {n : Nat}
    (h : max 1 state.displayText.toList.length ≤ n) :
    run config state (List.replicate n .delete) = state.press config .clear := by
  obtain ⟨n, rfl⟩ : ∃ m, n = m + 1 := Nat.exists_eq_succ_of_ne_zero (by omega)
  have hlength := state.length_pending_le
  rw [run_replicate_delete, Key.shortenedBy_of_length_le (by omega)]
  rfl

theorem run_deletes :
    (∀ (state : State) (key : Key) (symbol : String), state.isResult = false →
        state.error? = none → state.displayText ≠ "" → key.symbol? = some symbol → symbol ≠ "" →
        replacesTail state.editable symbol = false →
        run config state (key :: List.replicate symbol.toList.length .delete) = state)
      ∧ ∀ (state : State) (n : Nat), max 1 state.displayText.toList.length ≤ n →
        run config state (List.replicate n .delete) = state.press config .clear
          ∧ state.press config .clear
            = { displayText := "0", history := state.history, isResult := false,
                error? := none } := by
  constructor
  · intro state key symbol
    exact run_symbol_deletes config
  · intro state n hlength
    exact ⟨run_replicate_delete_eq_clear config state hlength, rfl⟩

theorem run_deletes_root :
    run {} { displayText := "5×", history := ⟨["1+1 = 2"]⟩ } [.operator "√(", .delete, .delete]
        = { displayText := "5×", history := ⟨["1+1 = 2"]⟩ }
      ∧ run {} { displayText := "÷×", history := ⟨["1+1 = 2"]⟩, error? := some "Error" }
          [.delete, .delete, .delete]
        = press {} { displayText := "÷×", history := ⟨["1+1 = 2"]⟩, error? := some "Error" } .clear
      ∧ press {} { displayText := "÷×", history := ⟨["1+1 = 2"]⟩, error? := some "Error" } .clear
        = { displayText := "0", history := ⟨["1+1 = 2"]⟩, isResult := false, error? := none } := by
  constructor
  · exact (run_deletes {}).1 _ (.operator "√(") "√(" rfl rfl (by decide) rfl (by decide) (by decide)
  · exact (run_deletes {}).2 _ 3 (by decide)

end State

end Calculator
