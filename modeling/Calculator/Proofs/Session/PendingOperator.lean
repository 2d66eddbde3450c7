import Calculator.Proofs.Session.Run
import Calculator.Proofs.State.AdjacentOperators

/-!
This module contains the theorem about binary operators that are pressed in a row: only the last one
counts, and pressing it again changes nothing.
-/

namespace Calculator

namespace State

variable {buffer symbol symbol' : String}

/--
The part of a buffer that stays if a binary operator is pressed.
-/
def withoutTail (buffer : String) : String :=
  if buffer.toList.getLast?.any Key.replaceableTail.contains then dropLast buffer else buffer

theorem extendBuffer_eq_withoutTail (h : Key.isBinaryOperator symbol = true) :
    extendBuffer buffer symbol = withoutTail buffer ++ symbol := by
  rw [extendBuffer, replacesTail, h, Bool.true_and]
  rfl

theorem withoutTail_append (h : Key.isBinaryOperator symbol = true) :
    withoutTail (buffer ++ symbol) = buffer := by
  obtain ⟨c, hc, rfl⟩ := Key.isBinaryOperator_iff.mp h
  have htail : c ∈ Key.replaceableTail := by
    rw [Key.mem_replaceableTail_iff, Key.isOperatorChar_iff]
    exact .inl hc
  rw [withoutTail, dropLast, String.toList_append, String.toList_singleton, List.getLast?_concat,
    List.dropLast_concat, String.ofList_toList]
  simp [htail]

theorem append_ne_placeholder (h : Key.isBinaryOperator symbol = true) :
    buffer ++ symbol ≠ emptyDisplay := by
  obtain ⟨c, hc, rfl⟩ := Key.isBinaryOperator_iff.mp h
  have hne : c ≠ '0' := ne_of_mem_of_not_mem hc (by decide)
  intro hplaceholder
  have hchars : buffer.toList ++ [c] = [] ++ ['0'] := by
    rw [← String.toList_singleton, ← String.toList_append, hplaceholder]
    rfl
  exact hne (List.singleton_inj.mp (List.append_inj' hchars rfl).2)

theorem append_append (state : State) (h : Key.isBinaryOperator symbol = true)
    (h' : Key.isBinaryOperator symbol' = true) :
    (state.append symbol).append symbol' = state.append symbol' := by
  have hbuffer : (state.append symbol).editable = withoutTail state.editable ++ symbol := by
    rw [append, editable_typing, extendBuffer_eq_withoutTail h, Key.withoutPlaceholder,
      if_neg (append_ne_placeholder h)]
  unfold append at hbuffer ⊢
  rw [hbuffer, extendBuffer_eq_withoutTail h', withoutTail_append h, extendBuffer_eq_withoutTail h']
  rfl

theorem run_operators (config : Config) (state : State) {symbols : List String} {last : String}
    (h : ∀ symbol ∈ symbols ++ [last], Key.isBinaryOperator symbol = true) :
    run config state ((symbols ++ [last]).map .operator) = state.press config (.operator last) := by
  induction symbols generalizing state with
  | nil => rfl
  | cons first symbols ih =>
    have hlast : Key.isBinaryOperator last = true := h last (by simp)
    have hfirst : Key.isBinaryOperator first = true := h first (by simp)
    have hrun := ih (state.press config (.operator first))
      fun symbol hmem => h symbol (List.mem_cons_of_mem first hmem)
    exact hrun.trans (append_append state hfirst hlast)

end State

namespace Session

theorem replace_state (session : Session) :
    session.replace session.state = { session, log := [.unchanged session.revision] } :=
  if_pos rfl

theorem serveAll_operators {symbols : List String} {last : String}
    (h : ∀ symbol ∈ symbols ++ [last], Key.isBinaryOperator symbol = true) :
    (∀ (config : Config) (state : State),
        State.run config state ((symbols ++ [last]).map .operator)
          = state.press config (.operator last))
      ∧ ∀ (session : Session) (requests : List Request),
        Request.keys requests = (symbols ++ [last]).map .operator →
        let pending := (session.serveAll requests).session
        (pending.dispatch (.operator last)).session = pending
          ∧ (pending.dispatch (.operator last)).deliveries = [] := by
  refine ⟨fun config state => State.run_operators config state h, ?_⟩
  intro session requests hkeys pending
  have hlast : Key.isBinaryOperator last = true := h last (by simp)
  have hstate : pending.state.press pending.config (.operator last) = pending.state := by
    have hpending : pending.state = session.state.append last := by
      rw [state_serveAll, hkeys, State.run_operators _ _ h]
      rfl
    rw [hpending]
    exact State.append_append session.state hlast hlast
  rw [session_dispatch, deliveries_dispatch, hstate, replace_state]
  exact ⟨rfl, rfl⟩

theorem serveAll_operators_point :
    (∀ symbol ∈ ["+", "÷"] ++ ["÷"], Key.isBinaryOperator symbol = true)
      ∧ State.run {} { displayText := "5." } [.operator "+", .operator "÷", .operator "÷"]
        = State.press {} { displayText := "5." } (.operator "÷")
      ∧ State.press {} { displayText := "5." } (.operator "÷") = { displayText := "5÷" }
      ∧ let requests : List Request :=
          [.dispatch (.operator "+"), .subscribe, .dispatch (.operator "÷"),
            .dispatch (.operator "÷")]
        let pending := (serveAll { config := {} } requests).session
        pending.state.displayText = "÷"
          ∧ (pending.dispatch (.operator "÷")).session = pending
          ∧ (pending.dispatch (.operator "÷")).deliveries = [] := by
  have h : ∀ symbol ∈ ["+", "÷"] ++ ["÷"], Key.isBinaryOperator symbol = true := by decide
  refine ⟨h, (serveAll_operators h).1 {} _, by decide, ?_, (serveAll_operators h).2 _ _ rfl⟩
  decide

end Session

end Calculator
