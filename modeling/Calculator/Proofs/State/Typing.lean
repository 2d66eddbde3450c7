import Calculator.Proofs.State.Effect

/-!
This module contains the closed form of typing: what a text leaves in the buffer when it is typed
character by character.
-/

namespace Calculator

namespace Key

def isOperatorChar (c : Char) : Bool := isBinaryOperator (String.singleton c)

/--
Whether the character `c` at index `i` of a text is replaced by an operator right behind it. Those
before index `start` are not.
-/
def isReplaced (start : Nat) (text : List Char) (c : Char) (i : Nat) : Bool :=
  start ≤ i && replaceableTail.contains c && text[i + 1]?.any isOperatorChar

def survivors (start : Nat) (text : List Char) : List Char :=
  (text.zipIdx.filter fun (c, i) => !isReplaced start text c i).map Prod.fst

/--
The buffer after `text` has been typed behind `buffer`. Zeros in front only repeat the placeholder.
-/
def typed (buffer text : List Char) : List Char :=
  if buffer = [] then
    match text.dropWhile (· = '0') with
    | [] => emptyDisplay.toList
    | rest => survivors 0 rest
  else
    survivors (buffer.length - 1) (buffer ++ text)

variable {start : Nat} {text front : List Char} {last c : Char}

theorem survivors_concat (start : Nat) (front : List Char) (last : Char) :
    survivors start (front ++ [last])
      = (front.zipIdx.filter fun (c, i) => !isReplaced start (front ++ [last]) c i).map Prod.fst
        ++ [last] := by
  have hlast : isReplaced start (front ++ [last]) last front.length = false := by
    simp [isReplaced]
  simp [survivors, List.zipIdx_append, hlast]

/--
The last character of a text stays for the time being: only the next one decides about it.
-/
theorem survivors_concat_concat (h : start ≤ front.length) :
    survivors start (front ++ [last] ++ [c])
      = (if isOperatorChar c && replaceableTail.contains last
          then (survivors start (front ++ [last])).dropLast
          else survivors start (front ++ [last])) ++ [c] := by
  have hfront : front.zipIdx.filter (fun (x, i) => !isReplaced start (front ++ [last] ++ [c]) x i)
      = front.zipIdx.filter (fun (x, i) => !isReplaced start (front ++ [last]) x i) := by
    apply List.filter_congr
    rintro ⟨x, i⟩ hx
    have hlt : i + 1 < (front ++ [last]).length := by simpa using List.snd_lt_of_mem_zipIdx hx
    simp only [isReplaced, List.getElem?_append_left hlt]
  have hreplaced : isReplaced start (front ++ [last] ++ [c]) last front.length
      = (isOperatorChar c && replaceableTail.contains last) := by
    simp [isReplaced, h, Bool.and_comm]
  have hlast : [(last, front.length)].filter
      (fun (x, i) => !isReplaced start (front ++ [last] ++ [c]) x i)
      = if isOperatorChar c && replaceableTail.contains last then []
        else [(last, front.length)] := by
    rw [List.filter_singleton]
    dsimp only
    rw [hreplaced]
    cases isOperatorChar c && replaceableTail.contains last <;> rfl
  rw [survivors_concat start (front ++ [last]), survivors_concat start front, List.zipIdx_append,
    List.filter_append, List.map_append, hfront, List.zipIdx_singleton, Nat.zero_add, hlast]
  split
  · simp
  · simp

/--
A digit replaces nothing, so what stands before it is left, too.
-/
theorem survivors_ne_placeholder (h : text ≠ ['0']) : survivors start text ≠ ['0'] := by
  rcases List.eq_nil_or_concat' text with rfl | ⟨front, last, rfl⟩
  · simp [survivors]
  rcases List.eq_nil_or_concat' front with rfl | ⟨front, before, rfl⟩
  · simpa [survivors, isReplaced] using h
  intro hsurvivors
  rw [survivors_concat, ← List.nil_append ['0']] at hsurvivors
  obtain ⟨hfront, hlast⟩ := List.append_inj' hsurvivors rfl
  obtain rfl : last = '0' := by simpa using hlast
  have hbefore : isReplaced start (front ++ [before, '0']) before front.length = false := by
    simp [isReplaced, isOperatorChar, isBinaryOperator, binaryOperators]
  simp [List.zipIdx_append, hbefore] at hfront

theorem extendBuffer_survivors (hstart : start < text.length) (hplaceholder : text ≠ ['0'])
    (c : Char) :
    State.extendBuffer (withoutPlaceholder (String.ofList (survivors start text)))
        (String.singleton c)
      = String.ofList (survivors start (text ++ [c])) := by
  have hne : String.ofList (survivors start text) ≠ emptyDisplay := by
    intro h
    apply @survivors_ne_placeholder start text hplaceholder
    rw [← String.toList_ofList (l := survivors start text), h]
    rfl
  rcases List.eq_nil_or_concat' text with rfl | ⟨front, last, rfl⟩
  · cases hstart
  have hfront : start ≤ front.length := by simpa [Nat.lt_succ_iff] using hstart
  have hlast : (survivors start (front ++ [last])).getLast? = some last := by
    rw [survivors_concat, List.getLast?_concat]
  have hreplaces : State.replacesTail (String.ofList (survivors start (front ++ [last])))
      (String.singleton c) = (isOperatorChar c && replaceableTail.contains last) := by
    simp [State.replacesTail, hlast, isOperatorChar]
  rw [withoutPlaceholder, if_neg hne, State.extendBuffer, hreplaces, survivors_concat_concat hfront]
  split
  · simp [State.dropLast, String.ofList_append]
  · simp

/--
Typing one more character behind `text` is one more step of the editing rules.
-/
theorem typed_concat {buffer : List Char} (h : buffer ≠ ['0']) (text : List Char) (c : Char) :
    String.ofList (typed buffer (text ++ [c]))
      = State.extendBuffer (withoutPlaceholder (String.ofList (typed buffer text)))
        (String.singleton c) := by
  unfold typed
  by_cases hbuffer : buffer = []
  · rw [if_pos hbuffer, if_pos hbuffer, List.dropWhile_append]
    cases hrest : text.dropWhile (· = '0') with
    | nil =>
      have hfresh : State.extendBuffer (withoutPlaceholder (String.ofList emptyDisplay.toList))
          (String.singleton c) = String.ofList [c] := by
        simp [withoutPlaceholder, State.extendBuffer, State.replacesTail]
      rw [hfresh]
      by_cases hc : c = '0'
      · simp [hc, emptyDisplay]
      · simp [hc, survivors, isReplaced]
    | cons first rest =>
      have hfirst : first ≠ '0' := by
        have := List.head?_dropWhile_not (· = '0') text
        rw [hrest] at this
        simpa using this
      refine (extendBuffer_survivors (Nat.succ_pos _) ?_ c).symm
      rintro ⟨⟩
      exact hfirst rfl
  · rw [if_neg hbuffer, if_neg hbuffer, ← List.append_assoc, extendBuffer_survivors]
    · have := List.length_pos_iff.mpr hbuffer
      rw [List.length_append]
      omega
    · intro hplaceholder
      rcases List.append_eq_singleton_iff.mp hplaceholder with ⟨hnil, -⟩ | ⟨hzero, -⟩
      · exact hbuffer hnil
      · exact h hzero

theorem survivors_eq_self (h : ∀ c i, (c, i) ∈ text.zipIdx → isReplaced start text c i = false) :
    survivors start text = text := by
  unfold survivors
  rw [List.filter_eq_self.mpr, List.zipIdx_map_fst]
  rintro ⟨c, i⟩ hmem
  simp [h c i hmem]

theorem typed_nil {buffer : String} (h : buffer ≠ emptyDisplay) :
    withoutPlaceholder (String.ofList (typed buffer.toList [])) = buffer := by
  unfold typed
  by_cases hbuffer : buffer.toList = []
  · rw [if_pos hbuffer, List.dropWhile_nil, String.ofList_toList, withoutPlaceholder, if_pos rfl]
    exact (String.toList_eq_nil_iff.mp hbuffer).symm
  · have hkept : survivors (buffer.toList.length - 1) buffer.toList = buffer.toList := by
      apply survivors_eq_self
      intro c i hmem
      -- From the last character on there is nothing behind.
      have hlt := List.snd_lt_of_mem_zipIdx hmem
      by_cases hi : buffer.toList.length - 1 ≤ i
      · rw [isReplaced, List.getElem?_eq_none (by omega), Option.any_none, Bool.and_false]
      · simp [isReplaced, hi]
    rw [if_neg hbuffer, List.append_nil, hkept, String.ofList_toList, withoutPlaceholder, if_neg h]

end Key

namespace State

variable (config : Config) (state : State)

@[simp]
theorem editable_typing (buffer : String) :
    (state.typing buffer).editable = Key.withoutPlaceholder buffer := by
  rw [editable_eq_withoutPlaceholder, pending_typing]

theorem editable_ne_placeholder : state.editable ≠ emptyDisplay := by
  rw [editable_eq_withoutPlaceholder, Key.withoutPlaceholder]
  split
  · decide
  · assumption

theorem press_ofChar (c : Char) :
    state.press config (.ofChar c) = state.append (String.singleton c) := by
  unfold Key.ofChar
  split <;> rfl

theorem run_map_ofChar (text : List Char) :
    run config state (text.map .ofChar)
      = if text = [] then state
        else state.typing (String.ofList (Key.typed state.editable.toList text)) := by
  induction text using List.reverseRecOn with
  | nil => rfl
  | append_singleton text c ih =>
    have hbuffer : state.editable.toList ≠ ['0'] := by
      intro h
      apply state.editable_ne_placeholder
      exact String.toList_inj.mp h
    rw [List.map_append, List.map_singleton, run_concat, press_ofChar, append,
      if_neg (List.concat_ne_nil c text), Key.typed_concat hbuffer, ih]
    by_cases htext : text = []
    · rw [if_pos htext, htext, Key.typed_nil state.editable_ne_placeholder]
    · rw [if_neg htext, editable_typing]
      rfl

/--
Typing depends on the pending text alone and leaves the history as it is.
-/
theorem run_typed {text : String} (h : text ≠ "") :
    run config state (text.toList.map .ofChar)
      = { displayText := String.ofList (Key.typed state.editable.toList text.toList)
          history := state.history
          isResult := false
          error? := none } := by
  rw [run_map_ofChar, if_neg (mt String.toList_eq_nil_iff.mp h)]
  rfl

theorem run_typed_tail :
    "×(2.-." ≠ ""
      ∧ (run {} { displayText := "3.1+" } ("×(2.-.".toList.map .ofChar)).displayText
        = "3.1×(2-." := by
  refine ⟨by decide, ?_⟩
  rw [run_typed _ _ (by decide)]
  decide

end State

end Calculator
