import Calculator.Proofs.Expression.LeadingZeros
import Calculator.Proofs.Session.Run
import Calculator.Proofs.State.Recalculation
import Calculator.Proofs.State.Typing

/-!
This module contains the theorem about expressions that are typed and calculated in a new session.
The placeholder swallows the zeros that an expression starts with, which only matters if the number
that they belong to has no other digits.
-/

namespace Calculator

namespace Key

/--
No operator stands right behind a character that it would replace.
-/
def Kept (text : List Char) : Prop :=
  text.IsChain fun c next => ¬(c ∈ replaceableTail ∧ isOperatorChar next = true)

instance (text : List Char) : Decidable (Kept text) :=
  inferInstanceAs (Decidable (List.IsChain _ _))

theorem survivors_of_kept {text : List Char} (h : Kept text) (start : Nat) :
    survivors start text = text := by
  apply survivors_eq_self
  intro c i hmem
  have hc : text[i]? = some c := List.mem_zipIdx_iff_getElem?.mp hmem
  unfold isReplaced
  cases hnext : text[i + 1]? with
  | none => rw [Option.any_none, Bool.and_false]
  | some next =>
    obtain ⟨hlt, rfl⟩ := List.getElem?_eq_some_iff.mp hnext
    obtain ⟨-, rfl⟩ := List.getElem?_eq_some_iff.mp hc
    have hkept := List.isChain_iff_getElem.mp h i hlt
    rw [Bool.eq_false_iff]
    intro hreplaced
    simp only [Bool.and_eq_true, List.contains_iff_mem, Option.any_some] at hreplaced
    exact hkept ⟨hreplaced.1.2, hreplaced.2⟩

/--
The text without the zeros that it starts with, or the placeholder if nothing else is left.
-/
def withoutZeros (text : String) : String :=
  match text.toList.dropWhile (· = '0') with
  | [] => emptyDisplay
  | rest => String.ofList rest

theorem withoutZeros_ne_empty (text : String) : withoutZeros text ≠ "" := by
  unfold withoutZeros
  split
  · decide
  · next hrest =>
    rw [Ne, String.ofList_eq_empty_iff]
    exact hrest

theorem typed_of_kept {text : String} (h : Kept text.toList) :
    String.ofList (typed [] text.toList) = withoutZeros text := by
  unfold typed withoutZeros
  rw [if_pos rfl]
  cases hrest : text.toList.dropWhile (· = '0') with
  | nil => rfl
  | cons first rest =>
    have hkept : Kept (first :: rest) := by
      apply List.IsChain.suffix h
      rw [← hrest]
      exact List.dropWhile_suffix _
    dsimp only
    rw [survivors_of_kept hkept]

theorem toList_withoutZeros {text : String} {first : Char} {rest : List Char}
    (h : text.toList.dropWhile (· = '0') = first :: rest) :
    (withoutZeros text).toList = first :: rest := by
  unfold withoutZeros
  rw [h]
  exact String.toList_ofList

theorem withoutZeros_of_head?_ne {text : String} (hne : text ≠ "")
    (h : text.toList.head? ≠ some '0') : withoutZeros text = text := by
  obtain ⟨first, rest, htext⟩ := List.exists_cons_of_ne_nil (mt String.toList_eq_nil_iff.mp hne)
  have hfirst : first ≠ '0' := by
    rintro rfl
    exact h (by rw [htext]; rfl)
  have hrest : text.toList.dropWhile (· = '0') = first :: rest := by
    rw [htext, List.dropWhile_cons_of_neg (by simpa using hfirst)]
  rw [← String.toList_inj, toList_withoutZeros hrest, htext]

theorem exists_eq_zeros_append {text : List Char} (h : text.head? = some '0') :
    ∃ zeros, text = List.replicate (zeros + 1) '0' ++ text.dropWhile (· = '0') := by
  obtain ⟨tail, rfl⟩ := List.head?_eq_some_iff.mp h
  have hzeros := List.eq_replicate_of_mem (fun c (hc : c ∈ tail.takeWhile (· = '0')) => by
    simpa using List.mem_takeWhile_imp hc)
  refine ⟨(tail.takeWhile (· = '0')).length, ?_⟩
  rw [List.replicate_succ, ← hzeros, List.cons_append, List.dropWhile_cons_of_pos (by decide),
    List.takeWhile_append_dropWhile]

theorem normalize_withoutZeros {text : String} (h : text.toList.head? = some '0') :
    ∃ zeros, (withoutZeros text = "0"
        ∧ (Expr.normalize text).toList = List.replicate (zeros + 1) '0')
      ∨ (Expr.normalize text).toList
        = List.replicate (zeros + 1) '0' ++ (Expr.normalize (withoutZeros text)).toList := by
  obtain ⟨zeros, htext⟩ := exists_eq_zeros_append h
  have hzeros : Expr.normalizeChars (List.replicate (zeros + 1) '0')
      = List.replicate (zeros + 1) '0' := by
    apply Expr.normalizeChars_of_forall
    intro c hc
    rw [List.eq_of_mem_replicate hc]
    decide
  have hnormal := congrArg Expr.normalizeChars htext
  rw [Expr.normalizeChars_append, hzeros] at hnormal
  rw [Expr.normalize, String.toList_ofList, Expr.normalize, String.toList_ofList, hnormal]
  refine ⟨zeros, ?_⟩
  cases hrest : text.toList.dropWhile (· = '0') with
  | nil =>
    left
    rw [withoutZeros, hrest]
    exact ⟨rfl, List.append_nil _⟩
  | cons first rest =>
    right
    rw [toList_withoutZeros hrest]

end Key

namespace State

/--
What the outcome of a calculation looks like.
-/
inductive Shows (config : Config) (state : State) : Except SyntaxError Binary64 → Prop where
  | result {value : Binary64} (display : state.display = value.display config.maxFractionDigits)
      (error? : state.error? = none) : Shows config state (.ok value)
  | error {cause : SyntaxError} (display : state.display = config.errorLabel)
      (error? : state.error? = some config.errorLabel) : Shows config state (.error cause)

theorem shows_press_calculate (config : Config) {state : State} {text : String}
    (htext : state.displayText = text) (h : text ≠ "") :
    (state.press config .calculate).Shows config (Expr.evaluate text) := by
  subst htext
  cases hvalue : Expr.evaluate state.displayText with
  | ok value =>
    rw [press_calculate_of_success (Calculation.of_eq_success hvalue)]
    exact .result rfl rfl
  | error cause =>
    rw [press_calculate_of_failure (Calculation.of_eq_failure h hvalue)]
    exact .error rfl rfl

end State

namespace Session

variable (session : Session) (text : String)

theorem type_eq_serveAll :
    session.type text = session.serveAll ((text.toList.map .ofChar).map .dispatch) := by
  simp only [type, dispatchAll, serveAll, List.foldl_map, serve]

theorem keys_map_dispatch (keys : List Key) : Request.keys (keys.map .dispatch) = keys := by
  unfold Request.keys
  rw [List.filterMap_map]
  exact List.filterMap_some

theorem config_type : (session.type text).session.config = session.config := by
  rw [type_eq_serveAll, config_serveAll]

theorem state_type :
    (session.type text).session.state
      = State.run session.config session.state (text.toList.map .ofChar) := by
  rw [type_eq_serveAll, state_serveAll, keys_map_dispatch]

/--
The session after a text has been typed into a new one and calculated.
-/
def calculated (config : Config) (text : String) : Session :=
  (((new config).session.type text).session.dispatch .calculate).session

theorem displayText_type_new (config : Config) {text : String} (hne : text ≠ "")
    (hkept : Key.Kept text.toList) :
    ((new config).session.type text).session.state.displayText = Key.withoutZeros text := by
  have heditable : (new config).session.state.editable.toList = [] := rfl
  rw [state_type, State.run_map_ofChar, if_neg (mt String.toList_eq_nil_iff.mp hne), heditable,
    State.typing]
  exact Key.typed_of_kept hkept

theorem shows_calculated (config : Config) {text : String} (hne : text ≠ "")
    (hkept : Key.Kept text.toList) :
    (calculated config text).state.Shows config (Expr.evaluate (Key.withoutZeros text)) := by
  have hconfig : ((new config).session.type text).session.config = config := config_type _ text
  rw [calculated, state_dispatch, hconfig]
  exact State.shows_press_calculate config (displayText_type_new config hne hkept)
    (Key.withoutZeros_ne_empty text)

/--
The placeholder takes the zeros that an expression starts with. That is no matter if a number is
left. A sign may be left too, which belongs to the operand behind it then, but no other operator.
-/
theorem shows_typed (config : Config) {text left : String} {v : Binary64}
    (hvalue : Expr.evaluate text = .ok v) (hkept : Key.Kept text.toList)
    (hleft : Key.withoutZeros text = left) :
    ((new config).session.type text).session.state.displayText = left
      ∧ (calculated config text).state.Shows config (Expr.evaluate left)
      ∧ (text.toList.head? ≠ some '0' ∨ Expr.StartsNumber (Expr.normalize left).toList →
        Expr.evaluate left = .ok v)
      ∧ (text.toList.head? = some '0' →
        (Expr.StartsSign (Expr.normalize left).toList →
          ∃ v', Binary64.EqOrNegZero v v'
            ∧ (Expr.parseWithin (Expr.maxDepth + 1) (Expr.normalize left)).map Expr.value = .ok v'
            ∧ (Expr.evaluate left = .ok v'
              ∨ Expr.evaluate left = .error (.tooDeeplyNested Expr.maxDepth)))
        ∧ (¬Expr.StartsNumber (Expr.normalize left).toList →
          ¬Expr.StartsSign (Expr.normalize left).toList →
          ∃ cause, Expr.evaluate left = .error cause)) := by
  have hne : text ≠ "" := by
    rintro rfl
    cases hvalue
  subst hleft
  refine ⟨displayText_type_new config hne hkept, shows_calculated config hne hkept, ?_, ?_⟩
  · intro hstart
    by_cases hhead : text.toList.head? = some '0'
    · obtain ⟨zeros, ⟨hzero, htext⟩ | htext⟩ := Key.normalize_withoutZeros hhead
      · rw [hzero]
        exact Expr.evaluate_of_zeros hvalue htext
      · exact Expr.evaluate_of_startsNumber hvalue htext rfl (hstart.resolve_left (· hhead))
    · rw [Key.withoutZeros_of_head?_ne hne hhead]
      exact hvalue
  · intro hhead
    obtain ⟨zeros, ⟨hzero, -⟩ | htext⟩ := Key.normalize_withoutZeros hhead
    · rw [hzero]
      constructor
      · rintro ⟨sign, hsign⟩
        cases sign <;> cases hsign
      · intro hnumber
        exact absurd (by decide) hnumber
    · exact ⟨Expr.evaluate_of_sign hvalue htext rfl,
        Expr.exists_evaluate_eq_error hvalue htext rfl⟩

theorem shows_typed_zeros :
    (Expr.evaluate "00.5" = .ok (Decimal.toBinary64 ⟨5, 1⟩)
        ∧ (calculated {} "00.5").state.Shows {} (.ok (Decimal.toBinary64 ⟨5, 1⟩)))
      ∧ (Expr.evaluate "0-0" = .ok (.zero false)
        ∧ (calculated {} "0-0").state.Shows {} (.ok (.zero true))) := by
  have hhalf : Expr.evaluate "00.5" = .ok (Decimal.toBinary64 ⟨5, 1⟩) := by
    let half : Numeral := ⟨['0', '0'], some ['5']⟩
    refine Expr.evaluate_of_chars (d := .ofTerm (.ofFactor (.ofNumeral half (by decide)))) rfl ?_
      (by decide) (by decide +kernel)
    trivial
  let zero : Derivation .factor := .ofNumeral ⟨['0'], none⟩ (by decide)
  have hzero : Expr.evaluate "0-0" = .ok (.zero false) := by
    refine Expr.evaluate_of_chars (d := .sum (.ofTerm (.ofFactor zero)) .sub rfl (.ofFactor zero))
      rfl ?_ (by decide) (by decide +kernel)
    exact ⟨trivial, trivial⟩
  have hnegative : Expr.evaluate "-0" = .ok (.zero true) := by
    refine Expr.evaluate_of_chars (d := .ofTerm (.ofFactor (.signedFactor .minus zero))) rfl ?_
      (by decide) (by decide +kernel)
    trivial
  have hnumber := shows_typed {} hhalf (by decide) rfl
  have hsign := shows_typed {} hzero (by decide) rfl
  refine ⟨⟨hhalf, ?_⟩, hzero, ?_⟩
  · rw [← hnumber.2.2.1 (.inr (by decide))]
    exact hnumber.2.1
  · rw [← hnegative]
    exact hsign.2.1

/--
The placeholder takes the zero, and a factor without one in front of it is no expression.
-/
theorem not_forall_shows_value :
    ¬∀ (config : Config) (text : String) (v : Binary64), Expr.evaluate text = .ok v →
      Key.Kept text.toList → (calculated config text).state.Shows config (.ok v) := by
  intro h
  have hproduct : Expr.evaluate "0×5" = .ok (.zero false) := by
    refine Expr.evaluate_of_chars
      (d := .ofTerm (.product (.ofFactor (.ofNumeral ⟨['0'], none⟩ (by decide))) .mul rfl
        (.ofNumeral ⟨['5'], none⟩ (by decide)))) rfl ?_ (by decide) (by decide +kernel)
    exact ⟨trivial, trivial⟩
  have hleft : Key.withoutZeros "0×5" = "×5" := rfl
  have hbody : (Expr.normalize "×5").toList = ['*', '5'] := rfl
  have hfactor : ¬Cursor.StartsOperand ['*', '5'] := by
    simp [Cursor.StartsOperand, Cursor.isNumeric]
  have hshown := @shows_calculated {} "0×5" (by decide) (by decide)
  rw [hleft, Expr.evaluate_of_refuses hbody (.atChar hfactor)] at hshown
  cases h {} "0×5" (.zero false) hproduct (by decide) with
  | result _ hnone =>
    cases hshown with
    | error _ hsome =>
      rw [hnone] at hsome
      cases hsome

end Session

end Calculator
