import Calculator.Proofs.Expression.NormalForm
import Calculator.Proofs.Expression.Progress

/-!
This module contains the theorem that no text needs more than a fixed number of calls that are
active at the same time. The rules are given a number of calls that may be active at once, of which
each takes one from what its own calls have. Loops are no calls.
-/

namespace Calculator

namespace Call

section Body

variable (limit? : Option Nat) (invoke : Call → Cursor → Counted (Except SyntaxError Reading))

def loop (op? : Char → Option BinaryOp) (link : Rule) (left : Reading) :
    Counted (Except SyntaxError Reading) :=
  match left.next.eatMap? op? with
  | none => return .ok left
  | some (op, next) => do
    match ← invoke (.ofRule link) next with
    | .error cause => return .error cause
    | .ok right =>
      Counted.onward left.next right.next fun _ =>
        loop op? link ⟨.binary op left.expr right.expr, right.next⟩
termination_by left.next.remaining

def chain (op? : Char → Option BinaryOp) (first link : Rule) (start : Cursor) :
    Counted (Except SyntaxError Reading) := do
  match ← invoke (.ofRule first) start with
  | .error cause => return .error cause
  | .ok left => loop invoke op? link left

def signs (argument otherwise : Rule) (start : Cursor) : Counted (Except SyntaxError Reading) :=
  match start.eatKeyword? "+" with
  | some next => Counted.wrap (.signed .plus) <$> invoke (.ofRule argument) next
  | none =>
    match start.eatKeyword? "-" with
    | some next => Counted.wrap (.signed .minus) <$> invoke (.ofRule argument) next
    | none => invoke (.ofRule otherwise) start

def keywordRoot (start : Cursor) : Counted (Except SyntaxError Reading) :=
  match start.eatKeyword? "(" with
  | some next => Counted.wrap (.root .keyword) <$> invoke (.ofRule .group) next
  | none => Counted.wrap (.root .keyword) <$> invoke (.ofRule .factor) start

def primary (start : Cursor) : Counted (Except SyntaxError Reading) :=
  match start.eatKeyword? "(" with
  | some next => invoke (.ofRule .group) next
  | none =>
    if start.number = [] then
      match start.eatKeyword? "sqrt" with
      | some next => keywordRoot invoke next
      | none =>
        match start.eatKeyword? "√" with
        | some next => Counted.wrap (.root .radical) <$> invoke (.ofRule .factor) next
        | none =>
          match start.current? with
          | some found => return .error (.unexpectedChar found start.position)
          | none => return .error .unexpectedEnd
    else
      invoke .number start

def level (leave : Except SyntaxError Reading → Counted Unit)
    (m : Counted (Except SyntaxError Reading)) : Counted (Except SyntaxError Reading) := do
  match ← Counted.descend limit? with
  | .error cause => return .error cause
  | .ok () =>
    let outcome ← m
    leave outcome
    return outcome

/--
What a call does by itself. Everything else is left to the calls that it makes.
-/
def body : Call → Cursor → Counted (Except SyntaxError Reading)
  | .ofRule .expression, start => chain invoke BinaryOp.additive? .term .term start
  | .ofRule .term, start => chain invoke BinaryOp.multiplicative? .factor .factor start
  | .ofRule .factor, start =>
    level limit? (fun _ => modify Counter.up) (signs invoke .factor .powers start)
  | .ofRule .powers, start => chain invoke BinaryOp.power? .primary .operand start
  | .ofRule .operand, start =>
    level limit? (fun _ => modify Counter.up) (signs invoke .operand .primary start)
  | .ofRule .primary, start => primary invoke start
  | .ofRule .group, start =>
    level limit? Counted.leaveGroup
      (Except.map Counted.close <$> invoke (.ofRule .expression) start)
  | .number, start => Counted.number start

end Body

/--
A call that is one of at most `active` calls at a time. It has no outcome if it needs more.
-/
def performWithin (limit? : Option Nat) : Nat → Call → Cursor → Counted (Except SyntaxError Reading)
  | 0, _, _ => failure
  | active + 1, call, start => body limit? (performWithin limit? active) call start

theorem run_performWithin_zero (limit? : Option Nat) (call : Call) (start : Cursor)
    (counter : Counter) : (performWithin limit? 0 call start).run counter = none := rfl

theorem performWithin_succ (limit? : Option Nat) (active : Nat) (call : Call) (start : Cursor) :
    performWithin limit? (active + 1) call start
      = body limit? (performWithin limit? active) call start := rfl

/--
The number of active calls that a call needs if there are `levels` levels left.
-/
def needs (levels : Nat) : Call → Nat
  | .ofRule .expression | .ofRule .powers => 3 * levels + 3
  | .ofRule .term | .ofRule .primary => 3 * levels + 2
  | .ofRule .factor | .ofRule .operand | .ofRule .group => 3 * levels + 1
  | .number => 1

/--
The outcome of a computation in every state that leaves it `levels` of `limit` levels.
-/
def Yields (limit levels : Nat) (m : Counted (Except SyntaxError Reading))
    (outcome : Except SyntaxError Reading) : Prop :=
  ∀ counter : Counter, counter.depth + levels = limit →
    ∃ after, m.run counter = some (outcome, after)
      ∧ ∀ {result}, outcome = .ok result → after.depth = counter.depth

variable {limit levels active : Nat} {m : Counted (Except SyntaxError Reading)}
  {outcome : Except SyntaxError Reading} {start : Cursor}
  {invoke : Call → Cursor → Counted (Except SyntaxError Reading)}

theorem yields_pure (outcome : Except SyntaxError Reading) :
    Yields limit levels (pure outcome) outcome :=
  fun counter _ => ⟨counter, rfl, fun _ => rfl⟩

theorem Yields.andThen {f : Reading → Counted (Except SyntaxError Reading)}
    {second : Reading → Except SyntaxError Reading} :
    Yields limit levels m outcome →
    (∀ left, outcome = .ok left → Yields limit levels (f left) (second left)) →
    Yields limit levels
      (do
        match ← m with
        | .error cause => return .error cause
        | .ok left => f left)
      (match outcome with
        | .error cause => .error cause
        | .ok left => second left) := by
  intro hm hf counter hlevels
  obtain ⟨mid, hrun, hmid⟩ := hm counter hlevels
  cases outcome with
  | error cause => exact ⟨mid, by simp [hrun], nofun⟩
  | ok left =>
    have hdepth := hmid rfl
    obtain ⟨after, hrun', hafter⟩ := hf left rfl mid (by rw [hdepth, hlevels])
    refine ⟨after, by simp [hrun, hrun'], fun h => ?_⟩
    rw [hafter h, hdepth]

theorem Yields.mapReading (g : Reading → Reading) (h : Yields limit levels m outcome) :
    Yields limit levels (Except.map g <$> m) (outcome.map g) := by
  intro counter hlevels
  obtain ⟨after, hrun, hafter⟩ := h counter hlevels
  refine ⟨after, by simp [hrun], ?_⟩
  intro result hresult
  cases outcome with
  | error => cases hresult
  | ok inner => exact hafter rfl

theorem Yields.wrap {f : Expr → Expr} {reader : Reader} {next : Cursor}
    (h : Yields limit levels m (reader.read next)) :
    Yields limit levels (Counted.wrap f <$> m) ((reader.map f).read next) :=
  h.mapReading _

theorem yields_level_zero (leave : Except SyntaxError Reading → Counted Unit) :
    Yields limit 0 (level (some limit) leave m) (.error (.tooDeeplyNested limit)) := by
  intro counter hlevels
  refine ⟨counter.down, ?_, nofun⟩
  rcases Counted.run_descend (some limit) counter with ⟨_, ⟨⟩, -, hdescend⟩ | ⟨hdepth, -⟩
  · simp [level, hdescend]
  · have := hdepth limit rfl
    omega

theorem Yields.level (h : Yields limit levels m outcome)
    {leave : Except SyntaxError Reading → Counted Unit}
    (hleave : ∀ outcome counter, ∃ after, (leave outcome).run counter = some ((), after)
      ∧ ∀ {result}, outcome = .ok result → after = counter.up) :
    Yields limit (levels + 1) (level (some limit) leave m) outcome := by
  intro counter hlevels
  rcases Counted.run_descend (some limit) counter with ⟨_, ⟨⟩, hdepth, -⟩ | ⟨-, hdescend⟩
  · omega
  · have hdown : counter.down.depth + levels = limit := by
      simp only [Counter.down]
      omega
    obtain ⟨mid, hrun, hmid⟩ := h counter.down hdown
    obtain ⟨after, hleft, hup⟩ := hleave outcome mid
    refine ⟨after, by simp [Call.level, hdescend, hrun, hleft], fun hresult => ?_⟩
    rw [hup hresult]
    simp [Counter.up, hmid hresult, Counter.down]

theorem leaves_up (outcome : Except SyntaxError Reading) (counter : Counter) :
    ∃ after, (modify Counter.up : Counted Unit).run counter = some ((), after)
      ∧ ∀ {result}, outcome = .ok result → after = counter.up :=
  ⟨counter.up, rfl, fun _ => rfl⟩

theorem leaves_group (outcome : Except SyntaxError Reading) (counter : Counter) :
    ∃ after, (Counted.leaveGroup outcome).run counter = some ((), after)
      ∧ ∀ {result}, outcome = .ok result → after = counter.up := by
  cases outcome with
  | error => exact ⟨counter, rfl, nofun⟩
  | ok => exact ⟨counter.up, rfl, fun _ => rfl⟩

theorem yields_loop {op? : Char → Option BinaryOp} {link : Rule} {reader : Reader}
    (h : ∀ next, Yields limit levels (invoke (.ofRule link) next) (reader.read next))
    (left : Reading) :
    Yields limit levels (loop invoke op? link left) (Reader.extend op? reader left) := by
  induction hn : left.next.remaining using Nat.strongRecOn generalizing left with
  | ind n ih =>
    subst hn
    rw [loop]
    cases hop : left.next.eatMap? op? with
    | none =>
      rw [Reader.extend_of_eatMap?_eq_none hop]
      exact yields_pure _
    | some found =>
      obtain ⟨op, next⟩ := found
      rw [Reader.extend_of_eatMap? hop]
      apply (h next).andThen
      intro right hright
      have hlt := Nat.lt_trans (reader.remaining_lt hright) (Cursor.remaining_eatMap?_lt hop)
      rw [Counted.onward_of_lt hlt]
      exact ih right.next.remaining hlt _ rfl

theorem yields_chain {op? : Char → Option BinaryOp} {first link : Rule}
    {firstReader reader : Reader}
    (hfirst : Yields limit levels (invoke (.ofRule first) start) (firstReader.read start))
    (h : ∀ next, Yields limit levels (invoke (.ofRule link) next) (reader.read next)) :
    Yields limit levels (chain invoke op? first link start)
      ((Reader.chain op? firstReader reader).read start) :=
  hfirst.andThen fun left _ => yields_loop h left

theorem yields_afterKeyword {keyword : String} {inside otherwise : Reader}
    {f : Cursor → Counted (Except SyntaxError Reading)}
    (hinside : ∀ next, Yields limit levels (f next) (inside.read next))
    (hotherwise : Yields limit levels m (otherwise.read start)) :
    Yields limit levels
      (match start.eatKeyword? keyword with
        | some next => f next
        | none => m)
      ((Reader.afterKeyword keyword inside otherwise).read start) := by
  simp only [Reader.afterKeyword]
  cases start.eatKeyword? keyword with
  | some next => exact hinside next
  | none => exact hotherwise

theorem yields_signs {argument otherwise : Rule} {reader otherwiseReader : Reader}
    (h : ∀ next, Yields limit levels (invoke (.ofRule argument) next) (reader.read next))
    (hotherwise : Yields limit levels (invoke (.ofRule otherwise) start)
      (otherwiseReader.read start)) :
    Yields limit levels (signs invoke argument otherwise start)
      ((Reader.afterKeyword "+" (reader.map (.signed .plus))
        (Reader.afterKeyword "-" (reader.map (.signed .minus)) otherwiseReader)).read start) :=
  yields_afterKeyword (fun next => (h next).wrap) <|
    yields_afterKeyword (fun next => (h next).wrap) hotherwise

/--
Whether calls have the outcomes of the readers if they need no more than `active` calls.
-/
def Suffices (limit active : Nat)
    (invoke : Call → Cursor → Counted (Except SyntaxError Reading)) : Prop :=
  ∀ (call : Call) (levels : Nat) (start : Cursor), call.needs levels ≤ active →
    Yields limit levels (invoke call start) ((call.reader (.ofLevels limit levels)).read start)

section Suffices

variable (h : Suffices limit active invoke)

include h

theorem Suffices.numberOr (hactive : 1 ≤ active) {otherwise : Reader}
    (hotherwise : Yields limit levels m (otherwise.read start)) :
    Yields limit levels (if start.number = [] then m else invoke .number start)
      ((Reader.numberOr otherwise).read start) := by
  split
  · next hempty =>
    simp only [Reader.numberOr, hempty, if_true]
    exact hotherwise
  · next hnumber =>
    have hcall := h .number levels start hactive
    simp only [reader, Reader.numberOr, if_neg hnumber] at hcall ⊢
    exact hcall

theorem Suffices.keywordRoot (hactive : 3 * levels + 1 ≤ active) (start : Cursor) :
    Yields limit levels (Call.keywordRoot invoke start)
      ((Grammar.keywordRoot (.ofLevels limit levels)).read start) := by
  apply yields_afterKeyword
  · intro next
    exact (h (.ofRule .group) levels next hactive).wrap
  · exact (h (.ofRule .factor) levels start hactive).wrap

theorem Suffices.primary (hactive : 3 * levels + 1 ≤ active) (start : Cursor) :
    Yields limit levels (Call.primary invoke start)
      ((Grammar.primary (.ofLevels limit levels)).read start) := by
  apply yields_afterKeyword
  · intro next
    exact h (.ofRule .group) levels next hactive
  apply h.numberOr (by omega)
  apply yields_afterKeyword
  · intro next
    exact h.keywordRoot hactive next
  apply yields_afterKeyword
  · intro next
    exact (h (.ofRule .factor) levels next hactive).wrap
  simp only [Reader.noOperand, Reader.fail]
  cases start.current? with
  | some found => exact yields_pure _
  | none => exact yields_pure _

theorem Suffices.signs {argument otherwise : Rule}
    (hargument : (ofRule argument).needs levels ≤ active)
    (hotherwise : (ofRule otherwise).needs levels ≤ active) (start : Cursor) :
    Yields limit levels (Call.signs invoke argument otherwise start)
      ((Reader.afterKeyword "+" (((ofRule argument).reader (.ofLevels limit levels)).map
          (.signed .plus))
        (Reader.afterKeyword "-" (((ofRule argument).reader (.ofLevels limit levels)).map
            (.signed .minus))
          ((ofRule otherwise).reader (.ofLevels limit levels)))).read start) :=
  yields_signs (fun next => h _ levels next hargument) (h _ levels start hotherwise)

theorem Suffices.group (hactive : 3 * levels + 3 ≤ active) (start : Cursor) :
    Yields limit levels (Except.map Counted.close <$> invoke (.ofRule .expression) start)
      ((Grammar.group (.ofLevels limit levels)).read start) := by
  rw [Grammar.group, Reader.read_closing_map_group]
  exact (h (.ofRule .expression) levels start hactive).mapReading _

/--
One active call more suffices if each call leaves one call less to those that it makes.
-/
theorem Suffices.body : Suffices limit (active + 1) (body (some limit) invoke) := by
  intro call levels start hneeds
  cases call with
  | number =>
    simp only [Call.body, Counted.number_eq_pure]
    exact yields_pure _
  | ofRule rule =>
    cases rule <;> simp only [needs, Nat.succ_le_succ_iff] at hneeds
    case expression =>
      have hterm := fun next => h (.ofRule .term) levels next hneeds
      exact yields_chain (hterm start) hterm
    case term =>
      have hfactor := fun next => h (.ofRule .factor) levels next hneeds
      exact yields_chain (hfactor start) hfactor
    case powers =>
      apply yields_chain
      · exact h (.ofRule .primary) levels start hneeds
      · intro next
        exact h (.ofRule .operand) levels next (Nat.le_of_succ_le hneeds)
    case primary => exact h.primary hneeds start
    case factor =>
      cases levels with
      | zero => exact yields_level_zero _
      | succ levels =>
        apply (h.signs _ _ start).level leaves_up <;> simp only [needs] <;> omega
    case operand =>
      cases levels with
      | zero => exact yields_level_zero _
      | succ levels =>
        apply (h.signs _ _ start).level leaves_up <;> simp only [needs] <;> omega
    case group =>
      cases levels with
      | zero => exact yields_level_zero _
      | succ levels => exact (h.group hneeds start).level leaves_group

end Suffices

theorem suffices_performWithin (limit active : Nat) :
    Suffices limit active (performWithin (some limit) active) := by
  induction active with
  | zero =>
    intro call levels start hneeds
    cases call with
    | number => cases hneeds
    | ofRule rule => cases rule <;> cases hneeds
  | succ active ih => exact ih.body

section Roots

theorem eatKeyword?_of_radical {keyword : String} {c : Char} {tail : List Char}
    (h : start.rest.head? = some '√') (hkeyword : keyword.toList = c :: tail) (hc : '√' ≠ c) :
    start.eatKeyword? keyword = none := by
  apply Cursor.eatKeyword?_of_head_ne hkeyword
  rw [h]
  intro heq
  exact hc (Option.some.inj heq)

theorem signs_of_radical {argument otherwise : Rule} (h : start.rest.head? = some '√') :
    signs invoke argument otherwise start = invoke (.ofRule otherwise) start := by
  have hplus : start.eatKeyword? "+" = none :=
    eatKeyword?_of_radical h (show "+".toList = ['+'] from rfl) (by decide)
  have hminus : start.eatKeyword? "-" = none :=
    eatKeyword?_of_radical h (show "-".toList = ['-'] from rfl) (by decide)
  simp only [signs, hplus, hminus]

theorem primary_of_radical {rest : List Char} (h : start.rest = '√' :: rest) :
    Call.primary invoke start
      = Counted.wrap (.root .radical) <$> invoke (.ofRule .factor) (start.skip 1) := by
  have hhead : start.rest.head? = some '√' := by rw [h, List.head?_cons]
  have hopen : start.eatKeyword? "(" = none :=
    eatKeyword?_of_radical hhead (show "(".toList = ['('] from rfl) (by decide)
  have hkeyword : start.eatKeyword? "sqrt" = none :=
    eatKeyword?_of_radical hhead (show "sqrt".toList = ['s', 'q', 'r', 't'] from rfl) (by decide)
  have hradical : start.eatKeyword? "√" = some (start.skip 1) := Cursor.eatKeyword?_of_append h
  have hnumber : start.number = [] := by
    rw [Cursor.number, h]
    rfl
  simp only [Call.primary, hopen, hnumber, hkeyword, hradical, if_true]

/--
Every root in front of a text needs three more active calls and a level.
-/
theorem run_performWithin_roots {counter : Counter} (hlevels : counter.depth + levels = limit)
    (hrest : start.rest = List.replicate levels '√') (hactive : active ≤ 3 * levels) :
    (performWithin (some limit) active (.ofRule .factor) start).run counter = none := by
  induction levels generalizing active counter start with
  | zero =>
    obtain rfl : active = 0 := by omega
    rfl
  | succ levels ih =>
    have hhead : start.rest.head? = some '√' := by rw [hrest, List.replicate_succ, List.head?_cons]
    have hnext : (start.skip 1).rest = List.replicate levels '√' := by
      rw [Cursor.skip, hrest]
      rfl
    have hdown : counter.down.depth + levels = limit := by
      simp only [Counter.down]
      omega
    rcases Counted.run_descend (some limit) counter with ⟨_, ⟨⟩, hdepth, -⟩ | ⟨-, hdescend⟩
    · omega
    -- A factor, its powers and their first primary come before the next factor.
    rcases active with _ | _ | _ | active
    · rfl
    · simp [performWithin_succ, body, level, hdescend, signs_of_radical hhead,
        run_performWithin_zero]
    · simp [performWithin_succ, body, level, hdescend, signs_of_radical hhead, chain,
        run_performWithin_zero]
    · have hinner : (performWithin (some limit) active (.ofRule .factor) (start.skip 1)).run
          counter.down = none := ih hdown hnext (by omega)
      simp [performWithin_succ, body, level, hdescend, signs_of_radical hhead, chain,
        primary_of_radical hrest, hinner]

end Roots

/--
The outcome for a text that is read with at most `active` calls at a time.
-/
def evaluateWithin (active : Nat) (text : String) : Option (Except SyntaxError Binary64) :=
  ((performWithin (some Expr.maxDepth) active (.ofRule .expression)
    (.ofString (Expr.normalize text))).run .zero).map fun (outcome, _) =>
      (Counted.complete outcome).map Expr.value

theorem evaluateWithin_of_le {active : Nat} (h : 3 * Expr.maxDepth + 3 ≤ active) (text : String) :
    evaluateWithin active text = some (Expr.evaluate text) := by
  have hyields := suffices_performWithin Expr.maxDepth active (.ofRule .expression) Expr.maxDepth
    (.ofString (Expr.normalize text)) h
  obtain ⟨after, hrun, -⟩ := hyields .zero (Nat.zero_add _)
  rw [evaluateWithin, hrun, Expr.evaluate, Expr.parse, Counted.parseWithin_eq_complete]
  rfl

/--
As many roots as there are levels.
-/
def roots : String := String.ofList (List.replicate Expr.maxDepth '√')

theorem normalize_roots : Expr.normalize roots = roots := by
  apply Expr.normalize_ofList
  intro c hc
  obtain rfl := List.eq_of_mem_replicate hc
  decide

theorem evaluateWithin_roots {active : Nat} (h : active < 3 * Expr.maxDepth + 3) :
    evaluateWithin active roots = none := by
  have hrest : (Cursor.ofString roots).rest = List.replicate Expr.maxDepth '√' := by
    simp only [Cursor.ofString, roots, String.toList_ofList]
  have hfactor : ∀ {active}, active ≤ 3 * Expr.maxDepth →
      (performWithin (some Expr.maxDepth) active (.ofRule .factor) (.ofString roots)).run .zero
        = none :=
    fun hactive => run_performWithin_roots (Nat.zero_add _) hrest hactive
  have hrun : (performWithin (some Expr.maxDepth) active (.ofRule .expression)
      (.ofString roots)).run .zero = none := by
    -- The first factor stands in a term, and the term in the expression.
    rcases active with _ | _ | active
    · rfl
    · simp [performWithin_succ, body, chain, run_performWithin_zero]
    · have hactive : active ≤ 3 * Expr.maxDepth := by omega
      simp [performWithin_succ, body, chain, hfactor hactive]
  rw [evaluateWithin, normalize_roots, hrun]
  rfl

theorem evaluateWithin_eq_iff :
    (∀ text, evaluateWithin (3 * Expr.maxDepth + 6) text = some (Expr.evaluate text))
      ∧ ∀ active, (∀ text, evaluateWithin active text = some (Expr.evaluate text))
        ↔ 3 * Expr.maxDepth + 3 ≤ active := by
  refine ⟨evaluateWithin_of_le (by decide), ?_⟩
  intro active
  constructor
  · intro h
    apply Nat.le_of_not_lt
    intro hlt
    cases (evaluateWithin_roots hlt).symm.trans (h roots)
  · exact evaluateWithin_of_le

end Call

end Calculator
