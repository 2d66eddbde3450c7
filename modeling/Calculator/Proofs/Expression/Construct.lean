import Calculator.Proofs.Expression.Opening

/-!
This module contains the constructs that are open around the gap of an opening, and the levels of
nesting that each of them takes up. Levels are counted by rule, so one construct can take several.
-/

namespace Calculator

/--
What can be open around an operand. A root and the parentheses around its whole argument are one
construct.
-/
inductive Construct where
  | sign
  | exponent
  | group
  | root
  | keywordGroup
  | radicalGroup

/--
A group is a level of its own, and another one is the factor that it starts with. The argument
behind `√` is a factor even if it is a group, while `sqrt` opens the group itself.
-/
def Construct.levels : Construct → Nat
  | sign => 1
  | exponent => 1
  | group => 2
  | root => 1
  | keywordGroup => 2
  | radicalGroup => 3

namespace Construct

def totalLevels : List Construct → Nat
  | [] => 0
  | c :: nest => c.levels + totalLevels nest

theorem length_le_totalLevels (nest : List Construct) : nest.length ≤ totalLevels nest := by
  induction nest with
  | nil => exact Nat.le_refl 0
  | cons c _ ih =>
    have hc : 1 ≤ c.levels := by cases c <;> decide
    simp only [List.length_cons, totalLevels]
    omega

theorem totalLevels_le (nest : List Construct) : totalLevels nest ≤ 3 * nest.length := by
  induction nest with
  | nil => exact Nat.le_refl 0
  | cons c _ ih =>
    have hc : c.levels ≤ 3 := by cases c <;> decide
    simp only [List.length_cons, totalLevels]
    omega

end Construct

/--
The level that a rule takes up before anything is open.
-/
def Rule.ownLevels : Rule → Nat
  | .expression | .term | .factor | .operand => 1
  | .powers | .primary | .group => 0

namespace Opening

variable {rule : Rule}

/--
The factors, operands and groups that the gap lies in.
-/
def level {rule : Rule} : Opening rule → Nat
  | ofTerm only => only.level
  | sum _ _ _ right => right.level
  | ofFactor only => only.level
  | product _ _ _ right => right.level
  | signedFactor _ argument => argument.level + 1
  | ofPowers only => only.level + 1
  | ofBase only => only.level
  | power _ exponent => exponent.level
  | signedOperand _ argument => argument.level + 1
  | ofPrimary only => only.level + 1
  | gap => 0
  | ofGroup only => only.level
  | keywordGroup argument => argument.level
  | keywordFactor argument => argument.level
  | radical argument => argument.level
  | group body => body.level + 1

/--
What is open around the gap, from the outside in.
-/
def constructs {rule : Rule} : Opening rule → List Construct
  | ofTerm only => only.constructs
  | sum _ _ _ right => right.constructs
  | ofFactor only => only.constructs
  | product _ _ _ right => right.constructs
  | signedFactor _ argument => .sign :: argument.constructs
  | ofPowers only => only.constructs
  | ofBase only => only.constructs
  | power _ exponent => .exponent :: exponent.constructs
  | signedOperand _ argument => .sign :: argument.constructs
  | ofPrimary only => only.constructs
  | gap => []
  | ofGroup only => only.constructs
  | keywordGroup (group body) => .keywordGroup :: body.constructs
  | keywordFactor argument => .root :: argument.constructs
  | radical (ofPowers (ofBase (ofGroup (group body)))) => .radicalGroup :: body.constructs
  | radical argument => .root :: argument.constructs
  | group body => .group :: body.constructs

theorem level_eq (o : Opening rule) :
    o.level = rule.ownLevels + Construct.totalLevels o.constructs := by
  fun_induction constructs o <;>
    simp only [level, Rule.ownLevels, Construct.totalLevels, Construct.levels, *] <;>
    omega

/--
Every construct starts with a character of its own.
-/
theorem length_constructs_le (o : Opening rule) :
    o.constructs.length ≤ o.chars.countP (· ≠ ')') := by
  fun_induction constructs o <;>
    simp_all [chars, Sign.symbol_ne_closing, BinaryOp.symbol_ne_closing] <;>
    omega

theorem level_of_chars_eq_nil {o : Opening rule} (h : o.chars = []) : o.level = rule.ownLevels := by
  have hconstructs : o.constructs = [] := by
    have hlength := o.length_constructs_le
    rw [h] at hlength
    exact List.eq_nil_of_length_eq_zero (Nat.le_zero.mp hlength)
  rw [level_eq, hconstructs]
  rfl

/--
The text starts with the opening, as far as the gap.
-/
structure LiesIn (o : Opening rule) (text : List Char) : Prop where
  canonical : o.IsCanonical
  starts : o.chars <+: text

theorem LiesIn.append {o : Opening rule} {front : List Char} (h : o.LiesIn front)
    (back : List Char) : o.LiesIn (front ++ back) :=
  ⟨h.canonical, h.starts.trans (List.prefix_append front back)⟩

end Opening

namespace Derivation

variable {rule link : Rule}

/--
The path to the deepest leaf of a derivation goes through one side of each operator.
-/
theorem exists_opening_of_max {left d : Derivation rule} {right : Derivation link} {c : Char}
    (extend : Opening link → Opening rule)
    (hleft : ∃ o : Opening rule, o.LiesIn left.chars ∧ o.level = left.depth)
    (hright : ∃ o : Opening link, o.LiesIn right.chars ∧ o.level = right.depth)
    (hdepth : d.depth = max left.depth right.depth)
    (hchars : d.chars = left.chars ++ c :: right.chars)
    (hcanonical : ∀ o, o.IsCanonical → (extend o).IsCanonical)
    (hstarts : ∀ o, (extend o).chars = left.chars ++ c :: o.chars)
    (hlevel : ∀ o, (extend o).level = o.level) :
    ∃ o : Opening rule, o.LiesIn d.chars ∧ o.level = d.depth := by
  rw [hdepth, hchars]
  rcases Nat.le_total right.depth left.depth with hle | hle
  · obtain ⟨o, ho, hdepth⟩ := hleft
    exact ⟨o, ho.append _, by rw [hdepth, Nat.max_eq_left hle]⟩
  · obtain ⟨o, ho, hdepth⟩ := hright
    refine ⟨extend o, ⟨hcanonical o ho.canonical, ?_⟩, by rw [hlevel, hdepth, Nat.max_eq_right hle]⟩
    rw [hstarts, List.prefix_append_right_inj, List.cons_prefix_cons]
    exact ⟨rfl, ho.starts⟩

theorem exists_opening {d : Derivation rule} (h : d.IsCanonical) :
    ∃ o : Opening rule, o.LiesIn d.chars ∧ o.level = d.depth := by
  induction d with
  | ofTerm _ ih =>
    obtain ⟨o, ho, hlevel⟩ := ih h
    exact ⟨.ofTerm o, ⟨ho.canonical, ho.starts⟩, hlevel⟩
  | sum left op hrule right ihLeft ihRight =>
    exact exists_opening_of_max (.sum left op hrule) (ihLeft h.1) (ihRight h.2) rfl rfl
      (fun o ho => ⟨h.1, ho⟩) (fun _ => rfl) (fun _ => rfl)
  | ofFactor _ ih =>
    obtain ⟨o, ho, hlevel⟩ := ih h
    exact ⟨.ofFactor o, ⟨ho.canonical, ho.starts⟩, hlevel⟩
  | product left op hrule right ihLeft ihRight =>
    exact exists_opening_of_max (.product left op hrule) (ihLeft h.1) (ihRight h.2) rfl rfl
      (fun o ho => ⟨h.1, ho⟩) (fun _ => rfl) (fun _ => rfl)
  | power base exponent ihBase ihExponent =>
    exact exists_opening_of_max (.power base) (ihBase h.1) (ihExponent h.2.1) rfl rfl
      (fun o ho => ⟨h.1, ho, h.2.2⟩) (fun _ => rfl) (fun _ => rfl)
  | signedFactor sign _ ih =>
    obtain ⟨o, ho, hlevel⟩ := ih h
    exact ⟨.signedFactor sign o, ⟨ho.canonical, List.cons_prefix_cons.mpr ⟨rfl, ho.starts⟩⟩,
      congrArg Nat.succ hlevel⟩
  | ofPowers _ ih =>
    obtain ⟨o, ho, hlevel⟩ := ih h
    exact ⟨.ofPowers o, ⟨ho.canonical, ho.starts⟩, congrArg Nat.succ hlevel⟩
  | ofBase _ ih =>
    obtain ⟨o, ho, hlevel⟩ := ih h
    exact ⟨.ofBase o, ⟨ho.canonical, ho.starts⟩, hlevel⟩
  | signedOperand sign _ ih =>
    obtain ⟨o, ho, hlevel⟩ := ih h
    exact ⟨.signedOperand sign o, ⟨ho.canonical, List.cons_prefix_cons.mpr ⟨rfl, ho.starts⟩⟩,
      congrArg Nat.succ hlevel⟩
  | ofPrimary _ ih =>
    obtain ⟨o, ho, hlevel⟩ := ih h
    exact ⟨.ofPrimary o, ⟨ho.canonical, ho.starts⟩, congrArg Nat.succ hlevel⟩
  | ofGroup _ ih =>
    obtain ⟨o, ho, hlevel⟩ := ih h
    exact ⟨.ofGroup o, ⟨ho.canonical, ho.starts⟩, hlevel⟩
  | number => exact ⟨.gap, ⟨trivial, List.nil_prefix⟩, rfl⟩
  | keywordGroup _ ih =>
    obtain ⟨o, ho, hlevel⟩ := ih h
    refine ⟨.keywordGroup o, ⟨ho.canonical, ?_⟩, hlevel⟩
    exact (List.prefix_append_right_inj _).mpr ho.starts
  | keywordFactor _ ih =>
    obtain ⟨hargument, hhead⟩ := h
    obtain ⟨o, ho, hlevel⟩ := ih hargument
    refine ⟨.keywordFactor o, ⟨⟨ho.canonical, ?_⟩, ?_⟩, hlevel⟩
    · intro hopen
      obtain ⟨back, hchars⟩ := ho.starts
      rw [← hchars, List.head?_append, hopen] at hhead
      exact hhead rfl
    · exact (List.prefix_append_right_inj _).mpr ho.starts
  | radical _ ih =>
    obtain ⟨o, ho, hlevel⟩ := ih h
    exact ⟨.radical o, ⟨ho.canonical, List.cons_prefix_cons.mpr ⟨rfl, ho.starts⟩⟩, hlevel⟩
  | group _ ih =>
    obtain ⟨o, ho, hlevel⟩ := ih h
    refine ⟨.group o, ⟨ho.canonical, ?_⟩, congrArg Nat.succ hlevel⟩
    exact List.cons_prefix_cons.mpr ⟨rfl, (ho.append _).starts⟩

end Derivation

end Calculator
