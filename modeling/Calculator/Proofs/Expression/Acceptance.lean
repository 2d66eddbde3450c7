import Calculator.Proofs.Expression.Soundness
import Calculator.Proofs.Expression.Unambiguity

/-!
This module contains what the evaluation of a text has to do with the derivations of the grammar: a
text is parsed exactly if closing parentheses at its end make it derivable, and it has at most one
derivation.
-/

namespace Calculator

namespace Expr

theorem parseWithin_eq_ok_iff {limit : Nat} {text : String} {e : Expr} :
    parseWithin limit text = .ok e
      ↔ ∃ (missing : Nat) (d : Derivation .expression),
          d.Completes text.toList missing ∧ d.depth ≤ limit ∧ d.tree = e := by
  unfold parseWithin
  constructor
  · intro h
    split at h
    · cases h
    · next result hread =>
      split at h
      · cases h
      · next hend =>
        cases h
        have hrest : result.next.rest = [] := List.head?_eq_none_iff.mp hend
        obtain ⟨d, hreads, -⟩ := Grammar.sound_expression (Nested.sound_ofLevels limit limit) hread
        obtain ⟨text, missing, hchars, htext, -, -⟩ := hreads.spans
        rw [hrest, List.append_nil] at htext
        refine ⟨missing, d, ⟨?_, hreads.canonical, d.map_chars_numerals⟩, hreads.depth_le, hreads.tree⟩
        rw [hchars, ← htext]
        rfl
  · rintro ⟨missing, d, hcompletes, hdepth, rfl⟩
    let stop : Cursor := ⟨text.toList.length, []⟩
    have hblocked : stop.Blocked := by
      intro c hc
      cases hc
    have hspans : Cursor.Spans d.chars (.ofString text) stop :=
      ⟨text.toList, missing, hcompletes.chars, (List.append_nil _).symm, (Nat.zero_add _).symm,
        .inr hblocked⟩
    have hreads : d.Reads limit (.ofString text) ⟨d.tree, stop⟩ :=
      ⟨rfl, hdepth, hcompletes.canonical, hspans⟩
    have hnumber : ∀ c ∈ stop.rest.head?, Cursor.isNumeric c = false := by
      intro c hc
      cases hc
    have hread := Derivation.IsRead.read_eq_ok (d.isRead limit) hreads
      (Derivation.stopsAt_blocked hblocked) hnumber
    rw [Rule.reader] at hread
    simp only [hread]
    rfl

theorem evaluate_eq_ok_iff {text : String} {v : Binary64} :
    evaluate text = .ok v ↔ ∃ e, parse text = .ok e ∧ e.value = v := by
  unfold evaluate
  cases parse text <;> simp [Except.map]

theorem parseWithin_of_completes {limit : Nat} {text : String} {missing : Nat}
    {d : Derivation .expression} (h : d.Completes text.toList missing) (hdepth : d.depth ≤ limit) :
    parseWithin limit text = .ok d.tree :=
  parseWithin_eq_ok_iff.mpr ⟨missing, d, h, hdepth, rfl⟩

theorem evaluate_of_completes {text : String} {missing : Nat} {d : Derivation .expression}
    (h : d.Completes (normalize text).toList missing) (hdepth : d.depth ≤ maxDepth) :
    evaluate text = .ok d.value :=
  evaluate_eq_ok_iff.mpr ⟨d.tree, parseWithin_of_completes h hdepth, d.value_tree⟩

theorem evaluate_of_chars {text : String} {v : Binary64} {d : Derivation .expression}
    (hchars : d.chars = (normalize text).toList) (h : d.IsCanonical) (hdepth : d.depth ≤ maxDepth)
    (hvalue : d.value = v) : evaluate text = .ok v := by
  have hcompletes : d.Completes (normalize text).toList 0 :=
    ⟨hchars.trans (List.append_nil _).symm, h, d.map_chars_numerals⟩
  rw [evaluate_of_completes hcompletes hdepth, hvalue]

end Expr

/--
The depth limit plays no part in this: a text has at most one derivation.
-/
theorem Derivation.Completes.unique {text : List Char} {missing₁ missing₂ : Nat}
    {d₁ d₂ : Derivation .expression} (h₁ : d₁.Completes text missing₁)
    (h₂ : d₂.Completes text missing₂) : missing₁ = missing₂ ∧ d₁ = d₂ := by
  have hlist : (String.ofList text).toList = text := String.toList_ofList
  have hparse₁ := Expr.parseWithin_eq_ok_iff.mpr
    ⟨missing₁, d₁, hlist.symm ▸ h₁, Nat.le_max_left d₁.depth d₂.depth, rfl⟩
  have hparse₂ := Expr.parseWithin_eq_ok_iff.mpr
    ⟨missing₂, d₂, hlist.symm ▸ h₂, Nat.le_max_right d₁.depth d₂.depth, rfl⟩
  have htree : d₁.tree = d₂.tree := by
    rw [hparse₁] at hparse₂
    exact Except.ok.inj hparse₂
  obtain rfl := eq_of_tree_eq h₁.canonical h₂.canonical htree
  refine ⟨?_, rfl⟩
  simpa using h₁.chars.symm.trans h₂.chars

end Calculator
