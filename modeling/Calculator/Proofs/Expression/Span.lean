import Calculator.Expression.Cursor

/-!
This module contains the relation between two places of a text that says what is read between them.
Closing parentheses at the end of it may be missing, but only where nothing that can stand behind an
operand is left.
-/

namespace Calculator

namespace Cursor

-- What can stand behind an operand.
def continuations : List Char := ['+', '-', '*', '/', '%', '^', ')']

def Blocked (c : Cursor) : Prop := ∀ ch ∈ c.rest.head?, ch ∉ continuations

def Spans (chars : List Char) (start next : Cursor) : Prop :=
  ∃ text missing, chars = text ++ List.replicate missing ')'
    ∧ start.rest = text ++ next.rest
    ∧ next.position = start.position + text.length
    ∧ (missing = 0 ∨ next.Blocked)

variable {start mid next : Cursor} {chars chars₁ chars₂ : List Char}

theorem rest_skip_of_eq_append {text rest : List Char} (h : start.rest = text ++ rest) :
    start.skip text.length = ⟨start.position + text.length, rest⟩ := by
  simp [skip, h]

theorem spans_of_notMem (h : ')' ∉ chars) :
    Spans chars start next ↔ start.rest = chars ++ next.rest ∧ next = start.skip chars.length := by
  constructor
  · rintro ⟨text, missing, rfl, hrest, hposition, -⟩
    cases missing with
    | zero =>
      simp only [List.replicate_zero, List.append_nil]
      refine ⟨hrest, ?_⟩
      rw [rest_skip_of_eq_append hrest, ← hposition]
    | succ missing => exact absurd (by simp) h
  · rintro ⟨hrest, hnext⟩
    exact ⟨chars, 0, by simp, hrest, by rw [hnext, skip], .inl rfl⟩

theorem spans_append_of_notMem (h : ')' ∉ chars₁) :
    Spans (chars₁ ++ chars₂) start next
      ↔ start.rest = chars₁ ++ (start.skip chars₁.length).rest
        ∧ Spans chars₂ (start.skip chars₁.length) next := by
  constructor
  · rintro ⟨text, missing, hchars, hrest, hposition, hblocked⟩
    have : ∃ tail, text = chars₁ ++ tail ∧ chars₂ = tail ++ List.replicate missing ')' := by
      rcases List.append_eq_append_iff.mp hchars with ⟨tail, htext, htail⟩ | ⟨tail, hfront, htail⟩
      · exact ⟨tail, htext, htail⟩
      · -- A part of `chars₁` cannot lie among the missing parentheses.
        cases tail with
        | nil => exact ⟨[], by simpa using hfront.symm, by simpa using htail.symm⟩
        | cons c tail =>
          have hc : c = ')' :=
            List.eq_of_mem_replicate (htail ▸ List.mem_cons_self : c ∈ List.replicate missing ')')
          exact absurd (by simp [hfront, hc]) h
    obtain ⟨tail, rfl, rfl⟩ := this
    rw [List.append_assoc] at hrest
    rw [rest_skip_of_eq_append hrest]
    refine ⟨hrest, tail, missing, rfl, rfl, ?_, hblocked⟩
    simp only [hposition, List.length_append]
    omega
  · rintro ⟨hrest, text, missing, rfl, htext, hposition, hblocked⟩
    refine ⟨chars₁ ++ text, missing, by simp, ?_, ?_, hblocked⟩
    · rw [hrest, htext, List.append_assoc]
    · simp only [hposition, skip, List.length_append]
      omega

theorem spans_cons {c : Char} (h : c ≠ ')') :
    Spans (c :: chars) start next
      ↔ start.rest = c :: (start.skip 1).rest ∧ Spans chars (start.skip 1) next := by
  have hmem : ')' ∉ [c] := by simpa using h.symm
  exact spans_append_of_notMem hmem

theorem spans_append_cons {c : Char} (h : c ≠ ')') (hspans : Spans (chars₁ ++ c :: chars₂) start next) :
    ∃ mid, Spans chars₁ start mid ∧ mid.rest = c :: (mid.skip 1).rest
      ∧ Spans chars₂ (mid.skip 1) next := by
  obtain ⟨text, missing, hchars, hrest, hposition, hblocked⟩ := hspans
  have : ∃ tail, text = chars₁ ++ tail ∧ c :: chars₂ = tail ++ List.replicate missing ')' := by
    rcases List.append_eq_append_iff.mp hchars with ⟨tail, htext, htail⟩ | ⟨tail, -, htail⟩
    · exact ⟨tail, htext, htail⟩
    · have hmem : c ∈ List.replicate missing ')' := by simp [htail]
      exact absurd (List.eq_of_mem_replicate hmem) h
  obtain ⟨tail, rfl, htail⟩ := this
  refine ⟨⟨start.position + chars₁.length, tail ++ next.rest⟩, ?_, ?_⟩
  · exact ⟨chars₁, 0, by simp, by simpa using hrest, rfl, .inl rfl⟩
  · rw [← spans_cons h]
    refine ⟨tail, missing, htail, rfl, ?_, hblocked⟩
    simp only [hposition, List.length_append]
    omega

theorem Spans.append (h₁ : Spans chars₁ start mid) (hmid : ¬mid.Blocked)
    (h₂ : Spans chars₂ mid next) : Spans (chars₁ ++ chars₂) start next := by
  obtain ⟨text₁, missing₁, rfl, hrest₁, hposition₁, hblocked₁⟩ := h₁
  obtain ⟨text₂, missing₂, rfl, hrest₂, hposition₂, hblocked₂⟩ := h₂
  -- The first text lacks no parenthesis, since something that could follow it is left at `mid`.
  have hzero : missing₁ = 0 := hblocked₁.resolve_right hmid
  refine ⟨text₁ ++ text₂, missing₂, by simp [hzero], ?_, ?_, hblocked₂⟩
  · rw [hrest₁, hrest₂, List.append_assoc]
  · simp only [hposition₁, hposition₂, List.length_append]
    omega

theorem spans_append_singleton :
    Spans (chars ++ [')']) start next
      ↔ (∃ mid, Spans chars start mid ∧ mid.rest = ')' :: next.rest ∧ next = mid.skip 1)
        ∨ (Spans chars start next ∧ next.Blocked) := by
  constructor
  · rintro ⟨text, missing, hchars, hrest, hposition, hblocked⟩
    cases missing with
    | zero =>
      left
      simp only [List.replicate_zero, List.append_nil] at hchars
      subst hchars
      refine ⟨⟨start.position + chars.length, ')' :: next.rest⟩, ?_, rfl, ?_⟩
      · exact ⟨chars, 0, by simp, by simpa using hrest, rfl, .inl rfl⟩
      · obtain ⟨position, rest⟩ := next
        simp only [List.length_append, List.length_singleton] at hposition
        simp [skip, hposition, Nat.add_assoc]
    | succ missing =>
      right
      rw [List.replicate_succ', ← List.append_assoc] at hchars
      have hnext := hblocked.resolve_left (Nat.succ_ne_zero missing)
      refine ⟨⟨text, missing, ?_, hrest, hposition, .inr hnext⟩, hnext⟩
      exact List.append_cancel_right hchars
  · rintro (⟨mid, hspans, hmid, rfl⟩ | ⟨⟨text, missing, rfl, hrest, hposition, -⟩, hblocked⟩)
    · apply hspans.append
      · intro hblocked
        exact hblocked ')' (by simp [hmid]) (by decide)
      · exact ⟨[')'], 0, rfl, hmid, rfl, .inl rfl⟩
    · exact ⟨text, missing + 1, by rw [List.replicate_succ', List.append_assoc], hrest, hposition,
        .inr hblocked⟩

end Cursor

end Calculator
