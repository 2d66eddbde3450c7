import Calculator.Json.Quoted
import Mathlib.Data.Option.Basic

/-!
This module contains the theorem that a text between quotes is read back: whatever way a character
is escaped in, the part that is read stands for it again.
-/

namespace Calculator

namespace Json

/--
Whether a part of a string stands for one character on its own, whatever parts follow.
-/
def Piece.StandsFor (piece : Piece) (c : Char) : Prop :=
  ∀ pieces, join? (piece :: pieces) = (join? pieces).map (c :: ·)

theorem Piece.char_standsFor (c : Char) : (Piece.char c).StandsFor c := by
  intro pieces
  rw [join?]

/--
No control character is a surrogate.
-/
theorem Piece.unit_standsFor {c : Char} (h : c < ' ') : (Piece.unit c.toNat).StandsFor c := by
  have hcode : c.toNat < 0x20 := h
  have hhigh : isHighSurrogate c.toNat = false := by
    rw [isHighSurrogate, Bool.and_eq_false_iff, decide_eq_false_iff_not]
    omega
  have hlow : isLowSurrogate c.toNat = false := by
    rw [isLowSurrogate, Bool.and_eq_false_iff, decide_eq_false_iff_not]
    omega
  intro pieces
  generalize hrest : join? pieces = chars?
  cases pieces with
  | nil =>
    rw [join?, hhigh, hlow, Char.ofNat_toNat, hrest]
    · cases chars? <;> rfl
    · nofun
  | cons next pieces =>
    cases next with
    | char d =>
      rw [join?, hhigh, hlow, Char.ofNat_toNat, hrest]
      · cases chars? <;> rfl
      · nofun
    | unit code =>
      rw [join?, hhigh, hlow, Char.ofNat_toNat, hrest]
      cases chars? <;> rfl

theorem ofHexDigits?_control {c : Char} (h : c < ' ') :
    ofHexDigits? ['0', '0', Nat.digitChar (c.toNat / 16), Nat.digitChar (c.toNat % 16)]
      = some c.toNat := by
  have hcode : c.toNat < 0x20 := h
  revert hcode
  generalize c.toNat = code
  revert code
  decide

theorem pieces?_letter {letter c : Char} (hu : letter ≠ 'u') (hletter : unescape? letter = some c)
    (text : List Char) :
    pieces? ('\\' :: letter :: text)
      = (pieces? text).map (Prod.map (.char c :: ·) id) := by
  rw [pieces?]
  · rw [hletter]
    cases pieces? text <;> rfl
  · intro _ _ _ _ _ heq
    exact absurd heq hu

theorem pieces?_escape (c : Char) : ∃ piece : Piece, piece.StandsFor c ∧
    ∀ text, pieces? (escape c ++ text)
      = (pieces? text).map (Prod.map (piece :: ·) id) := by
  unfold escape
  split
  · exact ⟨_, Piece.char_standsFor _, pieces?_letter (by decide) rfl⟩
  · exact ⟨_, Piece.char_standsFor _, pieces?_letter (by decide) rfl⟩
  · exact ⟨_, Piece.char_standsFor _, pieces?_letter (by decide) rfl⟩
  · exact ⟨_, Piece.char_standsFor _, pieces?_letter (by decide) rfl⟩
  · exact ⟨_, Piece.char_standsFor _, pieces?_letter (by decide) rfl⟩
  · exact ⟨_, Piece.char_standsFor _, pieces?_letter (by decide) rfl⟩
  · exact ⟨_, Piece.char_standsFor _, pieces?_letter (by decide) rfl⟩
  · next hquote hescape _ _ _ _ _ =>
    split
    · next hplain =>
      refine ⟨_, Piece.char_standsFor _, fun text => ?_⟩
      rw [List.singleton_append, pieces?]
      · rw [if_pos hplain]
        cases pieces? text <;> rfl
      · exact hquote
      · intro _ _ _ _ _ heq
        exact absurd heq hescape
      · intro _ _ heq
        exact absurd heq hescape
    · next hcontrol =>
      have hcontrol : c < ' ' := Char.not_le.mp hcontrol
      refine ⟨_, Piece.unit_standsFor hcontrol, fun text => ?_⟩
      simp only [List.cons_append, List.nil_append]
      rw [pieces?, ofHexDigits?_control hcontrol]
      cases pieces? text <;> rfl

theorem readQuoted?_escape (c : Char) (text : List Char) :
    readQuoted? (escape c ++ text)
      = (readQuoted? text).map (Prod.map (Option.map (c :: ·)) id) := by
  obtain ⟨piece, hpiece, hread⟩ := pieces?_escape c
  rw [readQuoted?, readQuoted?, hread, Option.map_map, Option.map_map]
  congr 1
  funext parts
  exact congrArg (·, parts.2) (hpiece parts.1)

/--
What is written between quotes is read again, and nothing of the text behind it.
-/
theorem readQuoted?_flatMap_escape (text rest : List Char) :
    readQuoted? (text.flatMap escape ++ '"' :: rest) = some (some text, rest) := by
  induction text with
  | nil => rw [List.flatMap_nil, List.nil_append, readQuoted?, pieces?]; rfl
  | cons c text ih =>
    rw [List.flatMap_cons, List.append_assoc, readQuoted?_escape, ih]
    rfl

end Json

end Calculator
