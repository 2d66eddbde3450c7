import Calculator.Proofs.Json.Scanning
import Calculator.Proofs.Number.Digits
import Mathlib.Data.List.TakeWhile

/-!
This module contains what is read of the JSON values that documents are made of.
-/

namespace Calculator

namespace Json

theorem isNumber_toDigits (n : Nat) : isNumber (Nat.toDigits 10 n) = true := by
  have hdigit : ∀ c ∈ Nat.toDigits 10 n, c.isDigit = true :=
    fun _ => Decimal.isDigit_of_mem_toDigits
  rcases Decimal.toDigits_eq_zero_or_cons n with hzero | ⟨first, rest, hcons, hfirst⟩
  · rw [hzero]
    rfl
  · rw [hcons] at hdigit ⊢
    have htake := List.takeWhile_eq_self_iff.mpr hdigit
    have hdrop := List.dropWhile_eq_nil_iff.mpr hdigit
    have hwhole : isWhole (first :: rest) = true := by
      have hzero : decide ((first :: rest).head? ≠ some '0') = true := by
        rw [List.head?_cons, decide_eq_true_iff, ne_eq, Option.some.injEq]
        exact hfirst
      rw [isWhole, isDigits, List.all_eq_true.mpr hdigit, hzero, Bool.or_true]
      rfl
    rw [isNumber, isUnsigned, htake, hdrop, hwhole]
    · rfl
    · rintro _ ⟨⟩
      exact absurd (hdigit '-' List.mem_cons_self) (by decide)

theorem isWellFormed_ofNat (n : Nat) : (ofNat n).IsWellFormed := by
  apply IsWellFormed.number
  rw [String.toList_ofList]
  exact isNumber_toDigits n

theorem isWellFormed_ofStrings (texts : List String) : (ofStrings texts).IsWellFormed := by
  apply IsWellFormed.array
  intro json hmem
  obtain ⟨text, _, rfl⟩ := List.mem_map.mp hmem
  exact .string (some text)

theorem isWellFormed_ofOption {α : Type} {write : α → Json}
    (h : ∀ value, (write value).IsWellFormed) (value? : Option α) :
    (ofOption (value?.map write)).IsWellFormed := by
  cases value? with
  | none => exact .null
  | some value => exact h value

theorem isWellFormed_ofMembers {members : List (String × Json)}
    (h : ∀ member ∈ members, member.2.IsWellFormed) : (ofMembers members).IsWellFormed := by
  apply IsWellFormed.object
  intro member hmem
  obtain ⟨field, hfield, rfl⟩ := List.mem_map.mp hmem
  exact h field hfield

theorem natural?_ofNat {n : Nat} (h : n < Nat.pow 2 64) : (ofNat n).natural? = some n := by
  have hdigits : (Nat.toDigits 10 n).all Char.isDigit = true :=
    List.all_eq_true.mpr fun _ => Decimal.isDigit_of_mem_toDigits
  rw [ofNat, natural?, String.toList_ofList, Nat.ofDigitChars_ten_toDigits, hdigits,
    decide_eq_true h]
  rfl

theorem strings?_ofStrings (texts : List String) : (ofStrings texts).strings? = some texts := by
  rw [strings?, ofStrings, array?, Option.bind_some]
  induction texts with
  | nil => rfl
  | cons text texts ih =>
    rw [List.map_cons, List.mapM_cons, ih]
    rfl

theorem members?_ofMembers (members : List (String × Json)) :
    (ofMembers members).members? = some members := by
  rw [ofMembers, members?]
  induction members with
  | nil => rfl
  | cons member members ih =>
    rw [List.map_cons, List.mapM_cons, ih]
    rfl

theorem nullable_ofOption {α : Type} {read? : Json → Option α} {write : α → Json}
    {value? : Option α} (hread : ∀ value ∈ value?, read? (write value) = some value)
    (hwrite : ∀ value, write value ≠ .null) :
    nullable read? (ofOption (value?.map write)) = some value? := by
  cases value? with
  | none => rfl
  | some value =>
    rw [Option.map_some, ofOption, Option.getD_some, nullable, hread value rfl]
    · rfl
    · exact hwrite value

end Json

end Calculator
