import Calculator.Expression.Normalize

/-!
This module contains what a text in normal form consists of: characters that stand for themselves, so
every part of it is in normal form too.
-/

namespace Calculator

namespace Expr

theorem normalizeChars_of_forall {text : List Char} (h : ∀ c ∈ text, c ≠ ' ' ∧ canonical c = c) :
    normalizeChars text = text := by
  unfold normalizeChars
  rw [List.filter_eq_self.mpr (fun c hc => by simpa using (h c hc).1)]
  exact (List.map_congr_left (fun c hc => (h c hc).2)).trans (List.map_id' text)

theorem normalizeChars_append (front back : List Char) :
    normalizeChars (front ++ back) = normalizeChars front ++ normalizeChars back := by
  unfold normalizeChars
  rw [List.filter_append, List.map_append]

theorem canonical_of_ne {c : Char} (hmul : c ≠ '×') (hdiv : c ≠ '÷') : canonical c = c := by
  unfold canonical
  split
  · exact absurd rfl hmul
  · exact absurd rfl hdiv
  · rfl

theorem canonical_canonical (c : Char) : canonical (canonical c) = canonical c := by
  by_cases hmul : c = '×'
  · rw [hmul]
    rfl
  by_cases hdiv : c = '÷'
  · rw [hdiv]
    rfl
  rw [canonical_of_ne hmul hdiv, canonical_of_ne hmul hdiv]

theorem canonical_ne_space {c : Char} (h : c ≠ ' ') : canonical c ≠ ' ' := by
  unfold canonical
  split
  · decide
  · decide
  · exact h

theorem plain_of_mem_normalizeChars {text : List Char} {c : Char} (h : c ∈ normalizeChars text) :
    c ≠ ' ' ∧ canonical c = c := by
  obtain ⟨original, hmem, rfl⟩ := List.mem_map.mp h
  have hspace : original ≠ ' ' := by simpa using (List.mem_filter.mp hmem).2
  exact ⟨canonical_ne_space hspace, canonical_canonical original⟩

theorem normalize_ofList {text : List Char} (h : ∀ c ∈ text, c ≠ ' ' ∧ canonical c = c) :
    normalize (String.ofList text) = String.ofList text := by
  rw [normalize, String.toList_ofList, normalizeChars_of_forall h]

theorem plain_of_mem_normalize {text : String} {c : Char} (h : c ∈ (normalize text).toList) :
    c ≠ ' ' ∧ canonical c = c := by
  rw [normalize, String.toList_ofList] at h
  exact plain_of_mem_normalizeChars h

theorem normalize_front {text : String} {front back : List Char}
    (h : (normalize text).toList = front ++ back) :
    normalize (String.ofList front) = String.ofList front := by
  apply normalize_ofList
  intro c hc
  apply plain_of_mem_normalize
  rw [h]
  exact List.mem_append_left back hc

end Expr

end Calculator
