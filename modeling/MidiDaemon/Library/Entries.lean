import Mathlib.Data.List.Basic

/-!
# Entries of a list

What is found in a list behind a change of one entry, or behind one more entry at its end, is the
changed entry or was there before.
-/

namespace Entries

variable {α : Type*} {list : List α} {index other : Nat} {found : α}

/-- What is found behind the replacement of one entry is the new one or was there before. -/
theorem set_cases {after : α} (lookup : (list.set index after)[other]? = some found) :
    (other = index ∧ found = after) ∨ (other ≠ index ∧ list[other]? = some found) := by
  by_cases same : other = index
  · have inside := (List.getElem?_eq_some_iff.mp lookup).1
    rw [List.length_set, same] at inside
    rw [same, List.getElem?_set_self inside] at lookup
    exact .inl ⟨same, (Option.some.inj lookup).symm⟩
  · rw [List.getElem?_set_ne (Ne.symm same)] at lookup
    exact .inr ⟨same, lookup⟩

/-- What is found behind a change of one entry is the changed one or was there before. -/
theorem modify_cases {change : α → α} (lookup : (list.modify index change)[other]? = some found) :
    (other = index ∧ ∃ entry, list[index]? = some entry ∧ found = change entry) ∨
      (other ≠ index ∧ list[other]? = some found) := by
  by_cases same : other = index
  · subst same
    rw [List.getElem?_modify_eq] at lookup
    obtain ⟨entry, here, changed⟩ := Option.map_eq_some_iff.mp lookup
    exact .inl ⟨rfl, entry, here, changed.symm⟩
  · rw [List.getElem?_modify_ne _ _ (Ne.symm same)] at lookup
    exact .inr ⟨same, lookup⟩

/-- What is found behind one more entry is the new one, at the end, or was there before. -/
theorem concat_cases {new : α} (lookup : (list ++ [new])[other]? = some found) :
    (other = list.length ∧ found = new) ∨ list[other]? = some found := by
  have inside := (List.getElem?_eq_some_iff.mp lookup).1
  rw [List.length_append, List.length_singleton] at inside
  by_cases last : other = list.length
  · rw [last, List.getElem?_concat_length] at lookup
    exact .inl ⟨last, (Option.some.inj lookup).symm⟩
  · rw [List.getElem?_append_left (by omega)] at lookup
    exact .inr lookup

end Entries
