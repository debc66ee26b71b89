import Mathlib.Data.List.Basic

/-!
# Cursors over a table

A table has entries at some numbers below a limit. A query gives the first entry behind a cursor,
which begins at `-1`, and between two queries the table may change. What a query passes over was not
there when it was asked.
-/

namespace Cursor

variable {α : Type*} {limit number other : Nat} {table : Nat → Option α} {cursor : Int}

/-- The number of the first entry behind the cursor. -/
def next (limit : Nat) (table : Nat → Option α) (cursor : Int) : Option Nat :=
  (List.range limit).find? fun number => cursor < number ∧ (table number).isSome

/-- A query finds an entry behind the cursor. -/
theorem next_found (found : next limit table cursor = some number) :
    cursor < number ∧ number < limit ∧ (table number).isSome = true := by
  have holds := List.find?_some found
  have member := List.mem_of_find?_eq_some found
  have both := of_decide_eq_true holds
  exact ⟨both.1, List.mem_range.mp member, both.2⟩

/-- A query passes over nothing that is there. -/
theorem next_first (found : next limit table cursor = some number) (behind : cursor < other)
    (present : (table other).isSome = true) : number ≤ other := by
  by_contra passed
  have missed := (List.find?_range_eq_some.mp found).2.2 other (Nat.lt_of_not_le passed)
  simp [behind, present] at missed

/-- A query that finds nothing has nothing behind the cursor. -/
theorem next_none (ended : next limit table cursor = none) (within : other < limit)
    (present : (table other).isSome = true) : (other : Int) ≤ cursor := by
  have refused := List.find?_eq_none.mp ended other (List.mem_range.mpr within)
  simp only [present, and_true, decide_eq_true_eq] at refused
  omega

end Cursor
