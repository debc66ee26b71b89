import Mathlib.Data.List.Basic

/-!
# Block operations on byte arrays

An array is the list of its bytes. `memset` and `memcpy` write a block at a place in an array
and keep the rest, as the C functions of these names do within the bounds of the array.
-/

namespace Memory

variable {α : Type*}

/-- Fill the first `count` places of an array with one value. -/
def memset (array : List α) (value : α) (count : Nat) : List α :=
  List.replicate count value ++ array.drop count

/-- Write a block into an array from a place on. -/
def memcpy (array : List α) (place : Nat) (block : List α) : List α :=
  array.take place ++ block ++ array.drop (place + block.length)

/-- Filling a whole array leaves nothing of it. -/
theorem memset_all {array : List α} (value : α) {count : Nat} (size : array.length = count) :
    memset array value count = List.replicate count value := by
  rw [memset, List.drop_of_length_le (Nat.le_of_eq size), List.append_nil]

/-- A block written behind a known front replaces as much of what was there. -/
theorem memcpy_append {front old : List α} {place : Nat} (block : List α)
    (at_end : front.length = place) :
    memcpy (front ++ old) place block = front ++ block ++ old.drop block.length := by
  subst at_end
  rw [memcpy, List.take_left, List.drop_append, List.drop_of_length_le (by omega),
    Nat.add_sub_cancel_left, List.nil_append]

/-- A block written at the front of an array. -/
theorem memcpy_zero (array block : List α) :
    memcpy array 0 block = block ++ array.drop block.length := by
  rw [memcpy, List.take_zero, List.nil_append, Nat.zero_add]

/-- A block that lies inside an array does not change its size. -/
theorem memcpy_length {array block : List α} {place : Nat}
    (inside : place + block.length ≤ array.length) :
    (memcpy array place block).length = array.length := by
  simp only [memcpy, List.length_append, List.length_take, List.length_drop]
  omega

end Memory
