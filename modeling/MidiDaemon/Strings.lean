import Mathlib.Data.List.TakeWhile

/-!
# Strings in arrays

A string begins at a place of an array and ends in front of the first terminator from there on.
-/

namespace MidiDaemon

/-- The bytes of an ASCII text. -/
def ascii (text : String) : List UInt8 :=
  text.toList.map fun character => UInt8.ofNat character.toNat

/-- The text at the front of an array, up to its terminator. -/
def cString (array : List UInt8) : List UInt8 := array.takeWhile (· ≠ 0)

/-- `strchr`: the place of the first such byte in the string that begins at a place. -/
def strchr (array : List UInt8) (place : Nat) (byte : UInt8) : Option Nat :=
  ((cString (array.drop place)).findIdx? (· = byte)).map (place + ·)

/-- The string in front of a terminator is that of its bytes, up to their own first terminator. -/
theorem cString_terminated (received rest : List UInt8) :
    cString (received ++ 0 :: rest) = received.takeWhile (· ≠ 0) := by
  induction received with
  | nil => rfl
  | cons byte received ih =>
    unfold cString at ih ⊢
    rw [List.cons_append, List.takeWhile_cons, List.takeWhile_cons, ih]

/-- There is no terminator in a string. -/
theorem cString_unterminated (array : List UInt8) : 0 ∉ cString array := by
  intro member
  have apart := List.mem_takeWhile_imp member
  simp at apart

/-- A text without a terminator is the string in front of one. -/
theorem cString_text {text : List UInt8} (unterminated : 0 ∉ text) (rest : List UInt8) :
    cString (text ++ 0 :: rest) = text := by
  rw [cString_terminated, List.takeWhile_eq_self_iff]
  intro byte member
  simpa using ne_of_mem_of_not_mem member unterminated

/-- A byte is found inside the array, not in front of the string. -/
theorem strchr_bounds {array : List UInt8} {place found : Nat} {byte : UInt8}
    (lookup : strchr array place byte = some found) : place ≤ found ∧ found < array.length := by
  obtain ⟨index, at_index, rfl⟩ := Option.map_eq_some_iff.mp lookup
  have inside := (List.findIdx?_eq_some_iff_findIdx_eq.mp at_index).1
  have shorter : (cString (array.drop place)).length ≤ (array.drop place).length :=
    (List.takeWhile_sublist _).length_le
  rw [List.length_drop] at shorter
  omega

/-- The first such byte of a string is found. -/
theorem strchr_found {array before rest : List UInt8} {place : Nat} {byte : UInt8}
    (text : cString (array.drop place) = before ++ byte :: rest) (apart : byte ∉ before) :
    strchr array place byte = some (place + before.length) := by
  have skipped : before.findIdx? (· = byte) = none := by
    rw [List.findIdx?_eq_none_iff]
    intro other member
    simpa using ne_of_mem_of_not_mem member apart
  rw [strchr, text, List.findIdx?_append, skipped, List.findIdx?_cons]
  simp

/-- A byte that is not in the string is not found. -/
theorem strchr_none {array : List UInt8} {place : Nat} {byte : UInt8}
    (apart : byte ∉ cString (array.drop place)) : strchr array place byte = none := by
  rw [strchr, Option.map_eq_none_iff, List.findIdx?_eq_none_iff]
  intro other member
  simpa using ne_of_mem_of_not_mem member apart

end MidiDaemon
