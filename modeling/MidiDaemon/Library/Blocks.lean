import Mathlib.Data.List.Basic

/-!
# Blocks that begin with a mark

Some elements are marks. When every block of a list begins with a mark and holds no other, the
blocks are determined by their concatenation, so the only way to cut it into as many blocks
that each begin with a mark is the one it was made of.
-/

namespace Blocks

variable {α : Type*} {mark : α → Bool}

/-- The block begins with a mark. -/
def Begins (mark : α → Bool) (block : List α) : Prop := ∃ head ∈ block.head?, mark head = true

/-- The block begins with a mark and holds no other. -/
structure Marked (mark : α → Bool) (block : List α) : Prop where
  /-- It begins with a mark. -/
  begins : Begins mark block
  /-- The rest holds none. -/
  unmarked : ∀ element ∈ block.tail, mark element = false

/-- A block that begins with a mark is the mark and the rest. -/
theorem Begins.split {block : List α} (begins : Begins mark block) :
    ∃ head, mark head = true ∧ block = head :: block.tail := by
  obtain ⟨head, first, marked⟩ := begins
  exact ⟨head, marked, List.eq_cons_of_mem_head? first⟩

/-- The number of marks in a block that begins with one is one more than in its rest. -/
theorem Begins.countP {block : List α} (begins : Begins mark block) :
    block.countP mark = block.tail.countP mark + 1 := by
  obtain ⟨head, marked, whole⟩ := begins.split
  rw [whole, List.countP_cons_of_pos marked, List.tail_cons]

/-- Blocks that each begin with a mark hold at least as many marks as there are blocks. -/
theorem length_le_countP {blocks : List (List α)}
    (begin_marked : ∀ block ∈ blocks, Begins mark block) :
    blocks.length ≤ blocks.flatten.countP mark := by
  induction blocks with
  | nil => exact Nat.zero_le _
  | cons block blocks ih =>
    have here := (begin_marked block List.mem_cons_self).countP
    have later := ih fun other member => begin_marked other (.tail _ member)
    rw [List.length_cons, List.flatten_cons, List.countP_append, here]
    omega

/-- Marked blocks hold one mark each. -/
theorem countP_marked {blocks : List (List α)} (marked : ∀ block ∈ blocks, Marked mark block) :
    blocks.flatten.countP mark = blocks.length := by
  induction blocks with
  | nil => rfl
  | cons block blocks ih =>
    have here := marked block List.mem_cons_self
    have rest : block.tail.countP mark = 0 := by
      apply List.countP_eq_zero.mpr
      intro element member
      simp [here.unmarked element member]
    have later := ih fun other member => marked other (.tail _ member)
    rw [List.flatten_cons, List.countP_append, here.begins.countP, rest, later, List.length_cons]
    omega

/-- Blocks that each begin with a mark, and together hold no more marks than there are blocks,
hold one mark each. -/
theorem marked_of_countP {blocks : List (List α)}
    (begin_marked : ∀ block ∈ blocks, Begins mark block)
    (few : blocks.flatten.countP mark ≤ blocks.length) : ∀ block ∈ blocks, Marked mark block := by
  induction blocks with
  | nil => exact fun _ member => absurd member List.not_mem_nil
  | cons block blocks ih =>
    have begins := begin_marked block List.mem_cons_self
    have others : ∀ other ∈ blocks, Begins mark other :=
      fun other member => begin_marked other (.tail _ member)
    have many := length_le_countP others
    rw [List.flatten_cons, List.countP_append, begins.countP, List.length_cons] at few
    have rest : block.tail.countP mark = 0 := by omega
    have later := ih others (by omega)
    intro other member
    cases member with
    | head =>
      refine ⟨begins, fun element among => ?_⟩
      have unmarked := List.countP_eq_zero.mp rest element among
      simpa using unmarked
    | tail _ member => exact later other member

/-- What stands in front of the first mark is determined by a list. -/
theorem takeWhile_tail {block : List α} {blocks : List (List α)} (marked : Marked mark block)
    (later : ∀ other ∈ blocks, Begins mark other) :
    (block.tail ++ blocks.flatten).takeWhile (fun element => !mark element) = block.tail := by
  have unmarked : ∀ element ∈ block.tail, (!mark element) = true := by
    intro element member
    simp [marked.unmarked element member]
  rw [List.takeWhile_append_of_pos unmarked]
  cases blocks with
  | nil => simp
  | cons other blocks =>
    obtain ⟨head, is_mark, whole⟩ := (later other List.mem_cons_self).split
    rw [List.flatten_cons, whole, List.cons_append, List.takeWhile_cons_of_neg (by simp [is_mark]),
      List.append_nil]

/-- Marked blocks are determined by their concatenation. -/
theorem marked_injective {blocks others : List (List α)}
    (marked : ∀ block ∈ blocks, Marked mark block) (also : ∀ block ∈ others, Marked mark block)
    (same : blocks.flatten = others.flatten) : blocks = others := by
  induction blocks generalizing others with
  | nil =>
    cases others with
    | nil => rfl
    | cons other others =>
      obtain ⟨head, -, whole⟩ := (also other List.mem_cons_self).begins.split
      rw [List.flatten_cons, whole] at same
      simp at same
  | cons block blocks ih =>
    have here := marked block List.mem_cons_self
    have rest : ∀ other ∈ blocks, Marked mark other := fun other member =>
      marked other (.tail _ member)
    obtain ⟨head, -, whole⟩ := here.begins.split
    cases others with
    | nil =>
      rw [List.flatten_cons, whole] at same
      simp at same
    | cons other others =>
      have there := also other List.mem_cons_self
      have others_rest : ∀ third ∈ others, Marked mark third :=
        fun third member => also third (.tail _ member)
      obtain ⟨first, -, other_whole⟩ := there.begins.split
      have cut : head = first ∧
          block.tail ++ blocks.flatten = other.tail ++ others.flatten := by
        rw [List.flatten_cons, List.flatten_cons, whole, other_whole] at same
        simpa using same
      have tails : block.tail = other.tail := by
        rw [← takeWhile_tail here fun third member => (rest third member).begins, cut.2,
          takeWhile_tail there fun third member => (others_rest third member).begins]
      have remaining : blocks.flatten = others.flatten := by
        have both := cut.2
        rw [tails] at both
        exact List.append_cancel_left both
      rw [whole, other_whole, tails, cut.1, ih rest others_rest remaining]

/-- Cutting at marks is unique: blocks that each begin with a mark, as many as the marked
blocks of the same concatenation, are these marked blocks. -/
theorem begins_injective {blocks others : List (List α)}
    (begin_marked : ∀ block ∈ blocks, Begins mark block)
    (marked : ∀ block ∈ others, Marked mark block)
    (same : blocks.flatten = others.flatten) (count : blocks.length = others.length) :
    blocks = others := by
  have few : blocks.flatten.countP mark ≤ blocks.length := by
    apply Nat.le_of_eq
    rw [same, countP_marked marked, count]
  exact marked_injective (marked_of_countP begin_marked few) marked same

end Blocks
