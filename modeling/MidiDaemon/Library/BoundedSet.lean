import Mathlib.Data.Finset.Card
import Mathlib.Data.List.Nodup

/-!
# Bounded sets, and arrays that hold them

A bounded set has room for a number of values. An array of cells holds one when every cell is
vacant or has a value of the set, each value in one cell. A value is added by a store to a vacant
cell, which is there exactly while the set is not full. Since the values are distinct, vacating
every cell that has a value removes this value and no other.
-/

/-- A set of at most `capacity` values. -/
structure BoundedSet (α : Type*) (capacity : Nat) where
  /-- The values. -/
  elements : Finset α
  /-- There is room for them. -/
  bounded : elements.card ≤ capacity

namespace BoundedSet

variable {α : Type*} {capacity : Nat}

/-- The set without values. -/
def empty : BoundedSet α capacity := ⟨∅, Nat.zero_le _⟩

/-- There is no room for a further value. -/
def Full (set : BoundedSet α capacity) : Prop := set.elements.card = capacity

instance (set : BoundedSet α capacity) : Decidable set.Full :=
  inferInstanceAs (Decidable (set.elements.card = capacity))

section Operations

variable [DecidableEq α]

/-- Add a value while there is room. -/
def add (set : BoundedSet α capacity) (value : α) : BoundedSet α capacity :=
  if full : set.Full then set
  else
    { elements := insert value set.elements
      bounded := (Finset.card_insert_le _ _).trans (Nat.lt_of_le_of_ne set.bounded full) }

/-- Remove a value. -/
def remove (set : BoundedSet α capacity) (value : α) : BoundedSet α capacity where
  elements := set.elements.erase value
  bounded := (Finset.card_le_card (Finset.erase_subset _ _)).trans set.bounded

variable {set : BoundedSet α capacity} {value : α}

/-- A full set stays as it is. -/
theorem add_full (full : set.Full) : set.add value = set := dif_pos full

/-- Else the value is in the set. -/
theorem add_elements (room : ¬ set.Full) :
    (set.add value).elements = insert value set.elements := by
  rw [add, dif_neg room]

@[simp] theorem remove_elements : (set.remove value).elements = set.elements.erase value := rfl

end Operations

/-! ## Cells -/

/-- Each value has one cell, and every other cell is vacant. -/
structure Represents (vacant : α) (cells : List α) (elements : Finset α) : Prop where
  /-- No two cells have the same value. -/
  distinct : ∀ (place other : Nat) (value : α), cells[place]? = some value →
    cells[other]? = some value → value ≠ vacant → place = other
  /-- What is in the cells is in the set. -/
  exact : ∀ value, value ∈ elements ↔ value ∈ cells ∧ value ≠ vacant

/-- Vacant cells hold the set without values. -/
theorem represents_vacant (vacant : α) (count : Nat) :
    Represents vacant (List.replicate count vacant) ∅ where
  distinct place other held here _ occupied := by
    have same := List.eq_of_mem_replicate (List.mem_of_getElem? here)
    exact absurd same occupied
  exact held := by
    constructor
    · exact fun member => absurd member (Finset.notMem_empty held)
    · rintro ⟨member, occupied⟩
      exact absurd (List.eq_of_mem_replicate member) occupied

namespace Represents

variable [DecidableEq α] {vacant value : α} {cells after : List α} {elements : Finset α}

/-- A store to a vacant cell adds a value that no cell has. -/
theorem store (represents : Represents vacant cells elements) {place : Nat}
    (free : cells[place]? = some vacant) (occupied : value ≠ vacant) (fresh : value ∉ cells) :
    Represents vacant (cells.set place value) (insert value elements) := by
  obtain ⟨inside, -⟩ := List.getElem?_eq_some_iff.mp free
  have here : (cells.set place value)[place]? = some value := List.getElem?_set_self inside
  have elsewhere : ∀ other, other ≠ place → (cells.set place value)[other]? = cells[other]? :=
    fun other apart => List.getElem?_set_ne (Ne.symm apart)
  -- No cell had the value, so the cell that has it now is the one of the store.
  have only : ∀ other, (cells.set place value)[other]? = some value → other = place := by
    intro other held
    by_contra apart
    rw [elsewhere other apart] at held
    exact fresh (List.mem_of_getElem? held)
  constructor
  · intro first second held firstHeld secondHeld heldOccupied
    by_cases new : held = value
    · subst new
      rw [only first firstHeld, only second secondHeld]
    · have apart : ∀ other, (cells.set place value)[other]? = some held → other ≠ place := by
        intro other otherHeld same
        rw [same, here] at otherHeld
        exact new (Option.some.inj otherHeld).symm
      rw [elsewhere first (apart first firstHeld)] at firstHeld
      rw [elsewhere second (apart second secondHeld)] at secondHeld
      exact represents.distinct first second held firstHeld secondHeld heldOccupied
  · intro held
    rw [Finset.mem_insert]
    constructor
    · rintro (rfl | member)
      · exact ⟨List.mem_of_getElem? here, occupied⟩
      · obtain ⟨old, heldOccupied⟩ := (represents.exact held).mp member
        obtain ⟨other, otherHeld⟩ := List.mem_iff_getElem?.mp old
        have apart : other ≠ place := by
          intro same
          rw [same, free] at otherHeld
          exact heldOccupied (Option.some.inj otherHeld).symm
        refine ⟨List.mem_of_getElem? (show (cells.set place value)[other]? = some held from ?_),
          heldOccupied⟩
        rw [elsewhere other apart]
        exact otherHeld
    · rintro ⟨member, heldOccupied⟩
      obtain ⟨other, otherHeld⟩ := List.mem_iff_getElem?.mp member
      by_cases same : other = place
      · rw [same, here] at otherHeld
        exact .inl (Option.some.inj otherHeld).symm
      · rw [elsewhere other same] at otherHeld
        exact .inr ((represents.exact held).mpr ⟨List.mem_of_getElem? otherHeld, heldOccupied⟩)

/-- Vacating every cell that has a value removes the value. -/
theorem clear (represents : Represents vacant cells elements)
    (cleared : ∀ place : Nat, after[place]? =
      if cells[place]? = some value then some vacant else cells[place]?) :
    Represents vacant after (elements.erase value) := by
  have kept : ∀ (place : Nat) (held : α), held ≠ vacant →
      (after[place]? = some held ↔ cells[place]? = some held ∧ held ≠ value) := by
    intro place held occupied
    rw [cleared]
    by_cases here : cells[place]? = some value
    · rw [if_pos here, here]
      constructor
      · exact fun same => absurd (Option.some.inj same).symm occupied
      · exact fun both => absurd (Option.some.inj both.1).symm both.2
    · rw [if_neg here]
      refine ⟨fun same => ⟨same, ?_⟩, fun both => both.1⟩
      rintro rfl
      exact here same
  constructor
  · intro first second held firstHeld secondHeld occupied
    have one := ((kept first held occupied).mp firstHeld).1
    have other := ((kept second held occupied).mp secondHeld).1
    exact represents.distinct first second held one other occupied
  · intro held
    rw [Finset.mem_erase, represents.exact, List.mem_iff_getElem?, List.mem_iff_getElem?]
    constructor
    · rintro ⟨other, ⟨place, here⟩, occupied⟩
      exact ⟨⟨place, (kept place held occupied).mpr ⟨here, other⟩⟩, occupied⟩
    · rintro ⟨⟨place, here⟩, occupied⟩
      obtain ⟨old, other⟩ := (kept place held occupied).mp here
      exact ⟨other, ⟨place, old⟩, occupied⟩

/-- A vacant cell is room for a value. -/
theorem card_lt (represents : Represents vacant cells elements) (free : vacant ∈ cells) :
    elements.card < cells.length := by
  have inside : elements ⊆ (cells.filter (· ≠ vacant)).toFinset := by
    intro held member
    rw [List.mem_toFinset, List.mem_filter, decide_eq_true_eq]
    exact (represents.exact held).mp member
  calc elements.card ≤ (cells.filter (· ≠ vacant)).toFinset.card := Finset.card_le_card inside
    _ ≤ (cells.filter (· ≠ vacant)).length := List.toFinset_card_le _
    _ < cells.length := List.length_filter_lt_length_iff_exists.mpr ⟨vacant, free, by simp⟩

/-- Without a vacant cell there are as many values as cells. -/
theorem card_full (represents : Represents vacant cells elements) (full : vacant ∉ cells) :
    elements.card = cells.length := by
  have same : elements = cells.toFinset := by
    ext held
    rw [represents.exact, List.mem_toFinset, and_iff_left_iff_imp]
    rintro member rfl
    exact full member
  have distinct : cells.Nodup := by
    apply List.nodup_iff_getElem?_ne_getElem?.mpr
    intro place other below inside alike
    have held : cells[other]? = some cells[other] := List.getElem?_eq_getElem inside
    have occupied : cells[other] ≠ vacant := by
      intro empty
      exact full (empty ▸ List.getElem_mem inside)
    have one := represents.distinct place other cells[other] (alike.trans held) held occupied
    omega
  rw [same, List.toFinset_card_of_nodup distinct]

variable {set : BoundedSet α capacity}

/-- The set is full when no cell is vacant. -/
theorem full_iff (represents : Represents vacant cells set.elements)
    (size : cells.length = capacity) : set.Full ↔ vacant ∉ cells := by
  constructor
  · intro full free
    have room := represents.card_lt free
    have count : set.elements.card = capacity := full
    omega
  · intro full
    exact (represents.card_full full).trans size

/-- A value is added by the store to a vacant cell. -/
theorem add (represents : Represents vacant cells set.elements) (size : cells.length = capacity)
    {place : Nat} (free : cells[place]? = some vacant) (occupied : value ≠ vacant)
    (fresh : value ∉ cells) :
    Represents vacant (cells.set place value) (set.add value).elements := by
  have room : ¬ set.Full := by
    rw [represents.full_iff size, not_not]
    exact List.mem_of_getElem? free
  rw [add_elements room]
  exact represents.store free occupied fresh

/-- Nothing is added when no cell is vacant. -/
theorem add_none (represents : Represents vacant cells set.elements)
    (size : cells.length = capacity) (full : vacant ∉ cells) :
    Represents vacant cells (set.add value).elements := by
  rw [add_full ((represents.full_iff size).mpr full)]
  exact represents

/-- A value is removed by vacating every cell that has it. -/
theorem remove (represents : Represents vacant cells set.elements)
    (cleared : ∀ place : Nat, after[place]? =
      if cells[place]? = some value then some vacant else cells[place]?) :
    Represents vacant after (set.remove value).elements := by
  rw [remove_elements]
  exact represents.clear cleared

end Represents

end BoundedSet
