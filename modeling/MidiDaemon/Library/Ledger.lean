import Mathlib.Data.Finset.Insert

/-!
# A ledger of descriptors

A descriptor is known by a number, and the number of a descriptor that has been closed may be
given to a new one. The ledger has one entry for each descriptor ever opened, the newest first,
and counts how often it has been closed: closing a number counts for the newest descriptor of
that number. In a tidy ledger nothing has been closed twice, and at most the newest descriptor
of each number is open.
-/

namespace Ledger

variable {ρ : Type*}

/-- A descriptor and the number of times it has been closed. -/
structure Entry (ρ : Type*) where
  /-- Its number. -/
  number : ρ
  /-- How often it has been closed. -/
  closes : Nat
deriving DecidableEq

/-- The number is that of an open descriptor. -/
def StillOpen (ledger : List (Entry ρ)) (number : ρ) : Prop :=
  ∃ entry ∈ ledger, entry.number = number ∧ entry.closes = 0

/-- A new descriptor of a number. -/
def opening (number : ρ) (ledger : List (Entry ρ)) : List (Entry ρ) := ⟨number, 0⟩ :: ledger

/-- Nothing has been closed twice, and what is older than a descriptor of its number has been
closed. -/
def Tidy : List (Entry ρ) → Prop
  | [] => True
  | entry :: older =>
    entry.closes ≤ 1 ∧ (∀ other ∈ older, other.number = entry.number → other.closes = 1) ∧
      Tidy older

/-- No descriptor has been closed twice. -/
theorem Tidy.closes_le {ledger : List (Entry ρ)} (tidy : Tidy ledger) :
    ∀ entry ∈ ledger, entry.closes ≤ 1 := by
  induction ledger with
  | nil => exact fun _ member => absurd member List.not_mem_nil
  | cons first older ih =>
    intro entry member
    rcases List.mem_cons.mp member with rfl | later
    · exact tidy.1
    · exact ih tidy.2.2 entry later

/-- When no number is open, every descriptor has been closed exactly once. -/
theorem Tidy.closed_once {ledger : List (Entry ρ)} (tidy : Tidy ledger)
    (none_open : ∀ number, ¬ StillOpen ledger number) : ∀ entry ∈ ledger, entry.closes = 1 := by
  intro entry member
  have once := tidy.closes_le entry member
  have closed : entry.closes ≠ 0 := fun zero => none_open entry.number ⟨entry, member, rfl, zero⟩
  omega

/-- A number that is not open may be given to a new descriptor. -/
theorem Tidy.opening {ledger : List (Entry ρ)} {number : ρ} (tidy : Tidy ledger)
    (unopened : ¬ StillOpen ledger number) : Tidy (opening number ledger) := by
  refine ⟨Nat.zero_le 1, fun other member same => ?_, tidy⟩
  have once := tidy.closes_le other member
  have closed : other.closes ≠ 0 := fun zero => unopened ⟨other, member, same, zero⟩
  omega

/-- The new number is open, and the others are as before. -/
theorem stillOpen_opening {ledger : List (Entry ρ)} {number other : ρ} :
    StillOpen (opening number ledger) other ↔ other = number ∨ StillOpen ledger other := by
  constructor
  · rintro ⟨entry, member, same, zero⟩
    rcases List.mem_cons.mp member with rfl | later
    · exact .inl same.symm
    · exact .inr ⟨entry, later, same, zero⟩
  · rintro (rfl | ⟨entry, member, same, zero⟩)
    · exact ⟨⟨other, 0⟩, List.mem_cons_self, rfl, rfl⟩
    · exact ⟨entry, .tail _ member, same, zero⟩

variable [DecidableEq ρ]

instance (ledger : List (Entry ρ)) (number : ρ) : Decidable (StillOpen ledger number) :=
  inferInstanceAs (Decidable (∃ entry ∈ ledger, entry.number = number ∧ entry.closes = 0))

/-- Closing a number counts for its newest descriptor. -/
def closing (number : ρ) : List (Entry ρ) → List (Entry ρ)
  | [] => []
  | entry :: older =>
    if entry.number = number then ⟨entry.number, entry.closes + 1⟩ :: older
    else entry :: closing number older

variable {ledger : List (Entry ρ)} {number : ρ}

/-- Closing changes no numbers. -/
theorem map_number_closing :
    (closing number ledger).map Entry.number = ledger.map Entry.number := by
  induction ledger with
  | nil => rfl
  | cons first older ih =>
    rw [closing]
    split
    · rfl
    · rw [List.map_cons, List.map_cons, ih]

/-- A descriptor is as before, or has the number that was closed. -/
theorem number_closing {entry : Entry ρ} (member : entry ∈ closing number ledger) :
    entry ∈ ledger ∨ entry.number = number := by
  induction ledger with
  | nil => exact absurd member List.not_mem_nil
  | cons first older ih =>
    rw [closing] at member
    split at member
    · rename_i same
      rcases List.mem_cons.mp member with rfl | later
      · exact .inr same
      · exact .inl (.tail _ later)
    · rcases List.mem_cons.mp member with rfl | later
      · exact .inl List.mem_cons_self
      · exact (ih later).imp_left (.tail _)

/-- Closing an open number closes its descriptor, and the ledger stays tidy. -/
theorem Tidy.closing (tidy : Tidy ledger) (is_open : StillOpen ledger number) :
    Tidy (closing number ledger) ∧
      ∀ other, StillOpen (closing number ledger) other ↔
        StillOpen ledger other ∧ other ≠ number := by
  induction ledger with
  | nil =>
    obtain ⟨entry, member, -⟩ := is_open
    exact absurd member List.not_mem_nil
  | cons first older ih =>
    obtain ⟨once, older_closed, older_tidy⟩ := tidy
    rw [Ledger.closing]
    split
    · -- The newest descriptor of the number: it is the open one.
      rename_i same
      have zero : first.closes = 0 := by
        obtain ⟨entry, member, number_same, entry_open⟩ := is_open
        rcases List.mem_cons.mp member with rfl | later
        · exact entry_open
        · have closed := older_closed entry later (number_same.trans same.symm)
          omega
      have count : first.closes + 1 ≤ 1 := by omega
      refine ⟨⟨count, older_closed, older_tidy⟩, fun other => ?_⟩
      constructor
      · rintro ⟨entry, member, number_same, entry_open⟩
        rcases List.mem_cons.mp member with rfl | later
        · simp at entry_open
        · refine ⟨⟨entry, .tail _ later, number_same, entry_open⟩, fun alike => ?_⟩
          have closed := older_closed entry later (by rw [number_same, alike, same])
          omega
      · rintro ⟨⟨entry, member, number_same, entry_open⟩, differ⟩
        rcases List.mem_cons.mp member with rfl | later
        · exact absurd (number_same.symm.trans same) differ
        · exact ⟨entry, .tail _ later, number_same, entry_open⟩
    · rename_i differs
      have further : StillOpen older number := by
        obtain ⟨entry, member, number_same, entry_open⟩ := is_open
        rcases List.mem_cons.mp member with rfl | later
        · exact absurd number_same differs
        · exact ⟨entry, later, number_same, entry_open⟩
      obtain ⟨later_tidy, later_open⟩ := ih older_tidy further
      refine ⟨⟨once, fun other member same => ?_, later_tidy⟩, fun other => ?_⟩
      · rcases number_closing member with before | closed
        · exact older_closed other before same
        · exact absurd (same.symm.trans closed) differs
      · constructor
        · rintro ⟨entry, member, number_same, entry_open⟩
          rcases List.mem_cons.mp member with rfl | later
          · refine ⟨⟨entry, List.mem_cons_self, number_same, entry_open⟩, fun alike => ?_⟩
            exact differs (number_same.trans alike)
          · obtain ⟨before, apart⟩ := (later_open other).mp ⟨entry, later, number_same, entry_open⟩
            obtain ⟨old, old_member, old_same, old_open⟩ := before
            exact ⟨⟨old, .tail _ old_member, old_same, old_open⟩, apart⟩
        · rintro ⟨⟨entry, member, number_same, entry_open⟩, apart⟩
          rcases List.mem_cons.mp member with rfl | later
          · exact ⟨entry, List.mem_cons_self, number_same, entry_open⟩
          · obtain ⟨kept, kept_member, kept_same, kept_open⟩ :=
              (later_open other).mpr ⟨⟨entry, later, number_same, entry_open⟩, apart⟩
            exact ⟨kept, .tail _ kept_member, kept_same, kept_open⟩

/-- Closing another number leaves the oldest descriptor as it is. -/
theorem getLast?_closing {oldest : Entry ρ} (last : ledger.getLast? = some oldest)
    (apart : oldest.number ≠ number) : (closing number ledger).getLast? = some oldest := by
  induction ledger with
  | nil => cases last
  | cons first older ih =>
    cases older with
    | nil =>
      have only : first = oldest := Option.some.inj last
      rw [closing, if_neg (by rw [only]; exact apart), only]
      rfl
    | cons second rest =>
      have later : (second :: rest).getLast? = some oldest := by
        rwa [List.getLast?_cons_cons] at last
      rw [closing]
      split
      · rwa [List.getLast?_cons_cons]
      · obtain ⟨front, split⟩ := List.getLast?_eq_some_iff.mp (ih later)
        rw [split, ← List.cons_append]
        exact List.getLast?_concat

end Ledger
