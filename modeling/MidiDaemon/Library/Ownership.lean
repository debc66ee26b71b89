import Mathlib.Data.Finset.Erase
import Mathlib.Data.Finset.Insert
import Mathlib.Logic.Function.Basic

/-!
# Exclusive ownership of resources

Owners hold at most one resource each. Ownership is exclusive when every resource held is open
and has one owner. Acquiring an unopened resource, handing one over to an owner without one,
releasing one, and closing a resource that nobody holds keep it exclusive.
-/

namespace Ownership

variable {κ ρ : Type*}

/-- Every resource held is open and has one owner. -/
structure Exclusive (owner : κ → Option ρ) (opened : Finset ρ) : Prop where
  /-- A resource that is held is open. -/
  held : ∀ key resource, owner key = some resource → resource ∈ opened
  /-- Two owners hold different resources. -/
  apart : ∀ key other resource, owner key = some resource → owner other = some resource →
    key = other

namespace Exclusive

variable [DecidableEq κ] {owner : κ → Option ρ} {opened : Finset ρ} {key : κ} {resource : ρ}

omit [DecidableEq κ] in
/-- Nobody holds anything. -/
theorem nobody (opened : Finset ρ) : Exclusive (fun _ : κ => none) opened :=
  ⟨fun _ _ holds => (Option.some_ne_none _ holds.symm).elim,
    fun _ _ _ holds _ => (Option.some_ne_none _ holds.symm).elim⟩

/-- An owner that lets go of its resource takes none from the others. -/
theorem drop (exclusive : Exclusive owner opened) (key : κ) :
    Exclusive (Function.update owner key none) opened := by
  have old : ∀ other resource, Function.update owner key none other = some resource →
      owner other = some resource := by
    intro other resource holds
    by_cases same : other = key
    · rw [same, Function.update_self] at holds
      cases holds
    · rwa [Function.update_of_ne same] at holds
  constructor
  · exact fun other resource holds => exclusive.held other resource (old other resource holds)
  · exact fun first second resource one two =>
      exclusive.apart first second resource (old _ _ one) (old _ _ two)

/-- An owner takes an open resource that nobody holds. -/
theorem take (exclusive : Exclusive owner opened) (unheld : ∀ key, owner key ≠ some resource)
    (is_open : resource ∈ opened) :
    Exclusive (Function.update owner key (some resource)) opened := by
  constructor
  · intro other held holds
    by_cases same : other = key
    · rw [same, Function.update_self] at holds
      rw [← Option.some.inj holds]
      exact is_open
    · rw [Function.update_of_ne same] at holds
      exact exclusive.held other held holds
  · intro first second held one two
    by_cases first_new : first = key
    · by_cases second_new : second = key
      · rw [first_new, second_new]
      · rw [first_new, Function.update_self] at one
        rw [Function.update_of_ne second_new, ← Option.some.inj one] at two
        exact absurd two (unheld second)
    · by_cases second_new : second = key
      · rw [second_new, Function.update_self] at two
        rw [Function.update_of_ne first_new, ← Option.some.inj two] at one
        exact absurd one (unheld first)
      · rw [Function.update_of_ne first_new] at one
        rw [Function.update_of_ne second_new] at two
        exact exclusive.apart first second held one two

/-- An owner hands its resource over. -/
theorem hand_over (exclusive : Exclusive owner opened) (holds : owner key = some resource)
    (other : κ) :
    Exclusive (Function.update (Function.update owner key none) other (some resource)) opened := by
  refine (exclusive.drop key).take (fun third held => ?_) (exclusive.held key resource holds)
  by_cases same : third = key
  · rw [same, Function.update_self] at held
    cases held
  · rw [Function.update_of_ne same] at held
    exact same (exclusive.apart third key resource held holds)

variable [DecidableEq ρ]

omit [DecidableEq κ] in
/-- A resource that nobody holds may be closed. -/
theorem close_unheld (exclusive : Exclusive owner opened)
    (unheld : ∀ key, owner key ≠ some resource) : Exclusive owner (opened.erase resource) := by
  refine ⟨fun key other holds => Finset.mem_erase.mpr ⟨?_, exclusive.held key other holds⟩,
    exclusive.apart⟩
  intro same
  rw [same] at holds
  exact unheld key holds

/-- An owner closes its resource. -/
theorem release (exclusive : Exclusive owner opened) (holds : owner key = some resource) :
    Exclusive (Function.update owner key none) (opened.erase resource) := by
  refine (exclusive.drop key).close_unheld fun other held => ?_
  by_cases same : other = key
  · rw [same, Function.update_self] at held
    cases held
  · rw [Function.update_of_ne same] at held
    exact same (exclusive.apart other key resource held holds)

/-- An owner opens a resource. -/
theorem acquire (exclusive : Exclusive owner opened) (unopened : resource ∉ opened) :
    Exclusive (Function.update owner key (some resource)) (insert resource opened) := by
  have unheld : ∀ key, owner key ≠ some resource := fun key holds =>
    unopened (exclusive.held key resource holds)
  have wider : Exclusive owner (insert resource opened) :=
    ⟨fun key other holds => Finset.mem_insert_of_mem (exclusive.held key other holds),
      exclusive.apart⟩
  exact wider.take unheld (Finset.mem_insert_self resource opened)

end Exclusive

end Ownership
