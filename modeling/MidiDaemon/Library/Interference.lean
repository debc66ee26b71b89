import Mathlib.Data.Fintype.Basic
import Mathlib.Logic.Function.Basic
import MidiDaemon.Library.Machine

/-!
# Components over shared storage

Any number of components each have a private state and act on one shared store. A schedule
interleaves their actions, and `own` keeps the actions of one component, which that component
can also take alone. A view relation says which stores a component cannot tell apart in its
present private state; when an action does not disturb what the other components see, every
component goes through the private states of its run alone.
-/

namespace Interference

open Machine

variable {ι τ γ ℓ : Type*} [DecidableEq ι]

/-- One action of the component named by the label. -/
def step (act : τ → γ → ℓ → Option (τ × γ)) (state : (ι → τ) × γ) (label : ι × ℓ) :
    Option ((ι → τ) × γ) :=
  (act (state.1 label.1) state.2 label.2).map fun result =>
    (Function.update state.1 label.1 result.1, result.2)

/-- One action of a component that has the store to itself. -/
def solo (act : τ → γ → ℓ → Option (τ × γ)) (state : τ × γ) (label : ℓ) : Option (τ × γ) :=
  act state.1 state.2 label

/-- The actions of one component in a schedule. -/
def own (component : ι) (schedule : List (ι × ℓ)) : List ℓ :=
  schedule.filterMap fun label => if label.1 = component then some label.2 else none

@[simp] theorem own_nil (component : ι) : own component ([] : List (ι × ℓ)) = [] := rfl

/-- An action of the component itself is one of its actions. -/
theorem own_cons_self (label : ι × ℓ) (rest : List (ι × ℓ)) :
    own label.1 (label :: rest) = label.2 :: own label.1 rest :=
  List.filterMap_cons_some (if_pos rfl)

/-- An action of another component is none of its actions. -/
theorem own_cons_other {component : ι} {label : ι × ℓ} (other : label.1 ≠ component)
    (rest : List (ι × ℓ)) : own component (label :: rest) = own component rest :=
  List.filterMap_cons_none (if_neg other)

/-- The actions of a component in two schedules, one behind the other. -/
theorem own_append (component : ι) (front back : List (ι × ℓ)) :
    own component (front ++ back) = own component front ++ own component back :=
  List.filterMap_append

/-- What belongs to a component in a schedule. -/
theorem mem_own {component : ι} {schedule : List (ι × ℓ)} {label : ℓ} :
    label ∈ own component schedule ↔ (component, label) ∈ schedule := by
  rw [own, List.mem_filterMap]
  constructor
  · rintro ⟨entry, member, mine⟩
    simp only [Option.ite_none_right_eq_some, Option.some.injEq] at mine
    rw [← mine.1, ← mine.2]
    exact member
  · intro member
    exact ⟨(component, label), member, if_pos rfl⟩

/-- A component keeps its places when every action is replaced by another of the same component. -/
theorem own_map {ℓ' : Type*} (component : ι) (change : ℓ → ℓ') (schedule : List (ι × ℓ)) :
    own component (schedule.map fun label => (label.1, change label.2)) =
      (own component schedule).map change := by
  induction schedule with
  | nil => rfl
  | cons label rest ih =>
    rw [List.map_cons]
    by_cases mine : label.1 = component
    · rw [← mine] at ih ⊢
      have first := own_cons_self (label.1, change label.2)
        (rest.map fun label => (label.1, change label.2))
      rw [first, own_cons_self, List.map_cons, ih]
    · have changed : (label.1, change label.2).1 ≠ component := mine
      rw [own_cons_other mine, own_cons_other changed, ih]

/-- Schedules of the same components give each as many actions. -/
theorem own_length {ℓ' : Type*} (component : ι) {schedule : List (ι × ℓ)}
    {other : List (ι × ℓ')} (same : schedule.map Prod.fst = other.map Prod.fst) :
    (own component schedule).length = (own component other).length := by
  induction schedule generalizing other with
  | nil =>
    have nothing : other = [] := List.map_eq_nil_iff.mp same.symm
    rw [nothing, own_nil, own_nil]
    rfl
  | cons label rest ih =>
    cases other with
    | nil => cases same
    | cons second others =>
      have ⟨head, tail⟩ := List.cons.inj same
      by_cases mine : label.1 = component
      · rw [← mine] at ih ⊢
        rw [own_cons_self, head, own_cons_self, List.length_cons, List.length_cons, ← head, ih tail]
      · have apart : second.1 ≠ component := head ▸ mine
        rw [own_cons_other mine, own_cons_other apart, ih tail]

/-- A step is an action of its component and changes no other component. -/
theorem step_cases {act : τ → γ → ℓ → Option (τ × γ)} {state next : (ι → τ) × γ}
    {label : ι × ℓ} (stepped : step act state label = some next) :
    ∃ result, act (state.1 label.1) state.2 label.2 = some result ∧
      next.1 label.1 = result.1 ∧ (∀ other, other ≠ label.1 → next.1 other = state.1 other) ∧
      next.2 = result.2 := by
  obtain ⟨result, acted, rfl⟩ := Option.map_eq_some_iff.mp stepped
  refine ⟨result, acted, Function.update_self .., fun other apart => ?_, rfl⟩
  exact Function.update_of_ne apart ..

section Unwinding

variable (act : τ → γ → ℓ → Option (τ × γ)) (Ok : τ → Prop) (Sees : τ → γ → γ → Prop)

/-- The step leaves the store as it is in the eyes of every other component. -/
def Undisturbing (state : (ι → τ) × γ) (label : ι × ℓ) : Prop :=
  ∀ result, act (state.1 label.1) state.2 label.2 = some result →
    ∀ other, other ≠ label.1 → Sees (state.1 other) result.2 state.2

instance decidableUndisturbing [Fintype ι] [∀ own first second, Decidable (Sees own first second)]
    (state : (ι → τ) × γ) (label : ι × ℓ) : Decidable (Undisturbing act Sees state label) :=
  match acted : act (state.1 label.1) state.2 label.2 with
  | none => isTrue fun result taken => by simp [acted] at taken
  | some result =>
    decidable_of_iff (∀ other, other ≠ label.1 → Sees (state.1 other) result.2 state.2)
      ⟨fun sees _ taken => by rwa [← Option.some.inj (acted.symm.trans taken)],
        fun sees => sees result acted⟩

/-- Components do not interfere. Where a component in a proper state acts alike on stores
it cannot tell apart, and no step disturbs the other components, the private state of each
component at the end of a schedule is its private state at the end of its own actions run
alone. -/
theorem run_own
    (same : ∀ own store, Sees own store store)
    (trans : ∀ own first second third, Sees own first second → Sees own second third →
      Sees own first third)
    (kept : ∀ own store label result, Ok own → act own store label = some result → Ok result.1)
    (alike : ∀ own store alone label result, Ok own → Sees own store alone →
      act own store label = some result →
      ∃ twin, act own alone label = some twin ∧ twin.1 = result.1 ∧
        Sees result.1 result.2 twin.2)
    {start final : (ι → τ) × γ} {schedule : List (ι × ℓ)}
    (initially : ∀ component, Ok (start.1 component))
    (quiet : EachStep (step act) (Undisturbing act Sees) start schedule)
    (reached : run (step act) start schedule = some final) (component : ι) :
    ∃ alone, run (solo act) (start.1 component, start.2) (own component schedule) = some alone ∧
      alone.1 = final.1 component ∧ Sees (final.1 component) final.2 alone.2 := by
  suffices general : ∀ {shared : (ι → τ) × γ} {store : γ}, Ok (shared.1 component) →
      Sees (shared.1 component) shared.2 store →
      EachStep (step act) (Undisturbing act Sees) shared schedule →
      run (step act) shared schedule = some final →
      ∃ alone, run (solo act) (shared.1 component, store) (own component schedule) = some alone ∧
        alone.1 = final.1 component ∧ Sees (final.1 component) final.2 alone.2 from
    general (initially component) (same _ _) quiet reached
  clear initially quiet reached
  induction schedule with
  | nil =>
    intro shared store _ view _ reached
    have ended : shared = final := Option.some.inj reached
    subst ended
    exact ⟨_, rfl, rfl, view⟩
  | cons label rest ih =>
    intro shared store proper view quiet reached
    obtain ⟨next, stepped, onward⟩ := Option.bind_eq_some_iff.mp reached
    obtain ⟨undisturbed, later⟩ := quiet next stepped
    obtain ⟨result, acted, moved, others, stored⟩ := step_cases stepped
    by_cases mine : label.1 = component
    · -- The component's own action: both runs take it.
      subst mine
      obtain ⟨twin, twin_acted, twin_private, twin_view⟩ := alike _ _ _ _ _ proper view acted
      have proper_next : Ok (next.1 label.1) := by
        rw [moved]
        exact kept _ _ _ _ proper acted
      have view_next : Sees (next.1 label.1) next.2 twin.2 := by
        rw [moved, stored]
        exact twin_view
      have stepped_alone : solo act (shared.1 label.1, store) label.2 =
          some (next.1 label.1, twin.2) := by
        rw [solo, twin_acted, moved, ← twin_private]
      rw [own_cons_self, run_cons, stepped_alone]
      exact ih proper_next view_next later onward
    · -- Another component's action: only the shared run moves, unseen by this one.
      have untouched : next.1 component = shared.1 component := others component (Ne.symm mine)
      have unseen := undisturbed result acted component (Ne.symm mine)
      have proper_next : Ok (next.1 component) := by
        rw [untouched]
        exact proper
      have view_next : Sees (next.1 component) next.2 store := by
        rw [untouched, stored]
        exact trans _ _ _ _ unseen view
      rw [own_cons_other mine, ← untouched]
      exact ih proper_next view_next later onward

end Unwinding

end Interference
