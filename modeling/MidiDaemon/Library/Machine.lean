import Mathlib.Data.List.Basic

/-!
# Labelled machines

A machine takes one labelled step at a time and may refuse a label. Its runs are lists of
labels, so a statement about every run is a statement about every list, and a schedule is
data that can be evaluated. Two rules carry facts about one step to whole runs: an invariant
kept by every admitted step holds at the end of the run, and a property that fails after exactly
the steps outside a condition holds throughout a run exactly when every step meets that
condition.
-/

namespace Machine

variable {σ ℓ : Type*}

/-- Run a list of labels from a state; a refused label leaves no state. -/
def run (step : σ → ℓ → Option σ) : σ → List ℓ → Option σ
  | state, [] => some state
  | state, label :: rest => (step state label).bind fun next => run step next rest

/-- Every step the run takes meets a condition on the state before it and its label. -/
def EachStep (step : σ → ℓ → Option σ) (condition : σ → ℓ → Prop) : σ → List ℓ → Prop
  | _, [] => True
  | state, label :: rest => ∀ next, step state label = some next →
      condition state label ∧ EachStep step condition next rest

/-- Every state the run reaches has a property, the first and the last state included. -/
def EachState (step : σ → ℓ → Option σ) (property : σ → Prop) : σ → List ℓ → Prop
  | state, [] => property state
  | state, label :: rest => property state ∧ ∀ next, step state label = some next →
      EachState step property next rest

variable {step : σ → ℓ → Option σ}

instance decidableEachStep {condition : σ → ℓ → Prop}
    [∀ state label, Decidable (condition state label)] :
    (start : σ) → (labels : List ℓ) → Decidable (EachStep step condition start labels)
  | _, [] => inferInstanceAs (Decidable True)
  | start, label :: rest =>
    match taken : step start label with
    | none => isTrue fun next stepped => by simp [taken] at stepped
    | some next =>
      have : Decidable (EachStep step condition next rest) := decidableEachStep next rest
      decidable_of_iff (condition start label ∧ EachStep step condition next rest)
        ⟨fun met other stepped => by rwa [← Option.some.inj (taken.symm.trans stepped)],
          fun every => every next taken⟩

@[simp] theorem run_nil (state : σ) : run step state [] = some state := rfl

@[simp] theorem run_cons (state : σ) (label : ℓ) (rest : List ℓ) :
    run step state (label :: rest) =
      (step state label).bind fun next => run step next rest := rfl

/-- Every state of a run has the property exactly when every prefix of its labels that is
not refused ends in a state with the property. -/
theorem eachState_iff {property : σ → Prop} {start : σ} {labels : List ℓ} :
    EachState step property start labels ↔
      ∀ front back state, labels = front ++ back → run step start front = some state →
        property state := by
  induction labels generalizing start with
  | nil =>
    constructor
    · intro holds front back state split reached
      obtain ⟨rfl, rfl⟩ := List.nil_eq_append_iff.mp split
      obtain rfl := Option.some.inj reached
      exact holds
    · intro every
      exact every [] [] start rfl rfl
  | cons label rest ih =>
    constructor
    · rintro ⟨here, later⟩ front back state split reached
      cases front with
      | nil =>
        obtain rfl := Option.some.inj reached
        exact here
      | cons first others =>
        obtain ⟨rfl, rfl⟩ := List.cons.inj split
        obtain ⟨next, stepped, onward⟩ := Option.bind_eq_some_iff.mp reached
        exact ih.mp (later next stepped) others back state rfl onward
    · intro every
      refine ⟨every [] (label :: rest) start rfl rfl, fun next stepped => ih.mpr ?_⟩
      intro front back state split reached
      apply every (label :: front) back state (by rw [split, List.cons_append])
      rw [run_cons, stepped]
      exact reached

/-- A condition every step has is met by every run. -/
theorem eachStep_of_forall {condition : σ → ℓ → Prop}
    (always : ∀ state label, condition state label) (start : σ) (labels : List ℓ) :
    EachStep step condition start labels := by
  induction labels generalizing start with
  | nil => trivial
  | cons label rest ih => exact fun next _ => ⟨always start label, ih next⟩

/-- A run that meets a condition meets it up to any moment. -/
theorem eachStep_prefix {condition : σ → ℓ → Prop} {start : σ} {front back : List ℓ}
    (every : EachStep step condition start (front ++ back)) :
    EachStep step condition start front := by
  induction front generalizing start with
  | nil => trivial
  | cons label rest ih =>
    intro next stepped
    obtain ⟨met, later⟩ := every next stepped
    exact ⟨met, ih later⟩

/-- What is said of the labels of a run is said of each of its steps. -/
theorem eachStep_and_mem {condition : σ → ℓ → Prop} {allowed : ℓ → Prop} {start : σ}
    {labels : List ℓ} (met : EachStep step condition start labels)
    (every : ∀ label ∈ labels, allowed label) :
    EachStep step (fun state label => allowed label ∧ condition state label) start labels := by
  induction labels generalizing start with
  | nil => trivial
  | cons label rest ih =>
    intro next stepped
    have ⟨here, later⟩ := met next stepped
    refine ⟨⟨every label List.mem_cons_self, here⟩, ih later ?_⟩
    exact fun other member => every other (List.mem_cons_of_mem _ member)

section Rules

variable {condition : σ → ℓ → Prop} {Invariant : σ → Prop}

/-- The invariant rule: what each admitted step keeps, a run of admitted steps keeps. -/
theorem run_invariant
    (kept : ∀ state label next, Invariant state → condition state label →
      step state label = some next → Invariant next)
    {start final : σ} {labels : List ℓ} (initially : Invariant start)
    (admitted : EachStep step condition start labels)
    (reached : run step start labels = some final) : Invariant final := by
  induction labels generalizing start with
  | nil =>
    obtain rfl := Option.some.inj reached
    exact initially
  | cons label rest ih =>
    obtain ⟨next, stepped, onward⟩ := Option.bind_eq_some_iff.mp reached
    obtain ⟨met, later⟩ := admitted next stepped
    exact ih (kept start label next initially met stepped) later onward

/-- The invariant rule for a property of every state. -/
theorem eachState_of_invariant {property : σ → Prop}
    (gives : ∀ state, Invariant state → property state)
    (kept : ∀ state label next, Invariant state → condition state label →
      step state label = some next → Invariant next)
    {start : σ} {labels : List ℓ} (initially : Invariant start)
    (admitted : EachStep step condition start labels) : EachState step property start labels := by
  refine eachState_iff.mpr fun front back state split reached => ?_
  have early : EachStep step condition start front := eachStep_prefix (split ▸ admitted)
  exact gives state (run_invariant kept initially early reached)

/-- The invariant rule for a property of every step. -/
theorem eachStep_of_invariant {property : σ → ℓ → Prop}
    (gives : ∀ state label, Invariant state → condition state label → property state label)
    (kept : ∀ state label next, Invariant state → condition state label →
      step state label = some next → Invariant next)
    {start : σ} {labels : List ℓ} (initially : Invariant start)
    (admitted : EachStep step condition start labels) : EachStep step property start labels := by
  induction labels generalizing start with
  | nil => trivial
  | cons label rest ih =>
    intro next stepped
    obtain ⟨met, later⟩ := admitted next stepped
    exact ⟨gives start label initially met, ih (kept start label next initially met stepped) later⟩

/-- The potential rule: when each step that counts takes one off a potential that no step
raises, a run has no more of these steps than the potential has fallen by. -/
theorem run_countP {counts : ℓ → Bool} {potential : σ → Nat}
    (kept : ∀ state label next, Invariant state → step state label = some next → Invariant next)
    (pays : ∀ state label next, Invariant state → step state label = some next →
      (if counts label then 1 else 0) + potential next ≤ potential state)
    {start final : σ} {labels : List ℓ} (initially : Invariant start)
    (reached : run step start labels = some final) :
    labels.countP counts + potential final ≤ potential start := by
  induction labels generalizing start with
  | nil =>
    have same : start = final := Option.some.inj reached
    have none : ([] : List ℓ).countP counts = 0 := List.countP_nil
    rw [same]
    omega
  | cons label rest ih =>
    obtain ⟨next, stepped, onward⟩ := Option.bind_eq_some_iff.mp reached
    have paid := pays start label next initially stepped
    have later := ih (kept start label next initially stepped) onward
    rw [List.countP_cons]
    omega

/-- The exact rule: when admitted steps keep an invariant that gives the property, and a
step outside the condition always destroys the property, then the property holds in every
state of a run exactly when every step of the run is admitted. What is assumed of every step
of the run may be used on both sides. -/
theorem eachState_iff_eachStep {property : σ → Prop} {assumed : σ → ℓ → Prop}
    (gives : ∀ state, Invariant state → property state)
    (kept : ∀ state label next, Invariant state → assumed state label → condition state label →
      step state label = some next → Invariant next)
    (breaks : ∀ state label next, Invariant state → assumed state label →
      ¬ condition state label → step state label = some next → ¬ property next)
    {start : σ} {labels : List ℓ} (initially : Invariant start)
    (granted : EachStep step assumed start labels) :
    EachState step property start labels ↔ EachStep step condition start labels := by
  induction labels generalizing start with
  | nil => exact ⟨fun _ => trivial, fun _ => gives start initially⟩
  | cons label rest ih =>
    constructor
    · rintro ⟨-, later⟩ next stepped
      obtain ⟨given, onward⟩ := granted next stepped
      have after := later next stepped
      have met : condition start label := by
        by_contra unmet
        have lost := breaks start label next initially given unmet stepped
        exact lost (eachState_iff.mp after [] rest next rfl rfl)
      have invariant := kept start label next initially given met stepped
      exact ⟨met, (ih invariant onward).mp after⟩
    · intro admitted
      refine ⟨gives start initially, fun next stepped => ?_⟩
      obtain ⟨given, onward⟩ := granted next stepped
      obtain ⟨met, later⟩ := admitted next stepped
      exact (ih (kept start label next initially given met stepped) onward).mpr later

end Rules

end Machine
