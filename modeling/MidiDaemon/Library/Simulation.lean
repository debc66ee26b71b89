import MidiDaemon.Library.Machine

/-!
# Simulation with silent steps

A machine that takes small steps stands for one that takes large ones. Each small step shows a
list of large ones, most show none, and a relation between the states of the two is kept when the
large machine takes what is shown. Then what a run of the small machine shows is a run of the
large one, and ends in a related state.
-/

namespace Machine

variable {σ ℓ τ κ : Type*} {step : σ → ℓ → Option σ} {above : τ → κ → Option τ}

/-- A run of two lists is a run of the second behind one of the first. -/
theorem run_append (start : σ) (front back : List ℓ) :
    run step start (front ++ back) =
      (run step start front).bind fun middle => run step middle back := by
  induction front generalizing start with
  | nil => rfl
  | cons label rest ih =>
    rw [List.cons_append, run_cons, run_cons, Option.bind_assoc]
    apply congrArg
    funext next
    exact ih next

/-- A run behind a run is a run. -/
theorem run_trans {start middle final : σ} {front back : List ℓ}
    (first : run step start front = some middle) (second : run step middle back = some final) :
    run step start (front ++ back) = some final := by
  rw [run_append, first]
  exact second

/-- A run of one label. -/
theorem run_single (state : σ) (label : ℓ) : run step state [label] = step state label := by
  show (step state label).bind some = step state label
  cases step state label <;> rfl

/-- What a run shows, up to the first label that is refused. -/
def trace (step : σ → ℓ → Option σ) (shown : σ → ℓ → List κ) : σ → List ℓ → List κ
  | _, [] => []
  | state, label :: rest =>
    match step state label with
    | some next => shown state label ++ trace step shown next rest
    | none => []

/-- What is shown behind a step that is taken. -/
theorem trace_cons {shown : σ → ℓ → List κ} {state next : σ} {label : ℓ} {rest : List ℓ}
    (stepped : step state label = some next) :
    trace step shown state (label :: rest) = shown state label ++ trace step shown next rest := by
  rw [trace, stepped]

/-- The simulation rule: when each admitted step is matched by a run of what it shows, a run of
admitted steps is matched by a run of what it shows. -/
theorem run_simulates {shown : σ → ℓ → List κ} {condition : σ → ℓ → Prop}
    {related : σ → τ → Prop}
    (matched : ∀ state label next high, related state high → condition state label →
      step state label = some next →
      ∃ higher, run above high (shown state label) = some higher ∧ related next higher)
    {start final : σ} {high : τ} {labels : List ℓ} (initially : related start high)
    (admitted : EachStep step condition start labels)
    (reached : run step start labels = some final) :
    ∃ highest, run above high (trace step shown start labels) = some highest ∧
      related final highest := by
  induction labels generalizing start high with
  | nil =>
    have same : start = final := Option.some.inj reached
    exact ⟨high, rfl, same ▸ initially⟩
  | cons label rest ih =>
    obtain ⟨next, stepped, onward⟩ := Option.bind_eq_some_iff.mp reached
    have ⟨met, later⟩ := admitted next stepped
    have ⟨higher, taken, relates⟩ := matched start label next high initially met stepped
    have ⟨highest, others, ends⟩ := ih relates later onward
    rw [trace_cons stepped]
    exact ⟨highest, run_trans taken others, ends⟩

end Machine
