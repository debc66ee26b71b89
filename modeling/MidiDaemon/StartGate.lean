import Mathlib.Data.List.Induction
import MidiDaemon.PortAgreement

/-!
# When does `main` create its source port?

Behind its options `main` goes on when it lists no ports and `nPortCount` is at least one. Only a
`-p` sets the variable, and each sets it anew, so the last one decides; without a `-p` the check
reads what the stack held. A `main` that goes on behind a `-p` has the ports of the last one, and
`cSndPort` holds its string, unless the string and its terminator are longer than the array
(`start_gated_iff`).
-/

namespace MidiDaemon

open Heap Memory

/-- `main` goes past the check of its ports, and on to `pCreateSourcePort`. -/
def PassesCheck (state : MainVariables) : Prop :=
  state.nDoList = false ∧ ¬ state.nPortCount < 1

/-- Inside its 128 bytes `cSndPort` holds the string of an argument, and its terminator. -/
def HoldsString (cSndPort optarg : List UInt8) : Prop :=
  0 ∈ cSndPort.take cSndPortLength ∧ cString (cSndPort.take cSndPortLength) = cString optarg

/-- What the check is there for, with the variables behind it. -/
def Gated (options : List MainOption) (state : MainVariables) : Prop :=
  ∃ front last calls back ports, options = front ++ .port last calls :: back ∧
    lastPort back = none ∧
    -- The last `-p` is parsed to at least one port, and these are the ports of `main`.
    parseOutcome calls last = .parsed ports ∧ ports ≠ [] ∧
    load state.arrays state.pPorts = .ok (ports.map some) ∧ state.nPortCount = ports.length ∧
    HoldsString state.cSndPort last ∧
    -- A thread that parses `cSndPort` parses the same list.
    ∀ later heap, nParsePorts later state.cSndPort none heap = nParsePorts later last none heap

/-- An option that leaves `main` with the pointer to its ports. -/
def Accepted : MainOption → Prop
  | .port optarg calls => ¬ Refused calls optarg
  | .help | .listVersion | .list | .other => False

/-- The options are accepted, and the string of the last has no room for its terminator. -/
def Overlong (options : List MainOption) : Prop :=
  ∃ front last calls ports, options = front ++ [.port last calls] ∧
    (∀ option ∈ front, Accepted option) ∧ parseOutcome calls last = .parsed ports ∧
    cSndPortLength ≤ (cString last).length

variable {state after : MainVariables} {optarg : List UInt8} {calls : ParseCalls}

/-- What the calls behind the check return matters only to a `main` that goes past it. -/
theorem finish_stopped (stopped : ¬ PassesCheck state) (calls other : MainCalls) :
    finish calls state = finish other state := by
  unfold finish
  by_cases listing : state.nDoList = true
  · rw [if_pos listing, if_pos listing]
  · have few : state.nPortCount < 1 := by
      by_contra enough
      exact stopped ⟨Bool.eq_false_iff.mpr listing, enough⟩
    rw [if_neg listing, if_neg listing, if_pos few, if_pos few]

/-! ## The string -/

/-- The string fits when its terminator does. -/
theorem copyPort_holds (cSndPort optarg : List UInt8) :
    HoldsString (copyPort cSndPort optarg) optarg ↔ (cString optarg).length < cSndPortLength := by
  have unterminated := cString_unterminated optarg
  rw [HoldsString, copyPort, memcpy_zero, List.append_assoc, List.singleton_append,
    List.take_append]
  constructor
  · rintro ⟨terminated, -⟩
    by_contra overlong
    have nothing : cSndPortLength - (cString optarg).length = 0 := by omega
    rw [nothing, List.take_zero, List.append_nil] at terminated
    exact unterminated (List.mem_of_mem_take terminated)
  · intro fits
    obtain ⟨left, room⟩ : ∃ left, cSndPortLength - (cString optarg).length = left + 1 :=
      ⟨cSndPortLength - (cString optarg).length - 1, by omega⟩
    rw [List.take_of_length_le (by omega), room, List.take_succ_cons]
    refine ⟨List.mem_append_right _ (.head _), ?_⟩
    apply cString_text unterminated

/-- `nParsePorts` reads its argument as far as the terminator. -/
theorem nParsePorts_congr {arg other : List UInt8} (same : cString arg = cString other)
    (calls : ParseCalls) (pPorts : Option Nat) (heap : PortHeap) :
    nParsePorts calls arg pPorts heap = nParsePorts calls other pPorts heap := by
  rw [nParsePorts, nParsePorts, same]

/-! ## One option -/

/-- A `-p` leaves what `nParsePorts` makes of its argument. -/
theorem port_parses (keeps : Keeps state)
    (stepped : optionStep state (.port optarg calls) = .ok (some after)) :
    ∃ frame, Parses frame state.pPorts (parseOutcome calls optarg)
      (after.nPortCount, after.pPorts, after.arrays) := by
  obtain ⟨frame, owns⟩ := keeps.owns
  obtain ⟨-, -, parsed⟩ := optionStep_port_inv stepped
  obtain ⟨result, same, leaves⟩ :=
    nParsePorts_parses calls (copyPort state.cSndPort optarg) owns
  rw [parsed] at same
  obtain rfl := Except.ok.inj same
  rw [parseOutcome_copyPort] at leaves
  exact ⟨frame, leaves⟩

/-- An option that `main` passes over is a `-p`, unless it lists ports from then on. The `-p`
keeps the array when it is accepted, or leaves the pointer behind. -/
theorem option_pointer (keeps : Keeps state) {option : MainOption}
    (stepped : optionStep state option = .ok (some after)) (going : after.nDoList = false) :
    Keeps after ∧ Accepted option ∨ Dangles after := by
  cases option with
  | help | listVersion | other => cases stepped
  | list =>
    obtain rfl := Option.some.inj (Except.ok.inj stepped)
    cases going
  | port optarg calls =>
    obtain ⟨refused, accepted⟩ := keeps.port stepped
    by_cases refuses : Refused calls optarg
    · exact .inr (refused refuses)
    · exact .inl ⟨accepted refuses, refuses⟩

/-- A pointer that was left behind stays behind. -/
theorem option_dangles (dangles : Dangles state) {option : MainOption}
    (stepped : optionStep state option = .ok (some after)) : Dangles after := by
  cases option with
  | help | listVersion | other => cases stepped
  | list =>
    obtain rfl := Option.some.inj (Except.ok.inj stepped)
    exact ⟨dangles.released, dangles.counted⟩
  | port optarg calls => exact dangles.port stepped

/-- No option takes back that ports are listed. -/
theorem option_listing {option : MainOption} (stepped : optionStep state option = .ok (some after))
    (going : after.nDoList = false) : state.nDoList = false := by
  cases option with
  | help | listVersion | other => cases stepped
  | list =>
    obtain rfl := Option.some.inj (Except.ok.inj stepped)
    cases going
  | port optarg calls =>
    obtain ⟨listing, -, -⟩ := optionStep_port_inv stepped
    rw [← listing]
    exact going

/-! ## All options -/

/-- The first option of a loop that is not left, and the loop behind it. -/
theorem optionLoop_cons {option : MainOption} {rest : List MainOption}
    (read : optionLoop state (option :: rest) = .ok (some after)) :
    ∃ next, optionStep state option = .ok (some next) ∧
      optionLoop next rest = .ok (some after) := by
  rw [optionLoop] at read
  cases stepped : optionStep state option with
  | error fault =>
    rw [stepped] at read
    cases read
  | ok next =>
    rw [stepped] at read
    cases next with
    | none => cases read
    | some next => exact ⟨next, rfl, read⟩

/-- Behind options that are passed over, the loop goes on with the rest. -/
theorem optionLoop_append {front : List MainOption}
    (read : optionLoop state front = .ok (some after)) (back : List MainOption) :
    optionLoop state (front ++ back) = optionLoop after back := by
  induction front generalizing state with
  | nil =>
    obtain rfl := Option.some.inj (Except.ok.inj read)
    rfl
  | cons option front ih =>
    obtain ⟨next, stepped, later⟩ := optionLoop_cons read
    rw [List.cons_append, optionLoop, stepped]
    exact ih later

/-- A pointer that was left behind stays behind to the end of the options. -/
theorem optionLoop_dangles (dangles : Dangles state) {options : List MainOption}
    (read : optionLoop state options = .ok (some after)) : Dangles after := by
  induction options generalizing state with
  | nil =>
    obtain rfl := Option.some.inj (Except.ok.inj read)
    exact dangles
  | cons option rest ih =>
    obtain ⟨next, stepped, later⟩ := optionLoop_cons read
    exact ih (option_dangles dangles stepped) later

/-- Nor does the loop take back that ports are listed. -/
theorem optionLoop_listing {options : List MainOption}
    (read : optionLoop state options = .ok (some after)) (going : after.nDoList = false) :
    state.nDoList = false := by
  induction options generalizing state with
  | nil =>
    obtain rfl := Option.some.inj (Except.ok.inj read)
    exact going
  | cons option rest ih =>
    obtain ⟨next, stepped, later⟩ := optionLoop_cons read
    exact option_listing stepped (ih later)

/-- Options that `main` goes on behind were all accepted, or there is no port. -/
theorem optionLoop_pointer (keeps : Keeps state) {options : List MainOption}
    (read : optionLoop state options = .ok (some after)) (going : after.nDoList = false) :
    Keeps after ∧ (∀ option ∈ options, Accepted option) ∨ Dangles after := by
  induction options generalizing state with
  | nil =>
    obtain rfl := Option.some.inj (Except.ok.inj read)
    exact .inl ⟨keeps, fun option member => absurd member List.not_mem_nil⟩
  | cons option rest ih =>
    obtain ⟨next, stepped, later⟩ := optionLoop_cons read
    rcases option_pointer keeps stepped (optionLoop_listing later going) with
      ⟨kept, accepted⟩ | dangles
    · rcases ih kept later with ⟨owned, all_accepted⟩ | dangles
      · exact .inl ⟨owned, List.forall_mem_cons.mpr ⟨accepted, all_accepted⟩⟩
      · exact .inr dangles
    · exact .inr (optionLoop_dangles dangles later)

/-- Options that are all accepted are passed over. -/
theorem optionLoop_accepted (keeps : Keeps state) {options : List MainOption}
    (accepted : ∀ option ∈ options, Accepted option) :
    ∃ after, optionLoop state options = .ok (some after) ∧ after.nDoList = state.nDoList ∧
      Keeps after := by
  induction options generalizing state with
  | nil => exact ⟨state, rfl, rfl, keeps⟩
  | cons option rest ih =>
    obtain ⟨first, others⟩ := List.forall_mem_cons.mp accepted
    cases option with
    | help | listVersion | list | other => exact first.elim
    | port optarg calls =>
      obtain ⟨next, stepped, listing, -, kept⟩ := port_keeps keeps optarg calls
      obtain ⟨after, read, same, owned⟩ := ih (kept first) others
      refine ⟨after, ?_, same.trans listing, owned⟩
      rw [optionLoop, stepped]
      exact read

/-! ## The gate -/

/-- A last `-p` that passes the check is gated exactly when its string fits. -/
theorem lastPort_gated (keeps : Keeps state) (front : List MainOption)
    (stepped : optionStep state (.port optarg calls) = .ok (some after))
    (enough : 1 ≤ after.nPortCount) :
    Gated (front ++ [.port optarg calls]) after ↔ (cString optarg).length < cSndPortLength := by
  obtain ⟨-, copied, -⟩ := optionStep_port_inv stepped
  rw [← copyPort_holds state.cSndPort optarg, ← copied]
  constructor
  · rintro ⟨read, last, lastCalls, back, ports, split, none_behind, -, -, -, -, holds, -⟩
    have newest := congrArg lastPort split
    rw [lastPort_append, lastPort_append] at newest
    have same : optarg = last := by simpa [lastPort, none_behind] using newest
    rw [same]
    exact holds
  · intro holds
    obtain ⟨frame, leaves⟩ := port_parses keeps stepped
    obtain ⟨ports, outcome⟩ := leaves.counted enough
    rw [outcome] at leaves
    obtain ⟨filled, loaded, count⟩ := leaves.filled
    have text : cString after.cSndPort = cString optarg := by rw [copied, cString_copyPort]
    exact ⟨front, optarg, calls, [], ports, rfl, rfl, outcome, filled, loaded, count, holds,
      fun later heap => nParsePorts_congr text later none heap⟩

/-- The last of options that were all accepted is a `-p`, and `main` came to it with its ports. -/
theorem optionLoop_last (keeps : Keeps state) {front : List MainOption} {option : MainOption}
    (accepted : ∀ each ∈ front ++ [option], Accepted each)
    (read : optionLoop state (front ++ [option]) = .ok (some after)) :
    ∃ middle last calls, Keeps middle ∧ option = .port last calls ∧
      optionStep middle (.port last calls) = .ok (some after) := by
  have front_accepted : ∀ earlier ∈ front, Accepted earlier := fun earlier member =>
    accepted earlier (List.mem_append_left _ member)
  obtain ⟨middle, front_read, -, kept⟩ := optionLoop_accepted keeps front_accepted
  rw [optionLoop_append front_read] at read
  obtain ⟨next, stepped, ended⟩ := optionLoop_cons read
  obtain rfl := Option.some.inj (Except.ok.inj ended)
  have last_accepted := accepted option (List.mem_append_right _ (.head _))
  cases option with
  | help | listVersion | list | other => exact last_accepted.elim
  | port last calls => exact ⟨middle, last, calls, kept, rfl, stepped⟩

/-- A string that is longer than the array passes the check ungated. -/
theorem overlong_ungated (keeps : Keeps state) (going : state.nDoList = false)
    {options : List MainOption} (overlong : Overlong options) :
    ∃ after, optionLoop state options = .ok (some after) ∧ PassesCheck after ∧
      ¬ Gated options after := by
  obtain ⟨front, last, calls, ports, rfl, accepted, outcome, longer⟩ := overlong
  obtain ⟨middle, read, listing, kept⟩ := optionLoop_accepted keeps accepted
  obtain ⟨after, stepped, same, -⟩ := port_keeps kept last calls
  obtain ⟨frame, leaves⟩ := port_parses kept stepped
  rw [outcome] at leaves
  obtain ⟨filled, -, count⟩ := leaves.filled
  have some_port := List.length_pos_of_ne_nil filled
  have enough : 1 ≤ after.nPortCount := by omega
  refine ⟨after, ?_, ⟨?_, by omega⟩, fun gated => ?_⟩
  · rw [optionLoop_append read, optionLoop, stepped]
    rfl
  · rw [same, listing]
    exact going
  · have fits := (lastPort_gated kept front stepped enough).mp gated
    omega

/-- When the check gates the start: for every list of options, every pattern of failures and
whatever `nPortCount` held, exactly when `main` was not started without options while the variable
held a count, and the string of a last `-p` that is parsed is not longer than the array. -/
theorem start_gated_iff (nPortCount : Int) (arrays : PortHeap) (options : List MainOption) :
    (∀ state, optionLoop (mainVariables nPortCount arrays) options = .ok (some state) →
        PassesCheck state → Gated options state) ↔
      ¬ (options = [] ∧ 1 ≤ nPortCount) ∧ ¬ Overlong options := by
  have begun := mainVariables_keeps nPortCount arrays
  constructor
  · intro gated
    constructor
    · rintro ⟨rfl, held⟩
      have passes : PassesCheck (mainVariables nPortCount arrays) :=
        ⟨rfl, show ¬ nPortCount < 1 by omega⟩
      obtain ⟨front, last, calls, back, ports, split, -⟩ := gated _ rfl passes
      simp at split
    · intro overlong
      obtain ⟨after, read, passes, ungated⟩ := overlong_ungated begun rfl overlong
      exact ungated (gated after read passes)
  · rintro ⟨given, fitting⟩ state read ⟨going, counted⟩
    have enough : 1 ≤ state.nPortCount := by omega
    rcases optionLoop_pointer begun read going with ⟨-, accepted⟩ | dangles
    · cases options using List.reverseRecOn with
      | nil =>
        obtain rfl := Option.some.inj (Except.ok.inj read)
        exact absurd ⟨rfl, enough⟩ given
      | append_singleton front option =>
        obtain ⟨middle, last, calls, keeps, rfl, stepped⟩ := optionLoop_last begun accepted read
        apply (lastPort_gated keeps front stepped enough).mpr
        by_contra longer
        obtain ⟨frame, leaves⟩ := port_parses keeps stepped
        obtain ⟨ports, outcome⟩ := leaves.counted enough
        have front_accepted : ∀ option ∈ front, Accepted option := fun option member =>
          accepted option (List.mem_append_left _ member)
        exact fitting ⟨front, last, calls, ports, rfl, front_accepted, outcome, by omega⟩
    · have few := dangles.counted
      omega

/-- Without a `-p`, a count that the stack held passes the check. -/
theorem start_ungated :
    ¬ ∀ (nPortCount : Int) (arrays : PortHeap) (options : List MainOption) (state : MainVariables),
      optionLoop (mainVariables nPortCount arrays) options = .ok (some state) →
      PassesCheck state → Gated options state := by
  intro always
  have passes : PassesCheck (mainVariables 1 []) := ⟨rfl, show ¬ (1 : Int) < 1 by decide⟩
  obtain ⟨front, last, calls, back, ports, split, -⟩ :=
    always 1 [] [] (mainVariables 1 []) rfl passes
  simp at split

end MidiDaemon
