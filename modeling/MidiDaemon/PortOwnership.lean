import MidiDaemon.MainOptions
import MidiDaemon.SequencerSetup

/-!
# Who owns the port array?

`main` and `updateMidiAttr` each keep a pointer to a port array and free the array through it on
their way out, unless the pointer is null. `nParsePorts` leaves the pointer null or the owner of its
array, except when a name has no address: then the array is freed and the pointer stays. What `main`
does afterwards decides whether the array is used again. A later `-p` passes the pointer to
`realloc`, and the end of `main` passes it to `free`, except the ends that leave the array to the
end of the process (`arrays_owned_iff`).
-/

namespace MidiDaemon

open Heap

/-- A name of the string has no address, and what the call needs before that is there. -/
def Refused (calls : ParseCalls) (arg : List UInt8) : Prop :=
  ∃ nEntry, parseOutcome calls arg = .unparsed nEntry

/-- With a pointer to an array that has been freed, `main` uses it again: for a `-p` whose string is
copied, or at its end, unless it ends in its options or lists ports. -/
def UsesAgain (nDoList : Bool) : List MainOption → Prop
  | [] => nDoList = false
  | .list :: rest => UsesAgain true rest
  | .port _ calls :: rest => calls.strdup = true ∨ UsesAgain nDoList rest
  | .help :: _ | .listVersion :: _ | .other :: _ => False

/-- A `-p` that `main` comes to is refused an address, and the pointer is used again. -/
def UsesRefused (nDoList : Bool) : List MainOption → Prop
  | [] => False
  | .list :: rest => UsesRefused true rest
  | .port optarg calls :: rest =>
    Refused calls optarg ∧ UsesAgain nDoList rest ∨ UsesRefused nDoList rest
  | .help :: _ | .listVersion :: _ | .other :: _ => False

/-- `updateMidiAttr`, as far as its port array goes: set-up, and the block `RELEASE_IPC_SEQ` that it
comes to whatever happens afterwards. -/
def commandArrays (calls : SetupCalls) (cSndPort : List UInt8) (arrays : PortHeap) :
    Except Fault PortHeap :=
  -- Without a sequencer the thread returns at once.
  if ¬ calls.Initialised then .ok arrays
  else
    match nParsePorts calls.parse cSndPort none arrays with
    | .ok (nPortCount, pPorts, arrays) =>
      if nPortCount < 1 then free arrays pPorts
      else if calls.createSimplePort < 0 then free arrays pPorts
      else
        match nConnectPorts calls.connectTo nPortCount pPorts arrays with
        | .ok _ => free arrays pPorts
        | .error fault => .error fault
    | .error fault => .error fault

/-! ## The pointer of `main` -/

/-- The pointer is null or owns its array, and the count is that of the ports in it. -/
structure Keeps (state : MainVariables) : Prop where
  /-- Whatever else is live, the array is. -/
  owns : ∃ frame, Owns state.arrays frame state.pPorts
  /-- A count that was not set goes with a null pointer. -/
  counted : 1 ≤ state.nPortCount → state.pPorts = none ∨ ∃ ports : List SndSeqAddr,
    load state.arrays state.pPorts = .ok (ports.map some) ∧ state.nPortCount = ports.length

/-- The array of the pointer has been freed. -/
structure Dangles (state : MainVariables) : Prop where
  /-- The pointer is not null. -/
  released : ∃ block, state.pPorts = some block ∧ ¬ Live state.arrays block
  /-- There is no port. -/
  counted : state.nPortCount < 1

variable {state : MainVariables} {optarg : List UInt8} {calls : ParseCalls}

/-- A `-p` sets the variables to what `nParsePorts` made of its string. -/
theorem optionStep_port {nPortCount : Int} {pPorts : Option Nat} {arrays : PortHeap}
    (parsed : nParsePorts calls (copyPort state.cSndPort optarg) state.pPorts state.arrays =
      .ok (nPortCount, pPorts, arrays)) :
    optionStep state (.port optarg calls) = .ok (some { state with
      nPortCount := nPortCount
      pPorts := pPorts
      cSndPort := copyPort state.cSndPort optarg
      arrays := arrays }) := by
  rw [optionStep, parsed]
  rfl

/-- A `-p` that is read sets the variables to what `nParsePorts` made of it. -/
theorem optionStep_port_inv {after : MainVariables}
    (stepped : optionStep state (.port optarg calls) = .ok (some after)) :
    after.nDoList = state.nDoList ∧ after.cSndPort = copyPort state.cSndPort optarg ∧
      nParsePorts calls (copyPort state.cSndPort optarg) state.pPorts state.arrays =
        .ok (after.nPortCount, after.pPorts, after.arrays) := by
  rw [optionStep] at stepped
  cases parsed : nParsePorts calls (copyPort state.cSndPort optarg) state.pPorts state.arrays with
  | error fault =>
    rw [parsed] at stepped
    cases stepped
  | ok result =>
    rw [parsed] at stepped
    obtain rfl := Option.some.inj (Except.ok.inj stepped)
    exact ⟨rfl, rfl, rfl⟩

/-- A `-p` keeps the array, or leaves the pointer behind when it is refused an address. -/
theorem port_keeps (keeps : Keeps state) (optarg : List UInt8) (calls : ParseCalls) :
    ∃ next, optionStep state (.port optarg calls) = .ok (some next) ∧
      next.nDoList = state.nDoList ∧ (Refused calls optarg → Dangles next) ∧
      (¬ Refused calls optarg → Keeps next) := by
  obtain ⟨frame, owns⟩ := keeps.owns
  obtain ⟨⟨nPortCount, pPorts, arrays⟩, parsed, leaves⟩ :=
    nParsePorts_parses calls (copyPort state.cSndPort optarg) owns
  rw [parseOutcome_copyPort] at leaves
  refine ⟨_, optionStep_port parsed, rfl, ?_⟩
  rw [Refused]
  generalize parseOutcome calls optarg = outcome at leaves ⊢
  cases leaves with
  | uncopied owns =>
    refine ⟨fun ⟨nEntry, refused⟩ => (by cases refused), fun _ => ⟨⟨frame, owns⟩, fun enough => ?_⟩⟩
    simp at enough
  | @ungranted _ _ lost owns nothing =>
    refine ⟨fun ⟨nEntry, refused⟩ => (by cases refused), fun _ => ?_⟩
    cases lost with
    | none => exact ⟨⟨frame, owns⟩, fun _ => .inl rfl⟩
    | some block => exact ⟨⟨_, owns.forget⟩, fun _ => .inl rfl⟩
  | @unparsed nEntry block _ owns released =>
    refine ⟨fun _ => ?_, fun accepted => absurd ⟨nEntry, rfl⟩ accepted⟩
    exact ⟨⟨block, rfl, owns.dead released (by simp)⟩, by simp⟩
  | @parsed ports _ _ owns filled loaded =>
    refine ⟨fun ⟨nEntry, refused⟩ => (by cases refused), fun _ => ?_⟩
    exact ⟨⟨frame, owns⟩, fun _ => .inr ⟨ports, loaded, rfl⟩⟩

/-- A pointer left behind is passed to `realloc` when the string is copied, and stays otherwise. -/
theorem port_dangles (dangles : Dangles state) (optarg : List UInt8) (calls : ParseCalls) :
    (calls.strdup = true → optionStep state (.port optarg calls) = .error .dead) ∧
      (calls.strdup = false → ∃ next, optionStep state (.port optarg calls) = .ok (some next) ∧
        next.nDoList = state.nDoList ∧ Dangles next) := by
  obtain ⟨block, pointer, released⟩ := dangles.released
  constructor
  · intro copied
    rw [optionStep, pointer, nParsePorts_dead copied _ released]
    rfl
  · intro uncopied
    have kept : nParsePorts calls (copyPort state.cSndPort optarg) state.pPorts state.arrays =
        .ok (-1, state.pPorts, state.arrays) := by
      rw [nParsePorts, uncopied]
      rfl
    exact ⟨_, optionStep_port kept, rfl, ⟨block, pointer, released⟩, by simp⟩

/-- A `-p` that was passed over keeps the array, or has left the pointer behind. -/
theorem Keeps.port {after : MainVariables} (keeps : Keeps state)
    (stepped : optionStep state (.port optarg calls) = .ok (some after)) :
    (Refused calls optarg → Dangles after) ∧ (¬ Refused calls optarg → Keeps after) := by
  obtain ⟨next, taken, -, refused, accepted⟩ := port_keeps keeps optarg calls
  obtain rfl := Option.some.inj (Except.ok.inj (stepped.symm.trans taken))
  exact ⟨refused, accepted⟩

/-- A `-p` that was passed over has not used a pointer left behind. -/
theorem Dangles.port {after : MainVariables} (dangles : Dangles state)
    (stepped : optionStep state (.port optarg calls) = .ok (some after)) : Dangles after := by
  obtain ⟨used, kept⟩ := port_dangles dangles optarg calls
  cases copies : calls.strdup with
  | true =>
    rw [used copies] at stepped
    cases stepped
  | false =>
    obtain ⟨next, taken, -, dangling⟩ := kept copies
    obtain rfl := Option.some.inj (Except.ok.inj (stepped.symm.trans taken))
    exact dangling

variable (after : MainCalls)

/-- Behind its options `main` uses no array that was freed. -/
theorem finish_keeps (keeps : Keeps state) : finish after state ≠ .error .dead := by
  obtain ⟨frame, owns⟩ := keeps.owns
  obtain ⟨arrays, freed, -⟩ := owns.freed
  have handled : erroExitHandler state.pPorts state.arrays = .ok arrays := freed
  unfold finish
  split
  · simp
  · split
    · simp [handled]
    · rename_i counted
      split
      · simp [handled]
      · rcases keeps.counted (by omega) with null | ⟨ports, loaded, count⟩
        · -- A count that was not set makes the loop read through a null pointer.
          obtain ⟨left, some_port⟩ : ∃ left, state.nPortCount.toNat = left + 1 :=
            ⟨state.nPortCount.toNat - 1, by omega⟩
          have unread : nConnectPorts after.connectTo state.nPortCount state.pPorts state.arrays =
              .error .null := by
            rw [nConnectPorts, some_port, null]
            rfl
          simp [unread]
        · obtain ⟨nRc, connected, connects, -, -⟩ := nConnectPorts_full after.connectTo loaded
          rw [count, connects]
          simp only [handled, freed]
          split
          · simp
          · split
            · simp
            · split
              · simp
              · split <;> simp

/-- With a pointer left behind, `main` frees the array again unless it lists ports. -/
theorem finish_dangles (dangles : Dangles state) :
    finish after state = .error .dead ↔ state.nDoList = false := by
  obtain ⟨block, pointer, released⟩ := dangles.released
  have handled : erroExitHandler state.pPorts state.arrays = .error .dead := by
    rw [erroExitHandler, pointer, free_dead released]
  unfold finish
  cases state.nDoList with
  | true => simp
  | false => simp [dangles.counted, handled]

/-! ## The options of `main` -/

/-- An option that is passed over leads to the rest. -/
theorem mainFrom_cons {option : MainOption} {next : MainVariables}
    (stepped : optionStep state option = .ok (some next)) (rest : List MainOption) :
    mainFrom after state (option :: rest) = mainFrom after next rest := by
  rw [mainFrom, optionLoop, stepped, mainFrom]

/-- An option that ends the process is the last. -/
theorem mainFrom_exit {option : MainOption} (stepped : optionStep state option = .ok none)
    (rest : List MainOption) : mainFrom after state (option :: rest) = .ok () := by
  rw [mainFrom, optionLoop, stepped]

/-- So is one that meets a fault. -/
theorem mainFrom_fault {option : MainOption} {fault : Fault}
    (stepped : optionStep state option = .error fault) (rest : List MainOption) :
    mainFrom after state (option :: rest) = .error fault := by
  rw [mainFrom, optionLoop, stepped]

/-- At the end of the options it is the rest of `main` that decides. -/
theorem mainFrom_nil {fault : Fault} :
    mainFrom after state [] = .error fault ↔ finish after state = .error fault := by
  cases finished : finish after state <;> simp [mainFrom, optionLoop, Except.map, finished]

/-- With a pointer left behind it is the options to come that decide. -/
theorem mainFrom_dangles (dangles : Dangles state) (options : List MainOption) :
    mainFrom after state options = .error .dead ↔ UsesAgain state.nDoList options := by
  induction options generalizing state with
  | nil => rw [mainFrom_nil, finish_dangles after dangles, UsesAgain]
  | cons option rest ih =>
    cases option with
    | help | listVersion | other =>
      rw [mainFrom_exit after (show optionStep state _ = .ok none from rfl), UsesAgain]
      simp
    | list =>
      have listing : Dangles { state with nDoList := true } := ⟨dangles.released, dangles.counted⟩
      have stepped : optionStep state .list = .ok (some { state with nDoList := true }) := rfl
      rw [mainFrom_cons after stepped, ih listing, UsesAgain]
    | port optarg calls =>
      obtain ⟨used, kept⟩ := port_dangles dangles optarg calls
      rw [UsesAgain]
      cases copied : calls.strdup with
      | true => simp [mainFrom_fault after (used copied)]
      | false =>
        obtain ⟨next, stepped, listing, dangling⟩ := kept copied
        rw [mainFrom_cons after stepped, ih dangling, listing]
        simp

/-- What is refused has been copied, so a pointer left behind before it is used again for it. -/
theorem UsesRefused.usesAgain {nDoList : Bool} {options : List MainOption}
    (refused : UsesRefused nDoList options) : UsesAgain nDoList options := by
  induction options generalizing nDoList with
  | nil => exact refused.elim
  | cons option rest ih =>
    cases option with
    | help | listVersion | other => exact refused.elim
    | list => exact ih refused
    | port optarg calls =>
      rcases refused with ⟨⟨nEntry, outcome⟩, -⟩ | later
      · left
        by_contra uncopied
        rw [parseOutcome, if_neg uncopied] at outcome
        cases outcome
      · exact .inr (ih later)

/-- With a pointer that keeps its array it is the first refusal, and what comes behind it. -/
theorem mainFrom_keeps (keeps : Keeps state) (options : List MainOption) :
    mainFrom after state options = .error .dead ↔ UsesRefused state.nDoList options := by
  induction options generalizing state with
  | nil => simp [mainFrom_nil, finish_keeps after keeps, UsesRefused]
  | cons option rest ih =>
    cases option with
    | help | listVersion | other =>
      rw [mainFrom_exit after (show optionStep state _ = .ok none from rfl), UsesRefused]
      simp
    | list =>
      have listing : Keeps { state with nDoList := true } := ⟨keeps.owns, keeps.counted⟩
      have stepped : optionStep state .list = .ok (some { state with nDoList := true }) := rfl
      rw [mainFrom_cons after stepped, ih listing, UsesRefused]
    | port optarg calls =>
      obtain ⟨next, stepped, listing, dangles, kept⟩ := port_keeps keeps optarg calls
      rw [mainFrom_cons after stepped, UsesRefused]
      by_cases refused : Refused calls optarg
      · rw [mainFrom_dangles after (dangles refused), listing]
        constructor
        · exact fun again => .inl ⟨refused, again⟩
        · rintro (⟨-, again⟩ | later)
          · exact again
          · exact later.usesAgain
      · rw [ih (kept refused), listing]
        simp [refused]

/-! ## The pointer behind every `-p` -/

/-- The option is a `-p`. -/
def MainOption.IsPort (option : MainOption) : Prop :=
  ∃ optarg calls, option = .port optarg calls

/-- The pointer is null, or its array is live. -/
def MainVariables.NullOrOwned (state : MainVariables) : Prop :=
  state.pPorts = none ∨ ∃ block, state.pPorts = some block ∧ Live state.arrays block

/-- In front of the options and behind each of them the pointer is null or owned. -/
def PointerOwned (state : MainVariables) (options : List MainOption) : Prop :=
  ∀ front, front <+: options →
    ∃ after, optionLoop state front = .ok (some after) ∧ after.NullOrOwned

/-- A pointer that keeps its array is null or owned. -/
theorem Keeps.pointer (keeps : Keeps state) : state.NullOrOwned := by
  obtain ⟨frame, owns⟩ := keeps.owns
  cases pointer : state.pPorts with
  | none => exact .inl pointer
  | some block => exact .inr ⟨block, pointer, (owns.live block).mpr (.inr pointer)⟩

/-- A pointer left behind is neither. -/
theorem Dangles.pointer (dangles : Dangles state) : ¬ state.NullOrOwned := by
  obtain ⟨left, pointer, released⟩ := dangles.released
  rintro (null | ⟨block, same, live⟩)
  · rw [pointer] at null
    cases null
  · rw [pointer] at same
    exact released (Option.some.inj same ▸ live)

/-- An option that is passed over leads to the rest. -/
theorem pointerOwned_cons {option : MainOption} {next : MainVariables} {rest : List MainOption}
    (keeps : Keeps state) (stepped : optionStep state option = .ok (some next)) :
    PointerOwned state (option :: rest) ↔ PointerOwned next rest := by
  have onward : ∀ front, optionLoop state (option :: front) = optionLoop next front := by
    intro front
    rw [optionLoop, stepped]
  constructor
  · intro owned front ahead
    rw [← onward]
    exact owned (option :: front) ((List.prefix_cons_inj option).mpr ahead)
  · intro owned front ahead
    rcases List.prefix_cons_iff.mp ahead with rfl | ⟨further, rfl, within⟩
    · exact ⟨state, rfl, keeps.pointer⟩
    · rw [onward]
      exact owned further within

/-- A pointer left behind is used again in front of the end of the options, or there. -/
theorem usesAgain_ports {options : List MainOption} (ports : ∀ option ∈ options, option.IsPort) :
    UsesAgain false options := by
  induction options with
  | nil => rfl
  | cons option rest ih =>
    obtain ⟨⟨optarg, calls, rfl⟩, others⟩ := List.forall_mem_cons.mp ports
    exact .inr (ih others)

/-- The pointer is null or owned behind every `-p` exactly when none is refused an address and the
pointer used again. -/
theorem pointerOwned_iff {options : List MainOption} (keeps : Keeps state)
    (ports : ∀ option ∈ options, option.IsPort) :
    PointerOwned state options ↔ ¬ UsesRefused false options := by
  induction options generalizing state with
  | nil =>
    refine iff_of_true (fun front ahead => ?_) (fun refused => refused)
    rw [List.prefix_nil.mp ahead]
    exact ⟨state, rfl, keeps.pointer⟩
  | cons option rest ih =>
    obtain ⟨⟨optarg, calls, rfl⟩, others⟩ := List.forall_mem_cons.mp ports
    obtain ⟨next, stepped, -, dangles, kept⟩ := port_keeps keeps optarg calls
    rw [pointerOwned_cons keeps stepped, UsesRefused]
    by_cases refused : Refused calls optarg
    · refine iff_of_false (fun owned => ?_) (not_not.mpr (.inl ⟨refused, usesAgain_ports others⟩))
      obtain ⟨after, same, pointer⟩ := owned [] List.nil_prefix
      obtain rfl := Option.some.inj (Except.ok.inj same)
      exact (dangles refused).pointer pointer
    · rw [ih (kept refused) others]
      simp only [refused, false_and, false_or]

/-! ## Both threads -/

/-- `main` begins with a null pointer. -/
theorem mainVariables_keeps (nPortCount : Int) (arrays : PortHeap) :
    Keeps (mainVariables nPortCount arrays) where
  owns := ⟨_, owns_frame arrays⟩
  counted _ := .inl rfl

/-- The command thread frees its array again when it is refused an address. -/
theorem commandArrays_dead (calls : SetupCalls) (cSndPort : List UInt8) (arrays : PortHeap) :
    commandArrays calls cSndPort arrays = .error .dead ↔
      calls.Initialised ∧ Refused calls.parse cSndPort := by
  rw [commandArrays]
  by_cases initialised : calls.Initialised
  · obtain ⟨⟨nPortCount, pPorts, after⟩, parsed, leaves⟩ :=
      nParsePorts_parses calls.parse cSndPort (owns_frame arrays)
    rw [if_neg (not_not.mpr initialised), parsed, and_iff_right initialised, Refused]
    generalize parseOutcome calls.parse cSndPort = outcome at leaves ⊢
    cases leaves with
    | uncopied owns => simp [free]
    | ungranted owns nothing => simp [free]
    | unparsed owns released => simp [free_dead (owns.dead released (by simp))]
    | parsed owns filled loaded =>
      obtain ⟨left, freed, -⟩ := owns.freed
      obtain ⟨nRc, connected, connects, -, -⟩ := nConnectPorts_full calls.connectTo loaded
      simp only [connects, freed, reduceCtorEq, exists_false, iff_false]
      split
      · simp
      · split <;> simp
  · simp [initialised]

/-- When the arrays are live wherever they are used: for every list of options, every pattern of
failures, whatever else is allocated and whatever `nPortCount` held, exactly when no `-p` that
`main` comes to is refused an address and its pointer used again, nor is the command thread refused
one. When every option is a `-p`, the pointer is null or owned behind each of them under the same
condition. -/
theorem arrays_owned_iff (nPortCount : Int) (arrays threadArrays : PortHeap)
    (options : List MainOption) (after : MainCalls) (calls : SetupCalls) (cSndPort : List UInt8) :
    ((mainFrom after (mainVariables nPortCount arrays) options ≠ .error .dead ∧
      commandArrays calls cSndPort threadArrays ≠ .error .dead) ↔
      ¬ UsesRefused false options ∧ ¬ (calls.Initialised ∧ Refused calls.parse cSndPort)) ∧
    ((∀ option ∈ options, option.IsPort) →
      (PointerOwned (mainVariables nPortCount arrays) options ↔ ¬ UsesRefused false options)) := by
  have keeps := mainVariables_keeps nPortCount arrays
  have main := mainFrom_keeps after keeps options
  exact ⟨and_congr (not_congr main) (not_congr (commandArrays_dead calls cSndPort threadArrays)),
    pointerOwned_iff keeps⟩

/-- The array for a name that no client has is freed by the parser and at the end of `main`. -/
theorem unknown_option_freed_twice :
    ¬ ∀ (nPortCount : Int) (arrays threadArrays : PortHeap) (options : List MainOption)
        (after : MainCalls) (calls : SetupCalls) (cSndPort : List UInt8),
      mainFrom after (mainVariables nPortCount arrays) options ≠ .error .dead ∧
        commandArrays calls cSndPort threadArrays ≠ .error .dead := by
  intro always
  let unknown : ParseCalls := ⟨true, fun _ => true, fun _ _ => none⟩
  let after : MainCalls := ⟨0, fun _ => true, true, true, true⟩
  have refused : Refused unknown (ascii "nosuch") := ⟨0, by decide⟩
  have again : UsesRefused false [.port (ascii "nosuch") unknown] := .inl ⟨refused, rfl⟩
  have dead := (mainFrom_keeps after (mainVariables_keeps 0 []) _).mpr again
  exact (always 0 [] [] _ after ⟨true, true, 0, unknown, 0, fun _ => true⟩ []).1 dead

end MidiDaemon
