import Mathlib.Data.Set.List
import MidiDaemon.Library.Getopt
import MidiDaemon.StartGate

/-!
# The command line

`main` hands its arguments to `getopt_long` and goes through what comes back. It goes on to its
source port exactly when all options it is given are ports, in whatever way they are spelled, none
of them is refused, and the last one is parsed; or when it is given none, and `nPortCount` happens
to be a count (`main_starts_iff`). Of what `listUsage` offers, `--version` and the delay are not
options.
-/

namespace MidiDaemon

open Getopt Heap

/-- The byte of a letter. -/
def letter (char : Char) : UInt8 := UInt8.ofNat char.toNat

/-- `sShortOptions`. -/
def sShortOptions : List (UInt8 × Bool) :=
  [(letter 'h', false), (letter 'V', false), (letter 'l', false), (letter 'p', true)]

/-- `tLongOptions`. -/
def tLongOptions : List Long :=
  [⟨ascii "help", false, letter 'h'⟩, ⟨ascii "listVersion", false, letter 'V'⟩,
    ⟨ascii "list", false, letter 'l'⟩, ⟨ascii "port", true, letter 'p'⟩]

/-- No short option is a dash. -/
theorem sShortOptions_undashed : ∀ short ∈ sShortOptions, short.1 ≠ dash := by
  simp [sShortOptions, letter, dash]

/-- The options of `main`. -/
def mainSpec : Spec := ⟨sShortOptions, tLongOptions, sShortOptions_undashed⟩

/-- The `switch` on `nOpt`; the calls are those of `nParsePorts`. -/
def mainOption (calls : ParseCalls) : Found → MainOption
  | .option nOpt optarg =>
    if nOpt = letter 'h' then .help
    else if nOpt = letter 'V' then .listVersion
    else if nOpt = letter 'l' then .list
    else
      match optarg with
      | some optarg => if nOpt = letter 'p' then .port optarg calls else .other
      | none => .other
  | .unknown => .other

/-- The options of a command line, behind the name of the program. -/
def mainOptions (calls : Nat → ParseCalls) (argv : List (List UInt8)) : List MainOption :=
  (mainSpec.getopt argv).mapIdx fun place => mainOption (calls place)

/-- A port on the command line. -/
def portOption (optarg : List UInt8) : Found := .option (letter 'p') (some optarg)

/-- The texts of these ports are not refused, and the last of them is parsed; or there is none. -/
def PortsParsed (nPortCount : Int) (calls : Nat → ParseCalls)
    (strings : List (List UInt8)) : Prop :=
  strings = [] ∧ 1 ≤ nPortCount ∨
    ∃ front last ports, strings = front ++ [last] ∧
      (∀ place string, front[place]? = some string → ¬ Refused (calls place) string) ∧
      parseOutcome (calls front.length) last = .parsed ports

/-- A long option may be cut to a beginning of its own. -/
example : mainSpec.long (ascii "po") = some ⟨ascii "port", true, letter 'p'⟩ ∧
    mainSpec.long (ascii "list") = some ⟨ascii "list", false, letter 'l'⟩ ∧
    mainSpec.long (ascii "lis") = none := by decide

/-! ## Ports on the command line -/

variable {calls : Nat → ParseCalls}

/-- Only a port is accepted. -/
theorem mainOption_accepted {found : Found} {parse : ParseCalls}
    (accepted : Accepted (mainOption parse found)) : ∃ optarg, found = portOption optarg := by
  cases found with
  | unknown => exact accepted.elim
  | option nOpt optarg =>
    cases optarg with
    | none =>
      simp only [mainOption] at accepted
      split_ifs at accepted <;> exact accepted.elim
    | some optarg =>
      simp only [mainOption] at accepted
      split_ifs at accepted with help version list port
      · exact accepted.elim
      · exact accepted.elim
      · exact accepted.elim
      · exact ⟨optarg, by rw [port, portOption]⟩
      · exact accepted.elim

/-- The options of a command line on which there are only ports. -/
theorem mainOptions_ports {argv strings : List (List UInt8)}
    (read : mainSpec.getopt argv = strings.map portOption) :
    mainOptions calls argv = strings.mapIdx fun place string => .port string (calls place) := by
  rw [mainOptions, read, List.mapIdx_eq_iff]
  intro place
  rw [List.getElem?_mapIdx, List.getElem?_map, Option.map_map]
  rfl

/-- Options that are all accepted are ports. -/
theorem mainOptions_accepted {argv : List (List UInt8)}
    (accepted : ∀ option ∈ mainOptions calls argv, Accepted option) :
    ∃ strings : List (List UInt8), mainSpec.getopt argv = strings.map portOption := by
  have ports : ∀ found ∈ mainSpec.getopt argv, found ∈ Set.range portOption := by
    intro found member
    obtain ⟨place, bound, rfl⟩ := List.getElem_of_mem member
    have here : mainOption (calls place) (mainSpec.getopt argv)[place] ∈ mainOptions calls argv :=
      List.mem_mapIdx.mpr ⟨place, bound, rfl⟩
    obtain ⟨optarg, same⟩ := mainOption_accepted (accepted _ here)
    exact ⟨optarg, same.symm⟩
  have mapped : mainSpec.getopt argv ∈ Set.range (List.map portOption) := by
    rw [Set.range_list_map]
    exact ports
  obtain ⟨strings, same⟩ := mapped
  exact ⟨strings, same.symm⟩

/-- Ports are all accepted when none of them is refused. -/
theorem ports_accepted {strings : List (List UInt8)} :
    (∀ option ∈ strings.mapIdx fun place string => MainOption.port string (calls place),
        Accepted option) ↔
      ∀ place string, strings[place]? = some string → ¬ Refused (calls place) string := by
  constructor
  · intro accepted place string found
    obtain ⟨bound, rfl⟩ := List.getElem?_eq_some_iff.mp found
    exact accepted _ (List.mem_mapIdx.mpr ⟨place, bound, rfl⟩)
  · intro unrefused option member
    obtain ⟨place, bound, rfl⟩ := List.mem_mapIdx.mp member
    exact unrefused place _ (List.getElem?_eq_getElem bound)

/-! ## The start -/

/-- `main` reads all its options and goes past the check of its ports. -/
def Starts (nPortCount : Int) (arrays : PortHeap) (options : List MainOption) : Prop :=
  ∃ state, optionLoop (mainVariables nPortCount arrays) options = .ok (some state) ∧
    PassesCheck state

/-- The options of a `main` that starts are all accepted. -/
theorem starts_accepted {nPortCount : Int} {arrays : PortHeap} {options : List MainOption}
    (starts : Starts nPortCount arrays options) : ∀ option ∈ options, Accepted option := by
  obtain ⟨state, read, going, counted⟩ := starts
  rcases optionLoop_pointer (mainVariables_keeps nPortCount arrays) read going with
    ⟨-, accepted⟩ | dangles
  · exact accepted
  · exact absurd dangles.counted counted

/-- Behind ports that are not refused, the last one decides. -/
theorem starts_last {nPortCount : Int} {arrays : PortHeap} {front : List MainOption}
    (accepted : ∀ option ∈ front, Accepted option) (optarg : List UInt8) (parse : ParseCalls) :
    Starts nPortCount arrays (front ++ [.port optarg parse]) ↔
      ∃ ports, parseOutcome parse optarg = .parsed ports := by
  obtain ⟨middle, read, listing, keeps⟩ :=
    optionLoop_accepted (mainVariables_keeps nPortCount arrays) accepted
  obtain ⟨last, stepped, same, -⟩ := port_keeps keeps optarg parse
  obtain ⟨frame, leaves⟩ := port_parses keeps stepped
  have whole : optionLoop (mainVariables nPortCount arrays) (front ++ [.port optarg parse]) =
      .ok (some last) := by
    rw [optionLoop_append read, optionLoop, stepped]
    rfl
  constructor
  · rintro ⟨state, ended, -, counted⟩
    obtain rfl : last = state := Option.some.inj (Except.ok.inj (whole.symm.trans ended))
    exact leaves.counted (by omega)
  · rintro ⟨ports, outcome⟩
    rw [outcome] at leaves
    obtain ⟨filled, -, count⟩ := leaves.filled
    have some_port := List.length_pos_of_ne_nil filled
    exact ⟨last, whole, same.trans listing, by omega⟩

/-- A `main` with these ports starts when they are parsed. -/
theorem ports_start (nPortCount : Int) (arrays : PortHeap) (strings : List (List UInt8)) :
    Starts nPortCount arrays (strings.mapIdx fun place string => .port string (calls place)) ↔
      PortsParsed nPortCount calls strings := by
  rw [PortsParsed]
  cases strings using List.reverseRecOn with
  | nil =>
    constructor
    · rintro ⟨state, read, -, counted⟩
      obtain rfl := Option.some.inj (Except.ok.inj read)
      have count : ¬ nPortCount < 1 := counted
      exact .inl ⟨rfl, by omega⟩
    · rintro (⟨-, held⟩ | ⟨front, last, ports, spelled, -⟩)
      · exact ⟨_, rfl, rfl, show ¬ nPortCount < 1 by omega⟩
      · simp at spelled
  | append_singleton front last =>
    rw [List.mapIdx_concat]
    constructor
    · intro starts
      have accepted : ∀ option ∈ front.mapIdx fun place string =>
            MainOption.port string (calls place), Accepted option := fun option member =>
        starts_accepted starts option (List.mem_append_left _ member)
      obtain ⟨ports, outcome⟩ := (starts_last accepted last (calls front.length)).mp starts
      exact .inr ⟨front, last, ports, rfl, ports_accepted.mp accepted, outcome⟩
    · rintro (⟨nothing, -⟩ | ⟨others, string, ports, spelled, unrefused, outcome⟩)
      · simp at nothing
      · obtain ⟨rfl, same⟩ := List.append_inj' spelled rfl
        obtain rfl := List.singleton_inj.mp same
        exact (starts_last (ports_accepted.mpr unrefused) last _).mpr ⟨ports, outcome⟩

/-- A `main` that starts was given ports, and nothing that it does not know. -/
theorem starts_iff (nPortCount : Int) (arrays : PortHeap) (argv : List (List UInt8)) :
    Starts nPortCount arrays (mainOptions calls argv) ↔
      ∃ arguments strings, Written mainSpec argv arguments ∧
        arguments.flatMap (Argument.options mainSpec) = strings.map portOption ∧
        PortsParsed nPortCount calls strings := by
  constructor
  · intro starts
    obtain ⟨strings, read⟩ := mainOptions_accepted (starts_accepted starts)
    have known : Found.unknown ∉ mainSpec.getopt argv := by simp [read, portOption]
    obtain ⟨arguments, written⟩ := getopt_exact.mp known
    rw [mainOptions_ports read, ports_start] at starts
    exact ⟨arguments, strings, written, written.read.symm.trans read, starts⟩
  · rintro ⟨arguments, strings, written, spelled, parsed⟩
    rw [mainOptions_ports (written.read.trans spelled), ports_start]
    exact parsed

/-- What `listUsage` offers besides the options of `main`; the delay has a value. -/
def offeredOnly (value : List UInt8) : List (List UInt8) :=
  [ascii "--version", ascii "-d" ++ value, ascii "--delay", ascii "--delay=" ++ value]

/-- It is read as an error. -/
theorem offeredOnly_unknown {value argument : List UInt8} (offered : argument ∈ offeredOnly value) :
    argument ≠ [dash, dash] ∧
      ∃ found awaited, mainSpec.element argument = some (.unknown :: found, awaited) := by
  simp only [offeredOnly, List.mem_cons, List.not_mem_nil, or_false] at offered
  rcases offered with rfl | rfl | rfl | rfl
  · exact ⟨by decide, [], none, by decide⟩
  · have text : ascii "-d" = [dash, letter 'd'] := by decide
    have absent : mainSpec.short (letter 'd') = none := by decide
    obtain ⟨going, told⟩ := element_cluster mainSpec (show letter 'd' ≠ dash by decide) value
    rw [Spec.cluster, absent] at told
    rw [text]
    exact ⟨going, _, _, told⟩
  · exact ⟨by decide, [], none, by decide⟩
  · have text : ascii "--delay=" = dash :: dash :: (ascii "delay" ++ [equalsSign]) := by decide
    have plain : equalsSign ∉ ascii "delay" := by decide
    have absent : mainSpec.long (ascii "delay") = none := by decide
    obtain ⟨going, told⟩ := element_long mainSpec
      (show ascii "delay" ++ equalsSign :: value ≠ [] by simp)
    rw [longOption_unknown (by rwa [takeWhile_name plain])] at told
    rw [text, List.cons_append, List.cons_append, List.append_assoc, List.singleton_append]
    exact ⟨going, _, _, told⟩

/-- When `main` starts: for every command line, every pattern of failures and whatever
`nPortCount` held, exactly when its arguments spell ports and nothing else up to two dashes, none of
them is refused and the last is parsed; and never behind what only `listUsage` knows. -/
theorem main_starts_iff (nPortCount : Int) (arrays : PortHeap) (calls : Nat → ParseCalls) :
    (∀ argv, Starts nPortCount arrays (mainOptions calls argv) ↔
      ∃ arguments strings, Written mainSpec argv arguments ∧
        arguments.flatMap (Argument.options mainSpec) = strings.map portOption ∧
        PortsParsed nPortCount calls strings) ∧
    ∀ arguments : List Argument, (∀ argument ∈ arguments, argument.Valid mainSpec) →
      ∀ value, ∀ offered ∈ offeredOnly value, ∀ rest,
        ¬ Starts nPortCount arrays
          (mainOptions calls (arguments.flatMap Argument.render ++ offered :: rest)) := by
  refine ⟨starts_iff nPortCount arrays, fun arguments valid value offered member rest starts => ?_⟩
  obtain ⟨strings, read⟩ := mainOptions_accepted (starts_accepted starts)
  obtain ⟨going, found, awaited, told⟩ := offeredOnly_unknown member
  have error := getopt_unknown going told List.mem_cons_self rest
  rw [getopt_renders valid] at read
  have port := List.mem_append_right (arguments.flatMap (Argument.options mainSpec)) error
  rw [read] at port
  simp [portOption] at port

/-- Two texts of ports, spelled in two ways, in front of a file. -/
theorem main_starts_iff_two :
    Starts 0 []
      (mainOptions (fun _ => ⟨true, fun _ => true, fun _ _ => some ⟨20, 0⟩⟩)
        [ascii "-p128:0,20:1", ascii "--port", ascii "20:0", ascii "song.mid"]) := by
  apply ((main_starts_iff 0 [] _).1 _).mpr
  refine ⟨[.joined [] (letter 'p') (ascii "128:0,20:1"),
      .longSeparate (ascii "port") (ascii "20:0"), .operand (ascii "song.mid")],
    [ascii "128:0,20:1", ascii "20:0"], ⟨?valid, [], .inl rfl, by decide⟩, by decide,
    .inr ⟨[ascii "128:0,20:1"], ascii "20:0", [⟨20, 0⟩], rfl, ?unrefused, by decide⟩⟩
  case valid =>
    simp only [List.forall_mem_cons]
    refine ⟨⟨fun name member => absurd member List.not_mem_nil, by decide, by decide⟩,
      ⟨by decide, by decide, ⟨ascii "port", true, letter 'p'⟩, by decide, rfl⟩,
      element_operand (by decide), fun argument member => absurd member List.not_mem_nil⟩
  case unrefused =>
    rintro place string found ⟨nEntry, refused⟩
    obtain rfl := List.mem_singleton.mp (List.mem_of_getElem? found)
    have parsed : parseOutcome ⟨true, fun _ => true, fun _ _ => some ⟨20, 0⟩⟩ (ascii "128:0,20:1") =
        .parsed [⟨20, 0⟩, ⟨20, 0⟩] := by decide
    cases parsed.symm.trans refused

end MidiDaemon
