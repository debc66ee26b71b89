import MidiDaemon.Library.Machine
import MidiDaemon.PortOwnership

/-!
# Do the threads agree on the ports?

`main` creates the thread `updateMidiAttr` before it reads its options, and the thread parses
`cSndPort` as soon as it has a sequencer. Nothing orders the two, so the thread may parse the empty
string, or that of an earlier `-p`. When it copies the string only after `main` has read its last
`-p`, it parses that string, and both connect to the same ports (`ports_agree`).

The model interleaves the steps of the two; a copy to `cSndPort` and a copy from it are one step
each. Which address a name has is the same for both; which allocations and calls succeed is decided
anew for each. A step that meets a fault has no next state, and the process ends with `main`.
-/

namespace MidiDaemon

open Heap Machine

/-- What `main` has come to. -/
inductive MainProgress where
  /-- `pthread_create` for `updateMidiAttr`. -/
  | creating
  /-- `nInitSeq`. -/
  | opening
  /-- The option loop, and the check behind it. -/
  | reading
  /-- These ports are connected. -/
  | connected (ports : List SndSeqAddr)
  /-- The process has ended. -/
  | exited
deriving DecidableEq

/-- What `updateMidiAttr` has come to. -/
inductive CommandProgress where
  /-- The thread is not there yet. -/
  | absent
  /-- `nInitSeq`. -/
  | opening
  /-- `nParsePorts`. -/
  | parsing
  /-- `nConnectPorts`, with a count and a pointer. -/
  | connecting (nPortCount : Int) (pPorts : Option Nat)
  /-- These ports are connected. -/
  | connected (ports : List SndSeqAddr)
  /-- The set-up has failed. -/
  | ended
deriving DecidableEq

/-- Both threads, and what they share. -/
structure PortThreads where
  /-- What `main` has come to. -/
  main : MainProgress
  /-- The options that `main` has not read yet. -/
  options : List MainOption
  /-- The variables of `main`, with the global `cSndPort`. -/
  state : MainVariables
  /-- What `updateMidiAttr` has come to. -/
  thread : CommandProgress
  /-- The string that `updateMidiAttr` has parsed. -/
  copied : Option (List UInt8)
  /-- The port arrays of `updateMidiAttr`. -/
  threadArrays : PortHeap

/-- A step of one of the threads, with what its calls return. -/
inductive PortEvent where
  /-- `main` creates the thread, or fails and exits. -/
  | create (done : Bool)
  /-- `main` opens its sequencer, or fails and exits. -/
  | mainOpen (done : Bool)
  /-- `main` reads an option. -/
  | option
  /-- `main` checks the count and connects its ports. -/
  | mainConnect (calls : MainCalls)
  /-- The thread opens its sequencer, or fails. -/
  | threadOpen (done : Bool)
  /-- The thread copies `cSndPort` and parses it. -/
  | threadParse (calls : ParseCalls)
  /-- The thread connects its ports. -/
  | threadConnect (calls : SetupCalls)

variable (find : List UInt8 → Option SndSeqAddr)

/-- The calls with the addresses that names have. -/
def ParseCalls.finding (calls : ParseCalls) : ParseCalls := { calls with address := fun _ => find }

/-- Its addresses are these. -/
theorem ParseCalls.finds (calls : ParseCalls) (nEntry : Nat) (name : List UInt8) :
    (calls.finding find).address nEntry name = find name := rfl

/-- The option with the addresses that names have. -/
def MainOption.finding : MainOption → MainOption
  | .port optarg calls => .port optarg (calls.finding find)
  | .help => .help
  | .listVersion => .listVersion
  | .list => .list
  | .other => .other

namespace PortThreads

/-- Both threads before the first step of `main`; `cSndPort` is empty. -/
def start (options : List MainOption) (nPortCount : Int) : PortThreads :=
  ⟨.creating, options, mainVariables nPortCount [], .absent, none, []⟩

/-- `main` reads its next option. -/
def readOption (threads : PortThreads) : Option PortThreads :=
  match threads.options with
  | [] => none
  | option :: rest =>
    match optionStep threads.state (option.finding find) with
    | .ok (some state) => some { threads with options := rest, state := state }
    | .ok none => some { threads with main := .exited }
    | .error _ => none

/-- `main` behind its options. -/
def connectMain (threads : PortThreads) (calls : MainCalls) : Option PortThreads :=
  if threads.state.nDoList ∨ threads.state.nPortCount < 1 ∨ calls.createSourcePort < 0 then
    some { threads with main := .exited }
  else
    match nConnectPorts calls.connectTo threads.state.nPortCount threads.state.pPorts
      threads.state.arrays with
    | .ok (nRc, connected) =>
      some { threads with main := if nRc < 0 then .exited else .connected connected }
    | .error _ => none

/-- The thread parses what `cSndPort` holds. -/
def parseThread (threads : PortThreads) (calls : ParseCalls) : Option PortThreads :=
  match nParsePorts (calls.finding find) threads.state.cSndPort none threads.threadArrays with
  | .ok (nPortCount, pPorts, arrays) =>
    some { threads with
      thread := if nPortCount < 1 then .ended else .connecting nPortCount pPorts
      copied := some (cString threads.state.cSndPort)
      threadArrays := arrays }
  | .error _ => none

/-- The thread creates its source port and connects what it has parsed. -/
def connectThread (threads : PortThreads) (nPortCount : Int) (pPorts : Option Nat)
    (calls : SetupCalls) : Option PortThreads :=
  if calls.createSimplePort < 0 then some { threads with thread := .ended }
  else
    match nConnectPorts calls.connectTo nPortCount pPorts threads.threadArrays with
    | .ok (nRc, connected) =>
      some { threads with thread := if nRc < 0 then .ended else .connected connected }
    | .error _ => none

/-- One step; nothing runs once the process has ended. -/
def step (threads : PortThreads) (event : PortEvent) : Option PortThreads :=
  if threads.main = .exited then none
  else
    match event with
    | .create done =>
      if threads.main = .creating then
        some { threads with
          main := if done then .opening else .exited
          thread := if done then .opening else .absent }
      else none
    | .mainOpen done =>
      if threads.main = .opening then
        some { threads with main := if done then .reading else .exited }
      else none
    | .option => if threads.main = .reading then threads.readOption find else none
    | .mainConnect calls =>
      if threads.main = .reading ∧ threads.options.isEmpty then threads.connectMain calls else none
    | .threadOpen done =>
      if threads.thread = .opening then
        some { threads with thread := if done then .parsing else .ended }
      else none
    | .threadParse calls =>
      if threads.thread = .parsing then threads.parseThread find calls else none
    | .threadConnect calls =>
      match threads.thread with
      | .connecting nPortCount pPorts => threads.connectThread nPortCount pPorts calls
      | _ => none

end PortThreads

/-! ## The last string -/

/-- The argument of the last `-p`. -/
def lastPort : List MainOption → Option (List UInt8)
  | [] => none
  | .port optarg _ :: rest => (lastPort rest).or (some optarg)
  | .help :: rest | .listVersion :: rest | .list :: rest | .other :: rest => lastPort rest

/-- The last `-p` of two parts is that of the second, if it has one. -/
theorem lastPort_append (front back : List MainOption) :
    lastPort (front ++ back) = (lastPort back).or (lastPort front) := by
  induction front with
  | nil => simp [lastPort]
  | cons option front ih =>
    cases option with
    | port optarg calls =>
      rw [List.cons_append, lastPort, lastPort, ih, Option.or_assoc]
    | help | listVersion | list | other => exact ih

namespace PortThreads

/-- The thread copies `cSndPort` only when `main` has no `-p` left to read. -/
def CopiesLate (threads : PortThreads) : PortEvent → Prop
  | .threadParse _ => lastPort threads.options = none
  | _ => True

/-- The threads agree on the ports of the last `-p`. -/
structure Agrees (last : List UInt8) (threads : PortThreads) : Prop where
  /-- The thread has parsed no other string. -/
  text : ∀ text, threads.copied = some text → text = cString last
  /-- It connects to the ports of this string. -/
  newest : ∀ ports, threads.thread = .connected ports → portList find last = some ports
  /-- These are the ports that `main` connects to. -/
  same : ∀ ports mainPorts, threads.thread = .connected ports →
    threads.main = .connected mainPorts → ports = mainPorts

/-- The variables of `main` behind options of which this `-p` is the last. -/
structure Holding (newest : List UInt8) (state : MainVariables) : Prop where
  /-- Its argument is in `cSndPort`. -/
  text : cString state.cSndPort = cString newest
  /-- A count is that of its ports, which are in the array. -/
  counted : 1 ≤ state.nPortCount → ∃ ports, portList find newest = some ports ∧
    load state.arrays state.pPorts = .ok (ports.map some) ∧ state.nPortCount = ports.length

/-- What a run keeps in which the thread copies late. -/
structure Follows (options : List MainOption) (last : List UInt8)
    (threads : PortThreads) : Prop where
  /-- The pointer of `main` keeps its array, or was left behind. -/
  pointer : Keeps threads.state ∨ Dangles threads.state
  /-- The options read have set the variables. -/
  read : ∃ read, options = read ++ threads.options ∧
    ∀ newest, lastPort read = some newest → Holding find newest threads.state
  /-- The string that was parsed. -/
  text : ∀ text, threads.copied = some text → text = cString last
  /-- The ports that were parsed. -/
  connecting : ∀ nPortCount pPorts, threads.thread = .connecting nPortCount pPorts →
    ∃ ports, portList find last = some ports ∧
      load threads.threadArrays pPorts = .ok (ports.map some) ∧ nPortCount = ports.length
  /-- The ports that were connected. -/
  newest : ∀ ports, threads.thread = .connected ports → portList find last = some ports
  /-- The ports that `main` has connected. -/
  main : ∀ ports, threads.main = .connected ports → portList find last = some ports

variable {find} {options : List MainOption} {last : List UInt8} {threads next : PortThreads}

/-- The threads agree as long as the invariant holds. -/
theorem Follows.agrees (follows : threads.Follows find options last) :
    threads.Agrees find last where
  text := follows.text
  newest := follows.newest
  same ports mainPorts connected connectedMain := by
    have one := follows.newest ports connected
    have other := follows.main mainPorts connectedMain
    exact Option.some.inj (one.symm.trans other)

/-- Nothing has been parsed at the start. -/
theorem start_follows (options : List MainOption) (last : List UInt8) (nPortCount : Int) :
    (start options nPortCount).Follows find options last where
  pointer := .inl (mainVariables_keeps nPortCount [])
  read := ⟨[], rfl, fun _ none_read => by cases none_read⟩
  text _ none_copied := by cases none_copied
  connecting _ _ absent := by cases absent
  newest _ absent := by cases absent
  main _ creating := by cases creating

/-- Behind the last `-p` the variables are those of its argument. -/
theorem Follows.holding (follows : threads.Follows find options last)
    (given : lastPort options = some last) (late : lastPort threads.options = none) :
    Holding find last threads.state := by
  obtain ⟨read, split, holds⟩ := follows.read
  rw [split, lastPort_append, late, Option.none_or] at given
  exact holds last given

/-- It keeps the pointer to its array, or leaves it behind, and holds its argument. -/
theorem port_holds {state after : MainVariables} {optarg : List UInt8} {calls : ParseCalls}
    (pointer : Keeps state ∨ Dangles state)
    (stepped : optionStep state (.port optarg (calls.finding find)) = .ok (some after)) :
    (Keeps after ∨ Dangles after) ∧ Holding find optarg after := by
  obtain ⟨-, copied, parsed⟩ := optionStep_port_inv stepped
  have text : cString after.cSndPort = cString optarg := by rw [copied, cString_copyPort]
  rcases pointer with keeps | dangles
  · obtain ⟨refused, accepted⟩ := keeps.port stepped
    refine ⟨?_, text, fun enough => ?_⟩
    · by_cases refuses : Refused (calls.finding find) optarg
      · exact .inr (refused refuses)
      · exact .inl (accepted refuses)
    · obtain ⟨frame, owns⟩ := keeps.owns
      obtain ⟨ports, list, loaded, count⟩ :=
        nParsePorts_ports (calls.finds find) owns parsed enough
      rw [portList, cString_copyPort] at list
      exact ⟨ports, list, loaded, count⟩
  · have dangling := dangles.port stepped
    have counted := dangling.counted
    exact ⟨.inr dangling, text, fun enough => by omega⟩

/-- The end of the process keeps what was reached before. -/
theorem Follows.exit (follows : threads.Follows find options last) :
    Follows find options last { threads with main := .exited } :=
  ⟨follows.pointer, follows.read, follows.text, follows.connecting, follows.newest,
    fun _ exited => by cases exited⟩

/-- So does the end of the set-up of the thread. -/
theorem Follows.fail (follows : threads.Follows find options last) :
    Follows find options last { threads with thread := .ended } :=
  ⟨follows.pointer, follows.read, follows.text, fun _ _ ended => (by cases ended),
    fun _ ended => (by cases ended), follows.main⟩

/-- An option is read and leaves the variables of the last `-p` so far. -/
theorem readOption_follows (follows : threads.Follows find options last)
    (reading : threads.main = .reading) (stepped : threads.readOption find = some next) :
    next.Follows find options last := by
  obtain ⟨read, split, holds⟩ := follows.read
  have unconnected : ∀ ports, threads.main = .connected ports →
    portList find last = some ports := by
    intro ports connected
    rw [reading] at connected
    cases connected
  rw [readOption] at stepped
  split at stepped
  · cases stepped
  · rename_i option rest left
    have longer : options = (read ++ [option]) ++ rest := by
      rw [split, left, List.append_assoc, List.singleton_append]
    cases option with
    | help | listVersion | other =>
      obtain rfl := Option.some.inj stepped
      exact follows.exit
    | list =>
      obtain rfl := Option.some.inj stepped
      refine ⟨?_, ⟨read ++ [.list], longer, fun newest given => ?_⟩, follows.text,
        follows.connecting, follows.newest, unconnected⟩
      · exact follows.pointer.imp (fun keeps => ⟨keeps.owns, keeps.counted⟩)
          fun dangles => ⟨dangles.released, dangles.counted⟩
      · rw [lastPort_append] at given
        obtain ⟨text, counted⟩ := holds newest (by simpa [lastPort] using given)
        exact ⟨text, counted⟩
    | port optarg calls =>
      split at stepped
      · rename_i state taken
        obtain rfl := Option.some.inj stepped
        obtain ⟨pointer, holding⟩ := port_holds follows.pointer taken
        refine ⟨pointer, ⟨read ++ [.port optarg calls], longer, fun newest given => ?_⟩,
          follows.text, follows.connecting, follows.newest, unconnected⟩
        rw [lastPort_append] at given
        have same : optarg = newest := by simpa [lastPort] using given
        rw [← same]
        exact holding
      · obtain rfl := Option.some.inj stepped
        exact follows.exit
      · cases stepped

/-- `main` connects the ports of the last `-p`. -/
theorem connectMain_follows {calls : MainCalls} (follows : threads.Follows find options last)
    (given : lastPort options = some last) (done : threads.options = [])
    (stepped : threads.connectMain calls = some next) : next.Follows find options last := by
  have holding := follows.holding given (by rw [done]; rfl)
  unfold connectMain at stepped
  split at stepped
  · obtain rfl := Option.some.inj stepped
    exact follows.exit
  · rename_i going
    obtain ⟨ports, list, loaded, count⟩ := holding.counted (by
      have counted : ¬ threads.state.nPortCount < 1 := fun fewer => going (.inr (.inl fewer))
      omega)
    obtain ⟨nRc, connected, connects, -, complete⟩ := nConnectPorts_full calls.connectTo loaded
    rw [count, connects] at stepped
    obtain rfl := Option.some.inj stepped
    refine ⟨follows.pointer, follows.read, follows.text, follows.connecting, follows.newest, ?_⟩
    intro other reached
    by_cases failed : nRc < 0
    · simp [failed] at reached
    · simp only [if_neg failed, MainProgress.connected.injEq] at reached
      rw [← reached, complete (by omega)]
      exact list

/-- What the thread copies late is the string of the last `-p`. -/
theorem parseThread_follows {calls : ParseCalls} (follows : threads.Follows find options last)
    (given : lastPort options = some last) (late : lastPort threads.options = none)
    (stepped : threads.parseThread find calls = some next) : next.Follows find options last := by
  have holding := follows.holding given late
  unfold parseThread at stepped
  split at stepped
  · rename_i nPortCount pPorts arrays parsed
    obtain rfl := Option.some.inj stepped
    refine ⟨follows.pointer, follows.read, fun text copied => ?_, fun count pointer reached => ?_,
      fun ports reached => ?_, follows.main⟩
    · rw [← Option.some.inj copied]
      exact holding.text
    · by_cases fewer : nPortCount < 1
      · simp [fewer] at reached
      · simp only [if_neg fewer, CommandProgress.connecting.injEq] at reached
        obtain ⟨rfl, rfl⟩ := reached
        obtain ⟨ports, list, loaded, count⟩ := nParsePorts_ports (calls.finds find)
          (owns_frame threads.threadArrays) parsed (by omega)
        rw [portList, holding.text] at list
        exact ⟨ports, list, loaded, count⟩
    · simp only at reached
      split at reached <;> cases reached
  · cases stepped

/-- The thread connects what it has parsed. -/
theorem connectThread_follows {calls : SetupCalls} {nPortCount : Int} {pPorts : Option Nat}
    (follows : threads.Follows find options last)
    (connecting : threads.thread = .connecting nPortCount pPorts)
    (stepped : threads.connectThread nPortCount pPorts calls = some next) :
    next.Follows find options last := by
  obtain ⟨ports, list, loaded, count⟩ := follows.connecting nPortCount pPorts connecting
  unfold connectThread at stepped
  split at stepped
  · obtain rfl := Option.some.inj stepped
    exact follows.fail
  · obtain ⟨nRc, connected, connects, -, complete⟩ := nConnectPorts_full calls.connectTo loaded
    rw [count, connects] at stepped
    obtain rfl := Option.some.inj stepped
    refine ⟨follows.pointer, follows.read, follows.text, fun _ _ reached => ?_,
      fun other reached => ?_, follows.main⟩
    · simp only at reached
      split at reached <;> cases reached
    · by_cases failed : nRc < 0
      · simp [failed] at reached
      · simp only [if_neg failed, CommandProgress.connected.injEq] at reached
        rw [← reached, complete (by omega)]
        exact list

/-- Every step keeps the invariant, as long as the thread copies late. -/
theorem step_follows {event : PortEvent} (follows : threads.Follows find options last)
    (given : lastPort options = some last) (late : threads.CopiesLate event)
    (stepped : threads.step find event = some next) : next.Follows find options last := by
  unfold step at stepped
  split at stepped
  · cases stepped
  · cases event with
    | create done =>
      simp only [Option.ite_none_right_eq_some, Option.some.injEq] at stepped
      obtain ⟨creating, rfl⟩ := stepped
      refine ⟨follows.pointer, follows.read, follows.text, ?_, ?_, ?_⟩ <;> cases done <;> simp
    | mainOpen done =>
      simp only [Option.ite_none_right_eq_some, Option.some.injEq] at stepped
      obtain ⟨opening, rfl⟩ := stepped
      refine ⟨follows.pointer, follows.read, follows.text, follows.connecting, follows.newest, ?_⟩
      cases done <;> simp
    | option =>
      simp only [Option.ite_none_right_eq_some] at stepped
      exact readOption_follows follows stepped.1 stepped.2
    | mainConnect calls =>
      simp only [Option.ite_none_right_eq_some, List.isEmpty_iff] at stepped
      exact connectMain_follows follows given stepped.1.2 stepped.2
    | threadOpen done =>
      simp only [Option.ite_none_right_eq_some, Option.some.injEq] at stepped
      obtain ⟨opening, rfl⟩ := stepped
      refine ⟨follows.pointer, follows.read, follows.text, ?_, ?_, follows.main⟩ <;>
        cases done <;> simp
    | threadParse calls =>
      simp only [Option.ite_none_right_eq_some] at stepped
      exact parseThread_follows follows given late stepped.2
    | threadConnect calls =>
      simp only at stepped
      split at stepped
      · rename_i nPortCount pPorts connecting
        exact connectThread_follows follows connecting stepped
      · cases stepped

/-- When the threads agree on the ports: for every list of options with a `-p` in it and every
interleaving of the two threads, the thread parses the string of the last `-p` and connects to the
ports that `main` connects to, as long as it copies the string only when `main` has read its last
`-p`. -/
theorem ports_agree (find : List UInt8 → Option SndSeqAddr) (options : List MainOption)
    (nPortCount : Int) (last : List UInt8) (given : lastPort options = some last)
    (events : List PortEvent)
    (late : EachStep (step find) CopiesLate (start options nPortCount) events) :
    EachState (step find) (Agrees find last) (start options nPortCount) events :=
  eachState_of_invariant (fun _ (follows : Follows find options last _) => follows.agrees)
    (fun _ _ _ follows late stepped => step_follows follows given late stepped)
    (start_follows options last nPortCount) late

/-- An option that is read is taken from the list, or the process ends. -/
theorem step_option (stepped : threads.step find .option = some next) :
    next.main = .exited ∨ ∃ option, threads.options = option :: next.options := by
  simp only [step, Option.ite_none_left_eq_some, Option.ite_none_right_eq_some,
    readOption] at stepped
  obtain ⟨-, -, stepped⟩ := stepped
  split at stepped
  · cases stepped
  · rename_i option rest left
    split at stepped
    · obtain rfl := Option.some.inj stepped
      exact .inr ⟨option, left⟩
    · obtain rfl := Option.some.inj stepped
      exact .inl rfl
    · cases stepped

/-- The rule where one port is read before it is copied, and both threads connect to it. -/
theorem ports_agree_one :
    let find : List UInt8 → Option SndSeqAddr := fun _ => some ⟨20, 0⟩
    let calls : ParseCalls := ⟨true, fun _ => true, fun _ => find⟩
    EachState (step find) (Agrees find (ascii "20:0")) (start [.port (ascii "20:0") calls] 0)
      [.create true, .mainOpen true, .option, .threadOpen true, .threadParse calls,
        .mainConnect ⟨1, fun _ => true, true, true, true⟩,
        .threadConnect ⟨true, true, 128, calls, 1, fun _ => true⟩] := by
  intro find calls
  apply ports_agree find [.port (ascii "20:0") calls] 0 (ascii "20:0") rfl
  intro created stepped
  obtain rfl := Option.some.inj stepped
  refine ⟨trivial, fun opened stepped => ?_⟩
  obtain rfl := Option.some.inj stepped
  refine ⟨trivial, fun read stepped => ⟨trivial, fun ready opens => ⟨trivial, fun _ _ => ⟨?_, ?_⟩⟩⟩⟩
  have running : read.main ≠ .exited := by
    intro exited
    rw [step, if_pos exited] at opens
    cases opens
  have kept : ready.options = read.options := by
    rw [step, if_neg running] at opens
    simp only [Option.ite_none_right_eq_some, Option.some.injEq] at opens
    obtain ⟨-, rfl⟩ := opens
    rfl
  · show lastPort ready.options = none
    rcases step_option stepped with exited | ⟨option, taken⟩
    · exact absurd exited running
    · have nothing : read.options = [] := (List.cons.inj taken).2.symm
      rw [kept, nothing]
      rfl
  · exact fun _ _ => ⟨trivial, fun _ _ => ⟨trivial, trivial⟩⟩

/-- The thread parses whatever is in `cSndPort`. -/
theorem parseThread_copies (find : List UInt8 → Option SndSeqAddr) (threads : PortThreads)
    (calls : ParseCalls) :
    ∃ next, threads.parseThread find calls = some next ∧
      next.copied = some (cString threads.state.cSndPort) := by
  obtain ⟨⟨nPortCount, pPorts, arrays⟩, parsed, -⟩ := nParsePorts_parses (calls.finding find)
    threads.state.cSndPort (owns_frame threads.threadArrays)
  rw [parseThread, parsed]
  exact ⟨_, rfl, rfl⟩

/-- With options that `main` has not read, the thread parses the empty string. -/
theorem ports_disagree :
    ¬ ∀ (find : List UInt8 → Option SndSeqAddr) (options : List MainOption) (nPortCount : Int)
        (last : List UInt8) (events : List PortEvent), lastPort options = some last →
      (portList find last).isSome → (cString last).length < cSndPortLength →
      EachState (step find) (Agrees find last) (start options nPortCount) events := by
  intro always
  let find : List UInt8 → Option SndSeqAddr := fun _ => some ⟨20, 0⟩
  let calls : ParseCalls := ⟨true, fun _ => true, fun _ => find⟩
  let events : List PortEvent := [.create true, .threadOpen true, .threadParse calls]
  let unread : PortThreads :=
    ⟨.opening, [.port (ascii "20:0") calls], mainVariables 0 [], .parsing, none, []⟩
  obtain ⟨next, parsed, copied⟩ := parseThread_copies find unread calls
  have reached : run (step find) (start [.port (ascii "20:0") calls] 0) events = some next := by
    show (unread.parseThread find calls).bind some = some next
    rw [parsed]
    rfl
  have agrees : Agrees find (ascii "20:0") next :=
    eachState_iff.mp (always find [.port (ascii "20:0") calls] 0 (ascii "20:0") events rfl
      (by decide) (by decide)) events [] next (List.append_nil events).symm reached
  have empty : cString unread.state.cSndPort = [] := by decide
  have same := agrees.text _ copied
  rw [empty] at same
  exact absurd same (by decide)

end PortThreads

end MidiDaemon
