import MidiDaemon.Library.Memory
import MidiDaemon.PortParsing

/-!
# The options of `main`

`main` reads its options one after the other. Each `-p` is copied over the global `cSndPort` and
parsed into the same pointer, over what the one before left there. Then `main` lists ports and ends,
or goes on with the ports it has. Of what comes then only the ways out matter to the port array.
-/

namespace MidiDaemon

open Heap Memory

/-- The size of `cSndPort`. -/
def cSndPortLength : Nat := 128

/-- What `getopt_long` returns, and for a port what the calls of `nParsePorts` do. -/
inductive MainOption where
  /-- `-h`. -/
  | help
  /-- `-V`. -/
  | listVersion
  /-- `-l`. -/
  | list
  /-- `-p` with its argument. -/
  | port (optarg : List UInt8) (calls : ParseCalls)
  /-- An unknown option, or `-p` without an argument. -/
  | other

/-- The variables of `main` that its options set. -/
structure MainVariables where
  /-- `nPortCount`. -/
  nPortCount : Int
  /-- `nDoList`. -/
  nDoList : Bool
  /-- `pPorts`. -/
  pPorts : Option Nat
  /-- The global `cSndPort`, and what is written behind it. -/
  cSndPort : List UInt8
  /-- The port arrays. -/
  arrays : PortHeap

/-- `strcpy(cSndPort, optarg)`. -/
def copyPort (cSndPort optarg : List UInt8) : List UInt8 :=
  memcpy cSndPort 0 (cString optarg ++ [0])

/-- One round of the option loop; nothing is left when the process ends. -/
def optionStep (state : MainVariables) : MainOption → Except Fault (Option MainVariables)
  | .help | .listVersion | .other => .ok none
  | .list => .ok (some { state with nDoList := true })
  | .port optarg calls =>
    let cSndPort := copyPort state.cSndPort optarg
    (nParsePorts calls cSndPort state.pPorts state.arrays).map
      fun (nPortCount, pPorts, arrays) =>
        some { state with
          nPortCount := nPortCount, pPorts := pPorts, cSndPort := cSndPort, arrays := arrays }

/-- The option loop. -/
def optionLoop (state : MainVariables) :
    List MainOption → Except Fault (Option MainVariables)
  | [] => .ok (some state)
  | option :: rest =>
    match optionStep state option with
    | .ok (some state) => optionLoop state rest
    | .ok none => .ok none
    | .error fault => .error fault

/-- What the calls of `main` return behind its options. -/
structure MainCalls where
  /-- `pCreateSourcePort`. -/
  createSourcePort : Int
  /-- `snd_seq_connect_to` succeeds for this entry. -/
  connectTo : Nat → Bool
  /-- The serial thread is created. -/
  uartThread : Bool
  /-- The socket is opened and bound. -/
  listening : Bool
  /-- Every client thread is created. -/
  clientThreads : Bool

/-- `erroExitHandler`, as far as the array goes; the handle and its port end with the process. -/
def erroExitHandler (pPorts : Option Nat) (arrays : PortHeap) : Except Fault PortHeap :=
  free arrays pPorts

/-- `main` behind its options, on every way out. -/
def finish (calls : MainCalls) (state : MainVariables) : Except Fault PortHeap :=
  if state.nDoList then .ok state.arrays
  else if state.nPortCount < 1 then erroExitHandler state.pPorts state.arrays
  else if calls.createSourcePort < 0 then erroExitHandler state.pPorts state.arrays
  else
    match nConnectPorts calls.connectTo state.nPortCount state.pPorts state.arrays with
    | .ok (nRc, _) =>
      if nRc < 0 then erroExitHandler state.pPorts state.arrays
      else if calls.uartThread = false then .ok state.arrays
      else if calls.listening = false then erroExitHandler state.pPorts state.arrays
      else if calls.clientThreads = false then erroExitHandler state.pPorts state.arrays
      else free state.arrays state.pPorts
    | .error fault => .error fault

/-- `main` from its options to the end of the process. -/
def mainFrom (calls : MainCalls) (state : MainVariables) (options : List MainOption) :
    Except Fault Unit :=
  match optionLoop state options with
  | .ok (some state) => (finish calls state).map fun _ => ()
  | .ok none => .ok ()
  | .error fault => .error fault

/-- The variables in front of the option loop; `nPortCount` has not been set. -/
def mainVariables (nPortCount : Int) (arrays : PortHeap) : MainVariables :=
  ⟨nPortCount, false, none, List.replicate cSndPortLength 0, arrays⟩

/-- What is copied to `cSndPort` is read back. -/
theorem cString_copyPort (cSndPort optarg : List UInt8) :
    cString (copyPort cSndPort optarg) = cString optarg := by
  rw [copyPort, memcpy_zero, List.append_assoc, List.singleton_append]
  exact cString_text (cString_unterminated optarg) _

/-- The outcome is that of the argument. -/
theorem parseOutcome_copyPort (calls : ParseCalls) (cSndPort optarg : List UInt8) :
    parseOutcome calls (copyPort cSndPort optarg) = parseOutcome calls optarg := by
  rw [parseOutcome, parseOutcome, cString_copyPort]

end MidiDaemon
