import MidiDaemon.Library.Memory
import MidiDaemon.Library.Scanf
import MidiDaemon.NoteEvent

/-!
# Commands of the Unix socket

A command is a line of one of two formats, each with four integers, and calls the handler of
its format with them. `executeCmdFromUnixSocket` tries the formats one after the other. Its
loop runs to the size of the table in bytes, so a text that follows neither format makes it
read behind the table: the model stops there with a fault, as it does when the terminator of
the text is written behind the receive buffer.
-/

namespace MidiDaemon

open Memory Scanf

/-- The entries of `MIDI_EVENT_UNIX_FORMAT` and of `MIDI_EVENT_UNIX_FUNCTION`. -/
abbrev midiEventCount : Nat := 2

/-- `sizeof(MIDI_EVENT_UNIX_FORMAT)`: an entry is a pointer of eight bytes. -/
def midiEventUnixFormatSize : Nat := midiEventCount * 8

/-- `MIDI_EVENT_UNIX_FORMAT`. -/
def midiEventUnixFormat : Fin midiEventCount → List UInt8
  | 0 => ascii "channel:%d,instrument:%d,EMPTY_PARA_1:%d,EMPTY_PARA_2:%d\n"
  | 1 => ascii "volume:%d,EMPTY_PARA_1:%d,EMPTY_PARA_2:%d,EMPTY_PARA_3:%d\n"

/-- The place of the format of `nProgramChange`. -/
abbrev programChangePlace : Fin midiEventCount := 0

/-- The place of the format of `nSetVolume`. -/
abbrev setVolumePlace : Fin midiEventCount := 1

/-- A command: the place of its format in the table, and its four integers. -/
structure Command where
  /-- The place in the table. -/
  nIndex : Fin midiEventCount
  /-- The first integer. -/
  nPara1 : Int32
  /-- The second integer. -/
  nPara2 : Int32
  /-- The third integer. -/
  nPara3 : Int32
  /-- The fourth integer. -/
  nPara4 : Int32
deriving DecidableEq

/-- An event `SND_SEQ_EVENT_PGMCHANGE`. -/
structure ProgramChange where
  /-- `data.control.channel`, an unsigned char. -/
  channel : UInt8
  /-- `data.control.value`. -/
  value : Int32
deriving DecidableEq

/-- What commands act on, and the calls of handlers so far. -/
structure MidiState where
  /-- `tMidiPara.nVolume`. -/
  nVolume : Int32
  /-- The program changes that were output, in order. -/
  output : List ProgramChange
  /-- The calls of handlers, in order. -/
  calls : List Command
deriving DecidableEq

/-- `nSetVolume`. -/
def nSetVolume (state : MidiState) (nVolume _nUseless1 _nUseless2 _nUseless3 : Int32) :
    MidiState × Int32 :=
  ({ state with nVolume := nVolume }, 0)

/-- `nProgramChange`: the channel of the event keeps the low eight bits. -/
def nProgramChange (state : MidiState) (nChannel nProgram _nUseless1 _nUseless2 : Int32) :
    MidiState × Int32 :=
  ({ state with output := state.output ++ [⟨UInt8.ofInt nChannel.toInt, nProgram⟩] }, 0)

/-- `MIDI_EVENT_UNIX_FUNCTION`. -/
def midiEventUnixFunction :
    Fin midiEventCount → MidiState → Int32 → Int32 → Int32 → Int32 → MidiState × Int32
  | 0 => nProgramChange
  | 1 => nSetVolume

/-- What goes wrong with a text: an access outside an array. -/
inductive CommandFault where
  /-- The table of formats is read behind its end. -/
  | tableOverrun
  /-- The terminator is written behind the receive buffer. -/
  | bufferOverrun
deriving DecidableEq, Repr

/-- What `%d` stores: the number as a `long`, clamped to its range, and of it the low half. -/
def storedInt (number : Int) : Int32 := Int32.ofInt (max (-2 ^ 63) (min number (2 ^ 63 - 1)))

/-- Calling the handler of a command: the new state, and the value returned. -/
def Command.call (command : Command) (state : MidiState) : MidiState × Int32 :=
  let result := midiEventUnixFunction command.nIndex state command.nPara1 command.nPara2
    command.nPara3 command.nPara4
  ({ result.1 with calls := state.calls ++ [command] }, result.2)

/-- The state after a command. -/
def Command.run (state : MidiState) (command : Command) : MidiState := (command.call state).1

/-- The loop of `executeCmdFromUnixSocket` from a place of the table on. -/
def executeFrom (pBuff : List UInt8) (state : MidiState) (nIndex : Nat) :
    Nat → Except CommandFault (MidiState × Int32)
  | 0 => .ok (state, -1)
  | remaining + 1 =>
    if inside : nIndex < midiEventCount then
      match scanFormat (directives (midiEventUnixFormat ⟨nIndex, inside⟩)) pBuff with
      | [nPara1, nPara2, nPara3, nPara4] =>
        .ok (Command.call ⟨⟨nIndex, inside⟩, storedInt nPara1, storedInt nPara2,
          storedInt nPara3, storedInt nPara4⟩ state)
      | _ => executeFrom pBuff state (nIndex + 1) remaining
    else .error .tableOverrun

/-- `executeCmdFromUnixSocket` on a text without its terminator. -/
def executeCmdFromUnixSocket (pBuff : List UInt8) (state : MidiState) :
    Except CommandFault (MidiState × Int32) :=
  executeFrom pBuff state 0 midiEventUnixFormatSize

/-- The text of a command: its integers printed by its format. -/
def Command.text (command : Command) : List UInt8 :=
  printFormat (directives (midiEventUnixFormat command.nIndex))
    [command.nPara1.toInt, command.nPara2.toInt, command.nPara3.toInt, command.nPara4.toInt]

/-! ## The formats -/

/-- Every format has four integers, each followed by a byte that is no digit. -/
theorem format_delimited (nIndex : Fin midiEventCount) :
    Delimited (directives (midiEventUnixFormat nIndex)) ∧
      arity (directives (midiEventUnixFormat nIndex)) = 4 := by
  revert nIndex
  decide

/-- The first byte of a format, by which the two are told apart. -/
def commandMark (nIndex : Fin midiEventCount) : UInt8 := if nIndex = 0 then 99 else 118

/-- A format begins with its first byte. -/
theorem format_begins (nIndex : Fin midiEventCount) :
    directives (midiEventUnixFormat nIndex) =
      .literal (commandMark nIndex) :: (directives (midiEventUnixFormat nIndex)).tail := by
  revert nIndex
  decide

/-- The number that a 32-bit integer prints is stored as it. -/
theorem storedInt_toInt (number : Int32) : storedInt number.toInt = number := by
  have low := number.le_toInt
  have high := number.toInt_lt
  have clamped : max (-2 ^ 63) (min number.toInt (2 ^ 63 - 1)) = number.toInt := by omega
  rw [storedInt, clamped, Int32.ofInt_toInt]

/-- A text with another first byte follows no format. -/
theorem scanFormat_unmarked {nIndex : Fin midiEventCount} {pBuff : List UInt8}
    (apart : pBuff.head? ≠ some (commandMark nIndex)) :
    scanFormat (directives (midiEventUnixFormat nIndex)) pBuff = [] := by
  rw [format_begins]
  cases pBuff with
  | nil => rfl
  | cons byte rest =>
    have differ : byte ≠ commandMark nIndex := by
      intro same
      rw [same] at apart
      exact apart rfl
    rw [scanFormat]
    exact if_neg differ

/-- The text of a command begins with the first byte of its format. -/
theorem Command.text_begins (command : Command) :
    command.text = commandMark command.nIndex ::
      printFormat (directives (midiEventUnixFormat command.nIndex)).tail
        [command.nPara1.toInt, command.nPara2.toInt, command.nPara3.toInt,
          command.nPara4.toInt] := by
  rw [Command.text, format_begins, printFormat, ← format_begins]

/-- Scanning the text of a command by its format stores its integers, whatever follows. -/
theorem Command.text_scans (command : Command) (rest : List UInt8) :
    scanFormat (directives (midiEventUnixFormat command.nIndex)) (command.text ++ rest) =
      [command.nPara1.toInt, command.nPara2.toInt, command.nPara3.toInt, command.nPara4.toInt] := by
  obtain ⟨delimited, four⟩ := format_delimited command.nIndex
  exact scanFormat_print delimited (by rw [four]; rfl) rest

/-! ## Execution -/

/-- The three rounds of the loop: the two formats, and the read behind the table. -/
theorem executeCmdFromUnixSocket_eq (pBuff : List UInt8) (state : MidiState) :
    executeCmdFromUnixSocket pBuff state =
      match scanFormat (directives (midiEventUnixFormat 0)) pBuff with
      | [nPara1, nPara2, nPara3, nPara4] =>
        .ok (Command.call ⟨0, storedInt nPara1, storedInt nPara2, storedInt nPara3,
          storedInt nPara4⟩ state)
      | _ =>
        match scanFormat (directives (midiEventUnixFormat 1)) pBuff with
        | [nPara1, nPara2, nPara3, nPara4] =>
          .ok (Command.call ⟨1, storedInt nPara1, storedInt nPara2, storedInt nPara3,
            storedInt nPara4⟩ state)
        | _ => .error .tableOverrun := rfl

/-- A text that is executed is one call, and it begins with the first byte of the format. -/
theorem executeCmdFromUnixSocket_cases (pBuff : List UInt8) (state : MidiState) :
    (∃ command : Command, pBuff.head? = some (commandMark command.nIndex) ∧
      executeCmdFromUnixSocket pBuff state = .ok (command.call state)) ∨
    executeCmdFromUnixSocket pBuff state = .error .tableOverrun := by
  have begins : ∀ (nIndex : Fin midiEventCount) (number : Int) (numbers : List Int),
      scanFormat (directives (midiEventUnixFormat nIndex)) pBuff = number :: numbers →
        pBuff.head? = some (commandMark nIndex) := by
    intro nIndex number numbers scanned
    by_contra apart
    rw [scanFormat_unmarked apart] at scanned
    cases scanned
  rw [executeCmdFromUnixSocket_eq]
  split
  · rename_i scanned
    exact .inl ⟨_, begins 0 _ _ scanned, rfl⟩
  · split
    · rename_i scanned
      exact .inl ⟨_, begins 1 _ _ scanned, rfl⟩
    · exact .inr rfl

/-- The text of a command calls its handler with its integers, whatever follows. -/
theorem executeCmdFromUnixSocket_text (command : Command) (rest : List UInt8) (state : MidiState) :
    executeCmdFromUnixSocket (command.text ++ rest) state = .ok (command.call state) := by
  have scans := command.text_scans rest
  have stored : (⟨command.nIndex, storedInt command.nPara1.toInt, storedInt command.nPara2.toInt,
      storedInt command.nPara3.toInt, storedInt command.nPara4.toInt⟩ : Command) = command := by
    simp only [storedInt_toInt]
  rw [executeCmdFromUnixSocket_eq]
  match place : command.nIndex with
  | 0 =>
    rw [place] at scans stored
    rw [scans]
    simp only [stored]
  | 1 =>
    have other : scanFormat (directives (midiEventUnixFormat 0)) (command.text ++ rest) = [] := by
      apply scanFormat_unmarked
      rw [command.text_begins, place, List.cons_append, List.head?_cons]
      decide
    rw [place] at scans stored
    rw [other, scans]
    simp only [stored]

/-- A command is one call. -/
@[simp] theorem Command.run_calls (state : MidiState) (command : Command) :
    (Command.run state command).calls = state.calls ++ [command] := rfl

/-- Commands in order are their calls in order. -/
theorem foldl_run_calls (commands : List Command) (state : MidiState) :
    (commands.foldl Command.run state).calls = state.calls ++ commands := by
  induction commands generalizing state with
  | nil => rw [List.foldl_nil, List.append_nil]
  | cons command commands ih =>
    rw [List.foldl_cons, ih, Command.run_calls, List.append_assoc, List.singleton_append]

end MidiDaemon
