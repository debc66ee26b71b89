import MidiDaemon.CommandStream

/-!
# What commands do

The text of a command that is delivered in one piece calls the handler of its format with its
integers, so after any commands the volume is that of the last volume command, and each program
change is an event (`commands_take_effect`).

On the way from the text to the event an integer gets narrower twice, and nothing checks that it
fits: `sscanf` keeps the low half of what it scanned, and the event keeps the low eight bits of
the channel. A channel above 255 is that of another instrument (`program_changes_exact_iff`).
-/

namespace MidiDaemon

open Scanf

/-! ## Commands in order -/

/-- The volume behind commands: that of the last volume command, or the one before. -/
def volumeBehind (nVolume : Int32) (commands : List Command) : Int32 :=
  let volumes := commands.filter fun command => command.nIndex = setVolumePlace
  (volumes.getLast?.map Command.nPara1).getD nVolume

/-- The events of commands: one for each program change, in order. -/
def programChanges (commands : List Command) : List ProgramChange :=
  (commands.filter fun command => command.nIndex = programChangePlace).map fun command =>
    ⟨UInt8.ofInt command.nPara1.toInt, command.nPara2⟩

/-- A command is executed by the handler of its format, with its integers, and by no other. -/
def CalledOnce (command : Command) (state : MidiState) : Prop :=
  ∃ result, executeCmdFromUnixSocket command.text state = .ok result ∧
    result.1.calls = state.calls ++ [command] ∧
    midiEventUnixFunction command.nIndex state command.nPara1 command.nPara2 command.nPara3
      command.nPara4 = ({ result.1 with calls := state.calls }, result.2)

/-- The text of a command is executed by its handler. -/
theorem Command.text_calledOnce (command : Command) (state : MidiState) :
    CalledOnce command state := by
  have executed := executeCmdFromUnixSocket_text command [] state
  rw [List.append_nil] at executed
  refine ⟨command.call state, executed, rfl, ?_⟩
  match place : command.nIndex with
  | 0 | 1 =>
    simp only [Command.call, place, midiEventUnixFunction, nProgramChange, nSetVolume]

/-- A volume command sets the volume. -/
theorem Command.run_volume {command : Command} (state : MidiState) (volume : command.nIndex = 1) :
    (Command.run state command).nVolume = command.nPara1 ∧
      (Command.run state command).output = state.output := by
  simp only [Command.run, Command.call, volume, midiEventUnixFunction, nSetVolume, and_self]

/-- A program change is an event. -/
theorem Command.run_program {command : Command} (state : MidiState) (program : command.nIndex = 0) :
    (Command.run state command).nVolume = state.nVolume ∧
      (Command.run state command).output =
        state.output ++ [⟨UInt8.ofInt command.nPara1.toInt, command.nPara2⟩] := by
  simp only [Command.run, Command.call, program, midiEventUnixFunction, nProgramChange, and_self]

/-- Commands take effect in order. -/
theorem foldl_run_effects (commands : List Command) (state : MidiState) :
    (commands.foldl Command.run state).nVolume = volumeBehind state.nVolume commands ∧
      (commands.foldl Command.run state).output = state.output ++ programChanges commands := by
  induction commands using List.reverseRecOn with
  | nil => exact ⟨rfl, (List.append_nil _).symm⟩
  | append_singleton commands command ih =>
    obtain ⟨volume, events⟩ := ih
    rw [List.foldl_append, List.foldl_cons, List.foldl_nil]
    match place : command.nIndex with
    | 0 =>
      have program := command.run_program (commands.foldl Command.run state) place
      rw [program.1, program.2, volume, events]
      constructor
      · simp [volumeBehind, place]
      · simp [programChanges, place]
    | 1 =>
      have loud := command.run_volume (commands.foldl Command.run state) place
      rw [loud.1, loud.2, events]
      constructor
      · simp [volumeBehind, place]
      · simp [programChanges, place]

/-- What commands do: whatever commands are sent and whatever the buffer and the state held, each
text calls the handler of its format once, with its four integers, and texts received one by one
leave the volume of the last volume command and one event for each program change, in order. -/
theorem commands_take_effect (commands : List Command) (cBuff : List UInt8) (state : MidiState)
    (size : cBuff.length = commandBufferLength) :
    (∀ command ∈ commands, ∀ state, CalledOnce command state) ∧
      ∃ final, (receiveCommands cBuff state (commands.map Command.text)).map Prod.snd = .ok final ∧
        final.calls = state.calls ++ commands ∧
        final.nVolume = volumeBehind state.nVolume commands ∧
        final.output = state.output ++ programChanges commands := by
  obtain ⟨volume, events⟩ := foldl_run_effects commands state
  refine ⟨fun command _ state => command.text_calledOnce state, commands.foldl Command.run state,
    receiveCommands_texts commands state size, foldl_run_calls commands state, volume, events⟩

/-- The rule at a program change and a volume. -/
theorem channelAndVolume_take_effect :
    (∀ command ∈ channelAndVolume, ∀ state, CalledOnce command state) ∧
      ∃ final, (receiveCommands (List.replicate 128 0) ⟨50, [], []⟩
          (channelAndVolume.map Command.text)).map Prod.snd = .ok final ∧
        final.calls = [] ++ channelAndVolume ∧
        final.nVolume = volumeBehind 50 channelAndVolume ∧
        final.output = [] ++ programChanges channelAndVolume :=
  commands_take_effect channelAndVolume (List.replicate 128 0) ⟨50, [], []⟩ rfl

example : volumeBehind 50 channelAndVolume = 80 ∧
    programChanges channelAndVolume = [⟨3, 40⟩] := by decide

/-! ## Channels that do not fit -/

/-- The text is read as a program change with these integers, however they are written. -/
def ReadsAs (text : List UInt8) (nChannel nInstrument nPara3 nPara4 : Int) : Prop :=
  scanFormat (directives (midiEventUnixFormat programChangePlace)) text =
    [nChannel, nInstrument, nPara3, nPara4]

/-- Executed from a state, the text is rejected without an event. -/
def RejectedText (text : List UInt8) (state : MidiState) : Prop :=
  ∃ result, executeCmdFromUnixSocket text state = .ok result ∧ result.2 < 0 ∧
    result.1.output = state.output

/-- Executed from a state, the text outputs this event. -/
def OutputsEvent (text : List UInt8) (state : MidiState) (event : ProgramChange) : Prop :=
  ∃ result, executeCmdFromUnixSocket text state = .ok result ∧
    result.1.output = state.output ++ [event]

/-- A command with this channel and this value is rejected or outputs exactly them, whatever the
other integers are and however all are written. -/
def PlayedExactly (nChannel nInstrument : Int) : Prop :=
  ∀ nPara3 nPara4 text state, ReadsAs text nChannel nInstrument nPara3 nPara4 →
    RejectedText text state ∨ ∃ event, OutputsEvent text state event ∧
      (event.channel.toNat : Int) = nChannel ∧ event.value.toInt = nInstrument

/-- Two commands with different channels do not output events of the same channel. -/
def PlayedApart (nChannel nInstrument otherChannel otherInstrument : Int) : Prop :=
  nChannel ≠ otherChannel → ∀ nPara3 nPara4 otherPara3 otherPara4 text otherText state otherState
    event otherEvent, ReadsAs text nChannel nInstrument nPara3 nPara4 →
    ReadsAs otherText otherChannel otherInstrument otherPara3 otherPara4 →
    OutputsEvent text state event → OutputsEvent otherText otherState otherEvent →
    event.channel ≠ otherEvent.channel

/-- The channel fits in the channel of an event, and the value in its value. -/
def ProgramFits (nChannel nInstrument : Int) : Prop :=
  0 ≤ nChannel ∧ nChannel < 2 ^ 8 ∧ -2 ^ 31 ≤ nInstrument ∧ nInstrument < 2 ^ 31

/-- An integer of any size is read back from its decimal. -/
theorem readsAs_printed (nChannel nInstrument nPara3 nPara4 : Int) :
    ReadsAs (printFormat (directives (midiEventUnixFormat programChangePlace))
      [nChannel, nInstrument, nPara3, nPara4]) nChannel nInstrument nPara3 nPara4 := by
  obtain ⟨delimited, four⟩ := format_delimited 0
  have scans := scanFormat_print delimited
    (show [nChannel, nInstrument, nPara3, nPara4].length = _ by rw [four]; rfl) []
  rwa [List.append_nil] at scans

/-- A program change outputs what is left of its integers, and is never rejected. -/
theorem ReadsAs.executes {text : List UInt8} {nChannel nInstrument nPara3 nPara4 : Int}
    (reads : ReadsAs text nChannel nInstrument nPara3 nPara4) (state : MidiState) :
    ∃ result, executeCmdFromUnixSocket text state = .ok result ∧ result.2 = 0 ∧
      result.1.output = state.output ++
        [⟨UInt8.ofInt (storedInt nChannel).toInt, storedInt nInstrument⟩] := by
  have scanned : scanFormat (directives (midiEventUnixFormat 0)) text =
      [nChannel, nInstrument, nPara3, nPara4] := reads
  rw [executeCmdFromUnixSocket_eq, scanned]
  exact ⟨_, rfl, rfl, rfl⟩

/-- The event of a program change is what is left of its integers. -/
theorem ReadsAs.outputs_iff {text : List UInt8} {nChannel nInstrument nPara3 nPara4 : Int}
    (reads : ReadsAs text nChannel nInstrument nPara3 nPara4) (state : MidiState)
    (event : ProgramChange) : OutputsEvent text state event ↔
      event = ⟨UInt8.ofInt (storedInt nChannel).toInt, storedInt nInstrument⟩ := by
  obtain ⟨result, executed, -, output⟩ := reads.executes state
  constructor
  · rintro ⟨other, same, added⟩
    rw [← Except.ok.inj (executed.symm.trans same), output] at added
    exact (List.cons.inj (List.append_cancel_left added)).1.symm
  · rintro rfl
    exact ⟨result, executed, output⟩

/-- An integer of 32 bits is stored as it is, and no other is. -/
theorem storedInt_exact_iff (number : Int) :
    (storedInt number).toInt = number ↔ -2 ^ 31 ≤ number ∧ number < 2 ^ 31 := by
  constructor
  · intro same
    have low := (storedInt number).le_toInt
    have high := (storedInt number).toInt_lt
    omega
  · rintro ⟨low, high⟩
    have clamped : max (-2 ^ 63) (min number (2 ^ 63 - 1)) = number := by omega
    rw [storedInt, clamped]
    exact Int32.toInt_ofInt_of_le low high

/-- The channel of the event is that of the command exactly when it fits in eight bits. -/
theorem channel_exact_iff (nChannel : Int) :
    ((UInt8.ofInt (storedInt nChannel).toInt).toNat : Int) = nChannel ↔
      0 ≤ nChannel ∧ nChannel < 2 ^ 8 := by
  constructor
  · intro same
    have bound := (UInt8.ofInt (storedInt nChannel).toInt).toNat_lt
    omega
  · rintro ⟨low, high⟩
    have stored := (storedInt_exact_iff nChannel).mpr ⟨by omega, by omega⟩
    rw [stored, UInt8.ofInt, UInt8.toNat_ofNat']
    omega

/-- A command is played exactly when its channel and its value fit. -/
theorem playedExactly_iff (nChannel nInstrument : Int) :
    PlayedExactly nChannel nInstrument ↔ ProgramFits nChannel nInstrument := by
  constructor
  · intro exactly
    have reads := readsAs_printed nChannel nInstrument 0 0
    rcases exactly 0 0 _ ⟨50, [], []⟩ reads with ⟨result, same, negative, -⟩ | ⟨event, output, fits⟩
    · obtain ⟨other, executed, zero, -⟩ := reads.executes ⟨50, [], []⟩
      rw [← Except.ok.inj (executed.symm.trans same), zero] at negative
      exact absurd negative (by decide)
    · rw [(reads.outputs_iff ⟨50, [], []⟩ event).mp output] at fits
      have channel := (channel_exact_iff nChannel).mp fits.1
      have value := (storedInt_exact_iff nInstrument).mp fits.2
      exact ⟨channel.1, channel.2, value.1, value.2⟩
  · rintro ⟨low, high, least, most⟩ nPara3 nPara4 text state reads
    refine .inr ⟨_, (reads.outputs_iff state _).mpr rfl, ?_, ?_⟩
    · exact (channel_exact_iff nChannel).mpr ⟨low, high⟩
    · exact (storedInt_exact_iff nInstrument).mpr ⟨least, most⟩

/-- When program changes are played exactly: for any two commands of any integers, however they
are written and whatever the state, each outputs its own channel and value, and different channels
stay apart, exactly when both channels fit in eight bits and both values in 32. -/
theorem program_changes_exact_iff (nChannel nInstrument otherChannel otherInstrument : Int) :
    PlayedExactly nChannel nInstrument ∧ PlayedExactly otherChannel otherInstrument ∧
        PlayedApart nChannel nInstrument otherChannel otherInstrument ↔
      ProgramFits nChannel nInstrument ∧ ProgramFits otherChannel otherInstrument := by
  rw [playedExactly_iff, playedExactly_iff]
  constructor
  · exact fun ⟨fits, otherFits, _⟩ => ⟨fits, otherFits⟩
  · rintro ⟨fits, otherFits⟩
    refine ⟨fits, otherFits, ?_⟩
    intro differ nPara3 nPara4 otherPara3 otherPara4 text otherText state otherState
      event otherEvent reads otherReads output otherOutput same
    have first := (channel_exact_iff nChannel).mpr ⟨fits.1, fits.2.1⟩
    have second := (channel_exact_iff otherChannel).mpr ⟨otherFits.1, otherFits.2.1⟩
    rw [(reads.outputs_iff state event).mp output,
      (otherReads.outputs_iff otherState otherEvent).mp otherOutput] at same
    apply differ
    rw [← first, ← second]
    exact congrArg (fun channel : UInt8 => (channel.toNat : Int)) same

/-- A program change of channel 256 is played on channel 0. -/
theorem channel_aliased :
    ¬ ∀ nChannel nInstrument otherChannel otherInstrument : Int,
      PlayedExactly nChannel nInstrument ∧ PlayedExactly otherChannel otherInstrument ∧
        PlayedApart nChannel nInstrument otherChannel otherInstrument := by
  intro always
  have fits := (playedExactly_iff 256 5).mp (always 256 5 0 5).1
  exact absurd fits.2.1 (by decide)

end MidiDaemon
