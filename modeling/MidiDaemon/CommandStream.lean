import MidiDaemon.Commands
import MidiDaemon.Library.Blocks
import MidiDaemon.Strings

/-!
# Commands received in pieces

`updateMidiAttr` executes each result of `recv` as one text, up to its first terminator, and
keeps nothing of it. So the commands of a client are executed exactly when every result is
one command, whole (`commands_executed_iff`): a result that holds two executes the first of
them, and one that holds a part of a command executes a cut-off number or reads behind the
table of formats.
-/

namespace MidiDaemon

open Memory Scanf Blocks

/-- The size of the receive buffer. -/
def commandBufferLength : Nat := 128

/-- `recv` has returned these bytes: they are terminated and executed. -/
def receiveCommand (cBuff : List UInt8) (state : MidiState) (received : List UInt8) :
    Except CommandFault (List UInt8 × MidiState) :=
  let nRc := received.length
  let cBuff := memcpy cBuff 0 received
  if nRc < commandBufferLength then
    let cBuff := cBuff.set nRc 0
    (executeCmdFromUnixSocket (cString cBuff) state).map fun result => (cBuff, result.1)
  else .error .bufferOverrun

/-- `recv` has returned these results, one after the other. -/
def receiveCommands (cBuff : List UInt8) (state : MidiState) :
    List (List UInt8) → Except CommandFault (List UInt8 × MidiState)
  | [] => .ok (cBuff, state)
  | received :: rest =>
    match receiveCommand cBuff state received with
    | .ok (cBuff, state) => receiveCommands cBuff state rest
    | .error fault => .error fault

/-- A result of `recv` has a byte at least, and fits in the buffer. -/
def Receivable (received : List UInt8) : Prop :=
  1 ≤ received.length ∧ received.length ≤ commandBufferLength

instance (received : List UInt8) : Decidable (Receivable received) :=
  inferInstanceAs (Decidable (_ ∧ _))

/-! ## The text of a result -/

/-- The bytes received are terminated in the buffer, and keep its size. -/
theorem terminated_eq {cBuff received : List UInt8} (size : cBuff.length = commandBufferLength)
    (fits : received.length < commandBufferLength) :
    ∃ rest, (memcpy cBuff 0 received).set received.length 0 = received ++ 0 :: rest ∧
      (received ++ 0 :: rest).length = commandBufferLength := by
  have room : received.length < cBuff.length := by
    rw [size]
    exact fits
  obtain ⟨old, behind⟩ : ∃ old, cBuff.drop received.length =
      old :: cBuff.drop (received.length + 1) := ⟨_, List.drop_eq_getElem_cons room⟩
  refine ⟨cBuff.drop (received.length + 1), ?_, ?_⟩
  · rw [memcpy_zero, behind, List.set_append_right _ _ (Nat.le_refl _), Nat.sub_self]
    rfl
  · rw [List.length_append, List.length_cons, List.length_drop, size]
    omega

/-- A result is executed as the text of its own bytes, whatever the buffer held before. -/
theorem receiveCommand_eq {cBuff received : List UInt8} (state : MidiState)
    (size : cBuff.length = commandBufferLength) (fits : received.length < commandBufferLength) :
    ∃ after, after.length = commandBufferLength ∧
      receiveCommand cBuff state received =
        (executeCmdFromUnixSocket (received.takeWhile (· ≠ 0)) state).map
          fun result => (after, result.1) := by
  obtain ⟨rest, terminated, whole⟩ := terminated_eq size fits
  refine ⟨received ++ 0 :: rest, whole, ?_⟩
  simp only [receiveCommand, if_pos fits, terminated, cString_terminated]

/-! ## The bytes of commands -/

/-- The first bytes of the formats, where commands begin. -/
def isMark (byte : UInt8) : Bool := byte = 99 || byte = 118

/-- The first byte of a format is a mark. -/
theorem isMark_commandMark (nIndex : Fin midiEventCount) : isMark (commandMark nIndex) = true := by
  revert nIndex
  decide

/-- A byte of an integer is no mark and no terminator. -/
theorem integerByte_apart {byte : UInt8} (integer : IntegerByte byte) :
    isMark byte = false ∧ byte ≠ 0 := by
  rcases integer with rfl | ⟨digit, small, rfl⟩
  · decide
  · interval_cases digit <;> decide

/-- The bytes of a format behind its first one are no marks, and none is a terminator. -/
theorem format_apart (nIndex : Fin midiEventCount) :
    ∀ byte ∈ (directives (midiEventUnixFormat nIndex)).tail.flatMap Directive.own,
      isMark byte = false ∧ byte ≠ 0 := by
  have all : ∀ nIndex : Fin midiEventCount,
      ((directives (midiEventUnixFormat nIndex)).tail.flatMap Directive.own).all
        (fun byte => !isMark byte && byte != 0) := by decide
  intro byte member
  have apart := List.all_eq_true.mp (all nIndex) byte member
  simpa using apart

/-- The text of a command is marked: it begins with the first byte of its format, and no other
byte of it is the first byte of a format. -/
theorem Command.text_marked (command : Command) : Marked isMark command.text := by
  rw [command.text_begins]
  refine ⟨⟨_, rfl, isMark_commandMark command.nIndex⟩, fun byte member => ?_⟩
  rcases mem_printFormat member with own | integer
  · exact (format_apart command.nIndex byte own).1
  · exact (integerByte_apart integer).1

/-- There is no terminator in the text of a command. -/
theorem Command.text_unterminated (command : Command) :
    command.text.takeWhile (· ≠ 0) = command.text := by
  apply List.takeWhile_eq_self_iff.mpr
  intro byte member
  rw [command.text_begins] at member
  have apart : byte ≠ 0 := by
    rcases List.mem_cons.mp member with rfl | among
    · have mark := isMark_commandMark command.nIndex
      intro zero
      rw [zero] at mark
      exact absurd mark (by decide)
    · rcases mem_printFormat among with own | integer
      · exact (format_apart command.nIndex byte own).2
      · exact (integerByte_apart integer).2
  simpa using apart

/-- The text of a command fits in the receive buffer with its terminator. -/
theorem Command.text_fits (command : Command) :
    1 ≤ command.text.length ∧ command.text.length < commandBufferLength := by
  constructor
  · rw [command.text_begins]
    exact Nat.succ_pos _
  · have short : ∀ number : Int32, (printInteger number.toInt).length ≤ 11 := by
      intro number
      have low := number.le_toInt
      have high := number.toInt_lt
      exact printInteger_length (by omega) (by decide)
    have directive_count : ∀ nIndex : Fin midiEventCount,
        (directives (midiEventUnixFormat nIndex)).length ≤ 60 := by decide
    have bound : command.text.length ≤
        (directives (midiEventUnixFormat command.nIndex)).length + 4 * 11 :=
      printFormat_length (by simp [short])
    have few := directive_count command.nIndex
    have size : commandBufferLength = 128 := rfl
    omega

/-! ## Results of one command, and others -/

variable {cBuff received : List UInt8} {state : MidiState}

/-- A result that is the text of a command executes it. -/
theorem receiveCommand_text (command : Command) (state : MidiState)
    (size : cBuff.length = commandBufferLength) :
    ∃ after, after.length = commandBufferLength ∧
      receiveCommand cBuff state command.text = .ok (after, Command.run state command) := by
  obtain ⟨after, kept, result⟩ := receiveCommand_eq state size command.text_fits.2
  refine ⟨after, kept, ?_⟩
  have executed := executeCmdFromUnixSocket_text command [] state
  rw [List.append_nil] at executed
  rw [result, command.text_unterminated, executed]
  rfl

/-- A result that is executed is one call, and begins with a mark. -/
theorem receiveCommand_ok {after : List UInt8 × MidiState}
    (size : cBuff.length = commandBufferLength)
    (executed : receiveCommand cBuff state received = .ok after) :
    Begins isMark received ∧ after.1.length = commandBufferLength ∧
      ∃ command, after.2 = Command.run state command := by
  have fits : received.length < commandBufferLength := by
    by_contra overrun
    simp only [receiveCommand, if_neg overrun, reduceCtorEq] at executed
  obtain ⟨buffer, kept, result⟩ := receiveCommand_eq state size fits
  rw [result] at executed
  rcases executeCmdFromUnixSocket_cases (received.takeWhile (· ≠ 0)) state with
    ⟨command, begins, called⟩ | overrun
  · rw [called] at executed
    have same : (buffer, (command.call state).1) = after := Except.ok.inj executed
    subst same
    refine ⟨⟨commandMark command.nIndex, ?_, isMark_commandMark command.nIndex⟩, kept, command, rfl⟩
    cases received with
    | nil => cases begins
    | cons byte rest =>
      rw [List.takeWhile_cons] at begins
      split at begins
      · exact begins
      · cases begins
  · rw [overrun] at executed
    cases executed

/-- Results that are executed are as many calls, and each begins with a mark. -/
theorem receiveCommands_ok {results : List (List UInt8)} {after : List UInt8 × MidiState}
    (size : cBuff.length = commandBufferLength)
    (executed : receiveCommands cBuff state results = .ok after) :
    (∀ received ∈ results, Begins isMark received) ∧
      ∃ commands : List Command, commands.length = results.length ∧
        after.2 = commands.foldl Command.run state := by
  induction results generalizing cBuff state with
  | nil =>
    have same : (cBuff, state) = after := Except.ok.inj executed
    subst same
    exact ⟨fun _ member => absurd member List.not_mem_nil, [], rfl, rfl⟩
  | cons received rest ih =>
    rw [receiveCommands] at executed
    split at executed
    · rename_i buffer middle first
      obtain ⟨begins, kept, command, ran⟩ := receiveCommand_ok size first
      obtain ⟨others, commands, count, final⟩ := ih kept executed
      refine ⟨?_, command :: commands, by simp [count], ?_⟩
      · intro other member
        rcases List.mem_cons.mp member with rfl | later
        · exact begins
        · exact others other later
      · rw [List.foldl_cons, ← ran]
        exact final
    · cases executed

/-- Results that are the texts of commands execute these commands. -/
theorem receiveCommands_texts (commands : List Command) (state : MidiState)
    (size : cBuff.length = commandBufferLength) :
    (receiveCommands cBuff state (commands.map Command.text)).map Prod.snd =
      .ok (commands.foldl Command.run state) := by
  induction commands generalizing cBuff state with
  | nil => rfl
  | cons command commands ih =>
    obtain ⟨after, kept, first⟩ := receiveCommand_text command state size
    rw [List.map_cons, receiveCommands, first, List.foldl_cons]
    exact ih (Command.run state command) kept

/-- When the commands of a client are executed: whatever commands are sent and whatever the
buffer held, they are executed, once each, in order and with their integers, exactly when each
result of `recv` is the whole text of one command. -/
theorem commands_executed_iff (commands : List Command) (results : List (List UInt8))
    (cBuff : List UInt8) (state : MidiState) (size : cBuff.length = commandBufferLength)
    (sent : results.flatten = commands.flatMap Command.text) :
    (receiveCommands cBuff state results).map Prod.snd = .ok (commands.foldl Command.run state) ↔
      results = commands.map Command.text := by
  constructor
  · intro executed
    cases outcome : receiveCommands cBuff state results with
    | error fault =>
      rw [outcome] at executed
      cases executed
    | ok after =>
      rw [outcome] at executed
      have final : after.2 = commands.foldl Command.run state := Except.ok.inj executed
      obtain ⟨begins, called, count, same⟩ := receiveCommands_ok size outcome
      -- The calls that were made are the commands, so there are as many results.
      have calls : state.calls ++ called = state.calls ++ commands := by
        rw [← foldl_run_calls, ← foldl_run_calls, ← same, final]
      have called_all : called = commands := List.append_cancel_left calls
      have marked : ∀ text ∈ commands.map Command.text, Marked isMark text := by
        intro text member
        obtain ⟨command, -, rfl⟩ := List.mem_map.mp member
        exact command.text_marked
      apply begins_injective begins marked
      · rw [sent, List.flatMap_def]
      · rw [List.length_map, ← count, called_all]
  · intro whole
    rw [whole]
    exact receiveCommands_texts commands state size

/-- A program change and a volume. -/
def channelAndVolume : List Command :=
  let zero := Int32.ofNat 0
  [⟨⟨0, Nat.two_pos⟩, Int32.ofNat 3, Int32.ofNat 40, zero, zero⟩,
    ⟨⟨1, Nat.one_lt_two⟩, Int32.ofNat 80, zero, zero, zero⟩]

/-- The rule at a program change and a volume, each in a result of its own. -/
theorem commands_executed_apart :
    (receiveCommands (List.replicate 128 0) ⟨50, [], []⟩ (channelAndVolume.map Command.text)).map
        Prod.snd = .ok (channelAndVolume.foldl Command.run ⟨50, [], []⟩) :=
  (commands_executed_iff channelAndVolume _ _ _ rfl (by rw [List.flatMap_def])).mpr rfl

/-- Of a program change and a volume in one result, the volume is lost. -/
theorem commands_lost :
    ¬ ∀ (commands : List Command) (results : List (List UInt8)) (cBuff : List UInt8)
      (state : MidiState), cBuff.length = commandBufferLength →
      (∀ received ∈ results, Receivable received) →
      results.flatten = commands.flatMap Command.text →
      (receiveCommands cBuff state results).map Prod.snd =
        .ok (commands.foldl Command.run state) := by
  intro always
  let results : List (List UInt8) := [channelAndVolume.flatMap Command.text]
  have executed := always channelAndVolume results (List.replicate 128 0) ⟨50, [], []⟩ rfl
    (by decide) rfl
  cases outcome : receiveCommands (List.replicate 128 0) ⟨50, [], []⟩ results with
  | error fault =>
    rw [outcome] at executed
    cases executed
  | ok after =>
    rw [outcome] at executed
    have final : after.2 = channelAndVolume.foldl Command.run ⟨50, [], []⟩ :=
      Except.ok.inj executed
    obtain ⟨-, called, count, same⟩ := receiveCommands_ok rfl outcome
    have calls : called = channelAndVolume := by
      have all := congrArg MidiState.calls (same.symm.trans final)
      rwa [foldl_run_calls, foldl_run_calls] at all
    rw [calls] at count
    exact absurd count (by decide)

end MidiDaemon
