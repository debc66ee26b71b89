import MidiDaemon.BluetoothDecoding
import MidiDaemon.SerialReader

/-!
# The terminal of the serial port

`tGetUART_Config` sets the terminal up so that a carriage return ends a line like a line feed does.
A device that ends its lines with either is heard on the serial port. One that ends them with both
sends an empty line behind each of its own, and the reader, which plays whatever is in its array,
plays a second event for it. Over Bluetooth, where no terminal translates anything, only the line
feed ends a line, and with a return in front of it the line is none of eight digits
(`terminators_heard`).
-/

namespace MidiDaemon

open Framing Memory Scanf

/-- Flags of `c_iflag`. -/
inductive InputFlag where
  /-- `IGNPAR`. -/
  | ignpar
  /-- `ICRNL`. -/
  | icrnl
deriving DecidableEq, Repr

/-- Flags of `c_cflag`. -/
inductive ControlFlag where
  /-- `B115200`. -/
  | b115200
  /-- `CS8`. -/
  | cs8
  /-- `PARENB`. -/
  | parenb
  /-- `PARODD`. -/
  | parodd
  /-- `CLOCAL`. -/
  | clocal
  /-- `CREAD`. -/
  | cread
deriving DecidableEq, Repr

/-- Flags of `c_lflag`. -/
inductive LocalFlag where
  /-- `ICANON`. -/
  | icanon
deriving DecidableEq, Repr

/-- Places of `c_cc`. -/
inductive ControlCharacter where
  | vintr | vquit | verase | vkill | veof | vtime | vmin | vswtc | vstart | vstop | vsusp | veol
  | vreprint | vdiscard | vwerase | vlnext | veol2
deriving DecidableEq, Repr

/-- `struct termios`. -/
structure Termios where
  /-- `c_iflag`. -/
  c_iflag : List InputFlag
  /-- `c_oflag`, no flag of which is ever set. -/
  c_oflag : List Empty
  /-- `c_cflag`. -/
  c_cflag : List ControlFlag
  /-- `c_lflag`. -/
  c_lflag : List LocalFlag
  /-- `c_cc`. -/
  c_cc : ControlCharacter → UInt8

/-- `tGetUART_Config`. -/
def tGetUART_Config : Termios where
  c_iflag := [.ignpar, .icrnl]
  c_oflag := []
  c_cflag := [.b115200, .cs8, .parenb, .parodd, .clocal, .cread]
  c_lflag := [.icanon]
  c_cc
    | .veof => 4
    | .vmin => 1
    | _ => 0

/-- The carriage return. -/
def carriageReturn : UInt8 := 13

/-- What the terminal makes of a byte that it receives. -/
def Termios.input (config : Termios) (byte : UInt8) : UInt8 :=
  if .icrnl ∈ config.c_iflag ∧ byte = carriageReturn then noteFrameEndSymbol else byte

/-- A byte edits or ends a line; a place of `c_cc` that is zero is not used, and the others need
flags that are not set. -/
def Termios.edits (config : Termios) (byte : UInt8) : Bool :=
  byte ≠ 0 && [.verase, .vkill, .veof, .veol].any fun place => config.c_cc place = byte

/-- What `read` returns, one call after the other, for the bytes received: lines, as long as no byte
edits them. -/
def terminalReads (config : Termios) (wire : List UInt8) : Option (List (List UInt8)) :=
  let stream := wire.map config.input
  if .icanon ∈ config.c_lflag ∧ stream.any config.edits = false then
    some (ttyReads stream)
  else none

/-- How a device ends a line. -/
inductive Terminator where
  /-- With a carriage return. -/
  | cr
  /-- With a line feed. -/
  | lf
  /-- With both. -/
  | crlf
deriving DecidableEq, Repr

/-- The bytes at the end of a line. -/
def Terminator.bytes : Terminator → List UInt8
  | .cr => [carriageReturn]
  | .lf => [noteFrameEndSymbol]
  | .crlf => [carriageReturn, noteFrameEndSymbol]

/-- A line that a device sends. -/
structure SentNote where
  /-- The case of its digits. -/
  upper : Nat → Bool
  /-- Its event. -/
  event : NoteEvent
  /-- Its end. -/
  terminator : Terminator

/-- The bytes of the line. -/
def SentNote.bytes (note : SentNote) : List UInt8 :=
  noteLine note.upper note.event ++ note.terminator.bytes

/-- What an empty line behind that of an event plays: its line feed stands over the first digit. -/
def NoteEvent.shifted (event : NoteEvent) : NoteEvent :=
  { event with type := UInt8.ofNat (event.type.toNat % 16 * 16 + event.channel.toNat / 16) }

/-- The events heard for a line. -/
def SentNote.heard (note : SentNote) : List NoteEvent :=
  match note.terminator with
  | .cr | .lf => [note.event]
  | .crlf => [note.event, note.event.shifted]

/-! ## Bytes of a line -/

/-- A byte is sent as two digits. -/
theorem hexByte_digits (upperHigh upperLow : Bool) (byte : UInt8) :
    HexDigits (hexByte upperHigh upperLow byte) := by
  have bound := byte.toNat_lt
  intro digit member
  rcases List.mem_cons.mp member with high | low
  · rw [high, digitValue_hexDigit upperHigh (by omega)]
    rfl
  · rw [List.mem_singleton.mp low, digitValue_hexDigit upperLow (Nat.mod_lt _ (by decide))]
    rfl

/-- A line of digits holds digits. -/
theorem noteLine_digits (upper : Nat → Bool) (event : NoteEvent) :
    HexDigits (noteLine upper event) := by
  intro byte member
  simp only [noteLine, List.mem_append] at member
  rcases member with ((type | channel) | note) | velocity
  · exact hexByte_digits _ _ _ byte type
  · exact hexByte_digits _ _ _ byte channel
  · exact hexByte_digits _ _ _ byte note
  · exact hexByte_digits _ _ _ byte velocity

/-- What is not a digit is not in a line of digits. -/
theorem noteLine_apart {byte : UInt8} (dark : digitValue 16 byte = none) (upper : Nat → Bool)
    (event : NoteEvent) : byte ∉ noteLine upper event := by
  intro member
  have digit := noteLine_digits upper event byte member
  rw [dark] at digit
  cases digit

/-- The terminal leaves a line of digits as it is. -/
theorem noteLine_input (upper : Nat → Bool) (event : NoteEvent) :
    (noteLine upper event).map tGetUART_Config.input = noteLine upper event := by
  have same : ∀ byte ∈ noteLine upper event, tGetUART_Config.input byte = byte := by
    intro byte member
    apply if_neg
    rintro ⟨_, returned⟩
    rw [returned] at member
    exact noteLine_apart (by decide) upper event member
  rw [List.map_congr_left same, List.map_id'']
  exact fun _ => rfl

/-- One byte alone has a place in `c_cc`. -/
theorem edits_iff (byte : UInt8) : tGetUART_Config.edits byte = true ↔ byte = 4 := by
  constructor
  · intro edits
    have ⟨nonzero, place⟩ := Bool.and_eq_true_iff.mp edits
    have apart : byte ≠ 0 := of_decide_eq_true nonzero
    simp only [tGetUART_Config, List.any_cons, List.any_nil, Bool.or_eq_true,
      Bool.false_eq_true, or_false] at place
    rcases place with zero | zero | four | zero
    · exact absurd (of_decide_eq_true zero).symm apart
    · exact absurd (of_decide_eq_true zero).symm apart
    · exact (of_decide_eq_true four).symm
    · exact absurd (of_decide_eq_true zero).symm apart
  · intro four
    rw [four]
    decide

/-- No digit and no line feed edits a line. -/
theorem plain_unedited {byte : UInt8}
    (plain : (digitValue 16 byte).isSome ∨ byte = noteFrameEndSymbol) :
    tGetUART_Config.edits byte = false := by
  by_contra edits
  have four := (edits_iff byte).mp (by simpa using edits)
  rw [four] at plain
  exact absurd plain (by decide)

/-- The bytes of some lines. -/
def wireOf (sent : List SentNote) : List UInt8 := sent.flatMap SentNote.bytes

/-- What the terminal reads for a line, one call after the other. -/
def SentNote.reads (note : SentNote) : List (List UInt8) :=
  (noteLine note.upper note.event ++ [noteFrameEndSymbol]) ::
    match note.terminator with
    | .cr | .lf => []
    | .crlf => [[noteFrameEndSymbol]]

/-- The terminal ends each line with line feeds. -/
theorem wire_input (sent : List SentNote) :
    (wireOf sent).map tGetUART_Config.input = sent.flatMap fun note => note.reads.flatten := by
  have every : ∀ note : SentNote,
      note.bytes.map tGetUART_Config.input = note.reads.flatten := by
    intro note
    rw [SentNote.bytes, List.map_append, noteLine_input, SentNote.reads]
    cases note.terminator with
    | cr => rfl
    | lf => rfl
    | crlf =>
      rw [List.flatten_cons, List.append_assoc]
      rfl
  rw [wireOf, List.map_flatMap]
  exact List.flatMap_congr fun note _ => every note

/-- The first line of a stream is read first. -/
theorem ttyReads_line {line : List UInt8} (unstopped : noteFrameEndSymbol ∉ line)
    (short : line.length ≤ 8) (rest : List UInt8) :
    ttyReads (line ++ [noteFrameEndSymbol] ++ rest) =
      (line ++ [noteFrameEndSymbol]) :: ttyReads rest := by
  have once : lineReads (line ++ [noteFrameEndSymbol]) = [line ++ [noteFrameEndSymbol]] := by
    rw [lineReads, if_pos]
    have nine : noteFrameLength = 9 := rfl
    rw [List.length_append, List.length_singleton]
    omega
  rw [ttyReads, List.append_assoc, List.singleton_append, lines_stop rest unstopped,
    List.flatMap_cons, once]
  rfl

/-- The terminal reads each line at once, and an empty line behind it when both terminators were
sent. -/
theorem terminal_reads (sent : List SentNote) :
    terminalReads tGetUART_Config (wireOf sent) = some (sent.flatMap SentNote.reads) := by
  have canonical : LocalFlag.icanon ∈ tGetUART_Config.c_lflag := by decide
  have unedited : ∀ byte ∈ (wireOf sent).map tGetUART_Config.input,
      tGetUART_Config.edits byte = false := by
    rw [wire_input]
    intro byte member
    have ⟨note, _, among⟩ := List.mem_flatMap.mp member
    apply plain_unedited
    have either : byte ∈ noteLine note.upper note.event ∨ byte = noteFrameEndSymbol := by
      rw [SentNote.reads, List.flatten_cons, List.append_assoc] at among
      cases terminator : note.terminator <;>
        simpa [terminator, or_assoc] using among
    exact either.imp_left (noteLine_digits note.upper note.event byte)
  rw [terminalReads, if_pos ⟨canonical, List.any_eq_false.mpr fun byte member => by
    simp [unedited byte member]⟩, wire_input]
  congr 1
  induction sent with
  | nil => rfl
  | cons note sent ih =>
    have later : ttyReads (sent.flatMap fun note => note.reads.flatten) =
        sent.flatMap SentNote.reads := by
      apply ih
      intro byte member
      apply unedited
      rw [wire_input] at member ⊢
      exact List.mem_append_right _ member
    have first := ttyReads_line (noteLine_unstopped note.upper note.event)
      (Nat.le_of_eq (noteLine_length _ _))
    have empty := @ttyReads_line [] (by simp) (by simp)
    rw [List.flatMap_cons, List.flatMap_cons, SentNote.reads]
    cases note.terminator with
    | cr => simp only [List.flatten_cons, List.flatten_nil, List.append_nil, first, later]; rfl
    | lf => simp only [List.flatten_cons, List.flatten_nil, List.append_nil, first, later]; rfl
    | crlf =>
      simp only [List.flatten_cons, List.flatten_nil, List.append_nil]
      rw [List.append_assoc, first]
      have second : ttyReads ([noteFrameEndSymbol] ++
          sent.flatMap fun note => note.reads.flatten) = _ := empty _
      rw [second, later]
      rfl

/-! ## What is heard on the serial port -/

/-- The first byte matters to the type alone. -/
theorem generateEventContent_head (unEventData : Fin noteFrameDataNumber → UInt8)
    (first other : UInt8) (rest : List UInt8) :
    generateEventContent unEventData (first :: rest) =
      { generateEventContent unEventData (other :: rest) with
        type := (scanHexByte (first :: rest)).getD (unEventData ⟨0, by decide⟩) } := by
  simp [generateEventContent]

/-- A line feed over the first digit shifts the type of the event. -/
theorem generateEventContent_shifted (unEventData : Fin noteFrameDataNumber → UInt8)
    (upper : Nat → Bool) (event : NoteEvent) (rest : List UInt8) :
    generateEventContent unEventData
      (noteFrameEndSymbol :: ((noteLine upper event).tail ++ rest)) = event.shifted := by
  have low := digitValue_hexDigit (upper 1) (Nat.mod_lt event.type.toNat (by decide : 0 < 16))
  have bound := event.channel.toNat_lt
  have high := digitValue_hexDigit (upper 2) (show event.channel.toNat / 16 < 16 by omega)
  have line : noteLine upper event = hexDigit (upper 0) (event.type.toNat / 16) ::
      (noteLine upper event).tail := rfl
  have front : ∃ behind, (noteLine upper event).tail = hexDigit (upper 1) (event.type.toNat % 16) ::
      hexDigit (upper 2) (event.channel.toNat / 16) :: behind := ⟨_, rfl⟩
  have ⟨behind, digits⟩ := front
  have whole := generateEventContent_noteLine unEventData upper event rest
  rw [line, List.cons_append] at whole
  rw [generateEventContent_head _ noteFrameEndSymbol (hexDigit (upper 0) (event.type.toNat / 16)),
    whole, NoteEvent.shifted]
  have blank : ∀ byte ∈ [noteFrameEndSymbol], isSpace byte = true := by
    simp [noteFrameEndSymbol, isSpace]
  have scanned : scanHexByte (noteFrameEndSymbol :: ((noteLine upper event).tail ++ rest)) =
      some (UInt8.ofNat (event.type.toNat % 16 * 16 + event.channel.toNat / 16)) := by
    rw [digits, scanHexByte, ← List.singleton_append, scanInteger_blanks 16 2 blank,
      List.cons_append, List.cons_append, scanInteger_pair low high, Option.map_some, UInt8.ofInt]
    congr 2
    omega
  rw [scanned]
  rfl

/-- The array after the line of an event. -/
theorem uartRead_empty (upper : Nat → Bool) (event : NoteEvent) :
    uartRead (noteLine upper event ++ [0]) [noteFrameEndSymbol] =
      noteFrameEndSymbol :: ((noteLine upper event).tail ++ [0]) := rfl

/-- Each line is heard, and an empty one behind it is too. -/
theorem uartEvents_sent (sent : List SentNote) (residue : Nat → StackResidue) (cBuff : List UInt8)
    (size : cBuff.length = noteFrameLength) :
    uartEvents residue cBuff (sent.flatMap SentNote.reads) = sent.flatMap SentNote.heard := by
  induction sent generalizing residue cBuff with
  | nil => rfl
  | cons note sent ih =>
    have read := uartRead_line size (noteLine_length note.upper note.event)
    have played (residue : StackResidue) :
        playFrame residue (noteLine note.upper note.event ++ [0]) = note.event := by
      rw [playFrame, List.append_assoc, generateEventContent_noteLine]
    have again (residue : StackResidue) :
        playFrame residue (noteFrameEndSymbol :: ((noteLine note.upper note.event).tail ++ [0])) =
          note.event.shifted := by
      rw [playFrame, List.cons_append, List.append_assoc, generateEventContent_shifted]
    have filled : (noteLine note.upper note.event ++ [0]).length = noteFrameLength := by
      rw [List.length_append, noteLine_length]
      rfl
    have shifted : (noteFrameEndSymbol :: ((noteLine note.upper note.event).tail ++ [0])).length =
        noteFrameLength := by
      rw [List.length_cons, List.length_append, List.length_tail, noteLine_length]
      rfl
    rw [List.flatMap_cons, List.flatMap_cons, SentNote.reads, SentNote.heard]
    cases note.terminator with
    | cr | lf =>
      rw [List.singleton_append, List.singleton_append, uartEvents, read, played, ih _ _ filled]
    | crlf =>
      rw [List.cons_append, List.singleton_append, uartEvents, read, played, uartEvents,
        uartRead_empty, again, ih _ _ shifted]
      rfl

/-! ## What is heard over Bluetooth -/

/-- The lines that end with a line feed alone. -/
def feedOnly (sent : List SentNote) : List SentNote :=
  sent.filter fun note => note.terminator = .lf

/-- A line is a frame over Bluetooth exactly when a line feed ends it, whatever lines without
one stand in front of it. -/
theorem frames_sent (sent : List SentNote) (front : List UInt8)
    (unstopped : noteFrameEndSymbol ∉ front) (whole : front.length % 9 = 0) :
    (lines noteFrameEndSymbol (front ++ wireOf sent)).filterMap (frameOf noteFrameEndSymbol 8) =
      (feedOnly sent).map fun note => noteLine note.upper note.event ++ [noteFrameEndSymbol] := by
  induction sent generalizing front with
  | nil =>
    have alone : front ++ wireOf [] = front := List.append_nil front
    rw [alone, lines_open unstopped]
    rfl
  | cons note sent ih =>
    let line := noteLine note.upper note.event
    have eight : line.length = 8 := noteLine_length note.upper note.event
    have joined : noteFrameEndSymbol ∉ front ++ line := by
      rw [List.mem_append]
      exact not_or.mpr ⟨unstopped, noteLine_unstopped note.upper note.event⟩
    have returned : noteFrameEndSymbol ∉ front ++ line ++ [carriageReturn] := by
      rw [List.mem_append]
      exact not_or.mpr ⟨joined, by decide⟩
    have split : front ++ wireOf (note :: sent) =
        front ++ line ++ note.terminator.bytes ++ wireOf sent := by
      simp only [wireOf, List.flatMap_cons, SentNote.bytes, line, List.append_assoc]
    rw [split]
    cases terminator : note.terminator with
    | cr =>
      have kept : feedOnly (note :: sent) = feedOnly sent := by simp [feedOnly, terminator]
      rw [kept]
      apply ih _ returned
      simp only [List.length_append, List.length_singleton, eight]
      omega
    | lf =>
      have kept : feedOnly (note :: sent) = note :: feedOnly sent := by simp [feedOnly, terminator]
      have places : (front ++ line).length % (8 + 1) = 8 := by
        rw [List.length_append, eight]
        omega
      have block : blockOf 8 (front ++ line) = line := by
        have begins : (front ++ line).length / (8 + 1) * (8 + 1) = front.length := by
          rw [List.length_append, eight]
          omega
        rw [blockOf, begins, List.drop_left]
      have framed : frameOf noteFrameEndSymbol 8 (front ++ line) =
          some (line ++ [noteFrameEndSymbol]) := by
        rw [frameOf, if_pos places, block]
      have later := ih [] (by simp) rfl
      rw [List.nil_append] at later
      have stopped : front ++ line ++ Terminator.lf.bytes ++ wireOf sent =
          (front ++ line) ++ noteFrameEndSymbol :: wireOf sent := by simp [Terminator.bytes]
      rw [stopped, lines_stop _ joined, List.filterMap_cons_some framed, later, kept]
      rfl
    | crlf =>
      have kept : feedOnly (note :: sent) = feedOnly sent := by simp [feedOnly, terminator]
      have places : (front ++ line ++ [carriageReturn]).length % (8 + 1) ≠ 8 := by
        rw [List.length_append, List.length_append, List.length_singleton, eight]
        omega
      have unframed : frameOf noteFrameEndSymbol 8 (front ++ line ++ [carriageReturn]) = none := by
        rw [frameOf, if_neg places]
      have later := ih [] (by simp) rfl
      rw [List.nil_append] at later
      have stopped : front ++ line ++ Terminator.crlf.bytes ++ wireOf sent =
          (front ++ line ++ [carriageReturn]) ++ noteFrameEndSymbol :: wireOf sent := by
        simp [Terminator.bytes]
      rw [stopped, lines_stop _ returned, List.filterMap_cons_none unframed, later, kept]

/-- Which terminators are heard: for all lines of eight digits, each ended by a carriage return, a
line feed or both, on the serial port each event is output, followed by a second one with a shifted
type when both were sent; over Bluetooth, however the same bytes are cut, the events of the lines
that end with a line feed alone. -/
theorem terminators_heard (sent : List SentNote) (results : List (List UInt8))
    (accepted : BtReader.start.AcceptsAll results) (same : results.flatten = wireOf sent)
    (serial bluetooth : Nat → StackResidue) :
    (∃ reads, terminalReads tGetUART_Config (wireOf sent) = some reads ∧
      uartEvents serial (List.replicate noteFrameLength 0) reads =
        sent.flatMap SentNote.heard) ∧
      playFrames bluetooth (BtReader.start.receiveAll results).2 =
        (feedOnly sent).map SentNote.event := by
  constructor
  · exact ⟨_, terminal_reads sent, uartEvents_sent sent serial _ List.length_replicate⟩
  · have frames := frames_sent sent [] (by simp) rfl
    have notes := playFrames_noteLines bluetooth
      ((feedOnly sent).map fun note => (note.upper, note.event))
    rw [List.nil_append, ← same, ← BtReader.receiveAll_frames accepted] at frames
    rw [List.map_map, List.map_map] at notes
    rw [frames]
    exact notes

/-- The rule at three lines, each ended in its way. -/
theorem terminators_heard_three :
    let capitals : Nat → Bool := fun _ => true
    let sent : List SentNote := [⟨capitals, ⟨0x06, 0x01, 0xAE, 0x2C⟩, .cr⟩,
      ⟨capitals, ⟨0x07, 0x01, 0xAE, 0x00⟩, .lf⟩, ⟨capitals, ⟨0x06, 0x10, 0xAE, 0x2C⟩, .crlf⟩]
    (∃ reads, terminalReads tGetUART_Config (wireOf sent) = some reads ∧
      uartEvents (fun _ => ⟨fun _ => 7, []⟩) (List.replicate noteFrameLength 0) reads =
        [⟨0x06, 0x01, 0xAE, 0x2C⟩, ⟨0x07, 0x01, 0xAE, 0x00⟩, ⟨0x06, 0x10, 0xAE, 0x2C⟩,
          ⟨0x61, 0x10, 0xAE, 0x2C⟩]) ∧
      playFrames (fun _ => ⟨fun _ => 9, []⟩) (BtReader.start.receiveAll
        [ascii "0601AE2C\r", ascii "0701AE00\n", ascii "0610AE2C\r", ascii "\n"]).2 =
          [⟨0x07, 0x01, 0xAE, 0x00⟩] := by
  intro capitals sent
  have accepted : BtReader.start.AcceptsAll
      [ascii "0601AE2C\r", ascii "0701AE00\n", ascii "0610AE2C\r", ascii "\n"] := by decide
  have heard : sent.flatMap SentNote.heard = [⟨0x06, 0x01, 0xAE, 0x2C⟩, ⟨0x07, 0x01, 0xAE, 0x00⟩,
      ⟨0x06, 0x10, 0xAE, 0x2C⟩, ⟨0x61, 0x10, 0xAE, 0x2C⟩] := by decide
  have fed : (feedOnly sent).map SentNote.event = [⟨0x07, 0x01, 0xAE, 0x00⟩] := by decide
  have rule := terminators_heard sent _ accepted (by decide) (fun _ => ⟨fun _ => 7, []⟩)
    (fun _ => ⟨fun _ => 9, []⟩)
  rw [heard, fed] at rule
  exact rule

end MidiDaemon
