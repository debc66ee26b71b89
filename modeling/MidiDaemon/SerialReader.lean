import MidiDaemon.NoteDecoding

/-!
# The serial port and Bluetooth

`UART_clientService` reads the same note frames from a serial port. It counts on the line
discipline of the terminal to cut the stream into lines and plays whatever a read returned:
the array is never cleared, its last place is overwritten by a terminator, and nothing checks
that a frame is in it. The Bluetooth reader puts frames together itself and plays nothing
else. So the two agree on a stream exactly when each of its lines is a frame
(`serial_agrees_iff`).
-/

namespace MidiDaemon

open Framing Memory Scanf

/-- `UART_clientService`: the array after a read, terminated in its last place. -/
def uartRead (cBuff received : List UInt8) : List UInt8 :=
  (memcpy cBuff 0 received).set (noteFrameLength - 1) 0

/-- The events that are output for reads, one after the other. -/
def uartEvents (residue : Nat → StackResidue) (cBuff : List UInt8) :
    List (List UInt8) → List NoteEvent
  | [] => []
  | received :: rest =>
    let cBuff := uartRead cBuff received
    playFrame (residue 0) cBuff :: uartEvents (fun call => residue (call + 1)) cBuff rest

/-- The reads of one line with its end: as many bytes as are asked for, and what is left. -/
def lineReads (line : List UInt8) : List (List UInt8) :=
  if line.length ≤ noteFrameLength then [line]
  else line.take noteFrameLength :: lineReads (line.drop noteFrameLength)
termination_by line.length
decreasing_by
  rw [List.length_drop]
  have nine : noteFrameLength = 9 := rfl
  omega

/-- The reads of a stream from a terminal in canonical mode: line by line, and no byte of a line
that has not ended. -/
def ttyReads (stream : List UInt8) : List (List UInt8) :=
  (lines noteFrameEndSymbol stream).flatMap fun line => lineReads (line ++ [noteFrameEndSymbol])

/-! ## Counting -/

/-- A read is an event. -/
@[simp] theorem uartEvents_length (residue : Nat → StackResidue) (cBuff : List UInt8)
    (reads : List (List UInt8)) : (uartEvents residue cBuff reads).length = reads.length := by
  induction reads generalizing residue cBuff with
  | nil => rfl
  | cons received rest ih => simp [uartEvents, ih]

/-- A frame is an event. -/
@[simp] theorem playFrames_length (residue : Nat → StackResidue) (frames : List (List UInt8)) :
    (playFrames residue frames).length = frames.length := by
  simp [playFrames]

/-- A line is read once at least, and more than once when it is longer than the array. -/
theorem lineReads_length (line : List UInt8) :
    1 ≤ (lineReads line).length ∧
      (noteFrameLength < line.length → 2 ≤ (lineReads line).length) := by
  rw [lineReads]
  split
  · rename_i short
    exact ⟨Nat.le_refl _, fun long => absurd short (Nat.not_le_of_lt long)⟩
  · have rest : 1 ≤ (lineReads (line.drop noteFrameLength)).length := by
      rw [lineReads]
      split <;> simp
    rw [List.length_cons]
    exact ⟨by omega, fun _ => by omega⟩

/-- As many reads as frames of some lines means that each line is a frame. -/
theorem count_lines (ends : List (List UInt8)) :
    (ends.filterMap (frameOf noteFrameEndSymbol 8)).length ≤
        (ends.flatMap fun line => lineReads (line ++ [noteFrameEndSymbol])).length ∧
      ((ends.flatMap fun line => lineReads (line ++ [noteFrameEndSymbol])).length ≤
        (ends.filterMap (frameOf noteFrameEndSymbol 8)).length →
          ∀ line ∈ ends, line.length = 8) := by
  induction ends with
  | nil => exact ⟨Nat.le_refl _, fun _ _ member => absurd member List.not_mem_nil⟩
  | cons line ends ih =>
    obtain ⟨fewer, all⟩ := ih
    obtain ⟨once, twice⟩ := lineReads_length (line ++ [noteFrameEndSymbol])
    have nine : noteFrameLength = 9 := rfl
    rw [List.length_append, List.length_singleton, nine] at twice
    rw [List.flatMap_cons, List.length_append]
    cases framed : frameOf noteFrameEndSymbol 8 line with
    | none =>
      rw [List.filterMap_cons_none framed]
      exact ⟨by omega, fun equal => by omega⟩
    | some frame =>
      rw [List.filterMap_cons_some framed, List.length_cons]
      refine ⟨by omega, fun equal other member => ?_⟩
      have short : line.length ≤ 8 := by
        by_contra long
        have again := twice (by omega)
        omega
      have remainder : line.length % (8 + 1) = 8 := by
        by_contra other_place
        rw [frameOf, if_neg other_place] at framed
        cases framed
      rcases List.mem_cons.mp member with rfl | later
      · omega
      · exact all (by omega) other later

/-- Agreement makes every complete line a frame. -/
theorem lines_of_agreement {stream : List UInt8} {results : List (List UInt8)}
    {serial bluetooth : Nat → StackResidue} {cBuff : List UInt8}
    (accepted : BtReader.start.AcceptsAll results) (sent : results.flatten = stream)
    (agree : uartEvents serial cBuff (ttyReads stream) =
      playFrames bluetooth (BtReader.start.receiveAll results).2) :
    ∀ line ∈ lines noteFrameEndSymbol stream, line.length = 8 := by
  have counts := congrArg List.length agree
  rw [uartEvents_length, playFrames_length, BtReader.receiveAll_frames accepted, sent] at counts
  exact (count_lines (lines noteFrameEndSymbol stream)).2 (Nat.le_of_eq counts)

/-! ## Lines of eight digits -/

/-- A stream of hexadecimal digits and line feeds. -/
def HexStream (stream : List UInt8) : Prop :=
  ∀ byte ∈ stream, byte = noteFrameEndSymbol ∨ (digitValue 16 byte).isSome

instance (stream : List UInt8) : Decidable (HexStream stream) :=
  List.decidableBAll (fun byte => byte = noteFrameEndSymbol ∨ (digitValue 16 byte).isSome) stream

/-- The bytes of a line of a stream of digits are digits. -/
theorem HexStream.line_digits {stream line : List UInt8} (hex : HexStream stream)
    (member : line ∈ lines noteFrameEndSymbol stream) :
    HexDigits line := by
  obtain ⟨front, back, rfl, unstopped, -⟩ := mem_lines.mp member
  intro byte among
  rcases hex byte (by simp [among]) with stopped | digit
  · rw [stopped] at among
    exact absurd among unstopped
  · exact digit

/-- A line of eight digits plays the same event whatever the stack held and whatever follows. -/
theorem generateEventContent_digits {line : List UInt8} (eight : line.length = 8)
    (digits : HexDigits line) (unEventData : Fin noteFrameDataNumber → UInt8) (rest : List UInt8) :
    generateEventContent unEventData (line ++ rest) = generateEventContent (fun _ => 0) line := by
  obtain ⟨event, note⟩ := Option.isSome_iff_exists.mp ((noteOf_isSome eight).mpr digits)
  have alone := generateEventContent_note note (fun _ => 0) []
  rw [List.append_nil] at alone
  rw [generateEventContent_note note, alone]

/-- The line of a frame is read at once, and stands in front of the terminator. -/
theorem uartRead_line {cBuff line : List UInt8} (size : cBuff.length = noteFrameLength)
    (eight : line.length = 8) : uartRead cBuff (line ++ [noteFrameEndSymbol]) = line ++ [0] := by
  have nine : noteFrameLength = 9 := rfl
  have whole : memcpy cBuff 0 (line ++ [noteFrameEndSymbol]) = line ++ [noteFrameEndSymbol] := by
    rw [memcpy_zero, List.drop_of_length_le, List.append_nil]
    rw [List.length_append, List.length_singleton, size, eight, nine]
  rw [uartRead, whole, List.set_append_right _ _ (by rw [eight, nine]), eight]
  rfl

/-- Lines of eight digits are read and played one by one. -/
theorem uartEvents_lines {ends : List (List UInt8)} {decode : List UInt8 → NoteEvent}
    (decodes : ∀ line ∈ ends, ∀ unEventData rest,
      generateEventContent unEventData (line ++ rest) = decode line)
    (eight : ∀ line ∈ ends, line.length = 8) (residue : Nat → StackResidue) (cBuff : List UInt8)
    (size : cBuff.length = noteFrameLength) :
    uartEvents residue cBuff (ends.flatMap fun line => lineReads (line ++ [noteFrameEndSymbol])) =
      ends.map decode := by
  induction ends generalizing residue cBuff with
  | nil => rfl
  | cons line ends ih =>
    have here := eight line List.mem_cons_self
    have once : lineReads (line ++ [noteFrameEndSymbol]) = [line ++ [noteFrameEndSymbol]] := by
      rw [lineReads, if_pos]
      rw [List.length_append, List.length_singleton, here]
      decide
    have read := uartRead_line size here
    have later := ih (fun other member => decodes other (.tail _ member))
      (fun other member => eight other (.tail _ member)) (fun call => residue (call + 1))
      (line ++ [0]) (by rw [List.length_append, List.length_singleton, here]; rfl)
    rw [List.flatMap_cons, once, List.singleton_append, uartEvents, read, later, List.map_cons,
      playFrame, List.append_assoc, decodes line List.mem_cons_self]

/-- The frames of lines of eight digits are played one by one. -/
theorem playFrames_lines {ends : List (List UInt8)} {decode : List UInt8 → NoteEvent}
    (decodes : ∀ line ∈ ends, ∀ unEventData rest,
      generateEventContent unEventData (line ++ rest) = decode line)
    (eight : ∀ line ∈ ends, line.length = 8) (residue : Nat → StackResidue) :
    playFrames residue (ends.filterMap (frameOf noteFrameEndSymbol 8)) = ends.map decode := by
  have framed : ends.filterMap (frameOf noteFrameEndSymbol 8) =
      ends.map fun line => line ++ [noteFrameEndSymbol] := by
    rw [← List.filterMap_eq_map]
    apply List.filterMap_congr
    intro line member
    exact frameOf_exact 8 (eight line member)
  rw [framed]
  apply List.ext_getElem
  · simp
  · intro index inside _
    have bound : index < ends.length := by simpa using inside
    have event := decodes ends[index] (List.getElem_mem bound)
    simp [playFrames, playFrame, event]

/-- When the serial port agrees with Bluetooth: for every stream of digits and line feeds,
cut for the Bluetooth reader in any way, and whatever is found in memory, the two readers
output the same events exactly when every line that has ended has eight digits. -/
theorem serial_agrees_iff {stream : List UInt8} (hex : HexStream stream)
    {results : List (List UInt8)} (accepted : BtReader.start.AcceptsAll results)
    (sent : results.flatten = stream) (serial bluetooth : Nat → StackResidue) :
    uartEvents serial (List.replicate noteFrameLength 0) (ttyReads stream) =
        playFrames bluetooth (BtReader.start.receiveAll results).2 ↔
      ∀ line ∈ lines noteFrameEndSymbol stream, line.length = 8 := by
  constructor
  · exact lines_of_agreement accepted sent
  · intro eight
    have decodes : ∀ line ∈ lines noteFrameEndSymbol stream, ∀ unEventData rest,
        generateEventContent unEventData (line ++ rest) = generateEventContent (fun _ => 0) line :=
      fun line member => generateEventContent_digits (eight line member) (hex.line_digits member)
    rw [ttyReads, uartEvents_lines decodes eight serial _ List.length_replicate,
      BtReader.receiveAll_frames accepted, sent, playFrames_lines decodes eight bluetooth]

/-- The rule at two frames. -/
theorem serial_agrees_frames :
    uartEvents (fun _ => ⟨fun _ => 7, []⟩) (List.replicate noteFrameLength 0)
        (ttyReads (ascii "0601AE2C\n0600AE00\n")) =
      playFrames (fun _ => ⟨fun _ => 9, []⟩)
        (BtReader.start.receiveAll [ascii "0601A", ascii "E2C\n", ascii "0600AE00\n"]).2 :=
  (serial_agrees_iff (by decide) (by decide) (by decide) _ _).mpr (by decide)

/-- An empty line is an event on the serial port and none over Bluetooth. -/
theorem serial_disagrees :
    ¬ ∀ (stream : List UInt8) (results : List (List UInt8)) (serial bluetooth : Nat → StackResidue),
      HexStream stream → BtReader.start.AcceptsAll results → results.flatten = stream →
      uartEvents serial (List.replicate noteFrameLength 0) (ttyReads stream) =
        playFrames bluetooth (BtReader.start.receiveAll results).2 := by
  intro always
  have agree := always (ascii "\n") [ascii "\n"] (fun _ => ⟨fun _ => 0, []⟩)
    (fun _ => ⟨fun _ => 0, []⟩) (by decide) (by decide) rfl
  have accepted : BtReader.start.AcceptsAll [ascii "\n"] := by decide
  have empty : [] ∈ lines noteFrameEndSymbol (ascii "\n") := by decide
  have eight := lines_of_agreement accepted rfl agree [] empty
  exact absurd eight (by decide)

end MidiDaemon
