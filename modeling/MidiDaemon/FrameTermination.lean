import MidiDaemon.SerialReader

/-!
# Frames as strings

Both readers print their array with `%s` and scan it with `sscanf`, from four places. The
serial reader writes a terminator into the last place first. The Bluetooth reader has the end
symbol there, so a frame is terminated inside its array only when one of the two bytes in front
of the end symbol happens to be zero (`frames_terminated_iff`).
-/

namespace MidiDaemon

open Framing Memory

/-- The places of an array from which it is read as a string: by `printf`, and by `sscanf` for each
field. -/
def stringPlaces : List Nat := 0 :: (List.range noteFrameDataNumber).map (· * 2)

/-- A terminator stands in the array, from a place on. -/
def TerminatedFrom (cBuff : List UInt8) (place : Nat) : Prop :=
  ∃ index, place ≤ index ∧ index < noteFrameLength ∧ cBuff[index]? = some 0

/-- Every string that is read in the array ends in it. -/
def Terminated (cBuff : List UInt8) : Prop := ∀ place ∈ stringPlaces, TerminatedFrom cBuff place

/-- The arrays that `UART_clientService` prints and scans, one after each read. -/
def uartArrays (cBuff : List UInt8) : List (List UInt8) → List (List UInt8)
  | [] => []
  | received :: rest =>
    let cBuff := uartRead cBuff received
    cBuff :: uartArrays cBuff rest

/-- The events of the serial reader are those of its arrays. -/
theorem uartEvents_eq (residue : Nat → StackResidue) (cBuff : List UInt8)
    (reads : List (List UInt8)) :
    uartEvents residue cBuff reads = playFrames residue (uartArrays cBuff reads) := by
  induction reads generalizing residue cBuff with
  | nil => rfl
  | cons received rest ih =>
    rw [uartEvents, uartArrays, playFrames, List.mapIdx_cons, ih]
    rfl

/-- A terminator behind the last place ends every string. -/
theorem terminated_iff {cBuff : List UInt8} : Terminated cBuff ↔ TerminatedFrom cBuff 6 := by
  constructor
  · intro terminated
    exact terminated 6 (by decide)
  · rintro ⟨index, beyond, inside, zero⟩ place member
    have bound : ∀ other ∈ stringPlaces, other ≤ 6 := by decide
    exact ⟨index, Nat.le_trans (bound place member) beyond, inside, zero⟩

/-- A read keeps the size of the array and terminates it. -/
theorem uartRead_terminated {cBuff received : List UInt8} (size : cBuff.length = noteFrameLength)
    (asked : received.length ≤ noteFrameLength) :
    (uartRead cBuff received).length = noteFrameLength ∧ Terminated (uartRead cBuff received) := by
  have nine : noteFrameLength = 9 := rfl
  have whole : (memcpy cBuff 0 received).length = noteFrameLength := by
    rw [memcpy_length (by omega), size]
  refine ⟨by rw [uartRead, List.length_set, whole],
    terminated_iff.mpr ⟨8, by decide, by decide, ?_⟩⟩
  exact List.getElem?_set_self (by rw [whole]; decide)

/-- The arrays of the serial reader are terminated. -/
theorem uartArrays_terminated {cBuff : List UInt8} {reads : List (List UInt8)}
    (size : cBuff.length = noteFrameLength)
    (asked : ∀ received ∈ reads, received.length ≤ noteFrameLength) :
    ∀ array ∈ uartArrays cBuff reads, Terminated array := by
  induction reads generalizing cBuff with
  | nil => exact fun _ member => absurd member List.not_mem_nil
  | cons received rest ih =>
    obtain ⟨whole, terminated⟩ := uartRead_terminated size (asked received List.mem_cons_self)
    intro array member
    rcases List.mem_cons.mp member with rfl | later
    · exact terminated
    · exact ih whole (fun other among => asked other (.tail _ among)) array later

/-- Eight bytes and the end symbol are terminated exactly when one of the last two bytes is zero. -/
theorem terminated_block {block : List UInt8} (eight : block.length = 8) :
    Terminated (block ++ [noteFrameEndSymbol]) ↔ (0 : UInt8) ∈ block.drop 6 := by
  rw [terminated_iff]
  match block, eight with
  | [a, b, c, d, e, f, first, second], _ =>
    constructor
    · rintro ⟨index, beyond, inside, zero⟩
      have nine : noteFrameLength = 9 := rfl
      obtain rfl | rfl | rfl : index = 6 ∨ index = 7 ∨ index = 8 := by omega
      · have same : first = 0 := Option.some.inj zero
        simp [same]
      · have same : second = 0 := Option.some.inj zero
        simp [same]
      · -- The last place holds the end symbol.
        exact absurd (Option.some.inj zero) (by decide)
    · intro member
      rcases List.mem_cons.mp member with same | among
      · exact ⟨6, Nat.le_refl 6, by decide, congrArg some same.symm⟩
      · have same : 0 = second := List.mem_singleton.mp among
        exact ⟨7, by decide, by decide, congrArg some same.symm⟩

/-- A frame is terminated exactly when one of the last two bytes of its line is zero. -/
theorem frame_terminated_iff {line frame : List UInt8}
    (framed : frameOf noteFrameEndSymbol 8 line = some frame) :
    Terminated frame ↔ (0 : UInt8) ∈ line.drop (line.length - 2) := by
  unfold frameOf at framed
  split at framed
  · rename_i full
    have eight : (blockOf 8 line).length = 8 := by rw [blockOf_length, full]
    have place : line.length / (8 + 1) * (8 + 1) + 6 = line.length - 2 := by
      have division := Nat.div_add_mod' line.length (8 + 1)
      omega
    rw [← Option.some.inj framed, terminated_block eight, blockOf, List.drop_drop, place]
  · cases framed

/-- When frames are terminated where they are used as strings: for any reads of the serial
port, any byte stream sent over Bluetooth and any way it is cut, exactly when each line of the
stream that completes a frame has a zero byte in one of its last two places. -/
theorem frames_terminated_iff (reads results : List (List UInt8))
    (asked : ∀ received ∈ reads, received.length ≤ noteFrameLength)
    (accepted : BtReader.start.AcceptsAll results) :
    ((∀ cBuff ∈ uartArrays (List.replicate noteFrameLength 0) reads, Terminated cBuff) ∧
      ∀ cBuff ∈ (BtReader.start.receiveAll results).2, Terminated cBuff) ↔
      ∀ line ∈ lines noteFrameEndSymbol results.flatten, line.length % 9 = 8 →
        (0 : UInt8) ∈ line.drop (line.length - 2) := by
  rw [BtReader.receiveAll_frames accepted]
  constructor
  · rintro ⟨-, terminated⟩ line member full
    have framed : frameOf noteFrameEndSymbol 8 line =
        some (blockOf 8 line ++ [noteFrameEndSymbol]) := if_pos full
    exact (frame_terminated_iff framed).mp
      (terminated _ (List.mem_filterMap.mpr ⟨line, member, framed⟩))
  · intro zero
    refine ⟨uartArrays_terminated List.length_replicate asked, fun frame member => ?_⟩
    obtain ⟨line, among, framed⟩ := List.mem_filterMap.mp member
    have full : line.length % 9 = 8 := by
      by_contra other
      rw [frameOf, if_neg other] at framed
      cases framed
    exact (frame_terminated_iff framed).mpr (zero line among full)

/-- A frame whose last digit is a zero byte. -/
def frameWithZero : List UInt8 := ascii "0601AE2" ++ [0] ++ ascii "\n"

/-- The rule at a short read and an end of file, and at this frame. -/
theorem frames_terminated_short :
    (∀ cBuff ∈ uartArrays (List.replicate noteFrameLength 0) [ascii "06\n", []], Terminated cBuff) ∧
      ∀ cBuff ∈ (BtReader.start.receiveAll [frameWithZero]).2, Terminated cBuff :=
  (frames_terminated_iff [ascii "06\n", []] [frameWithZero] (by decide) (by decide)).mpr
    (by decide)

/-- It is handed over. -/
example : (BtReader.start.receiveAll [frameWithZero]).2 = [frameWithZero] := by decide

/-- A note received over Bluetooth is not terminated in its array. -/
theorem frame_unterminated :
    ¬ ∀ reads results : List (List UInt8),
      (∀ received ∈ reads, received.length ≤ noteFrameLength) →
      BtReader.start.AcceptsAll results →
      (∀ cBuff ∈ uartArrays (List.replicate noteFrameLength 0) reads, Terminated cBuff) ∧
        ∀ cBuff ∈ (BtReader.start.receiveAll results).2, Terminated cBuff := by
  intro always
  have accepted : BtReader.start.AcceptsAll [ascii "0601AE2C\n"] := by decide
  obtain ⟨-, terminated⟩ := always [] [ascii "0601AE2C\n"] (by decide) accepted
  have frame : ascii "0601AE2C\n" ∈ (BtReader.start.receiveAll [ascii "0601AE2C\n"]).2 := by decide
  have eight : (ascii "0601AE2C").length = 8 := rfl
  have zero := (terminated_block eight).mp (terminated _ frame)
  exact absurd zero (by decide)

end MidiDaemon
