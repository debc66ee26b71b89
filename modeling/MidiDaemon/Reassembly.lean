import MidiDaemon.Library.Framing
import MidiDaemon.Library.Memory
import MidiDaemon.NoteEvent

/-!
# Reassembly of note frames received over Bluetooth

`BT_clientService` keeps an array of one frame, filled from the front. It asks `recv` for as
many bytes as are missing, and after each result it calls `handleReceivedDataCrossTwoFrame`,
which looks for the first end symbol: at the end of the array it completes a frame, anywhere
else it is dropped with the bytes in front of it, through the scratch array `cTemp`. A full
array without an end symbol is cleared.

The fill level is kept only as the number of bytes that are missing, and every byte behind it
is zero (`Holds`). Under that invariant an iteration is a delivery of the framing library, of
width eight (`receive_holds`), so a run of the loop collects what the scanner of the library
makes of the byte stream (`receiveAll_frames`).
-/

namespace MidiDaemon

open Memory

/-- The size of the scratch array `cTemp`. -/
def scratchLength : Nat := 32

/-- `handleReceivedDataCrossTwoFrame`: the array afterwards and the value returned. The search
of the source is over the bytes already read, in order. -/
def handleReceivedDataCrossTwoFrame (pBuff : List UInt8) (nAlreadyReadLength nBuffLen : Nat) :
    List UInt8 × Nat :=
  match (pBuff.take nAlreadyReadLength).findIdx? (· = noteFrameEndSymbol) with
  | some nEndSymbolPos =>
    if nEndSymbolPos = nBuffLen - 1 then (pBuff, nBuffLen)
    else
      let nRest := nAlreadyReadLength - nEndSymbolPos - 1
      let cTemp := List.replicate scratchLength 0
      let cTemp := memcpy cTemp 0 ((pBuff.drop (nEndSymbolPos + 1)).take nRest)
      let pBuff := memset pBuff 0 nBuffLen
      (memcpy pBuff 0 (cTemp.take nRest), nRest)
  | none =>
    if nAlreadyReadLength = nBuffLen then (memset pBuff 0 nBuffLen, 0)
    else (pBuff, nAlreadyReadLength)

/-- The variables of the receive loop. -/
structure BtReader where
  /-- The array `cBuff`. -/
  cBuff : List UInt8
  /-- The number of bytes that the next `recv` asks for. -/
  nNeedToReadByte : Int
deriving DecidableEq, Repr

namespace BtReader

/-- The variables before the loop and after each frame. -/
def start : BtReader := ⟨List.replicate noteFrameLength 0, noteFrameLength⟩

/-- One iteration in which `recv` has returned some bytes, and the frame passed to
`generateEventContent` in it, if any. -/
def receive (reader : BtReader) (received : List UInt8) : BtReader × Option (List UInt8) :=
  let nFilled := noteFrameLength - reader.nNeedToReadByte
  let cBuff := memcpy reader.cBuff nFilled.toNat received
  let nNeedToReadByte := reader.nNeedToReadByte - received.length
  let handled := handleReceivedDataCrossTwoFrame cBuff (noteFrameLength - nNeedToReadByte).toNat
    noteFrameLength
  let nNeedToReadByte : Int := noteFrameLength - handled.2
  if nNeedToReadByte = 0 then (start, some handled.1)
  else (⟨handled.1, nNeedToReadByte⟩, none)

/-- The results `recv` can have when it returns data: at least one byte and no more than asked. -/
def Accepts (reader : BtReader) (received : List UInt8) : Prop :=
  0 < received.length ∧ (received.length : Int) ≤ reader.nNeedToReadByte

instance (reader : BtReader) (received : List UInt8) : Decidable (reader.Accepts received) :=
  inferInstanceAs (Decidable (_ ∧ _))

/-- Iteration after iteration, collecting the frames. -/
def receiveAll (reader : BtReader) : List (List UInt8) → BtReader × List (List UInt8)
  | [] => (reader, [])
  | received :: rest =>
    let head := reader.receive received
    let tail := receiveAll head.1 rest
    (tail.1, head.2.toList ++ tail.2)

/-- Every result is one that the loop accepts when it gets it. -/
def AcceptsAll (reader : BtReader) : List (List UInt8) → Prop
  | [] => True
  | received :: rest => reader.Accepts received ∧ AcceptsAll (reader.receive received).1 rest

instance decidableAcceptsAll (reader : BtReader) :
    (results : List (List UInt8)) → Decidable (reader.AcceptsAll results)
  | [] => inferInstanceAs (Decidable True)
  | received :: rest =>
    have := decidableAcceptsAll (reader.receive received).1 rest
    inferInstanceAs (Decidable (_ ∧ _))

/-- The loop invariant: the array holds these bytes and zeros behind them, and the rest of the
array is what the next `recv` asks for. -/
structure Holds (reader : BtReader) (pending : List UInt8) : Prop where
  /-- There is room for one byte at least. -/
  short : pending.length ≤ 8
  /-- The bytes kept stand at the front of the array. -/
  filled : reader.cBuff = pending ++ List.replicate (noteFrameLength - pending.length) 0
  /-- The rest of the array is asked for. -/
  needed : reader.nNeedToReadByte = noteFrameLength - pending.length

/-- Before the loop the array is empty. -/
theorem start_holds : start.Holds [] := ⟨by decide, rfl, rfl⟩

end BtReader

/-- A buffer that fits in the array fills it with the zeros behind it. -/
theorem padded_length {buffer : List UInt8} (fits : buffer.length ≤ noteFrameLength) :
    (buffer ++ List.replicate (noteFrameLength - buffer.length) (0 : UInt8)).length =
      noteFrameLength := by
  rw [List.length_append, List.length_replicate]
  omega

/-- The first end symbol is not the last place of the array: the bytes behind it move to the
front through the scratch array, and zeros follow them. -/
theorem handle_shift {buffer : List UInt8} {position : Nat} (fits : buffer.length ≤ noteFrameLength)
    (found : buffer.findIdx? (· = noteFrameEndSymbol) = some position) (inner : position ≠ 8) :
    handleReceivedDataCrossTwoFrame
        (buffer ++ List.replicate (noteFrameLength - buffer.length) 0) buffer.length
          noteFrameLength =
      (buffer.drop (position + 1) ++
        List.replicate (noteFrameLength - (buffer.drop (position + 1)).length) 0,
        (buffer.drop (position + 1)).length) := by
  have inside : position < buffer.length := by
    obtain ⟨bound, -⟩ := List.findIdx?_eq_some_iff_getElem.mp found
    exact bound
  have count : (buffer.drop (position + 1)).length = buffer.length - position - 1 := by
    rw [List.length_drop]
    omega
  have behind : ((buffer ++ List.replicate (noteFrameLength - buffer.length) 0).drop
      (position + 1)).take (buffer.length - position - 1) = buffer.drop (position + 1) := by
    rw [List.drop_append_of_le_length (by omega), List.take_append_of_le_length (by omega),
      List.take_of_length_le (by omega)]
  have size := padded_length fits
  have through : ((buffer.drop (position + 1)) ++ (List.replicate scratchLength (0 : UInt8)).drop
      (buffer.drop (position + 1)).length).take (buffer.length - position - 1) =
        buffer.drop (position + 1) := by
    rw [List.take_left' count]
  have not_last : position ≠ noteFrameLength - 1 := inner
  rw [handleReceivedDataCrossTwoFrame, List.take_left, found]
  simp only [if_neg not_last, behind, memcpy_zero]
  rw [through, memset_all 0 size, List.drop_replicate, count]

/-- What the search makes of an array whose first bytes are the buffer of the library: the same
frame, or the same bytes kept with zeros behind them. -/
theorem handle_cut {buffer : List UInt8} (fits : buffer.length ≤ noteFrameLength) :
    handleReceivedDataCrossTwoFrame
        (buffer ++ List.replicate (noteFrameLength - buffer.length) 0) buffer.length
          noteFrameLength =
      match Framing.cut noteFrameEndSymbol 8 buffer with
      | (_, some frame) => (frame, noteFrameLength)
      | (kept, none) =>
        (kept ++ List.replicate (noteFrameLength - kept.length) 0, kept.length) := by
  have nine : noteFrameLength = 9 := rfl
  have size := padded_length fits
  cases found : buffer.findIdx? (· = noteFrameEndSymbol) with
  | none =>
    rw [handleReceivedDataCrossTwoFrame, List.take_left, Framing.cut, found]
    by_cases full : buffer.length = noteFrameLength
    · simp only [if_pos full, if_pos (show buffer.length = 8 + 1 from full)]
      rw [memset_all 0 size]
      rfl
    · simp only [if_neg full, if_neg (show buffer.length ≠ 8 + 1 from full)]
  | some position =>
    by_cases last : position = 8
    · -- The end symbol is in the last place, so the array is full and holds the frame.
      obtain ⟨inside, -⟩ := List.findIdx?_eq_some_iff_getElem.mp found
      have full : noteFrameLength - buffer.length = 0 := by omega
      have at_end : position = noteFrameLength - 1 := last
      rw [handleReceivedDataCrossTwoFrame, List.take_left, Framing.cut, found]
      simp only [if_pos last, if_pos at_end]
      rw [full, List.replicate_zero, List.append_nil]
    · rw [handle_shift fits found last, Framing.cut, found]
      simp only [if_neg last]

namespace BtReader

variable {reader : BtReader} {pending received : List UInt8}

/-- The request of an iteration is never empty, and never larger than the array. -/
theorem Holds.request (holds : reader.Holds pending) :
    1 ≤ reader.nNeedToReadByte ∧ reader.nNeedToReadByte ≤ noteFrameLength := by
  have nine : noteFrameLength = 9 := rfl
  have short := holds.short
  rw [holds.needed, nine]
  omega

/-- A result the loop accepts fits in the buffer of the library. -/
theorem Holds.room (holds : reader.Holds pending) (accepted : reader.Accepts received) :
    pending.length + received.length ≤ 8 + 1 := by
  have nine : noteFrameLength = 9 := rfl
  have fits := accepted.2
  rw [holds.needed, nine] at fits
  omega

/-- An iteration is a delivery: it keeps the invariant for the bytes the library keeps, and
passes on the frame the library cuts. -/
theorem receive_holds (holds : reader.Holds pending) (accepted : reader.Accepts received) :
    (reader.receive received).1.Holds (Framing.deliver noteFrameEndSymbol 8 pending received).1 ∧
      (reader.receive received).2 = (Framing.deliver noteFrameEndSymbol 8 pending received).2 := by
  have nine : noteFrameLength = 9 := rfl
  have room := holds.room accepted
  have fits : (pending ++ received).length ≤ noteFrameLength := by
    rw [List.length_append, nine]
    exact room
  -- `recv` writes behind the bytes kept, and the count of missing bytes goes down by as much.
  have filled : ((noteFrameLength : Int) - reader.nNeedToReadByte).toNat = pending.length := by
    rw [holds.needed]
    omega
  have read : ((noteFrameLength : Int) - (reader.nNeedToReadByte - received.length)).toNat =
      (pending ++ received).length := by
    rw [holds.needed, List.length_append]
    omega
  have written : memcpy reader.cBuff pending.length received =
      pending ++ received ++
        List.replicate (noteFrameLength - (pending ++ received).length) 0 := by
    rw [holds.filled, memcpy_append received rfl, List.drop_replicate, List.length_append]
    congr 2
    omega
  have cutting := handle_cut fits
  have kept_short := (Framing.cut_scan noteFrameEndSymbol 8 fits).1
  unfold receive Framing.deliver
  simp only [filled, read, written, cutting]
  cases outcome : Framing.cut noteFrameEndSymbol 8 (pending ++ received) with
  | mk kept frame =>
    rw [outcome] at kept_short
    cases frame with
    | none =>
      have unfinished : (noteFrameLength : Int) - kept.length ≠ 0 := by
        have short : kept.length ≤ 8 := kept_short
        omega
      simp only [if_neg unfinished, and_true]
      exact ⟨kept_short, rfl, rfl⟩
    | some frame =>
      have emptied : kept = [] := by
        have empties := Framing.cut_frame_empties noteFrameEndSymbol 8 (congrArg Prod.snd outcome)
        rwa [outcome] at empties
      simp only [Int.sub_self, if_true, and_true]
      rw [emptied]
      exact start_holds

/-- Iterations in two parts. -/
theorem receiveAll_append (reader : BtReader) (front back : List (List UInt8)) :
    reader.receiveAll (front ++ back) =
      (((reader.receiveAll front).1.receiveAll back).1,
        (reader.receiveAll front).2 ++ ((reader.receiveAll front).1.receiveAll back).2) := by
  induction front generalizing reader with
  | nil => simp [receiveAll]
  | cons received rest ih => simp [receiveAll, ih]

/-- Accepted results in two parts. -/
theorem acceptsAll_append {reader : BtReader} {front back : List (List UInt8)} :
    reader.AcceptsAll (front ++ back) ↔
      reader.AcceptsAll front ∧ (reader.receiveAll front).1.AcceptsAll back := by
  induction front generalizing reader with
  | nil => simp [AcceptsAll, receiveAll]
  | cons received rest ih => simp [AcceptsAll, receiveAll, ih, and_assoc]

/-- A run of the loop is a run of deliveries. -/
theorem receiveAll_holds {results : List (List UInt8)} (holds : reader.Holds pending)
    (accepted : reader.AcceptsAll results) :
    Framing.Fits noteFrameEndSymbol 8 pending results ∧
    (reader.receiveAll results).1.Holds
      (Framing.deliverAll noteFrameEndSymbol 8 pending results).1 ∧
    (reader.receiveAll results).2 =
      (Framing.deliverAll noteFrameEndSymbol 8 pending results).2 := by
  induction results generalizing reader pending with
  | nil => exact ⟨trivial, holds, rfl⟩
  | cons received rest ih =>
    obtain ⟨here, later⟩ := accepted
    obtain ⟨kept, framed⟩ := receive_holds holds here
    obtain ⟨fits, held, frames⟩ := ih kept later
    refine ⟨⟨holds.room here, fits⟩, held, ?_⟩
    simp only [receiveAll, Framing.deliverAll, framed, frames]

/-- What the loop passes on depends on the byte stream alone: the frames of its complete
lines, in order, whatever results `recv` cut the stream into. -/
theorem receiveAll_frames {results : List (List UInt8)} (accepted : start.AcceptsAll results) :
    (start.receiveAll results).2 =
      (Framing.lines noteFrameEndSymbol results.flatten).filterMap
        (Framing.frameOf noteFrameEndSymbol 8) := by
  obtain ⟨fits, -, frames⟩ := receiveAll_holds start_holds accepted
  rw [frames, Framing.deliverAll_frames 8 fits]

/-- The results of a `recv` that returns one byte at a time. -/
def bytewise (stream : List UInt8) : List (List UInt8) := stream.map fun byte => [byte]

@[simp] theorem bytewise_flatten (stream : List UInt8) : (bytewise stream).flatten = stream := by
  rw [bytewise, ← List.flatMap_def, List.flatMap_singleton']

/-- Single bytes are always accepted: the request is never empty. -/
theorem Holds.acceptsAll_bytewise (holds : reader.Holds pending) (stream : List UInt8) :
    reader.AcceptsAll (bytewise stream) := by
  induction stream generalizing reader pending with
  | nil => trivial
  | cons byte stream ih =>
    have accepted : reader.Accepts [byte] := ⟨Nat.one_pos, holds.request.1⟩
    exact ⟨accepted, ih (receive_holds holds accepted).1⟩

/-- The frame of one iteration is the frame of one delivery, wherever the run stands. -/
theorem receive_frame {earlier : List (List UInt8)} (accepted : start.AcceptsAll earlier)
    (here : (start.receiveAll earlier).1.Accepts received) :
    ((start.receiveAll earlier).1.receive received).2 =
      (Framing.deliver noteFrameEndSymbol 8
        (Framing.deliverAll noteFrameEndSymbol 8 [] earlier).1 received).2 := by
  obtain ⟨-, held, -⟩ := receiveAll_holds start_holds accepted
  exact (receive_holds held here).2

/-- A frame passed on is the whole array. -/
theorem frame_length {results : List (List UInt8)} (accepted : start.AcceptsAll results) :
    ∀ frame ∈ (start.receiveAll results).2, frame.length = noteFrameLength := by
  intro frame member
  rw [receiveAll_frames accepted] at member
  obtain ⟨line, -, framed⟩ := List.mem_filterMap.mp member
  unfold Framing.frameOf at framed
  split at framed
  · rename_i place
    rw [← Option.some.inj framed, List.length_append, Framing.blockOf_length, place]
    rfl
  · cases framed

/-- Framing does not depend on segmentation. Whatever results `recv` cuts a byte stream into,
the arrays passed to `generateEventContent` are those of the same stream received one byte at a
time, and each is a whole array of nine bytes. -/
theorem frames_bytewise (results : List (List UInt8)) (accepted : start.AcceptsAll results) :
    start.AcceptsAll (bytewise results.flatten) ∧
      (start.receiveAll results).2 = (start.receiveAll (bytewise results.flatten)).2 ∧
      ∀ frame ∈ (start.receiveAll results).2, frame.length = noteFrameLength := by
  have single := start_holds.acceptsAll_bytewise results.flatten
  refine ⟨single, ?_, frame_length accepted⟩
  rw [receiveAll_frames accepted, receiveAll_frames single, bytewise_flatten]

/-- The rule at a stream with an over-long line, received in pieces across its ends of lines. -/
theorem frames_bytewise_pieces :
    start.AcceptsAll (bytewise (ascii "0000000000\n0601AE2C\n\n\n")) ∧
      (start.receiveAll [ascii "000000000", ascii "0\n0601A", ascii "E2C\n", ascii "\n\n"]).2 =
        (start.receiveAll (bytewise (ascii "0000000000\n0601AE2C\n\n\n"))).2 ∧
      ∀ frame ∈ (start.receiveAll
        [ascii "000000000", ascii "0\n0601A", ascii "E2C\n", ascii "\n\n"]).2,
        frame.length = noteFrameLength :=
  frames_bytewise [ascii "000000000", ascii "0\n0601A", ascii "E2C\n", ascii "\n\n"] (by decide)

-- The arrays agree although the readers may be left in different states.
example : (start.receiveAll [ascii "\n\n"]).1 ≠ (start.receiveAll (bytewise (ascii "\n\n"))).1 := by
  decide

end BtReader

end MidiDaemon
