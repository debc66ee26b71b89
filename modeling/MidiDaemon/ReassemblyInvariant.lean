import MidiDaemon.Reassembly

/-!
# What the receive loop keeps

At every `recv` of `BT_clientService` the array holds the last bytes received and zeros behind
them, and the request is for the zeros, which are never none. The bytes held begin a whole number
of frames behind the start of their line (`recv_invariant`). So no request is empty, nothing is
written outside the array, and the copies through the scratch array fit in it.
-/

namespace MidiDaemon

open Framing Memory

/-- The sizes of the copies to `cTemp` and back in a call of `handleReceivedDataCrossTwoFrame`. -/
def scratchCopies (pBuff : List UInt8) (nAlreadyReadLength nBuffLen : Nat) : List Int :=
  match (pBuff.take nAlreadyReadLength).findIdx? (· = noteFrameEndSymbol) with
  | some nEndSymbolPos =>
    if nEndSymbolPos = nBuffLen - 1 then []
    else [(nAlreadyReadLength : Int) - nEndSymbolPos - 1,
      (nAlreadyReadLength : Int) - nEndSymbolPos - 1]
  | none => []

namespace BtReader

/-- How many bytes the array holds. -/
def nFilled (reader : BtReader) : Nat := (noteFrameLength - reader.nNeedToReadByte).toNat

/-- The places of the array that `recv` writes when it returns these bytes. -/
def recvWrites (reader : BtReader) (received : List UInt8) : List Int :=
  (List.range received.length).map fun (index : Nat) =>
    noteFrameLength - reader.nNeedToReadByte + index

/-- The sizes of the copies through `cTemp` that follow. -/
def copiesBehind (reader : BtReader) (received : List UInt8) : List Int :=
  scratchCopies (memcpy reader.cBuff reader.nFilled received)
    (noteFrameLength - (reader.nNeedToReadByte - received.length)).toNat noteFrameLength

/-- What holds at a `recv` behind this stream of bytes. -/
structure AtRecv (stream : List UInt8) (reader : BtReader) : Prop where
  /-- The request is for one byte at least, and no more than the array. -/
  asked : 1 ≤ reader.nNeedToReadByte ∧ reader.nNeedToReadByte ≤ noteFrameLength
  /-- The array has its size. -/
  size : reader.cBuff.length = noteFrameLength
  /-- As many bytes have been received as it holds. -/
  received : reader.nFilled ≤ stream.length
  /-- They are the last ones. -/
  last : reader.cBuff.take reader.nFilled = stream.drop (stream.length - reader.nFilled)
  /-- Behind them the array is zero. -/
  zero : ∀ byte ∈ reader.cBuff.drop reader.nFilled, byte = 0
  /-- They begin a whole number of frames behind the start of their line. -/
  aligned : Aligned noteFrameEndSymbol 8 (stream.take (stream.length - reader.nFilled))
  /-- What is received next is written inside the array. -/
  writes : ∀ received, reader.Accepts received → ∀ place ∈ reader.recvWrites received,
    0 ≤ place ∧ place < noteFrameLength
  /-- What is copied then fits in both arrays. -/
  copies : ∀ received, reader.Accepts received → ∀ count ∈ reader.copiesBehind received,
    0 ≤ count ∧ count < noteFrameLength ∧ count ≤ scratchLength

/-- The copies of a call are of the bytes behind the symbol found. -/
theorem scratchCopies_bound {pBuff : List UInt8} {nAlreadyReadLength nBuffLen : Nat}
    (size : nAlreadyReadLength ≤ nBuffLen) :
    ∀ count ∈ scratchCopies pBuff nAlreadyReadLength nBuffLen, 0 ≤ count ∧ count < nBuffLen := by
  intro count member
  unfold scratchCopies at member
  split at member
  · rename_i nEndSymbolPos found
    have inside : nEndSymbolPos < (pBuff.take nAlreadyReadLength).length :=
      (List.findIdx?_eq_some_iff_findIdx_eq.mp found).1
    have shorter : (pBuff.take nAlreadyReadLength).length ≤ nAlreadyReadLength :=
      List.length_take_le _ _
    split at member
    · cases member
    · have same : count = (nAlreadyReadLength : Int) - nEndSymbolPos - 1 := by simpa using member
      omega
  · cases member

variable {reader : BtReader} {pending : List UInt8}

/-- The bytes held are the bytes kept. -/
theorem Holds.nFilled_eq (holds : reader.Holds pending) : reader.nFilled = pending.length := by
  rw [nFilled, holds.needed]
  omega

/-- What is received next is written inside the array. -/
theorem Holds.writes (holds : reader.Holds pending) {received : List UInt8}
    (accepted : reader.Accepts received) :
    ∀ place ∈ reader.recvWrites received, 0 ≤ place ∧ place < noteFrameLength := by
  intro place member
  obtain ⟨index, below, rfl⟩ := List.mem_map.mp member
  have inside := List.mem_range.mp below
  have room := accepted.2
  have request := holds.request
  omega

/-- What is copied then fits in both arrays. -/
theorem Holds.copies (holds : reader.Holds pending) {received : List UInt8}
    (accepted : reader.Accepts received) : ∀ count ∈ reader.copiesBehind received,
      0 ≤ count ∧ count < noteFrameLength ∧ count ≤ scratchLength := by
  intro count member
  have nine : noteFrameLength = 9 := rfl
  have scratch : scratchLength = 32 := rfl
  have room := accepted.2
  have request := holds.request
  have bound := scratchCopies_bound (by omega) count member
  omega

/-- What the receive loop keeps: behind every byte stream and any results it was cut into, the
request and the array are as they should be at the next `recv`. -/
theorem recv_invariant (results : List (List UInt8)) (accepted : start.AcceptsAll results) :
    AtRecv results.flatten (start.receiveAll results).1 := by
  obtain ⟨fits, holds, -⟩ := receiveAll_holds start_holds accepted
  obtain ⟨front, split, aligned⟩ := deliverAll_aligned 8 (aligned_nil 8) fits
  rw [List.append_nil, List.nil_append] at split
  have short := holds.short
  have nine : noteFrameLength = 9 := rfl
  have count : results.flatten.length - (start.receiveAll results).1.nFilled = front.length := by
    rw [holds.nFilled_eq, split, List.length_append]
    omega
  exact {
    asked := holds.request
    size := by
      rw [holds.filled]
      exact padded_length (by omega)
    received := by
      rw [holds.nFilled_eq, split, List.length_append]
      omega
    last := by
      rw [count, holds.nFilled_eq, holds.filled, List.take_left, split, List.drop_left]
    zero := by
      rw [holds.nFilled_eq, holds.filled, List.drop_left]
      exact fun byte member => List.eq_of_mem_replicate member
    aligned := by
      rw [count, split, List.take_left]
      exact aligned
    writes := fun received accepted => holds.writes accepted
    copies := fun received accepted => holds.copies accepted }

/-- The rule behind an over-long line whose rest is received with the start of a frame. -/
theorem recv_invariant_pieces :
    AtRecv (ascii "0000000000\n0601A") (start.receiveAll [ascii "000000000", ascii "0\n0601A"]).1 :=
  recv_invariant [ascii "000000000", ascii "0\n0601A"] (by decide)

end BtReader

end MidiDaemon
