import MidiDaemon.CommandStream

/-!
# The receive buffer of commands

`updateMidiAttr` asks `recv` for as many bytes as its buffer has and then writes a terminator
behind those it got, so a result that fills the buffer is terminated outside it. Any shorter
result is handed on as the text of its own bytes, whatever earlier results have left in the
buffer (`buffer_kept_iff`).
-/

namespace MidiDaemon

open Memory

/-- The indices of `cBuff` that a result writes: those of its bytes, from `recv`, and that of the
terminator. -/
def bufferWrites (received : List UInt8) : List Nat :=
  List.range received.length ++ [received.length]

/-- The buffer behind a result, with `cBuff[nRc] = '\0'`. -/
def terminate (cBuff received : List UInt8) : List UInt8 :=
  (memcpy cBuff 0 received).set received.length 0

/-- Over results, one after the other: every write is inside the buffer, and the text handed on is
terminated inside it and made of the bytes of the result, up to their first terminator. -/
def BufferKept (cBuff : List UInt8) : List (List UInt8) → Prop
  | [] => True
  | received :: rest =>
    (∀ index ∈ bufferWrites received, index < commandBufferLength) ∧
    (∃ index : Nat, index < commandBufferLength ∧ (terminate cBuff received)[index]? = some 0) ∧
    cString (terminate cBuff received) = received.takeWhile (· ≠ 0) ∧
    BufferKept (terminate cBuff received) rest

/-- A result that leaves room for its terminator is executed from the buffer it is written to. -/
theorem receiveCommand_terminate {cBuff received : List UInt8} (state : MidiState)
    (fits : received.length < commandBufferLength) :
    receiveCommand cBuff state received =
      (executeCmdFromUnixSocket (cString (terminate cBuff received)) state).map
        fun result => (terminate cBuff received, result.1) := if_pos fits

/-- A result that leaves room for its terminator keeps the buffer. -/
theorem terminate_kept {cBuff received : List UInt8} (size : cBuff.length = commandBufferLength)
    (fits : received.length < commandBufferLength) :
    (terminate cBuff received).length = commandBufferLength ∧
      (terminate cBuff received)[received.length]? = some 0 ∧
      cString (terminate cBuff received) = received.takeWhile (· ≠ 0) := by
  obtain ⟨rest, terminated, whole⟩ := terminated_eq size fits
  have written : terminate cBuff received = received ++ 0 :: rest := terminated
  rw [written]
  refine ⟨whole, ?_, cString_terminated received rest⟩
  rw [List.getElem?_append_right (Nat.le_refl _), Nat.sub_self]
  rfl

/-- When the receive buffer is kept: for every content of the buffer and any results that
`recv` can have, every write is inside the buffer and every text handed on is that of its result
exactly when no result fills the buffer. -/
theorem buffer_kept_iff (cBuff : List UInt8) (results : List (List UInt8))
    (size : cBuff.length = commandBufferLength) (received : ∀ result ∈ results, Receivable result) :
    BufferKept cBuff results ↔ ∀ result ∈ results, result.length < commandBufferLength := by
  induction results generalizing cBuff with
  | nil => exact ⟨fun _ _ member => absurd member List.not_mem_nil, fun _ => trivial⟩
  | cons first rest ih =>
    have later : ∀ result ∈ rest, Receivable result :=
      fun result member => received result (.tail _ member)
    constructor
    · rintro ⟨inside, -, -, kept⟩
      have fits : first.length < commandBufferLength :=
        inside first.length (List.mem_append_right _ (List.mem_singleton_self _))
      obtain ⟨whole, -, -⟩ := terminate_kept size fits
      intro result member
      rcases List.mem_cons.mp member with rfl | among
      · exact fits
      · exact (ih _ whole later).mp kept result among
    · intro short
      have fits := short first List.mem_cons_self
      obtain ⟨whole, stopped, text⟩ := terminate_kept size fits
      refine ⟨fun index written => ?_, ⟨first.length, fits, stopped⟩, text, ?_⟩
      · rcases List.mem_append.mp written with among | last
        · exact Nat.lt_trans (List.mem_range.mp among) fits
        · rw [List.mem_singleton.mp last]
          exact fits
      · exact (ih _ whole later).mpr fun result member => short result (.tail _ member)

/-- The rule at a long result and a short one behind it. -/
theorem buffer_kept_results :
    BufferKept (List.replicate 128 7) [List.replicate 127 49, [50, 10]] :=
  (buffer_kept_iff _ _ rfl (by simp [Receivable, commandBufferLength])).mpr
    (by simp [commandBufferLength])

/-- A result that fills the buffer is terminated behind it. -/
theorem buffer_overrun :
    ¬ ∀ (cBuff : List UInt8) (results : List (List UInt8)), cBuff.length = commandBufferLength →
      (∀ result ∈ results, Receivable result) → BufferKept cBuff results := by
  intro always
  have kept := always (List.replicate 128 0) [List.replicate 128 49] rfl
    (by simp [Receivable, commandBufferLength])
  have inside := kept.1 128 (by simp [bufferWrites])
  exact absurd inside (by decide)

end MidiDaemon
