import MidiDaemon.FrameTermination

/-!
# What a serial event depends on

`UART_clientService` clears its array once, before its loop. Afterwards a read replaces as many
bytes as it returns and leaves the others, all eight places are decoded whatever the read
returned, and a field that converts nothing keeps what the stack held. So an event depends on
the last read alone exactly when this read fills the eight places with fields that convert
(`history_free_iff`).
-/

namespace MidiDaemon

open Memory Scanf

/-- The events that `UART_clientService` outputs for reads that follow earlier ones. -/
def eventsAfter (residue : Nat → StackResidue) (history reads : List (List UInt8)) :
    List NoteEvent :=
  (uartEvents residue (List.replicate noteFrameLength 0) (history ++ reads)).drop history.length

/-- Reads of the array never return more than its size. -/
def ReadsFit (reads : List (List UInt8)) : Prop :=
  ∀ received ∈ reads, received.length ≤ noteFrameLength

/-- What is output for a read depends on nothing else: neither on the earlier reads nor on what is
found in memory; and an end of file, however often it is read, outputs no event. -/
structure HistoryFree (received : List UInt8) : Prop where
  /-- Two runs output the same for the read. -/
  same : ∀ (history other : List (List UInt8)) (residue another : Nat → StackResidue),
    ReadsFit history → ReadsFit other →
      eventsAfter residue history [received] = eventsAfter another other [received]
  /-- A run of ends of file outputs nothing. -/
  quiet : received = [] → ∀ (history : List (List UInt8)) (residue : Nat → StackResidue)
    (count : Nat), ReadsFit history →
      eventsAfter residue history (List.replicate count received) = []

/-- Later reads are decoded from the array that the earlier ones left. -/
theorem uartEvents_append (residue : Nat → StackResidue) (cBuff : List UInt8)
    (history reads : List (List UInt8)) :
    uartEvents residue cBuff (history ++ reads) = uartEvents residue cBuff history ++
      uartEvents (fun call => residue (history.length + call)) (history.foldl uartRead cBuff)
        reads := by
  induction history generalizing residue cBuff with
  | nil => simp [uartEvents]
  | cons received rest ih =>
    have calls : (fun call => residue (rest.length + call + 1)) =
        fun call => residue ((received :: rest).length + call) := by
      funext call
      rw [List.length_cons, Nat.add_right_comm]
    rw [List.cons_append, uartEvents, uartEvents, ih, calls, List.foldl_cons, List.cons_append]

/-- The event of the next read. -/
theorem eventsAfter_single (residue : Nat → StackResidue) (history : List (List UInt8))
    (received : List UInt8) :
    eventsAfter residue history [received] = [playFrame (residue history.length)
      (uartRead (history.foldl uartRead (List.replicate noteFrameLength 0)) received)] := by
  rw [eventsAfter, uartEvents_append, List.drop_left' (uartEvents_length ..)]
  rfl

/-- Reads keep the size of the array. -/
theorem foldl_uartRead_length {cBuff : List UInt8} {reads : List (List UInt8)}
    (size : cBuff.length = noteFrameLength) (fit : ReadsFit reads) :
    (reads.foldl uartRead cBuff).length = noteFrameLength := by
  induction reads generalizing cBuff with
  | nil => exact size
  | cons received rest ih =>
    obtain ⟨whole, -⟩ := uartRead_terminated size (fit received List.mem_cons_self)
    exact ih whole fun other member => fit other (.tail _ member)

/-- The array after a read: what was received, what is left in the first eight places, and the
terminator. -/
theorem uartRead_eq {cBuff received : List UInt8} (size : cBuff.length = noteFrameLength)
    (asked : received.length ≤ noteFrameLength) :
    uartRead cBuff received = (received ++ cBuff.drop received.length).take 8 ++ [0] := by
  have nine : noteFrameLength = 9 := rfl
  have whole : (received ++ cBuff.drop received.length).length = 9 := by
    rw [List.length_append, List.length_drop]
    omega
  have behind : (received ++ cBuff.drop received.length).drop (8 + 1) = [] :=
    List.drop_of_length_le (Nat.le_of_eq whole)
  rw [uartRead, memcpy_zero, nine, List.set_eq_take_append_cons_drop, if_pos (by omega), behind]

/-- A terminator ends a field of an event. -/
theorem scanHexByte_terminated (text rest : List UInt8) :
    scanHexByte (text ++ 0 :: rest) = scanHexByte text := by
  rw [scanHexByte, scanHexByte, scanInteger_terminated, Option.map_map]
  rfl

/-- A field of a terminated array is scanned from the bytes in front of the terminator. -/
theorem scanHexByte_field {content : List UInt8} (eight : content.length = 8)
    (rest : List UInt8) (nIndex : Fin noteFrameDataNumber) :
    scanHexByte ((content ++ [0] ++ rest).drop (nIndex * 2)) =
      scanHexByte (content.drop (nIndex * 2)) := by
  have four : noteFrameDataNumber = 4 := rfl
  have inside : nIndex.val * 2 ≤ content.length := by omega
  rw [List.append_assoc, List.singleton_append, List.drop_append_of_le_length inside,
    scanHexByte_terminated]

/-- The eight places that are decoded for a read. -/
def contentAfter (history : List (List UInt8)) (received : List UInt8) : List UInt8 :=
  (received ++ (history.foldl uartRead (List.replicate noteFrameLength 0)).drop
    received.length).take 8

/-- When two runs output the same for a read: every field holds the same number, or the same
old content of the stack. -/
theorem eventsAfter_same_iff {history other : List (List UInt8)} {received : List UInt8}
    {residue another : Nat → StackResidue} (fit : ReadsFit history) (other_fit : ReadsFit other)
    (asked : received.length ≤ noteFrameLength) :
    eventsAfter residue history [received] = eventsAfter another other [received] ↔
      ∀ nIndex : Fin noteFrameDataNumber,
        (scanHexByte ((contentAfter history received).drop (nIndex * 2))).getD
            ((residue history.length).unEventData nIndex) =
          (scanHexByte ((contentAfter other received).drop (nIndex * 2))).getD
            ((another other.length).unEventData nIndex) := by
  have nine : noteFrameLength = 9 := rfl
  have cleared : (List.replicate noteFrameLength (0 : UInt8)).length = noteFrameLength :=
    List.length_replicate
  have size := foldl_uartRead_length cleared fit
  have other_size := foldl_uartRead_length cleared other_fit
  have eight : (contentAfter history received).length = 8 := by
    rw [contentAfter, List.length_take, List.length_append, List.length_drop]
    omega
  have other_eight : (contentAfter other received).length = 8 := by
    rw [contentAfter, List.length_take, List.length_append, List.length_drop]
    omega
  have array : uartRead (history.foldl uartRead (List.replicate noteFrameLength 0)) received =
      contentAfter history received ++ [0] := uartRead_eq size asked
  have other_array : uartRead (other.foldl uartRead (List.replicate noteFrameLength 0)) received =
      contentAfter other received ++ [0] := uartRead_eq other_size asked
  rw [eventsAfter_single, eventsAfter_single, array, other_array, List.cons.injEq,
    and_iff_left rfl, playFrame, playFrame, generateEventContent_eq_iff]
  simp only [scanHexByte_field eight, scanHexByte_field other_eight]

/-- Every field of the eight bytes converts. -/
def Converts (content : List UInt8) : Prop :=
  ∀ nIndex : Fin noteFrameDataNumber, (scanHexByte (content.drop (nIndex * 2))).isSome

instance (content : List UInt8) : Decidable (Converts content) :=
  inferInstanceAs (Decidable (∀ nIndex : Fin noteFrameDataNumber,
    (scanHexByte (content.drop (nIndex * 2))).isSome))

/-- What was left in the seventh place of the array shows in the event, unless the field holds no
number, and then the old content of the stack does. -/
theorem scanHexByte_shows (byte : UInt8) :
    (scanHexByte [byte, 48]).getD 0 ≠ (scanHexByte [byte, 49]).getD 1 := by
  have zero : digitValue 16 48 = some 0 := by decide
  have one : digitValue 16 49 = some 1 := by decide
  cases digit : digitValue 16 byte with
  | some value =>
    have small := digitValue_lt digit
    rw [scanHexByte, scanHexByte, scanInteger_pair digit zero, scanInteger_pair digit one]
    interval_cases value <;> decide
  | none =>
    by_cases blank : isSpace byte
    · have skipped : ∀ text, scanHexByte (byte :: text) = scanHexByte text := by
        intro text
        rw [scanHexByte, scanHexByte, scanInteger, scanInteger, List.dropWhile_cons_of_pos blank]
      rw [skipped, skipped]
      decide
    · by_cases sign : byte = 45 ∨ byte = 43
      · rcases sign with rfl | rfl <;> decide
      · -- No number begins with the byte, so both texts leave the field as it was.
        have unscanned : ∀ next, scanHexByte [byte, next] = none := by
          intro next
          rw [scanHexByte,
            scanInteger_none [next] (by simpa using blank) (fun minus => sign (.inl minus))
            (fun plus => sign (.inr plus)) digit]
          rfl
        rw [unscanned, unscanned]
        decide

/-- A full line that ends with this digit. -/
def lineWith (digit : UInt8) : List UInt8 := List.replicate 7 48 ++ [digit, noteFrameEndSymbol]

/-- A short read leaves the last digit of the line before in its place. -/
theorem contentAfter_short {received : List UInt8} (short : received.length < 8) :
    ∃ byte, ∀ digit, (contentAfter [lineWith digit] received).drop 6 = [byte, digit] := by
  have left : ∀ digit, [lineWith digit].foldl uartRead (List.replicate noteFrameLength 0) =
      List.replicate 7 48 ++ [digit, 0] := fun _ => rfl
  have places : ∀ digit, (contentAfter [lineWith digit] received).drop 6 =
      (received.drop 6 ++ (List.replicate 7 48 ++ [digit, 0]).drop
        (received.length + (6 - received.length))).take 2 := by
    intro digit
    rw [contentAfter, left, List.drop_take, List.drop_append, List.drop_drop]
  by_cases full : received.length ≤ 6
  · refine ⟨48, fun digit => ?_⟩
    have place : received.length + (6 - received.length) = 6 := by omega
    rw [places, List.drop_of_length_le full, place]
    rfl
  · have one : (received.drop 6).length = 1 := by
      rw [List.length_drop]
      omega
    obtain ⟨byte, last⟩ := List.length_eq_one_iff.mp one
    refine ⟨byte, fun digit => ?_⟩
    have place : received.length + (6 - received.length) = 7 := by omega
    rw [places, last, place]
    rfl

/-- A read of eight bytes or nine fills the places that are decoded. -/
theorem contentAfter_full (history : List (List UInt8)) {received : List UInt8}
    (full : 8 ≤ received.length) : contentAfter history received = received.take 8 := by
  rw [contentAfter, List.take_append_of_le_length full]

/-- When an event depends on the line just read: whatever a read returns, its event is free of
the earlier reads exactly when eight bytes at least were read and each of the four conversions on
them finds a number. -/
theorem history_free_iff (received : List UInt8) (asked : received.length ≤ noteFrameLength) :
    HistoryFree received ↔ 8 ≤ received.length ∧ Converts (received.take 8) := by
  constructor
  · intro free
    have full : 8 ≤ received.length := by
      by_contra short
      obtain ⟨byte, shown⟩ := contentAfter_short (Nat.lt_of_not_le short)
      have fit : ∀ digit, ReadsFit [lineWith digit] := by
        intro digit line member
        rw [List.mem_singleton.mp member]
        exact Nat.le_refl 9
      have same := free.same [lineWith 48] [lineWith 49] (fun _ => ⟨fun _ => 0, []⟩)
        (fun _ => ⟨fun _ => 1, []⟩) (fit 48) (fit 49)
      have field : (scanHexByte ((contentAfter [lineWith 48] received).drop 6)).getD 0 =
          (scanHexByte ((contentAfter [lineWith 49] received).drop 6)).getD 1 :=
        (eventsAfter_same_iff (fit 48) (fit 49) asked).mp same ⟨3, by decide⟩
      rw [shown, shown] at field
      exact scanHexByte_shows byte field
    refine ⟨full, fun nIndex => ?_⟩
    have none_before : ReadsFit [] := fun _ member => absurd member List.not_mem_nil
    have same := free.same [] [] (fun _ => ⟨fun _ => 0, []⟩) (fun _ => ⟨fun _ => 1, []⟩)
      none_before none_before
    have field := (eventsAfter_same_iff none_before none_before asked).mp same nIndex
    rw [contentAfter_full [] full] at field
    cases scanned : scanHexByte ((received.take 8).drop (nIndex * 2)) with
    | some byte => rfl
    | none =>
      rw [scanned] at field
      exact absurd (show (0 : UInt8) = 1 from field) (by decide)
  · rintro ⟨full, converts⟩
    refine ⟨fun history other residue another fit other_fit => ?_, fun empty => ?_⟩
    · refine (eventsAfter_same_iff fit other_fit asked).mpr fun nIndex => ?_
      obtain ⟨byte, scanned⟩ := Option.isSome_iff_exists.mp (converts nIndex)
      rw [contentAfter_full history full, contentAfter_full other full, scanned]
      rfl
    · rw [empty] at full
      exact absurd full (by decide)

/-- The rule at a full line. -/
theorem history_free_line : HistoryFree (ascii "0601AE2C\n") :=
  (history_free_iff (ascii "0601AE2C\n") (by decide)).mpr (by decide)

/-- An end of file plays the note before it again. -/
theorem history_replayed :
    ¬ ∀ received : List UInt8, received.length ≤ noteFrameLength → HistoryFree received := by
  intro always
  have free := always [] (by decide)
  have silent := free.quiet rfl [ascii "0601AE2C\n"] (fun _ => ⟨fun _ => 0, []⟩) 1 (by
    intro line member
    rw [List.mem_singleton.mp member]
    decide)
  exact absurd silent (by decide)

end MidiDaemon
