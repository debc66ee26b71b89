import MidiDaemon.Library.Scanf
import MidiDaemon.Strings

/-!
# Note frames and the events they play

A note is sent as a line of eight hexadecimal digits, two for each of type, channel, note and
velocity. `generateEventContent` reads the four fields with `sscanf`, each on its own from
its place in the text, and never looks at the result of the conversion: a field that converts
nothing keeps what the stack held in its place.
-/

namespace MidiDaemon

open Scanf

/-- `NOTE_FRAME_LENGTH`: the characters of a frame and one byte more, which the literal needs
for its terminator and the frame for its end symbol. -/
def noteFrameLength : Nat := "0601AE2C".length + 1

/-- `NOTE_FRAME_DATA_NUMBER`. -/
abbrev noteFrameDataNumber : Nat := (noteFrameLength - 1) / 2

/-- `NOTE_FRAME_END_SYMBOL`, the line feed. -/
def noteFrameEndSymbol : UInt8 := 10

/-- The fields of a sequencer event that a note frame sets. -/
structure NoteEvent where
  /-- `type`. -/
  type : UInt8
  /-- `data.note.channel`. -/
  channel : UInt8
  /-- `data.note.note`. -/
  note : UInt8
  /-- `data.note.velocity`. -/
  velocity : UInt8
deriving DecidableEq, Repr

/-- `sscanf(text, "%2hhx", target)`: the byte stored, or nothing when no digit is found. The
terminator of a string is neither white space nor sign nor digit, so it ends the field. -/
def scanHexByte (text : List UInt8) : Option UInt8 :=
  (scanInteger 16 2 text).map fun scanned => UInt8.ofInt scanned.1

/-- `generateEventContent` on the memory from `pEventString` on; `unEventData` is what the array
of this name holds before the four conversions. -/
def generateEventContent (unEventData : Fin noteFrameDataNumber → UInt8)
    (pEventString : List UInt8) : NoteEvent :=
  let converted (nIndex : Fin noteFrameDataNumber) : UInt8 :=
    (scanHexByte (pEventString.drop (nIndex * 2))).getD (unEventData nIndex)
  ⟨converted ⟨0, by decide⟩, converted ⟨1, by decide⟩, converted ⟨2, by decide⟩,
    converted ⟨3, by decide⟩⟩

/-- Two events are the same when their four fields are: what was converted, or was there. -/
theorem generateEventContent_eq_iff {unEventData other : Fin noteFrameDataNumber → UInt8}
    {pEventString another : List UInt8} :
    generateEventContent unEventData pEventString = generateEventContent other another ↔
      ∀ nIndex : Fin noteFrameDataNumber,
        (scanHexByte (pEventString.drop (nIndex * 2))).getD (unEventData nIndex) =
          (scanHexByte (another.drop (nIndex * 2))).getD (other nIndex) := by
  constructor
  · intro same nIndex
    obtain ⟨type, channel, note, velocity⟩ := NoteEvent.mk.inj same
    have four : noteFrameDataNumber = 4 := rfl
    match nIndex with
    | ⟨0, _⟩ => exact type
    | ⟨1, _⟩ => exact channel
    | ⟨2, _⟩ => exact note
    | ⟨3, _⟩ => exact velocity
    | ⟨index + 4, beyond⟩ => omega
  · intro fields
    simp only [generateEventContent, NoteEvent.mk.injEq]
    exact ⟨fields ⟨0, by decide⟩, fields ⟨1, by decide⟩, fields ⟨2, by decide⟩,
      fields ⟨3, by decide⟩⟩

/-- What a call of `generateEventContent` finds in memory besides the frame: the old content of
its array, and the bytes behind the array of the caller. -/
structure StackResidue where
  /-- The content of `unEventData` before the call converts anything. -/
  unEventData : Fin noteFrameDataNumber → UInt8
  /-- The memory behind `cBuff`. -/
  beyond : List UInt8

/-- The event that is output for a frame. -/
def playFrame (residue : StackResidue) (cBuff : List UInt8) : NoteEvent :=
  generateEventContent residue.unEventData (cBuff ++ residue.beyond)

/-- The events that are output for the frames passed on, one after the other. -/
def playFrames (residue : Nat → StackResidue) (frames : List (List UInt8)) : List NoteEvent :=
  frames.mapIdx fun index cBuff => playFrame (residue index) cBuff

/-! ## Lines that spell an event -/

/-- The hexadecimal digit of a value, in either case. -/
def hexDigit (upper : Bool) (value : Nat) : UInt8 :=
  UInt8.ofNat (if value < 10 then 48 + value else if upper then 55 + value else 87 + value)

/-- The two digits of a byte, with the case of each. -/
def hexByte (upperHigh upperLow : Bool) (byte : UInt8) : List UInt8 :=
  [hexDigit upperHigh (byte.toNat / 16), hexDigit upperLow (byte.toNat % 16)]

/-- The eight digits of an event; `upper` gives the case of each digit. -/
def noteLine (upper : Nat → Bool) (event : NoteEvent) : List UInt8 :=
  hexByte (upper 0) (upper 1) event.type ++ hexByte (upper 2) (upper 3) event.channel ++
    hexByte (upper 4) (upper 5) event.note ++ hexByte (upper 6) (upper 7) event.velocity

/-- A digit of either case has its value. -/
theorem digitValue_hexDigit (upper : Bool) {value : Nat} (small : value < 16) :
    digitValue 16 (hexDigit upper value) = some value := by
  cases upper <;> interval_cases value <;> decide

/-- The two digits of a byte are scanned back to it. -/
theorem scanHexByte_hexByte (upperHigh upperLow : Bool) (byte : UInt8) (rest : List UInt8) :
    scanHexByte (hexByte upperHigh upperLow byte ++ rest) = some byte := by
  have bound := byte.toNat_lt
  have high := digitValue_hexDigit upperHigh (show byte.toNat / 16 < 16 by omega)
  have low := digitValue_hexDigit upperLow (Nat.mod_lt byte.toNat (by decide : 0 < 16))
  have whole : 16 * (byte.toNat / 16) + byte.toNat % 16 = byte.toNat := Nat.div_add_mod _ _
  rw [scanHexByte, hexByte, List.cons_append, List.cons_append, List.nil_append,
    scanInteger_pair high low, whole, Option.map_some]
  have reduced : ((byte.toNat : Int) % 2 ^ 8).toNat = byte.toNat := by omega
  rw [UInt8.ofInt, reduced, UInt8.ofNat_toNat]

/-- A line of digits is eight bytes long. -/
@[simp] theorem noteLine_length (upper : Nat → Bool) (event : NoteEvent) :
    (noteLine upper event).length = 8 := by
  simp [noteLine, hexByte]

/-- A digit is not the end symbol of a frame. -/
theorem hexDigit_ne_end (upper : Bool) {value : Nat} (small : value < 16) :
    hexDigit upper value ≠ noteFrameEndSymbol := by
  have dark := (digitValue_apart (digitValue_hexDigit upper small)).1
  intro same
  rw [same] at dark
  exact absurd dark (by decide)

/-- No byte of a line of digits is the end symbol of a frame. -/
theorem noteLine_unstopped (upper : Nat → Bool) (event : NoteEvent) :
    noteFrameEndSymbol ∉ noteLine upper event := by
  have high : ∀ (case : Bool) (byte : UInt8),
      noteFrameEndSymbol ≠ hexDigit case (byte.toNat / 16) := fun case byte =>
    (hexDigit_ne_end case (by have := byte.toNat_lt; omega)).symm
  have low : ∀ (case : Bool) (byte : UInt8),
      noteFrameEndSymbol ≠ hexDigit case (byte.toNat % 16) := fun case byte =>
    (hexDigit_ne_end case (Nat.mod_lt _ (by decide))).symm
  simp only [noteLine, hexByte, List.mem_append, List.mem_cons, List.not_mem_nil, high, low,
    or_self, not_false_eq_true]

/-- An event is decoded from its line, whatever the stack held and whatever stands behind
the line in memory. -/
theorem generateEventContent_noteLine (unEventData : Fin noteFrameDataNumber → UInt8)
    (upper : Nat → Bool) (event : NoteEvent) (rest : List UInt8) :
    generateEventContent unEventData (noteLine upper event ++ rest) = event := by
  have pair_length : ∀ (high low : Bool) (byte : UInt8), (hexByte high low byte).length = 2 :=
    fun _ _ _ => rfl
  have type : scanHexByte ((noteLine upper event ++ rest).drop (0 * 2)) = some event.type := by
    simp only [noteLine, List.append_assoc, Nat.zero_mul, List.drop_zero, scanHexByte_hexByte]
  have channel : scanHexByte ((noteLine upper event ++ rest).drop (1 * 2)) =
      some event.channel := by
    simp only [noteLine, List.append_assoc]
    rw [List.drop_left' (pair_length ..), scanHexByte_hexByte]
  have note : scanHexByte ((noteLine upper event ++ rest).drop (2 * 2)) = some event.note := by
    simp only [noteLine, List.append_assoc]
    rw [← List.append_assoc, List.drop_left' (by rw [List.length_append]; rfl),
      scanHexByte_hexByte]
  have velocity : scanHexByte ((noteLine upper event ++ rest).drop (3 * 2)) =
      some event.velocity := by
    simp only [noteLine]
    rw [List.append_assoc, List.drop_left' (by simp only [List.length_append]; rfl),
      scanHexByte_hexByte]
  simp only [generateEventContent, type, channel, note, velocity, Option.getD_some]

/-- A frame that is a line of digits and its end symbol plays the event of the line. -/
theorem playFrame_noteLine (residue : StackResidue) (upper : Nat → Bool) (event : NoteEvent) :
    playFrame residue (noteLine upper event ++ [noteFrameEndSymbol]) = event := by
  rw [playFrame, List.append_assoc, generateEventContent_noteLine]

end MidiDaemon
