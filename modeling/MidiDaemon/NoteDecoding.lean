import MidiDaemon.Reassembly

/-!
# Lines that are notes, and others

`generateEventContent` never reports a failure, and `BT_clientService` outputs an event for each
array it passes on. So a completed line of eight hexadecimal digits plays the event of its four
bytes, and any other completed line plays an event too, with whatever the conversions left in
its fields (`note_decoded_iff`).
-/

namespace MidiDaemon

open Scanf

/-- The byte of two hexadecimal digits. -/
def hexValue (high low : UInt8) : Option UInt8 :=
  match digitValue 16 high, digitValue 16 low with
  | some first, some second => some (UInt8.ofNat (16 * first + second))
  | _, _ => none

/-- The event of a line, as it is meant: that of its eight hexadecimal digits, and none of any
other content. -/
def noteOf : List UInt8 → Option NoteEvent
  | [typeHigh, typeLow, channelHigh, channelLow, noteHigh, noteLow, velocityHigh, velocityLow] =>
    match hexValue typeHigh typeLow, hexValue channelHigh channelLow, hexValue noteHigh noteLow,
      hexValue velocityHigh velocityLow with
    | some type, some channel, some note, some velocity => some ⟨type, channel, note, velocity⟩
    | _, _, _, _ => none
  | _ => none

/-- Every byte of a content is a hexadecimal digit. -/
def HexDigits (content : List UInt8) : Prop := ∀ byte ∈ content, (digitValue 16 byte).isSome

instance (content : List UInt8) : Decidable (HexDigits content) :=
  List.decidableBAll (fun byte => (digitValue 16 byte).isSome) content

/-- The event that an iteration of `BT_clientService` outputs, if it completes a frame. -/
def BtReader.output (reader : BtReader) (received : List UInt8) (residue : StackResidue) :
    Option NoteEvent :=
  (reader.receive received).2.map (playFrame residue)

/-- Two bytes have a value when they are digits, and only then. -/
theorem hexValue_isSome {high low : UInt8} :
    (hexValue high low).isSome ↔ (digitValue 16 high).isSome ∧ (digitValue 16 low).isSome := by
  unfold hexValue
  cases digitValue 16 high <;> cases digitValue 16 low <;> simp

/-- Two digits are scanned as their byte, whatever stands behind them. -/
theorem scanHexByte_value {high low byte : UInt8} (value : hexValue high low = some byte)
    (rest : List UInt8) : scanHexByte (high :: low :: rest) = some byte := by
  unfold hexValue at value
  split at value
  · rename_i first second high_digit low_digit
    rw [scanHexByte, scanInteger_pair high_digit low_digit, Option.map_some,
      ← Option.some.inj value]
    congr 1
    have small : 16 * first + second < 256 := by
      have high_small := digitValue_lt high_digit
      have low_small := digitValue_lt low_digit
      omega
    rw [UInt8.ofInt]
    congr 1
    omega
  · cases value

/-- A content is a note exactly when it is eight digits. -/
theorem noteOf_isSome {content : List UInt8} (eight : content.length = 8) :
    (noteOf content).isSome ↔ HexDigits content := by
  match content, eight with
  | [a, b, c, d, e, f, g, h], _ =>
    have fields : HexDigits [a, b, c, d, e, f, g, h] ↔ (hexValue a b).isSome ∧
        (hexValue c d).isSome ∧ (hexValue e f).isSome ∧ (hexValue g h).isSome := by
      simp [HexDigits, hexValue_isSome, and_assoc]
    rw [fields, noteOf]
    cases hexValue a b <;> cases hexValue c d <;> cases hexValue e f <;> cases hexValue g h <;>
      simp

/-- A note is decoded, whatever the stack held and whatever stands behind it. -/
theorem generateEventContent_note {content : List UInt8} {event : NoteEvent}
    (note : noteOf content = some event) (unEventData : Fin noteFrameDataNumber → UInt8)
    (rest : List UInt8) : generateEventContent unEventData (content ++ rest) = event := by
  unfold noteOf at note
  split at note
  · split at note
    · rename_i type channel note velocity
      rw [← Option.some.inj note]
      simp [generateEventContent, scanHexByte_value, *]
    · cases note
  · cases note

/-- Wherever the loop stands, an iteration that completes a line of this content outputs the event
of its digits, and no event when it is not made of digits. -/
def DecodedAsMeant (content : List UInt8) : Prop :=
  ∀ (earlier : List (List UInt8)) (received : List UInt8) (residue : StackResidue),
    BtReader.start.AcceptsAll earlier → (BtReader.start.receiveAll earlier).1.Accepts received →
    ((BtReader.start.receiveAll earlier).1.receive received).2 =
      some (content ++ [noteFrameEndSymbol]) →
    (BtReader.start.receiveAll earlier).1.output received residue = noteOf content

/-- A line of eight bytes is completed when it is received at the start. -/
theorem receive_line {content : List UInt8} (eight : content.length = 8)
    (unstopped : noteFrameEndSymbol ∉ content) :
    BtReader.start.Accepts (content ++ [noteFrameEndSymbol]) ∧
      (BtReader.start.receive (content ++ [noteFrameEndSymbol])).2 =
        some (content ++ [noteFrameEndSymbol]) := by
  have nine : noteFrameLength = 9 := rfl
  have accepted : BtReader.start.Accepts (content ++ [noteFrameEndSymbol]) := by
    rw [BtReader.Accepts, List.length_append, List.length_singleton, eight]
    exact ⟨by omega, Int.le_refl 9⟩
  refine ⟨accepted, ?_⟩
  have frames : (BtReader.start.receive (content ++ [noteFrameEndSymbol])).2.toList ++ [] =
      [content ++ [noteFrameEndSymbol]] := by
    have acceptedAll : BtReader.start.AcceptsAll [content ++ [noteFrameEndSymbol]] :=
      ⟨accepted, trivial⟩
    have all := BtReader.receiveAll_frames acceptedAll
    rwa [List.flatten_singleton, Framing.lines_stop [] unstopped, Framing.lines_open (by simp),
      List.filterMap_cons_some (Framing.frameOf_exact 8 eight), List.filterMap_nil] at all
  rwa [List.append_nil, Option.toList_eq_singleton_iff] at frames

/-- When a completed line is decoded as it is meant: exactly when its eight bytes are all
hexadecimal digits: an iteration that completes a line always outputs an event. -/
theorem note_decoded_iff (content : List UInt8) (eight : content.length = 8)
    (unstopped : noteFrameEndSymbol ∉ content) : DecodedAsMeant content ↔ HexDigits content := by
  rw [← noteOf_isSome eight]
  constructor
  · intro decoded
    obtain ⟨accepted, completed⟩ := receive_line eight unstopped
    have event := decoded [] _ ⟨fun _ => 0, []⟩ trivial accepted completed
    rw [← event, BtReader.output, BtReader.receiveAll, completed]
    rfl
  · intro note earlier received residue accepted here completed
    obtain ⟨event, same⟩ := Option.isSome_iff_exists.mp note
    rw [BtReader.output, completed, same, Option.map_some, playFrame, List.append_assoc,
      generateEventContent_note same]

/-- The rule at eight digits. -/
theorem note_decoded_digits : DecodedAsMeant (ascii "0601ae2C") :=
  (note_decoded_iff (ascii "0601ae2C") rfl (by decide)).mpr (by decide)

/-- A line with blanks and a sign in it is played. -/
theorem note_misread :
    ¬ ∀ content : List UInt8, content.length = 8 → noteFrameEndSymbol ∉ content →
      DecodedAsMeant content := by
  intro always
  have decoded := always (ascii " 9-1zz00") rfl (by decide)
  have eight : (ascii " 9-1zz00").length = 8 := rfl
  obtain ⟨accepted, completed⟩ := receive_line eight (by decide)
  have event := decoded [] _ ⟨fun _ => 7, []⟩ trivial accepted completed
  rw [BtReader.output, BtReader.receiveAll, completed] at event
  cases event

end MidiDaemon
