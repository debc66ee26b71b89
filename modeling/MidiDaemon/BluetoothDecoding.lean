import MidiDaemon.Reassembly

/-!
# What a Bluetooth client hears

The two contracts of the receive loop. A line of eight digits is decoded to its event whatever
was sent before it, as long as that ended with a line feed, and whatever results `recv` cuts
the stream into (`bluetooth_decodes`). A frame that is passed on need not be a line of the
stream: a full array without an end symbol is cleared, and the loop forgets that it is inside
a line, so the tail of a longer line can be played. `frames_whole_iff` says on which streams
this does not happen.
-/

namespace MidiDaemon

open Framing BtReader

/-- The frames of a byte stream: its complete lines of eight bytes, and the last bytes of a longer
one that fills the array. -/
def framesOf (stream : List UInt8) : List (List UInt8) :=
  (lines noteFrameEndSymbol stream).filterMap (frameOf noteFrameEndSymbol 8)

/-- The frame of a line of digits is the line with its end symbol. -/
theorem frameOf_noteLine (upper : Nat → Bool) (event : NoteEvent) :
    frameOf noteFrameEndSymbol 8 (noteLine upper event) =
      some (noteLine upper event ++ [noteFrameEndSymbol]) :=
  frameOf_exact 8 (noteLine_length upper event)

/-- The frames of lines of digits are these lines. -/
theorem frames_noteLines (notes : List ((Nat → Bool) × NoteEvent)) :
    (lines noteFrameEndSymbol
      (notes.flatMap fun note => noteLine note.1 note.2 ++ [noteFrameEndSymbol])).filterMap
        (frameOf noteFrameEndSymbol 8) =
      notes.map fun note => noteLine note.1 note.2 ++ [noteFrameEndSymbol] := by
  induction notes with
  | nil => rfl
  | cons note notes ih =>
    rw [List.flatMap_cons, List.append_assoc, List.singleton_append,
      lines_stop _ (noteLine_unstopped note.1 note.2),
      List.filterMap_cons_some (frameOf_noteLine note.1 note.2), ih, List.map_cons]

/-- Playing lines of digits outputs their events, whatever the calls find in memory. -/
theorem playFrames_noteLines (residue : Nat → StackResidue)
    (notes : List ((Nat → Bool) × NoteEvent)) :
    playFrames residue (notes.map fun note => noteLine note.1 note.2 ++ [noteFrameEndSymbol]) =
      notes.map Prod.snd := by
  apply List.ext_getElem
  · simp [playFrames]
  · intro index inside _
    simp [playFrames, playFrame_noteLine]

/-- A stream that is empty or ends with the end symbol leaves no open line. -/
theorem ended_cases {stream : List UInt8}
    (ended : stream = [] ∨ stream.getLast? = some noteFrameEndSymbol) :
    stream = [] ∨ ∃ front, stream = front ++ [noteFrameEndSymbol] :=
  ended.imp_right fun last => List.getLast?_eq_some_iff.mp last

/-- Decoding over Bluetooth is complete and exact. A line of eight digits behind a stream
that is empty or ends with a line feed adds exactly one frame to those of the stream alone, in
the iteration that receives the closing line feed, and this frame plays the event of the line.
So the encoding of any list of events is decoded to this list, however it is cut. -/
theorem bluetooth_decodes :
    (∀ (stream : List UInt8) (upper : Nat → Bool) (event : NoteEvent)
      (results : List (List UInt8)),
      (stream = [] ∨ stream.getLast? = some noteFrameEndSymbol) →
      start.AcceptsAll results →
      results.flatten = stream ++ noteLine upper event ++ [noteFrameEndSymbol] →
      ∃ earlier closing frame, results = earlier ++ [closing] ∧
        ((start.receiveAll earlier).1.receive closing).2 = some frame ∧
        (∀ alone, start.AcceptsAll alone → alone.flatten = stream →
          (start.receiveAll results).2 = (start.receiveAll alone).2 ++ [frame]) ∧
        ∀ residue, playFrame residue frame = event) ∧
    (∀ (notes : List ((Nat → Bool) × NoteEvent)) (results : List (List UInt8)),
      start.AcceptsAll results →
      results.flatten =
        notes.flatMap (fun note => noteLine note.1 note.2 ++ [noteFrameEndSymbol]) →
      ∀ residue, playFrames residue (start.receiveAll results).2 = notes.map Prod.snd) := by
  constructor
  · intro stream upper event results ended accepted sent
    have fits := (receiveAll_holds start_holds accepted).1
    have clean := noteLine_unstopped upper event
    have opened : openLine noteFrameEndSymbol (stream ++ noteLine upper event) =
        noteLine upper event := openLine_of_split clean (ended_cases ended)
    have framed : frameOf noteFrameEndSymbol 8
        (openLine noteFrameEndSymbol (stream ++ noteLine upper event)) =
          some (noteLine upper event ++ [noteFrameEndSymbol]) := by
      rw [opened, frameOf_noteLine]
    obtain ⟨earlier, closing, rest, rfl, received, cutting⟩ :=
      exists_deliver_frame 8 fits sent framed
    obtain ⟨before, after⟩ := acceptsAll_append.mp accepted
    -- Nothing is received behind the closing line feed.
    have nothing : rest = [] := by
      rw [List.flatten_append, List.flatten_cons, ← List.append_assoc, received] at sent
      have empty : rest.flatten = [] :=
        List.append_cancel_left (sent.trans (List.append_nil _).symm)
      cases rest with
      | nil => rfl
      | cons more rest =>
        have some_byte : 0 < more.length := after.2.1.1
        have no_byte : more = [] := (List.append_eq_nil_iff.mp empty).1
        rw [no_byte] at some_byte
        exact absurd some_byte (Nat.lt_irrefl 0)
    subst nothing
    refine ⟨earlier, closing, noteLine upper event ++ [noteFrameEndSymbol], rfl, ?_, ?_, ?_⟩
    · rw [receive_frame before after.1]
      exact cutting
    · intro alone alone_accepted alone_sent
      rw [receiveAll_frames accepted, receiveAll_frames alone_accepted, sent, alone_sent,
        lines_append_stop, opened, lines_append_open stream clean, List.filterMap_append,
        List.filterMap_cons_some (frameOf_noteLine upper event)]
      rfl
    · intro residue
      exact playFrame_noteLine residue upper event
  · intro notes results accepted sent residue
    rw [receiveAll_frames accepted, sent, frames_noteLines, playFrames_noteLines]

/-- Both parts at fixed streams: an event behind an over-long line and an empty one, cut across
both, and two events cut in the middle of the first. -/
theorem bluetooth_decodes_streams :
    (∃ earlier closing frame,
      [ascii "000000000", ascii "0\n\n9", ascii "02A4", ascii "07f\n"] = earlier ++ [closing] ∧
      ((start.receiveAll earlier).1.receive closing).2 = some frame ∧
      (∀ alone, start.AcceptsAll alone → alone.flatten = ascii "0000000000\n\n" →
        (start.receiveAll [ascii "000000000", ascii "0\n\n9", ascii "02A4", ascii "07f\n"]).2 =
          (start.receiveAll alone).2 ++ [frame]) ∧
      ∀ residue, playFrame residue frame = ⟨0x90, 0x2A, 0x40, 0x7F⟩) ∧
    ∀ residue,
      playFrames residue (start.receiveAll [ascii "0601", ascii "ae2c\n", ascii "0701ae00\n"]).2 =
        [⟨0x06, 0x01, 0xAE, 0x2C⟩, ⟨0x07, 0x01, 0xAE, 0x00⟩] :=
  ⟨bluetooth_decodes.1 (ascii "0000000000\n\n") (fun digit => digit = 3)
      ⟨0x90, 0x2A, 0x40, 0x7F⟩ _ (by decide) (by decide) (by decide),
    bluetooth_decodes.2 [(fun _ => false, ⟨0x06, 0x01, 0xAE, 0x2C⟩),
      (fun _ => false, ⟨0x07, 0x01, 0xAE, 0x00⟩)] _ (by decide) (by decide)⟩

/-- Each frame passed on is a line of exactly eight bytes of the stream received so far: what
stands in front of it is the start of the stream or an end symbol. -/
def FramesAreLines (results : List (List UInt8)) : Prop :=
  ∀ earlier received later frame, results = earlier ++ received :: later →
    ((start.receiveAll earlier).1.receive received).2 = some frame →
    ∃ front line, earlier.flatten ++ received = front ++ line ++ [noteFrameEndSymbol] ∧
      frame = line ++ [noteFrameEndSymbol] ∧ line.length = 8 ∧ noteFrameEndSymbol ∉ line ∧
      (front = [] ∨ front.getLast? = some noteFrameEndSymbol)

/-- The frames passed on are lines exactly when the deliveries of the library are sound. -/
theorem framesAreLines_iff {results : List (List UInt8)} (accepted : start.AcceptsAll results) :
    FramesAreLines results ↔ Sound noteFrameEndSymbol 8 results := by
  have front_iff : ∀ front : List UInt8,
      (front = [] ∨ front.getLast? = some noteFrameEndSymbol) ↔
        (front = [] ∨ ∃ earlier, front = earlier ++ [noteFrameEndSymbol]) :=
    fun front => or_congr_right List.getLast?_eq_some_iff
  constructor
  · intro whole earlier received later frame split cutting
    subst split
    obtain ⟨before, after⟩ := acceptsAll_append.mp accepted
    rw [← receive_frame before after.1] at cutting
    obtain ⟨front, line, stream, rfl, -, -, start⟩ := whole earlier received later frame rfl cutting
    exact ⟨front, by rw [stream, List.append_assoc], (front_iff front).mp start⟩
  · intro sound earlier received later frame split cutting
    subst split
    obtain ⟨before, after⟩ := acceptsAll_append.mp accepted
    obtain ⟨-, held, -⟩ := receiveAll_holds start_holds before
    rw [receive_frame before after.1] at cutting
    obtain ⟨front, stream, start⟩ := sound earlier received later frame rfl cutting
    obtain ⟨whole, line, buffer, clean, eight⟩ :=
      cut_frame 8 (by rw [List.length_append]; exact held.room after.1) cutting
    have frame_line : frame = line ++ [noteFrameEndSymbol] := whole.trans buffer
    refine ⟨front, line, ?_, frame_line, eight, clean, (front_iff front).mpr start⟩
    rw [stream, frame_line, List.append_assoc]

/-- When framing is sound: every frame passed on is a line of eight bytes exactly when the
stream has no complete line that is longer and has eight bytes more than a multiple of nine. -/
theorem frames_whole_iff {results : List (List UInt8)} (accepted : start.AcceptsAll results) :
    FramesAreLines results ↔
      ∀ line ∈ lines noteFrameEndSymbol results.flatten, line.length % 9 = 8 → line.length = 8 := by
  rw [framesAreLines_iff accepted]
  exact sound_iff 8 (receiveAll_holds start_holds accepted).1

/-- The rule at a stream of two lines of eight bytes. -/
theorem frames_whole_streams : FramesAreLines [ascii "0601AE2C\n", ascii "0600AE00\n"] :=
  (frames_whole_iff (by decide)).mpr (by decide)

/-- A line of seventeen digits is not sound: nine are dropped, and the tail is passed on. -/
theorem frames_not_whole : ¬ ∀ results, start.AcceptsAll results → FramesAreLines results := by
  intro always
  have accepted : start.AcceptsAll [ascii "000000000", ascii "0601AE2C\n"] := by decide
  have sound := (framesAreLines_iff accepted).mp (always _ accepted)
  have exact_lines := (sound_iff 8 (receiveAll_holds start_holds accepted).1).mp sound
  have short := exact_lines (ascii "0000000000601AE2C") (by decide) (by decide)
  exact absurd short (by decide)

end MidiDaemon
