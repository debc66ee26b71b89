import Mathlib.Data.List.Basic
import Mathlib.Data.Nat.Init
import Mathlib.Tactic.Common

/-!
# Fixed-width frames in a stream of lines

A stream of symbols is divided into lines by a stop symbol. A scanner of width `width` keeps
the open block of the line it is in: it grows by one symbol at a time, a stop symbol ends it,
and a block that already has `width` symbols and does not end is dropped, so that the scanner
starts a new block in the middle of the line. A block of exactly `width` symbols that ends is
a frame.

`cut` is the same rule for a reader that receives several symbols at once into a buffer of
`width + 1` and looks only for the first stop symbol after each delivery. Symbols that were
received behind that stop symbol stay in the buffer, so the states of two readers of one
stream differ with the way the stream was delivered; `cut_scan` says that they agree on what
the scanner makes of their buffers.
-/

namespace Framing

variable {α : Type*} [DecidableEq α] (stop : α) (width : Nat)

/-! ## Lines -/

/-- The lines of a stream that continue a line begun with `line`: those that are complete, and
the symbols of the last, incomplete one. -/
def splitLines (line : List α) : List α → List (List α) × List α
  | [] => ([], line)
  | symbol :: rest =>
    if symbol = stop then
      let later := splitLines [] rest
      (line :: later.1, later.2)
    else splitLines (line ++ [symbol]) rest

/-- The complete lines of a stream, without their stop symbols. -/
def lines (stream : List α) : List (List α) := (splitLines stop [] stream).1

/-- The symbols after the last stop symbol. -/
def openLine (stream : List α) : List α := (splitLines stop [] stream).2

variable {stop}

/-- Symbols without a stop symbol extend the open line. -/
theorem splitLines_open (line rest : List α) (unstopped : stop ∉ rest) :
    splitLines stop line rest = ([], line ++ rest) := by
  induction rest generalizing line with
  | nil => simp [splitLines]
  | cons symbol rest ih =>
    obtain ⟨apart, later⟩ := not_or.mp (mt List.mem_cons.mpr unstopped)
    rw [splitLines, if_neg (Ne.symm apart), ih _ later, List.append_assoc]
    rfl

/-- A stop symbol completes the open line, and the lines behind it do not depend on it. -/
theorem splitLines_stop (line body rest : List α) (unstopped : stop ∉ body) :
    splitLines stop line (body ++ stop :: rest) =
      ((line ++ body) :: (splitLines stop [] rest).1, (splitLines stop [] rest).2) := by
  induction body generalizing line with
  | nil => simp [splitLines]
  | cons symbol body ih =>
    obtain ⟨apart, later⟩ := not_or.mp (mt List.mem_cons.mpr unstopped)
    rw [List.cons_append, splitLines, if_neg (Ne.symm apart), ih _ later, List.append_assoc]
    rfl

/-- A stream without a stop symbol has no complete line. -/
theorem lines_open {stream : List α} (unstopped : stop ∉ stream) : lines stop stream = [] := by
  rw [lines, splitLines_open _ _ unstopped]

/-- A stream without a stop symbol is its own open line. -/
theorem openLine_open {stream : List α} (unstopped : stop ∉ stream) :
    openLine stop stream = stream := by
  rw [openLine, splitLines_open _ _ unstopped, List.nil_append]

/-- The first line of a stream, then the lines of the rest. -/
@[simp] theorem lines_stop {line : List α} (rest : List α) (unstopped : stop ∉ line) :
    lines stop (line ++ stop :: rest) = line :: lines stop rest := by
  rw [lines, splitLines_stop _ _ _ unstopped, List.nil_append]
  rfl

/-- A complete first line does not matter to the open line. -/
@[simp] theorem openLine_stop {line : List α} (rest : List α) (unstopped : stop ∉ line) :
    openLine stop (line ++ stop :: rest) = openLine stop rest := by
  rw [openLine, splitLines_stop _ _ _ unstopped]
  rfl

variable (stop) in
/-- Induction over the lines of a stream: the open line, then one complete line at a time in
front of the rest. -/
theorem line_induction {motive : List α → Prop}
    (tail : ∀ stream, stop ∉ stream → motive stream)
    (line : ∀ line rest, stop ∉ line → motive rest → motive (line ++ stop :: rest))
    (stream : List α) : motive stream := by
  induction size : stream.length using Nat.strong_induction_on generalizing stream with
  | _ count ih =>
    by_cases stopped : stop ∈ stream
    · obtain ⟨first, rest, rfl, unstopped⟩ := List.eq_append_cons_of_mem stopped
      refine line first rest unstopped (ih rest.length ?_ rest rfl)
      rw [← size, List.length_append, List.length_cons]
      omega
    · exact tail stream stopped

variable (stop) in
/-- The open line has no stop symbol, and in front of it is the start of the stream or a stop
symbol. -/
theorem openLine_split (stream : List α) :
    stop ∉ openLine stop stream ∧ ∃ front, stream = front ++ openLine stop stream ∧
      (front = [] ∨ ∃ earlier, front = earlier ++ [stop]) := by
  induction stream using line_induction stop with
  | tail stream unstopped =>
    rw [openLine_open unstopped]
    exact ⟨unstopped, [], rfl, .inl rfl⟩
  | line line rest unstopped ih =>
    rw [openLine_stop rest unstopped]
    obtain ⟨apart, front, split, start⟩ := ih
    refine ⟨apart, line ++ stop :: front, ?_, .inr ?_⟩
    · conv_lhs => rw [split]
      rw [List.append_assoc, List.cons_append]
    · rcases start with rfl | ⟨earlier, rfl⟩
      · exact ⟨line, rfl⟩
      · exact ⟨line ++ stop :: earlier, by simp⟩

/-- What follows the start of the stream or a stop symbol, up to the end, is the open line. -/
theorem openLine_of_split {front body : List α} (unstopped : stop ∉ body)
    (start : front = [] ∨ ∃ earlier, front = earlier ++ [stop]) :
    openLine stop (front ++ body) = body := by
  rcases start with rfl | ⟨earlier, rfl⟩
  · rw [List.nil_append, openLine_open unstopped]
  · rw [List.append_assoc, List.singleton_append]
    induction earlier using line_induction stop with
    | tail earlier clean => rw [openLine_stop body clean, openLine_open unstopped]
    | line line rest clean ih =>
      rw [List.append_assoc, List.cons_append, openLine_stop _ clean, ih]

/-- The lines of a stream cut behind a stop symbol are the lines of the two parts. -/
theorem lines_append_stop (front back : List α) :
    lines stop (front ++ stop :: back) =
      lines stop front ++ openLine stop front :: lines stop back := by
  induction front using line_induction stop with
  | tail front clean =>
    rw [lines_stop back clean, lines_open clean, openLine_open clean, List.nil_append]
  | line line rest clean ih =>
    rw [List.append_assoc, List.cons_append, lines_stop _ clean, ih, lines_stop rest clean,
      openLine_stop rest clean, List.cons_append]

/-- Symbols without a stop symbol complete no line. -/
theorem lines_append_open (front : List α) {body : List α} (unstopped : stop ∉ body) :
    lines stop (front ++ body) = lines stop front := by
  induction front using line_induction stop with
  | tail front clean =>
    have both : stop ∉ front ++ body := by
      rw [List.mem_append]
      exact not_or.mpr ⟨clean, unstopped⟩
    rw [lines_open both, lines_open clean]
  | line line rest clean ih =>
    rw [List.append_assoc, List.cons_append, lines_stop _ clean, ih, lines_stop rest clean]

/-- More symbols complete more lines behind those there are. -/
theorem lines_begins {front stream : List α} (begins : front <+: stream) :
    lines stop front <+: lines stop stream := by
  obtain ⟨back, rfl⟩ := begins
  induction front using line_induction stop with
  | tail front clean =>
    rw [lines_open clean]
    exact List.nil_prefix
  | line line rest clean ih =>
    rw [List.append_assoc, List.cons_append, lines_stop rest clean, lines_stop (rest ++ back) clean]
    exact (List.prefix_cons_inj line).mpr ih

/-- A line of a stream is what stands between the start of the stream or a stop symbol and the
next stop symbol. -/
theorem mem_lines {stream line : List α} :
    line ∈ lines stop stream ↔ ∃ front back, stream = front ++ line ++ stop :: back ∧
      stop ∉ line ∧ (front = [] ∨ ∃ earlier, front = earlier ++ [stop]) := by
  constructor
  · induction stream using line_induction stop with
    | tail stream clean => simp [lines_open clean]
    | line first rest clean ih =>
      rw [lines_stop rest clean, List.mem_cons]
      rintro (rfl | later)
      · exact ⟨[], rest, rfl, clean, .inl rfl⟩
      · obtain ⟨front, back, rfl, apart, start⟩ := ih later
        refine ⟨first ++ stop :: front, back, by simp, apart, .inr ?_⟩
        rcases start with rfl | ⟨earlier, rfl⟩
        · exact ⟨first, rfl⟩
        · exact ⟨first ++ stop :: earlier, by simp⟩
  · rintro ⟨front, back, rfl, apart, start⟩
    rw [lines_append_stop, openLine_of_split apart start]
    simp

/-! ## The scanner -/

variable (stop) in
/-- One symbol against the open block. -/
def scanStep (block : List α) (symbol : α) : List α × Option (List α) :=
  if symbol = stop then ([], if block.length = width then some (block ++ [stop]) else none)
  else if block.length = width then ([], none)
  else (block ++ [symbol], none)

variable (stop) in
/-- Scan a stream from an open block, collecting the frames that end in it. -/
def scan (block : List α) : List α → List α × List (List α)
  | [] => (block, [])
  | symbol :: rest =>
    let head := scanStep stop width block symbol
    let tail := scan head.1 rest
    (tail.1, head.2.toList ++ tail.2)

/-- Scanning a stream in two parts. -/
theorem scan_append (block front back : List α) :
    scan stop width block (front ++ back) =
      ((scan stop width (scan stop width block front).1 back).1,
        (scan stop width block front).2 ++
          (scan stop width (scan stop width block front).1 back).2) := by
  induction front generalizing block with
  | nil => simp [scan]
  | cons symbol rest ih => simp [scan, ih]

/-- The block a scanner has open in a line of which it has seen `line`. -/
def blockOf (line : List α) : List α :=
  line.drop (line.length / (width + 1) * (width + 1))

omit [DecidableEq α] in
/-- The length of the open block is the place in the line, counted modulo the block size. -/
theorem blockOf_length (line : List α) :
    (blockOf width line).length = line.length % (width + 1) := by
  have division := Nat.div_add_mod' line.length (width + 1)
  rw [blockOf, List.length_drop]
  omega

omit [DecidableEq α] in
/-- A line that fits in a block is its block. -/
theorem blockOf_short {line : List α} (short : line.length ≤ width) :
    blockOf width line = line := by
  rw [blockOf, Nat.div_eq_of_lt (by omega), Nat.zero_mul, List.drop_zero]

variable (stop) in
/-- The frame a complete line gives: its last `width` symbols and the stop symbol when these
make up the open block, and nothing otherwise. -/
def frameOf (line : List α) : Option (List α) :=
  if line.length % (width + 1) = width then some (blockOf width line ++ [stop]) else none

omit [DecidableEq α] in
/-- A line of exactly `width` symbols is a frame. -/
theorem frameOf_exact {line : List α} (exactly : line.length = width) :
    frameOf stop width line = some (line ++ [stop]) := by
  rw [frameOf, exactly, Nat.mod_eq_of_lt (Nat.lt_succ_self width), if_pos rfl,
    blockOf_short width (Nat.le_of_eq exactly)]

/-- A symbol that does not stop the line moves the scanner to the block of the longer line. -/
theorem scanStep_blockOf (line : List α) {symbol : α} (apart : symbol ≠ stop) :
    scanStep stop width (blockOf width line) symbol =
      (blockOf width (line ++ [symbol]), none) := by
  have division := Nat.div_add_mod' line.length (width + 1)
  have below : line.length % (width + 1) < width + 1 := Nat.mod_lt _ (Nat.succ_pos width)
  rw [scanStep, if_neg apart, blockOf_length]
  by_cases full : line.length % (width + 1) = width
  · -- The block is full: the longer line has a whole number of blocks.
    have quotient : (line.length + 1) / (width + 1) = line.length / (width + 1) + 1 := by
      apply Nat.div_eq_of_lt_le
      · rw [Nat.add_mul]
        omega
      · rw [Nat.add_mul, Nat.add_mul]
        omega
    have whole : (line.length + 1) / (width + 1) * (width + 1) = line.length + 1 := by
      rw [quotient, Nat.add_mul]
      omega
    rw [if_pos full, blockOf, List.length_append, List.length_singleton, whole,
      List.drop_of_length_le (by simp)]
  · have quotient : (line.length + 1) / (width + 1) = line.length / (width + 1) := by
      apply Nat.div_eq_of_lt_le
      · omega
      · rw [Nat.add_mul]
        omega
    rw [if_neg full, blockOf, blockOf, List.length_append, List.length_singleton, quotient,
      List.drop_append_of_le_length (by omega)]

/-- A stop symbol gives the frame of the line and opens an empty block. -/
theorem scanStep_stop (line : List α) :
    scanStep stop width (blockOf width line) stop = ([], frameOf stop width line) := by
  rw [scanStep, if_pos rfl, blockOf_length, frameOf]

/-- Symbols without a stop symbol give no frame. -/
theorem scan_open (line body : List α) (unstopped : stop ∉ body) :
    scan stop width (blockOf width line) body = (blockOf width (line ++ body), []) := by
  induction body generalizing line with
  | nil => rw [List.append_nil]; rfl
  | cons symbol rest ih =>
    obtain ⟨apart, later⟩ := not_or.mp (mt List.mem_cons.mpr unstopped)
    rw [scan, scanStep_blockOf width line (Ne.symm apart)]
    simp only [ih (line ++ [symbol]) later, Option.toList_none, List.nil_append,
      List.append_assoc, List.singleton_append]

/-- A complete line gives its frame, and the scanner starts afresh behind it. -/
theorem scan_line (line rest : List α) (unstopped : stop ∉ line) :
    scan stop width [] (line ++ stop :: rest) =
      ((scan stop width [] rest).1,
        (frameOf stop width line).toList ++ (scan stop width [] rest).2) := by
  have opened := scan_open width [] line unstopped
  rw [show blockOf width ([] : List α) = [] from List.drop_nil, List.nil_append] at opened
  rw [scan_append, opened]
  simp only [scan, scanStep_stop, List.nil_append]

variable (stop) in
/-- What a scanner makes of a stream: the frames of its complete lines, in order, and the
block of its open line. -/
theorem scan_stream (stream : List α) :
    scan stop width [] stream =
      (blockOf width (openLine stop stream),
        (lines stop stream).filterMap (frameOf stop width)) := by
  induction stream using line_induction stop with
  | tail stream clean =>
    have opened := scan_open width [] stream clean
    rw [show blockOf width ([] : List α) = [] from List.drop_nil, List.nil_append] at opened
    rw [opened, openLine_open clean, lines_open clean, List.filterMap_nil]
  | line line rest clean ih =>
    rw [scan_line width line rest clean, ih, openLine_stop rest clean, lines_stop rest clean]
    cases frame : frameOf stop width line with
    | none => rw [List.filterMap_cons_none frame, Option.toList_none, List.nil_append]
    | some found => rw [List.filterMap_cons_some frame, Option.toList_some, List.singleton_append]

/-- A scanner gives no frame on fewer than `width + 1` symbols. -/
theorem scan_short_quiet {stream : List α} (short : stream.length ≤ width) :
    (scan stop width [] stream).2 = [] := by
  induction stream using line_induction stop with
  | tail stream clean => rw [scan_stream, lines_open clean, List.filterMap_nil]
  | line line rest clean ih =>
    rw [List.length_append, List.length_cons] at short
    have shorter : line.length % (width + 1) ≠ width := by
      rw [Nat.mod_eq_of_lt (by omega)]
      omega
    rw [scan_line width line rest clean, frameOf, if_neg shorter, ih (by omega)]
    rfl

/-! ## Deliveries of several symbols -/

variable (stop) in
/-- Look for the first stop symbol in a buffer: at the end of a full buffer it closes a frame,
anywhere else it is dropped with all in front of it, and a full buffer without one is dropped
whole. -/
def cut (buffer : List α) : List α × Option (List α) :=
  match buffer.findIdx? (· = stop) with
  | some position =>
    if position = width then ([], some buffer) else (buffer.drop (position + 1), none)
  | none => if buffer.length = width + 1 then ([], none) else (buffer, none)

variable (stop) in
/-- Deliver symbols behind those still in the buffer. -/
def deliver (pending chunk : List α) : List α × Option (List α) :=
  cut stop width (pending ++ chunk)

variable (stop) in
/-- Deliver chunk after chunk, collecting the frames. -/
def deliverAll (pending : List α) : List (List α) → List α × List (List α)
  | [] => (pending, [])
  | chunk :: rest =>
    let head := deliver stop width pending chunk
    let tail := deliverAll head.1 rest
    (tail.1, head.2.toList ++ tail.2)

variable (stop) in
/-- Every chunk fits in the part of the buffer that is free when it is delivered. -/
def Fits (pending : List α) : List (List α) → Prop
  | [] => True
  | chunk :: rest => pending.length + chunk.length ≤ width + 1 ∧
      Fits (deliver stop width pending chunk).1 rest

variable (stop) in
/-- The two outcomes of looking for the first stop symbol. -/
theorem cut_cases (buffer : List α) :
    (stop ∉ buffer ∧ cut stop width buffer =
      if buffer.length = width + 1 then ([], none) else (buffer, none)) ∨
    (∃ line rest, buffer = line ++ stop :: rest ∧ stop ∉ line ∧
      cut stop width buffer =
        if line.length = width then ([], some buffer) else (rest, none)) := by
  by_cases stopped : stop ∈ buffer
  · right
    obtain ⟨line, rest, rfl, clean⟩ := List.eq_append_cons_of_mem stopped
    have found : (line ++ stop :: rest).findIdx? (· = stop) = some line.length := by
      rw [List.findIdx?_append, List.findIdx?_eq_none_iff.mpr]
      · simp [List.findIdx?_cons]
      · intro symbol member
        simpa using fun same : symbol = stop => clean (same ▸ member)
    have kept : (line ++ stop :: rest).drop (line.length + 1) = rest := by
      rw [List.append_cons, List.drop_left' (by simp)]
    refine ⟨line, rest, rfl, clean, ?_⟩
    simp only [cut, found, kept]
  · left
    refine ⟨stopped, ?_⟩
    have missing : buffer.findIdx? (· = stop) = none := by
      rw [List.findIdx?_eq_none_iff]
      intro symbol member
      simpa using fun same : symbol = stop => stopped (same ▸ member)
    rw [cut, missing]

variable (stop) in
/-- Cutting loses nothing the scanner would use: of a buffer of at most `width + 1` symbols
the scanner makes the frame that is cut, if any, and what it makes of the symbols kept. At
most `width` symbols are kept. -/
theorem cut_scan {buffer : List α} (fits : buffer.length ≤ width + 1) :
    (cut stop width buffer).1.length ≤ width ∧
    scan stop width [] buffer =
      ((scan stop width [] (cut stop width buffer).1).1, (cut stop width buffer).2.toList) := by
  rcases cut_cases stop width buffer with ⟨clean, outcome⟩ | ⟨line, rest, rfl, clean, outcome⟩
  · by_cases full : buffer.length = width + 1
    · rw [outcome, if_pos full, scan_stream, openLine_open clean, lines_open clean]
      have dropped : blockOf width buffer = [] := by
        rw [← List.length_eq_zero_iff, blockOf_length, full, Nat.mod_self]
      simp [dropped, scan]
    · have short : buffer.length ≤ width := by omega
      rw [outcome, if_neg full]
      exact ⟨short, Prod.ext rfl (scan_short_quiet width short)⟩
  · rw [List.length_append, List.length_cons] at fits
    rw [outcome, scan_line width line rest clean]
    by_cases full : line.length = width
    · -- The stop symbol is the last of a full buffer.
      obtain rfl : rest = [] := List.length_eq_zero_iff.mp (by omega)
      rw [if_pos full, frameOf, Nat.mod_eq_of_lt (by omega), if_pos full,
        blockOf_short width (by omega)]
      simp [scan]
    · have shorter : line.length % (width + 1) ≠ width := by
        rw [Nat.mod_eq_of_lt (by omega)]
        exact full
      rw [if_neg full, frameOf, if_neg shorter, scan_short_quiet width (by omega)]
      exact ⟨show rest.length ≤ width by omega, rfl⟩

/-- A frame that is cut is the whole buffer: a line of `width` symbols and its stop symbol. -/
theorem cut_frame {buffer frame : List α} (fits : buffer.length ≤ width + 1)
    (framed : (cut stop width buffer).2 = some frame) :
    frame = buffer ∧ ∃ line, buffer = line ++ [stop] ∧ stop ∉ line ∧ line.length = width := by
  rcases cut_cases stop width buffer with ⟨clean, outcome⟩ | ⟨line, rest, split, clean, outcome⟩
  · rw [outcome] at framed
    split at framed <;> cases framed
  · rw [outcome] at framed
    split at framed
    · rename_i full
      rw [split, List.length_append, List.length_cons] at fits
      obtain rfl : rest = [] := List.length_eq_zero_iff.mp (by omega)
      exact ⟨(Option.some.inj framed).symm, line, split, clean, full⟩
    · cases framed

variable (stop) in
/-- Behind a frame nothing is kept. -/
theorem cut_frame_empties {buffer frame : List α}
    (framed : (cut stop width buffer).2 = some frame) : (cut stop width buffer).1 = [] := by
  rcases cut_cases stop width buffer with ⟨-, outcome⟩ | ⟨line, rest, -, -, outcome⟩
  · rw [outcome] at framed
    split at framed <;> cases framed
  · rw [outcome] at framed ⊢
    split at framed
    · rename_i full
      rw [if_pos full]
    · cases framed

/-- Chunks that fit in two parts. -/
theorem fits_append {pending : List α} {front back : List (List α)} :
    Fits stop width pending (front ++ back) ↔
      Fits stop width pending front ∧
        Fits stop width (deliverAll stop width pending front).1 back := by
  induction front generalizing pending with
  | nil => simp [Fits, deliverAll]
  | cons chunk rest ih => simp [Fits, deliverAll, ih, and_assoc]

variable (stop) in
/-- One delivery does what the scanner does with the same symbols. -/
theorem deliver_scan {pending chunk : List α} (short : pending.length ≤ width)
    (room : pending.length + chunk.length ≤ width + 1) :
    (deliver stop width pending chunk).1.length ≤ width ∧
    scan stop width (scan stop width [] pending).1 chunk =
      ((scan stop width [] (deliver stop width pending chunk).1).1,
        (deliver stop width pending chunk).2.toList) := by
  have cutting := cut_scan stop width (by rw [List.length_append]; exact room)
  rw [scan_append, scan_short_quiet width short, List.nil_append] at cutting
  exact cutting

/-- Deliveries do what the scanner does, whatever their sizes: from a buffer of at most
`width` symbols, the scanner makes the same frames of the symbols delivered, and what it makes
of the symbols left in the buffer is where it stands in the stream. -/
theorem deliverAll_scan {pending : List α} {chunks : List (List α)}
    (short : pending.length ≤ width) (fits : Fits stop width pending chunks) :
    (deliverAll stop width pending chunks).1.length ≤ width ∧
    scan stop width (scan stop width [] pending).1 chunks.flatten =
      ((scan stop width [] (deliverAll stop width pending chunks).1).1,
        (deliverAll stop width pending chunks).2) := by
  induction chunks generalizing pending with
  | nil => exact ⟨short, rfl⟩
  | cons chunk rest ih =>
    obtain ⟨room, later⟩ := fits
    obtain ⟨kept_short, kept⟩ := deliver_scan stop width short room
    obtain ⟨end_short, onward⟩ := ih kept_short later
    refine ⟨end_short, ?_⟩
    rw [List.flatten_cons, scan_append, kept, onward]
    rfl

/-- Where the scanner stands after deliveries and some symbols more: in the open line of all of
them. -/
theorem deliverAll_standing {front : List (List α)} (fits : Fits stop width [] front)
    (fresh : List α) :
    (scan stop width (scan stop width [] (deliverAll stop width [] front).1).1 fresh).1 =
      blockOf width (openLine stop (front.flatten ++ fresh)) := by
  have all : (scan stop width [] front.flatten).1 =
      (scan stop width [] (deliverAll stop width [] front).1).1 :=
    (Prod.ext_iff.mp (deliverAll_scan width (Nat.zero_le _) fits).2).1
  have whole : (scan stop width (scan stop width [] front.flatten).1 fresh).1 =
      blockOf width (openLine stop (front.flatten ++ fresh)) := by
    have stream := scan_stream stop width (front.flatten ++ fresh)
    rw [scan_append] at stream
    exact congrArg Prod.fst stream
  rw [← all, whole]

/-- Framing does not depend on the deliveries: a reader that starts with an empty buffer
collects the frames of the complete lines of its stream, in order. -/
theorem deliverAll_frames {chunks : List (List α)} (fits : Fits stop width [] chunks) :
    (deliverAll stop width [] chunks).2 =
      (lines stop chunks.flatten).filterMap (frameOf stop width) := by
  have all := (deliverAll_scan width (Nat.zero_le _) fits).2
  rw [show (scan stop width [] ([] : List α)).1 = [] from rfl, scan_stream] at all
  exact (congrArg Prod.snd all).symm

/-- A frame is cut just as a stop symbol arrives, and it is the block of the line that this
symbol ends. -/
theorem deliver_frame {front : List (List α)} {chunk frame : List α}
    (fits : Fits stop width [] (front ++ [chunk]))
    (framed : (deliver stop width (deliverAll stop width [] front).1 chunk).2 = some frame) :
    ∃ body, front.flatten ++ chunk = body ++ [stop] ∧
      frameOf stop width (openLine stop body) = some frame := by
  obtain ⟨front_fits, room, -⟩ := (fits_append width).mp fits
  obtain ⟨short, -⟩ := deliverAll_scan width (Nat.zero_le _) front_fits
  obtain ⟨rfl, line, split, clean, exactly⟩ :=
    cut_frame width (by rw [List.length_append]; exact room) framed
  -- The stop symbol is the last one delivered, since the kept symbols do not fill the buffer.
  obtain ⟨fresh, rfl⟩ : ∃ fresh, chunk = fresh ++ [stop] := by
    rcases List.eq_nil_or_concat chunk with rfl | ⟨fresh, last, rfl⟩
    · have count := congrArg List.length split
      simp only [List.length_append, List.length_nil, List.length_singleton] at count
      omega
    · rw [List.concat_eq_append, ← List.append_assoc] at split
      have same : [last] = [stop] := List.append_inj_right' split rfl
      exact ⟨fresh, by rw [List.concat_eq_append, same]⟩
  rw [← List.append_assoc] at split
  have kept : (deliverAll stop width [] front).1 ++ fresh = line :=
    List.append_inj_left' split rfl
  refine ⟨front.flatten ++ fresh, by rw [List.append_assoc], ?_⟩
  have here : blockOf width (openLine stop (front.flatten ++ fresh)) = line := by
    have opened : (scan stop width [] line).1 = line := by
      rw [scan_stream, openLine_open clean, blockOf_short width (by omega)]
    rw [← kept, scan_append] at opened
    rw [← deliverAll_standing width front_fits, ← kept]
    exact opened
  have place := blockOf_length width (openLine stop (front.flatten ++ fresh))
  rw [here, exactly] at place
  rw [frameOf, if_pos place.symm, here, ← split, List.append_assoc]

omit [DecidableEq α] in
/-- A symbol of a stream is in one of the chunks that make it up. -/
theorem flatten_split {chunks : List (List α)} {body back : List α} {symbol : α}
    (stream : chunks.flatten = body ++ symbol :: back) :
    ∃ front before after rest, chunks = front ++ (before ++ symbol :: after) :: rest ∧
      body = front.flatten ++ before := by
  rcases List.flatten_eq_append_iff.mp stream with
    ⟨front, others, rfl, rfl, tail⟩ | ⟨front, before, symbol', after, rest, rfl, rfl, tail⟩
  · obtain ⟨empties, after, rest, rfl, blank, -⟩ := List.flatten_eq_cons_iff.mp tail.symm
    refine ⟨front ++ empties, [], after, rest, by simp, ?_⟩
    rw [List.flatten_append, List.flatten_eq_nil_iff.mpr blank]
    simp
  · obtain ⟨rfl, -⟩ := List.cons.inj tail
    exact ⟨front, before, after, rest, rfl, rfl⟩

/-- Where a stop symbol ends a line that gives a frame, the delivery that brings this symbol
ends with it and cuts this frame. -/
theorem exists_deliver_frame {chunks : List (List α)} {body back frame : List α}
    (fits : Fits stop width [] chunks) (stream : chunks.flatten = body ++ stop :: back)
    (framed : frameOf stop width (openLine stop body) = some frame) :
    ∃ front chunk rest, chunks = front ++ chunk :: rest ∧
      front.flatten ++ chunk = body ++ [stop] ∧
      (deliver stop width (deliverAll stop width [] front).1 chunk).2 = some frame := by
  obtain ⟨front, before, after, rest, rfl, rfl⟩ := flatten_split stream
  obtain ⟨front_fits, room, -⟩ := (fits_append width).mp fits
  obtain ⟨short, -⟩ := deliverAll_scan width (Nat.zero_le _) front_fits
  obtain ⟨-, here⟩ := deliver_scan stop width short room
  -- The scanner makes this frame at the stop symbol, so the delivery cuts a frame.
  have frames := congrArg Prod.snd here
  rw [scan_append, deliverAll_standing width front_fits, scan, scanStep_stop, framed] at frames
  simp only [Option.toList_some, List.singleton_append] at frames
  cases cutting : (deliver stop width (deliverAll stop width [] front).1
      (before ++ stop :: after)).2 with
  | none => simp [cutting] at frames
  | some found =>
    rw [cutting, Option.toList_some] at frames
    obtain ⟨rfl, line, split, clean, -⟩ :=
      cut_frame width (by rw [List.length_append]; exact room) cutting
    -- Behind the stop symbol nothing was delivered: a frame has no stop symbol before its last.
    obtain rfl : after = [] := by
      rcases List.eq_nil_or_concat after with rfl | ⟨others, last, rfl⟩
      · rfl
      · rw [List.concat_eq_append, ← List.cons_append, ← List.append_assoc,
          ← List.append_assoc] at split
        have inside := List.append_inj_left' split rfl
        exact absurd (inside ▸ by simp) clean
    refine ⟨front, _, rest, rfl, by rw [List.append_assoc], ?_⟩
    have only : frame ∈ [(deliverAll stop width [] front).1 ++ (before ++ [stop])] := by
      rw [← frames]
      simp
    rw [cutting, List.mem_singleton.mp only]

variable (stop) in
/-- A frame stands at the end of the symbols received so far, and in front of it is the start
of the stream or a stop symbol. -/
def WholeLine (received frame : List α) : Prop :=
  ∃ front, received = front ++ frame ∧ (front = [] ∨ ∃ earlier, front = earlier ++ [stop])

variable (stop) in
/-- Every delivery that cuts a frame cuts a whole line of the stream. -/
def Sound (chunks : List (List α)) : Prop :=
  ∀ front chunk rest frame, chunks = front ++ chunk :: rest →
    (deliver stop width (deliverAll stop width [] front).1 chunk).2 = some frame →
    WholeLine stop (front.flatten ++ chunk) frame

/-- The frame of an open line is a whole line exactly when the line has `width` symbols. -/
theorem wholeLine_iff {body frame : List α}
    (framed : frameOf stop width (openLine stop body) = some frame) :
    WholeLine stop (body ++ [stop]) frame ↔ (openLine stop body).length = width := by
  rw [frameOf] at framed
  split at framed
  · rename_i place
    obtain rfl := Option.some.inj framed
    obtain ⟨clean, outer, split, start⟩ := openLine_split stop body
    have unstopped : stop ∉ blockOf width (openLine stop body) :=
      fun member => clean (List.mem_of_mem_drop member)
    constructor
    · rintro ⟨front, received, start'⟩
      rw [← List.append_assoc] at received
      have body_split : body = front ++ blockOf width (openLine stop body) :=
        List.append_inj_left' received rfl
      have same := openLine_of_split unstopped start'
      rw [← body_split] at same
      rw [same, blockOf_length, place]
    · intro exactly
      refine ⟨outer, ?_, start⟩
      rw [blockOf_short width (by omega), ← List.append_assoc, ← split]
  · cases framed

/-- When the frames are whole lines: every frame cut from a stream is a whole line of it
exactly when no complete line is longer than `width` and as long, up to whole blocks, as a
frame. -/
theorem sound_iff {chunks : List (List α)} (fits : Fits stop width [] chunks) :
    Sound stop width chunks ↔
      ∀ line ∈ lines stop chunks.flatten, line.length % (width + 1) = width →
        line.length = width := by
  constructor
  · intro sound line member place
    obtain ⟨outer, back, stream, clean, start⟩ := mem_lines.mp member
    have opened : openLine stop (outer ++ line) = line := openLine_of_split clean start
    have framed : frameOf stop width (openLine stop (outer ++ line)) =
        some (blockOf width line ++ [stop]) := by
      rw [opened, frameOf, if_pos place]
    obtain ⟨front, chunk, rest, split, received, cutting⟩ :=
      exists_deliver_frame width fits stream framed
    have whole := sound front chunk rest _ split cutting
    rw [received, wholeLine_iff width framed, opened] at whole
    exact whole
  · rintro exact_lines front chunk rest frame rfl cutting
    obtain ⟨front_fits, room, -⟩ := (fits_append width).mp fits
    obtain ⟨body, received, framed⟩ :=
      deliver_frame width ((fits_append width).mpr ⟨front_fits, room, trivial⟩) cutting
    rw [received, wholeLine_iff width framed]
    have complete : openLine stop body ∈ lines stop (front ++ chunk :: rest).flatten := by
      rw [List.flatten_append, List.flatten_cons, ← List.append_assoc, received,
        List.append_assoc, List.singleton_append, lines_append_stop]
      simp
    apply exact_lines _ complete
    rw [frameOf] at framed
    split at framed
    · assumption
    · cases framed

/-! ## Where the buffer stands -/

variable (stop) in
/-- The end of a stream stands a whole number of blocks behind the start of its line. -/
def Aligned (stream : List α) : Prop :=
  ∃ before line, stream = before ++ line ∧ (before = [] ∨ ∃ earlier, before = earlier ++ [stop]) ∧
    stop ∉ line ∧ line.length % (width + 1) = 0

omit [DecidableEq α] in
/-- The start of a stream is the start of a line. -/
theorem aligned_nil : Aligned stop width [] :=
  ⟨[], [], rfl, .inl rfl, List.not_mem_nil, Nat.zero_mod _⟩

omit [DecidableEq α] in
/-- So is the place behind a stop symbol. -/
theorem aligned_stop (stream : List α) : Aligned stop width (stream ++ [stop]) :=
  ⟨stream ++ [stop], [], (List.append_nil _).symm, .inr ⟨stream, rfl⟩, List.not_mem_nil,
    Nat.zero_mod _⟩

omit [DecidableEq α] in
/-- A block without a stop symbol goes on by one block. -/
theorem Aligned.block {stream block : List α} (aligned : Aligned stop width stream)
    (clean : stop ∉ block) (full : block.length = width + 1) :
    Aligned stop width (stream ++ block) := by
  obtain ⟨before, line, rfl, start, unstopped, whole⟩ := aligned
  refine ⟨before, line ++ block, List.append_assoc _ _ _, start, ?_, ?_⟩
  · rw [List.mem_append]
    exact not_or.mpr ⟨unstopped, clean⟩
  · rw [List.length_append, full, Nat.add_mod_right]
    exact whole

/-- What is kept of a buffer is its end, and begins at an aligned place again. -/
theorem cut_aligned {stream buffer : List α} (aligned : Aligned stop width stream)
    (fits : buffer.length ≤ width + 1) :
    ∃ dropped, buffer = dropped ++ (cut stop width buffer).1 ∧
      Aligned stop width (stream ++ dropped) := by
  rcases cut_cases stop width buffer with ⟨clean, outcome⟩ | ⟨line, rest, split, clean, outcome⟩
  · by_cases full : buffer.length = width + 1
    · rw [outcome, if_pos full]
      exact ⟨buffer, (List.append_nil _).symm, aligned.block width clean full⟩
    · rw [outcome, if_neg full]
      exact ⟨[], rfl, by rwa [List.append_nil]⟩
  · have behind : Aligned stop width (stream ++ (line ++ [stop])) := by
      rw [← List.append_assoc]
      exact aligned_stop width _
    have ended : buffer = (line ++ [stop]) ++ rest := by rw [split, List.append_assoc]; rfl
    by_cases full : line.length = width
    · -- The stop symbol is the last of a full buffer.
      rw [ended, List.length_append, List.length_append, List.length_singleton, full] at fits
      have nothing : rest = [] := List.length_eq_zero_iff.mp (by omega)
      rw [outcome, if_pos full]
      exact ⟨line ++ [stop], by rw [ended, nothing], behind⟩
    · rw [outcome, if_neg full]
      exact ⟨line ++ [stop], ended, behind⟩

/-- The buffer stands at an aligned place: what deliveries leave in it is the end of the stream,
and begins a whole number of blocks behind the start of its line. -/
theorem deliverAll_aligned {stream pending : List α} {chunks : List (List α)}
    (aligned : Aligned stop width stream) (fits : Fits stop width pending chunks) :
    ∃ front, stream ++ pending ++ chunks.flatten =
        front ++ (deliverAll stop width pending chunks).1 ∧ Aligned stop width front := by
  induction chunks generalizing stream pending with
  | nil => exact ⟨stream, by simp [deliverAll], aligned⟩
  | cons chunk rest ih =>
    obtain ⟨room, later⟩ := fits
    have whole : (pending ++ chunk).length ≤ width + 1 := by
      rw [List.length_append]
      exact room
    obtain ⟨dropped, split, onward⟩ := cut_aligned width aligned whole
    obtain ⟨front, received, place⟩ := ih onward later
    refine ⟨front, ?_, place⟩
    calc
      stream ++ pending ++ (chunk :: rest).flatten =
        stream ++ (pending ++ chunk) ++ rest.flatten := by
        simp only [List.flatten_cons, List.append_assoc]
      _ = stream ++ dropped ++ (deliver stop width pending chunk).1 ++ rest.flatten := by
        rw [split, ← List.append_assoc, deliver]
      _ = front ++ (deliverAll stop width pending (chunk :: rest)).1 := received

end Framing
