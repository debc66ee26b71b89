import MidiDaemon.Library.Interference
import MidiDaemon.Reassembly
import Mathlib.Data.List.ReduceOption

/-!
# Client threads and their common scratch array

Every client thread runs its own receive loop, but `cTemp` is static: all threads move their
bytes through the same array. A thread is modelled one atomic step at a time, an atomic step
being one `recv`, one comparison, one `memset`, one `memcpy` or one call of
`generateEventContent`, and a schedule interleaves the steps of any number of threads.

Between copying the bytes behind an end symbol out to `cTemp` and copying them back, a thread
depends on what `cTemp` holds. A step of another thread that writes other bytes over them
corrupts its frame (`clients_interfere`). When no step does, every thread goes through the
states of its run alone (`clients_alone`), and alone it is the receive loop
(`alone_receives`).
-/

namespace MidiDaemon

open Memory Machine Interference

/-- The next atomic step of a client thread. -/
inductive ClientStage where
  /-- `recv`. -/
  | receiving
  /-- The comparison of `pBuff[nEndSymbolPos]`, or the end of the search. -/
  | comparing (nEndSymbolPos : Nat)
  /-- `memset(cTemp, 0, sizeof(cTemp))`. -/
  | clearingTemp (nEndSymbolPos : Nat)
  /-- `memcpy` of the bytes behind the end symbol to `cTemp`. -/
  | copyingOut (nEndSymbolPos : Nat)
  /-- `memset(pBuff, 0, nBuffLen)` in front of copying back. -/
  | clearingBuff (nEndSymbolPos : Nat)
  /-- `memcpy` from `cTemp` to `pBuff`. -/
  | copyingBack (nEndSymbolPos : Nat)
  /-- `memset(pBuff, 0, nBuffLen)` of a full array without an end symbol. -/
  | dropping
  /-- `generateEventContent`. -/
  | playing
  /-- `memset(cBuff, 0, sizeof(cBuff))` behind a frame. -/
  | clearingFrame
deriving DecidableEq, Repr

/-- The place of the end symbol that a thread has found and is moving bytes for. -/
def ClientStage.found : ClientStage → Option Nat
  | .clearingTemp nEndSymbolPos | .copyingOut nEndSymbolPos | .clearingBuff nEndSymbolPos
  | .copyingBack nEndSymbolPos => some nEndSymbolPos
  | _ => none

/-- A client thread: where it is, its own variables, and the frames it has passed on. -/
structure ClientThread where
  /-- The next step. -/
  stage : ClientStage
  /-- The variables of the receive loop. -/
  reader : BtReader
  /-- The arguments of the calls of `generateEventContent`, in order. -/
  frames : List (List UInt8)
deriving DecidableEq, Repr

namespace ClientThread

/-- A thread in front of its loop. -/
def start : ClientThread := ⟨.receiving, BtReader.start, []⟩

/-- The bytes already read, which the helper is called with. -/
def nAlreadyReadLength (thread : ClientThread) : Nat :=
  (noteFrameLength - thread.reader.nNeedToReadByte).toNat

/-- The bytes behind an end symbol. -/
def nRest (thread : ClientThread) (nEndSymbolPos : Nat) : Nat :=
  thread.nAlreadyReadLength - nEndSymbolPos - 1

/-- The helper returns: the missing bytes are counted anew, and a full array is a frame. -/
def returning (thread : ClientThread) (cBuff : List UInt8) (nReturned : Nat) : ClientThread :=
  let nNeedToReadByte : Int := noteFrameLength - nReturned
  { thread with
    reader := ⟨cBuff, nNeedToReadByte⟩
    stage := if nNeedToReadByte = 0 then .playing else .receiving }

/-- One atomic step on the common array; `recv` takes the bytes it returns from the label. -/
def act (thread : ClientThread) (cTemp : List UInt8) :
    Option (List UInt8) → Option (ClientThread × List UInt8)
  | some received =>
    if thread.stage = .receiving ∧ thread.reader.Accepts received then
      let cBuff := memcpy thread.reader.cBuff thread.nAlreadyReadLength received
      some ({ thread with
        reader := ⟨cBuff, thread.reader.nNeedToReadByte - received.length⟩
        stage := .comparing 0 }, cTemp)
    else none
  | none =>
    let cBuff := thread.reader.cBuff
    match thread.stage with
    | .receiving => none
    | .comparing nEndSymbolPos =>
      if nEndSymbolPos < thread.nAlreadyReadLength then
        if cBuff[nEndSymbolPos]? = some noteFrameEndSymbol then
          if nEndSymbolPos = noteFrameLength - 1 then
            some (thread.returning cBuff noteFrameLength, cTemp)
          else some ({ thread with stage := .clearingTemp nEndSymbolPos }, cTemp)
        else some ({ thread with stage := .comparing (nEndSymbolPos + 1) }, cTemp)
      else if thread.nAlreadyReadLength = noteFrameLength then
        some ({ thread with stage := .dropping }, cTemp)
      else some (thread.returning cBuff thread.nAlreadyReadLength, cTemp)
    | .clearingTemp nEndSymbolPos =>
      some ({ thread with stage := .copyingOut nEndSymbolPos }, memset cTemp 0 scratchLength)
    | .copyingOut nEndSymbolPos =>
      some ({ thread with stage := .clearingBuff nEndSymbolPos },
        memcpy cTemp 0 ((cBuff.drop (nEndSymbolPos + 1)).take (thread.nRest nEndSymbolPos)))
    | .clearingBuff nEndSymbolPos =>
      some ({ thread with
        reader := { thread.reader with cBuff := memset cBuff 0 noteFrameLength }
        stage := .copyingBack nEndSymbolPos }, cTemp)
    | .copyingBack nEndSymbolPos =>
      some (thread.returning (memcpy cBuff 0 (cTemp.take (thread.nRest nEndSymbolPos)))
        (thread.nRest nEndSymbolPos), cTemp)
    | .dropping => some (thread.returning (memset cBuff 0 noteFrameLength) 0, cTemp)
    | .playing =>
      some ({ thread with stage := .clearingFrame, frames := thread.frames ++ [cBuff] }, cTemp)
    | .clearingFrame =>
      some ({ thread with stage := .receiving, reader := BtReader.start }, cTemp)

/-- The part of the common array that a thread has copied out and not yet copied back. -/
def liveLength (thread : ClientThread) : Nat :=
  match thread.stage with
  | .clearingBuff nEndSymbolPos | .copyingBack nEndSymbolPos => thread.nRest nEndSymbolPos
  | _ => 0

/-- Two contents of the common array that a thread cannot tell apart. -/
def Sees (thread : ClientThread) (cTemp other : List UInt8) : Prop :=
  cTemp.take thread.liveLength = other.take thread.liveLength

instance (thread : ClientThread) (cTemp other : List UInt8) :
    Decidable (thread.Sees cTemp other) :=
  inferInstanceAs (Decidable (_ = _))

/-- The places of a thread are inside its array, which has the size of a frame. -/
structure Placed (thread : ClientThread) : Prop where
  /-- The size of the array. -/
  size : thread.reader.cBuff.length = noteFrameLength
  /-- No more bytes are missing than the array has. -/
  needed : 0 ≤ thread.reader.nNeedToReadByte ∧ thread.reader.nNeedToReadByte ≤ noteFrameLength
  /-- An end symbol that was found is one of the bytes read. -/
  found : ∀ nEndSymbolPos ∈ thread.stage.found, nEndSymbolPos < thread.nAlreadyReadLength

/-- A thread starts with its places inside its array. -/
theorem start_placed : start.Placed := ⟨rfl, by decide, by simp [start, ClientStage.found]⟩

/-- The helper has returned, so the thread moves no bytes. -/
theorem returning_found (thread : ClientThread) (cBuff : List UInt8) (nReturned : Nat) :
    (thread.returning cBuff nReturned).stage.found = none := by
  simp only [returning]
  split <;> rfl

/-- The helper returns with an array of the size of a frame. -/
theorem returning_placed {thread : ClientThread} {cBuff : List UInt8} {nReturned : Nat}
    (size : cBuff.length = noteFrameLength) (bound : nReturned ≤ noteFrameLength) :
    (thread.returning cBuff nReturned).Placed := by
  refine ⟨size, ?_, by simp [returning_found]⟩
  change 0 ≤ (noteFrameLength : Int) - nReturned ∧ (noteFrameLength : Int) - nReturned ≤ _
  omega

/-- The bytes read are no more than the array has. -/
theorem Placed.read_bound {thread : ClientThread} (placed : thread.Placed) :
    thread.nAlreadyReadLength ≤ noteFrameLength := by
  have needed := placed.needed
  unfold nAlreadyReadLength
  omega

/-- A filled array has the size of a frame. -/
theorem Placed.cleared_size {thread : ClientThread} (placed : thread.Placed) :
    (memset thread.reader.cBuff 0 noteFrameLength).length = noteFrameLength := by
  rw [memset_all 0 placed.size, List.length_replicate]

/-- The bytes that are copied out are as many as are copied back. -/
theorem Placed.block_length {thread : ClientThread} {nEndSymbolPos : Nat} (placed : thread.Placed)
    (found : nEndSymbolPos < thread.nAlreadyReadLength) :
    ((thread.reader.cBuff.drop (nEndSymbolPos + 1)).take (thread.nRest nEndSymbolPos)).length =
      thread.nRest nEndSymbolPos := by
  have bound := placed.read_bound
  rw [List.length_take, List.length_drop, placed.size]
  unfold nRest
  omega

/-- An atomic step keeps the places of the thread inside its array. -/
theorem act_placed (thread : ClientThread) (cTemp : List UInt8) (input : Option (List UInt8))
    (result : ClientThread × List UInt8) (placed : thread.Placed)
    (acted : thread.act cTemp input = some result) : result.1.Placed := by
  have bound := placed.read_bound
  have needed := placed.needed
  cases input with
  | some received =>
    simp only [act] at acted
    split at acted
    · rename_i accepted
      have fits := accepted.2.2
      obtain rfl := Option.some.inj acted
      have written : (memcpy thread.reader.cBuff thread.nAlreadyReadLength received).length =
          noteFrameLength := by
        rw [memcpy_length, placed.size]
        rw [placed.size]
        unfold nAlreadyReadLength
        omega
      refine ⟨written, ?_, by simp [ClientStage.found]⟩
      change 0 ≤ thread.reader.nNeedToReadByte - received.length ∧
        thread.reader.nNeedToReadByte - received.length ≤ noteFrameLength
      omega
    · cases acted
  | none =>
    cases stage : thread.stage with
    | receiving => simp [act, stage] at acted
    | comparing nEndSymbolPos =>
      simp only [act, stage] at acted
      split at acted
      · rename_i inside
        split at acted
        · split at acted
          · obtain rfl := Option.some.inj acted
            exact returning_placed placed.size le_rfl
          · obtain rfl := Option.some.inj acted
            refine ⟨placed.size, needed, fun other place => ?_⟩
            obtain rfl : nEndSymbolPos = other := by simpa [ClientStage.found] using place
            exact inside
        · obtain rfl := Option.some.inj acted
          exact ⟨placed.size, needed, by simp [ClientStage.found]⟩
      · split at acted
        · obtain rfl := Option.some.inj acted
          exact ⟨placed.size, needed, by simp [ClientStage.found]⟩
        · obtain rfl := Option.some.inj acted
          exact returning_placed placed.size bound
    | clearingTemp nEndSymbolPos =>
      simp only [act, stage] at acted
      obtain rfl := Option.some.inj acted
      exact ⟨placed.size, needed, fun other place =>
        placed.found other (by rw [stage]; exact place)⟩
    | copyingOut nEndSymbolPos =>
      simp only [act, stage] at acted
      obtain rfl := Option.some.inj acted
      exact ⟨placed.size, needed, fun other place =>
        placed.found other (by rw [stage]; exact place)⟩
    | clearingBuff nEndSymbolPos =>
      simp only [act, stage] at acted
      obtain rfl := Option.some.inj acted
      exact ⟨placed.cleared_size, needed,
        fun other place => placed.found other (by rw [stage]; exact place)⟩
    | copyingBack nEndSymbolPos =>
      simp only [act, stage] at acted
      obtain rfl := Option.some.inj acted
      have rest_bound : thread.nRest nEndSymbolPos ≤ noteFrameLength := by
        unfold nRest
        omega
      refine returning_placed ?_ rest_bound
      rw [memcpy_length, placed.size]
      rw [placed.size, List.length_take]
      omega
    | dropping =>
      simp only [act, stage] at acted
      obtain rfl := Option.some.inj acted
      exact returning_placed placed.cleared_size (Nat.zero_le _)
    | playing =>
      simp only [act, stage] at acted
      obtain rfl := Option.some.inj acted
      exact ⟨placed.size, needed, by simp [ClientStage.found]⟩
    | clearingFrame =>
      simp only [act, stage] at acted
      obtain rfl := Option.some.inj acted
      exact ⟨start_placed.size, start_placed.needed, by simp [ClientStage.found]⟩

/-- A thread that has copied nothing out cannot tell any two contents apart. -/
theorem sees_of_dead {thread : ClientThread} (dead : thread.liveLength = 0)
    (cTemp other : List UInt8) : thread.Sees cTemp other := by
  rw [Sees, dead, List.take_zero, List.take_zero]

/-- The helper has returned, so nothing is copied out. -/
theorem returning_dead (thread : ClientThread) (cBuff : List UInt8) (nReturned : Nat) :
    (thread.returning cBuff nReturned).liveLength = 0 := by
  simp only [returning, liveLength]
  split <;> simp_all <;> split at * <;> simp_all

/-- What has just been copied out is what the thread sees, whatever the array held. -/
theorem copied_out (cTemp : List UInt8) {block : List UInt8} {count : Nat}
    (size : block.length = count) : (memcpy cTemp 0 block).take count = block := by
  rw [memcpy_zero, List.take_left' size]

/-- A thread acts alike on contents it cannot tell apart. -/
theorem act_alike (thread : ClientThread) (cTemp other : List UInt8)
    (input : Option (List UInt8)) (result : ClientThread × List UInt8) (placed : thread.Placed)
    (view : thread.Sees cTemp other) (acted : thread.act cTemp input = some result) :
    ∃ solo, thread.act other input = some solo ∧ solo.1 = result.1 ∧
      result.1.Sees result.2 solo.2 := by
  cases input with
  | some received =>
    simp only [act] at acted ⊢
    split at acted
    · rename_i accepted
      obtain rfl := Option.some.inj acted
      rw [if_pos accepted]
      exact ⟨_, rfl, rfl, sees_of_dead rfl _ _⟩
    · cases acted
  | none =>
    cases stage : thread.stage with
    | receiving => simp [act, stage] at acted
    | comparing nEndSymbolPos =>
      simp only [act, stage] at acted ⊢
      split at acted
      · rename_i inside
        rw [if_pos inside]
        split at acted
        · rename_i symbol
          rw [if_pos symbol]
          split at acted
          · rename_i last
            obtain rfl := Option.some.inj acted
            rw [if_pos last]
            exact ⟨_, rfl, rfl, sees_of_dead (returning_dead ..) _ _⟩
          · rename_i inner
            obtain rfl := Option.some.inj acted
            rw [if_neg inner]
            exact ⟨_, rfl, rfl, sees_of_dead rfl _ _⟩
        · rename_i apart
          obtain rfl := Option.some.inj acted
          rw [if_neg apart]
          exact ⟨_, rfl, rfl, sees_of_dead rfl _ _⟩
      · rename_i outside
        rw [if_neg outside]
        split at acted
        · rename_i full
          obtain rfl := Option.some.inj acted
          rw [if_pos full]
          exact ⟨_, rfl, rfl, sees_of_dead rfl _ _⟩
        · rename_i room
          obtain rfl := Option.some.inj acted
          rw [if_neg room]
          exact ⟨_, rfl, rfl, sees_of_dead (returning_dead ..) _ _⟩
    | clearingTemp nEndSymbolPos =>
      simp only [act, stage] at acted ⊢
      obtain rfl := Option.some.inj acted
      exact ⟨_, rfl, rfl, sees_of_dead rfl _ _⟩
    | copyingOut nEndSymbolPos =>
      have found := placed.found nEndSymbolPos (by rw [stage]; rfl)
      have count := placed.block_length found
      simp only [act, stage] at acted ⊢
      obtain rfl := Option.some.inj acted
      have same : (memcpy cTemp 0 ((thread.reader.cBuff.drop (nEndSymbolPos + 1)).take
          (thread.nRest nEndSymbolPos))).take (thread.nRest nEndSymbolPos) =
        (memcpy other 0 ((thread.reader.cBuff.drop (nEndSymbolPos + 1)).take
          (thread.nRest nEndSymbolPos))).take (thread.nRest nEndSymbolPos) := by
        rw [copied_out cTemp count, copied_out other count]
      exact ⟨_, rfl, rfl, same⟩
    | clearingBuff nEndSymbolPos =>
      have same : cTemp.take (thread.nRest nEndSymbolPos) =
          other.take (thread.nRest nEndSymbolPos) := by
        simpa only [Sees, liveLength, stage] using view
      simp only [act, stage] at acted ⊢
      obtain rfl := Option.some.inj acted
      exact ⟨_, rfl, rfl, same⟩
    | copyingBack nEndSymbolPos =>
      have same : cTemp.take (thread.nRest nEndSymbolPos) =
          other.take (thread.nRest nEndSymbolPos) := by
        simpa only [Sees, liveLength, stage] using view
      simp only [act, stage] at acted ⊢
      obtain rfl := Option.some.inj acted
      rw [same]
      exact ⟨_, rfl, rfl, sees_of_dead (returning_dead ..) _ _⟩
    | dropping =>
      simp only [act, stage] at acted ⊢
      obtain rfl := Option.some.inj acted
      exact ⟨_, rfl, rfl, sees_of_dead (returning_dead ..) _ _⟩
    | playing =>
      simp only [act, stage] at acted ⊢
      obtain rfl := Option.some.inj acted
      exact ⟨_, rfl, rfl, sees_of_dead rfl _ _⟩
    | clearingFrame =>
      simp only [act, stage] at acted ⊢
      obtain rfl := Option.some.inj acted
      exact ⟨_, rfl, rfl, sees_of_dead rfl _ _⟩

/-! ## A thread alone is the receive loop -/

/-- The variables right behind `recv`. -/
def arrived (reader : BtReader) (received : List UInt8) : BtReader :=
  ⟨memcpy reader.cBuff (noteFrameLength - reader.nNeedToReadByte).toNat received,
    reader.nNeedToReadByte - received.length⟩

/-- The bytes read, by the variables of the loop. -/
def readLength (reader : BtReader) : Nat := (noteFrameLength - reader.nNeedToReadByte).toNat

/-- The search of the helper in one go. -/
def search (reader : BtReader) : Option Nat :=
  (reader.cBuff.take (readLength reader)).findIdx? (· = noteFrameEndSymbol)

/-- The helper in one go. -/
def handled (reader : BtReader) : List UInt8 × Nat :=
  handleReceivedDataCrossTwoFrame reader.cBuff (readLength reader) noteFrameLength

/-- The rest of the iteration in one go: the variables at its end, and its frame. -/
def outcome (reader : BtReader) : BtReader × Option (List UInt8) :=
  let nNeedToReadByte : Int := noteFrameLength - (handled reader).2
  if nNeedToReadByte = 0 then (BtReader.start, some (handled reader).1)
  else (⟨(handled reader).1, nNeedToReadByte⟩, none)

/-- An iteration is `recv` and the rest. -/
theorem receive_eq (reader : BtReader) (received : List UInt8) :
    reader.receive received = outcome (arrived reader received) := rfl

/-- How far a thread has come in the iteration that began with these variables behind `recv`
and these frames passed on. -/
def Underway (fresh : BtReader) (before : List (List UInt8)) (thread : ClientThread)
    (cTemp : List UInt8) : Prop :=
  match thread.stage with
  | .receiving =>
    thread.reader = (outcome fresh).1 ∧ thread.frames = before ++ (outcome fresh).2.toList
  | .comparing nEndSymbolPos =>
    thread.reader = fresh ∧ thread.frames = before ∧
      noteFrameEndSymbol ∉ fresh.cBuff.take nEndSymbolPos ∧ nEndSymbolPos ≤ readLength fresh
  | .clearingTemp nEndSymbolPos | .copyingOut nEndSymbolPos =>
    thread.reader = fresh ∧ thread.frames = before ∧ search fresh = some nEndSymbolPos ∧
      nEndSymbolPos ≠ noteFrameLength - 1
  | .clearingBuff nEndSymbolPos =>
    thread.reader = fresh ∧ thread.frames = before ∧ search fresh = some nEndSymbolPos ∧
      nEndSymbolPos ≠ noteFrameLength - 1 ∧
      cTemp.take (thread.nRest nEndSymbolPos) =
        (fresh.cBuff.drop (nEndSymbolPos + 1)).take (thread.nRest nEndSymbolPos)
  | .copyingBack nEndSymbolPos =>
    thread.reader = ⟨memset fresh.cBuff 0 noteFrameLength, fresh.nNeedToReadByte⟩ ∧
      thread.frames = before ∧ search fresh = some nEndSymbolPos ∧
      nEndSymbolPos ≠ noteFrameLength - 1 ∧ fresh.cBuff.length = noteFrameLength ∧
      cTemp.take (thread.nRest nEndSymbolPos) =
        (fresh.cBuff.drop (nEndSymbolPos + 1)).take (thread.nRest nEndSymbolPos)
  | .dropping =>
    thread.reader = fresh ∧ thread.frames = before ∧ search fresh = none ∧
      readLength fresh = noteFrameLength
  | .playing => handled fresh = (thread.reader.cBuff, noteFrameLength) ∧ thread.frames = before
  | .clearingFrame =>
    handled fresh = (thread.reader.cBuff, noteFrameLength) ∧
      thread.frames = before ++ [thread.reader.cBuff]

variable {fresh : BtReader} {before : List (List UInt8)} {thread : ClientThread}

/-- Comparing place by place up to an end symbol is the search in one go. -/
theorem search_found {nEndSymbolPos : Nat} (inside : nEndSymbolPos < readLength fresh)
    (clean : noteFrameEndSymbol ∉ fresh.cBuff.take nEndSymbolPos)
    (symbol : fresh.cBuff[nEndSymbolPos]? = some noteFrameEndSymbol) :
    search fresh = some nEndSymbolPos := by
  obtain ⟨bound, here⟩ := List.getElem?_eq_some_iff.mp symbol
  have taken : nEndSymbolPos < (fresh.cBuff.take (readLength fresh)).length := by
    rw [List.length_take]
    omega
  refine List.findIdx?_eq_some_iff_getElem.mpr ⟨taken, ?_, fun earlier below => ?_⟩
  · simpa using here
  · have member : fresh.cBuff[earlier] ∈ fresh.cBuff.take nEndSymbolPos :=
      List.mem_take_iff_getElem.mpr ⟨earlier, by omega, rfl⟩
    have apart : fresh.cBuff[earlier] ≠ noteFrameEndSymbol := fun same => clean (same ▸ member)
    simpa using apart

/-- Comparing all places without an end symbol is a search in one go that finds nothing. -/
theorem search_none {nEndSymbolPos : Nat} (outside : readLength fresh ≤ nEndSymbolPos)
    (clean : noteFrameEndSymbol ∉ fresh.cBuff.take nEndSymbolPos) : search fresh = none := by
  refine List.findIdx?_eq_none_iff.mpr fun byte member => ?_
  have among : byte ∈ fresh.cBuff.take nEndSymbolPos := List.take_subset_take_left _ outside member
  have apart : byte ≠ noteFrameEndSymbol := fun same => clean (same ▸ among)
  simpa using apart

/-- The helper returns what it returns in one go. -/
theorem returning_underway {cBuff : List UInt8} {nReturned : Nat}
    (result : handled fresh = (cBuff, nReturned)) (passed : thread.frames = before)
    (cTemp : List UInt8) : Underway fresh before (thread.returning cBuff nReturned) cTemp := by
  by_cases full : (noteFrameLength : Int) - nReturned = 0
  · have all : nReturned = noteFrameLength := by omega
    have playing : (thread.returning cBuff nReturned).stage = .playing := if_pos full
    simp only [Underway, playing]
    refine ⟨?_, passed⟩
    rw [result, all]
    rfl
  · have receiving : (thread.returning cBuff nReturned).stage = .receiving := if_neg full
    have out : outcome fresh = (⟨cBuff, noteFrameLength - nReturned⟩, none) := by
      simp only [outcome, result, if_neg full]
    simp only [Underway, receiving, out]
    refine ⟨rfl, ?_⟩
    change thread.frames = _
    simp [passed]

/-- Comparing goes on behind a byte that is no end symbol. -/
theorem clean_next {cBuff : List UInt8} {nEndSymbolPos : Nat}
    (clean : noteFrameEndSymbol ∉ cBuff.take nEndSymbolPos)
    (apart : cBuff[nEndSymbolPos]? ≠ some noteFrameEndSymbol) :
    noteFrameEndSymbol ∉ cBuff.take (nEndSymbolPos + 1) := by
  rw [List.take_add_one, List.mem_append, not_or]
  refine ⟨clean, fun member => apart ?_⟩
  exact Option.mem_toList.mp member

/-- The helper in one go moves the bytes behind the end symbol to the front, the scratch array
leaving no trace. -/
theorem handled_inner {nEndSymbolPos : Nat} (found : search fresh = some nEndSymbolPos)
    (inner : nEndSymbolPos ≠ noteFrameLength - 1)
    (count : ((fresh.cBuff.drop (nEndSymbolPos + 1)).take
      (readLength fresh - nEndSymbolPos - 1)).length = readLength fresh - nEndSymbolPos - 1) :
    handled fresh =
      (memcpy (memset fresh.cBuff 0 noteFrameLength) 0
        ((fresh.cBuff.drop (nEndSymbolPos + 1)).take (readLength fresh - nEndSymbolPos - 1)),
        readLength fresh - nEndSymbolPos - 1) := by
  rw [search] at found
  rw [handled, handleReceivedDataCrossTwoFrame, found]
  simp only [if_neg inner, copied_out _ count]

/-- An atomic step of the helper stays on the way to its result. -/
theorem underway_step {cTemp : List UInt8} {next : ClientThread × List UInt8}
    (placed : thread.Placed) (underway : Underway fresh before thread cTemp)
    (acted : thread.act cTemp none = some next) : Underway fresh before next.1 next.2 := by
  cases stage : thread.stage with
  | receiving => simp [act, stage] at acted
  | comparing nEndSymbolPos =>
    simp only [Underway, stage] at underway
    obtain ⟨same, passed, clean, reached⟩ := underway
    subst same
    simp only [act, stage] at acted
    split at acted
    · rename_i inside
      split at acted
      · rename_i symbol
        have found := search_found inside clean symbol
        split at acted
        · rename_i last
          have result : handled thread.reader = (thread.reader.cBuff, noteFrameLength) := by
            rw [search] at found
            rw [handled, handleReceivedDataCrossTwoFrame, found]
            simp only [if_pos last]
          have stepped := Option.some.inj acted
          subst stepped
          exact returning_underway result passed cTemp
        · rename_i inner
          have stepped := Option.some.inj acted
          subst stepped
          exact ⟨rfl, passed, found, inner⟩
      · rename_i apart
        have stepped := Option.some.inj acted
        subst stepped
        exact ⟨rfl, passed, clean_next clean apart, inside⟩
    · rename_i outside
      have nothing := search_none (Nat.le_of_not_lt outside) clean
      split at acted
      · rename_i full
        have stepped := Option.some.inj acted
        subst stepped
        exact ⟨rfl, passed, nothing, full⟩
      · rename_i room
        have result : handled thread.reader = (thread.reader.cBuff, thread.nAlreadyReadLength) := by
          rw [search] at nothing
          rw [handled, handleReceivedDataCrossTwoFrame, nothing]
          exact if_neg room
        have stepped := Option.some.inj acted
        subst stepped
        exact returning_underway result passed cTemp
  | clearingTemp nEndSymbolPos =>
    simp only [Underway, stage] at underway
    simp only [act, stage] at acted
    have stepped := Option.some.inj acted
    subst stepped
    exact underway
  | copyingOut nEndSymbolPos =>
    simp only [Underway, stage] at underway
    obtain ⟨same, passed, found, inner⟩ := underway
    subst same
    have place := placed.found nEndSymbolPos (by rw [stage]; rfl)
    have copied := copied_out cTemp (placed.block_length place)
    simp only [act, stage] at acted
    have stepped := Option.some.inj acted
    subst stepped
    exact ⟨rfl, passed, found, inner, copied⟩
  | clearingBuff nEndSymbolPos =>
    simp only [Underway, stage] at underway
    obtain ⟨same, passed, found, inner, copied⟩ := underway
    subst same
    simp only [act, stage] at acted
    have stepped := Option.some.inj acted
    subst stepped
    exact ⟨rfl, passed, found, inner, placed.size, copied⟩
  | copyingBack nEndSymbolPos =>
    simp only [Underway, stage] at underway
    obtain ⟨same, passed, found, inner, size, copied⟩ := underway
    have place := placed.found nEndSymbolPos (by rw [stage]; rfl)
    have rest : thread.nRest nEndSymbolPos = readLength fresh - nEndSymbolPos - 1 := by
      rw [nRest, nAlreadyReadLength, same]
      rfl
    have read : thread.nAlreadyReadLength = readLength fresh := by
      rw [nAlreadyReadLength, same]
      rfl
    have bound := placed.read_bound
    have count : ((fresh.cBuff.drop (nEndSymbolPos + 1)).take
        (readLength fresh - nEndSymbolPos - 1)).length = readLength fresh - nEndSymbolPos - 1 := by
      rw [List.length_take, List.length_drop, size]
      omega
    have result := handled_inner found inner count
    simp only [act, stage] at acted
    rw [copied, rest, same] at acted
    have stepped := Option.some.inj acted
    subst stepped
    exact returning_underway result passed cTemp
  | dropping =>
    simp only [Underway, stage] at underway
    obtain ⟨same, passed, nothing, full⟩ := underway
    subst same
    have result : handled thread.reader = (memset thread.reader.cBuff 0 noteFrameLength, 0) := by
      rw [search] at nothing
      rw [handled, handleReceivedDataCrossTwoFrame, nothing]
      exact if_pos full
    simp only [act, stage] at acted
    have stepped := Option.some.inj acted
    subst stepped
    exact returning_underway result passed cTemp
  | playing =>
    simp only [Underway, stage] at underway
    obtain ⟨result, passed⟩ := underway
    simp only [act, stage] at acted
    have stepped := Option.some.inj acted
    subst stepped
    exact ⟨result, by rw [passed]⟩
  | clearingFrame =>
    simp only [Underway, stage] at underway
    obtain ⟨result, passed⟩ := underway
    have out : outcome fresh = (BtReader.start, some thread.reader.cBuff) := by
      simp only [outcome, result, Int.sub_self, if_true]
    simp only [act, stage] at acted
    have stepped := Option.some.inj acted
    subst stepped
    simp only [Underway, out]
    exact ⟨trivial, passed⟩

/-- What a thread alone has received so far, and where that has brought it. -/
def Follows (results : List (List UInt8)) (state : ClientThread × List UInt8) : Prop :=
  BtReader.start.AcceptsAll results ∧
    ((results = [] ∧ state.1 = start) ∨
      ∃ earlier received, results = earlier ++ [received] ∧
        Underway (arrived (BtReader.start.receiveAll earlier).1 received)
          (BtReader.start.receiveAll earlier).2 state.1 state.2)

/-- In front of `recv` the thread is where the receive loop is. -/
theorem Follows.receiving {results : List (List UInt8)} {state : ClientThread × List UInt8}
    (follows : Follows results state) (idle : state.1.stage = .receiving) :
    (state.1.reader, state.1.frames) = BtReader.start.receiveAll results := by
  obtain ⟨-, ⟨rfl, began⟩ | ⟨earlier, received, rfl, underway⟩⟩ := follows
  · rw [began]
    rfl
  · simp only [Underway, idle] at underway
    obtain ⟨reader, frames⟩ := underway
    rw [BtReader.receiveAll_append, reader, frames]
    simp [BtReader.receiveAll, receive_eq]

/-- A thread that is not in front of `recv` has an iteration to go on with. -/
theorem act_follows {results : List (List UInt8)} {state next : ClientThread × List UInt8}
    {input : Option (List UInt8)} (placed : state.1.Placed) (follows : Follows results state)
    (acted : solo act state input = some next) : Follows (results ++ input.toList) next := by
  cases input with
  | some received =>
    have taken : state.1.stage = .receiving ∧ state.1.reader.Accepts received := by
      by_contra refused
      simp only [solo, act, if_neg refused, reduceCtorEq] at acted
    have here := follows.receiving taken.1
    have reader : state.1.reader = (BtReader.start.receiveAll results).1 := congrArg Prod.fst here
    have frames : state.1.frames = (BtReader.start.receiveAll results).2 := congrArg Prod.snd here
    have accepted : BtReader.start.AcceptsAll (results ++ [received]) := by
      refine BtReader.acceptsAll_append.mpr ⟨follows.1, ?_, trivial⟩
      rw [← reader]
      exact taken.2
    simp only [solo, act, if_pos taken] at acted
    have stepped := Option.some.inj acted
    subst stepped
    refine ⟨accepted, .inr ⟨results, received, rfl, ?_⟩⟩
    rw [← reader, ← frames]
    exact ⟨rfl, rfl, by simp, Nat.zero_le _⟩
  | none =>
    obtain ⟨accepted, ⟨rfl, began⟩ | ⟨earlier, received, rfl, underway⟩⟩ := follows
    · rw [solo, began] at acted
      cases acted
    · rw [Option.toList_none, List.append_nil]
      exact ⟨accepted, .inr ⟨earlier, received, rfl, underway_step placed underway acted⟩⟩

/-- A thread alone is the receive loop: whenever it is in front of `recv` again, its
variables and the frames it has passed on are those of the iterations so far. -/
theorem alone_receives {inputs : List (Option (List UInt8))} {cTemp : List UInt8}
    {final : ClientThread × List UInt8}
    (reached : run (solo act) (start, cTemp) inputs = some final)
    (idle : final.1.stage = .receiving) :
    BtReader.start.AcceptsAll inputs.reduceOption ∧
      (final.1.reader, final.1.frames) = BtReader.start.receiveAll inputs.reduceOption := by
  suffices general : ∀ (results : List (List UInt8)) (state : ClientThread × List UInt8),
      state.1.Placed → Follows results state → run (solo act) state inputs = some final →
      Follows (results ++ inputs.reduceOption) final by
    have follows := general [] _ start_placed ⟨trivial, .inl ⟨rfl, rfl⟩⟩ reached
    exact ⟨follows.1, follows.receiving idle⟩
  clear reached idle
  induction inputs with
  | nil =>
    intro results state _ follows reached
    have ended : state = final := Option.some.inj reached
    subst ended
    rw [List.reduceOption_nil, List.append_nil]
    exact follows
  | cons input rest ih =>
    intro results state placed follows reached
    obtain ⟨next, stepped, onward⟩ := Option.bind_eq_some_iff.mp reached
    have later := ih _ next (act_placed _ _ input next placed stepped)
      (act_follows placed follows stepped) onward
    cases input with
    | none =>
      rw [List.reduceOption_cons_of_none]
      simpa using later
    | some received =>
      rw [List.reduceOption_cons_of_some]
      simpa using later

end ClientThread

/-! ## Threads together -/

variable {ι : Type*} [DecidableEq ι]

/-- Any number of threads in front of their loops, and the common array. -/
def startAll : (ι → ClientThread) × List UInt8 :=
  (fun _ => ClientThread.start, List.replicate scratchLength 0)

/-- Clients do not interfere when no step changes bytes that another thread has copied out.
In every schedule of any number of threads in which each step leaves those bytes of the common
array as they are, every thread is at the end where its own steps alone bring it, the
frames it has passed on included. -/
theorem clients_alone {schedule : List (ι × Option (List UInt8))}
    {final : (ι → ClientThread) × List UInt8}
    (quiet : EachStep (step ClientThread.act)
      (Undisturbing ClientThread.act ClientThread.Sees) startAll schedule)
    (reached : run (step ClientThread.act) startAll schedule = some final) (client : ι) :
    ∃ alone, run (solo ClientThread.act)
        (ClientThread.start, List.replicate scratchLength 0) (own client schedule) = some alone ∧
      alone.1 = final.1 client := by
  obtain ⟨alone, ran, same, -⟩ :=
    run_own ClientThread.act ClientThread.Placed ClientThread.Sees
      (fun _ _ => rfl) (fun _ _ _ _ => Eq.trans) ClientThread.act_placed
      (fun own store other input result => ClientThread.act_alike own store other input result)
      (fun _ => ClientThread.start_placed) quiet reached client
  exact ⟨alone, ran, same⟩

/-- The steps of one iteration that moves bytes, up to copying them out, and those behind it. -/
def shiftOut (client : Bool) (received : List UInt8) : List (Bool × Option (List UInt8)) :=
  [(client, some received), (client, none), (client, none), (client, none)]

/-- Two threads that move bytes one after the other. -/
def turns : List (Bool × Option (List UInt8)) :=
  shiftOut false (ascii "\nAB") ++ [(false, none), (false, none)] ++ shiftOut true (ascii "\nC")

/-- The rule at two threads that move bytes one after the other. -/
theorem clients_alone_turns :
    ∃ final, run (step ClientThread.act) startAll turns = some final ∧
      ∀ client, ∃ alone, run (solo ClientThread.act)
        (ClientThread.start, List.replicate scratchLength 0) (own client turns) = some alone ∧
          alone.1 = final.1 client := by
  have ends : (run (step ClientThread.act) startAll turns).isSome := by decide
  obtain ⟨final, reached⟩ := Option.isSome_iff_exists.mp ends
  exact ⟨final, reached, clients_alone (by decide) reached⟩

/-- A second thread clears the common array while the first has two bytes there: the first
passes on a frame that its client never sent. -/
theorem clients_interfere :
    ¬ ∀ (schedule : List (Bool × Option (List UInt8))) (final : (Bool → ClientThread) × List UInt8),
      run (step ClientThread.act) startAll schedule = some final →
      ∀ client, ∃ alone, run (solo ClientThread.act)
          (ClientThread.start, List.replicate scratchLength 0) (own client schedule) = some alone ∧
        alone.1.frames = (final.1 client).frames := by
  intro always
  let schedule := shiftOut false (ascii "\nAB") ++ (shiftOut true (ascii "\n")).take 3 ++
    [(false, none), (false, none), (false, some (ascii "CDEFGH\n"))] ++
    List.replicate 10 (false, none)
  have together : (run (step ClientThread.act) startAll schedule).map
      (fun final => (final.1 false).frames) = some [[0, 0] ++ ascii "CDEFGH\n"] := by decide
  have apart : (run (solo ClientThread.act)
      (ClientThread.start, List.replicate scratchLength 0) (own false schedule)).map
        (fun alone => alone.1.frames) = some [ascii "ABCDEFGH\n"] := by decide
  obtain ⟨final, reached, corrupted⟩ := Option.map_eq_some_iff.mp together
  obtain ⟨alone, ran, same⟩ := always schedule final reached false
  rw [ran, Option.map_some, same, corrupted] at apart
  exact absurd apart (by decide)

end MidiDaemon
